/-
The recurrence of the recognition table.

* `Table.cell_cons_succ_succ`: the cells that do not start at a new first token are the cells of
  the table of the rest;
* `Table.cell_self`, `Table.cell_of_lt`: a cell of one token is lexical, and a longer cell joins
  the cells of its splits, the earliest split first;
* `Table.cell_eq_nil`: outside of the sequence every cell is empty;
* `Table.nodup_cell`: no cell repeats a nonterminal.
-/
import Clausal.Grammar.Table
import Clausal.Proofs.Lists

namespace Clausal

/-- The shortcut for empty cells does not matter. -/
lemma Cell.combine_eq (pairings : List Pairing) (left right : Cell) :
    combine pairings left right
      = (pairings.filter fun p => p.left ∈ left ∧ p.right ∈ right).map Pairing.whole := by
  rw [combine]
  split
  · next h =>
      have hempty : left = [] ∨ right = [] := by simpa using h
      rcases hempty with rfl | rfl <;> simp
  · simp

/-! ### Columns -/

namespace Column

/-- The first cells of some columns: the row of the stretches that start at the first token. -/
def firstRow (columns : List Column) : List Cell := columns.map fun column => column.headD []

lemma length_addStart (pairings : List Pairing) (lefts : List Cell) (columns : List Column) :
    (addStart pairings lefts columns).length = columns.length := by
  induction columns generalizing lefts with
  | nil => rfl
  | cons column rest ih => rw [addStart, List.length_cons, ih, List.length_cons]

/-- Each extended column is the old one below a new cell, and the new cell joins the old column with
the row of new cells before it. -/
lemma getElem?_addStart (pairings : List Pairing) (lefts : List Cell) (columns : List Column)
    (j : ℕ) :
    (addStart pairings lefts columns)[j]? = columns[j]?.map fun column =>
      Cell.joined pairings
        (lefts ++ firstRow ((addStart pairings lefts columns).take j)) column :: column := by
  induction columns generalizing lefts j with
  | nil => simp [addStart]
  | cons column rest ih =>
      cases j with
      | zero => simp [addStart, firstRow]
      | succ j =>
          have hrow : ∀ cell (tail : List Column),
              lefts ++ firstRow ((cell :: column) :: tail) = (lefts ++ [cell]) ++ firstRow tail := by
            intro cell tail
            simp [firstRow]
          simp only [addStart, List.getElem?_cons_succ, List.take_succ_cons, hrow]
          exact ih _ j

end Column

lemma Grammar.length_columns (g : Grammar) (ts : List Token) :
    (g.columns ts).length = ts.length := by
  induction ts with
  | nil => rfl
  | cons t ts ih => rw [columns, List.length_cons, Column.length_addStart, ih, List.length_cons]

/-- The column of an end has one cell for each start up to that end. -/
lemma Grammar.length_of_getElem?_columns {g : Grammar} {ts : List Token} {j : ℕ} {column : Column}
    (h : (g.columns ts)[j]? = some column) : column.length = j + 1 := by
  induction ts generalizing j column with
  | nil => simp [columns] at h
  | cons t ts ih =>
      cases j with
      | zero =>
          simp only [columns, List.getElem?_cons_zero, Option.some.injEq] at h
          simp [← h]
      | succ j =>
          rw [columns, List.getElem?_cons_succ, Column.getElem?_addStart] at h
          obtain ⟨old, hold, rfl⟩ := Option.map_eq_some_iff.mp h
          rw [List.length_cons, ih hold]

/-! ### Cells -/

namespace Table

variable {g : Grammar} {ts : List Token} {t : Token} {i j : ℕ}

lemma cell_eq : (g.table ts).cell i j = (((g.columns ts)[j]?.getD [])[i]?).getD [] := rfl

/-- A column lists the cells of its end. -/
lemma getElem?_columns (hj : j < ts.length) :
    (g.columns ts)[j]? = some ((List.range (j + 1)).map fun i => (g.table ts).cell i j) := by
  have hlen : j < (g.columns ts).length := by rwa [g.length_columns]
  have hcol := List.getElem?_eq_getElem hlen
  have hsize := Grammar.length_of_getElem?_columns hcol
  rw [hcol]
  congr 1
  refine List.ext_getElem (by simp [hsize]) fun i h₁ h₂ => ?_
  simp [cell_eq, hcol, List.getElem?_eq_getElem h₁]

/-- Outside of the sequence and where the end comes before the start, every cell is empty. -/
lemma cell_eq_nil (h : ¬(i ≤ j ∧ j < ts.length)) : (g.table ts).cell i j = [] := by
  rw [cell_eq]
  by_cases hj : j < ts.length
  · have hi : j + 1 ≤ i := by omega
    rw [getElem?_columns hj, Option.getD_some, List.getElem?_eq_none (by simpa using hi)]
    rfl
  · have hcol : (g.columns ts)[j]? = none := by
      rw [List.getElem?_eq_none_iff, g.length_columns]
      omega
    simp [hcol]

/-- **Cells of the rest**: a new first token leaves the other cells as they were. -/
lemma cell_cons_succ_succ :
    (g.table (t :: ts)).cell (i + 1) (j + 1) = (g.table ts).cell i j := by
  simp only [cell_eq, Grammar.columns, List.getElem?_cons_succ, Column.getElem?_addStart]
  cases (g.columns ts)[j]? <;> simp

lemma cell_cons_zero_zero : (g.table (t :: ts)).cell 0 0 = g.lexical t := by
  simp [cell_eq, Grammar.columns]

/-- The first cells of the columns of a sequence, up to an end. -/
lemma firstRow_take_columns (g : Grammar) (ts : List Token) (hj : j ≤ ts.length) :
    Column.firstRow ((g.columns ts).take j)
      = (List.range j).map fun k => (g.table ts).cell 0 k := by
  refine List.ext_getElem (by simp [Column.firstRow, g.length_columns, hj]) fun k h₁ h₂ => ?_
  have hk : k < ts.length := by
    simp only [List.length_map, List.length_range] at h₂
    omega
  have hlen : k < (g.columns ts).length := by rwa [g.length_columns]
  have hcol := (List.getElem?_eq_getElem hlen).symm.trans (getElem?_columns hk)
  simp [Column.firstRow, Option.some.inj hcol, List.range_succ_eq_map]

/-- A longer cell at the start joins the cells of its splits. -/
lemma cell_cons_zero_succ (hj : j < ts.length) :
    (g.table (t :: ts)).cell 0 (j + 1)
      = ((List.range (j + 1)).flatMap fun k =>
          Cell.combine g.pairings ((g.table (t :: ts)).cell 0 k)
            ((g.table (t :: ts)).cell (k + 1) (j + 1))).eraseDups := by
  have hrow : [g.lexical t] ++ Column.firstRow
      ((Column.addStart g.pairings [g.lexical t] (g.columns ts)).take j)
        = (List.range (j + 1)).map fun k => (g.table (t :: ts)).cell 0 k := by
    rw [← firstRow_take_columns g (t :: ts) (Nat.succ_le_succ (Nat.le_of_lt hj))]
    simp [Grammar.columns, Column.firstRow]
  have hcell : (g.table (t :: ts)).cell 0 (j + 1) = Cell.joined g.pairings
      ((List.range (j + 1)).map fun k => (g.table (t :: ts)).cell 0 k)
      ((List.range (j + 1)).map fun k => (g.table ts).cell k j) := by
    rw [← hrow, cell_eq, Grammar.columns, List.getElem?_cons_succ, Column.getElem?_addStart,
      getElem?_columns hj]
    rfl
  rw [hcell, Cell.joined, List.zipWith_map, List.zipWith_self, ← List.flatMap_def]
  simp only [cell_cons_succ_succ]

/-! ### The recurrence -/

/-- **The cell of one token** lists what derives the token directly. -/
lemma cell_self (hi : i < ts.length) : (g.table ts).cell i i = g.lexical ts[i] := by
  induction ts generalizing i with
  | nil => simp at hi
  | cons t ts ih =>
      cases i with
      | zero => exact cell_cons_zero_zero
      | succ i => exact cell_cons_succ_succ.trans (ih (Nat.lt_of_succ_lt_succ hi))

/-- **The cell of several tokens** joins the cells of its splits, the earliest split first. -/
lemma cell_of_lt (hij : i < j) (hj : j < ts.length) :
    (g.table ts).cell i j
      = ((List.range' i (j - i)).flatMap fun k =>
          Cell.combine g.pairings ((g.table ts).cell i k)
            ((g.table ts).cell (k + 1) j)).eraseDups := by
  induction ts generalizing i j with
  | nil => simp at hj
  | cons t ts ih =>
      obtain ⟨j, rfl⟩ := Nat.exists_eq_succ_of_ne_zero (Nat.ne_of_gt (Nat.zero_lt_of_lt hij))
      rw [List.length_cons, Nat.succ_lt_succ_iff] at hj
      cases i with
      | zero => rw [cell_cons_zero_succ hj, List.range_eq_range']; rfl
      | succ i =>
          -- away from the first token, all positions are one less in the table of the rest
          have hrange : List.range' (i + 1) (j.succ - (i + 1))
              = (List.range' i (j - i)).map (· + 1) := by
            rw [Nat.succ_sub_succ, Nat.add_comm i 1, ← List.map_add_range']
            exact List.map_congr_left fun k _ => Nat.add_comm 1 k
          rw [cell_cons_succ_succ, ih (Nat.lt_of_succ_lt_succ hij) hj, hrange, List.flatMap_map]
          simp only [cell_cons_succ_succ]

lemma nodup_lexical (g : Grammar) (t : Token) : (g.lexical t).Nodup :=
  g.nodup_lhs.sublist (List.filter_sublist.map _)

/-- **No repetition**: no cell holds a nonterminal twice. -/
lemma nodup_cell (g : Grammar) (ts : List Token) (i j : ℕ) : ((g.table ts).cell i j).Nodup := by
  by_cases h : i ≤ j ∧ j < ts.length
  · obtain ⟨hij, hj⟩ := h
    rcases hij.lt_or_eq with hij | rfl
    · rw [cell_of_lt hij hj]
      exact nodup_eraseDups _
    · rw [cell_self hj]
      exact nodup_lexical g _
  · rw [cell_eq_nil h]
    exact List.nodup_nil

end Table

end Clausal
