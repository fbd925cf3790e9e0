/-
Filling the recognition table in place.

* `Grid`: a square table whose cells stand in one list, row after row, and `Grid.add`, which adds a
  nonterminal to a cell unless it is there;
* `Grid.joinSplits`, `Grid.joinStretches`, `Grammar.filled`: the loops over the splits of a stretch,
  over the stretches of one length and over the lengths;
* `Grammar.hits`: the pairings that derive a stretch, in the order in which they are met;
* `Grid.joinSplits_eq`: the cells that a step reads are not the one it extends, so the step adds the
  hits that it finds at its start;
* `Grid.FilledTo`: **the invariant**: up to a place in the order of the loops the cells are those of
  the table, and the others are empty;
* `Grammar.cell_filled`: filling in place gives the cells of the table;
* `Grammar.cells_eq_hits`: these are the tokens' own nonterminals and the first hits of each
  nonterminal.
-/
import Mathlib.Data.List.ProdSigma
import Clausal.Grammar.Propositional
import Clausal.Proofs.Grammar.Recurrence
import Clausal.Proofs.Lists

namespace Clausal

/-! ### Cells -/

namespace Cell

/-- Adds a nonterminal at the end of a cell, unless the cell has it. -/
def add (cell : Cell) (A : Nonterminal) : Cell := if cell.contains A then cell else cell ++ [A]

/-- Adding nonterminals one after the other keeps the first occurrence of each. -/
lemma foldl_add_nil (As : List Nonterminal) : As.foldl add [] = As.eraseDups := by
  induction As using List.reverseRecOn with
  | nil => rfl
  | append_singleton As A ih =>
      rw [List.foldl_append, ih, List.eraseDups_append]
      by_cases hA : A ∈ As <;>
        simp [add, List.removeAll, List.eraseDups_cons, List.mem_eraseDups, hA]

end Cell

/-! ### Hits -/

/-- Whether a pairing derives a stretch by a split: its parts are in the cells of the two sides. -/
def IsHit (cell : ℕ → ℕ → Cell) (i j : ℕ) (c : ℕ × Pairing) : Prop :=
  c.2.left ∈ cell i c.1 ∧ c.2.right ∈ cell (c.1 + 1) j

instance (cell : ℕ → ℕ → Cell) (i j : ℕ) : DecidablePred (IsHit cell i j) := fun c =>
  inferInstanceAs (Decidable (c.2.left ∈ cell i c.1 ∧ c.2.right ∈ cell (c.1 + 1) j))

/-- The hits of a stretch, split by split and then in the order of the pairings. -/
def Grammar.hits (g : Grammar) (cell : ℕ → ℕ → Cell) (i j : ℕ) : List (ℕ × Pairing) :=
  (List.range' i (j - i) ×ˢ g.pairings).filter (IsHit cell i j)

/-- The hits look at the cells of shorter stretches with the same start or the same end only. -/
lemma Grammar.hits_congr {g : Grammar} {cell cell' : ℕ → ℕ → Cell} {i j : ℕ}
    (h : ∀ k, i ≤ k → k < j → cell i k = cell' i k ∧ cell (k + 1) j = cell' (k + 1) j) :
    g.hits cell i j = g.hits cell' i j := by
  refine List.filter_congr fun c hc => ?_
  obtain ⟨hk, -⟩ := List.mem_product.mp hc
  rw [List.mem_range'_1] at hk
  obtain ⟨hleft, hright⟩ := h c.1 hk.1 (by omega)
  rw [decide_eq_decide, IsHit, IsHit, hleft, hright]

/-- **The recurrence in order**: a longer cell lists the wholes of its hits, the first of each. -/
lemma Table.cell_eq_hits {g : Grammar} {ts : List Token} {i j : ℕ} (hij : i < j)
    (hj : j < ts.length) : (g.table ts).cell i j
      = ((g.hits (g.table ts).cell i j).map fun c => c.2.whole).eraseDups := by
  rw [cell_of_lt hij hj, Grammar.hits]
  congr 1
  simp only [SProd.sprod, List.product, List.filter_flatMap, List.map_flatMap, List.filter_map,
    List.map_map]
  refine List.flatMap_congr fun k _ => ?_
  rw [Cell.combine_eq]
  rfl

/-! ### Grids -/

/-- A square of cells in one list, one row after the other. -/
structure Grid where
  size : ℕ
  cells : List Cell
  length_cells : cells.length = size * size

namespace Grid

/-- The square of a size without any nonterminal. -/
def empty (size : ℕ) : Grid where
  size
  cells := List.replicate (size * size) []
  length_cells := List.length_replicate

/-- The cell of the stretch from `i` to `j`; none is below the diagonal or outside of the square. -/
def cell (s : Grid) (i j : ℕ) : Cell :=
  if i ≤ j ∧ j < s.size then s.cells[i * s.size + j]?.getD [] else []

/-- Whether a nonterminal is in the cell of the stretch from `i` to `j`. -/
def derives (s : Grid) (i j : ℕ) (A : Nonterminal) : Bool := (s.cell i j).contains A

/-- Adds a nonterminal to the cell of a row and a column. -/
def add (s : Grid) (i j : ℕ) (A : Nonterminal) : Grid where
  size := s.size
  cells := s.cells.modify (i * s.size + j) (·.add A)
  length_cells := by rw [List.length_modify, s.length_cells]

/-- Adds nonterminals to one cell, in their order. -/
def addAll (s : Grid) (i j : ℕ) (As : List Nonterminal) : Grid :=
  As.foldl (fun s A => s.add i j A) s

/-- Extends the cell of the stretch from `i` to `j` by what derives it, split by split and pairing
by pairing. -/
def joinSplits (pairings : List Pairing) (s : Grid) (i j : ℕ) : Grid :=
  (List.range' i (j - i)).foldl (fun s k =>
    pairings.foldl (fun s p =>
      if s.derives i k p.left && s.derives (k + 1) j p.right then s.add i j p.whole else s) s) s

/-- Extends the cells of all stretches that end `l` positions after their start. -/
def joinStretches (pairings : List Pairing) (s : Grid) (l : ℕ) : Grid :=
  (List.range (s.size - l)).foldl (fun s i => s.joinSplits pairings i (i + l)) s

end Grid

/-- The square of a size with the cells of the first tokens. -/
def Grammar.diagonal (g : Grammar) (size : ℕ) (ts : List Token) : Grid :=
  ts.zipIdx.foldl (fun s (t, i) => s.addAll i i (g.lexical t)) (.empty size)

/-- The table of a sequence, filled from the short stretches to the long ones. -/
def Grammar.filled (g : Grammar) (ts : List Token) : Grid :=
  (List.range' 1 (ts.length - 1)).foldl (Grid.joinStretches g.pairings) (g.diagonal ts.length ts)

namespace Grid

variable {s : Grid} {i j l n i' j' : ℕ} {A : Nonterminal} {As : List Nonterminal}

/-- Rows do not overlap. -/
lemma place_eq_iff (hj : j < n) (hj' : j' < n) :
    i * n + j = i' * n + j' ↔ i' = i ∧ j' = j := by
  constructor
  · intro h
    have hcol := congrArg (· % n) h
    simp only [Nat.mul_add_mod_self_right, Nat.mod_eq_of_lt hj, Nat.mod_eq_of_lt hj'] at hcol
    rw [hcol, Nat.add_right_cancel_iff] at h
    exact ⟨(Nat.eq_of_mul_eq_mul_right (Nat.zero_lt_of_lt hj) h).symm, hcol.symm⟩
  · rintro ⟨rfl, rfl⟩
    rfl

lemma place_lt (hi : i < n) (hj : j < n) : i * n + j < n * n :=
  calc i * n + j < i * n + n := Nat.add_lt_add_left hj _
    _ = (i + 1) * n := (Nat.succ_mul i n).symm
    _ ≤ n * n := Nat.mul_le_mul_right n hi

@[simp] lemma size_add : (s.add i j A).size = s.size := rfl

@[simp] lemma size_addAll : (s.addAll i j As).size = s.size := by
  induction As generalizing s with
  | nil => rfl
  | cons A As ih => exact ih

lemma cell_empty : (empty n).cell i j = [] := by
  rw [cell]
  split
  · simp only [empty, List.getElem?_replicate]
    split <;> rfl
  · rfl

/-- **Adding to one cell** leaves all others as they are. -/
lemma cell_add (hij : i ≤ j) (hj : j < s.size) (A : Nonterminal) (i' j' : ℕ) :
    (s.add i j A).cell i' j' = if i' = i ∧ j' = j then (s.cell i j).add A else s.cell i' j' := by
  by_cases h : i' ≤ j' ∧ j' < s.size
  · have hlt : i * s.size + j < s.cells.length := by
      rw [s.length_cells]
      exact place_lt (hij.trans_lt hj) hj
    rw [cell, size_add, if_pos h, add, List.getElem?_modify]
    by_cases heq : i' = i ∧ j' = j
    · obtain ⟨rfl, rfl⟩ := heq
      simp [cell, h, hlt]
    · have hplace : i * s.size + j ≠ i' * s.size + j' := fun h' => heq ((place_eq_iff hj h.2).mp h')
      simp [cell, h, heq, hplace]
  · have hne : ¬(i' = i ∧ j' = j) := by
      rintro ⟨rfl, rfl⟩
      exact h ⟨hij, hj⟩
    rw [cell, size_add, if_neg h, if_neg hne, cell, if_neg h]

lemma cell_addAll (hij : i ≤ j) (hj : j < s.size) (As : List Nonterminal) (i' j' : ℕ) :
    (s.addAll i j As).cell i' j'
      = if i' = i ∧ j' = j then As.foldl Cell.add (s.cell i j) else s.cell i' j' := by
  induction As generalizing s with
  | nil =>
      split
      · next h => rw [h.1, h.2]; rfl
      · rfl
  | cons A As ih =>
      have hstep : s.addAll i j (A :: As) = (s.add i j A).addAll i j As := rfl
      rw [hstep, ih (s := s.add i j A) hj, cell_add hij hj, cell_add hij hj]
      split
      · rw [if_pos ⟨rfl, rfl⟩]; rfl
      · rfl

/-! ### One step -/

/-- A step that adds to the cell of a stretch does not change what is a hit there, since the sides
of a split are shorter. -/
lemma isHit_cell_add (hj : j < s.size) (A : Nonterminal) {c : ℕ × Pairing} (hc : i ≤ c.1)
    (hc' : c.1 < j) : IsHit (s.add i j A).cell i j c ↔ IsHit s.cell i j c := by
  have hij : i ≤ j := hc.trans hc'.le
  rw [IsHit, IsHit, cell_add hij hj, cell_add hij hj, if_neg (by omega), if_neg (by omega)]

/-- Adding the hits one after the other, each tried in the grid as it is then, adds what are hits at
the start. -/
lemma foldl_add_eq_addAll (hj : j < s.size) (candidates : List (ℕ × Pairing))
    (hcandidates : ∀ c ∈ candidates, i ≤ c.1 ∧ c.1 < j) :
    candidates.foldl (fun s c => if IsHit s.cell i j c then s.add i j c.2.whole else s) s
      = s.addAll i j ((candidates.filter (IsHit s.cell i j)).map fun c => c.2.whole) := by
  induction candidates generalizing s with
  | nil => rfl
  | cons c rest ih =>
      obtain ⟨⟨hc, hc'⟩, hrest⟩ := List.forall_mem_cons.mp hcandidates
      rw [List.foldl_cons, List.filter_cons]
      by_cases hhit : IsHit s.cell i j c
      · have hsame : rest.filter (IsHit (s.add i j c.2.whole).cell i j)
            = rest.filter (IsHit s.cell i j) := by
          refine List.filter_congr fun d hd => ?_
          rw [decide_eq_decide, isHit_cell_add hj _ (hrest d hd).1 (hrest d hd).2]
        rw [if_pos hhit, if_pos (decide_eq_true hhit), ih (s := s.add i j c.2.whole) hj hrest,
          hsame]
        rfl
      · rw [if_neg hhit, if_neg (by simpa using hhit), ih hj hrest]

/-- **One step** adds the hits that it finds at its start. -/
lemma joinSplits_eq (g : Grammar) (hj : j < s.size) :
    s.joinSplits g.pairings i j = s.addAll i j ((g.hits s.cell i j).map fun c => c.2.whole) := by
  have hloop : s.joinSplits g.pairings i j = (List.range' i (j - i) ×ˢ g.pairings).foldl
      (fun s c => if IsHit s.cell i j c then s.add i j c.2.whole else s) s := by
    simp only [joinSplits, derives, IsHit, Bool.and_eq_true, List.contains_iff_mem, SProd.sprod,
      List.product, List.foldl_flatMap, List.foldl_map]
    rfl
  rw [hloop, Grammar.hits]
  refine foldl_add_eq_addAll hj _ fun c hc => ?_
  obtain ⟨hk, -⟩ := List.mem_product.mp hc
  rw [List.mem_range'_1] at hk
  omega

/-! ### The loops -/

/-- The cells up to a place in the order of the loops are those of the table, the others are empty.
Done are the stretches that end less than `l` positions after their start, and those that end `l`
positions after a start before `m`. -/
structure FilledTo (g : Grammar) (ts : List Token) (l m : ℕ) (s : Grid) : Prop where
  size_eq : s.size = ts.length
  cell_eq : ∀ i j, i ≤ j → j < ts.length →
    s.cell i j = if j - i < l ∨ j - i = l ∧ i < m then (g.table ts).cell i j else []

variable {g : Grammar} {ts : List Token} {m : ℕ}

/-- One step fills the next cell: all cells that it reads have their final content. -/
lemma FilledTo.joinSplits (h : FilledTo g ts l m s) (hl : 0 < l) (hm : m + l < ts.length) :
    FilledTo g ts l (m + 1) (s.joinSplits g.pairings m (m + l)) := by
  have hsize := h.size_eq
  have hhits : g.hits s.cell m (m + l) = g.hits (g.table ts).cell m (m + l) := by
    refine Grammar.hits_congr fun k hk hk' => ⟨?_, ?_⟩
    · rw [h.cell_eq m k hk (by omega), if_pos (by omega)]
    · rw [h.cell_eq (k + 1) (m + l) (by omega) hm, if_pos (by omega)]
  have hempty : s.cell m (m + l) = [] := by
    rw [h.cell_eq m (m + l) (by omega) hm, if_neg (by omega)]
  rw [joinSplits_eq g (hsize ▸ hm), hhits]
  refine ⟨by rw [size_addAll, hsize], fun i j hij hj => ?_⟩
  rw [cell_addAll (Nat.le_add_right m l) (hsize ▸ hm), hempty, Cell.foldl_add_nil,
    ← Table.cell_eq_hits (by omega) hm]
  by_cases hplace : i = m ∧ j = m + l
  · rw [if_pos hplace, if_pos (by omega), hplace.1, hplace.2]
  · rw [if_neg hplace, h.cell_eq i j hij hj]
    exact if_congr (by omega) rfl rfl

/-- The stretches of one length are filled from the first to the last. -/
lemma FilledTo.joinStretches (h : FilledTo g ts l 0 s) (hl : 0 < l) :
    FilledTo g ts (l + 1) 0 (s.joinStretches g.pairings l) := by
  have hsize := h.size_eq
  have hlast : FilledTo g ts l (0 + (s.size - l)) (s.joinStretches g.pairings l) := by
    rw [Grid.joinStretches, List.range_eq_range']
    exact foldl_range'_induction h fun m s' _ hm h' => h'.joinSplits hl (by omega)
  refine ⟨hlast.size_eq, fun i j hij hj => ?_⟩
  rw [hlast.cell_eq i j hij hj]
  exact if_congr (by omega) rfl rfl

/-- One more token gets its cell. -/
lemma diagonal_concat (g : Grammar) (n : ℕ) (ts : List Token) (t : Token) :
    g.diagonal n (ts ++ [t]) = (g.diagonal n ts).addAll ts.length ts.length (g.lexical t) := by
  simp [Grammar.diagonal, List.zipIdx_append]

lemma size_diagonal (g : Grammar) (n : ℕ) (ts : List Token) : (g.diagonal n ts).size = n := by
  induction ts using List.reverseRecOn with
  | nil => rfl
  | append_singleton ts t ih => rw [diagonal_concat, size_addAll, ih]

/-- The cells of the first tokens list what derives them, and the others are empty. -/
lemma cell_diagonal (g : Grammar) (hn : ts.length ≤ n) (i j : ℕ) :
    (g.diagonal n ts).cell i j = if i = j then ts[i]?.elim [] g.lexical else [] := by
  induction ts using List.reverseRecOn generalizing i j with
  | nil =>
      have hempty : (g.diagonal n []).cell i j = [] := cell_empty
      simp [hempty]
  | append_singleton ts t ih =>
      rw [List.length_append, List.length_singleton] at hn
      have hsize := size_diagonal g n ts
      have hlast : (g.diagonal n ts).cell ts.length ts.length = [] := by simp [ih (by omega)]
      rw [diagonal_concat, cell_addAll (le_refl _) (by omega), hlast, Cell.foldl_add_nil,
        eraseDups_of_nodup (Table.nodup_lexical g t), ih (by omega)]
      rcases Nat.lt_trichotomy i ts.length with hi | rfl | hi
      · rw [if_neg (by omega), List.getElem?_append_left hi]
      · by_cases hj : j = ts.length
        · simp [hj]
        · simp [hj, Ne.symm hj]
      · have hnone : (ts ++ [t])[i]? = none := by simp [hi]
        have hnone' : ts[i]? = none := by simp [hi.le]
        rw [if_neg (by omega), hnone, hnone']

lemma filledTo_diagonal (g : Grammar) (ts : List Token) :
    FilledTo g ts 1 0 (g.diagonal ts.length ts) := by
  refine ⟨size_diagonal g _ ts, fun i j hij hj => ?_⟩
  rw [cell_diagonal g (le_refl _)]
  rcases hij.lt_or_eq with hij | rfl
  · rw [if_neg (by omega), if_neg (by omega)]
  · rw [if_pos rfl, if_pos (by omega), Table.cell_self hj, List.getElem?_eq_getElem hj]
    rfl

end Grid

namespace Grammar

/-- **Filling in place** gives the table. -/
lemma cell_filled (g : Grammar) (ts : List Token) (i j : ℕ) :
    (g.filled ts).cell i j = (g.table ts).cell i j := by
  have hfilled : Grid.FilledTo g ts (1 + (ts.length - 1)) 0 (g.filled ts) :=
    foldl_range'_induction (P := fun l => Grid.FilledTo g ts l 0)
      (Grid.filledTo_diagonal g ts) fun l s hl _ h => h.joinStretches hl
  by_cases h : i ≤ j ∧ j < ts.length
  · rw [hfilled.cell_eq i j h.1 h.2, if_pos (by omega)]
  · rw [Table.cell_eq_nil h, Grid.cell, if_neg (hfilled.size_eq ▸ h)]

/-- **The table by its hits**: whether it is filled in place or not, the table of a sequence has in
the cell of a token what derives the token, in the order of the rules. The cell of a longer stretch
lists the wholes of the hits among the finished cells, split by split and then in the order of the
pairings, each at its first occurrence. All other cells are empty. -/
theorem cells_eq_hits (g : Grammar) (ts : List Token) :
    (∀ i j, (g.filled ts).cell i j = (g.table ts).cell i j)
    ∧ (∀ i (hi : i < ts.length), (g.table ts).cell i i = g.lexical ts[i])
    ∧ (∀ i j, i < j → j < ts.length → (g.table ts).cell i j
      = ((g.hits (g.table ts).cell i j).map fun c => c.2.whole).eraseDups)
    ∧ ∀ i j, j < i ∨ ts.length ≤ j → (g.table ts).cell i j = [] := by
  refine ⟨g.cell_filled ts, fun i => Table.cell_self, fun i j => Table.cell_eq_hits, ?_⟩
  intro i j h
  exact Table.cell_eq_nil (by omega)

/-- Two conjunctions in a row have two hits, by either sign, and are listed as a formula once. -/
theorem cells_eq_hits_two_conjunctions :
    propositional.hits (propositional.table
        [.atom 'p', .op .and, .atom 'q', .op .and, .atom 'r']).cell 0 4
      = [(1, ⟨.formula, .formulaAnd, .formula⟩), (3, ⟨.formula, .formulaAnd, .formula⟩)]
    ∧ (propositional.table [.atom 'p', .op .and, .atom 'q', .op .and, .atom 'r']).cell 0 4
      = [.formula]
    ∧ (propositional.filled [.atom 'p', .op .and, .atom 'q', .op .and, .atom 'r']).cell 1 1
      = [.and] := by
  obtain ⟨hfilled, hself, hlonger, -⟩ :=
    cells_eq_hits propositional [.atom 'p', .op .and, .atom 'q', .op .and, .atom 'r']
  have hhits : propositional.hits (propositional.table
        [.atom 'p', .op .and, .atom 'q', .op .and, .atom 'r']).cell 0 4
      = [(1, ⟨.formula, .formulaAnd, .formula⟩), (3, ⟨.formula, .formulaAnd, .formula⟩)] := by
    decide
  refine ⟨hhits, ?_, ?_⟩
  · rw [hlonger 0 4 (by decide) (by decide), hhits]
    rfl
  · rw [hfilled, hself 1 (by decide)]
    rfl

end Grammar

end Clausal
