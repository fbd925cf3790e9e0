/-
Cells in context.

* `Grammar.columns_append`: the columns of a sequence begin with those of its beginnings;
* `Table.cell_append_left`, `Table.cell_append_right`: tokens before a sequence shift its cells, and
  tokens after it leave them in place;
* `Grammar.cell_in_context`: so a cell depends on the tokens of its stretch only.

The table of a sequence is built from its end, so each token before is one more step of the
recursion, whereas the tokens after are there from the start.
-/
import Clausal.Proofs.Grammar.Filling

namespace Clausal

/-! ### Tokens after a sequence -/

/-- A new start extends the first columns in the same way, whatever columns follow. -/
lemma Column.addStart_mono (pairings : List Pairing) (lefts : List Cell)
    {columns columns' : List Column} (h : columns <+: columns') :
    addStart pairings lefts columns <+: addStart pairings lefts columns' := by
  obtain ⟨rest, rfl⟩ := h
  induction columns generalizing lefts with
  | nil => exact List.nil_prefix
  | cons column columns ih => exact List.cons_prefix_cons.mpr ⟨rfl, ih _⟩

lemma Grammar.columns_append (g : Grammar) (w v : List Token) :
    g.columns w <+: g.columns (w ++ v) := by
  induction w with
  | nil => exact List.nil_prefix
  | cons t w ih => exact List.cons_prefix_cons.mpr ⟨rfl, Column.addStart_mono _ _ ih⟩

namespace Table

variable {g : Grammar} {u w v : List Token} {i j : ℕ}

/-- Tokens after a sequence leave its cells as they are. -/
lemma cell_append_right (hj : j < w.length) :
    (g.table (w ++ v)).cell i j = (g.table w).cell i j := by
  obtain ⟨rest, hrest⟩ := g.columns_append w v
  rw [cell_eq, cell_eq, ← hrest, List.getElem?_append_left (by rwa [g.length_columns])]

/-! ### Tokens before a sequence -/

/-- Tokens before a sequence shift its cells. -/
lemma cell_append_left :
    (g.table (u ++ w)).cell (u.length + i) (u.length + j) = (g.table w).cell i j := by
  induction u with
  | nil => simp
  | cons t u ih =>
      rw [List.length_cons, Nat.succ_add, Nat.succ_add]
      exact cell_cons_succ_succ.trans ih

end Table

/-- **Cells do not depend on their context**: tokens before and after a sequence change nothing in
the cells of its stretches, which move on by the number of tokens before. The same is true of the
table that is filled in place, although its rows have another length then. -/
theorem Grammar.cell_in_context (g : Grammar) (u w v : List Token) (i j : ℕ) (hj : j < w.length) :
    (g.table (u ++ w ++ v)).cell (u.length + i) (u.length + j) = (g.table w).cell i j
    ∧ (g.filled (u ++ w ++ v)).cell (u.length + i) (u.length + j) = (g.filled w).cell i j := by
  have htable : (g.table (u ++ w ++ v)).cell (u.length + i) (u.length + j)
      = (g.table w).cell i j := by
    rw [List.append_assoc, Table.cell_append_left, Table.cell_append_right hj]
  refine ⟨htable, ?_⟩
  rw [g.cell_filled, g.cell_filled, htable]

/-- An atom in parentheses is a formula, whatever stands before and after it. -/
theorem Grammar.cell_in_context_parentheses :
    (propositional.table
      [.op .not, .closing, .opening, .atom 'p', .closing, .op .or, .opening]).cell 2 4 = [.formula]
    ∧ (propositional.filled
      [.op .not, .closing, .opening, .atom 'p', .closing, .op .or, .opening]).cell 2 3
      = [.openFormula] := by
  have hcell := propositional.cell_in_context [.op .not, .closing] [.opening, .atom 'p', .closing]
    [.op .or, .opening] 0
  refine ⟨(hcell 2 (by decide)).1.trans (by decide), (hcell 1 (by decide)).2.trans ?_⟩
  rw [cell_filled]
  decide

end Clausal
