/-
The cells of the grammar of formulas, where a stretch never has two nonterminals.

* `Token.phrase`: the one nonterminal that a sequence of tokens can have, by its last token and its
  parentheses;
* `Sentence.exists_concat`, `Sentence.count_closing_eq`: a sentence ends like an operand and closes
  all of its parentheses;
* `Nonterminal.Yields.eq_phrase`: **no nonterminal stands for a sequence of another one**;
* `Table.length_cell_le_one`, `Table.cell_eq_singleton_iff`: so a cell has one nonterminal or none;
* `Grammar.length_cell_propositional_le_one`: the cells of every table in these terms.

A sentence may be derived by many splits; all of them give the same nonterminal.
-/
import Clausal.Proofs.Balance

namespace Clausal

variable {A : Nonterminal} {s : Token} {u ts : List Token}

/-! ### The nonterminal of a sequence -/

namespace Token

/-- The nonterminal of a sequence of two or more tokens with a given last one: a formula and a sign
if a binary connective comes last, else a formula, behind an opening parenthesis if some
parenthesis is not closed. -/
def phraseEnding (ts : List Token) : Token → Nonterminal
  | .op .imp => .formulaImp
  | .op .or => .formulaOr
  | .op .and => .formulaAnd
  | .op .not | .opening | .closing | .atom _ =>
    if ts.count .closing = ts.count .opening then .formula else .openFormula

/-- The one nonterminal of the grammar of formulas that a sequence of tokens can have. -/
def phrase : List Token → Nonterminal
  | [] => .formula
  | [s] => s.category
  | s :: t :: ts => phraseEnding (s :: t :: ts) (ts.getLastD t)

/-- More than one token: the last one decides. -/
lemma phrase_concat (hu : u ≠ []) (s : Token) : phrase (u ++ [s]) = phraseEnding (u ++ [s]) s := by
  obtain ⟨t, u, rfl⟩ := List.exists_cons_of_ne_nil hu
  cases u with
  | nil => rfl
  | cons r u =>
      rw [List.cons_append, List.cons_append, phrase, List.getLastD_concat]

lemma phraseEnding_of_endsOperand (hs : s.endsOperand = true) (ts : List Token) :
    phraseEnding ts s
      = if ts.count .closing = ts.count .opening then .formula else .openFormula := by
  cases s with
  | closing | atom => rfl
  | op | opening => cases hs

end Token

/-! ### Sentences -/

/-- A sentence has a last token, which ends an operand. -/
lemma Sentence.exists_concat (h : Sentence ts) :
    ∃ u s, ts = u ++ [s] ∧ s.endsOperand = true := by
  obtain ⟨hne, -, hlast, -⟩ := Phase.run_eq_operator_iff.mp h.run
  obtain ⟨u, s, rfl⟩ := (List.eq_nil_or_concat' ts).resolve_left hne
  exact ⟨u, s, rfl, hlast s (by simp)⟩

lemma Sentence.count_closing_eq (h : Sentence ts) : ts.count .closing = ts.count .opening := by
  simpa using (Token.closes_iff_count.mp h.closes).2

/-- A sentence of one token is an atom. -/
lemma Sentence.category_eq (h : Sentence [s]) : s.category = .formula := by
  have hrun := h.run
  simp only [Phase.run_cons, Phase.run_nil, Option.bind_fun_some,
    Phase.next_operand_eq_operator_iff] at hrun
  obtain ⟨name, rfl⟩ := hrun
  rfl

lemma Sentence.phrase_eq (h : Sentence ts) : Token.phrase ts = .formula := by
  obtain ⟨u, s, rfl, hs⟩ := h.exists_concat
  by_cases hu : u = []
  · subst hu
    exact h.category_eq
  · rw [Token.phrase_concat hu, Token.phraseEnding_of_endsOperand hs, if_pos h.count_closing_eq]

/-- The parenthesis before a sentence stays open, and the sentence is not empty. -/
lemma Sentence.phrase_opening_cons (h : Sentence ts) :
    Token.phrase (.opening :: ts) = .openFormula := by
  have hcount := h.count_closing_eq
  obtain ⟨u, s, rfl, hs⟩ := h.exists_concat
  have hopen : (Token.opening :: u ++ [s]).count .closing
      ≠ (Token.opening :: u ++ [s]).count .opening := by
    rw [List.cons_append, List.count_cons_self, List.count_cons_of_ne (by simp)]
    omega
  rw [← List.cons_append, Token.phrase_concat (List.cons_ne_nil _ u),
    Token.phraseEnding_of_endsOperand hs, if_neg hopen]

/-! ### The nonterminals -/

/-- **One nonterminal for each sequence**: whatever a nonterminal stands for determines it. -/
lemma Nonterminal.Yields.eq_phrase (h : A.Yields ts) : A = Token.phrase ts := by
  have hne {u : List Token} (hu : Sentence u) : u ≠ [] :=
    (Phase.run_eq_operator_iff.mp hu.run).1
  cases A with
  | formula => exact h.phrase_eq.symm
  | formulaImp | formulaOr | formulaAnd =>
      obtain ⟨u, hu, rfl⟩ := h
      rw [Token.phrase_concat (hne hu)]
      rfl
  | openFormula =>
      obtain ⟨u, hu, rfl⟩ := h
      exact hu.phrase_opening_cons.symm
  | imp | or | and | not | opening | closing =>
      rw [Nonterminal.Yields] at h
      rw [h]
      rfl

/-! ### Cells -/

namespace Table

variable {i j : ℕ}

/-- All nonterminals of a cell are the one that its stretch can have. -/
lemma eq_phrase_of_mem_cell (h : A ∈ (Grammar.propositional.table ts).cell i j) :
    A = Token.phrase (Token.stretch ts i j) := by
  obtain ⟨-, -, hderives⟩ := (mem_cell_iff ..).mp h
  exact (Grammar.yields_of_derives hderives).eq_phrase

/-- As they are all the same and a cell has no repetition, there is at most one. -/
lemma length_cell_le_one (ts : List Token) (i j : ℕ) :
    ((Grammar.propositional.table ts).cell i j).length ≤ 1 := by
  have hsame : ∀ A ∈ (Grammar.propositional.table ts).cell i j,
      A = Token.phrase (Token.stretch ts i j) := fun A hA => eq_phrase_of_mem_cell hA
  have hnodup := nodup_cell Grammar.propositional ts i j
  rw [List.eq_replicate_of_mem hsame] at hnodup
  exact List.nodup_replicate.mp hnodup

lemma cell_eq_singleton_iff :
    (Grammar.propositional.table ts).cell i j = [A]
      ↔ A ∈ (Grammar.propositional.table ts).cell i j := by
  constructor
  · intro h
    rw [h]
    exact List.mem_singleton_self A
  · intro hA
    obtain ⟨B, hB⟩ := List.length_eq_one_iff.mp
      (le_antisymm (length_cell_le_one ts i j) (List.length_pos_of_mem hA))
    rw [hB, List.mem_singleton] at hA
    rw [hB, hA]

end Table

namespace Grammar

/-- **At most one nonterminal in a cell** of the grammar of formulas, whether the tokens are a
sentence or not: it is the one from which the stretch of the cell is derived, if there is one. -/
theorem length_cell_propositional_le_one (ts : List Token) (i j : ℕ) :
    ((propositional.table ts).cell i j).length ≤ 1
    ∧ ∀ A, (propositional.table ts).cell i j = [A]
        ↔ i ≤ j ∧ j < ts.length ∧ propositional.Derives A (Token.stretch ts i j) := by
  refine ⟨Table.length_cell_le_one ts i j, fun A => ?_⟩
  rw [Table.cell_eq_singleton_iff, Table.mem_cell_iff]

/-- A sentence that groups in two ways, and a stretch of it that is none. -/
example :
    (propositional.table [.atom 'p', .op .and, .atom 'q', .op .or, .atom 'r']).cell 0 4 = [.formula]
    ∧ (propositional.table [.atom 'p', .op .and, .atom 'q', .op .or, .atom 'r']).cell 1 4 = [] := by
  decide

end Grammar

end Clausal
