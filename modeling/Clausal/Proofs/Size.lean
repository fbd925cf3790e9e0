/-
The size of a conjunctive normal form under a limit on its clauses.

* `Formula.disjuncts`: what the outermost disjunctions of a formula join, from left to right; those
  of a clause are its literals (`Formula.isClause_iff_forall_disjuncts`);
* `Formula.length_occurrences_of_mem_clauses`: no clause of a formula has more atoms than the
  formula, repetitions included;
* `Formula.size_of_isClause`, `Formula.size_of_isCNF`: how large clauses, and conjunctions of them,
  with a given number of atoms can be;
* `Formula.size_cnf`: so the size of a conjunctive normal form is bounded by the number of its
  clauses and the atoms of the formula;
* `Reading.size_of_limited_cnf`: and under a limit by that limit.
-/
import Clausal.Proofs.Occurrences
import Clausal.Proofs.Stages

namespace Clausal

namespace Formula

/-- The maximal parts of a formula that are no disjunctions, from left to right. -/
def disjuncts : Formula → List Formula
  | .or a b => a.disjuncts ++ b.disjuncts
  | t => [t]

variable {s t : Formula} {bound : ℕ}

/-! ### Literals -/

lemma isClause_iff_forall_disjuncts :
    t.isClause = true ↔ ∀ s ∈ t.disjuncts, s.isLiteral = true := by
  induction t with
  | or a b iha ihb =>
      rw [isClause, Bool.and_eq_true, iha, ihb, disjuncts, List.forall_mem_append]
  | _ => simp only [isClause, disjuncts, List.forall_mem_singleton]

lemma length_occurrences_pos (t : Formula) : 0 < t.occurrences.length := by
  induction t with
  | atom name => exact Nat.one_pos
  | not a ih => exact ih
  | and a b iha _ | or a b iha _ | imp a b iha _ =>
      rw [occurrences, List.length_append]
      omega

/-- Each part has an atom of its own. -/
lemma length_disjuncts_le (t : Formula) : t.disjuncts.length ≤ t.occurrences.length := by
  induction t with
  | or a b iha ihb =>
      rw [disjuncts, occurrences, List.length_append, List.length_append]
      omega
  | _ => exact length_occurrences_pos _

/-! ### Atoms of a clause -/

/-- Distribution takes one conjunct of each operand of a disjunction, so no clause has more atoms
than the formula, repetitions included. -/
lemma length_occurrences_of_mem_conjuncts_distributed (h : s ∈ t.distributed.conjuncts) :
    s.occurrences.length ≤ t.occurrences.length := by
  induction t generalizing s with
  | and a b iha ihb =>
      rw [distributed, conjuncts, List.mem_append] at h
      rw [occurrences, List.length_append]
      rcases h with ha | hb
      · have hle := iha ha
        omega
      · have hle := ihb hb
        omega
  | or a b iha ihb =>
      simp only [distributed, conjuncts_disjoin, List.mem_flatMap, List.mem_map] at h
      obtain ⟨x, hx, y, hy, rfl⟩ := h
      rw [occurrences, occurrences, List.length_append, List.length_append]
      exact Nat.add_le_add (iha hx) (ihb hy)
  | _ =>
      obtain rfl := List.mem_singleton.mp h
      exact le_rfl

lemma length_occurrences_of_mem_clauses (h : s ∈ t.clauses) :
    s.occurrences.length ≤ t.occurrences.length := by
  rw [clauses, cnf_eq_distributed] at h
  rw [← t.occurrences_nnf]
  exact length_occurrences_of_mem_conjuncts_distributed h

/-! ### Size -/

/-- A literal has at most two nodes, and a disjunction one more than its operands together. -/
lemma size_of_isClause (h : t.isClause = true) : t.size + 1 ≤ 3 * t.occurrences.length := by
  induction t with
  | or a b iha ihb =>
      rw [isClause, Bool.and_eq_true] at h
      have ha := iha h.1
      have hb := ihb h.2
      rw [size, occurrences, List.length_append]
      omega
  | atom name => exact Nat.le_succ 2
  | not a =>
      obtain ⟨name, rfl⟩ := isNNF_not_iff.mp h
      exact Nat.le_refl 3
  | and a b => cases h
  | imp a b => cases h

/-- A conjunction has one node more than its operands together. -/
lemma size_of_isCNF (h : t.isCNF = true)
    (hbound : ∀ s ∈ t.conjuncts, s.occurrences.length ≤ bound) :
    t.size + 1 ≤ 3 * bound * t.conjuncts.length := by
  induction t with
  | and a b iha ihb =>
      rw [isCNF, Bool.and_eq_true] at h
      rw [conjuncts, List.forall_mem_append] at hbound
      calc (Formula.and a b).size + 1 = (a.size + 1) + (b.size + 1) := by rw [size]; omega
        _ ≤ 3 * bound * a.conjuncts.length + 3 * bound * b.conjuncts.length :=
            Nat.add_le_add (iha h.1 hbound.1) (ihb h.2 hbound.2)
        _ = 3 * bound * (Formula.and a b).conjuncts.length := by
            rw [conjuncts, List.length_append, Nat.mul_add]
  | _ =>
      -- the formula is a clause, and its only conjunct
      have hatoms := hbound _ (List.mem_singleton_self _)
      have hsize := size_of_isClause h
      change _ ≤ 3 * bound * 1
      omega

/-- **The size of a conjunctive normal form**: three nodes for each atom of the formula in each
clause are more than enough. -/
lemma size_cnf (t : Formula) : t.cnf.size + 1 ≤ 3 * t.occurrences.length * t.clauses.length :=
  size_of_isCNF t.isCNF_cnf fun _ => length_occurrences_of_mem_clauses

end Formula

namespace Reading

variable {text : String} {s t : Formula} {m : ℕ}

/-- Below the largest count, a normal form that the limit admits has no more clauses than it. -/
lemma length_clauses_of_limited_cnf (h : (ofText text).formula = .ok t) (hm : m < 2 ^ 64 - 1)
    (hcnf : (ofText text).cnf (some m) = .ok s) : s = t.cnf ∧ t.clauses.length ≤ m := by
  rw [cnf_some_of_formula h] at hcnf
  split at hcnf
  · next hle =>
    rw [t.clauseCount_eq, Formula.capped, Formula.maxCount_eq] at hle
    exact ⟨(Except.ok.inj hcnf).symm, by omega⟩
  · cases hcnf

/-- **The limit on clauses bounds the size of the result**: if a limit below the largest count admits
the conjunctive normal form of a text, each of its clauses is a disjunction of at most as many
literals as the formula of the text has atoms, repetitions included, and the number of its nodes is
less than three times the product of the number of those atoms and the limit. -/
theorem size_of_limited_cnf (text : String) (m : ℕ) (s : Formula) (hm : m < 2 ^ 64 - 1)
    (h : (ofText text).cnf (some m) = .ok s) :
    ∃ t, (ofText text).formula = .ok t
      ∧ (∀ clause ∈ s.conjuncts, (∀ literal ∈ clause.disjuncts, literal.isLiteral = true)
        ∧ clause.disjuncts.length ≤ t.occurrences.length)
      ∧ s.size + 1 ≤ 3 * t.occurrences.length * m := by
  have hwf : (ofText text).wellFormed = true := by
    by_contra hno
    exact nomatch (cnf_of_rejected (eq_false_of_ne_true hno) (some m)).symm.trans h
  obtain ⟨t, ht⟩ := exists_formula hwf
  obtain ⟨rfl, hclauses⟩ := length_clauses_of_limited_cnf ht hm h
  refine ⟨t, ht, fun clause hclause => ⟨?_, ?_⟩, ?_⟩
  · have hshape := Formula.isCNF_iff_forall_conjuncts.mp t.isCNF_cnf clause hclause
    exact Formula.isClause_iff_forall_disjuncts.mp hshape
  · exact clause.length_disjuncts_le.trans (Formula.length_occurrences_of_mem_clauses hclause)
  · exact t.size_cnf.trans (Nat.mul_le_mul_left _ hclauses)

/-- A text with three atoms and two clauses, which the limit two just admits. -/
theorem size_of_limited_cnf_and_or :
    ∃ s, (ofText "(p \\wedge q) \\vee r").cnf (some 2) = .ok s
      ∧ ∃ t, (ofText "(p \\wedge q) \\vee r").formula = .ok t
      ∧ (∀ clause ∈ s.conjuncts, (∀ literal ∈ clause.disjuncts, literal.isLiteral = true)
        ∧ clause.disjuncts.length ≤ t.occurrences.length)
      ∧ s.size + 1 ≤ 3 * t.occurrences.length * 2 := by
  have h : (ofText "(p \\wedge q) \\vee r").cnf (some 2)
      = .ok (.and (.or (.atom 'p') (.atom 'r')) (.or (.atom 'q') (.atom 'r'))) := by cbv
  exact ⟨_, h, size_of_limited_cnf _ 2 _ (by decide) h⟩

end Reading

end Clausal
