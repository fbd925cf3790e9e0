/-
Counting the clauses of a conjunctive normal form without building it.

* `Formula.clauses`: the clauses of the conjunctive normal form of a formula;
* `Formula.clauses_and`, `Formula.clauses_or`: the clauses of a conjunction are those of its operands
  in a row, and those of a disjunction the product of theirs;
* `Formula.ordered_product`: so distribution is the ordered product of clauses;
* `Formula.capped_capped_add_capped`, `Formula.capped_capped_mul_capped`: sums and products of
  capped counts are the capped sums and products, as no count is zero;
* `Formula.nnfClauseCount_eq`, `Formula.clauseCount_eq`: the count is the capped number of clauses;
* `Formula.clauseCount_eq_min_length_clauses`: so it is exact up to the cap, and the same before and
  after each normal form.
-/
import Clausal.Formula.Clauses
import Clausal.Proofs.NormalForm

namespace Clausal.Formula

/-- The clauses of a formula: the conjuncts of its conjunctive normal form. -/
def clauses (t : Formula) : List Formula := t.cnf.conjuncts

lemma length_clauses_pos (t : Formula) : 0 < t.clauses.length := t.cnf.length_conjuncts_pos

/-! ### The product of clauses -/

lemma clauses_and (a b : Formula) : (Formula.and a b).clauses = a.clauses ++ b.clauses := by
  simp only [clauses, cnf_and, conjuncts]

lemma clauses_or (a b : Formula) :
    (Formula.or a b).clauses = a.clauses.flatMap fun x => b.clauses.map (Formula.or x) := by
  simp only [clauses, cnf_or, conjuncts_disjoin]

lemma length_clauses_or (a b : Formula) :
    (Formula.or a b).clauses.length = a.clauses.length * b.clauses.length := by
  simp only [clauses, cnf_or, length_conjuncts_disjoin]

/-- **Distribution is the ordered product of clauses**, for any two formulas: each conjunct on the
left is joined with each one on the right, the left one varying slowest, and the result is in
conjunctive normal form exactly if both formulas are. So the clauses of a conjunction are those of
its operands in a row, and the clauses of a disjunction are the product of those of its operands. -/
theorem ordered_product (a b : Formula) :
    (disjoin a b).conjuncts = a.conjuncts.flatMap (fun x => b.conjuncts.map (Formula.or x))
    ∧ ((disjoin a b).isCNF = true ↔ a.isCNF = true ∧ b.isCNF = true)
    ∧ (Formula.and a b).cnf.conjuncts = a.cnf.conjuncts ++ b.cnf.conjuncts
    ∧ (Formula.or a b).cnf.conjuncts
      = a.cnf.conjuncts.flatMap fun x => b.cnf.conjuncts.map (Formula.or x) :=
  ⟨conjuncts_disjoin a b, isCNF_disjoin_iff, clauses_and a b, clauses_or a b⟩

/-- Two conjunctions with two parts each have four disjunctions. -/
example : (disjoin (.and (.atom 'p') (.atom 'q')) (.and (.atom 'r') (.atom 's'))).conjuncts
    = [.or (.atom 'p') (.atom 'r'), .or (.atom 'p') (.atom 's'), .or (.atom 'q') (.atom 'r'),
      .or (.atom 'q') (.atom 's')] := by rfl

/-! ### Capped counts -/

variable {m n : ℕ}

lemma maxCount_eq : maxCount = 2 ^ 64 - 1 := rfl

lemma capped_of_le (h : n ≤ maxCount) : capped n = n := Nat.min_eq_left h

lemma capped_of_ge (h : maxCount ≤ n) : capped n = maxCount := Nat.min_eq_right h

lemma capped_pos (h : 0 < n) : 0 < capped n := Nat.lt_min.mpr ⟨h, by decide⟩

lemma capped_capped_add_capped (m n : ℕ) : capped (capped m + capped n) = capped (m + n) := by
  simp only [capped]
  omega

/-- A product with a factor beyond the cap is beyond it too, for the other factor is not zero. -/
lemma capped_mul_of_ge (hm : maxCount ≤ m) (hn : 0 < n) : capped (m * n) = maxCount :=
  capped_of_ge (hm.trans (Nat.le_mul_of_pos_right m hn))

lemma capped_capped_mul_capped (hm : 0 < m) (hn : 0 < n) :
    capped (capped m * capped n) = capped (m * n) := by
  rcases Nat.le_total m maxCount with hm' | hm'
  · rcases Nat.le_total n maxCount with hn' | hn'
    · rw [capped_of_le hm', capped_of_le hn']
    · rw [capped_of_ge hn', Nat.mul_comm, capped_mul_of_ge le_rfl (capped_pos hm), Nat.mul_comm,
        capped_mul_of_ge hn' hm]
  · rw [capped_of_ge hm', capped_mul_of_ge le_rfl (capped_pos hn), capped_mul_of_ge hm' hn]

/-! ### The counts -/

/-- In negation normal form, the count is the capped number of conjuncts after distribution. -/
lemma nnfClauseCount_eq (t : Formula) :
    t.nnfClauseCount = capped t.distributed.conjuncts.length := by
  induction t with
  | and a b iha ihb =>
      rw [nnfClauseCount, iha, ihb, capped_capped_add_capped, distributed, conjuncts,
        List.length_append]
  | or a b iha ihb =>
      rw [nnfClauseCount, iha, ihb,
        capped_capped_mul_capped (length_conjuncts_pos _) (length_conjuncts_pos _), distributed,
        length_conjuncts_disjoin]
  | _ => rfl

/-- **The count of clauses** is the capped number of clauses. The induction stops at negations and
implications, where the formula is put into negation normal form as a whole. -/
lemma clauseCount_eq (t : Formula) : t.clauseCount = capped t.clauses.length := by
  induction t with
  | atom name => rfl
  | not a => rw [clauseCount, nnfClauseCount_eq, clauses, cnf_eq_distributed]
  | and a b iha ihb =>
      rw [clauseCount, iha, ihb, capped_capped_add_capped, clauses_and, List.length_append]
  | or a b iha ihb =>
      rw [clauseCount, iha, ihb,
        capped_capped_mul_capped (length_clauses_pos _) (length_clauses_pos _), length_clauses_or]
  | imp a b => rw [clauseCount, nnfClauseCount_eq, clauses, cnf_eq_distributed]

/-- Normal forms have the clauses of the formula. -/
lemma clauses_eq_of_mem {s t : Formula} (h : s ∈ [t.withoutImp, t.nnf, t.cnf]) :
    s.clauses = t.clauses := by
  simp only [List.mem_cons, List.not_mem_nil, or_false] at h
  rcases h with rfl | rfl | rfl
  · rw [clauses, cnf_withoutImp, clauses]
  · rw [clauses, cnf_nnf, clauses]
  · rw [clauses, cnf_cnf, clauses]

lemma clauseCount_nnf (t : Formula) : t.nnf.clauseCount = t.clauseCount := by
  have hmem : t.nnf ∈ [t.withoutImp, t.nnf, t.cnf] := by simp
  rw [clauseCount_eq, clauseCount_eq, clauses_eq_of_mem hmem]

/-- **The count is exact up to the cap**, for every formula: it is the number of clauses or the
largest 64-bit number, at least one, and the same for the formula, the formula without its
implications, its negation normal form and its conjunctive normal form. -/
theorem clauseCount_eq_min_length_clauses (t : Formula) :
    t.clauseCount = min t.clauses.length (2 ^ 64 - 1) ∧ 1 ≤ t.clauseCount
    ∧ 1 ≤ t.clauses.length
    ∧ ∀ s ∈ [t.withoutImp, t.nnf, t.cnf],
      s.clauseCount = t.clauseCount ∧ s.clauses.length = t.clauses.length := by
  refine ⟨?_, ?_, t.length_clauses_pos, fun s hs => ?_⟩
  · rw [clauseCount_eq, capped, maxCount_eq]
  · rw [clauseCount_eq]
    exact capped_pos t.length_clauses_pos
  · rw [clauseCount_eq, clauseCount_eq, clauses_eq_of_mem hs]
    exact ⟨rfl, rfl⟩

end Clausal.Formula
