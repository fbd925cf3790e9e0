/-
The shapes of the normal forms, and the formulas that already have them.

* `Formula.isImplicationFree_withoutImp`, `Formula.isNNF_nnf`, `Formula.isCNF_cnf`: each normal form
  has its shape;
* `Formula.withoutImp_of_isImplicationFree`, `Formula.nnf_of_isNNF`, `Formula.cnf_of_isCNF`: a
  formula of that shape is its own normal form;
* `Formula.nnf_eq_inward`, `Formula.cnf_eq_distributed`: the shorter way for formulas that have the
  shape in part makes no difference;
* `Formula.cnf_withoutImp`, `Formula.cnf_nnf`, `Formula.cnf_cnf`: nor do weaker normal forms taken
  before.
-/
import Clausal.Proofs.Conjuncts

namespace Clausal.Formula

variable {t a b : Formula}

/-! ### Implications -/

lemma isImplicationFree_withoutImp (t : Formula) : t.withoutImp.isImplicationFree = true := by
  induction t with
  | atom name => rfl
  | not a ih => exact ih
  | and a b iha ihb | or a b iha ihb | imp a b iha ihb =>
      simp only [withoutImp, isImplicationFree, iha, ihb, Bool.and_self]

lemma withoutImp_of_isImplicationFree (h : t.isImplicationFree = true) : t.withoutImp = t := by
  induction t with
  | atom name => rfl
  | not a ih => rw [withoutImp, ih h]
  | and a b iha ihb | or a b iha ihb =>
      rw [isImplicationFree, Bool.and_eq_true] at h
      rw [withoutImp, iha h.1, ihb h.2]
  | imp a b => cases h

/-! ### Negations -/

/-- Moving negations inward leaves them before atoms only. -/
lemma isNNF_inward (h : t.isImplicationFree = true) : t.inward.isNNF = true := by
  induction t using inward_induction with
  | atom name => rw [inward]; rfl
  | not_atom name => rw [inward]; rfl
  | not_not a ih => rw [inward]; exact ih h
  | not_and a b iha ihb | not_or a b iha ihb | and a b iha ihb | or a b iha ihb =>
      simp only [isImplicationFree, Bool.and_eq_true] at h
      rw [inward, isNNF, iha h.1, ihb h.2, Bool.and_self]
  | not_imp a b => cases h
  | imp a b => cases h

/-- Only an atom is negated in negation normal form. -/
lemma isNNF_not_iff : (Formula.not a).isNNF = true ↔ ∃ name, a = .atom name := by
  cases a <;> simp [isNNF, kind, Kind.isAtom]

lemma isImplicationFree_of_isNNF (h : t.isNNF = true) : t.isImplicationFree = true := by
  induction t with
  | atom name => rfl
  | not a ih =>
      obtain ⟨name, rfl⟩ := isNNF_not_iff.mp h
      rfl
  | and a b iha ihb | or a b iha ihb =>
      rw [isNNF, Bool.and_eq_true] at h
      rw [isImplicationFree, iha h.1, ihb h.2, Bool.and_self]
  | imp a b => cases h

lemma inward_of_isNNF (h : t.isNNF = true) : t.inward = t := by
  induction t with
  | atom name => rw [inward]
  | not a ih =>
      obtain ⟨name, rfl⟩ := isNNF_not_iff.mp h
      rw [inward]
  | and a b iha ihb | or a b iha ihb =>
      rw [isNNF, Bool.and_eq_true] at h
      rw [inward, iha h.1, ihb h.2]
  | imp a b => cases h

/-- A formula without implications may go without their removal. -/
lemma nnf_eq_inward (t : Formula) : t.nnf = t.withoutImp.inward := by
  rw [nnf]
  split
  · next h => rw [withoutImp_of_isImplicationFree h]
  · rfl

lemma isNNF_nnf (t : Formula) : t.nnf.isNNF = true := by
  rw [nnf_eq_inward]
  exact isNNF_inward t.isImplicationFree_withoutImp

lemma nnf_of_isNNF (h : t.isNNF = true) : t.nnf = t := by
  rw [nnf, if_pos (isImplicationFree_of_isNNF h), inward_of_isNNF h]

lemma nnf_and (a b : Formula) : (Formula.and a b).nnf = .and a.nnf b.nnf := by
  simp only [nnf_eq_inward, withoutImp, inward]

lemma nnf_or (a b : Formula) : (Formula.or a b).nnf = .or a.nnf b.nnf := by
  simp only [nnf_eq_inward, withoutImp, inward]

lemma nnf_withoutImp (t : Formula) : t.withoutImp.nnf = t.nnf := by
  rw [nnf_eq_inward, withoutImp_of_isImplicationFree t.isImplicationFree_withoutImp, nnf_eq_inward]

lemma nnf_nnf (t : Formula) : t.nnf.nnf = t.nnf := nnf_of_isNNF t.isNNF_nnf

/-! ### Conjunctions of clauses -/

/-- Distributing its disjunctions makes the conjuncts of a formula clauses. -/
lemma isCNF_distributed (h : t.isNNF = true) : t.distributed.isCNF = true := by
  induction t with
  | atom name => rfl
  | not a => exact h
  | and a b iha ihb =>
      rw [isNNF, Bool.and_eq_true] at h
      rw [distributed, isCNF, iha h.1, ihb h.2, Bool.and_self]
  | or a b iha ihb =>
      rw [isNNF, Bool.and_eq_true] at h
      exact isCNF_disjoin_iff.mpr ⟨iha h.1, ihb h.2⟩
  | imp a b => cases h

lemma isNNF_of_isClause (h : t.isClause = true) : t.isNNF = true := by
  induction t with
  | or a b iha ihb =>
      rw [isClause, Bool.and_eq_true] at h
      rw [isNNF, iha h.1, ihb h.2, Bool.and_self]
  | atom name => rfl
  | not a => exact h
  | and a b => cases h
  | imp a b => cases h

lemma isNNF_of_isCNF (h : t.isCNF = true) : t.isNNF = true := by
  induction t with
  | and a b iha ihb =>
      rw [isCNF, Bool.and_eq_true] at h
      rw [isNNF, iha h.1, ihb h.2, Bool.and_self]
  | _ => exact isNNF_of_isClause h

/-- There is nothing to distribute over in clauses. -/
lemma disjoin_of_isClause (ha : a.isClause = true) (hb : b.isClause = true) :
    disjoin a b = .or a b := by
  have hright : disjoinRight a b = .or a b := by
    cases b with
    | and => cases hb
    | _ => rfl
  cases a with
  | and => cases ha
  | _ => exact hright

lemma distributed_of_isClause (h : t.isClause = true) : t.distributed = t := by
  induction t with
  | or a b iha ihb =>
      rw [isClause, Bool.and_eq_true] at h
      rw [distributed, iha h.1, ihb h.2, disjoin_of_isClause h.1 h.2]
  | and a b => cases h
  | _ => rfl

lemma distributed_of_isCNF (h : t.isCNF = true) : t.distributed = t := by
  induction t with
  | and a b iha ihb =>
      rw [isCNF, Bool.and_eq_true] at h
      rw [distributed, iha h.1, ihb h.2]
  | _ => exact distributed_of_isClause h

/-- A formula in negation normal form may go without being put into it. -/
lemma cnf_eq_distributed (t : Formula) : t.cnf = t.nnf.distributed := by
  rw [cnf]
  split
  · next h => rw [nnf_of_isNNF h]
  · rfl

lemma isCNF_cnf (t : Formula) : t.cnf.isCNF = true := by
  rw [cnf_eq_distributed]
  exact isCNF_distributed t.isNNF_nnf

lemma cnf_of_isCNF (h : t.isCNF = true) : t.cnf = t := by
  rw [cnf_eq_distributed, nnf_of_isNNF (isNNF_of_isCNF h), distributed_of_isCNF h]

lemma cnf_and (a b : Formula) : (Formula.and a b).cnf = .and a.cnf b.cnf := by
  simp only [cnf_eq_distributed, nnf_and, distributed]

lemma cnf_or (a b : Formula) : (Formula.or a b).cnf = disjoin a.cnf b.cnf := by
  simp only [cnf_eq_distributed, nnf_or, distributed]

lemma cnf_withoutImp (t : Formula) : t.withoutImp.cnf = t.cnf := by
  rw [cnf_eq_distributed, nnf_withoutImp, cnf_eq_distributed]

lemma cnf_nnf (t : Formula) : t.nnf.cnf = t.cnf := by
  rw [cnf_eq_distributed, nnf_nnf, cnf_eq_distributed]

lemma cnf_cnf (t : Formula) : t.cnf.cnf = t.cnf := cnf_of_isCNF t.isCNF_cnf

end Clausal.Formula
