/-
The meaning of the normal forms.

* `Formula.eval_withoutImp`, `Formula.eval_inward`, `Formula.eval_nnf`: removing implications and
  moving negations inward keep the value of a formula;
* `Formula.eval_disjoin`, `Formula.eval_distributed`, `Formula.eval_cnf`: so does distributing
  disjunctions over conjunctions;
* `Formula.eval_normalForms`: all of it, under total and partial valuations alike.

The values are compared with their gaps: where a formula is undetermined, so are its normal forms.
-/
import Clausal.Formula.Distribution
import Clausal.Formula.Evaluation
import Clausal.Proofs.Truth

namespace Clausal.Formula

variable (v : Char → Truth)

/-! ### Negation normal form -/

lemma eval_withoutImp (t : Formula) : t.withoutImp.eval v = t.eval v := by
  induction t with
  | atom name => rfl
  | not a ih => simp only [withoutImp, eval, ih]
  | and a b iha ihb => simp only [withoutImp, eval, iha, ihb]
  | or a b iha ihb => simp only [withoutImp, eval, iha, ihb]
  | imp a b iha ihb => simp only [withoutImp, eval, iha, ihb, Truth.imp_eq]

/-- The laws of De Morgan and of double negation keep the value. -/
lemma eval_inward (t : Formula) : t.inward.eval v = t.eval v := by
  induction t using inward_induction with
  | atom name => rw [inward]
  | not_atom name => rw [inward]
  | not_not a ih => simp only [inward, eval, ih, Truth.not_not]
  | not_and a b iha ihb => simp only [inward, eval, iha, ihb, Truth.not_and]
  | not_or a b iha ihb => simp only [inward, eval, iha, ihb, Truth.not_or]
  | not_imp a b => rw [inward]
  | and a b iha ihb => simp only [inward, eval, iha, ihb]
  | or a b iha ihb => simp only [inward, eval, iha, ihb]
  | imp a b => rw [inward]

lemma eval_nnf (t : Formula) : t.nnf.eval v = t.eval v := by
  rw [nnf]
  split
  · exact eval_inward v t
  · rw [eval_inward, eval_withoutImp]

/-! ### Conjunctive normal form -/

lemma eval_disjoinRight (a b : Formula) :
    (disjoinRight a b).eval v = (a.eval v).or (b.eval v) := by
  induction b with
  | and b c ihb ihc => simp only [disjoinRight, eval, ihb, ihc, Truth.or_and]
  | _ => simp only [disjoinRight, eval]

lemma eval_disjoin (a b : Formula) : (disjoin a b).eval v = (a.eval v).or (b.eval v) := by
  induction a with
  | and a c iha ihc => simp only [disjoin, eval, iha, ihc, Truth.and_or]
  | _ => simp only [disjoin, eval_disjoinRight]

lemma eval_distributed (t : Formula) : t.distributed.eval v = t.eval v := by
  induction t with
  | and a b iha ihb => simp only [distributed, eval, iha, ihb]
  | or a b iha ihb => simp only [distributed, eval, eval_disjoin, iha, ihb]
  | _ => simp only [distributed]

lemma eval_cnf (t : Formula) : t.cnf.eval v = t.eval v := by
  rw [cnf]
  split
  · exact eval_distributed v t
  · rw [eval_distributed, eval_nnf]

/-- **Normal forms keep the meaning**, gaps included: under every valuation a formula, the formula
without its implications, its negation normal form and its conjunctive normal form have one value,
and a distributed disjunction of any two formulas has the value of their disjunction. -/
theorem eval_normalForms :
    (∀ t : Formula, t.withoutImp.eval v = t.eval v ∧ t.nnf.eval v = t.eval v
      ∧ t.cnf.eval v = t.eval v)
    ∧ ∀ a b : Formula, (disjoin a b).eval v = (Formula.or a b).eval v :=
  ⟨fun t => ⟨eval_withoutImp v t, eval_nnf v t, eval_cnf v t⟩, eval_disjoin v⟩

end Clausal.Formula
