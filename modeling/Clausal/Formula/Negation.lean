/-
Negation normal form.

* `Formula.withoutImp`: implications written by negation and disjunction;
* `Formula.inward`: negations moved inward until they stand before atoms only;
* `Formula.inward_induction`: induction along that recursion;
* `Formula.nnf`: the negation normal form of any formula.
-/
import Clausal.Formula.Shape

namespace Clausal.Formula

/-- A formula with every implication `a ⟶ b` written as `¬ a ∨ b`. -/
def withoutImp : Formula → Formula
  | .atom name => .atom name
  | .not a => .not a.withoutImp
  | .and a b => .and a.withoutImp b.withoutImp
  | .or a b => .or a.withoutImp b.withoutImp
  | .imp a b => .or (.not a.withoutImp) b.withoutImp

/-- A formula without implications, with its negations moved inward by the laws of De Morgan and
double negations dropped. Implications stay as they are. -/
def inward : Formula → Formula
  | .atom name => .atom name
  | .not (.atom name) => .not (.atom name)
  | .not (.not a) => a.inward
  | .not (.and a b) => .or (inward (.not a)) (inward (.not b))
  | .not (.or a b) => .and (inward (.not a)) (inward (.not b))
  | .not (.imp a b) => .not (.imp a b)
  | .and a b => .and a.inward b.inward
  | .or a b => .or a.inward b.inward
  | .imp a b => .imp a b
  termination_by t => t.size
  decreasing_by all_goals simp only [size]; omega

/-- The induction principle of `inward`: a property holds of every formula once it is inherited
along the recursion, where a negated pair passes it on from its negated operands. -/
@[elab_as_elim]
theorem inward_induction {P : Formula → Prop} (atom : ∀ name, P (.atom name))
    (not_atom : ∀ name, P (.not (.atom name))) (not_not : ∀ a, P a → P (.not (.not a)))
    (not_and : ∀ a b, P (.not a) → P (.not b) → P (.not (.and a b)))
    (not_or : ∀ a b, P (.not a) → P (.not b) → P (.not (.or a b)))
    (not_imp : ∀ a b, P (.not (.imp a b))) (and : ∀ a b, P a → P b → P (.and a b))
    (or : ∀ a b, P a → P b → P (.or a b)) (imp : ∀ a b, P (.imp a b)) (t : Formula) : P t :=
  inward.induct P atom not_atom not_not not_and not_or not_imp and or imp t

/-- The negation normal form of a formula. Implications are removed first if there are any. -/
def nnf (t : Formula) : Formula :=
  if t.isImplicationFree then t.inward else t.withoutImp.inward

end Clausal.Formula
