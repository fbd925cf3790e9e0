/-
Conjunctive normal form.

* `Formula.disjoinRight`, `Formula.disjoin`: the disjunction of two formulas, distributed over
  their conjunctions;
* `Formula.distributed`: every disjunction of a formula distributed;
* `Formula.cnf`: the conjunctive normal form of any formula.

The conjuncts of a distributed disjunction are the disjunctions of a conjunct on the left with one
on the right, in order, so their number is a product: the result can be exponentially larger.
-/
import Clausal.Formula.Negation

namespace Clausal.Formula

/-- The disjunction of a formula with each conjunct of another one. -/
def disjoinRight (left : Formula) : Formula → Formula
  | .and a b => .and (disjoinRight left a) (disjoinRight left b)
  | right => .or left right

/-- The disjunction of two formulas, distributed over the conjunctions of the left and then over
those of the right. -/
def disjoin : Formula → Formula → Formula
  | .and a b, right => .and (disjoin a right) (disjoin b right)
  | left, right => disjoinRight left right

/-- A formula in negation normal form with every disjunction distributed. -/
def distributed : Formula → Formula
  | .and a b => .and a.distributed b.distributed
  | .or a b => disjoin a.distributed b.distributed
  | t => t

/-- The conjunctive normal form of a formula. It is put into negation normal form first unless it
has that form already. -/
def cnf (t : Formula) : Formula :=
  if t.isNNF then t.distributed else t.nnf.distributed

end Clausal.Formula
