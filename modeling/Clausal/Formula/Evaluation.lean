/-
The truth of a formula under values for its atoms.

* `Formula.eval`: the value under a valuation that may leave atoms undetermined;
* `Formula.isEquivalent`: whether two formulas have the same value under all assignments of their
  atoms.
-/
import Clausal.Assignment
import Clausal.Formula.Basic

namespace Clausal.Formula

/-- The value of a formula, given the values of its atoms. -/
def eval (v : Char → Truth) : Formula → Truth
  | .atom name => v name
  | .not a => (a.eval v).not
  | .and a b => (a.eval v).and (b.eval v)
  | .or a b => (a.eval v).or (b.eval v)
  | .imp a b => (a.eval v).imp (b.eval v)

/-- Whether two formulas have the same value under every assignment of the atoms of both, tried in
the order of their numbers up to the first difference. -/
def isEquivalent (a b : Formula) : Bool :=
  let atoms := (a.atoms ++ b.atoms).eraseDups
  Nat.all (Assignment.count atoms) fun number _ =>
    let v := (Assignment.numbered atoms number).get
    a.eval v = b.eval v

end Clausal.Formula
