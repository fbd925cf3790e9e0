/-
The number of clauses of a conjunctive normal form, without building it.

* `Formula.maxCount`, `Formula.capped`: counts stop growing at the largest 64-bit number;
* `Formula.nnfClauseCount`: the count for a formula in negation normal form;
* `Formula.clauseCount`: the count for any formula.
-/
import Clausal.Formula.Negation

namespace Clausal.Formula

/-- The largest count of clauses that is told apart from larger ones. -/
def maxCount : Nat := UInt64.size - 1

/-- A count, or the largest one if it is larger. -/
def capped (n : Nat) : Nat := min n maxCount

/-- The number of clauses of a formula in negation normal form: a literal is one clause, the counts
of a conjunction add up, and those of a disjunction multiply. -/
def nnfClauseCount : Formula → Nat
  | .and a b => capped (a.nnfClauseCount + b.nnfClauseCount)
  | .or a b => capped (a.nnfClauseCount * b.nnfClauseCount)
  | _ => 1

/-- The number of clauses of the conjunctive normal form of a formula. Operands that are not in
negation normal form are put into it where they are met. -/
def clauseCount : Formula → Nat
  | .and a b => capped (a.clauseCount + b.clauseCount)
  | .or a b => capped (a.clauseCount * b.clauseCount)
  | .atom _ => 1
  | .not a => nnfClauseCount (nnf (.not a))
  | .imp a b => nnfClauseCount (nnf (.imp a b))

end Clausal.Formula
