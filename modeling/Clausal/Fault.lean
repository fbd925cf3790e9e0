/-
What can go wrong between a text and its conjunctive normal form.

* `Fault`: the causes;
* `Fault.message`: their wording.
-/
import Clausal.Formula.Postorder

namespace Clausal

/-- Why a text has no conjunctive normal form. -/
inductive Fault where
  /-- The grammar rejects the text. -/
  | notWellFormed (text : String)
  /-- The postfix order of the text does not describe one formula. -/
  | malformedPostfix (misfit : Formula.Misfit)
  /-- The normal form would have more clauses than allowed. -/
  | tooManyClauses (clauses limit : Nat)
  deriving DecidableEq

/-- What is wrong, in words. -/
def Fault.message : Fault → String
  | .notWellFormed text => "This is not a well-formed formula: " ++ text
  | .malformedPostfix misfit => "malformed postfix sequence: " ++ misfit.message
  | .tooManyClauses clauses limit =>
    "CNF would contain " ++ toString clauses ++ " clauses, exceeding the limit of " ++
      toString limit

end Clausal
