/-
The result of normalizing a text.

* `Outcome`, `Outcome.text`: the judgement of the grammar and, for a formula, its conjunctive normal
  form in writing;
* `normalize`, `normalizeWithin`: the outcome of a text, without and with a limit on the clauses.

A text that is no formula is an outcome, not a fault.
-/
import Clausal.Reading

namespace Clausal

/-- The judgement of the grammar on a text and, if there is one, its conjunctive normal form in
writing. -/
structure Outcome where
  wellFormed : Bool
  cnf : Option String
  deriving DecidableEq

namespace Outcome

/-- The outcome of a formula with a normal form. -/
def accepted (cnf : Formula) : Outcome := ⟨true, some cnf.text⟩

/-- The outcome of a text that is no formula. -/
def rejected : Outcome := ⟨false, none⟩

/-- The line that reports an outcome. -/
def text (o : Outcome) : String := o.cnf.getD "not well-formed"

end Outcome

/-- The outcome of a text, whatever the number of clauses. -/
def normalize (text : String) : Outcome :=
  let r := Reading.ofText text
  match r.cnf none with
  | .ok t => .accepted t
  | .error (.notWellFormed _) => .rejected
  | .error _ => ⟨r.wellFormed, none⟩

/-- The outcome of a text whose normal form has at most so many clauses, if a limit is given. -/
def normalizeWithin (limit : Option Nat) (text : String) : Except Fault Outcome :=
  let r := Reading.ofText text
  if r.wellFormed then (r.cnf limit).map .accepted else .ok .rejected

end Clausal
