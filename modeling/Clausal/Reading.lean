/-
A text read as a formula, and the stages from the text to its conjunctive normal form.

* `Reading`, `Reading.ofText`: a text with its tokens and the judgement of the grammar on them;
* `Reading.postfixOrder`, `Reading.formula`, `Reading.implicationFree`, `Reading.nnf`,
  `Reading.cnf`: the stages, each a fault if the grammar rejects the text.
-/
import Clausal.Fault
import Clausal.Formula.Clauses
import Clausal.Formula.Distribution
import Clausal.Grammar.Propositional
import Clausal.Grammar.Table
import Clausal.Token.Postfix
import Clausal.Token.Scan

namespace Clausal

/-- A text with its tokens and the judgement of the grammar on them. -/
structure Reading where
  text : String
  tokens : List Token
  wellFormed : Bool
  tokens_eq : tokens = Token.ofText text
  wellFormed_eq : wellFormed = Grammar.propositional.recognizes tokens

namespace Reading

/-- Reads a text. -/
def ofText (text : String) : Reading :=
  let tokens := Token.ofText text
  { text, tokens, wellFormed := Grammar.propositional.recognizes tokens, tokens_eq := rfl,
    wellFormed_eq := rfl }

/-! ### Stages -/

/-- The tokens in postfix order. -/
def postfixOrder (r : Reading) : Except Fault (List Token) :=
  if r.wellFormed then .ok (Token.postfixOrder r.tokens) else .error (.notWellFormed r.text)

/-- The formula of the text. -/
def formula (r : Reading) : Except Fault Formula := do
  let sequence ← r.postfixOrder
  (Formula.ofPostorder sequence).mapError .malformedPostfix

/-- The formula without its implications. -/
def implicationFree (r : Reading) : Except Fault Formula := r.formula.map (·.withoutImp)

/-- The formula in negation normal form. -/
def nnf (r : Reading) : Except Fault Formula := r.implicationFree.map (·.nnf)

/-- The formula in conjunctive normal form. Under a limit the clauses are counted first, and a count
above the limit is a fault. -/
def cnf (r : Reading) (limit : Option Nat) : Except Fault Formula := do
  let t ← r.nnf
  match limit with
  | none => .ok t.cnf
  | some limit =>
    if t.clauseCount ≤ limit then .ok t.cnf else .error (.tooManyClauses t.clauseCount limit)

end Reading

end Clausal
