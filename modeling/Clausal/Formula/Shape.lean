/-
Normal forms as properties of a formula.

* `Formula.isLiteral`, `Formula.isClause`, `Formula.isCNF`: an atom or a negated atom, a disjunction
  of literals, a conjunction of clauses;
* `Formula.isImplicationFree`, `Formula.isNNF`: no implication, and in addition no negation of
  anything but an atom.
-/
import Clausal.Formula.Basic

namespace Clausal.Formula

/-- Whether a formula is an atom or a negated atom. -/
def isLiteral : Formula → Bool
  | .atom _ => true
  | .not a => a.kind.isAtom
  | _ => false

/-- Whether no implication occurs in a formula. -/
def isImplicationFree : Formula → Bool
  | .atom _ => true
  | .not a => a.isImplicationFree
  | .and a b | .or a b => a.isImplicationFree && b.isImplicationFree
  | .imp _ _ => false

/-- Whether a formula is in negation normal form: no implication occurs, and only atoms are
negated. -/
def isNNF : Formula → Bool
  | .atom _ => true
  | .not a => a.kind.isAtom
  | .and a b | .or a b => a.isNNF && b.isNNF
  | .imp _ _ => false

/-- Whether a formula is a disjunction of literals. -/
def isClause : Formula → Bool
  | .or a b => a.isClause && b.isClause
  | t => t.isLiteral

/-- Whether a formula is in conjunctive normal form: a conjunction of clauses. -/
def isCNF : Formula → Bool
  | .and a b => a.isCNF && b.isCNF
  | t => t.isClause

end Clausal.Formula
