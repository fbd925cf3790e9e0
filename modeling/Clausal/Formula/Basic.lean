/-
Propositional formulas as trees.

* `Formula`: atoms, and the four connectives with their operands;
* `Formula.Kind`, `Formula.kind`, `Formula.children`: the outermost symbol and what it joins;
* `Formula.size`, `Formula.occurrences`, `Formula.atoms`: nodes, atoms from left to right, and the
  distinct atoms in order of first occurrence;
* `Formula.text`: a formula in writing;
* `Formula.rename`: the same formula over other atoms.
-/
import Clausal.Text.Quoted
import Clausal.Connective

namespace Clausal

/-- A propositional formula over atoms named by single characters. -/
inductive Formula where
  | atom (name : Char)
  | not (a : Formula)
  | and (a b : Formula)
  | or (a b : Formula)
  | imp (a b : Formula)
  deriving DecidableEq

namespace Formula

/-! ### The outermost symbol -/

/-- The outermost symbol of a formula. -/
inductive Kind where
  | atom (name : Char)
  | not
  | and
  | or
  | imp
  deriving DecidableEq

namespace Kind

/-- The number of operands below a symbol. -/
def arity : Kind → Nat
  | .atom _ => 0
  | .not => 1
  | .and | .or | .imp => 2

/-- Whether a symbol is an atom. -/
def isAtom : Kind → Bool
  | .atom _ => true
  | _ => false

/-- The name of a symbol in reports; an atom is shown with its character in quotes. -/
def label : Kind → String
  | .atom name => "Atom(" ++ Text.quoted name ++ ")"
  | .not => "Not"
  | .and => "And"
  | .or => "Or"
  | .imp => "Imp"

/-- The symbol of a connective. -/
def ofConnective : Connective → Kind
  | .not => .not
  | .and => .and
  | .or => .or
  | .imp => .imp

end Kind

/-- The outermost symbol of a formula. -/
def kind : Formula → Kind
  | .atom name => .atom name
  | .not _ => .not
  | .and _ _ => .and
  | .or _ _ => .or
  | .imp _ _ => .imp

/-- The operands of the outermost symbol, from left to right. -/
def children : Formula → List Formula
  | .atom _ => []
  | .not a => [a]
  | .and a b | .or a b | .imp a b => [a, b]

/-- A formula has as many operands as its symbol asks for. -/
theorem length_children (t : Formula) : t.children.length = t.kind.arity := by
  cases t <;> rfl

/-! ### Size and atoms -/

/-- The number of nodes of a formula. -/
def size : Formula → Nat
  | .atom _ => 1
  | .not a => 1 + a.size
  | .and a b | .or a b | .imp a b => 1 + a.size + b.size

/-- The atoms of a formula from left to right, with repetitions. -/
def occurrences : Formula → List Char
  | .atom name => [name]
  | .not a => a.occurrences
  | .and a b | .or a b | .imp a b => a.occurrences ++ b.occurrences

/-- The distinct atoms of a formula, in order of first occurrence. -/
def atoms (t : Formula) : List Char := t.occurrences.eraseDups

/-- A formula with each atom renamed. -/
def rename (f : Char → Char) : Formula → Formula
  | .atom name => .atom (f name)
  | .not a => .not (a.rename f)
  | .and a b => .and (a.rename f) (b.rename f)
  | .or a b => .or (a.rename f) (b.rename f)
  | .imp a b => .imp (a.rename f) (b.rename f)

/-! ### Writing -/

/-- Two written operands in parentheses with a connective between them. -/
def infixSpelling (k : Connective) (left right : List Char) : List Char :=
  '(' :: (left ++ ' ' :: (k.spelling ++ ' ' :: (right ++ [')'])))

/-- The characters of a formula: a blank, the word for negation and a blank before a negated
operand, and parentheses around each pair of operands. -/
def spelling : Formula → List Char
  | .atom name => [name]
  | .not a => ' ' :: (Connective.not.spelling ++ ' ' :: a.spelling)
  | .and a b => infixSpelling .and a.spelling b.spelling
  | .or a b => infixSpelling .or a.spelling b.spelling
  | .imp a b => infixSpelling .imp a.spelling b.spelling

/-- A formula in writing. -/
def text (t : Formula) : String := String.ofList t.spelling

end Formula

end Clausal
