/-
The connectives of propositional formulas and the ways to write them.

* `Connective`: negation, conjunction, disjunction, implication;
* `Connective.spelling`, `Connective.keyword`: the word of the backslash notation, such as `\wedge`;
* `Connective.sign`, `Connective.ofSign?`: the single character that stands for the same word;
* `Connective.arity`, `Connective.precedence`: operand count and binding strength.
-/
namespace Clausal

/-- A connective of propositional logic. -/
inductive Connective where
  | not
  | and
  | or
  | imp
  deriving DecidableEq

namespace Connective

/-- Every connective, the one that binds tightest first. -/
def all : List Connective := [.not, .and, .or, .imp]

/-! ### Spelling -/

/-- The characters of the reserved word for a connective. -/
def spelling : Connective → List Char
  | .not => ['\\', 'n', 'e', 'g']
  | .and => ['\\', 'w', 'e', 'd', 'g', 'e']
  | .or => ['\\', 'v', 'e', 'e']
  | .imp => ['\\', 'r', 'i', 'g', 'h', 't', 'a', 'r', 'r', 'o', 'w']

/-- The reserved word for a connective. -/
def keyword (k : Connective) : String := String.ofList k.spelling

/-- The single character that may stand for the reserved word. -/
def sign : Connective → Char
  | .not => '¬'
  | .and => '∧'
  | .or => '∨'
  | .imp => '⟶'

/-- The connective with the sign `c`, if there is one. -/
def ofSign? (c : Char) : Option Connective := all.find? (·.sign == c)

/-- The connective whose reserved word begins the text, if there is one. No reserved word begins
another, so at most one connective qualifies. -/
def leading? (text : List Char) : Option Connective := all.find? (·.spelling.isPrefixOf text)

/-- A reserved word is never empty. -/
theorem spelling_length_pos (k : Connective) : 0 < k.spelling.length := by
  cases k <;> simp [spelling]

/-! ### Operands -/

/-- The number of operands a connective takes. -/
def arity : Connective → Nat
  | .not => 1
  | .and | .or | .imp => 2

/-- The binding strength of a connective: a higher number binds tighter. -/
def precedence : Connective → Nat
  | .not => 4
  | .and => 3
  | .or => 2
  | .imp => 1

end Connective

end Clausal
