/-
Tokens, the words of a formula.

* `Token`: a connective, a parenthesis, or an atom named by one character;
* `Token.text`, `Token.spaced`: a token and a sequence of tokens in writing;
* `Token.atoms`: the atoms of a sequence, in order of first occurrence;
* `Token.rename`: the same token with another name for its atom.
-/
import Clausal.Connective

namespace Clausal

/-- A word of a formula. -/
inductive Token where
  | op (k : Connective)
  | opening
  | closing
  | atom (name : Char)
  deriving DecidableEq

namespace Token

/-! ### Writing -/

/-- The characters of a token; a connective is written as its reserved word. -/
def spelling : Token → List Char
  | .op k => k.spelling
  | .opening => ['(']
  | .closing => [')']
  | .atom name => [name]

/-- A token in writing. -/
def text (t : Token) : String := String.ofList t.spelling

/-- The characters of a sequence of tokens with one space between neighbours. -/
def spacedSpelling (ts : List Token) : List Char := [' '].intercalate (ts.map spelling)

/-- A sequence of tokens in writing, with one space between neighbours. -/
def spaced (ts : List Token) : String := String.ofList (spacedSpelling ts)

/-! ### Atoms -/

/-- The name of a token that is an atom. -/
def atom? : Token → Option Char
  | .atom name => some name
  | _ => none

/-- The distinct atoms of a sequence, in order of first occurrence. -/
def atoms (ts : List Token) : List Char := (ts.filterMap atom?).eraseDups

/-- A token with its atom, if it is one, renamed. -/
def rename (f : Char → Char) : Token → Token
  | .atom name => .atom (f name)
  | t => t

end Token

end Clausal
