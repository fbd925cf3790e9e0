/-
Reading a text as tokens.

* `Token.ofChar`: the token of a single character;
* `Token.scan`: the tokens of a sequence of characters without blanks, read from left to right;
* `Token.ofText`: the tokens of any text.

Blanks are dropped before anything else, so a reserved word may be broken up by them. Every text has
tokens: what is neither a parenthesis nor a connective is an atom.
-/
import Clausal.Text.Blank
import Clausal.Token.Basic

namespace Clausal.Token

/-- The token of a character on its own: a parenthesis, the connective of a sign, or an atom. -/
def ofChar (c : Char) : Token :=
  if c = '(' then .opening
  else if c = ')' then .closing
  else match Connective.ofSign? c with
    | some k => .op k
    | none => .atom c

/-- The tokens of a sequence of characters without blanks: a reserved word where one begins, else
the token of the next character. -/
def scan : List Char → List Token
  | [] => []
  | c :: cs =>
    match Connective.leading? (c :: cs) with
    | some k => .op k :: scan ((c :: cs).drop k.spelling.length)
    | none => ofChar c :: scan cs
  termination_by cs => cs.length
  decreasing_by
    · have := k.spelling_length_pos
      simp only [List.length_drop, List.length_cons]
      omega
    · simp

/-- The tokens of a text, blanks left out. -/
def ofText (text : String) : List Token := scan (text.toList.filter (!Text.isBlank ·))

end Clausal.Token
