/-
Characters in single quotes, for reports.

* `Text.quoted`: the character between quotes, with an escape where it could not be read.
-/
import Clausal.Text.Hidden

namespace Clausal.Text

/-- The escape that gives a character by its code point, in lower-case hexadecimal digits without
leading zeros. -/
def byCodePoint (c : Char) : List Char :=
  ['\\', 'u', '\x7b'] ++ Nat.toDigits 16 c.toNat ++ ['\x7d']

/-- A character as it stands between quotes: a backslash and the single quote after a backslash, the
common controls by their letter, hidden characters by code point, all else as itself. -/
def escaped (c : Char) : List Char :=
  if c = '\x00' then ['\\', '0']
  else if c = '\t' then ['\\', 't']
  else if c = '\r' then ['\\', 'r']
  else if c = '\n' then ['\\', 'n']
  else if c = '\\' then ['\\', '\\']
  else if c = '\x27' then ['\\', '\x27']
  else if isHidden c then byCodePoint c
  else [c]

/-- A character in single quotes. -/
def quoted (c : Char) : String := String.ofList (['\x27'] ++ escaped c ++ ['\x27'])

end Clausal.Text
