/-
Blank characters: the property White_Space of the Unicode standard.

* `Text.blanks`: the ten ranges of that property;
* `Text.isBlank`: membership.

Joiners, zero-width spaces and the byte order mark are not blank.
-/
import Clausal.Text.Ranges

namespace Clausal.Text

/-- The characters with the property White_Space: the controls tab to carriage return, the spaces
of every width, the next-line control and the line and paragraph separators. -/
def blanks : Ranges :=
  [(0x09, 0x0D), (0x20, 0x20), (0x85, 0x85), (0xA0, 0xA0), (0x1680, 0x1680), (0x2000, 0x200A),
    (0x2028, 0x2029), (0x202F, 0x202F), (0x205F, 0x205F), (0x3000, 0x3000)]

/-- Whether a character only separates others. -/
def isBlank (c : Char) : Bool := blanks.contains c

/-- The space, the tab and the ends of lines are blank. -/
theorem isBlank_of_isWhitespace {c : Char} (h : c.isWhitespace = true) : isBlank c = true := by
  simp only [Char.isWhitespace, Bool.or_eq_true, decide_eq_true_eq] at h
  rcases h with ((rfl | rfl) | rfl) | rfl <;> rfl

end Clausal.Text
