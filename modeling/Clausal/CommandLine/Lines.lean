/-
The formulas in a file: its lines, less those that are blank.

* `CommandLine.byteLines`: the lines of a sequence of bytes;
* `CommandLine.decodeLine`: the text of a line in UTF-8;
* `CommandLine.formulaLines`: the texts of all lines that are not blank, if every line has a text.
-/
import Clausal.Text.Blank

namespace Clausal.CommandLine

/-- The byte that ends a line. -/
def newline : UInt8 := 10

/-- The byte that may come before the end of a line. -/
def carriageReturn : UInt8 := 13

/-- A line that ended in a newline, without a carriage return before it. -/
def withoutReturn (line : List UInt8) : List UInt8 :=
  if line.getLast? = some carriageReturn then line.dropLast else line

/-- The lines of a sequence of bytes. What follows the last newline is a line of its own unless it
is empty, and keeps a carriage return at its end. -/
def byteLines (bytes : List UInt8) : List (List UInt8) :=
  let pieces := bytes.splitOn newline
  pieces.dropLast.map withoutReturn ++ pieces.getLast?.toList.filter (· ≠ [])

/-- The text of a line, if its bytes are valid UTF-8. -/
def decodeLine (line : List UInt8) : Option String := String.fromUTF8? line.toByteArray

/-- Whether a text consists of blanks only. -/
def isBlankText (text : String) : Bool := text.toList.all Text.isBlank

/-- The texts of the lines that are not blank, in order, if all lines are valid UTF-8. -/
def formulaLines (bytes : List UInt8) : Option (List String) :=
  ((byteLines bytes).mapM decodeLine).map (·.filter (!isBlankText ·))

end Clausal.CommandLine
