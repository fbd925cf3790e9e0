/-
Sets of characters given by ranges of code points, the way standards list them.

* `Text.Ranges`: pairs of a first and a last code point;
* `Text.Ranges.contains`: membership of a character.
-/
namespace Clausal.Text

/-- A set of characters as a list of closed ranges of code points. -/
abbrev Ranges := List (Nat × Nat)

/-- Whether a character lies in one of the ranges, both ends included. -/
def Ranges.contains (ranges : Ranges) (c : Char) : Bool :=
  ranges.any fun range => range.1 ≤ c.toNat && c.toNat ≤ range.2

end Clausal.Text
