/-
Truth with gaps: the strong Kleene connectives.

* `Truth`: true, false, or undetermined;
* `Truth.not`, `Truth.and`, `Truth.or`, `Truth.imp`: each connective is determined as soon as its
  determined operands force its value.
-/
namespace Clausal

/-- A truth value; `none` is undetermined. -/
abbrev Truth := Option Bool

namespace Truth

/-- Negation: undetermined if its operand is. -/
def not : Truth → Truth
  | some a => some !a
  | none => none

/-- Conjunction: one false operand makes it false. -/
def and : Truth → Truth → Truth
  | some false, _ => some false
  | _, some false => some false
  | some true, some true => some true
  | _, _ => none

/-- Disjunction: one true operand makes it true. -/
def or : Truth → Truth → Truth
  | some true, _ => some true
  | _, some true => some true
  | some false, some false => some false
  | _, _ => none

/-- Implication: a false premise or a true conclusion makes it true. -/
def imp : Truth → Truth → Truth
  | some false, _ => some true
  | _, some true => some true
  | some true, some false => some false
  | _, _ => none

end Truth

end Clausal
