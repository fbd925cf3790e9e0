/-
The laws of truth with gaps.

* `Truth.not_not`, `Truth.not_and`, `Truth.not_or`, `Truth.imp_eq`: double negation, the laws of
  De Morgan, and implication by negation and disjunction;
* `Truth.or_and`, `Truth.and_or`: disjunction distributes over conjunction on either side.

All of them hold for undetermined values too; the law of excluded middle does not.
-/
import Mathlib.Tactic
import Clausal.Truth

namespace Clausal.Truth

@[simp] lemma not_not (x : Truth) : x.not.not = x := by
  rcases x with _ | _ | _ <;> rfl

lemma not_and (x y : Truth) : (x.and y).not = x.not.or y.not := by
  rcases x with _ | _ | _ <;> rcases y with _ | _ | _ <;> rfl

lemma not_or (x y : Truth) : (x.or y).not = x.not.and y.not := by
  rcases x with _ | _ | _ <;> rcases y with _ | _ | _ <;> rfl

lemma imp_eq (x y : Truth) : x.imp y = x.not.or y := by
  rcases x with _ | _ | _ <;> rcases y with _ | _ | _ <;> rfl

/-- Disjunction distributes over a conjunction on its right. -/
lemma or_and (x y z : Truth) : x.or (y.and z) = (x.or y).and (x.or z) := by
  rcases x with _ | _ | _ <;> rcases y with _ | _ | _ <;> rcases z with _ | _ | _ <;> rfl

/-- Disjunction distributes over a conjunction on its left. -/
lemma and_or (x y z : Truth) : (x.and y).or z = (x.or z).and (y.or z) := by
  rcases x with _ | _ | _ <;> rcases y with _ | _ | _ <;> rcases z with _ | _ | _ <;> rfl

end Clausal.Truth
