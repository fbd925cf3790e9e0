/-
The assignments of given atoms by number.

* `Assignment.get_numbered`: the atom at a position has the bit of the number at that position, and
  no other atom has a value;
* `Assignment.exists_numbered`: any values of the atoms are those of a numbered assignment.

The atoms are distinct and fewer than the bits of a word.
-/
import Mathlib.Tactic
import Clausal.Assignment

namespace Clausal.Assignment

variable {atoms : List Char}

/-! ### Values -/

/-- One more atom is set to the bit at the position after the others. -/
lemma numbered_concat (atoms : List Char) (name : Char) (number : Nat) :
    numbered (atoms ++ [name]) number
      = (numbered atoms number).set name (number.testBit (atoms.length % width)) := by
  simp [numbered, ofPairs, List.zipIdx_append]

/-- The values of a numbered assignment are the bits of its number. -/
lemma get_numbered (hnodup : atoms.Nodup) (number : Nat) (c : Char) :
    (numbered atoms number).get c
      = if c ∈ atoms then some (number.testBit (atoms.idxOf c % width)) else none := by
  induction atoms using List.reverseRecOn with
  | nil => simp [numbered, ofPairs, get_empty]
  | append_singleton atoms name ih =>
      obtain ⟨hatoms, -, hname⟩ := List.nodup_append.mp hnodup
      have hfresh : name ∉ atoms := fun hmem => hname name hmem name List.mem_cons_self rfl
      rw [numbered_concat, get_set, ih hatoms]
      by_cases hc : c = name
      · subst hc
        simp [List.idxOf_append_of_notMem hfresh]
      · by_cases hmem : c ∈ atoms
        · simp [hc, hmem, List.idxOf_append_of_mem hmem]
        · simp [hc, hmem]

/-! ### Numbers -/

lemma count_of_lt (h : atoms.length < width) : count atoms = 2 ^ atoms.length := by
  rw [count, Nat.mod_eq_of_lt h]
  rfl

lemma get_numbered_of_mem (hnodup : atoms.Nodup) (hwidth : atoms.length < width) (number : Nat)
    {c : Char} (hc : c ∈ atoms) :
    (numbered atoms number).get c = some (number.testBit (atoms.idxOf c)) := by
  have hlt : atoms.idxOf c < width := (List.idxOf_lt_length_of_mem hc).trans hwidth
  rw [get_numbered hnodup, if_pos hc, Nat.mod_eq_of_lt hlt]

/-- **Any values** of the atoms are those of a numbered assignment: the number has them as bits. -/
lemma exists_numbered (hnodup : atoms.Nodup) (hwidth : atoms.length < width)
    (value : Char → Bool) :
    ∃ number < count atoms, ∀ c ∈ atoms, (numbered atoms number).get c = some (value c) := by
  refine ⟨Nat.ofBits fun i : Fin atoms.length => value atoms[i], ?_, fun c hc => ?_⟩
  · rw [count_of_lt hwidth]
    exact Nat.ofBits_lt_two_pow _
  · have hlt : atoms.idxOf c < atoms.length := List.idxOf_lt_length_of_mem hc
    rw [get_numbered_of_mem hnodup hwidth _ hc, Nat.testBit_ofBits_lt _ _ hlt]
    simp

end Clausal.Assignment
