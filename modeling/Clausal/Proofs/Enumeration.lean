/-
All assignments of given atoms.

* `Assignment.words`, `Assignment.ofWord`: the 64-bit words below a bit shifted by the number of
  atoms, and the assignment of a word, by a mask for each position;
* `Assignment.all_eq_map_ofWord`: all assignments of some atoms are those of these words;
* `Assignment.perm_entries_numbered`: each atom has one entry;
* `Assignment.numbered_inj`, `Assignment.existsUnique_number`: assignments are told apart by their
  numbers, and any values are those of exactly one;
* `Assignment.all_enumerates`: **the enumeration is complete and has no repetition**.
-/
import Mathlib.Data.Nat.Bitwise
import Mathlib.Tactic
import Clausal.Proofs.Lists
import Clausal.Proofs.Numbering

namespace Clausal.Assignment

variable {atoms : List Char}

/-! ### Words -/

/-- The words from zero up to a bit shifted by so many places. -/
def words (places : ℕ) : List UInt64 :=
  (List.range ((1 : UInt64) <<< UInt64.ofNat places).toNat).map UInt64.ofNat

/-- The assignment of a word: each atom has the bit that a mask for its position finds. -/
def ofWord (atoms : List Char) (word : UInt64) : Assignment :=
  ofPairs (atoms.zipIdx.map fun (name, i) => (name, word &&& (1 <<< UInt64.ofNat i) != 0))

lemma toNat_one_shiftLeft (places : ℕ) :
    ((1 : UInt64) <<< UInt64.ofNat places).toNat = 2 ^ (places % width) := by
  have hplaces : (UInt64.ofNat places).toNat % 64 = places % width := by
    rw [UInt64.toNat_ofNat']
    exact Nat.mod_mod_of_dvd places (by decide)
  have hlt : 2 ^ (places % width) < 2 ^ 64 :=
    Nat.pow_lt_pow_right (by decide) (Nat.mod_lt _ (by decide))
  rw [UInt64.toNat_shiftLeft, hplaces, UInt64.toNat_one, Nat.one_shiftLeft, Nat.mod_eq_of_lt hlt]

/-- A mask with one bit finds that bit of the word. -/
lemma and_one_shiftLeft_ne_zero (word : UInt64) (i : ℕ) :
    (word &&& (1 <<< UInt64.ofNat i) != 0) = word.toNat.testBit (i % width) := by
  have hmask : (word &&& (1 <<< UInt64.ofNat i)).toNat
      = (word.toNat.testBit (i % width)).toNat * 2 ^ (i % width) := by
    rw [UInt64.toNat_and, toNat_one_shiftLeft, Nat.and_two_pow]
  rw [Bool.eq_iff_iff, bne_iff_ne, ne_eq, ← UInt64.toNat_inj, hmask]
  cases word.toNat.testBit (i % width) <;> simp

/-- The masks look at no bit beyond those of a word. -/
lemma ofWord_ofNat (atoms : List Char) (number : ℕ) :
    ofWord atoms (UInt64.ofNat number) = numbered atoms number := by
  have hbit (i : ℕ) : (UInt64.ofNat number).toNat.testBit (i % width)
      = number.testBit (i % width) := by
    have hlt : i % width < 64 := Nat.mod_lt i (by decide)
    rw [UInt64.toNat_ofNat', Nat.testBit_mod_two_pow, decide_eq_true hlt, Bool.true_and]
  simp only [ofWord, numbered, and_one_shiftLeft_ne_zero, hbit]

lemma all_eq_map_ofWord (atoms : List Char) :
    all atoms = (words atoms.eraseDups.length).map (ofWord atoms.eraseDups) := by
  have hcount : count atoms.eraseDups
      = ((1 : UInt64) <<< UInt64.ofNat atoms.eraseDups.length).toNat :=
    (toNat_one_shiftLeft _).symm
  rw [all, words, hcount, List.map_map]
  exact List.map_congr_left fun number _ => (ofWord_ofNat _ number).symm

/-! ### Entries -/

/-- The atoms with a value are those that have an entry. -/
lemma isSome_get_iff {v : Assignment} {c : Char} :
    (v.get c).isSome ↔ c ∈ v.entries.map Prod.fst := by
  rw [get]
  induction v.entries with
  | nil => simp
  | cons entry rest ih =>
      rw [lookup_cons, List.map_cons, List.mem_cons, ← ih]
      by_cases h : c = entry.1 <;> simp [h]

lemma isSome_get_numbered (hnodup : atoms.Nodup) (number : ℕ) (c : Char) :
    ((numbered atoms number).get c).isSome ↔ c ∈ atoms := by
  rw [get_numbered hnodup]
  by_cases h : c ∈ atoms <;> simp [h]

/-- **No pair is lost**: the entries of a numbered assignment are for the atoms it is made of, each
one once. -/
lemma perm_entries_numbered (hnodup : atoms.Nodup) (number : ℕ) :
    ((numbered atoms number).entries.map Prod.fst).Perm atoms := by
  have hentries : ((numbered atoms number).entries.map Prod.fst).Nodup :=
    (numbered atoms number).increasing.imp Std.ne_of_lt
  refine (List.perm_ext_iff_of_nodup hentries hnodup).mpr fun c => ?_
  rw [← isSome_get_iff, isSome_get_numbered hnodup]

/-! ### Numbers -/

lemma get_numbered_getElem (hnodup : atoms.Nodup) (hwidth : atoms.length < width) (number : ℕ)
    {i : ℕ} (hi : i < atoms.length) :
    (numbered atoms number).get atoms[i] = some (number.testBit i) := by
  rw [get_numbered_of_mem hnodup hwidth number (List.getElem_mem hi), hnodup.idxOf_getElem]

/-- Numbers are told apart by a bit, and so are their assignments by the atom at its position. -/
lemma numbered_inj (hnodup : atoms.Nodup) (hwidth : atoms.length < width) {m n : ℕ}
    (hm : m < 2 ^ atoms.length) (hn : n < 2 ^ atoms.length)
    (h : ∀ c ∈ atoms, (numbered atoms m).get c = (numbered atoms n).get c) : m = n := by
  refine Nat.eq_of_testBit_eq fun i => ?_
  by_cases hi : i < atoms.length
  · have hbit := h atoms[i] (List.getElem_mem hi)
    rw [get_numbered_getElem hnodup hwidth m hi, get_numbered_getElem hnodup hwidth n hi] at hbit
    exact Option.some.inj hbit
  · have hpow : 2 ^ atoms.length ≤ 2 ^ i := Nat.pow_le_pow_right (by decide) (not_lt.mp hi)
    rw [Nat.testBit_lt_two_pow (hm.trans_le hpow), Nat.testBit_lt_two_pow (hn.trans_le hpow)]

/-! ### The enumeration -/

lemma all_eq_map_numbered (hnodup : atoms.Nodup) (hwidth : atoms.length < width) :
    all atoms = (List.range (2 ^ atoms.length)).map (numbered atoms) := by
  rw [all, eraseDups_of_nodup hnodup, count_of_lt hwidth]

lemma getElem?_all_eq_some_iff (hnodup : atoms.Nodup) (hwidth : atoms.length < width)
    {number : ℕ} {v : Assignment} :
    (all atoms)[number]? = some v ↔ number < 2 ^ atoms.length ∧ numbered atoms number = v := by
  simp [all_eq_map_numbered hnodup hwidth, List.getElem?_eq_some_iff]

/-- **Any values** of the atoms are those of the assignment with one number, and of no other. -/
lemma existsUnique_number (hnodup : atoms.Nodup) (hwidth : atoms.length < width)
    (value : {c // c ∈ atoms} → Bool) : ∃! number : ℕ, ∃ v : Assignment,
      (all atoms)[number]? = some v ∧ ∀ c : {c // c ∈ atoms}, v.get c = some (value c) := by
  obtain ⟨number, hlt, hnumber⟩ := exists_numbered hnodup hwidth fun c =>
    if h : c ∈ atoms then value ⟨c, h⟩ else false
  rw [count_of_lt hwidth] at hlt
  have hvalue (c : {c // c ∈ atoms}) : (numbered atoms number).get c = some (value c) := by
    rw [hnumber c c.2, dif_pos c.2]
  refine ⟨number, ⟨numbered atoms number,
    (getElem?_all_eq_some_iff hnodup hwidth).mpr ⟨hlt, rfl⟩, hvalue⟩, ?_⟩
  rintro other ⟨v, hother, hv⟩
  obtain ⟨hlt', rfl⟩ := (getElem?_all_eq_some_iff hnodup hwidth).mp hother
  exact numbered_inj hnodup hwidth hlt' hlt fun c hc => (hv ⟨c, hc⟩).trans (hvalue ⟨c, hc⟩).symm

/-- **The enumeration is complete and has no repetition.** Fewer than 64 distinct atoms have one
assignment for each word below the shifted bit, which is `2 ^ n` of them for `n` atoms. Each has one
entry for each atom and none for anything else; the one with a number gives the atom at each position
the bit of the number at that position; and whatever values the atoms are to have, exactly one number
is that of an assignment with these values. -/
theorem all_enumerates (hnodup : atoms.Nodup) (hwidth : atoms.length < 64) :
    all atoms = (words atoms.length).map (ofWord atoms)
    ∧ (all atoms).length = 2 ^ atoms.length ∧ (all atoms).Nodup
    ∧ (∀ v ∈ all atoms, (v.entries.map Prod.fst).Perm atoms
      ∧ ∀ c, (v.get c).isSome ↔ c ∈ atoms)
    ∧ (∀ number < 2 ^ atoms.length, ∃ v : Assignment, (all atoms)[number]? = some v
      ∧ ∀ (i : ℕ) (hi : i < atoms.length), v.get atoms[i] = some (number.testBit i))
    ∧ ∀ value : {c // c ∈ atoms} → Bool, ∃! number : ℕ, ∃ v : Assignment,
      (all atoms)[number]? = some v ∧ ∀ c : {c // c ∈ atoms}, v.get c = some (value c) := by
  have hall := all_eq_map_numbered hnodup hwidth
  refine ⟨?_, ?_, ?_, fun v hv => ?_, fun number hnumber => ?_, existsUnique_number hnodup hwidth⟩
  · rw [all_eq_map_ofWord, eraseDups_of_nodup hnodup]
  · rw [hall, List.length_map, List.length_range]
  · rw [hall]
    refine List.Nodup.map_on (fun m hm n hn h => ?_) List.nodup_range
    have hget : ∀ c ∈ atoms, (numbered atoms m).get c = (numbered atoms n).get c := by simp [h]
    exact numbered_inj hnodup hwidth (List.mem_range.mp hm) (List.mem_range.mp hn) hget
  · rw [hall] at hv
    obtain ⟨number, -, rfl⟩ := List.mem_map.mp hv
    exact ⟨perm_entries_numbered hnodup number, isSome_get_numbered hnodup number⟩
  · exact ⟨numbered atoms number, (getElem?_all_eq_some_iff hnodup hwidth).mpr ⟨hnumber, rfl⟩,
      fun i hi => get_numbered_getElem hnodup hwidth number hi⟩

/-- With 63 atoms, the most that are told apart, the highest bit of a number is that of the last
atom. -/
theorem all_enumerates_sixty_three_atoms :
    ((List.range 63).map Char.ofNat).Nodup ∧ ((List.range 63).map Char.ofNat).length < 64
    ∧ (all ((List.range 63).map Char.ofNat)).length = 2 ^ 63
    ∧ ∃ v : Assignment, (all ((List.range 63).map Char.ofNat))[2 ^ 62]? = some v
      ∧ v.get '=' = some false ∧ v.get '>' = some true := by
  have hnodup : ((List.range 63).map Char.ofNat).Nodup := by decide +kernel
  have hwidth : ((List.range 63).map Char.ofNat).length < 64 := by decide
  obtain ⟨-, hlength, -, -, hbits, -⟩ := all_enumerates hnodup hwidth
  obtain ⟨v, hv, hget⟩ := hbits (2 ^ 62) (by decide)
  exact ⟨hnodup, hwidth, hlength, v, hv, hget 61 (by decide), hget 62 (by decide)⟩

end Clausal.Assignment
