/-
Assignments of truth values to finitely many atoms.

* `Assignment`: atoms with their values, in increasing order of the atoms;
* `Assignment.empty`, `Assignment.set`, `Assignment.ofPairs`, `Assignment.get`: building and
  look-up;
* `Assignment.width`, `Assignment.numbered`, `Assignment.count`, `Assignment.all`: the assignments
  of given atoms, by number in a word;
* `Assignment.text`: an assignment in writing.

The order makes assignments with equal look-ups equal, whatever they were built from (`ext_get`).
-/
import Clausal.Truth

namespace Clausal

/-- An assignment of truth values to finitely many atoms, in increasing order of the atoms. -/
structure Assignment where
  entries : List (Char × Bool)
  increasing : (entries.map Prod.fst).Pairwise (· < ·) := by simp
  deriving DecidableEq

namespace Assignment

/-! ### Building -/

/-- The assignment without atoms. -/
def empty : Assignment where
  entries := []

/-- Adds an atom with its value to entries in increasing order; an earlier value is replaced. -/
def putInto (name : Char) (value : Bool) : List (Char × Bool) → List (Char × Bool)
  | [] => [(name, value)]
  | entry :: rest =>
    if name < entry.1 then (name, value) :: entry :: rest
    else if name = entry.1 then (name, value) :: rest
    else entry :: putInto name value rest

/-- An atom of the extended entries is the new one or an earlier one. -/
theorem mem_putInto {name : Char} {value : Bool} {entries : List (Char × Bool)} {c : Char}
    (h : c ∈ (putInto name value entries).map Prod.fst) :
    c = name ∨ c ∈ entries.map Prod.fst := by
  induction entries with
  | nil => simpa [putInto] using h
  | cons entry rest ih =>
    rw [putInto] at h
    split at h
    · exact List.mem_cons.mp h
    · split at h
      · exact (List.mem_cons.mp h).imp id (List.mem_cons_of_mem _)
      · rcases List.mem_cons.mp h with rfl | h
        · exact .inr List.mem_cons_self
        · exact (ih h).imp id (List.mem_cons_of_mem _)

/-- Adding an atom keeps entries in increasing order. -/
theorem increasing_putInto (name : Char) (value : Bool) {entries : List (Char × Bool)}
    (h : (entries.map Prod.fst).Pairwise (· < ·)) :
    ((putInto name value entries).map Prod.fst).Pairwise (· < ·) := by
  induction entries with
  | nil => simp [putInto]
  | cons entry rest ih =>
    obtain ⟨hentry, hrest⟩ := List.pairwise_cons.mp h
    rw [putInto]
    split
    · next hlt =>
      refine List.pairwise_cons.mpr ⟨fun c hc => ?_, h⟩
      rcases List.mem_cons.mp hc with rfl | hc
      · exact hlt
      · exact Char.lt_trans hlt (hentry c hc)
    · next hle =>
      split
      · next heq => exact List.pairwise_cons.mpr ⟨heq ▸ hentry, hrest⟩
      · next hne =>
        refine List.pairwise_cons.mpr ⟨fun c hc => ?_, ih hrest⟩
        rcases mem_putInto hc with rfl | hc
        · exact Std.lt_of_le_of_ne (Char.not_lt.mp hle) (Ne.symm hne)
        · exact hentry c hc

/-- The assignment with one atom set to a value; an earlier value of it is replaced. -/
def set (v : Assignment) (name : Char) (value : Bool) : Assignment where
  entries := putInto name value v.entries
  increasing := increasing_putInto name value v.increasing

/-- The assignment of some pairs; of two pairs for one atom the later counts. -/
def ofPairs (pairs : List (Char × Bool)) : Assignment :=
  pairs.foldl (fun v pair => v.set pair.1 pair.2) empty

/-! ### Look-up -/

/-- The value of an atom, undetermined if the atom is not assigned. -/
def get (v : Assignment) (name : Char) : Truth := v.entries.lookup name

/-- Look-up in entries finds the first entry for the atom. -/
theorem lookup_cons (entry : Char × Bool) (rest : List (Char × Bool)) (c : Char) :
    (entry :: rest).lookup c = if c = entry.1 then some entry.2 else rest.lookup c := by
  obtain ⟨name, value⟩ := entry
  rw [List.lookup_cons]
  by_cases h : c = name
  · simp [h]
  · simp [h, beq_eq_false_iff_ne.mpr h]

/-- Adding an atom changes the look-up of that atom only. -/
theorem lookup_putInto (name : Char) (value : Bool) (entries : List (Char × Bool)) (c : Char) :
    (putInto name value entries).lookup c =
      if c = name then some value else entries.lookup c := by
  induction entries with
  | nil => rw [putInto, lookup_cons]
  | cons entry rest ih =>
    rw [putInto]
    split
    · rw [lookup_cons]
    · split
      · next heq =>
        rw [lookup_cons, lookup_cons, ← heq]
        split <;> rfl
      · next hne =>
        rw [lookup_cons, ih, lookup_cons]
        split
        · next h => rw [if_neg fun hc => hne (hc.symm.trans h)]
        · rfl

/-- An atom below all entries is not found. -/
theorem lookup_eq_none_of_lt {entries : List (Char × Bool)} {c : Char}
    (h : ∀ d ∈ entries.map Prod.fst, c < d) : entries.lookup c = none := by
  induction entries with
  | nil => rfl
  | cons entry rest ih =>
    rw [lookup_cons, if_neg]
    · exact ih fun d hd => h d (List.mem_cons_of_mem _ hd)
    · exact fun heq => Char.lt_irrefl _ (heq ▸ h entry.1 List.mem_cons_self)

/-- Entries in increasing order are determined by their look-ups. -/
theorem eq_of_lookup_eq {l r : List (Char × Bool)}
    (hl : (l.map Prod.fst).Pairwise (· < ·)) (hr : (r.map Prod.fst).Pairwise (· < ·))
    (h : ∀ c, l.lookup c = r.lookup c) : l = r := by
  induction l generalizing r with
  | nil =>
    cases r with
    | nil => rfl
    | cons b bs => simpa [lookup_cons] using h b.1
  | cons a as ih =>
    cases r with
    | nil => simpa [lookup_cons] using h a.1
    | cons b bs =>
      obtain ⟨ha, has⟩ := List.pairwise_cons.mp hl
      obtain ⟨hb, hbs⟩ := List.pairwise_cons.mp hr
      have hab : a.1 = b.1 := by
        refine Char.le_antisymm (Char.not_lt.mp fun hlt => ?_) (Char.not_lt.mp fun hlt => ?_)
        · have hnone : (a :: as).lookup b.1 = none := by
            refine lookup_eq_none_of_lt fun d hd => ?_
            rcases List.mem_cons.mp hd with rfl | hd
            · exact hlt
            · exact Char.lt_trans hlt (ha d hd)
          simpa [lookup_cons] using hnone.symm.trans (h b.1)
        · have hnone : (b :: bs).lookup a.1 = none := by
            refine lookup_eq_none_of_lt fun d hd => ?_
            rcases List.mem_cons.mp hd with rfl | hd
            · exact hlt
            · exact Char.lt_trans hlt (hb d hd)
          simpa [lookup_cons] using (h a.1).trans hnone
      have hvalue : a.2 = b.2 := by simpa [lookup_cons, hab] using h a.1
      rw [Prod.ext hab hvalue, ih has hbs fun c => ?_]
      by_cases hc : c = b.1
      · rw [hc, lookup_eq_none_of_lt (hab ▸ ha), lookup_eq_none_of_lt hb]
      · simpa [lookup_cons, hab, hc] using h c

/-- Nothing is assigned by the assignment without atoms. -/
theorem get_empty (c : Char) : empty.get c = none := rfl

/-- Setting an atom changes the look-up of that atom only. -/
theorem get_set (v : Assignment) (name : Char) (value : Bool) (c : Char) :
    (v.set name value).get c = if c = name then some value else v.get c :=
  lookup_putInto name value v.entries c

/-- Assignments with the same look-ups are equal. -/
theorem ext_get {v w : Assignment} (h : ∀ c, v.get c = w.get c) : v = w := by
  cases v with
  | mk l hl =>
    cases w with
    | mk r hr => simpa using eq_of_lookup_eq hl hr h

/-! ### All assignments of some atoms -/

/-- The number of bits of a word, in which assignments are numbered. Distances of shifts count
modulo this number. -/
def width : Nat := 64

/-- The assignment of distinct atoms with a number: each atom has the bit of the number at the
position of the atom. -/
def numbered (atoms : List Char) (number : Nat) : Assignment :=
  ofPairs (atoms.zipIdx.map fun (name, i) => (name, number.testBit (i % width)))

/-- The number of assignments of distinct atoms, a bit shifted by one place for each of them: two
values for each, as long as there are fewer atoms than bits. -/
def count (atoms : List Char) : Nat := Nat.pow 2 (atoms.length % width)

/-- All assignments of some atoms, in the order of their numbers. An atom that is listed again
counts once, at its first place. -/
def all (atoms : List Char) : List Assignment :=
  (List.range (count atoms.eraseDups)).map (numbered atoms.eraseDups)

/-! ### Writing -/

/-- The characters of an atom and its value. -/
def entrySpelling (entry : Char × Bool) : List Char :=
  entry.1 :: ':' :: ' ' :: (if entry.2 then "true" else "false").toList

/-- The characters of an assignment: its entries with commas between them, in brackets. -/
def spelling (v : Assignment) : List Char :=
  '[' :: ([',', ' '].intercalate (v.entries.map entrySpelling) ++ [']'])

/-- An assignment in writing. -/
def text (v : Assignment) : String := String.ofList v.spelling

end Assignment

end Clausal
