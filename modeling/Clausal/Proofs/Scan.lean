/-
Reading characters as tokens, one token at a time.

* `Connective.leading?_eq_none_iff`: no connective leads where no reserved word begins;
* `Token.scan_spelling_append`: a reserved word is read as its connective, whatever follows;
* `Token.scan_induction`: induction along the reading, a reserved word or a character at a time;
* `Token.Breaks`, `Token.scan_cons`: before the end, a closing parenthesis or a backslash, a
  character is read on its own;
* `Token.IsName`, `Token.ofChar_eq_atom_iff`: the characters that stand for atoms;
* `Text.withoutBlanks`: the characters that are read at all.
-/
import Mathlib.Tactic
import Clausal.Token.Scan

namespace Clausal

/-! ### Reserved words -/

/-- A reserved word begins with a backslash. -/
lemma Connective.leading?_of_ne {c : Char} (h : c ≠ '\\') (cs : List Char) :
    leading? (c :: cs) = none := by
  rw [leading?, List.find?_eq_none]
  intro k _
  cases k <;> simp [spelling, h.symm]

/-- A reserved word goes on with a letter. -/
lemma Connective.leading?_of_backslash {cs : List Char} (h : ∀ c ∈ cs.head?, c = ')' ∨ c = '\\') :
    leading? ('\\' :: cs) = none := by
  rw [leading?, List.find?_eq_none]
  intro k _
  cases cs with
  | nil => cases k <;> simp [spelling]
  | cons c cs =>
      rcases h c rfl with rfl | rfl <;> cases k <;> simp [spelling]

/-- No reserved word begins another, so a text that begins with one begins with no other. -/
lemma Connective.leading?_spelling_append (k : Connective) (cs : List Char) :
    leading? (k.spelling ++ cs) = some k := by
  cases k <;> simp [leading?, all, spelling]

lemma Connective.mem_all (k : Connective) : k ∈ all := by
  cases k <;> simp [all]

lemma Connective.leading?_eq_none_iff {cs : List Char} :
    leading? cs = none ↔ ∀ k : Connective, ¬k.spelling <+: cs := by
  simp [leading?, mem_all]

lemma Connective.isPrefix_of_leading? {cs : List Char} {k : Connective}
    (h : leading? cs = some k) : k.spelling <+: cs := by
  simpa using List.find?_some h

/-- A reserved word is a backslash with small letters after it. -/
lemma Connective.spelling_eq_cons_tail (k : Connective) : k.spelling = '\\' :: k.spelling.tail := by
  cases k <;> rfl

lemma Connective.isLower_of_mem_tail_spelling {k : Connective} {c : Char}
    (h : c ∈ k.spelling.tail) : c.isLower = true := by
  revert c
  cases k <;> simp [spelling]

namespace Token

lemma scan_of_leading? {c : Char} {cs : List Char} {k : Connective}
    (h : Connective.leading? (c :: cs) = some k) :
    scan (c :: cs) = .op k :: scan ((c :: cs).drop k.spelling.length) := by
  rw [scan, h]

lemma scan_of_leading?_none {c : Char} {cs : List Char}
    (h : Connective.leading? (c :: cs) = none) : scan (c :: cs) = ofChar c :: scan cs := by
  rw [scan, h]

/-- Where no reserved word begins, a character is read on its own. -/
lemma scan_of_not_isPrefix {c : Char} {cs : List Char}
    (h : ∀ k : Connective, ¬k.spelling <+: c :: cs) : scan (c :: cs) = ofChar c :: scan cs :=
  scan_of_leading?_none (Connective.leading?_eq_none_iff.mpr h)

/-- **Reserved words**: one at the beginning is read as its connective, whatever follows. -/
lemma scan_spelling_append (k : Connective) (cs : List Char) :
    scan (k.spelling ++ cs) = .op k :: scan cs := by
  obtain ⟨c, tail, hk⟩ := List.exists_cons_of_length_pos k.spelling_length_pos
  have h := k.leading?_spelling_append cs
  rw [hk, List.cons_append] at h
  rw [hk, List.cons_append, scan_of_leading? h, ← List.cons_append, ← hk, List.drop_left]

/-- The induction principle of reading: a property holds of every sequence of characters once it
passes on to a reserved word before them, and to a character before them with which no reserved word
begins. -/
@[elab_as_elim]
lemma scan_induction {P : List Char → Prop} (nil : P [])
    (word : ∀ (k : Connective) cs, P cs → P (k.spelling ++ cs))
    (char : ∀ c cs, (∀ k : Connective, ¬k.spelling <+: c :: cs) → P cs → P (c :: cs))
    (cs : List Char) : P cs := by
  induction cs using scan.induct with
  | case1 => exact nil
  | case2 c cs k hk ih =>
      obtain ⟨rest, hrest⟩ := Connective.isPrefix_of_leading? hk
      rw [← hrest, List.drop_left] at ih
      exact hrest ▸ word k rest ih
  | case3 c cs hk ih => exact char c cs (Connective.leading?_eq_none_iff.mp hk) ih

/-! ### Single characters -/

/-- Whether no reserved word goes on with the given characters. -/
def Breaks (cs : List Char) : Prop := ∀ c ∈ cs.head?, c = ')' ∨ c = '\\'

lemma breaks_spelling_append (k : Connective) (cs : List Char) : Breaks (k.spelling ++ cs) := by
  cases k <;> simp [Breaks, Connective.spelling]

/-- **Single characters**: where no reserved word goes on, a character is read on its own. -/
lemma scan_cons {cs : List Char} (h : Breaks cs) (c : Char) :
    scan (c :: cs) = ofChar c :: scan cs := by
  by_cases hc : c = '\\'
  · subst hc
    exact scan_of_leading?_none (Connective.leading?_of_backslash h)
  · exact scan_of_leading?_none (Connective.leading?_of_ne hc cs)

lemma scan_opening (cs : List Char) : scan ('(' :: cs) = .opening :: scan cs :=
  scan_of_leading?_none (Connective.leading?_of_ne (by decide) cs)

lemma scan_closing (cs : List Char) : scan (')' :: cs) = .closing :: scan cs :=
  scan_of_leading?_none (Connective.leading?_of_ne (by decide) cs)

/-- Whether a character names an atom: it is neither blank nor a parenthesis nor a sign. -/
def IsName (c : Char) : Prop :=
  Text.isBlank c = false ∧ c ≠ '(' ∧ c ≠ ')' ∧ c ∉ Connective.all.map Connective.sign

instance : DecidablePred IsName := fun _ => inferInstanceAs (Decidable (_ ∧ _ ∧ _ ∧ _))

/-- What is read as an atom is neither a parenthesis nor a sign. -/
lemma ofChar_eq_atom_iff {c name : Char} :
    ofChar c = .atom name
      ↔ c = name ∧ c ≠ '(' ∧ c ≠ ')' ∧ c ∉ Connective.all.map Connective.sign := by
  have hsign : Connective.ofSign? c = none ↔ c ∉ Connective.all.map Connective.sign := by
    simp [Connective.ofSign?, List.find?_eq_none]
  by_cases hopen : c = '('
  · simp [ofChar, hopen]
  by_cases hclose : c = ')'
  · simp [ofChar, hclose]
  cases h : Connective.ofSign? c with
  | none => simp [ofChar, hopen, hclose, h, hsign.mp h]
  | some k =>
      have hc : ¬c ∉ Connective.all.map Connective.sign := mt hsign.mpr (by simp [h])
      simp only [ofChar, hopen, hclose, h, if_false, hc, and_false]
      exact iff_of_false (fun h => nomatch h) id

lemma IsName.ofChar_eq {c : Char} (h : IsName c) : ofChar c = .atom c :=
  ofChar_eq_atom_iff.mpr ⟨rfl, h.2⟩

end Token

/-! ### Blanks -/

namespace Text

/-- The characters that are not blank. -/
def withoutBlanks (cs : List Char) : List Char := cs.filter (!isBlank ·)

lemma withoutBlanks_append (cs ds : List Char) :
    withoutBlanks (cs ++ ds) = withoutBlanks cs ++ withoutBlanks ds := List.filter_append ..

lemma withoutBlanks_cons_of_blank {c : Char} (h : isBlank c = true) (cs : List Char) :
    withoutBlanks (c :: cs) = withoutBlanks cs := List.filter_cons_of_neg (by simp [h])

lemma withoutBlanks_cons {c : Char} (h : isBlank c = false) (cs : List Char) :
    withoutBlanks (c :: cs) = c :: withoutBlanks cs := List.filter_cons_of_pos (by simp [h])

/-- A reserved word has no blanks. -/
lemma withoutBlanks_spelling (k : Connective) : withoutBlanks k.spelling = k.spelling := by
  cases k <;> rfl

end Text

lemma Token.ofText_ofList (cs : List Char) :
    Token.ofText (String.ofList cs) = scan (Text.withoutBlanks cs) := by
  rw [ofText, String.toList_ofList, Text.withoutBlanks]

end Clausal
