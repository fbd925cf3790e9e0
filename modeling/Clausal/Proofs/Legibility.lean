/-
Writing tokens and reading the text again.

* `Token.Legible`: all atoms are names, and no run of neighbouring atoms spells a reserved word;
* `Token.scan_flatMap_spelling`: a legible sequence is read again as it was written;
* `Token.not_spelled_scan`: reading never leaves a run of atoms that spells a reserved word;
* `Token.legible_ofText`: so the tokens of a text are legible;
* `Token.ofText_spaced_eq_iff`: the legible sequences are those that are read again, and those that
  are read from some text.
-/
import Clausal.Proofs.Occurrences

namespace Clausal

namespace Text

/-- The blanks between written tokens are not read. -/
lemma withoutBlanks_spacedSpelling (ts : List Token) :
    withoutBlanks (Token.spacedSpelling ts)
      = ts.flatMap fun t => withoutBlanks t.spelling := by
  have hspace : isBlank ' ' = true := rfl
  induction ts with
  | nil => rfl
  | cons t ts ih =>
      cases ts with
      | nil => simp [Token.spacedSpelling]
      | cons u us =>
          rw [List.flatMap_cons, ← ih]
          simp only [Token.spacedSpelling, List.map_cons, List.intercalate_cons_cons,
            withoutBlanks_append, withoutBlanks_cons_of_blank hspace, List.append_assoc,
            List.cons_append, List.nil_append]

end Text

namespace Token

/-- Whether atoms can be told from the other tokens in writing: every atom is a name, and no run of
neighbouring atoms spells a reserved word. -/
structure Legible (ts : List Token) : Prop where
  isName_of_mem : ∀ name, .atom name ∈ ts → IsName name
  not_spelled : ∀ k : Connective, ¬k.spelling.map .atom <:+: ts

variable {t : Token} {ts : List Token} {cs ds : List Char}

lemma Legible.tail (h : Legible (t :: ts)) : Legible ts where
  isName_of_mem name hname := h.isName_of_mem name (List.mem_cons_of_mem t hname)
  not_spelled k hk := h.not_spelled k (List.infix_cons hk)

/-! ### Reading what was written -/

/-- Only an atom can be written with a blank. -/
lemma withoutBlanks_spelling (h : ∀ name, t = .atom name → IsName name) :
    Text.withoutBlanks t.spelling = t.spelling := by
  cases t with
  | op k => exact Text.withoutBlanks_spelling k
  | opening => rfl
  | closing => rfl
  | atom name => exact Text.withoutBlanks_cons (h name rfl).1 []

lemma ofText_spaced (h : Legible ts) : ofText (spaced ts) = scan (ts.flatMap spelling) := by
  have hspelling : ∀ t ∈ ts, Text.withoutBlanks t.spelling = t.spelling :=
    fun t ht => withoutBlanks_spelling fun name hname => h.isName_of_mem name (hname ▸ ht)
  rw [spaced, ofText_ofList, Text.withoutBlanks_spacedSpelling, List.flatMap_congr hspelling]

/-- Where small letters begin the written tokens, atoms named by them begin the tokens. -/
lemma map_atom_isPrefix (hlower : ∀ d ∈ ds, d.isLower = true)
    (h : ds <+: ts.flatMap spelling) : ds.map .atom <+: ts := by
  induction ds generalizing ts with
  | nil => exact List.nil_prefix
  | cons d ds ih =>
      obtain ⟨hd, hds⟩ := List.forall_mem_cons.mp hlower
      cases ts with
      | nil => simp at h
      | cons t ts =>
          rw [List.flatMap_cons] at h
          -- only an atom is written with a small letter at its beginning
          cases t with
          | op k =>
              rw [spelling, k.spelling_eq_cons_tail, List.cons_append, List.cons_prefix_cons] at h
              rw [h.1] at hd
              cases hd
          | opening | closing =>
              rw [spelling, List.singleton_append, List.cons_prefix_cons] at h
              rw [h.1] at hd
              cases hd
          | atom name =>
              rw [spelling, List.singleton_append, List.cons_prefix_cons] at h
              rw [List.map_cons, List.cons_prefix_cons, h.1]
              exact ⟨rfl, ih hds h.2⟩

/-- No reserved word begins with an atom of a legible sequence, for only atoms could go on with
it. -/
lemma Legible.not_spelling_isPrefix {name : Char} (h : Legible (.atom name :: ts))
    (k : Connective) : ¬k.spelling <+: name :: ts.flatMap spelling := by
  intro hk
  rw [k.spelling_eq_cons_tail, List.cons_prefix_cons] at hk
  have htail : k.spelling.tail.map .atom <+: ts :=
    map_atom_isPrefix (fun _ => Connective.isLower_of_mem_tail_spelling) hk.2
  have hrun : k.spelling.map .atom <+: .atom name :: ts := by
    rw [k.spelling_eq_cons_tail, List.map_cons, hk.1]
    exact List.cons_prefix_cons.mpr ⟨rfl, htail⟩
  exact h.not_spelled k hrun.isInfix

/-- **Legible tokens** are read again as they were written. -/
lemma scan_flatMap_spelling (h : Legible ts) : scan (ts.flatMap spelling) = ts := by
  induction ts with
  | nil => rw [List.flatMap_nil, scan]
  | cons t ts ih =>
      have htail := ih h.tail
      rw [List.flatMap_cons]
      cases t with
      | op k => rw [spelling, scan_spelling_append, htail]
      | opening => rw [spelling, List.singleton_append, scan_opening, htail]
      | closing => rw [spelling, List.singleton_append, scan_closing, htail]
      | atom name =>
          have hname : IsName name := h.isName_of_mem name List.mem_cons_self
          rw [spelling, List.singleton_append, scan_of_not_isPrefix h.not_spelling_isPrefix,
            hname.ofChar_eq, htail]

/-! ### What is read -/

/-- Where a run of atoms begins what is read, their names begin the characters. -/
lemma isPrefix_of_map_atom_isPrefix_scan (h : ds.map .atom <+: scan cs) : ds <+: cs := by
  induction ds generalizing cs with
  | nil => exact List.nil_prefix
  | cons d ds ih =>
      cases cs with
      | nil => simp [scan] at h
      | cons c cs =>
          rw [List.map_cons] at h
          cases hleading : Connective.leading? (c :: cs) with
          | some k =>
              rw [scan_of_leading? hleading, List.cons_prefix_cons] at h
              cases h.1
          | none =>
              rw [scan_of_leading?_none hleading, List.cons_prefix_cons] at h
              obtain ⟨rfl, -⟩ := ofChar_eq_atom_iff.mp h.1.symm
              exact List.cons_prefix_cons.mpr ⟨rfl, ih h.2⟩

/-- **No reserved word is left**: no run of atoms that is read spells one, for it would have been
read as its connective. -/
lemma not_spelled_scan (k : Connective) (cs : List Char) :
    ¬k.spelling.map .atom <:+: scan cs := by
  have hhead : k.spelling.map Token.atom = .atom '\\' :: k.spelling.tail.map .atom :=
    congrArg (List.map Token.atom) k.spelling_eq_cons_tail
  induction cs using scan_induction with
  | nil =>
      rw [scan, hhead, List.infix_nil]
      exact List.cons_ne_nil _ _
  | word l cs ih =>
      rw [scan_spelling_append, List.infix_cons_iff]
      rintro (hfirst | hlater)
      · rw [hhead, List.cons_prefix_cons] at hfirst
        cases hfirst.1
      · exact ih hlater
  | char c cs hno ih =>
      -- a run from here on would be the characters of a word that begins here
      have hread := scan_of_not_isPrefix hno
      rw [hread, List.infix_cons_iff]
      rintro (hfirst | hlater)
      · exact hno k (isPrefix_of_map_atom_isPrefix_scan (hread ▸ hfirst))
      · exact ih hlater

lemma legible_ofText (text : String) : Legible (ofText text) where
  isName_of_mem _ hname := isName_of_mem_ofText hname
  not_spelled k := not_spelled_scan k _

/-- **Writing and reading tokens**: a sequence is read again as it was written exactly if it is
legible, and exactly if it is what is read from some text. So what was read from a text is read
again once it is written. -/
theorem ofText_spaced_eq_iff (ts : List Token) :
    (ofText (spaced ts) = ts ↔ Legible ts) ∧ (Legible ts ↔ ∃ text, ofText text = ts)
    ∧ ∀ text, ofText (spaced (ofText text)) = ofText text := by
  have hread : ∀ {us : List Token}, Legible us → ofText (spaced us) = us := by
    intro us hus
    rw [ofText_spaced hus, scan_flatMap_spelling hus]
  refine ⟨⟨fun h => h ▸ legible_ofText _, hread⟩, ⟨fun h => ⟨_, hread h⟩, ?_⟩,
    fun text => hread (legible_ofText text)⟩
  rintro ⟨text, rfl⟩
  exact legible_ofText text

/-- Four atoms that spell a reserved word are read as its connective. -/
example : ofText (spaced [.atom '\\', .atom 'n', .atom 'e', .atom 'g']) = [.op .not] := by cbv

end Token

end Clausal
