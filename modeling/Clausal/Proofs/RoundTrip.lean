/-
Writing a formula and reading the text again.

* `Formula.tokens`: the tokens of a written formula, whatever characters its atoms are;
* `Formula.ofText_text`: the written formula has these tokens;
* `Formula.grouped_tokens`: they read as the formula if all its atoms are names;
* `Formula.run_tokens_iff`: they alternate between operands and operators only if all its atoms are
  names, so otherwise they are no sentence;
* `Formula.formula_ofText_text`: reading a written formula gives the formula or nothing.
-/
import Mathlib.Tactic
import Clausal.Proofs.Alternation
import Clausal.Proofs.Reading
import Clausal.Proofs.Scan

namespace Clausal.Formula

/-- The tokens of a written formula. Connectives and parentheses are read as they are meant, an atom
is read as a character: a blank one vanishes, and a parenthesis or a sign is no atom any more. -/
def tokens : Formula → List Token
  | .atom name => if Text.isBlank name then [] else [Token.ofChar name]
  | .not a => .op .not :: a.tokens
  | .and a b => .opening :: (a.tokens ++ .op .and :: (b.tokens ++ [.closing]))
  | .or a b => .opening :: (a.tokens ++ .op .or :: (b.tokens ++ [.closing]))
  | .imp a b => .opening :: (a.tokens ++ .op .imp :: (b.tokens ++ [.closing]))

/-! ### Reading characters -/

/-- The characters of a written pair that are read. -/
lemma withoutBlanks_infixSpelling (k : Connective) (left right : List Char) :
    Text.withoutBlanks (infixSpelling k left right)
      = '(' :: (Text.withoutBlanks left ++ (k.spelling
          ++ (Text.withoutBlanks right ++ [')']))) := by
  have hopen : Text.isBlank '(' = false := rfl
  have hspace : Text.isBlank ' ' = true := rfl
  have hclose : Text.withoutBlanks [')'] = [')'] := rfl
  simp only [infixSpelling, Text.withoutBlanks_cons hopen, Text.withoutBlanks_cons_of_blank hspace,
    Text.withoutBlanks_append, Text.withoutBlanks_spelling, hclose]

/-- A written pair is read part by part: the left operand is followed by a reserved word and the
right one by a closing parenthesis, and no reserved word goes on with either. -/
lemma scan_infixSpelling_append (k : Connective) {left right : List Char} {us vs : List Token}
    (hleft : ∀ rest, Token.Breaks rest →
      Token.scan (Text.withoutBlanks left ++ rest) = us ++ Token.scan rest)
    (hright : ∀ rest, Token.Breaks rest →
      Token.scan (Text.withoutBlanks right ++ rest) = vs ++ Token.scan rest)
    (rest : List Char) :
    Token.scan (Text.withoutBlanks (infixSpelling k left right) ++ rest)
      = .opening :: (us ++ .op k :: (vs ++ [.closing])) ++ Token.scan rest := by
  have hclose : Token.Breaks (')' :: rest) := by simp [Token.Breaks]
  rw [withoutBlanks_infixSpelling]
  simp only [List.cons_append, List.append_assoc, List.nil_append]
  rw [Token.scan_opening, hleft _ (Token.breaks_spelling_append k _), Token.scan_spelling_append,
    hright _ hclose, Token.scan_closing]

/-- **The tokens of a written formula**: it is read from left to right, whatever its atoms are and
whatever follows, as long as no reserved word goes on with that. -/
lemma scan_spelling_append (t : Formula) (rest : List Char) (h : Token.Breaks rest) :
    Token.scan (Text.withoutBlanks t.spelling ++ rest) = t.tokens ++ Token.scan rest := by
  induction t generalizing rest with
  | atom name =>
      rw [spelling, tokens]
      cases hname : Text.isBlank name with
      | true => rw [Text.withoutBlanks_cons_of_blank hname]; rfl
      | false =>
          rw [Text.withoutBlanks_cons hname]
          exact Token.scan_cons h name
  | not a ih =>
      have hspace : Text.isBlank ' ' = true := rfl
      rw [spelling, Text.withoutBlanks_cons_of_blank hspace, Text.withoutBlanks_append,
        Text.withoutBlanks_cons_of_blank hspace, Text.withoutBlanks_spelling, List.append_assoc,
        Token.scan_spelling_append, ih rest h]
      rfl
  | and a b iha ihb => exact scan_infixSpelling_append .and iha ihb rest
  | or a b iha ihb => exact scan_infixSpelling_append .or iha ihb rest
  | imp a b iha ihb => exact scan_infixSpelling_append .imp iha ihb rest

lemma ofText_text (t : Formula) : Token.ofText t.text = t.tokens := by
  have h := scan_spelling_append t [] (by simp [Token.Breaks])
  rwa [List.append_nil, Token.scan, List.append_nil, ← Token.ofText_ofList] at h

/-! ### Names and other atoms -/

/-- If all atoms are names, the tokens of a written formula read as the formula. Its pairs are in
parentheses, so no connective is left to group. -/
lemma grouped_tokens (t : Formula) (h : ∀ c ∈ t.occurrences, Token.IsName c) :
    Grouped .not t.tokens t := by
  induction t with
  | atom name =>
      have hname : Token.IsName name := h name (by simp [occurrences])
      rw [tokens, hname.1, hname.ofChar_eq]
      exact .atom name
  | not a ih => exact .not (ih h)
  | and a b iha ihb =>
      simp only [occurrences, List.forall_mem_append] at h
      have hpair := Grouped.and (iha h.1) (ihb h.2).and_of_not
      simpa [tokens] using hpair.or_of_and.imp_of_or.parens
  | or a b iha ihb =>
      simp only [occurrences, List.forall_mem_append] at h
      have hpair := Grouped.or (iha h.1).and_of_not (ihb h.2).and_of_not.or_of_and
      simpa [tokens] using hpair.imp_of_or.parens
  | imp a b iha ihb =>
      simp only [occurrences, List.forall_mem_append] at h
      have hpair := Grouped.imp (iha h.1).and_of_not.or_of_and (ihb h.2).imp_of_not
      simpa [tokens] using hpair.parens

lemma run_pair_iff {k : Connective} (hk : k ≠ .not) {us vs : List Token} {left right : List Char}
    (hu : Phase.run .operand us = some .operator ↔ ∀ c ∈ left, Token.IsName c)
    (hv : Phase.run .operand vs = some .operator ↔ ∀ c ∈ right, Token.IsName c) :
    Phase.run .operand (.opening :: (us ++ .op k :: (vs ++ [.closing]))) = some .operator
      ↔ ∀ c ∈ left ++ right, Token.IsName c := by
  rw [Phase.run_parens_binary hk, hu, hv, List.forall_mem_append]

/-- **Other atoms break the alternation**: after the tokens of a written formula an operand is
complete exactly if all atoms are names. An atom that is none leaves the operand open or comes
where it is not expected, and no token after it in the written formula makes up for that. -/
lemma run_tokens_iff (t : Formula) :
    Phase.run .operand t.tokens = some .operator ↔ ∀ c ∈ t.occurrences, Token.IsName c := by
  induction t with
  | atom name =>
      simp only [occurrences, List.mem_singleton, forall_eq, Token.IsName, tokens]
      cases Text.isBlank name with
      | true => simp
      | false => simp [Phase.next_operand_eq_operator_iff, Token.ofChar_eq_atom_iff]
  | not a ih => exact ih
  | and a b iha ihb => exact run_pair_iff (k := .and) nofun iha ihb
  | or a b iha ihb => exact run_pair_iff (k := .or) nofun iha ihb
  | imp a b iha ihb => exact run_pair_iff (k := .imp) nofun iha ihb

lemma forall_mem_atoms_iff {P : Char → Prop} (t : Formula) :
    (∀ c ∈ t.atoms, P c) ↔ ∀ c ∈ t.occurrences, P c := by
  simp only [atoms, List.mem_eraseDups]

/-! ### The written formula -/

/-- A written formula is accepted exactly if all its atoms are names. -/
lemma wellFormed_text_iff (t : Formula) :
    (Reading.ofText t.text).wellFormed = true ↔ ∀ c ∈ t.atoms, Token.IsName c := by
  rw [Reading.wellFormed_iff, ofText_text, forall_mem_atoms_iff]
  constructor
  · intro h
    exact t.run_tokens_iff.mp h.run
  · intro h
    exact (t.grouped_tokens h).sentence

/-- If all its atoms are names, a written formula is read as itself. -/
lemma formula_text_of_names {t : Formula} (h : ∀ c ∈ t.atoms, Token.IsName c) :
    (Reading.ofText t.text).formula = .ok t := by
  have hgrouped := t.grouped_tokens (t.forall_mem_atoms_iff.mp h)
  rw [← t.ofText_text] at hgrouped
  exact Reading.formula_of_grouped hgrouped.imp_of_not

/-- If one of its atoms is no name, a written formula is rejected. -/
lemma formula_text_of_not_names {t : Formula} (h : ¬∀ c ∈ t.atoms, Token.IsName c) :
    (Reading.ofText t.text).formula = .error (.notWellFormed t.text) :=
  Reading.formula_of_rejected (eq_false_of_ne_true (mt t.wellFormed_text_iff.mp h))

/-- What holds of all atoms of a formula is decided along their list, not for every character. -/
local instance (priority := high) decidableForallAtoms (p : Char → Prop) [DecidablePred p]
    (t : Formula) : Decidable (∀ c ∈ t.atoms, p c) :=
  List.decidableBAll p t.atoms

/-- **Writing and reading**: a written formula is accepted exactly if all its atoms are names. Then
its formula is the one that was written, and otherwise it has none, so that no written formula is
ever read as another one. -/
theorem formula_ofText_text (t : Formula) :
    ((Reading.ofText t.text).wellFormed = true ↔ ∀ c ∈ t.atoms, Token.IsName c)
    ∧ (Reading.ofText t.text).formula
      = (if ∀ c ∈ t.atoms, Token.IsName c then .ok t else .error (.notWellFormed t.text))
    ∧ ∀ u, (Reading.ofText t.text).formula = .ok u → u = t := by
  refine ⟨t.wellFormed_text_iff, ?_⟩
  by_cases h : ∀ c ∈ t.atoms, Token.IsName c
  · rw [if_pos h, formula_text_of_names h]
    exact ⟨rfl, fun u hu => (Except.ok.inj hu).symm⟩
  · rw [if_neg h, formula_text_of_not_names h]
    exact ⟨rfl, fun u hu => nomatch hu⟩

end Clausal.Formula
