/-
Reading by signs: reserved words are rewritten as signs first, then each character is read alone.

* `Connective.abbreviate`: the characters with every reserved word of a connective written as its
  sign;
* `Connective.spelling_isInfix_of_abbreviate`: this removes the word and makes no other one;
* `Token.scan_abbreviate`: it is read as before;
* `Token.ofTextBySigns`: the tokens of a text by rewriting it for one connective after the other;
* `Token.ofText_eq_ofTextBySigns`: these are the tokens of the text, whatever the order.
-/
import Clausal.Proofs.Scan

namespace Clausal

namespace Connective

/-- The characters with every reserved word of a connective, from left to right, written as its
sign. -/
def abbreviate (k : Connective) : List Char → List Char
  | [] => []
  | c :: cs =>
    if k.spelling.isPrefixOf (c :: cs) then
      k.sign :: k.abbreviate ((c :: cs).drop k.spelling.length)
    else c :: k.abbreviate cs
  termination_by cs => cs.length
  decreasing_by
    · have := k.spelling_length_pos
      simp only [List.length_drop, List.length_cons]
      omega
    · simp

variable {k l : Connective} {c : Char} {cs : List Char}

/-! ### One reserved word or character at a time -/

lemma abbreviate_of_isPrefix (h : k.spelling <+: c :: cs) :
    k.abbreviate (c :: cs) = k.sign :: k.abbreviate ((c :: cs).drop k.spelling.length) := by
  rw [abbreviate, if_pos (by simpa using h)]

lemma abbreviate_spelling_append (k : Connective) (cs : List Char) :
    k.abbreviate (k.spelling ++ cs) = k.sign :: k.abbreviate cs := by
  have h : k.spelling <+: '\\' :: (k.spelling.tail ++ cs) := by
    rw [← List.cons_append, ← k.spelling_eq_cons_tail]
    exact List.prefix_append ..
  have hrest := abbreviate_of_isPrefix h
  rwa [← List.cons_append, ← k.spelling_eq_cons_tail, List.drop_left] at hrest

lemma abbreviate_cons (h : ¬k.spelling <+: c :: cs) :
    k.abbreviate (c :: cs) = c :: k.abbreviate cs := by
  rw [abbreviate, if_neg (by simpa using h)]

lemma not_spelling_isPrefix (k : Connective) (h : c ≠ '\\') : ¬k.spelling <+: c :: cs :=
  leading?_eq_none_iff.mp (leading?_of_ne h cs) k

lemma ne_backslash_of_isLower (h : c.isLower = true) : c ≠ '\\' := by
  rintro rfl
  cases h

lemma sign_ne_of_isLower (k : Connective) (h : c.isLower = true) : c ≠ k.sign := by
  rintro rfl
  cases k <;> cases h

/-- Small letters stay as they are. -/
lemma abbreviate_append_of_isLower {ds : List Char} (h : ∀ c ∈ ds, c.isLower = true) :
    k.abbreviate (ds ++ cs) = ds ++ k.abbreviate cs := by
  induction ds with
  | nil => rfl
  | cons d ds ih =>
      obtain ⟨hd, hds⟩ := List.forall_mem_cons.mp h
      have hno : ¬k.spelling <+: d :: (ds ++ cs) :=
        k.not_spelling_isPrefix (ne_backslash_of_isLower hd)
      rw [List.cons_append, abbreviate_cons hno, ih hds, List.cons_append]

/-- The reserved words of the other connectives stay as they are, as no reserved word begins
another. -/
lemma abbreviate_spelling_append_of_ne (h : k ≠ l) (cs : List Char) :
    k.abbreviate (l.spelling ++ cs) = l.spelling ++ k.abbreviate cs := by
  have hno : ¬k.spelling <+: '\\' :: (l.spelling.tail ++ cs) := by
    revert h
    cases k <;> cases l <;> simp [spelling]
  rw [l.spelling_eq_cons_tail, List.cons_append, abbreviate_cons hno,
    abbreviate_append_of_isLower fun _ => isLower_of_mem_tail_spelling, List.cons_append]

/-! ### The reserved words that are left -/

/-- Where small letters begin the rewritten characters, they began the characters. -/
lemma isPrefix_of_isPrefix_abbreviate {ds : List Char} (hlower : ∀ d ∈ ds, d.isLower = true)
    (h : ds <+: k.abbreviate cs) : ds <+: cs := by
  induction ds generalizing cs with
  | nil => exact List.nil_prefix
  | cons d ds ih =>
      obtain ⟨hd, hds⟩ := List.forall_mem_cons.mp hlower
      cases cs with
      | nil => simp [abbreviate] at h
      | cons c cs =>
          -- a word rewritten here would put a sign in the place of the first letter
          by_cases hword : k.spelling <+: c :: cs
          · rw [abbreviate_of_isPrefix hword, List.cons_prefix_cons] at h
            exact absurd h.1 (k.sign_ne_of_isLower hd)
          · rw [abbreviate_cons hword, List.cons_prefix_cons] at h
            exact List.cons_prefix_cons.mpr ⟨h.1, ih hds h.2⟩

lemma sign_ne_backslash (k : Connective) : k.sign ≠ '\\' := by
  cases k <;> decide

/-- A reserved word that begins the rewritten characters began the characters, and it is not the one
that was rewritten. -/
lemma spelling_isPrefix_of_abbreviate (h : k.spelling <+: l.abbreviate cs) :
    k ≠ l ∧ k.spelling <+: cs := by
  cases cs with
  | nil =>
      rw [abbreviate, k.spelling_eq_cons_tail] at h
      simp at h
  | cons c cs =>
      by_cases hword : l.spelling <+: c :: cs
      · rw [abbreviate_of_isPrefix hword] at h
        exact absurd h (k.not_spelling_isPrefix l.sign_ne_backslash)
      · rw [abbreviate_cons hword, k.spelling_eq_cons_tail, List.cons_prefix_cons] at h
        have htail := isPrefix_of_isPrefix_abbreviate (fun _ => isLower_of_mem_tail_spelling) h.2
        have hk : k.spelling <+: c :: cs := by
          rw [k.spelling_eq_cons_tail]
          exact List.cons_prefix_cons.mpr ⟨h.1, htail⟩
        exact ⟨fun heq => hword (heq ▸ hk), hk⟩

/-- **Rewriting a reserved word** leaves no occurrence of it, and an occurrence of another one was
there before. -/
lemma spelling_isInfix_of_abbreviate (h : k.spelling <:+: l.abbreviate cs) :
    k ≠ l ∧ k.spelling <:+: cs := by
  induction cs using abbreviate.induct l with
  | case1 =>
      rw [abbreviate, k.spelling_eq_cons_tail] at h
      simp at h
  | case2 c cs hword ih =>
      rw [abbreviate_of_isPrefix (by simpa using hword), List.infix_cons_iff] at h
      have hlater := h.resolve_left (k.not_spelling_isPrefix l.sign_ne_backslash)
      exact (ih hlater).imp_right fun hrest => hrest.trans (List.drop_suffix ..).isInfix
  | case3 c cs hword ih =>
      have hno : ¬l.spelling <+: c :: cs := by simpa using hword
      rcases List.infix_cons_iff.mp (abbreviate_cons hno ▸ h) with hhead | htail
      · rw [← abbreviate_cons hno] at hhead
        exact (spelling_isPrefix_of_abbreviate hhead).imp_right List.IsPrefix.isInfix
      · exact (ih htail).imp_right List.infix_cons

end Connective

/-! ### Reading -/

namespace Token

variable {cs : List Char}

lemma ofChar_sign (k : Connective) : ofChar k.sign = .op k := by
  cases k <;> decide

lemma scan_sign (k : Connective) (cs : List Char) : scan (k.sign :: cs) = .op k :: scan cs := by
  rw [scan_of_leading?_none (Connective.leading?_of_ne k.sign_ne_backslash cs), ofChar_sign]

/-- **Rewriting keeps the tokens**: a sign is read like the reserved word that it stands for, and
next to a character that is no part of the word nothing begins that did not begin before. -/
lemma scan_abbreviate (l : Connective) (cs : List Char) : scan (l.abbreviate cs) = scan cs := by
  induction cs using scan_induction with
  | nil => rw [Connective.abbreviate]
  | word k cs ih =>
      rw [scan_spelling_append]
      by_cases hk : l = k
      · subst hk
        rw [Connective.abbreviate_spelling_append, scan_sign, ih]
      · rw [Connective.abbreviate_spelling_append_of_ne hk, scan_spelling_append, ih]
  | char c cs hno ih =>
      have hstep := Connective.abbreviate_cons (hno l)
      have hrewritten : ∀ k : Connective, ¬k.spelling <+: c :: l.abbreviate cs := by
        intro k hk
        rw [← hstep] at hk
        exact hno k (Connective.spelling_isPrefix_of_abbreviate hk).2
      rw [hstep, scan_of_not_isPrefix hrewritten, scan_of_not_isPrefix hno, ih]

/-- Without reserved words, each character is read on its own. -/
lemma scan_eq_map_ofChar (h : ∀ k : Connective, ¬k.spelling <:+: cs) : scan cs = cs.map ofChar := by
  induction cs with
  | nil => rw [scan, List.map_nil]
  | cons c cs ih =>
      have hno : ∀ k : Connective, ¬k.spelling <+: c :: cs := fun k hk => h k hk.isInfix
      rw [scan_of_not_isPrefix hno, ih fun k hk => h k (List.infix_cons hk), List.map_cons]

/-- The characters with the reserved words of some connectives written as signs, one connective
after the other. -/
def abbreviateAll (order : List Connective) (cs : List Char) : List Char :=
  order.foldl (fun cs k => k.abbreviate cs) cs

lemma scan_abbreviateAll (order : List Connective) (cs : List Char) :
    scan (abbreviateAll order cs) = scan cs := by
  induction order generalizing cs with
  | nil => rfl
  | cons k order ih => rw [abbreviateAll, List.foldl_cons, ← abbreviateAll, ih, scan_abbreviate]

/-- The reserved words that are left belong to no connective in the list. -/
lemma not_mem_of_spelling_isInfix_abbreviateAll {k : Connective} {order : List Connective}
    (h : k.spelling <:+: abbreviateAll order cs) : k ∉ order ∧ k.spelling <:+: cs := by
  induction order generalizing cs with
  | nil => exact ⟨List.not_mem_nil, h⟩
  | cons l order ih =>
      obtain ⟨hmem, hlater⟩ := ih h
      obtain ⟨hne, hcs⟩ := Connective.spelling_isInfix_of_abbreviate hlater
      exact ⟨List.not_mem_cons_of_ne_of_not_mem hne hmem, hcs⟩

/-- The tokens of a text by signs: blanks are dropped, the reserved words are written as signs for
one connective after the other, and each character is a token. -/
def ofTextBySigns (order : List Connective) (text : String) : List Token :=
  (abbreviateAll order (Text.withoutBlanks text.toList)).map ofChar

/-- **Reading by signs**: in whatever order the connectives are rewritten, the tokens are those of
reading the text once from left to right. -/
theorem ofText_eq_ofTextBySigns (text : String) {order : List Connective}
    (h : order.Perm Connective.all) : ofText text = ofTextBySigns order text := by
  have hnone : ∀ k : Connective,
      ¬k.spelling <:+: abbreviateAll order (Text.withoutBlanks text.toList) := by
    intro k hk
    exact (not_mem_of_spelling_isInfix_abbreviateAll hk).1 (h.mem_iff.mpr k.mem_all)
  rw [ofTextBySigns, ← scan_eq_map_ofChar hnone, scan_abbreviateAll]
  rfl

/-- A text with a backslash before a reserved word, a blank in another one, a sign and a word that
is cut off, rewritten from the weakest connective to the tightest. -/
theorem ofText_eq_ofTextBySigns_imp_first :
    [Connective.imp, .or, .and, .not].Perm Connective.all
    ∧ ofText "\\\\neg(p \\we dge q)∨\\ne"
      = ofTextBySigns [.imp, .or, .and, .not] "\\\\neg(p \\we dge q)∨\\ne"
    ∧ ofText "\\\\neg(p \\we dge q)∨\\ne"
      = [.atom '\\', .op .not, .opening, .atom 'p', .op .and, .atom 'q', .closing, .op .or,
        .atom '\\', .atom 'n', .atom 'e'] :=
  ⟨by decide, ofText_eq_ofTextBySigns _ (by decide), by cbv⟩

end Token

end Clausal
