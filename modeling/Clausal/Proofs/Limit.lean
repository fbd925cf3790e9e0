/-
The limit on the clauses of a conjunctive normal form.

* `Exceeds`: an accepted text has more clauses than a limit allows;
* `Limited`: a result under a limit is a fault if the text exceeds the limit, and else the result
  without a limit; `Limited.of_le`: a larger limit does not change a result;
* `Reading.limited_cnf`, `limited_normalizeWithin`, `CommandLine.limited_conclusion`: so it is with
  the normal form, the outcome and the line that a command prints;
* `limited_by_clauses`: all of it, with the limits that admit no formula and every formula.
-/
import Clausal.CommandLine.Report
import Clausal.Outcome
import Clausal.Proofs.Stages

namespace Clausal

open Reading CommandLine

/-! ### Exceeding a limit -/

/-- Whether a text has too many clauses for a limit: the text is accepted, a limit is set, and its
conjunctive normal form has more clauses, counted up to the largest 64-bit number, than the limit
allows. -/
structure Exceeds (text : String) (limit : Option ℕ) (clauses bound : ℕ) : Prop where
  wellFormed : (ofText text).wellFormed = true
  limit_eq : limit = some bound
  clauses_eq : ∃ t, (ofText text).cnf none = .ok t ∧ clauses = min t.conjuncts.length (2 ^ 64 - 1)
  lt : bound < clauses

variable {text : String} {limit : Option ℕ} {t : Formula} {clauses bound m n : ℕ}

/-- The count that is compared with a limit is the number of clauses of the normal form. -/
lemma exceeds_iff_of_formula (h : (ofText text).formula = .ok t) :
    Exceeds text limit clauses bound
      ↔ limit = some bound ∧ clauses = t.clauseCount ∧ bound < clauses := by
  have hcount : t.clauseCount = min t.cnf.conjuncts.length (2 ^ 64 - 1) := t.clauseCount_eq
  constructor
  · rintro ⟨-, hlimit, ⟨s, hs, hclauses⟩, hlt⟩
    have hst : t.cnf = s := Except.ok.inj ((cnf_of_formula h).symm.trans hs)
    exact ⟨hlimit, by rw [hclauses, hcount, hst], hlt⟩
  · rintro ⟨hlimit, hclauses, hlt⟩
    exact ⟨wellFormed_of_formula h, hlimit, ⟨t.cnf, cnf_of_formula h, hclauses.trans hcount⟩, hlt⟩

/-- A smaller limit is exceeded too. -/
lemma Exceeds.of_le (h : Exceeds text (some n) clauses bound) (hmn : m ≤ n) :
    Exceeds text (some m) clauses m where
  wellFormed := h.wellFormed
  limit_eq := rfl
  clauses_eq := h.clauses_eq
  lt := by
    have hbound : n = bound := Option.some.inj h.limit_eq
    exact hmn.trans_lt (hbound ▸ h.lt)

/-- Every formula has a clause. -/
lemma exists_exceeds_zero (h : (ofText text).wellFormed = true) :
    ∃ clauses, Exceeds text (some 0) clauses 0 := by
  obtain ⟨t, ht⟩ := exists_formula h
  have hpos : 0 < t.clauseCount := by
    rw [Formula.clauseCount_eq]
    exact Formula.capped_pos t.length_clauses_pos
  exact ⟨t.clauseCount, (exceeds_iff_of_formula ht).mpr ⟨rfl, rfl, hpos⟩⟩

/-- No count is above the largest one. -/
lemma not_exceeds_max : ¬Exceeds text (some (2 ^ 64 - 1)) clauses bound := by
  rintro ⟨-, hlimit, ⟨t, -, rfl⟩, hlt⟩
  have hbound : 2 ^ 64 - 1 = bound := Option.some.inj hlimit
  omega

/-! ### Results under a limit -/

/-- Whether a result for a text is ruled by the limit: a fault with the number of clauses if the
text exceeds the limit, and else the result without a limit. -/
structure Limited {α : Type} (text : String) (result : Option ℕ → Except Fault α)
    (unlimited : Except Fault α) : Prop where
  eq_error_iff : ∀ limit clauses bound, result limit = .error (.tooManyClauses clauses bound)
    ↔ Exceeds text limit clauses bound
  eq_unlimited : ∀ limit, (∀ clauses bound, ¬Exceeds text limit clauses bound) →
    result limit = unlimited

namespace Limited

variable {α : Type} {result : Option ℕ → Except Fault α} {unlimited : Except Fault α}

/-- Two cases decide: the text exceeds the limit or it does not. -/
lemma of_cases (hunlimited : ∀ clauses bound, unlimited ≠ .error (.tooManyClauses clauses bound))
    (hexceeds : ∀ limit clauses bound, Exceeds text limit clauses bound →
      result limit = .error (.tooManyClauses clauses bound))
    (helse : ∀ limit, (∀ clauses bound, ¬Exceeds text limit clauses bound) →
      result limit = unlimited) : Limited text result unlimited where
  eq_error_iff limit clauses bound := by
    refine ⟨fun h => ?_, hexceeds limit clauses bound⟩
    by_cases hex : ∃ clauses bound, Exceeds text limit clauses bound
    · -- the text exceeds the limit by some numbers, and the fault names them
      obtain ⟨clauses', bound', hex⟩ := hex
      have hfault := Except.error.inj (h.symm.trans (hexceeds limit _ _ hex))
      obtain ⟨rfl, rfl⟩ := Fault.tooManyClauses.inj hfault
      exact hex
    · have hno : ∀ clauses bound, ¬Exceeds text limit clauses bound :=
        fun clauses bound h => hex ⟨clauses, bound, h⟩
      exact absurd ((helse limit hno).symm.trans h) (hunlimited clauses bound)
  eq_unlimited := helse

/-- **Larger limits**: a result under a limit is the result under every larger one. -/
lemma of_le (h : Limited text result unlimited) (hmn : m ≤ n) {a : α}
    (ha : result (some m) = .ok a) : result (some n) = .ok a := by
  have hm : ∀ clauses bound, ¬Exceeds text (some m) clauses bound := by
    intro clauses bound hex
    exact nomatch ((h.eq_error_iff _ _ _).mpr hex).symm.trans ha
  have hn : ∀ clauses bound, ¬Exceeds text (some n) clauses bound :=
    fun clauses bound hex => hm _ _ (hex.of_le hmn)
  rw [h.eq_unlimited _ hn, ← h.eq_unlimited _ hm, ha]

lemma eq_unlimited_max (h : Limited text result unlimited) :
    result (some (2 ^ 64 - 1)) = unlimited :=
  h.eq_unlimited _ fun _ _ => not_exceeds_max

/-- Under the limit zero no accepted text has a result. -/
lemma exists_error_zero (h : Limited text result unlimited)
    (hwf : (ofText text).wellFormed = true) :
    ∃ clauses, result (some 0) = .error (.tooManyClauses clauses 0) := by
  obtain ⟨clauses, hzero⟩ := exists_exceeds_zero hwf
  exact ⟨clauses, (h.eq_error_iff _ _ _).mpr hzero⟩

end Limited

/-! ### Normal form, outcome and report -/

lemma Reading.cnf_of_exceeds (h : Exceeds text limit clauses bound) :
    (ofText text).cnf limit = .error (.tooManyClauses clauses bound) := by
  obtain ⟨t, ht⟩ := exists_formula h.wellFormed
  obtain ⟨rfl, rfl, hlt⟩ := (exceeds_iff_of_formula ht).mp h
  rw [cnf_some_of_formula ht, if_neg (Nat.not_le.mpr hlt)]

lemma Reading.cnf_of_not_exceeds (h : ∀ clauses bound, ¬Exceeds text limit clauses bound) :
    (ofText text).cnf limit = (ofText text).cnf none := by
  cases hwf : (ofText text).wellFormed with
  | false => rw [cnf_of_rejected hwf, cnf_of_rejected hwf]
  | true =>
      obtain ⟨t, ht⟩ := exists_formula hwf
      cases limit with
      | none => rfl
      | some m =>
          have hle : t.clauseCount ≤ m := by
            by_contra hlt
            exact h _ m ((exceeds_iff_of_formula ht).mpr ⟨rfl, rfl, Nat.not_le.mp hlt⟩)
          rw [cnf_some_of_formula ht, if_pos hle, cnf_of_formula ht]

lemma Reading.limited_cnf (text : String) :
    Limited text (ofText text).cnf ((ofText text).cnf none) := by
  refine .of_cases (fun clauses bound h => ?_) (fun _ _ _ => cnf_of_exceeds)
    fun _ => cnf_of_not_exceeds
  rcases eq_of_cnf_eq_error h with h | ⟨_, _, hlimit, _⟩
  · cases h
  · cases hlimit

lemma limited_normalizeWithin (text : String) :
    Limited text (normalizeWithin · text) (.ok (normalize text)) := by
  refine .of_cases (fun clauses bound h => nomatch h) (fun limit clauses bound h => ?_)
    fun limit h => ?_
  · simp only [normalizeWithin, h.wellFormed, cnf_of_exceeds h]
    rfl
  · cases hwf : (ofText text).wellFormed with
    | false =>
        simp only [normalizeWithin, hwf, normalize_of_rejected hwf]
        rfl
    | true =>
        obtain ⟨t, ht⟩ := exists_formula hwf
        simp only [normalizeWithin, hwf, cnf_of_not_exceeds h, cnf_of_formula ht,
          normalize_of_formula ht]
        rfl

lemma Outcome.text_accepted (t : Formula) : (accepted t).text = t.text := rfl

lemma Outcome.text_rejected : rejected.text = "not well-formed" := rfl

/-- The line that a command prints is the text of the outcome. -/
lemma CommandLine.limited_conclusion (text : String) :
    Limited text (conclusion · (ofText text)) (.ok (normalize text).text) := by
  refine .of_cases (fun clauses bound h => nomatch h) (fun limit clauses bound h => ?_)
    fun limit h => ?_
  · simp only [conclusion, cnf_of_exceeds h]
  · cases hwf : (ofText text).wellFormed with
    | false =>
        simp only [conclusion, cnf_of_rejected hwf, normalize_of_rejected hwf,
          Outcome.text_rejected]
    | true =>
        obtain ⟨t, ht⟩ := exists_formula hwf
        simp only [conclusion, cnf_of_not_exceeds h, cnf_of_formula ht, normalize_of_formula ht,
          Outcome.text_accepted]

/-- A rejected text is an outcome under every limit. -/
lemma result_of_rejected (h : (ofText text).wellFormed = false) (limit : Option ℕ) :
    normalizeWithin limit text = .ok .rejected
    ∧ conclusion limit (ofText text) = .ok Outcome.rejected.text := by
  have hno : ∀ clauses bound, ¬Exceeds text limit clauses bound :=
    fun clauses bound hex => nomatch h.symm.trans hex.wellFormed
  rw [(limited_normalizeWithin text).eq_unlimited limit hno,
    (limited_conclusion text).eq_unlimited limit hno, normalize_of_rejected h]
  exact ⟨rfl, rfl⟩

/-- **The limit on clauses** decides alike for the normal form, the outcome and the line that a
command prints: there is a fault exactly if the text exceeds the limit, and else the result is the
one without a limit. So a rejected text is never a fault of the outcome or the line, the limit zero
admits no accepted text and the largest 64-bit number all of them, and a result is the same under
every larger limit. -/
theorem limited_by_clauses (text : String) :
    Limited text (ofText text).cnf ((ofText text).cnf none)
    ∧ Limited text (normalizeWithin · text) (.ok (normalize text))
    ∧ Limited text (conclusion · (ofText text)) (.ok (normalize text).text)
    ∧ ((ofText text).wellFormed = false → ∀ limit, normalizeWithin limit text = .ok .rejected
        ∧ conclusion limit (ofText text) = .ok Outcome.rejected.text)
    ∧ ((ofText text).wellFormed = true →
        (∃ clauses, (ofText text).cnf (some 0) = .error (.tooManyClauses clauses 0))
        ∧ (∃ clauses, normalizeWithin (some 0) text = .error (.tooManyClauses clauses 0))
        ∧ ∃ clauses, conclusion (some 0) (ofText text) = .error (.tooManyClauses clauses 0))
    ∧ (ofText text).cnf (some (2 ^ 64 - 1)) = (ofText text).cnf none
    ∧ normalizeWithin (some (2 ^ 64 - 1)) text = .ok (normalize text)
    ∧ conclusion (some (2 ^ 64 - 1)) (ofText text) = .ok (normalize text).text
    ∧ ∀ m n, m ≤ n →
        (∀ t, (ofText text).cnf (some m) = .ok t → (ofText text).cnf (some n) = .ok t)
        ∧ (∀ o, normalizeWithin (some m) text = .ok o → normalizeWithin (some n) text = .ok o)
        ∧ ∀ line, conclusion (some m) (ofText text) = .ok line →
            conclusion (some n) (ofText text) = .ok line := by
  have hcnf := limited_cnf text
  have houtcome := limited_normalizeWithin text
  have hline := limited_conclusion text
  refine ⟨hcnf, houtcome, hline, result_of_rejected, fun hwf => ?_, hcnf.eq_unlimited_max,
    houtcome.eq_unlimited_max, hline.eq_unlimited_max, fun m n hmn => ?_⟩
  · exact ⟨hcnf.exists_error_zero hwf, houtcome.exists_error_zero hwf, hline.exists_error_zero hwf⟩
  · exact ⟨fun _ => hcnf.of_le hmn, fun _ => houtcome.of_le hmn, fun _ => hline.of_le hmn⟩

/-- A formula with two clauses is too large for one, and has its outcome with two. -/
example :
    normalizeWithin (some 1) "(p \\wedge q) \\vee r" = .error (.tooManyClauses 2 1)
    ∧ normalizeWithin (some 2) "(p \\wedge q) \\vee r"
      = .ok ⟨true, some "((p \\vee r) \\wedge (q \\vee r))"⟩ := by
  constructor <;> cbv

end Clausal
