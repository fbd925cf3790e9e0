/-
The stages of a text, and when they fail.

* `Reading.exists_formula`, `Reading.grouped_of_formula`: an accepted text has a formula, and its
  tokens read as that formula;
* `Reading.implicationFree_of_formula`, `Reading.nnf_of_formula`, `Reading.cnf_of_formula`,
  `Reading.cnf_some_of_formula`: the later stages are the normal forms of that formula, and only a
  limit on the clauses can still be a fault;
* `Reading.failsWith_of_rejected`: a rejected text fails at every stage in the same way;
* `Reading.eq_of_cnf_eq_error`: so a fault is a rejection or a limit that is exceeded;
* `normalize_of_formula`, `normalize_of_rejected`: the outcome in both cases;
* `Reading.stages_agree_with_recognition`: the grammar and the stages agree on every text.
-/
import Clausal.Outcome
import Clausal.Proofs.Clauses
import Clausal.Proofs.Reading

namespace Clausal

namespace Reading

/-- Whether every stage gives a result, the conjunctive normal form without a limit. -/
def Succeeds (r : Reading) : Prop :=
  (∃ sequence, r.postfixOrder = .ok sequence) ∧ (∃ t, r.formula = .ok t)
    ∧ (∃ t, r.implicationFree = .ok t) ∧ (∃ t, r.nnf = .ok t) ∧ ∃ t, r.cnf none = .ok t

/-- Whether every stage ends with the fault, the conjunctive normal form under every limit. -/
def FailsWith (r : Reading) (fault : Fault) : Prop :=
  r.postfixOrder = .error fault ∧ r.formula = .error fault ∧ r.implicationFree = .error fault
    ∧ r.nnf = .error fault ∧ ∀ limit, r.cnf limit = .error fault

/-- Whether some stage ends with the fault, the conjunctive normal form under some limit or none. -/
def Faults (r : Reading) (fault : Fault) : Prop :=
  r.postfixOrder = .error fault ∨ r.formula = .error fault ∨ r.implicationFree = .error fault
    ∨ r.nnf = .error fault ∨ ∃ limit, r.cnf limit = .error fault

variable {r : Reading} {text : String} {t : Formula} {fault : Fault}

/-! ### Accepted texts -/

/-- The tokens of an accepted text read as some formula. -/
lemma exists_grouped (h : (ofText text).wellFormed = true) :
    ∃ t, Grouped .imp (Token.ofText text) t := (wellFormed_iff.mp h).exists_grouped

lemma exists_formula (h : (ofText text).wellFormed = true) :
    ∃ t, (ofText text).formula = .ok t := by
  obtain ⟨t, ht⟩ := exists_grouped h
  exact ⟨t, formula_of_grouped ht⟩

/-- If a text has a formula, its tokens read as that formula. -/
lemma grouped_of_formula (h : (ofText text).formula = .ok t) :
    Grouped .imp (Token.ofText text) t := by
  cases hwf : (ofText text).wellFormed with
  | false => exact nomatch (formula_of_rejected hwf).symm.trans h
  | true =>
      obtain ⟨t', ht'⟩ := exists_grouped hwf
      have heq : t' = t := Except.ok.inj ((formula_of_grouped ht').symm.trans h)
      exact heq ▸ ht'

lemma wellFormed_of_formula (h : (ofText text).formula = .ok t) :
    (ofText text).wellFormed = true := wellFormed_iff.mpr (grouped_of_formula h).sentence

lemma implicationFree_of_formula (h : r.formula = .ok t) :
    r.implicationFree = .ok t.withoutImp := by
  rw [implicationFree, h]
  rfl

lemma nnf_of_formula (h : r.formula = .ok t) : r.nnf = .ok t.nnf := by
  rw [nnf, implicationFree_of_formula h, ← t.nnf_withoutImp]
  rfl

lemma cnf_of_formula (h : r.formula = .ok t) : r.cnf none = .ok t.cnf := by
  rw [cnf, nnf_of_formula h, ← t.cnf_nnf]
  rfl

/-- Under a limit the clauses of the formula decide. -/
lemma cnf_some_of_formula (h : r.formula = .ok t) (limit : ℕ) :
    r.cnf (some limit) = if t.clauseCount ≤ limit then .ok t.cnf
      else .error (.tooManyClauses t.clauseCount limit) := by
  rw [cnf, nnf_of_formula h, ← t.clauseCount_nnf, ← t.cnf_nnf]
  rfl

lemma postfixOrder_of_accepted (h : r.wellFormed = true) :
    r.postfixOrder = .ok (Token.postfixOrder r.tokens) := by
  rw [postfixOrder, if_pos h]

lemma succeeds_of_accepted (h : (ofText text).wellFormed = true) : (ofText text).Succeeds := by
  obtain ⟨t, ht⟩ := exists_formula h
  exact ⟨⟨_, postfixOrder_of_accepted h⟩, ⟨t, ht⟩, ⟨_, implicationFree_of_formula ht⟩,
    ⟨_, nnf_of_formula ht⟩, ⟨_, cnf_of_formula ht⟩⟩

/-- The only fault of an accepted text is too many clauses for the limit. -/
lemma exists_limit_of_cnf_eq_error {limit : Option ℕ} (h : (ofText text).wellFormed = true)
    (hfault : (ofText text).cnf limit = .error fault) :
    ∃ clauses m, limit = some m ∧ fault = .tooManyClauses clauses m := by
  obtain ⟨t, ht⟩ := exists_formula h
  cases limit with
  | none =>
      rw [cnf_of_formula ht] at hfault
      cases hfault
  | some m =>
      rw [cnf_some_of_formula ht] at hfault
      split at hfault
      · cases hfault
      · exact ⟨_, m, rfl, (Except.error.inj hfault).symm⟩

/-! ### Faults -/

lemma formula_eq_error (h : r.postfixOrder = .error fault) : r.formula = .error fault := by
  rw [formula, h]
  rfl

lemma implicationFree_eq_error (h : r.formula = .error fault) :
    r.implicationFree = .error fault := by
  rw [implicationFree, h]
  rfl

lemma nnf_eq_error (h : r.implicationFree = .error fault) : r.nnf = .error fault := by
  rw [nnf, h]
  rfl

lemma cnf_eq_error (h : r.nnf = .error fault) (limit : Option ℕ) :
    r.cnf limit = .error fault := by
  rw [cnf, h]
  rfl

/-- A fault of the first stage is that of all stages. -/
lemma failsWith_of_postfixOrder_eq_error (h : r.postfixOrder = .error fault) :
    r.FailsWith fault := by
  have hformula := formula_eq_error h
  have hfree := implicationFree_eq_error hformula
  have hnnf := nnf_eq_error hfree
  exact ⟨h, hformula, hfree, hnnf, cnf_eq_error hnnf⟩

/-- A fault of any stage is one of the last, under some limit. -/
lemma Faults.exists_cnf_eq_error (h : r.Faults fault) : ∃ limit, r.cnf limit = .error fault := by
  rcases h with h | h | h | h | h
  · have hnnf := nnf_eq_error (implicationFree_eq_error (formula_eq_error h))
    exact ⟨none, cnf_eq_error hnnf none⟩
  · exact ⟨none, cnf_eq_error (nnf_eq_error (implicationFree_eq_error h)) none⟩
  · exact ⟨none, cnf_eq_error (nnf_eq_error h) none⟩
  · exact ⟨none, cnf_eq_error h none⟩
  · exact h

/-- A rejected text fails at every stage, and the fault names the text. -/
lemma failsWith_of_rejected (h : (ofText text).wellFormed = false) :
    (ofText text).FailsWith (.notWellFormed text) := by
  have hreject : (ofText text).postfixOrder = .error (.notWellFormed text) := by
    rw [postfixOrder, h]
    rfl
  exact failsWith_of_postfixOrder_eq_error hreject

lemma cnf_of_rejected (h : (ofText text).wellFormed = false) (limit : Option ℕ) :
    (ofText text).cnf limit = .error (.notWellFormed text) := by
  obtain ⟨-, -, -, -, hcnf⟩ := failsWith_of_rejected h
  exact hcnf limit

/-- **The faults of the last stage**: the grammar rejects the text, or it has too many clauses for
the limit. -/
lemma eq_of_cnf_eq_error {limit : Option ℕ} (h : (ofText text).cnf limit = .error fault) :
    fault = .notWellFormed text
    ∨ ∃ clauses m, limit = some m ∧ fault = .tooManyClauses clauses m := by
  cases hwf : (ofText text).wellFormed with
  | false => exact .inl (Except.error.inj (h.symm.trans (cnf_of_rejected hwf limit)))
  | true => exact .inr (exists_limit_of_cnf_eq_error hwf h)

end Reading

/-! ### Outcomes -/

variable {text : String} {t : Formula}

lemma normalize_of_formula (h : (Reading.ofText text).formula = .ok t) :
    normalize text = .accepted t.cnf := by
  simp only [normalize, Reading.cnf_of_formula h]

lemma normalize_of_rejected (h : (Reading.ofText text).wellFormed = false) :
    normalize text = .rejected := by
  simp only [normalize, Reading.cnf_of_rejected h]

/-- The outcome of a text judges it like the grammar and has a normal form exactly if the text is
accepted. -/
lemma normalize_judgement (text : String) :
    (normalize text).wellFormed = (Reading.ofText text).wellFormed
    ∧ (normalize text).cnf.isSome = (normalize text).wellFormed := by
  cases h : (Reading.ofText text).wellFormed with
  | false =>
      rw [normalize_of_rejected h]
      exact ⟨rfl, rfl⟩
  | true =>
      obtain ⟨t, ht⟩ := Reading.exists_formula h
      rw [normalize_of_formula ht]
      exact ⟨rfl, rfl⟩

/-- **The grammar and the stages agree** on every text. If the grammar accepts it, every stage gives
a result, and only a limit on the clauses can be a fault; if not, every stage fails because of that.
So no stage ever finds a malformed postfix order, the unlimited conjunctive normal form has no fault
but the rejection, and the outcome of a text has a normal form exactly if it is accepted. -/
theorem Reading.stages_agree_with_recognition (text : String) :
    ((ofText text).wellFormed = true → (ofText text).Succeeds)
    ∧ ((ofText text).wellFormed = false → (ofText text).FailsWith (.notWellFormed text))
    ∧ (∀ misfit, ¬(ofText text).Faults (.malformedPostfix misfit))
    ∧ (∀ limit fault, (ofText text).wellFormed = true → (ofText text).cnf limit = .error fault →
        ∃ clauses m, limit = some m ∧ fault = .tooManyClauses clauses m)
    ∧ (∀ fault, (ofText text).cnf none = .error fault → fault = .notWellFormed text)
    ∧ (normalize text).wellFormed = (ofText text).wellFormed
    ∧ (normalize text).cnf.isSome = (normalize text).wellFormed := by
  refine ⟨succeeds_of_accepted, failsWith_of_rejected, fun misfit h => ?_,
    fun _ _ => exists_limit_of_cnf_eq_error, fun fault h => ?_, normalize_judgement text⟩
  · obtain ⟨limit, hcnf⟩ := h.exists_cnf_eq_error
    rcases eq_of_cnf_eq_error hcnf with h | ⟨_, _, _, h⟩ <;> cases h
  · rcases eq_of_cnf_eq_error h with h | ⟨_, _, hlimit, _⟩
    · exact h
    · cases hlimit

end Clausal
