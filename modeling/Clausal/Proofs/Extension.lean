/-
Values under assignments with gaps.

* `Truth.Extends`: a truth value that keeps what another one determines;
* `Truth.Extends.and` and its like: a connective keeps its value when its operands are extended;
* `Truth.IsExact`: a connective may still take a value only where its operands may still take values
  that give it;
* `Formula.extends_eval`: a determined value stays when more atoms get values;
* `Formula.eval_persists`: so a formula whose value can still vary is undetermined;
* `Formula.IsReadOnce.attains`: a formula in which no atom occurs twice takes each value it may
  still take, under values that are chosen apart for its operands and spliced;
* `Formula.eval_eq_none_iff_of_readOnce`: such a formula is undetermined only if its value can still
  vary.
-/
import Clausal.Proofs.Equivalence
import Clausal.Proofs.Truth

namespace Clausal

/-! ### Extension of truth values -/

namespace Truth

/-- `y` extends `x`: if `x` is determined, `y` has the same value. -/
def Extends (y x : Truth) : Prop := ∀ value, x = some value → y = some value

instance (y x : Truth) : Decidable (Extends y x) :=
  inferInstanceAs (Decidable (∀ value, x = some value → y = some value))

variable {x x' y y' : Truth} {value : Bool}

/-- Different values extend an undetermined one only. -/
lemma eq_none_of_extends (hy : Extends y x) (hy' : Extends y' x) (hne : y ≠ y') : x = none := by
  cases x with
  | none => rfl
  | some value => exact absurd ((hy value rfl).trans (hy' value rfl).symm) hne

/-! ### Determined connectives -/

lemma not_eq_some_iff : x.not = some value ↔ x = some !value := by
  revert x value
  decide

lemma and_eq_true_iff : x.and y = some true ↔ x = some true ∧ y = some true := by
  revert x y
  decide

lemma and_eq_false_iff : x.and y = some false ↔ x = some false ∨ y = some false := by
  revert x y
  decide

lemma Extends.not (h : Extends x' x) : Extends x'.not x.not := by
  intro value hvalue
  exact not_eq_some_iff.mpr (h _ (not_eq_some_iff.mp hvalue))

lemma Extends.and (hx : Extends x' x) (hy : Extends y' y) : Extends (x'.and y') (x.and y) := by
  intro value hvalue
  cases value with
  | true => exact and_eq_true_iff.mpr ((and_eq_true_iff.mp hvalue).imp (hx _) (hy _))
  | false => exact and_eq_false_iff.mpr ((and_eq_false_iff.mp hvalue).imp (hx _) (hy _))

/-- Disjunction by negation and conjunction. -/
lemma or_eq (x y : Truth) : x.or y = (x.not.and y.not).not := by
  rw [not_and, not_not, not_not]

lemma Extends.or (hx : Extends x' x) (hy : Extends y' y) : Extends (x'.or y') (x.or y) := by
  rw [or_eq, or_eq]
  exact (hx.not.and hy.not).not

lemma Extends.imp (hx : Extends x' x) (hy : Extends y' y) : Extends (x'.imp y') (x.imp y) := by
  rw [imp_eq, imp_eq]
  exact hx.not.or hy

/-! ### Undetermined connectives -/

/-- A connective leaves open no more than its operands do: a value it may still take is that of some
values its operands may still take. -/
def IsExact (op : Truth → Truth → Truth) : Prop :=
  ∀ x y value, Extends (some value) (op x y) →
    ∃ p q : Bool, Extends (some p) x ∧ Extends (some q) y ∧ op (some p) (some q) = some value

lemma isExact_and : IsExact Truth.and := by
  unfold IsExact
  decide

lemma isExact_or : IsExact Truth.or := by
  unfold IsExact
  decide

lemma isExact_imp : IsExact Truth.imp := by
  unfold IsExact
  decide

end Truth

namespace Assignment

/-- One assignment extends another if it keeps the values of all its atoms. -/
def Extends (b a : Assignment) : Prop := ∀ c, (b.get c).Extends (a.get c)

/-- An atom without a value may be given one. -/
lemma extends_set {a : Assignment} {name : Char} (h : a.get name = none) (value : Bool) :
    (a.set name value).Extends a := by
  intro c old hold
  rw [get_set]
  split
  · next hc => simp [hc, h] at hold
  · exact hold

end Assignment

namespace Formula

variable {t a b : Formula} {v w : Char → Truth}

/-! ### Determined formulas -/

/-- **Values persist**: a determined formula keeps its value when more of its atoms get values. -/
lemma extends_eval (h : ∀ c ∈ t.occurrences, (w c).Extends (v c)) :
    (t.eval w).Extends (t.eval v) := by
  induction t with
  | atom name => exact h name (by simp [occurrences])
  | not a ih => exact (ih h).not
  | and a b iha ihb =>
      rw [occurrences, List.forall_mem_append] at h
      exact (iha h.1).and (ihb h.2)
  | or a b iha ihb =>
      rw [occurrences, List.forall_mem_append] at h
      exact (iha h.1).or (ihb h.2)
  | imp a b iha ihb =>
      rw [occurrences, List.forall_mem_append] at h
      exact (iha h.1).imp (ihb h.2)

lemma isSome_eval (h : ∀ c ∈ t.occurrences, (v c).isSome) : (t.eval v).isSome := by
  induction t with
  | atom name => exact h name (by simp [occurrences])
  | not a ih =>
      obtain ⟨p, hp⟩ := Option.isSome_iff_exists.mp (ih h)
      rw [eval, hp]
      rfl
  | and a b iha ihb | or a b iha ihb | imp a b iha ihb =>
      rw [occurrences, List.forall_mem_append] at h
      obtain ⟨p, hp⟩ := Option.isSome_iff_exists.mp (iha h.1)
      obtain ⟨q, hq⟩ := Option.isSome_iff_exists.mp (ihb h.2)
      rw [eval, hp, hq]
      cases p <;> cases q <;> rfl

/-- A formula that two extensions of an assignment give different values has none yet. -/
lemma eval_eq_none_of_extends {a b b' : Assignment} (hb : b.Extends a) (hb' : b'.Extends a)
    (hne : t.eval b.get ≠ t.eval b'.get) : t.eval a.get = none :=
  Truth.eq_none_of_extends (extends_eval fun c _ => hb c) (extends_eval fun c _ => hb' c) hne

/-- **Evaluation with gaps is sound**: if one assignment gives the atoms of a formula at least the
values another one gives them, the formula keeps a value it has under the other; it has the same
value, or none, under assignments that agree on its atoms; it has a value as soon as all its atoms
have. So a formula that two extensions of an assignment give different values is undetermined under
the assignment. -/
theorem eval_persists (t : Formula) :
    (∀ a b : Assignment, (∀ c ∈ t.atoms, ∀ value, a.get c = some value → b.get c = some value) →
      ∀ value, t.eval a.get = some value → t.eval b.get = some value)
    ∧ (∀ a b : Assignment, (∀ c ∈ t.atoms, a.get c = b.get c) → t.eval a.get = t.eval b.get)
    ∧ (∀ a : Assignment, (∀ c ∈ t.atoms, (a.get c).isSome) → (t.eval a.get).isSome)
    ∧ ∀ a b b' : Assignment, b.Extends a → b'.Extends a → t.eval b.get ≠ t.eval b'.get →
      t.eval a.get = none := by
  simp only [atoms, List.mem_eraseDups]
  refine ⟨fun a b h => ?_, fun a b h => ?_, fun a h => ?_, fun a b b' hb hb' hne => ?_⟩
  · exact extends_eval h
  · exact eval_congr h
  · exact isSome_eval h
  · exact eval_eq_none_of_extends hb hb' hne

/-- A false conjunct decides a premise for good, whereas a false disjunct leaves it open. -/
theorem eval_persists_false_operand :
    (imp (and (atom 'p') (atom 'q')) (atom 'r')).eval
      ((Assignment.ofPairs [('q', false)]).set 'p' true).get = some true
    ∧ (imp (or (atom 'p') (atom 'q')) (not (atom 'p'))).eval
      (Assignment.ofPairs [('q', false)]).get = none := by
  have hset (value : Bool) : ((Assignment.ofPairs [('q', false)]).set 'p' value).Extends
      (Assignment.ofPairs [('q', false)]) := Assignment.extends_set (by decide) value
  obtain ⟨hkeeps, -, -, -⟩ := eval_persists (imp (and (atom 'p') (atom 'q')) (atom 'r'))
  obtain ⟨-, -, -, hopen⟩ := eval_persists (imp (or (atom 'p') (atom 'q')) (not (atom 'p')))
  exact ⟨hkeeps _ _ (fun c _ => hset true c) true (by decide),
    hopen _ _ _ (hset true) (hset false) (by decide)⟩

/-! ### Undetermined formulas -/

/-- Values for all atoms that extend a valuation. -/
def Completes (value : Char → Bool) (v : Char → Truth) : Prop :=
  ∀ c, Truth.Extends (some (value c)) (v c)

/-- Some completion of a valuation gives a formula a value. -/
def Attains (t : Formula) (v : Char → Truth) (r : Bool) : Prop :=
  ∃ value, Completes value v ∧ t.truthTable value = some r

/-- Some values for the atoms of a formula and others for all other atoms. -/
def spliced (t : Formula) (inside outside : Char → Bool) : Char → Bool :=
  fun c => if c ∈ t.occurrences then inside c else outside c

variable {f g : Char → Bool} {r : Bool}

lemma Completes.spliced (hf : Completes f v) (hg : Completes g v) (t : Formula) :
    Completes (t.spliced f g) v := by
  intro c
  rw [Formula.spliced]
  split
  · exact hf c
  · exact hg c

lemma truthTable_spliced (a : Formula) (f g : Char → Bool) :
    a.truthTable (a.spliced f g) = a.truthTable f :=
  eval_congr fun c hc => by rw [spliced, if_pos hc]

/-- The values chosen for one formula do not matter to another one without a common atom. -/
lemma truthTable_spliced_of_disjoint (h : a.occurrences.Disjoint b.occurrences)
    (f g : Char → Bool) : b.truthTable (a.spliced f g) = b.truthTable g :=
  eval_congr fun c hc => by rw [spliced, if_neg fun ha => h ha hc]

/-- Two formulas without a common atom take their values independently, so a connective of them
takes each value that it may still take. -/
lemma exists_completion_of_disjoint {op : Truth → Truth → Truth} (hop : Truth.IsExact op)
    (h : a.occurrences.Disjoint b.occurrences)
    (ha : ∀ p, Truth.Extends (some p) (a.eval v) → a.Attains v p)
    (hb : ∀ q, Truth.Extends (some q) (b.eval v) → b.Attains v q)
    (hopen : Truth.Extends (some r) (op (a.eval v) (b.eval v))) :
    ∃ value, Completes value v ∧ op (a.truthTable value) (b.truthTable value) = some r := by
  obtain ⟨p, q, hp, hq, hpq⟩ := hop _ _ _ hopen
  obtain ⟨f, hf, hfa⟩ := ha p hp
  obtain ⟨g, hg, hgb⟩ := hb q hq
  refine ⟨a.spliced f g, hf.spliced hg a, ?_⟩
  rw [truthTable_spliced, truthTable_spliced_of_disjoint h, hfa, hgb, hpq]

/-- A formula in which no atom occurs more than once. -/
def IsReadOnce (t : Formula) : Prop := t.occurrences.Nodup

instance (t : Formula) : Decidable t.IsReadOnce := inferInstanceAs (Decidable t.occurrences.Nodup)

/-- **Open values are attained**: where no atom occurs more than once, each value that a formula may
still take is its value under some completion. -/
lemma IsReadOnce.attains (h : t.IsReadOnce) (hopen : Truth.Extends (some r) (t.eval v)) :
    t.Attains v r := by
  induction t generalizing r with
  | atom name =>
      refine ⟨fun c => if c = name then r else (v c).getD false, ?_, by simp [truthTable, eval]⟩
      intro c value hvalue
      by_cases hc : c = name
      · subst hc
        simpa using hopen value hvalue
      · simp [hc, hvalue]
  | not a ih =>
      have hnot := hopen.not
      rw [eval, Truth.not_not] at hnot
      obtain ⟨f, hf, hfa⟩ := ih (r := !r) h hnot
      exact ⟨f, hf, Truth.not_eq_some_iff.mpr hfa⟩
  | and a b iha ihb =>
      obtain ⟨ha, hb, hdisjoint⟩ := List.nodup_append'.mp h
      exact exists_completion_of_disjoint Truth.isExact_and hdisjoint (fun _ => iha ha)
        (fun _ => ihb hb) hopen
  | or a b iha ihb =>
      obtain ⟨ha, hb, hdisjoint⟩ := List.nodup_append'.mp h
      exact exists_completion_of_disjoint Truth.isExact_or hdisjoint (fun _ => iha ha)
        (fun _ => ihb hb) hopen
  | imp a b iha ihb =>
      obtain ⟨ha, hb, hdisjoint⟩ := List.nodup_append'.mp h
      exact exists_completion_of_disjoint Truth.isExact_imp hdisjoint (fun _ => iha ha)
        (fun _ => ihb hb) hopen

/-- A value under a completion is that under an assignment of all atoms. -/
lemma Attains.exists_assignment {a : Assignment} (h : t.Attains a.get r) :
    ∃ b : Assignment, b.Extends a ∧ (∀ c ∈ t.atoms, (b.get c).isSome) ∧ t.eval b.get = some r := by
  obtain ⟨f, hf, hft⟩ := h
  obtain ⟨b, hb⟩ := Assignment.exists_get_eq fun c => some (f c)
  refine ⟨b, fun c => ?_, fun c _ => ?_, ?_⟩
  · rw [hb]
    exact hf c
  · rw [hb]
    rfl
  · rw [← hft, truthTable, funext hb]

/-- **Evaluation with gaps is complete** where no atom occurs more than once: a formula is
undetermined under an assignment exactly if two extensions that assign all its atoms give it
different values. -/
theorem eval_eq_none_iff_of_readOnce (t : Formula) (h : t.IsReadOnce) (a : Assignment) :
    t.eval a.get = none ↔ ∃ b b' : Assignment, b.Extends a ∧ b'.Extends a
      ∧ (∀ c ∈ t.atoms, (b.get c).isSome) ∧ (∀ c ∈ t.atoms, (b'.get c).isSome)
      ∧ t.eval b.get ≠ t.eval b'.get := by
  constructor
  · intro hnone
    have hopen : ∀ r, Truth.Extends (some r) (t.eval a.get) := by
      intro r value hvalue
      simp [hnone] at hvalue
    obtain ⟨b, hb, hatoms, htrue⟩ := (h.attains (hopen true)).exists_assignment
    obtain ⟨b', hb', hatoms', hfalse⟩ := (h.attains (hopen false)).exists_assignment
    refine ⟨b, b', hb, hb', hatoms, hatoms', ?_⟩
    rw [htrue, hfalse]
    simp
  · rintro ⟨b, b', hb, hb', -, -, hne⟩
    exact eval_eq_none_of_extends hb hb' hne

/-- With a premise and a conclusion that are both open, an implication can become true and false. -/
theorem eval_eq_none_iff_of_readOnce_open_operands :
    (imp (and (atom 'p') (atom 'q')) (not (atom 'r'))).IsReadOnce
    ∧ ∃ b b' : Assignment, b.Extends (Assignment.ofPairs [('p', true)])
      ∧ b'.Extends (Assignment.ofPairs [('p', true)])
      ∧ (∀ c ∈ ['p', 'q', 'r'], (b.get c).isSome) ∧ (∀ c ∈ ['p', 'q', 'r'], (b'.get c).isSome)
      ∧ (imp (and (atom 'p') (atom 'q')) (not (atom 'r'))).eval b.get
        ≠ (imp (and (atom 'p') (atom 'q')) (not (atom 'r'))).eval b'.get := by
  have honce : (imp (and (atom 'p') (atom 'q')) (not (atom 'r'))).IsReadOnce := by decide
  have hnone : (imp (and (atom 'p') (atom 'q')) (not (atom 'r'))).eval
      (Assignment.ofPairs [('p', true)]).get = none := by decide
  exact ⟨honce, (eval_eq_none_iff_of_readOnce _ honce _).mp hnone⟩

/-- With a repeated atom, a formula can be undetermined although it has one value only. -/
example : (or (atom 'p') (not (atom 'p'))).eval Assignment.empty.get = none
    ∧ ∀ value, (or (atom 'p') (not (atom 'p'))).truthTable (fun _ => value) = some true := by
  decide

end Formula

end Clausal
