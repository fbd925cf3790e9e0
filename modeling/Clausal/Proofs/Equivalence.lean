/-
Equivalent formulas.

* `Formula.eval_congr`: the value of a formula depends on the values of its atoms only;
* `Formula.truthTable`: the values of a formula where every atom has one;
* `Formula.Comparable`: two formulas with so few atoms that their assignments can be numbered;
* `Formula.isEquivalent_iff_truthTable_eq`: then the test of all numbers compares the truth tables;
* `Formula.isEquivalent_iff_agree`: so equivalent formulas are those that agree under every
  assignment of their atoms, and equivalence is a congruence.
-/
import Clausal.Formula.Evaluation
import Clausal.Proofs.Lists
import Clausal.Proofs.Numbering
import Clausal.Proofs.Renaming

namespace Clausal.Formula

variable {a b c d t : Formula}

/-! ### Values -/

/-- The value of a formula depends on the values of its atoms only. -/
lemma eval_congr {v w : Char → Truth} (h : ∀ c ∈ t.occurrences, v c = w c) :
    t.eval v = t.eval w := by
  induction t with
  | atom name => exact h name (by simp [occurrences])
  | not a ih => rw [eval, eval, ih h]
  | and a b iha ihb | or a b iha ihb | imp a b iha ihb =>
      rw [occurrences, List.forall_mem_append] at h
      rw [eval, eval, iha h.1, ihb h.2]

/-- The truth table of a formula: its value for any choice of values for its atoms. -/
def truthTable (t : Formula) (value : Char → Bool) : Truth := t.eval fun c => some (value c)

lemma eval_eq_truthTable {v : Char → Truth} {value : Char → Bool}
    (h : ∀ c ∈ t.atoms, v c = some (value c)) : t.eval v = t.truthTable value :=
  eval_congr fun c hc => h c (List.mem_eraseDups.mpr hc)

/-- Two formulas agree under all assignments of their atoms if they have the same truth table. -/
lemma forall_assignment_iff_truthTable_eq :
    (∀ v : Assignment, (∀ c ∈ a.atoms ++ b.atoms, (v.get c).isSome) → a.eval v.get = b.eval v.get)
      ↔ a.truthTable = b.truthTable := by
  constructor
  · intro h
    funext value
    obtain ⟨v, hv⟩ := Assignment.exists_get_eq fun c => some (value c)
    rw [← eval_eq_truthTable fun c _ => hv c, ← eval_eq_truthTable fun c _ => hv c]
    exact h v fun c _ => by simp [hv]
  · intro h v hv
    -- atoms without a value do not matter, so they may be false
    have hvalue : ∀ c ∈ a.atoms ++ b.atoms, v.get c = some ((v.get c).getD false) := by
      intro c hc
      obtain ⟨value, hc⟩ := Option.isSome_iff_exists.mp (hv c hc)
      rw [hc, Option.getD_some]
    rw [List.forall_mem_append] at hvalue
    rw [eval_eq_truthTable hvalue.1, eval_eq_truthTable hvalue.2, h]

/-! ### Comparable formulas -/

/-- Two formulas have fewer than 64 distinct atoms together. -/
def Comparable (a b : Formula) : Prop := (a.atoms ++ b.atoms).toFinset.card < 64

instance (a b : Formula) : Decidable (Comparable a b) :=
  inferInstanceAs (Decidable ((a.atoms ++ b.atoms).toFinset.card < 64))

/-- Formulas with no more atoms are comparable too. -/
lemma Comparable.of_subset (h : Comparable c d)
    (hsubset : a.atoms ++ b.atoms ⊆ c.atoms ++ d.atoms) : Comparable a b := by
  have hfinset : (a.atoms ++ b.atoms).toFinset ⊆ (c.atoms ++ d.atoms).toFinset := fun name hname =>
    List.mem_toFinset.mpr (hsubset (List.mem_toFinset.mp hname))
  exact (Finset.card_le_card hfinset).trans_lt h

lemma Comparable.symm (h : Comparable a b) : Comparable b a :=
  h.of_subset (by simp)

/-- Comparable conjunctions have comparable operands. -/
lemma Comparable.operands (h : Comparable (and a b) (and c d)) :
    Comparable a c ∧ Comparable b d := by
  refine ⟨h.of_subset fun name hname => ?_, h.of_subset fun name hname => ?_⟩
  all_goals
    simp only [atoms, occurrences, List.mem_append, List.mem_eraseDups] at hname ⊢
    tauto

/-- The atoms that the test assigns are fewer than the bits of a number. -/
lemma Comparable.length_lt (h : Comparable a b) :
    (a.atoms ++ b.atoms).eraseDups.length < Assignment.width := by
  have hsame : (a.atoms ++ b.atoms).eraseDups.toFinset = (a.atoms ++ b.atoms).toFinset := by
    ext c
    simp [List.mem_eraseDups]
  rw [← List.toFinset_card_of_nodup (nodup_eraseDups _), hsame]
  exact h

/-! ### Equivalence -/

/-- The test goes through the numbers of all assignments. -/
lemma isEquivalent_iff_forall_number :
    a.isEquivalent b = true ↔ ∀ number < Assignment.count (a.atoms ++ b.atoms).eraseDups,
      a.eval (Assignment.numbered (a.atoms ++ b.atoms).eraseDups number).get
        = b.eval (Assignment.numbered (a.atoms ++ b.atoms).eraseDups number).get := by
  rw [isEquivalent, Nat.all_eq_finRange_all, List.all_eq_true]
  simp only [List.mem_finRange, decide_eq_true_eq, forall_const, Fin.forall_iff]

/-- **All numbers** together test all values of the atoms, so equivalent formulas are those with the
same truth table. -/
lemma isEquivalent_iff_truthTable_eq (h : Comparable a b) :
    a.isEquivalent b = true ↔ a.truthTable = b.truthTable := by
  have hnodup := nodup_eraseDups (a.atoms ++ b.atoms)
  have hvalues {v : Char → Truth} {value : Char → Bool}
      (hv : ∀ c ∈ (a.atoms ++ b.atoms).eraseDups, v c = some (value c)) :
      a.eval v = a.truthTable value ∧ b.eval v = b.truthTable value := by
    simp only [List.mem_eraseDups, List.forall_mem_append] at hv
    exact ⟨eval_eq_truthTable hv.1, eval_eq_truthTable hv.2⟩
  rw [isEquivalent_iff_forall_number]
  constructor
  · intro hall
    funext value
    obtain ⟨number, hlt, hnumber⟩ := Assignment.exists_numbered hnodup h.length_lt value
    obtain ⟨ha, hb⟩ := hvalues hnumber
    rw [← ha, ← hb]
    exact hall number hlt
  · intro hsame number _
    obtain ⟨ha, hb⟩ := hvalues fun c => Assignment.get_numbered_of_mem hnodup h.length_lt number
    rw [ha, hb, hsame]

/-- **Equivalence is agreement**: two formulas with fewer than 64 atoms together are equivalent
exactly if they have the same value under every assignment of all their atoms, whatever other atoms
it assigns. So among formulas with so few atoms equivalence is reflexive, symmetric and transitive,
even if their atoms differ, and the connectives respect it. -/
theorem isEquivalent_iff_agree :
    (∀ a b, Comparable a b → (a.isEquivalent b = true ↔ ∀ v : Assignment,
      (∀ c ∈ a.atoms ++ b.atoms, (v.get c).isSome) → a.eval v.get = b.eval v.get))
    ∧ (∀ a, Comparable a a → a.isEquivalent a = true)
    ∧ (∀ a b, Comparable a b → a.isEquivalent b = true → b.isEquivalent a = true)
    ∧ (∀ a b c, Comparable a b → Comparable b c → Comparable a c →
      a.isEquivalent b = true → b.isEquivalent c = true → a.isEquivalent c = true)
    ∧ (∀ a b, Comparable a b → a.isEquivalent b = true → (not a).isEquivalent (not b) = true)
    ∧ ∀ a b c d, Comparable (and a b) (and c d) →
      a.isEquivalent c = true → b.isEquivalent d = true →
        (and a b).isEquivalent (and c d) = true ∧ (or a b).isEquivalent (or c d) = true
        ∧ (imp a b).isEquivalent (imp c d) = true := by
  refine ⟨fun a b h => ?_, fun a h => ?_, fun a b h hab => ?_, fun a b c hab hbc hac h h' => ?_,
    fun a b h hab => ?_, fun a b c d h hac hbd => ?_⟩
  · rw [isEquivalent_iff_truthTable_eq h, forall_assignment_iff_truthTable_eq]
  · exact (isEquivalent_iff_truthTable_eq h).mpr rfl
  · rw [isEquivalent_iff_truthTable_eq h] at hab
    exact (isEquivalent_iff_truthTable_eq h.symm).mpr hab.symm
  · rw [isEquivalent_iff_truthTable_eq hab] at h
    rw [isEquivalent_iff_truthTable_eq hbc] at h'
    exact (isEquivalent_iff_truthTable_eq hac).mpr (h.trans h')
  · rw [isEquivalent_iff_truthTable_eq h] at hab
    have hnot : Comparable (not a) (not b) := h
    exact (isEquivalent_iff_truthTable_eq hnot).mpr
      (funext fun value => congrArg Truth.not (congrFun hab value))
  · rw [isEquivalent_iff_truthTable_eq h.operands.1] at hac
    rw [isEquivalent_iff_truthTable_eq h.operands.2] at hbd
    have hor : Comparable (or a b) (or c d) := h
    have himp : Comparable (imp a b) (imp c d) := h
    rw [isEquivalent_iff_truthTable_eq h, isEquivalent_iff_truthTable_eq hor,
      isEquivalent_iff_truthTable_eq himp]
    exact ⟨funext fun value => congrArg₂ Truth.and (congrFun hac value) (congrFun hbd value),
      funext fun value => congrArg₂ Truth.or (congrFun hac value) (congrFun hbd value),
      funext fun value => congrArg₂ Truth.imp (congrFun hac value) (congrFun hbd value)⟩

/-- Tautologies over different atoms are equivalent, and so are conjunctions of them. -/
theorem isEquivalent_iff_agree_disjoint_atoms :
    Comparable (or (atom 'p') (not (atom 'p'))) (imp (atom 'q') (atom 'q'))
    ∧ (∀ v : Assignment, (∀ c ∈ ['p', 'q'], (v.get c).isSome) →
      (or (atom 'p') (not (atom 'p'))).eval v.get = (imp (atom 'q') (atom 'q')).eval v.get)
    ∧ (or (atom 'p') (not (atom 'p'))).isEquivalent (imp (atom 'r') (atom 'r')) = true
    ∧ (and (or (atom 'p') (not (atom 'p'))) (imp (atom 'q') (atom 'q'))).isEquivalent
      (and (imp (atom 'q') (atom 'q')) (imp (atom 'r') (atom 'r'))) = true := by
  have hpq : (or (atom 'p') (not (atom 'p'))).isEquivalent (imp (atom 'q') (atom 'q')) = true := by
    decide
  have hqr : (imp (atom 'q') (atom 'q')).isEquivalent (imp (atom 'r') (atom 'r')) = true := by
    decide
  obtain ⟨hagree, -, -, htrans, -, hcongr⟩ := isEquivalent_iff_agree
  exact ⟨by decide, (hagree _ _ (by decide)).mp hpq,
    htrans _ _ _ (by decide) (by decide) (by decide) hpq hqr,
    (hcongr _ _ _ _ (by decide) hpq hqr).1⟩

end Clausal.Formula
