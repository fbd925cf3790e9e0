/-
The passes that put a formula into a normal form, in any order.

* `Pass`, `Pass.apply`: removing implications, negation normal form, conjunctive normal form, the
  weakest first;
* `Pass.shape`: the property of formulas that a pass brings about;
* `Pass.apply_eq_self_iff`: a pass changes exactly the formulas without its shape;
* `Pass.apply_apply`: of two passes the stronger one counts;
* `Pass.applyAll_cons`: so of any number of passes the strongest one counts;
* `Formula.shapes_and_passes`: all of it, with the stages of a text.
-/
import Clausal.Proofs.Stages

namespace Clausal

/-- A pass over a formula. -/
inductive Pass where
  | withoutImp
  | nnf
  | cnf
  deriving DecidableEq

namespace Pass

/-- The strength of a pass: a stronger pass brings about the shapes of the weaker ones too. -/
def strength : Pass → ℕ
  | .withoutImp => 0
  | .nnf => 1
  | .cnf => 2

lemma strength_injective : Function.Injective strength := by
  intro p q h
  cases p <;> cases q <;> simp [strength] at h ⊢

/-- Passes are compared by their strength. -/
instance : LinearOrder Pass := LinearOrder.lift' strength strength_injective

/-- The formula after a pass. -/
def apply : Pass → Formula → Formula
  | .withoutImp => Formula.withoutImp
  | .nnf => Formula.nnf
  | .cnf => Formula.cnf

/-- The formula after some passes, one after the other. -/
def applyAll (passes : List Pass) (t : Formula) : Formula := passes.foldl (fun t p => p.apply t) t

/-- Whether a formula has the shape that a pass brings about. -/
def shape : Pass → Formula → Bool
  | .withoutImp => Formula.isImplicationFree
  | .nnf => Formula.isNNF
  | .cnf => Formula.isCNF

variable {p q : Pass} {t : Formula}

lemma shape_apply (p : Pass) (t : Formula) : p.shape (p.apply t) = true := by
  cases p with
  | withoutImp => exact t.isImplicationFree_withoutImp
  | nnf => exact t.isNNF_nnf
  | cnf => exact t.isCNF_cnf

lemma apply_of_shape (h : p.shape t = true) : p.apply t = t := by
  cases p with
  | withoutImp => exact Formula.withoutImp_of_isImplicationFree h
  | nnf => exact Formula.nnf_of_isNNF h
  | cnf => exact Formula.cnf_of_isCNF h

/-- **Fixed points**: a pass changes exactly the formulas without its shape. -/
lemma apply_eq_self_iff : p.apply t = t ↔ p.shape t = true :=
  ⟨fun h => h ▸ p.shape_apply t, apply_of_shape⟩

/-- What has the shape of a pass has the shapes of the weaker ones. -/
lemma shape_of_le (hpq : p ≤ q) (h : q.shape t = true) : p.shape t = true := by
  cases q with
  | withoutImp =>
      cases p with
      | withoutImp => exact h
      | nnf | cnf => exact absurd hpq (by decide)
  | nnf =>
      cases p with
      | withoutImp => exact Formula.isImplicationFree_of_isNNF h
      | nnf => exact h
      | cnf => exact absurd hpq (by decide)
  | cnf =>
      cases p with
      | withoutImp => exact Formula.isImplicationFree_of_isNNF (Formula.isNNF_of_isCNF h)
      | nnf => exact Formula.isNNF_of_isCNF h
      | cnf => exact h

/-- A weaker pass before a stronger one makes no difference. -/
lemma apply_apply_of_lt (hpq : p < q) (t : Formula) : q.apply (p.apply t) = q.apply t := by
  cases q with
  | withoutImp => cases p <;> exact absurd hpq (by decide)
  | nnf =>
      cases p with
      | withoutImp => exact t.nnf_withoutImp
      | nnf | cnf => exact absurd hpq (by decide)
  | cnf =>
      cases p with
      | withoutImp => exact t.cnf_withoutImp
      | nnf => exact t.cnf_nnf
      | cnf => exact absurd hpq (by decide)

/-- **Two passes** in a row are the stronger one alone: before it the other one makes no difference,
and after it there is nothing left for the other one to change. -/
lemma apply_apply (p q : Pass) (t : Formula) : q.apply (p.apply t) = (max p q).apply t := by
  rcases lt_or_ge p q with hpq | hqp
  · rw [apply_apply_of_lt hpq, max_eq_right hpq.le]
  · rw [apply_of_shape (shape_of_le hqp (p.shape_apply t)), max_eq_left hqp]

/-- **Any passes** in a row are the strongest of them alone. -/
lemma applyAll_cons (p : Pass) (passes : List Pass) (t : Formula) :
    applyAll (p :: passes) t = (passes.foldl max p).apply t := by
  induction passes generalizing p t with
  | nil => rfl
  | cons q passes ih =>
      -- the first two passes are one, and the list is shorter
      have hstep : applyAll (p :: q :: passes) t = applyAll (max p q :: passes) t := by
        simp only [applyAll, List.foldl_cons, apply_apply]
      rw [hstep, ih, List.foldl_cons]

end Pass

/-- **Shapes, fixed points and passes**: every formula has the shape of a pass after it, and is left
as it is by the pass exactly if it had the shape before; any passes in a row, at least one, give
what the strongest of them gives alone. So the shorter ways for formulas that have a shape in part
and the stages of a text, which take one pass after the other, give the same normal forms. -/
theorem Formula.shapes_and_passes (t : Formula) :
    (t.withoutImp.isImplicationFree = true ∧ t.nnf.isNNF = true ∧ t.cnf.isCNF = true)
    ∧ (t.withoutImp = t ↔ t.isImplicationFree = true)
    ∧ (t.nnf = t ↔ t.isNNF = true)
    ∧ (t.cnf = t ↔ t.isCNF = true)
    ∧ (∀ p passes, Pass.applyAll (p :: passes) t = (passes.foldl max p).apply t)
    ∧ (t.nnf = t.withoutImp.inward ∧ t.cnf = t.withoutImp.inward.distributed)
    ∧ ∀ r : Reading, r.formula = .ok t → r.implicationFree = .ok t.withoutImp
      ∧ r.nnf = .ok t.nnf ∧ r.cnf none = .ok t.cnf := by
  have hshape : ∀ p : Pass, p.shape (p.apply t) = true := fun p => p.shape_apply t
  have hfixed : ∀ p : Pass, p.apply t = t ↔ p.shape t = true := fun _ => Pass.apply_eq_self_iff
  refine ⟨⟨hshape .withoutImp, hshape .nnf, hshape .cnf⟩, hfixed .withoutImp, hfixed .nnf,
    hfixed .cnf, fun p passes => Pass.applyAll_cons p passes t, ⟨t.nnf_eq_inward, ?_⟩, ?_⟩
  · rw [cnf_eq_distributed, nnf_eq_inward]
  · intro r hr
    exact ⟨Reading.implicationFree_of_formula hr, Reading.nnf_of_formula hr,
      Reading.cnf_of_formula hr⟩

end Clausal
