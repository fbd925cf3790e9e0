/-
Recursions and the calls that they make.

* `Recursion.Body`, `Recursion`: what is computed for an argument, with the calls on other arguments
  left open;
* `Recursion.Body.run`, `Recursion.Body.calls`: its result and the arguments of its calls in order,
  given the results of calls;
* `Recursion.Halts`: no chain of calls goes on for ever;
* `Recursion.within`: the results that are reached with so many arguments in progress at a time;
* `Recursion.avoiding`: the same recursion, stuck at arguments of one kind;
* `Recursion.IsSolvedBy.within_eq`: **a solution is reached**: where a function satisfies the
  equations of a recursion and the calls go down in a measure, the recursion has the results of the
  function with no more arguments in progress than the measure.
-/
import Mathlib.Tactic

namespace Clausal

/-- What a recursion computes for one argument: a result, nothing at all, or a call on another
argument with what follows from its result. -/
inductive Recursion.Body (α β : Type) where
  | done (result : β)
  | stuck
  | call (argument : α) (next : β → Recursion.Body α β)

/-- A recursion, as what it computes for each argument. -/
abbrev Recursion (α β : Type) := α → Recursion.Body α β

namespace Recursion

variable {α β : Type}

namespace Body

/-- The result of a body, given the results of its calls. -/
def run (results : α → Option β) : Body α β → Option β
  | done result => some result
  | stuck => none
  | call argument next => (results argument).bind fun result => (next result).run results

/-- The arguments of the calls that a body makes, in order, given their results. -/
def calls (results : α → β) : Body α β → List α
  | done _ | stuck => []
  | call argument next => argument :: (next (results argument)).calls results

/-- A body looks at the results of its calls only. -/
lemma run_congr {b : Body α β} {results : α → Option β} {g : α → β}
    (h : ∀ y ∈ b.calls g, results y = some (g y)) : b.run results = b.run (some ∘ g) := by
  induction b with
  | done | stuck => rfl
  | call argument next ih =>
      rw [calls, List.forall_mem_cons] at h
      rw [run, run, h.1]
      exact ih _ h.2

end Body

variable {r : Recursion α β} {g : α → β} {m : α → ℕ} {P : α → Prop} {x : α}

/-! ### Chains of calls -/

/-- No chain of calls of a recursion goes on for ever, whatever the results of the calls. -/
def Halts (r : Recursion α β) : Prop := WellFounded fun y x => ∃ results, y ∈ (r x).calls results

lemma halts_of_measure (m : α → ℕ) (h : ∀ x results, ∀ y ∈ (r x).calls results, m y < m x) :
    r.Halts :=
  Subrelation.wf (fun ⟨results, hy⟩ => h _ results _ hy) (measure m).wf

/-! ### Nested calls -/

/-- The result that a recursion reaches with at most so many arguments in progress at a time, each
but the first one called from the one before. -/
def within (r : Recursion α β) : ℕ → α → Option β
  | 0, _ => none
  | depth + 1, x => (r x).run (r.within depth)

/-- The recursion that gets stuck at some arguments. -/
def avoiding (p : α → Bool) (r : Recursion α β) : Recursion α β := fun x =>
  if p x then .stuck else r x

/-- On the arguments with a property, a function satisfies the equations of a recursion, and its
calls keep the property and go down in a measure that is never zero. -/
structure IsSolvedBy (r : Recursion α β) (g : α → β) (m : α → ℕ) (P : α → Prop) : Prop where
  pos : ∀ x, P x → 0 < m x
  run_eq : ∀ x, P x → (r x).run (some ∘ g) = some (g x)
  calls : ∀ x, P x → ∀ y ∈ (r x).calls g, P y ∧ m y < m x

/-- **A solution is reached**, with no more arguments in progress at a time than the measure. -/
lemma IsSolvedBy.within_eq (h : r.IsSolvedBy g m P) {depth : ℕ} (hx : P x) (hdepth : m x ≤ depth) :
    r.within depth x = some (g x) := by
  -- On the depth, which the recursion counts down itself; the measure only has to fit into it.
  induction depth generalizing x with
  | zero =>
      have hpos := h.pos x hx
      omega
  | succ depth ih =>
      have hcalls : ∀ y ∈ (r x).calls g, r.within depth y = some (g y) := by
        intro y hy
        obtain ⟨hP, hlt⟩ := h.calls x hx y hy
        exact ih hP (by omega)
      rw [within, Body.run_congr hcalls, h.run_eq x hx]

/-- The solution on fewer arguments, if no call leads out of them. -/
lemma IsSolvedBy.restrict (h : r.IsSolvedBy g m P) {Q : α → Prop} (hsub : ∀ x, Q x → P x)
    (hcalls : ∀ x, Q x → ∀ y ∈ (r x).calls g, Q y) : r.IsSolvedBy g m Q :=
  ⟨fun x hx => h.pos x (hsub x hx), fun x hx => h.run_eq x (hsub x hx),
    fun x hx y hy => ⟨hcalls x hx y hy, (h.calls x (hsub x hx) y hy).2⟩⟩

/-- A recursion that gets stuck nowhere within the property has the same solution. -/
lemma IsSolvedBy.avoiding (h : r.IsSolvedBy g m P) {p : α → Bool} (hp : ∀ x, P x → p x = false) :
    (r.avoiding p).IsSolvedBy g m P := by
  have hsame (x : α) (hx : P x) : r.avoiding p x = r x := by
    rw [Recursion.avoiding, hp x hx]
    rfl
  refine ⟨h.pos, fun x hx => ?_, fun x hx => ?_⟩
  · rw [hsame x hx, h.run_eq x hx]
  · rw [hsame x hx]
    exact h.calls x hx

end Recursion

end Clausal
