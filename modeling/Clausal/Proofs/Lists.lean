/-
Lists: repetitions, beginnings, pieces and loops.

* `nodup_eraseDups`, `eraseDups_of_nodup`: a list without its later copies has no repetition, and a
  list without repetition has no later copies;
* `append_eraseDups_filter_append`: what is new in two lists, in order of first occurrence;
* `forall_prefix_cons_iff`: the beginnings of a list with a first element;
* `exists_splitOn_eq_concat`, `splitOn_append_of_not_mem`: the last and the first piece of a list that
  is cut at a separator;
* `splitOn_flatMap`: splitting at a separator goes along with replacing the elements one by one,
  if the separator alone is replaced by the new separator;
* `foldl_range'_induction`: the invariant of a loop.
-/
import Mathlib.Tactic

namespace Clausal

variable {α β : Type}

/-! ### Repetitions -/

section Repetitions

variable [BEq α] [LawfulBEq α]

/-- Dropping later copies leaves no repetition. -/
lemma nodup_eraseDups (xs : List α) : xs.eraseDups.Nodup := by
  cases xs with
  | nil => simp
  | cons x xs =>
      rw [List.eraseDups_cons, List.nodup_cons]
      exact ⟨by simp [List.mem_eraseDups], nodup_eraseDups _⟩
termination_by xs.length
decreasing_by exact Nat.lt_succ_of_le (List.length_filter_le _ _)

/-- A list without repetition has no later copies to drop. -/
lemma eraseDups_of_nodup {xs : List α} (h : xs.Nodup) : xs.eraseDups = xs := by
  induction xs with
  | nil => rfl
  | cons x xs ih =>
      obtain ⟨hx, hxs⟩ := List.nodup_cons.mp h
      have hkeep : xs.filter (fun y => !y == x) = xs := by
        refine List.filter_eq_self.mpr fun y hy => ?_
        have hne : y ≠ x := fun heq => hx (heq ▸ hy)
        simpa using hne
      rw [List.eraseDups_cons, hkeep, ih hxs]

end Repetitions

/-- Adding what is new in one list and then in another adds what is new in both together. -/
lemma append_eraseDups_filter_append [DecidableEq α] (known us vs : List α) :
    known ++ ((us ++ vs).filter (· ∉ known)).eraseDups
      = (known ++ (us.filter (· ∉ known)).eraseDups)
        ++ (vs.filter (· ∉ known ++ (us.filter (· ∉ known)).eraseDups)).eraseDups := by
  have hrest : (vs.filter (· ∉ known)).removeAll (us.filter (· ∉ known))
      = vs.filter (· ∉ known ++ (us.filter (· ∉ known)).eraseDups) := by
    rw [List.removeAll, List.filter_filter]
    refine List.filter_congr fun x _ => ?_
    by_cases hx : x ∈ known <;> simp [List.mem_eraseDups, hx]
  rw [List.filter_append, List.eraseDups_append, hrest, List.append_assoc]

/-! ### Beginnings -/

/-- What holds of all beginnings of a list with a first element holds of the empty one and, after
that element, of all beginnings of the rest. -/
lemma forall_prefix_cons_iff {P : List α → Prop} {x : α} {xs : List α} :
    (∀ p, p <+: x :: xs → P p) ↔ P [] ∧ ∀ p, p <+: xs → P (x :: p) := by
  constructor
  · intro h
    exact ⟨h [] List.nil_prefix, fun p hp => h _ (List.cons_prefix_cons.mpr ⟨rfl, hp⟩)⟩
  · rintro ⟨hnil, hcons⟩ p hp
    rcases List.prefix_cons_iff.mp hp with rfl | ⟨q, rfl, hq⟩
    · exact hnil
    · exact hcons q hq

/-! ### Pieces -/

section Pieces

/-- There is always a last piece. -/
lemma exists_splitOn_eq_concat [BEq α] (a : α) (xs : List α) :
    ∃ pieces last, xs.splitOn a = pieces ++ [last] :=
  (List.eq_nil_or_concat' (xs.splitOn a)).resolve_left (List.splitOn_ne_nil a xs)

variable [BEq α] [LawfulBEq α] [BEq β] [LawfulBEq β]

/-- What comes before the first separator belongs to the first piece. -/
lemma splitOn_append_of_not_mem {a : α} {xs : List α} (h : a ∉ xs) (ys : List α) :
    (xs ++ ys).splitOn a = (ys.splitOn a).modifyHead (xs ++ ·) := by
  induction xs with
  | nil =>
      obtain ⟨piece, pieces, hpieces⟩ := List.exists_cons_of_ne_nil (List.splitOn_ne_nil a ys)
      rw [List.nil_append, hpieces]
      rfl
  | cons x xs ih =>
      obtain ⟨hx, hxs⟩ := not_or.mp (mt List.mem_cons.mpr h)
      have hne : (x == a) = false := beq_eq_false_iff_ne.mpr (Ne.symm hx)
      rw [List.cons_append, List.splitOn_cons_eq_if_modifyHead, hne, ih hxs,
        List.modifyHead_modifyHead]
      rfl

/-- **Splitting and replacing**: where the separator, and nothing else, gives the new separator, the
pieces are those of the elements with each element replaced. -/
lemma splitOn_flatMap {a : α} {b : β} {f : α → List β} (hsep : f a = [b])
    (hother : ∀ c, c ≠ a → b ∉ f c) (cs : List α) :
    (cs.flatMap f).splitOn b = (cs.splitOn a).map fun piece => piece.flatMap f := by
  induction cs with
  | nil => simp
  | cons c cs ih =>
      rw [List.flatMap_cons, List.splitOn_cons_eq_if_modifyHead]
      by_cases hc : c = a
      · subst hc
        rw [hsep, List.singleton_append, List.splitOn_cons_eq_if_modifyHead, ih]
        simp
      · obtain ⟨piece, pieces, hpieces⟩ := List.exists_cons_of_ne_nil (List.splitOn_ne_nil a cs)
        rw [splitOn_append_of_not_mem (hother c hc), ih, if_neg (by simpa using hc), hpieces]
        rfl

end Pieces

/-! ### Loops -/

/-- An invariant of a loop over consecutive numbers. -/
lemma foldl_range'_induction {P : ℕ → α → Prop} {f : α → ℕ → α} {start count : ℕ} {s : α}
    (h : P start s)
    (hstep : ∀ m s, start ≤ m → m < start + count → P m s → P (m + 1) (f s m)) :
    P (start + count) ((List.range' start count).foldl f s) := by
  induction count with
  | zero => exact h
  | succ count ih =>
      rw [List.range'_1_concat, List.foldl_append]
      have hbefore := ih fun m s hm hm' => hstep m s hm (by omega)
      exact hstep (start + count) _ (by omega) (by omega) hbefore

end Clausal
