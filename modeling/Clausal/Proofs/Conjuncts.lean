/-
The conjuncts of a formula.

* `Formula.conjuncts`: what the outermost conjunctions of a formula join, from left to right;
* `Formula.conjuncts_disjoin`: the conjuncts of a distributed disjunction are the disjunctions of a
  conjunct on the left with one on the right, the left one varying slowest;
* `Formula.isCNF_iff_forall_conjuncts`: conjunctive normal form means that the conjuncts are
  clauses;
* `Formula.isCNF_disjoin_iff`: distributing a disjunction neither makes nor spoils that form.
-/
import Mathlib.Tactic
import Clausal.Formula.Distribution

namespace Clausal.Formula

/-- The maximal parts of a formula that are no conjunctions, from left to right. -/
def conjuncts : Formula → List Formula
  | .and a b => a.conjuncts ++ b.conjuncts
  | t => [t]

variable {t a b : Formula}

lemma conjuncts_ne_nil (t : Formula) : t.conjuncts ≠ [] := by
  induction t with
  | and a b iha _ => simp [conjuncts, iha]
  | _ => simp [conjuncts]

lemma length_conjuncts_pos (t : Formula) : 0 < t.conjuncts.length :=
  List.length_pos_iff.mpr t.conjuncts_ne_nil

/-! ### Distributed disjunctions -/

lemma conjuncts_disjoinRight (a b : Formula) :
    (disjoinRight a b).conjuncts = b.conjuncts.map (Formula.or a) := by
  induction b with
  | and b c ihb ihc => simp only [disjoinRight, conjuncts, ihb, ihc, List.map_append]
  | _ => rfl

/-- **The product of the conjuncts**: a distributed disjunction joins each conjunct on the left with
each one on the right. -/
lemma conjuncts_disjoin (a b : Formula) :
    (disjoin a b).conjuncts = a.conjuncts.flatMap fun x => b.conjuncts.map (Formula.or x) := by
  induction a with
  | and a c iha ihc => simp only [disjoin, conjuncts, iha, ihc, List.flatMap_append]
  | _ => simp only [disjoin, conjuncts, conjuncts_disjoinRight, List.flatMap_singleton]

lemma length_conjuncts_disjoin (a b : Formula) :
    (disjoin a b).conjuncts.length = a.conjuncts.length * b.conjuncts.length := by
  simp [conjuncts_disjoin, List.length_flatMap]

/-! ### Clauses -/

lemma isCNF_iff_forall_conjuncts :
    t.isCNF = true ↔ ∀ s ∈ t.conjuncts, s.isClause = true := by
  induction t with
  | and a b iha ihb =>
      rw [isCNF, Bool.and_eq_true, iha, ihb, conjuncts, List.forall_mem_append]
  | _ => simp only [isCNF, conjuncts, List.forall_mem_singleton]

lemma isCNF_disjoin_iff : (disjoin a b).isCNF = true ↔ a.isCNF = true ∧ b.isCNF = true := by
  obtain ⟨x, hx⟩ := List.exists_mem_of_ne_nil _ a.conjuncts_ne_nil
  obtain ⟨y, hy⟩ := List.exists_mem_of_ne_nil _ b.conjuncts_ne_nil
  simp only [isCNF_iff_forall_conjuncts, conjuncts_disjoin, List.mem_flatMap, List.mem_map]
  constructor
  · intro h
    have hclause : ∀ x ∈ a.conjuncts, ∀ y ∈ b.conjuncts, (Formula.or x y).isClause = true :=
      fun x hx y hy => h _ ⟨x, hx, y, hy, rfl⟩
    simp only [isClause, Bool.and_eq_true] at hclause
    exact ⟨fun s hs => (hclause s hs y hy).1, fun s hs => (hclause x hx s hs).2⟩
  · rintro ⟨ha, hb⟩ _ ⟨x, hx, y, hy, rfl⟩
    rw [isClause, ha x hx, hb y hy, Bool.and_self]

end Clausal.Formula
