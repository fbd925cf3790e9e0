/-
The shapes of formulas by the parts that occur in them.

* `Formula.parts`: what stands at the nodes of a formula, each node with all that is below it;
* `Formula.mem_parts_trans`: the parts of a part are parts;
* `Formula.isImplicationFree_iff_parts`, `Formula.isNNF_iff_parts`, `Formula.isClause_iff_parts`,
  `Formula.isCNF_iff_parts`: the shapes as conditions on every part;
* `Formula.shapes_iff_parts`: all of them, each shape with the next weaker one.
-/
import Clausal.Proofs.NormalForm

namespace Clausal.Formula

/-! ### Parts -/

/-- The parts of a formula: the formula itself, then the parts of its operands from left to
right. -/
def parts : Formula → List Formula
  | .atom name => [.atom name]
  | .not a => .not a :: a.parts
  | .and a b => .and a b :: (a.parts ++ b.parts)
  | .or a b => .or a b :: (a.parts ++ b.parts)
  | .imp a b => .imp a b :: (a.parts ++ b.parts)

variable {s t u : Formula}

lemma parts_eq (t : Formula) : t.parts = t :: t.children.flatMap parts := by
  cases t <;> simp [parts, children]

lemma self_mem_parts (t : Formula) : t ∈ t.parts := by
  rw [parts_eq]
  exact List.mem_cons_self

/-- A part of a part is a part. -/
lemma mem_parts_trans (hst : s ∈ t.parts) (htu : t ∈ u.parts) : s ∈ u.parts := by
  induction u with
  | atom name =>
      rw [List.mem_singleton.mp htu] at hst
      exact hst
  | not a ih =>
      rcases List.mem_cons.mp htu with rfl | htu
      · exact hst
      · exact List.mem_cons_of_mem _ (ih htu)
  | and a b iha ihb | or a b iha ihb | imp a b iha ihb =>
      rcases List.mem_cons.mp htu with rfl | htu
      · exact hst
      · refine List.mem_cons_of_mem _ (List.mem_append.mpr ?_)
        exact (List.mem_append.mp htu).imp iha ihb

/-! ### Shapes -/

/-- A formula with two operands has a property with all of its parts as soon as it has the property
itself and the operands have it with all of theirs. -/
lemma forall_mem_pair_iff {P : Formula → Prop} {a b : Formula} (ht : P t) :
    (∀ s ∈ t :: (a.parts ++ b.parts), P s) ↔ (∀ s ∈ a.parts, P s) ∧ ∀ s ∈ b.parts, P s := by
  rw [List.forall_mem_cons, List.forall_mem_append]
  exact and_iff_right ht

lemma isImplicationFree_iff_parts :
    t.isImplicationFree = true ↔ ∀ s ∈ t.parts, s.kind ≠ .imp := by
  induction t with
  | atom name => simp [isImplicationFree, parts, kind]
  | not a ih =>
      rw [isImplicationFree, ih, parts, List.forall_mem_cons]
      exact (and_iff_right (by simp [kind])).symm
  | and a b iha ihb | or a b iha ihb =>
      rw [isImplicationFree, Bool.and_eq_true, iha, ihb, parts,
        forall_mem_pair_iff (by simp [kind])]
  | imp a b =>
      refine iff_of_false Bool.false_ne_true fun h => ?_
      exact h _ (self_mem_parts _) rfl

/-- Whether a formula can be a part of a negation normal form, as far as its outermost symbol
goes. -/
def IsPlain (s : Formula) : Prop := s.kind ≠ .imp ∧ ∀ a, s = .not a → ∃ name, a = .atom name

lemma isNNF_iff_forall_isPlain : t.isNNF = true ↔ ∀ s ∈ t.parts, s.IsPlain := by
  induction t with
  | atom name => simp [isNNF, parts, IsPlain, kind]
  | not a ih =>
      rw [isNNF_not_iff, parts, List.forall_mem_cons]
      constructor
      · rintro ⟨name, rfl⟩
        simp [parts, IsPlain, kind]
      · rintro ⟨⟨-, hoperand⟩, -⟩
        exact hoperand a rfl
  | and a b iha ihb | or a b iha ihb =>
      rw [isNNF, Bool.and_eq_true, iha, ihb, parts,
        forall_mem_pair_iff (by simp [IsPlain, kind])]
  | imp a b =>
      refine iff_of_false Bool.false_ne_true fun h => ?_
      exact (h _ (self_mem_parts _)).1 rfl

/-- Negation normal form: no implication occurs, and every negation that occurs is one of an
atom. -/
lemma isNNF_iff_parts : t.isNNF = true
    ↔ (∀ s ∈ t.parts, s.kind ≠ .imp) ∧ ∀ a, .not a ∈ t.parts → ∃ name, a = .atom name := by
  rw [isNNF_iff_forall_isPlain]
  constructor
  · intro h
    exact ⟨fun s hs => (h s hs).1, fun a ha => (h _ ha).2 a rfl⟩
  · rintro ⟨himp, hnot⟩ s hs
    refine ⟨himp s hs, ?_⟩
    rintro a rfl
    exact hnot a hs

lemma isClause_of_isLiteral (h : t.isLiteral = true) : t.isClause = true := by
  cases t with
  | atom | not => exact h
  | and | or | imp => cases h

lemma isCNF_of_isClause (h : t.isClause = true) : t.isCNF = true := by
  cases t with
  | atom | not | or => exact h
  | and | imp => cases h

/-- A negated formula in negation normal form has the parts of a literal. -/
lemma forall_mem_parts_not (h : (Formula.not t).isNNF = true) :
    ∀ s ∈ (Formula.not t).parts, s.kind ≠ .and ∧ s.kind ≠ .or := by
  obtain ⟨name, rfl⟩ := isNNF_not_iff.mp h
  simp [parts, kind]

/-- A clause: negation normal form in which no conjunction occurs. -/
lemma isClause_iff_parts :
    t.isClause = true ↔ t.isNNF = true ∧ ∀ s ∈ t.parts, s.kind ≠ .and := by
  induction t with
  | atom name => simp [isClause, isLiteral, isNNF, parts, kind]
  | not a =>
      refine (and_iff_left_of_imp fun h s hs => ?_).symm
      exact (forall_mem_parts_not h s hs).1
  | or a b iha ihb =>
      rw [isClause, isNNF, Bool.and_eq_true, Bool.and_eq_true, iha, ihb, parts,
        forall_mem_pair_iff (by simp [kind])]
      exact and_and_and_comm
  | and a b =>
      refine iff_of_false Bool.false_ne_true fun h => ?_
      exact h.2 _ (self_mem_parts _) rfl
  | imp a b => exact iff_of_false Bool.false_ne_true fun h => Bool.false_ne_true h.1

/-- Conjunctive normal form: negation normal form in which no conjunction occurs below a
disjunction. -/
lemma isCNF_iff_parts : t.isCNF = true ↔ t.isNNF = true
    ∧ ∀ s ∈ t.parts, s.kind = .or → ∀ u ∈ s.parts, u.kind ≠ .and := by
  induction t with
  | atom name => simp [isCNF, isClause, isLiteral, isNNF, parts, kind]
  | not a =>
      refine (and_iff_left_of_imp fun h s hs hor => ?_).symm
      exact absurd hor (forall_mem_parts_not h s hs).2
  | and a b iha ihb =>
      rw [isCNF, isNNF, Bool.and_eq_true, Bool.and_eq_true, iha, ihb, parts,
        forall_mem_pair_iff (by simp [kind])]
      exact and_and_and_comm
  | or a b =>
      -- the disjunction itself is the highest one, and every other one is a part of it
      have hclause : (Formula.or a b).isCNF = (Formula.or a b).isClause := rfl
      rw [hclause, isClause_iff_parts]
      refine and_congr_right fun _ => ⟨fun h s hs _ u hu => ?_, fun h => ?_⟩
      · exact h u (mem_parts_trans hu hs)
      · exact h _ (self_mem_parts _) rfl
  | imp a b => exact iff_of_false Bool.false_ne_true fun h => Bool.false_ne_true h.1

/-- **The shapes** say what their names say, of all parts of a formula: in negation normal form no
implication occurs and only atoms are negated; a clause is in that form and has no conjunction; in
conjunctive normal form no conjunction is below a disjunction. So each shape implies the next. -/
theorem shapes_iff_parts (t : Formula) :
    (t.isNNF = true
      ↔ (∀ s ∈ t.parts, s.kind ≠ .imp) ∧ ∀ a, .not a ∈ t.parts → ∃ name, a = .atom name)
    ∧ (t.isClause = true ↔ t.isNNF = true ∧ ∀ s ∈ t.parts, s.kind ≠ .and)
    ∧ (t.isCNF = true
      ↔ t.isNNF = true ∧ ∀ s ∈ t.parts, s.kind = .or → ∀ u ∈ s.parts, u.kind ≠ .and)
    ∧ (t.isImplicationFree = true ↔ ∀ s ∈ t.parts, s.kind ≠ .imp)
    ∧ (t.isLiteral = true → t.isClause = true) ∧ (t.isClause = true → t.isCNF = true)
    ∧ (t.isCNF = true → t.isNNF = true) ∧ (t.isNNF = true → t.isImplicationFree = true) :=
  ⟨isNNF_iff_parts, isClause_iff_parts, isCNF_iff_parts, isImplicationFree_iff_parts,
    isClause_of_isLiteral, isCNF_of_isClause, isNNF_of_isCNF, isImplicationFree_of_isNNF⟩

/-- A disjunction below a conjunction, and a conjunction below a disjunction. -/
example : (Formula.and (.atom 'p') (.or (.atom 'q') (.not (.atom 'r')))).isCNF = true
    ∧ (Formula.or (.atom 'p') (.and (.atom 'q') (.not (.atom 'r')))).isCNF = false := by decide

end Clausal.Formula
