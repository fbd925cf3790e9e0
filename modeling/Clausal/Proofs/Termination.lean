/-
The recursions of the normal forms come to an end.

* `Formula.inwardRecursion`, `Formula.disjoinRecursion`, `Formula.cnfRecursion`,
  `Formula.clauseCountRecursion`: moving negations inward, distributing a disjunction, the
  conjunctive normal form and the number of its clauses, as recursions that go on with formulas made
  on the way;
* `Formula.isConverted`: the formulas whose clauses are counted in their negation normal form;
* `Formula.isSolvedBy_inward`, `Formula.isSolvedBy_disjoin`, `Formula.isSolvedBy_cnf`,
  `Formula.isSolvedBy_clauseCount`: what they compute, and the measure that their calls go down in;
* `Formula.recursions_halt`: so **every recursion halts**, and with which calls.
-/
import Clausal.Proofs.Clauses
import Clausal.Proofs.Parts
import Clausal.Proofs.Recursion

namespace Clausal.Formula

open Recursion (halts_of_measure)

variable {a b s t : Formula}

lemma size_pos (t : Formula) : 0 < t.size := by
  cases t <;> simp only [size] <;> omega

/-! ### Negations moved inward -/

/-- Moving negations inward, as a recursion: a negated pair goes on with its negated operands, and
there is no way to go on from an implication. -/
def inwardRecursion : Recursion Formula Formula
  | .atom name => .done (.atom name)
  | .and a b => .call a fun s => .call b fun t => .done (.and s t)
  | .or a b => .call a fun s => .call b fun t => .done (.or s t)
  | .not (.atom name) => .done (.not (.atom name))
  | .not (.not a) => .call a .done
  | .not (.and a b) => .call (.not a) fun s => .call (.not b) fun t => .done (.or s t)
  | .not (.or a b) => .call (.not a) fun s => .call (.not b) fun t => .done (.and s t)
  | .not (.imp _ _) | .imp _ _ => .stuck

/-- A call is on a smaller formula: a negated operand makes up for its negation by the operand that
it is short of. No call makes an implication. -/
lemma mem_calls_inward {results : Formula → Formula}
    (h : s ∈ (inwardRecursion t).calls results) :
    s.size < t.size ∧ (t.isImplicationFree = true → s.isImplicationFree = true) := by
  induction t using inward_induction with
  | atom | not_atom | not_imp | imp => cases h
  | not_not a =>
      obtain rfl := List.mem_singleton.mp h
      refine ⟨?_, id⟩
      simp only [size]
      omega
  | not_and a b | not_or a b =>
      have ha := a.size_pos
      have hb := b.size_pos
      simp only [size, isImplicationFree, Bool.and_eq_true]
      rcases List.mem_pair.mp h with rfl | rfl
      · exact ⟨by simp only [size]; omega, And.left⟩
      · exact ⟨by simp only [size]; omega, And.right⟩
  | and a b | or a b =>
      simp only [size, isImplicationFree, Bool.and_eq_true]
      rcases List.mem_pair.mp h with rfl | rfl
      · exact ⟨by omega, And.left⟩
      · exact ⟨by omega, And.right⟩

lemma halts_inwardRecursion : inwardRecursion.Halts :=
  halts_of_measure size fun _ _ _ hs => (mem_calls_inward hs).1

/-- Without implications, negations are moved inward by calls on ever smaller formulas. -/
lemma isSolvedBy_inward :
    inwardRecursion.IsSolvedBy inward size fun t => t.isImplicationFree = true where
  pos t _ := t.size_pos
  run_eq t ht := by
    induction t using inward_induction with
    | not_imp | imp => cases ht
    | _ => rw [inward]; rfl
  calls _ ht _ hs := ⟨(mem_calls_inward hs).2 ht, (mem_calls_inward hs).1⟩

/-! ### Distribution -/

/-- The disjunction of two formulas, distributed over the conjunctions of the left and then over
those of the right, as a recursion on pairs. -/
def disjoinRecursion : Recursion (Formula × Formula) Formula := fun (left, right) =>
  match left with
  | .and a b => .call (a, right) fun s => .call (b, right) fun t => .done (.and s t)
  | left => match right with
    | .and a b => .call (left, a) fun s => .call (left, b) fun t => .done (.and s t)
    | right => .done (.or left right)

/-- One of the two formulas is kept, and a conjunction in the place of the other gives way to each of
its operands. -/
lemma calls_disjoin (a b : Formula) (results : Formula × Formula → Formula) :
    (disjoinRecursion (a, b)).calls results
      = if a.kind = .and then a.children.map fun c => (c, b)
        else if b.kind = .and then b.children.map fun c => (a, c) else [] := by
  cases a with
  | and => rfl
  | atom | not | or | imp => cases b <;> rfl

/-- The number of nodes of a pair. -/
def pairSize (p : Formula × Formula) : ℕ := p.1.size + p.2.size

lemma size_lt_of_mem_children (h : s ∈ t.children) : s.size < t.size := by
  cases t with
  | atom => cases h
  | not a =>
      rw [List.mem_singleton.mp h]
      simp only [size]
      omega
  | and a b | or a b | imp a b =>
      rcases List.mem_pair.mp h with rfl | rfl <;> simp only [size] <;> omega

lemma pairSize_lt_of_mem_calls {p q : Formula × Formula} {results : Formula × Formula → Formula}
    (h : q ∈ (disjoinRecursion p).calls results) : pairSize q < pairSize p := by
  obtain ⟨a, b⟩ := p
  rw [calls_disjoin] at h
  split_ifs at h with ha hb
  · obtain ⟨c, hc, rfl⟩ := List.mem_map.mp h
    exact Nat.add_lt_add_right (size_lt_of_mem_children hc) b.size
  · obtain ⟨c, hc, rfl⟩ := List.mem_map.mp h
    exact Nat.add_lt_add_left (size_lt_of_mem_children hc) a.size
  · cases h

lemma halts_disjoinRecursion : disjoinRecursion.Halts :=
  halts_of_measure pairSize fun _ _ _ hq => pairSize_lt_of_mem_calls hq

/-- Any two formulas are distributed, the pairs growing ever smaller together. -/
lemma isSolvedBy_disjoin :
    disjoinRecursion.IsSolvedBy (fun p => disjoin p.1 p.2) pairSize fun _ => True where
  pos p _ := Nat.add_pos_left p.1.size_pos p.2.size
  run_eq := by
    rintro ⟨a, b⟩ -
    cases a with
    | and => rfl
    | atom | not | or | imp => cases b <;> rfl
  calls _ _ _ hq := ⟨trivial, pairSize_lt_of_mem_calls hq⟩

/-! ### Conjunctive normal form -/

/-- The conjunctive normal form, as a recursion: a formula that is not in negation normal form is put
into it, and then everything starts again. -/
def cnfRecursion : Recursion Formula Formula := fun t =>
  if t.isNNF then .done t.distributed else .call t.nnf .done

lemma calls_cnf (t : Formula) (results : Formula → Formula) :
    (cnfRecursion t).calls results = if t.isNNF then [] else [t.nnf] := by
  rw [cnfRecursion]
  split <;> rfl

/-- The number of times that the conjunctive normal form is started. -/
def cnfStarts (t : Formula) : ℕ := if t.isNNF then 1 else 2

lemma cnfStarts_le_two (t : Formula) : t.cnfStarts ≤ 2 := by
  rw [cnfStarts]
  split <;> decide

/-- After the first call the formula is in negation normal form. -/
lemma cnfStarts_lt_of_mem_calls {results : Formula → Formula}
    (h : s ∈ (cnfRecursion t).calls results) : cnfStarts s < cnfStarts t := by
  rw [calls_cnf] at h
  split_ifs at h with ht
  · cases h
  · rw [List.mem_singleton.mp h, cnfStarts, cnfStarts, if_pos t.isNNF_nnf, if_neg ht]
    decide

lemma halts_cnfRecursion : cnfRecursion.Halts :=
  halts_of_measure cnfStarts fun _ _ _ hs => cnfStarts_lt_of_mem_calls hs

lemma isSolvedBy_cnf : cnfRecursion.IsSolvedBy cnf cnfStarts fun _ => True where
  pos t _ := by
    rw [cnfStarts]
    split <;> decide
  run_eq t _ := by
    rw [cnfRecursion]
    split
    · next h => rw [cnf, if_pos h]; rfl
    · exact congrArg some t.cnf_nnf
  calls _ _ _ hs := ⟨trivial, cnfStarts_lt_of_mem_calls hs⟩

/-! ### The number of clauses -/

/-- The number of clauses, as a recursion: the count goes on from negations of anything but an atom
and from implications with their negation normal form. -/
def clauseCountRecursion : Recursion Formula ℕ
  | .and a b => .call a fun m => .call b fun n => .done (capped (m + n))
  | .or a b => .call a fun m => .call b fun n => .done (capped (m * n))
  | .atom _ => .done 1
  | .not a => if (Formula.not a).isLiteral then .done 1 else .call (nnf (.not a)) .done
  | .imp a b => .call (nnf (.imp a b)) .done

/-- An implication, or a negation of anything but an atom: the clauses of such a formula are counted
in its negation normal form. -/
def isConverted : Formula → Bool
  | .not a => !(Formula.not a).isLiteral
  | .imp _ _ => true
  | _ => false

lemma calls_clauseCount (t : Formula) (results : Formula → ℕ) :
    (clauseCountRecursion t).calls results
      = if t.isConverted then [t.nnf] else if t.isLiteral then [] else t.children := by
  cases t with
  | not a =>
      rw [clauseCountRecursion, isConverted]
      cases (Formula.not a).isLiteral <;> rfl
  | _ => rfl

lemma isNNF_of_mem_children (ht : t.isNNF = true) (h : s ∈ t.children) : s.isNNF = true := by
  cases t with
  | atom => cases h
  | not a =>
      obtain ⟨name, rfl⟩ := isNNF_not_iff.mp ht
      rw [List.mem_singleton.mp h]
      rfl
  | and a b | or a b =>
      obtain ⟨ha, hb⟩ := Bool.and_eq_true_iff.mp ht
      rcases List.mem_pair.mp h with rfl | rfl
      · exact ha
      · exact hb
  | imp => cases ht

/-- Nothing below a negation normal form has to be put into it. -/
lemma isConverted_of_isNNF (h : t.isNNF = true) : ∀ s ∈ t.parts, s.isConverted = false := by
  intro s hs
  obtain ⟨himp, hnot⟩ := isNNF_iff_forall_isPlain.mp h s hs
  cases s with
  | not a =>
      obtain ⟨name, rfl⟩ := hnot a rfl
      rfl
  | imp => exact absurd rfl himp
  | _ => rfl

lemma nnf_mem_children (ht : ¬ t.isConverted = true) (h : s ∈ t.children) :
    s.nnf ∈ t.nnf.children := by
  cases t with
  | atom => cases h
  | not a =>
      have hliteral : (Formula.not a).isLiteral = true := by simpa [isConverted] using ht
      obtain ⟨name, rfl⟩ := isNNF_not_iff.mp hliteral
      rw [List.mem_singleton.mp h, nnf_of_isNNF rfl, nnf_of_isNNF rfl]
      exact List.mem_cons_self
  | and a b | or a b =>
      rcases List.mem_pair.mp h with rfl | rfl <;> simp [nnf_and, nnf_or, children]
  | imp => exact absurd rfl ht

/-- The nodes of a formula, and in addition those of its negation normal form unless it is in it. -/
def countSize (t : Formula) : ℕ := if t.isNNF then t.size else t.size + t.nnf.size

lemma countSize_of_isNNF (h : t.isNNF = true) : t.countSize = t.size := if_pos h

lemma countSize_le (t : Formula) : t.countSize ≤ t.size + t.nnf.size := by
  rw [countSize]
  split <;> omega

/-- Operands are counted with fewer nodes than the pair, since their negation normal forms are the
operands of its own. -/
lemma countSize_lt_of_mem_calls {results : Formula → ℕ}
    (h : s ∈ (clauseCountRecursion t).calls results) : s.countSize < t.countSize := by
  rw [calls_clauseCount] at h
  -- The first case may go on with a larger formula; the nodes added for it pay for that.
  split_ifs at h with hconverted hliteral
  · have ht : ¬ t.isNNF = true := fun ht => by
      rw [isConverted_of_isNNF ht t t.self_mem_parts] at hconverted
      cases hconverted
    have hpos := t.size_pos
    have hcount : t.countSize = t.size + t.nnf.size := if_neg ht
    rw [List.mem_singleton.mp h, countSize_of_isNNF t.isNNF_nnf, hcount]
    omega
  · cases h
  · have hsize := size_lt_of_mem_children h
    by_cases ht : t.isNNF = true
    · rwa [countSize_of_isNNF ht, countSize_of_isNNF (isNNF_of_mem_children ht h)]
    · have hnnf := size_lt_of_mem_children (nnf_mem_children hconverted h)
      have hle := s.countSize_le
      have hcount : t.countSize = t.size + t.nnf.size := if_neg ht
      omega

lemma halts_clauseCountRecursion : clauseCountRecursion.Halts :=
  halts_of_measure countSize fun _ _ _ hs => countSize_lt_of_mem_calls hs

lemma isSolvedBy_clauseCount :
    clauseCountRecursion.IsSolvedBy clauseCount countSize fun _ => True where
  pos t _ := by
    have hpos := t.size_pos
    rw [countSize]
    split <;> omega
  run_eq t _ := by
    cases t with
    | not a =>
        rw [clauseCountRecursion]
        split
        · next h =>
            have hnnf : (Formula.not a).nnf = .not a := nnf_of_isNNF h
            rw [clauseCount, hnnf]
            rfl
        · exact congrArg some (clauseCount_nnf (.not a))
    | imp a b => exact congrArg some (clauseCount_nnf (.imp a b))
    | _ => rfl
  calls _ _ _ hs := ⟨trivial, countSize_lt_of_mem_calls hs⟩

lemma isNNF_of_mem_calls {results : Formula → ℕ} (ht : t.isNNF = true)
    (h : s ∈ (clauseCountRecursion t).calls results) : s.isNNF = true := by
  rw [calls_clauseCount, isConverted_of_isNNF ht t t.self_mem_parts,
    if_neg Bool.false_ne_true] at h
  split_ifs at h
  · cases h
  · exact isNNF_of_mem_children ht h

/-- From a negation normal form on, the count never asks for another one. -/
lemma isSolvedBy_clauseCount_avoiding :
    (clauseCountRecursion.avoiding isConverted).IsSolvedBy clauseCount countSize
      fun t => t.isNNF = true := by
  have hsolved : clauseCountRecursion.IsSolvedBy clauseCount countSize fun t => t.isNNF = true :=
    isSolvedBy_clauseCount.restrict (fun _ _ => trivial) fun _ ht _ hs => isNNF_of_mem_calls ht hs
  exact hsolved.avoiding fun t ht => isConverted_of_isNNF ht t t.self_mem_parts

/-! ### All four -/

/-- **Every recursion halts**, though it goes on with formulas that are made on the way, and reaches
the result of the function that it is for.

The conjunctive normal form starts again at most once, on the negation normal form, where it makes no
further call. The count of clauses goes on with the negation normal form from a negation of anything
but an atom and from an implication only, and after that nothing that it meets has to be put into
negation normal form. Negations are moved inward by calls on smaller formulas, the negated operands
of a negated pair among them. Distribution keeps one of two formulas and takes the operands of the
other. -/
theorem recursions_halt :
    (cnfRecursion.Halts ∧ ∀ t : Formula,
      (∀ results, (cnfRecursion t).calls results = if t.isNNF then [] else [t.nnf])
      ∧ (∀ results, (cnfRecursion t.nnf).calls results = [])
      ∧ cnfRecursion.within 2 t = some t.cnf)
    ∧ (clauseCountRecursion.Halts ∧ ∀ t : Formula,
      (∀ results, (clauseCountRecursion t).calls results
        = if t.isConverted then [t.nnf] else if t.isLiteral then [] else t.children)
      ∧ (∀ s ∈ t.nnf.parts, s.isConverted = false)
      ∧ (clauseCountRecursion.avoiding isConverted).within t.nnf.size t.nnf = some t.clauseCount
      ∧ clauseCountRecursion.within (t.size + t.nnf.size) t = some t.clauseCount)
    ∧ (inwardRecursion.Halts ∧ (∀ (t : Formula) (results : Formula → Formula),
        ∀ s ∈ (inwardRecursion t).calls results, s.size < t.size)
      ∧ (∀ (a b : Formula) (results : Formula → Formula),
        (inwardRecursion (.not (.and a b))).calls results = [.not a, .not b]
        ∧ (inwardRecursion (.not (.or a b))).calls results = [.not a, .not b])
      ∧ ∀ t : Formula, inwardRecursion.within t.withoutImp.size t.withoutImp = some t.nnf)
    ∧ disjoinRecursion.Halts ∧ ∀ a b : Formula,
      (∀ results, (disjoinRecursion (a, b)).calls results
        = if a.kind = .and then a.children.map fun c => (c, b)
          else if b.kind = .and then b.children.map fun c => (a, c) else [])
      ∧ disjoinRecursion.within (a.size + b.size) (a, b) = some (disjoin a b) := by
  refine ⟨⟨halts_cnfRecursion, fun t => ⟨t.calls_cnf, fun results => ?_, ?_⟩⟩,
    ⟨halts_clauseCountRecursion, fun t => ⟨t.calls_clauseCount, isConverted_of_isNNF t.isNNF_nnf,
      ?_, ?_⟩⟩,
    ⟨halts_inwardRecursion, fun t results s hs => (mem_calls_inward hs).1,
      fun a b results => ⟨rfl, rfl⟩, fun t => ?_⟩,
    halts_disjoinRecursion, fun a b => ⟨calls_disjoin a b, ?_⟩⟩
  · rw [calls_cnf, if_pos t.isNNF_nnf]
  · exact isSolvedBy_cnf.within_eq trivial t.cnfStarts_le_two
  · rw [← t.clauseCount_nnf]
    exact isSolvedBy_clauseCount_avoiding.within_eq t.isNNF_nnf
      (countSize_of_isNNF t.isNNF_nnf).le
  · exact isSolvedBy_clauseCount.within_eq trivial t.countSize_le
  · rw [nnf_eq_inward]
    exact isSolvedBy_inward.within_eq t.isImplicationFree_withoutImp le_rfl
  · exact isSolvedBy_disjoin.within_eq trivial le_rfl

/-- A negated conjunction goes on with its negated operands, of which the first is smaller; its
normal form is reached with one more start, and nothing in it has to be put into negation normal
form. -/
theorem recursions_halt_not_and :
    Formula.not (.atom 'p')
        ∈ (inwardRecursion (.not (.and (.atom 'p') (.atom 'q')))).calls id
    ∧ (Formula.not (.atom 'p')).size < (Formula.not (.and (.atom 'p') (.atom 'q'))).size
    ∧ Formula.not (.atom 'p') ∈ (nnf (.not (.and (.atom 'p') (.atom 'q')))).parts
    ∧ (Formula.not (.atom 'p')).isConverted = false
    ∧ cnfRecursion.within 2 (.not (.and (.atom 'p') (.atom 'q')))
      = some (cnf (.not (.and (.atom 'p') (.atom 'q')))) := by
  have hcall : Formula.not (.atom 'p')
      ∈ (inwardRecursion (.not (.and (.atom 'p') (.atom 'q')))).calls id := List.mem_cons_self
  have hpart : Formula.not (.atom 'p')
      ∈ (nnf (.not (.and (.atom 'p') (.atom 'q')))).parts := by
    simp [nnf, isImplicationFree, inward, parts]
  obtain ⟨⟨-, hcnf⟩, ⟨-, hcount⟩, ⟨-, hsize, -⟩, -⟩ := recursions_halt
  exact ⟨hcall, hsize _ _ _ hcall, hpart, (hcount _).2.1 _ hpart, (hcnf _).2.2⟩

/-- Two conjunctions are distributed with three pairs in progress at a time, and not with two. -/
example :
    disjoinRecursion.within 3 (.and (.atom 'p') (.atom 'q'), .and (.atom 'r') (.atom 's'))
      = some (disjoin (.and (.atom 'p') (.atom 'q')) (.and (.atom 'r') (.atom 's')))
    ∧ disjoinRecursion.within 2 (.and (.atom 'p') (.atom 'q'), .and (.atom 'r') (.atom 's'))
      = none := by decide

end Clausal.Formula
