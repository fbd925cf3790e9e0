/-
The node of a formula, and the operations on it.

* `Formula.node`: the node of a formula;
* `Node.hasArities_node`, `Node.HasArities.exists_formula`: the nodes of formulas are those with the
  right arities;
* `Node.inward?_node`: moving negations inward succeeds exactly if there is no implication;
* `Node.nnf?_node`, `Node.cnf?_node`, `Node.clauseCount?_node` and the like: all other operations
  succeed, and their results are those for the formula;
* `Node.ofPostorder_eq`, `Node.ofText_eq`: so are the nodes of sequences in postfix order and of
  texts.
-/
import Clausal.Formula.Evaluation
import Clausal.Proofs.NormalForm
import Clausal.Proofs.Node.Basic

namespace Clausal

/-- The node of a formula. -/
def Formula.node : Formula → Node
  | .atom name => .atom name
  | .not a => .not a.node
  | .and a b => .and a.node b.node
  | .or a b => .or a.node b.node
  | .imp a b => .imp a.node b.node

namespace Node

open Formula (Kind Misfit)

variable {n : Node} {t a b : Formula}

/-! ### Arities -/

lemma kind_node (t : Formula) : t.node.kind = t.kind := by
  cases t <;> rfl

lemma hasArities_node (t : Formula) : t.node.HasArities := by
  induction t with
  | atom name => exact .mk rfl (by simp)
  | not a ih => exact .mk rfl (by simpa using ih)
  | and a b iha ihb | or a b iha ihb | imp a b iha ihb => exact .mk rfl (by simp [iha, ihb])

/-- **Arities make a formula**: a node with the right number of operands everywhere is that of a
formula. -/
lemma HasArities.exists_formula (h : n.HasArities) : ∃ t : Formula, t.node = n := by
  induction h with
  | @mk kind children length_eq _ ih =>
      match kind, children, length_eq with
      | .atom name, [], _ => exact ⟨.atom name, rfl⟩
      | .not, [c], _ =>
          obtain ⟨a, rfl⟩ := ih c (by simp)
          exact ⟨.not a, rfl⟩
      | .and, [c, d], _ =>
          obtain ⟨a, rfl⟩ := ih c (by simp)
          obtain ⟨b, rfl⟩ := ih d (by simp)
          exact ⟨.and a b, rfl⟩
      | .or, [c, d], _ =>
          obtain ⟨a, rfl⟩ := ih c (by simp)
          obtain ⟨b, rfl⟩ := ih d (by simp)
          exact ⟨.or a b, rfl⟩
      | .imp, [c, d], _ =>
          obtain ⟨a, rfl⟩ := ih c (by simp)
          obtain ⟨b, rfl⟩ := ih d (by simp)
          exact ⟨.imp a b, rfl⟩

/-! ### Shapes -/

lemma isLiteral?_node (t : Formula) : t.node.isLiteral? = some t.isLiteral := by
  cases t with
  | not a => simp [isLiteral?, Formula.node, not, Formula.isLiteral, kind_node]
  | _ => rfl

lemma allM_pair {test : Node → Option Bool} {m n : Node} {p q : Bool} (hm : test m = some p)
    (hn : test n = some q) : [m, n].allM test = some (p && q) := by
  cases p <;> cases q <;> simp [hm, hn]

lemma isImplicationFree?_node (t : Formula) :
    t.node.isImplicationFree? = some t.isImplicationFree := by
  induction t with
  | atom name =>
      rw [isImplicationFree?]
      rfl
  | not a ih =>
      have hstep : (Formula.not a).node.isImplicationFree?
          = [a.node].allM isImplicationFree? := by
        rw [isImplicationFree?]
        rfl
      rw [hstep, List.allM, ih, Formula.isImplicationFree]
      cases a.isImplicationFree <;> rfl
  | and a b iha ihb | or a b iha ihb =>
      rw [isImplicationFree?]
      exact allM_pair iha ihb
  | imp a b =>
      rw [isImplicationFree?]
      rfl

lemma isNNF?_node (t : Formula) : t.node.isNNF? = some t.isNNF := by
  induction t with
  | atom name =>
      rw [isNNF?]
      rfl
  | not a =>
      rw [isNNF?]
      exact isLiteral?_node (.not a)
  | and a b iha ihb | or a b iha ihb =>
      rw [isNNF?]
      exact allM_pair iha ihb
  | imp a b =>
      rw [isNNF?]
      rfl

/-! ### Normal forms -/

lemma withoutImp?_node (t : Formula) : t.node.withoutImp? = some t.withoutImp.node := by
  induction t with
  | atom name =>
      rw [withoutImp?]
      rfl
  | not a ih =>
      rw [withoutImp?]
      simp [Formula.node, not, ih, Formula.withoutImp]
  | and a b iha ihb | or a b iha ihb | imp a b iha ihb =>
      rw [withoutImp?]
      simp [Formula.node, not, and, or, imp, iha, ihb, Formula.withoutImp]

/-- Two results are joined to one if both are there. -/
lemma bind_ite_bind_ite (f : Node → Node → Node) (p q : Bool) (m n : Node) :
    ((if p then some m else none) >>= fun m => (if q then some n else none) >>= fun n =>
        pure (f m n))
      = if p && q then some (f m n) else none := by
  cases p <;> cases q <;> rfl

/-- **Moving negations inward** succeeds exactly if there is no implication. -/
lemma inward?_node (t : Formula) :
    t.node.inward? = if t.isImplicationFree then some t.inward.node else none := by
  induction t using Formula.inward_induction with
  | atom name =>
      rw [inward?, Formula.inward]
      rfl
  | not_atom name =>
      rw [inward?, Formula.inward]
      rfl
  | not_not a ih =>
      rw [inward?, Formula.inward]
      exact ih
  | not_and a b iha ihb =>
      have hstep : (Formula.not (.and a b)).node.inward? = do
          return or (← (Formula.not a).node.inward?) (← (Formula.not b).node.inward?) := by
        rw [inward?]
        rfl
      rw [hstep, iha, ihb, bind_ite_bind_ite, Formula.inward]
      rfl
  | not_or a b iha ihb =>
      have hstep : (Formula.not (.or a b)).node.inward? = do
          return and (← (Formula.not a).node.inward?) (← (Formula.not b).node.inward?) := by
        rw [inward?]
        rfl
      rw [hstep, iha, ihb, bind_ite_bind_ite, Formula.inward]
      rfl
  | not_imp a b =>
      rw [inward?]
      rfl
  | and a b iha ihb =>
      have hstep : (Formula.and a b).node.inward? = do
          return and (← a.node.inward?) (← b.node.inward?) := by
        rw [inward?]
        rfl
      rw [hstep, iha, ihb, bind_ite_bind_ite, Formula.inward]
      rfl
  | or a b iha ihb =>
      have hstep : (Formula.or a b).node.inward? = do
          return or (← a.node.inward?) (← b.node.inward?) := by
        rw [inward?]
        rfl
      rw [hstep, iha, ihb, bind_ite_bind_ite, Formula.inward]
      rfl
  | imp a b =>
      rw [inward?]
      rfl

lemma nnf?_node (t : Formula) : t.node.nnf? = some t.nnf.node := by
  rw [nnf?, isImplicationFree?_node, withoutImp?_node, Formula.nnf]
  cases h : t.isImplicationFree with
  | true => simp [inward?_node, h]
  | false => simp [inward?_node, t.isImplicationFree_withoutImp]

lemma disjoin?_node_right (ha : a.kind ≠ .and) (b : Formula) :
    disjoin? a.node b.node = some (Formula.disjoinRight a b).node := by
  induction b with
  | and b d ihb ihd =>
      have hstep : disjoin? a.node (Formula.and b d).node = do
          return and (← disjoin? a.node b.node) (← disjoin? a.node d.node) := by
        rw [disjoin?, kind_node, if_neg ha]
        rfl
      rw [hstep, ihb, ihd]
      rfl
  | _ =>
      rw [disjoin?, kind_node, if_neg ha]
      rfl

lemma disjoin?_node (a b : Formula) :
    disjoin? a.node b.node = some (Formula.disjoin a b).node := by
  induction a with
  | and a d iha ihd =>
      have hstep : disjoin? (Formula.and a d).node b.node = do
          return and (← disjoin? a.node b.node) (← disjoin? d.node b.node) := by
        rw [disjoin?]
        rfl
      rw [hstep, iha, ihd]
      rfl
  | _ => exact disjoin?_node_right (by simp [Formula.kind]) b

lemma distributed?_node (t : Formula) : t.node.distributed? = some t.distributed.node := by
  induction t with
  | and a b iha ihb =>
      have hstep : (Formula.and a b).node.distributed? = do
          return and (← a.node.distributed?) (← b.node.distributed?) := by
        rw [distributed?]
        rfl
      rw [hstep, iha, ihb]
      rfl
  | or a b iha ihb =>
      have hstep : (Formula.or a b).node.distributed?
          = a.node.distributed? >>= fun m => b.node.distributed? >>= disjoin? m := by
        rw [distributed?]
        rfl
      rw [hstep, iha, ihb]
      exact disjoin?_node _ _
  | _ =>
      rw [distributed?]
      rfl

/-- The second time the conjunctive normal form is asked for, the node has negation normal form. -/
lemma cnf?_node (t : Formula) : t.node.cnf? = some t.cnf.node := by
  have hnnf {s : Formula} (hs : s.isNNF = true) : s.node.cnf? = some s.distributed.node := by
    rw [cnf?, isNNF?_node, hs]
    exact distributed?_node s
  rw [Formula.cnf]
  cases h : t.isNNF with
  | true => exact hnnf h
  | false =>
      rw [cnf?, isNNF?_node, nnf?_node, h]
      exact hnnf t.isNNF_nnf

/-! ### Clauses, values and writing -/

lemma clauseCount?_and (a b : Formula) :
    (Formula.and a b).node.clauseCount? = do
      return Formula.capped ((← a.node.clauseCount?) + (← b.node.clauseCount?)) := by
  rw [clauseCount?]
  rfl

lemma clauseCount?_or (a b : Formula) :
    (Formula.or a b).node.clauseCount? = do
      return Formula.capped ((← a.node.clauseCount?) * (← b.node.clauseCount?)) := by
  rw [clauseCount?]
  rfl

/-- In negation normal form, the count never asks for a normal form. -/
lemma clauseCount?_node_of_isNNF (h : t.isNNF = true) :
    t.node.clauseCount? = some t.nnfClauseCount := by
  induction t with
  | atom name =>
      rw [clauseCount?]
      rfl
  | not a =>
      obtain ⟨name, rfl⟩ := Formula.isNNF_not_iff.mp h
      rw [clauseCount?]
      rfl
  | and a b iha ihb =>
      rw [Formula.isNNF, Bool.and_eq_true] at h
      rw [clauseCount?_and, iha h.1, ihb h.2]
      rfl
  | or a b iha ihb =>
      rw [Formula.isNNF, Bool.and_eq_true] at h
      rw [clauseCount?_or, iha h.1, ihb h.2]
      rfl
  | imp a b => cases h

lemma clauseCount?_node (t : Formula) : t.node.clauseCount? = some t.clauseCount := by
  induction t with
  | atom name =>
      rw [clauseCount?]
      rfl
  | not a =>
      have hstep : (Formula.not a).node.clauseCount?
          = (Formula.not a).node.isLiteral? >>= fun literal =>
            if literal then pure 1 else (Formula.not a).node.nnf? >>= clauseCount? := by
        rw [clauseCount?]
        rfl
      rw [hstep, isLiteral?_node, nnf?_node]
      cases h : (Formula.not a).isLiteral with
      | true =>
          have hnnf : (Formula.not a).nnf = .not a := Formula.nnf_of_isNNF h
          rw [Formula.clauseCount, hnnf]
          rfl
      | false => exact clauseCount?_node_of_isNNF (Formula.isNNF_nnf _)
  | and a b iha ihb =>
      rw [clauseCount?_and, iha, ihb]
      rfl
  | or a b iha ihb =>
      rw [clauseCount?_or, iha, ihb]
      rfl
  | imp a b =>
      have hstep : (Formula.imp a b).node.clauseCount?
          = (Formula.imp a b).node.nnf? >>= clauseCount? := by
        rw [clauseCount?]
        rfl
      rw [hstep, nnf?_node]
      exact clauseCount?_node_of_isNNF (Formula.isNNF_nnf _)

lemma eval?_node (v : Char → Truth) (t : Formula) : t.node.eval? v = some (t.eval v) := by
  induction t with
  | atom name =>
      rw [eval?]
      rfl
  | not a ih =>
      rw [eval?]
      simp [Formula.node, not, ih, Formula.eval]
  | and a b iha ihb | or a b iha ihb | imp a b iha ihb =>
      rw [eval?]
      simp [Formula.node, and, or, imp, iha, ihb, Formula.eval]

lemma spelling?_node (t : Formula) : t.node.spelling? = some t.spelling := by
  induction t with
  | atom name =>
      rw [spelling?]
      rfl
  | not a ih =>
      rw [spelling?]
      simp [Formula.node, not, ih, Formula.spelling]
  | and a b iha ihb | or a b iha ihb | imp a b iha ihb =>
      rw [spelling?]
      simp [Formula.node, and, or, imp, iha, ihb, Formula.spelling]

/-! ### Building on a stack -/

lemma join_map_node (k : Connective) (stack : List Formula) :
    join k (stack.map Formula.node) = (Formula.join k stack).map (List.map Formula.node) := by
  match k, stack with
  | .not, [] | .and, [] | .or, [] | .imp, [] => rfl
  | .not, [_] | .and, [_] | .or, [_] | .imp, [_] => rfl
  | .not, _ :: _ :: _ | .and, _ :: _ :: _ | .or, _ :: _ :: _ | .imp, _ :: _ :: _ =>
      simp [join, Formula.join, Connective.arity, Kind.ofConnective, Formula.node, not, and, or,
        imp]

/-- The two runs have the same stacks, and they stop at the same token. -/
lemma pushAll_map_node (sequence : List Token) (stack : List Formula) (ts : List Token) :
    pushAll sequence (stack.map Formula.node) ts
      = (Formula.pushAll sequence stack ts).map (List.map Formula.node) := by
  induction ts generalizing stack with
  | nil => rfl
  | cons token ts ih =>
      cases token with
      | atom name => exact ih (.atom name :: stack)
      | opening | closing => rfl
      | op k =>
          simp only [pushAll, Formula.pushAll, join_map_node, List.length_map]
          cases Formula.join k stack with
          | none => rfl
          | some stack => exact ih stack

lemma ofPostorder_eq (sequence : List Token) :
    ofPostorder sequence = (Formula.ofPostorder sequence).map Formula.node := by
  have hrun := pushAll_map_node sequence [] sequence
  rw [List.map_nil] at hrun
  rw [ofPostorder, Formula.ofPostorder, hrun]
  match Formula.pushAll sequence [] sequence with
  | .error _ => rfl
  | .ok [] => rfl
  | .ok [_] => rfl
  | .ok (_ :: _ :: _) => simp [Except.map]

lemma ofText_eq (text : String) : ofText text = (Reading.ofText text).formula.map Formula.node := by
  rw [ofText, Reading.formula]
  cases (Reading.ofText text).postfixOrder with
  | error fault => rfl
  | ok sequence =>
      change (ofPostorder sequence).mapError _ = ((Formula.ofPostorder sequence).mapError _).map _
      rw [ofPostorder_eq]
      cases Formula.ofPostorder sequence <;> rfl

end Node

end Clausal
