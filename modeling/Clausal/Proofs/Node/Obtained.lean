/-
What operations on nodes give, and that no operation on it fails.

* `Node.Obtained`: the nodes that come from sequences, texts and other nodes by any number of
  operations;
* `Node.Obtained.hasArities`: the invariant of the operations, the right number of operands
  everywhere;
* `Node.operations_succeed`: so every operation succeeds on what the operations give.
-/
import Clausal.Proofs.Node.OfFormula

namespace Clausal.Node

/-- The nodes that any number of operations give: those that build a node, those that take one
apart, and the normal forms. -/
inductive Obtained : Node → Prop
  | atom (name : Char) : Obtained (atom name)
  | not {a : Node} (ha : Obtained a) : Obtained (not a)
  | and {a b : Node} (ha : Obtained a) (hb : Obtained b) : Obtained (and a b)
  | or {a b : Node} (ha : Obtained a) (hb : Obtained b) : Obtained (or a b)
  | imp {a b : Node} (ha : Obtained a) (hb : Obtained b) : Obtained (imp a b)
  | ofPostorder {sequence : List Token} {r : Node} (h : ofPostorder sequence = .ok r) : Obtained r
  | ofText {text : String} {r : Node} (h : ofText text = .ok r) : Obtained r
  | child {a r : Node} (ha : Obtained a) (h : r ∈ a.children) : Obtained r
  | withoutImp {a r : Node} (ha : Obtained a) (h : a.withoutImp? = some r) : Obtained r
  | nnf {a r : Node} (ha : Obtained a) (h : a.nnf? = some r) : Obtained r
  | cnf {a r : Node} (ha : Obtained a) (h : a.cnf? = some r) : Obtained r
  | disjoin {a b r : Node} (ha : Obtained a) (hb : Obtained b) (h : disjoin? a b = some r) :
      Obtained r

variable {n : Node}

lemma hasArities_of_eq_some {t : Formula} {result : Option Node} (ht : result = some t.node)
    (h : result = some n) : n.HasArities :=
  Option.some.inj (ht.symm.trans h) ▸ hasArities_node t

lemma hasArities_of_map_eq_ok {ε : Type} {result : Except ε Formula}
    (h : result.map Formula.node = .ok n) : n.HasArities := by
  cases result with
  | error => cases h
  | ok t => exact Except.ok.inj h ▸ hasArities_node t

/-- **The invariant**: every operation gives the right number of operands everywhere if it was right
before, for it gives the node of a formula. -/
lemma Obtained.hasArities (h : n.Obtained) : n.HasArities := by
  induction h with
  | atom name => exact hasArities_node (.atom name)
  | not _ ih =>
      obtain ⟨a, rfl⟩ := ih.exists_formula
      exact hasArities_node (.not a)
  | and _ _ iha ihb =>
      obtain ⟨a, rfl⟩ := iha.exists_formula
      obtain ⟨b, rfl⟩ := ihb.exists_formula
      exact hasArities_node (.and a b)
  | or _ _ iha ihb =>
      obtain ⟨a, rfl⟩ := iha.exists_formula
      obtain ⟨b, rfl⟩ := ihb.exists_formula
      exact hasArities_node (.or a b)
  | imp _ _ iha ihb =>
      obtain ⟨a, rfl⟩ := iha.exists_formula
      obtain ⟨b, rfl⟩ := ihb.exists_formula
      exact hasArities_node (.imp a b)
  | ofPostorder h => exact hasArities_of_map_eq_ok (ofPostorder_eq _ ▸ h)
  | ofText h => exact hasArities_of_map_eq_ok (ofText_eq _ ▸ h)
  | child _ h ih =>
      cases ih with
      | mk _ hchildren => exact hchildren _ h
  | withoutImp _ h ih =>
      obtain ⟨a, rfl⟩ := ih.exists_formula
      exact hasArities_of_eq_some (withoutImp?_node a) h
  | nnf _ h ih =>
      obtain ⟨a, rfl⟩ := ih.exists_formula
      exact hasArities_of_eq_some (nnf?_node a) h
  | cnf _ h ih =>
      obtain ⟨a, rfl⟩ := ih.exists_formula
      exact hasArities_of_eq_some (cnf?_node a) h
  | disjoin _ _ h iha ihb =>
      obtain ⟨a, rfl⟩ := iha.exists_formula
      obtain ⟨b, rfl⟩ := ihb.exists_formula
      exact hasArities_of_eq_some (disjoin?_node a b) h

/-- **No operation fails** on what operations give. Such a node has the right number of operands
everywhere, and it is the node of a formula; so its shape, its normal forms, the number of its
clauses, its value and the node in writing can be had, and the disjunction with another such node
can be distributed. The results are those for the formulas. -/
theorem operations_succeed {m n : Node} (hm : m.Obtained) (hn : n.Obtained) :
    n.HasArities ∧ ∃ s t : Formula, s.node = m ∧ t.node = n
      ∧ n.isLiteral? = some t.isLiteral ∧ n.withoutImp? = some t.withoutImp.node
      ∧ n.nnf? = some t.nnf.node ∧ n.cnf? = some t.cnf.node
      ∧ disjoin? m n = some (Formula.disjoin s t).node ∧ n.clauseCount? = some t.clauseCount
      ∧ (∀ v, n.eval? v = some (t.eval v)) ∧ n.spelling? = some t.spelling := by
  obtain ⟨s, rfl⟩ := hm.hasArities.exists_formula
  obtain ⟨t, rfl⟩ := hn.hasArities.exists_formula
  exact ⟨hasArities_node t, s, t, rfl, rfl, isLiteral?_node t, withoutImp?_node t, nnf?_node t,
    cnf?_node t, disjoin?_node s t, clauseCount?_node t, fun v => eval?_node v t, spelling?_node t⟩

/-- A negated implication, built from its postfix order, after its operand. -/
theorem operations_succeed_not_imp :
    (imp (atom 'p') (atom 'q')).Obtained ∧ (not (imp (atom 'p') (atom 'q'))).Obtained
    ∧ (not (imp (atom 'p') (atom 'q'))).HasArities ∧ ∃ s t : Formula,
      s.node = imp (atom 'p') (atom 'q') ∧ t.node = not (imp (atom 'p') (atom 'q'))
      ∧ (not (imp (atom 'p') (atom 'q'))).isLiteral? = some t.isLiteral
      ∧ (not (imp (atom 'p') (atom 'q'))).withoutImp? = some t.withoutImp.node
      ∧ (not (imp (atom 'p') (atom 'q'))).nnf? = some t.nnf.node
      ∧ (not (imp (atom 'p') (atom 'q'))).cnf? = some t.cnf.node
      ∧ disjoin? (imp (atom 'p') (atom 'q')) (not (imp (atom 'p') (atom 'q')))
        = some (Formula.disjoin s t).node
      ∧ (not (imp (atom 'p') (atom 'q'))).clauseCount? = some t.clauseCount
      ∧ (∀ v, (not (imp (atom 'p') (atom 'q'))).eval? v = some (t.eval v))
      ∧ (not (imp (atom 'p') (atom 'q'))).spelling? = some t.spelling := by
  have hbuilt : ofPostorder [.atom 'p', .atom 'q', .op .imp, .op .not]
      = .ok (not (imp (atom 'p') (atom 'q'))) := rfl
  have hnot : (not (imp (atom 'p') (atom 'q'))).Obtained := .ofPostorder hbuilt
  have himp : (imp (atom 'p') (atom 'q')).Obtained := hnot.child (by simp [not])
  exact ⟨himp, hnot, operations_succeed himp hnot⟩

end Clausal.Node
