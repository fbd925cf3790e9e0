/-
Formulas as nodes: a symbol with a list of operands, however many there are.

* `Node`, `Node.HasArities`: nodes, and the nodes below which every symbol has as many operands as
  it asks for;
* `Node.isLiteral?`, `Node.isImplicationFree?`, `Node.isNNF?`: the shapes of a node;
* `Node.withoutImp?`, `Node.inward?`, `Node.nnf?`, `Node.disjoin?`, `Node.distributed?`,
  `Node.cnf?`: its normal forms;
* `Node.clauseCount?`, `Node.eval?`, `Node.spelling?`: the number of its clauses, its value, and the
  node in writing;
* `Node.ofPostorder`, `Node.ofText`: the node of a sequence in postfix order and of a text.

An operation gives nothing where it asks for an operand that is missing or counts one too many,
where it meets an implication that has to be gone, and where it would never end.
-/
import Clausal.Formula.Clauses
import Clausal.Formula.Distribution
import Clausal.Formula.Postorder
import Clausal.Reading
import Clausal.Truth

namespace Clausal

open Formula (Kind Misfit)

/-- A symbol with a list of operands. -/
inductive Node where
  | mk (kind : Kind) (children : List Node)

namespace Node

/-! ### Parts -/

/-- The outermost symbol of a node. -/
def kind : Node → Kind
  | mk kind _ => kind

/-- The operands of the outermost symbol, from left to right. -/
def children : Node → List Node
  | mk _ children => children

@[simp] theorem kind_mk (kind : Kind) (children : List Node) : (mk kind children).kind = kind := rfl

@[simp] theorem children_mk (kind : Kind) (children : List Node) :
    (mk kind children).children = children := rfl

/-- Every symbol of a node has as many operands as it asks for. -/
inductive HasArities : Node → Prop
  | mk {kind : Kind} {children : List Node} (length_eq : children.length = kind.arity)
      (children_hasArities : ∀ c ∈ children, HasArities c) : HasArities (mk kind children)

/-- An atom. -/
def atom (name : Char) : Node := mk (.atom name) []

/-- A negation. -/
def not (a : Node) : Node := mk .not [a]

/-- A conjunction. -/
def and (a b : Node) : Node := mk .and [a, b]

/-- A disjunction. -/
def or (a b : Node) : Node := mk .or [a, b]

/-- An implication. -/
def imp (a b : Node) : Node := mk .imp [a, b]

/-- The only operand. -/
def only? : List Node → Option Node
  | [a] => some a
  | _ => none

/-- The two operands, if there are no more. -/
def both? : List Node → Option (Node × Node)
  | [a, b] => some (a, b)
  | _ => none

/-! ### Shapes -/

/-- Whether a node is an atom or a negated atom. -/
def isLiteral? (n : Node) : Option Bool :=
  match n.kind with
  | .atom _ => some true
  | .not => do return (← n.children[0]?).kind.isAtom
  | _ => some false

/-- Whether no implication occurs in a node. -/
def isImplicationFree? (n : Node) : Option Bool :=
  if n.kind = .imp then some false else n.children.allM fun c => c |>.isImplicationFree?
partial_fixpoint

/-- Whether a node is in negation normal form. -/
def isNNF? (n : Node) : Option Bool :=
  match n.kind with
  | .atom _ => some true
  | .not => n.isLiteral?
  | .and | .or => n.children.allM fun c => c |>.isNNF?
  | .imp => some false
partial_fixpoint

/-! ### Normal forms -/

/-- A node with every implication written by negation and disjunction. -/
def withoutImp? (n : Node) : Option Node :=
  match n.kind with
  | .atom name => some (atom name)
  | .not => do
    let a ← n.children[0]?
    return not (← a |>.withoutImp?)
  | .and => do
    let a ← n.children[0]?
    let b ← n.children[1]?
    return and (← a |>.withoutImp?) (← b |>.withoutImp?)
  | .or => do
    let a ← n.children[0]?
    let b ← n.children[1]?
    return or (← a |>.withoutImp?) (← b |>.withoutImp?)
  | .imp => do
    let a ← n.children[0]?
    let b ← n.children[1]?
    return or (not (← a |>.withoutImp?)) (← b |>.withoutImp?)
partial_fixpoint

/-- A node without implications, with its negations moved inward. -/
def inward? (n : Node) : Option Node :=
  match n.kind with
  | .atom name => some (atom name)
  | .and => do
    let (a, b) ← both? n.children
    return and (← a |>.inward?) (← b |>.inward?)
  | .or => do
    let (a, b) ← both? n.children
    return or (← a |>.inward?) (← b |>.inward?)
  | .not => do
    let a ← only? n.children
    match a.kind with
    | .atom _ => return not a
    | .not => (← only? a.children) |>.inward?
    | .and => do
      let (b, c) ← both? a.children
      return or (← not b |>.inward?) (← not c |>.inward?)
    | .or => do
      let (b, c) ← both? a.children
      return and (← not b |>.inward?) (← not c |>.inward?)
    | .imp => none
  | .imp => none
partial_fixpoint

/-- The negation normal form of a node. -/
def nnf? (n : Node) : Option Node := do
  if ← n.isImplicationFree? then n.inward? else (← n.withoutImp?).inward?

/-- The disjunction of two nodes, distributed over the conjunctions of the first and then over those
of the second. -/
def disjoin? (m n : Node) : Option Node :=
  if m.kind = .and then do
    let (a, b) ← both? m.children
    return and (← a |>.disjoin? n) (← b |>.disjoin? n)
  else if n.kind = .and then do
    let (a, b) ← both? n.children
    return and (← m |>.disjoin? a) (← m |>.disjoin? b)
  else some (or m n)
partial_fixpoint

/-- A node in negation normal form with every disjunction distributed. -/
def distributed? (n : Node) : Option Node :=
  match n.kind with
  | .and => do
    let (a, b) ← both? n.children
    return and (← a |>.distributed?) (← b |>.distributed?)
  | .or => do
    let (a, b) ← both? n.children
    disjoin? (← a |>.distributed?) (← b |>.distributed?)
  | _ => some n
partial_fixpoint

/-- The conjunctive normal form of a node, taken of its negation normal form unless it has that form
already. -/
def cnf? (n : Node) : Option Node := do
  if ← n.isNNF? then n.distributed? else (← n.nnf?) |>.cnf?
partial_fixpoint

/-! ### Clauses, values and writing -/

/-- The number of clauses of a node. Negations of anything but an atom and implications are put into
negation normal form where they are met. -/
def clauseCount? (n : Node) : Option Nat :=
  match n.kind with
  | .and => do
    let a ← n.children[0]?
    let b ← n.children[1]?
    return Formula.capped ((← a |>.clauseCount?) + (← b |>.clauseCount?))
  | .or => do
    let a ← n.children[0]?
    let b ← n.children[1]?
    return Formula.capped ((← a |>.clauseCount?) * (← b |>.clauseCount?))
  | .atom _ => some 1
  | .not => do if ← n.isLiteral? then return 1 else (← n.nnf?) |>.clauseCount?
  | .imp => do (← n.nnf?) |>.clauseCount?
partial_fixpoint

/-- The value of a node, given the values of its atoms. -/
def eval? (v : Char → Truth) (n : Node) : Option Truth :=
  match n.kind with
  | .atom name => some (v name)
  | .not => do
    let a ← n.children[0]?
    return (← a |>.eval? v).not
  | .and => do
    let a ← n.children[0]?
    let b ← n.children[1]?
    return (← a |>.eval? v).and (← b |>.eval? v)
  | .or => do
    let a ← n.children[0]?
    let b ← n.children[1]?
    return (← a |>.eval? v).or (← b |>.eval? v)
  | .imp => do
    let a ← n.children[0]?
    let b ← n.children[1]?
    return (← a |>.eval? v).imp (← b |>.eval? v)
partial_fixpoint

/-- The characters of a node. -/
def spelling? (n : Node) : Option (List Char) :=
  match n.kind with
  | .atom name => some [name]
  | .not => do
    let a ← n.children[0]?
    return ' ' :: (Connective.not.spelling ++ ' ' :: (← a |>.spelling?))
  | .and => do
    let a ← n.children[0]?
    let b ← n.children[1]?
    return Formula.infixSpelling .and (← a |>.spelling?) (← b |>.spelling?)
  | .or => do
    let a ← n.children[0]?
    let b ← n.children[1]?
    return Formula.infixSpelling .or (← a |>.spelling?) (← b |>.spelling?)
  | .imp => do
    let a ← n.children[0]?
    let b ← n.children[1]?
    return Formula.infixSpelling .imp (← a |>.spelling?) (← b |>.spelling?)
partial_fixpoint

/-! ### Building on a stack -/

/-- Joins the topmost nodes of a stack by a connective, as many as it has operands and the topmost
one as the last. -/
def join (k : Connective) (stack : List Node) : Option (List Node) :=
  if stack.length < k.arity then none
  else some (mk (Kind.ofConnective k) (stack.take k.arity).reverse :: stack.drop k.arity)

/-- The stack of finished nodes after some more tokens of a sequence, topmost first. -/
def pushAll (sequence : List Token) : List Node → List Token → Except Misfit (List Node)
  | stack, [] => .ok stack
  | stack, .atom name :: rest => pushAll sequence (atom name :: stack) rest
  | stack, .op k :: rest =>
    match join k stack with
    | some stack => pushAll sequence stack rest
    | none => .error (.missingOperands k stack.length)
  | _, .opening :: _ | _, .closing :: _ => .error (.parenthesis sequence)

/-- The node whose postfix order is the given sequence, or the first misfit. -/
def ofPostorder (sequence : List Token) : Except Misfit Node :=
  match pushAll sequence [] sequence with
  | .error misfit => .error misfit
  | .ok [n] => .ok n
  | .ok [] => .error .empty
  | .ok stack => .error (.leftover stack.length)

/-- The node of a text. -/
def ofText (text : String) : Except Fault Node := do
  let sequence ← (Reading.ofText text).postfixOrder
  (ofPostorder sequence).mapError .malformedPostfix

end Node

end Clausal
