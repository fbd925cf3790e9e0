/-
Formulas from tokens in postfix order.

* `Formula.Misfit`: why a sequence of tokens is not the postfix order of one formula;
* `Formula.join`, `Formula.pushAll`: the effect of a connective and of tokens on a stack of finished
  formulas;
* `Formula.ofPostorder`: the formula of a sequence in postfix order, or the first misfit.
-/
import Clausal.Formula.Basic
import Clausal.Token.Basic

namespace Clausal.Formula

/-- Why a sequence of tokens is not the postfix order of one formula. -/
inductive Misfit where
  /-- A connective comes before all of its operands are finished. -/
  | missingOperands (k : Connective) (available : Nat)
  /-- The sequence has a parenthesis. -/
  | parenthesis (sequence : List Token)
  /-- The sequence has no tokens. -/
  | empty
  /-- More than one finished formula is left at the end. -/
  | leftover (count : Nat)
  deriving DecidableEq

/-- What is wrong, in words. -/
def Misfit.message : Misfit → String
  | .missingOperands k available =>
    k.keyword ++ " expects " ++ toString k.arity ++ " operands but only " ++ toString available ++
      " are available"
  | .parenthesis sequence => "unexpected parenthesis in " ++ Token.spaced sequence
  | .empty => "empty sequence"
  | .leftover count => toString count ++ " operands left without connective"

/-! ### Building on a stack -/

/-- Joins the topmost formulas of a stack by a connective, the topmost one as its last operand. -/
def join : Connective → List Formula → Option (List Formula)
  | .not, a :: rest => some (.not a :: rest)
  | .and, b :: a :: rest => some (.and a b :: rest)
  | .or, b :: a :: rest => some (.or a b :: rest)
  | .imp, b :: a :: rest => some (.imp a b :: rest)
  | _, _ => none

/-- The stack of finished formulas after some more tokens of a sequence, topmost first. -/
def pushAll (sequence : List Token) : List Formula → List Token → Except Misfit (List Formula)
  | stack, [] => .ok stack
  | stack, .atom name :: rest => pushAll sequence (.atom name :: stack) rest
  | stack, .op k :: rest =>
    match join k stack with
    | some stack => pushAll sequence stack rest
    | none => .error (.missingOperands k stack.length)
  | _, .opening :: _ | _, .closing :: _ => .error (.parenthesis sequence)

/-- The formula whose postfix order is the given sequence, or the first misfit. -/
def ofPostorder (sequence : List Token) : Except Misfit Formula :=
  match pushAll sequence [] sequence with
  | .error misfit => .error misfit
  | .ok [t] => .ok t
  | .ok [] => .error .empty
  | .ok stack => .error (.leftover stack.length)

end Clausal.Formula
