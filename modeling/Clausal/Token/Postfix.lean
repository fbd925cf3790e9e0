/-
From infix order to postfix order, by a stack of operators that wait for their right operand.

* `Waiting`: an operator or an opening parenthesis on the stack;
* `Connective.yieldsTo`: when a waiting operator is released before a new connective;
* `Token.postfixFrom`, `Token.postfixOrder`: the tokens in postfix order.

Operators of equal strength do not release each other, so a chain of one connective groups to the
right. Every sequence of tokens has a postfix order: a closing parenthesis without a partner
releases the whole stack, and an opening one without a partner is forgotten at the end.
-/
import Clausal.Token.Basic

namespace Clausal

/-- An entry of the operator stack. -/
inductive Waiting where
  | op (k : Connective)
  | opening
  deriving DecidableEq

namespace Waiting

/-- The connective of an entry. -/
def connective? : Waiting → Option Connective
  | .op k => some k
  | .opening => none

/-- Whether an entry is an operator. -/
def isOperator (p : Waiting) : Bool := p.connective?.isSome

/-- The operators of some entries as tokens, topmost first; parentheses are dropped. -/
def released (entries : List Waiting) : List Token := (entries.filterMap connective?).map .op

end Waiting

/-- Whether a connective binds strictly weaker than the operator on top of the stack. It never
binds weaker than an opening parenthesis. -/
def Connective.yieldsTo (k : Connective) : Waiting → Bool
  | .op top => k.precedence < top.precedence
  | .opening => false

namespace Token

/-- The postfix order of tokens under a stack, topmost entry first. -/
def postfixFrom : List Waiting → List Token → List Token
  | stack, [] => Waiting.released stack
  | stack, .atom name :: rest => .atom name :: postfixFrom stack rest
  | stack, .opening :: rest => postfixFrom (.opening :: stack) rest
  | stack, .closing :: rest =>
    Waiting.released (stack.takeWhile (·.isOperator)) ++
      postfixFrom ((stack.dropWhile (·.isOperator)).drop 1) rest
  | stack, .op k :: rest =>
    Waiting.released (stack.takeWhile k.yieldsTo) ++
      postfixFrom (.op k :: stack.dropWhile k.yieldsTo) rest

/-- The postfix order of tokens. -/
def postfixOrder (ts : List Token) : List Token := postfixFrom [] ts

end Token

end Clausal
