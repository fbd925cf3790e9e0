/-
Operands and operators alternate.

* `Phase`, `Phase.next`, `Phase.run`: what is expected in a sequence of tokens, an operand or an
  operator, and how tokens change it;
* `Sentence.run`: a sentence starts where an operand is expected and ends where an operator is;
* `Phase.run_parens_binary`: a pair of operands in parentheses does so exactly if both operands do.
-/
import Clausal.Proofs.Grammar.Sentence

namespace Clausal

/-- What is expected next in a sequence of tokens. -/
inductive Phase where
  /-- An atom, an opening parenthesis or a negation sign. -/
  | operand
  /-- A binary connective or a closing parenthesis. -/
  | operator
  deriving DecidableEq

namespace Phase

/-- What is expected after a token, if the token is one of those expected before it. -/
def next : Phase → Token → Option Phase
  | .operand, .atom _ => some .operator
  | .operand, .opening => some .operand
  | .operand, .closing => none
  | .operand, .op k => if k = .not then some .operand else none
  | .operator, .atom _ => none
  | .operator, .opening => none
  | .operator, .closing => some .operator
  | .operator, .op k => if k = .not then none else some .operand

/-- What is expected after some tokens, if each of them is expected in its place. -/
def run (p : Phase) (ts : List Token) : Option Phase := ts.foldlM next p

@[simp] lemma run_nil (p : Phase) : p.run [] = some p := rfl

@[simp] lemma run_cons (p : Phase) (s : Token) (ts : List Token) :
    p.run (s :: ts) = (p.next s).bind (·.run ts) := rfl

@[simp] lemma run_append (p : Phase) (u v : List Token) :
    p.run (u ++ v) = (p.run u).bind (·.run v) := List.foldlM_append

variable {k : Connective} {u v : List Token}

lemma next_operator_op (hk : k ≠ .not) : next .operator (.op k) = some .operand := if_neg hk

lemma next_operand_op (hk : k ≠ .not) : next .operand (.op k) = none := if_neg hk

/-- Where an operand is expected, only an atom completes one at once. -/
lemma next_operand_eq_operator_iff (s : Token) :
    next .operand s = some .operator ↔ ∃ name, s = .atom name := by
  cases s with
  | op k => by_cases hk : k = .not <;> simp [next, hk]
  | opening => simp [next]
  | closing => simp [next]
  | atom name => simp [next]

/-- **Pairs in parentheses**: an operand is complete after them exactly if both of its own operands
are complete in their places. -/
lemma run_parens_binary (hk : k ≠ .not) :
    run .operand (.opening :: (u ++ .op k :: (v ++ [.closing]))) = some .operator
      ↔ run .operand u = some .operator ∧ run .operand v = some .operator := by
  have hopen : next .operand .opening = some .operand := rfl
  simp only [run_cons, run_append, hopen, Option.bind_some]
  rcases run .operand u with _ | _ | _
  · simp
  · simp [next_operand_op hk]
  · rw [Option.bind_some, next_operator_op hk, Option.bind_some]
    rcases run .operand v with _ | _ | _ <;> simp [next]

end Phase

/-- **Alternation**: a sentence is expected where an operand is, and is a complete one. -/
lemma Sentence.run {ts : List Token} (h : Sentence ts) :
    Phase.run .operand ts = some .operator := by
  induction h with
  | atom name => rfl
  | not _ ih => exact ih
  | parens _ ih =>
      have hopen : Phase.next .operand .opening = some .operand := rfl
      rw [Phase.run_cons, hopen, Option.bind_some, Phase.run_append, ih]
      rfl
  | binary hk _ _ ihu ihv =>
      rw [Phase.run_append, ihu, Option.bind_some, Phase.run_cons, Phase.next_operator_op hk,
        Option.bind_some, ihv]

end Clausal
