/-
What the postfix order keeps of any sequence of tokens, whether or not its parentheses match.

* `Token.beforeAtom`: the tokens before an atom, given by its number;
* `Token.exists_postfixFrom_cons`: what one token other than an atom does: operators leave the
  stack for the output, and those that leave and those that stay are the operators there were and
  the one that comes;
* `Token.postfixFrom_induction`: induction along a run, by atoms and by all other tokens;
* `Token.filterMap_atom_postfixFrom`, `Token.count_postfixFrom`, `Token.count_beforeAtom_le`: so a
  run keeps the atoms in their order, keeps every connective as often as it occurs, and moves none
  ahead of an atom;
* `Token.postfixOrder_conserves`: all of it for the postfix order.
-/
import Mathlib.Tactic
import Clausal.Token.Postfix

namespace Clausal

/-! ### Released operators -/

namespace Waiting

@[simp] lemma released_op_cons (k : Connective) (entries : List Waiting) :
    released (.op k :: entries) = .op k :: released entries := rfl

@[simp] lemma released_opening_cons (entries : List Waiting) :
    released (.opening :: entries) = released entries := rfl

lemma filterMap_atom_released (entries : List Waiting) :
    (released entries).filterMap Token.atom? = [] := by
  rw [released, List.filterMap_map]
  exact List.filterMap_eq_nil_iff.mpr fun _ _ => rfl

/-- Operators are released one for one. -/
lemma count_released (entries : List Waiting) (k : Connective) :
    (released entries).count (.op k) = entries.count (.op k) := by
  induction entries with
  | nil => rfl
  | cons entry entries ih =>
      cases entry with
      | op l => simp [List.count_cons, ih]
      | opening => simpa using ih

lemma parenthesis_not_mem_released (entries : List Waiting) :
    .opening ∉ released entries ∧ .closing ∉ released entries := by
  simp [released]

/-- Where the operators on top of a stack end, there is a parenthesis or nothing. -/
lemma count_drop_dropWhile_isOperator (stack : List Waiting) (k : Connective) :
    ((stack.dropWhile (·.isOperator)).drop 1).count (.op k)
      = (stack.dropWhile (·.isOperator)).count (.op k) := by
  induction stack with
  | nil => rfl
  | cons entry stack ih =>
      cases entry with
      | op l => exact ih
      | opening => exact (List.count_cons_of_ne (by simp)).symm

lemma count_takeWhile_add_count_dropWhile (p : Waiting → Bool) (stack : List Waiting)
    (k : Connective) :
    (stack.takeWhile p).count (.op k) + (stack.dropWhile p).count (.op k)
      = stack.count (.op k) := by
  rw [← List.count_append, List.takeWhile_append_dropWhile]

end Waiting

namespace Token

/-! ### Before an atom -/

/-- The tokens of a sequence before its atom number `n`, counted from zero, and all of them if there
are not so many atoms. -/
def beforeAtom : Nat → List Token → List Token
  | _, [] => []
  | 0, .atom _ :: _ => []
  | n + 1, .atom name :: rest => .atom name :: beforeAtom n rest
  | n, .opening :: rest => .opening :: beforeAtom n rest
  | n, .closing :: rest => .closing :: beforeAtom n rest
  | n, .op k :: rest => .op k :: beforeAtom n rest

lemma beforeAtom_cons {token : Token} (h : token.atom? = none) (n : Nat) (ts : List Token) :
    beforeAtom n (token :: ts) = token :: beforeAtom n ts := by
  cases token with
  | atom name => cases h
  | opening | closing | op k => rw [beforeAtom]

lemma beforeAtom_append {us : List Token} (h : us.filterMap atom? = []) (n : Nat)
    (ts : List Token) : beforeAtom n (us ++ ts) = us ++ beforeAtom n ts := by
  induction us with
  | nil => rfl
  | cons token us ih =>
      obtain ⟨htoken, hus⟩ := List.forall_mem_cons.mp (List.filterMap_eq_nil_iff.mp h)
      rw [List.cons_append, beforeAtom_cons htoken, ih (List.filterMap_eq_nil_iff.mpr hus),
        List.cons_append]

/-! ### One token -/

/-- **One token** other than an atom releases some operators of the stack. Those that are released
and those that stay are the operators there were and the one that comes. -/
lemma exists_postfixFrom_cons {token : Token} (h : token.atom? = none) (stack : List Waiting) :
    ∃ gone next : List Waiting,
      (∀ rest, postfixFrom stack (token :: rest) = Waiting.released gone ++ postfixFrom next rest)
      ∧ ∀ k, gone.count (.op k) + next.count (.op k)
        = stack.count (.op k) + [token].count (.op k) := by
  cases token with
  | atom name => cases h
  | opening => exact ⟨[], .opening :: stack, fun _ => rfl, fun k => by simp⟩
  | closing =>
      -- what leaves the stack with the operators is their parenthesis, if there is one
      refine ⟨_, _, fun rest => by rw [postfixFrom], fun k => ?_⟩
      rw [Waiting.count_drop_dropWhile_isOperator, Waiting.count_takeWhile_add_count_dropWhile]
      simp
  | op l =>
      refine ⟨_, _, fun rest => by rw [postfixFrom], fun k => ?_⟩
      have hsplit := Waiting.count_takeWhile_add_count_dropWhile l.yieldsTo stack k
      simp only [List.count_cons, List.count_nil, beq_iff_eq, Waiting.op.injEq, Token.op.injEq]
      omega

/-- A run goes by atoms, which pass to the output, and by tokens that release operators. -/
@[elab_as_elim]
lemma postfixFrom_induction {motive : List Waiting → List Token → Prop}
    (nil : ∀ stack, motive stack [])
    (atom : ∀ stack name ts, motive stack ts → motive stack (.atom name :: ts))
    (other : ∀ stack token ts gone next, token.atom? = none →
      postfixFrom stack (token :: ts) = Waiting.released gone ++ postfixFrom next ts →
      (∀ k, gone.count (.op k) + next.count (.op k) = stack.count (.op k) + [token].count (.op k)) →
      motive next ts → motive stack (token :: ts))
    (stack : List Waiting) (ts : List Token) : motive stack ts := by
  induction ts generalizing stack with
  | nil => exact nil stack
  | cons token ts ih =>
      cases htoken : token.atom? with
      | none =>
          obtain ⟨gone, next, hstep, hcount⟩ := exists_postfixFrom_cons htoken stack
          exact other stack token ts gone next htoken (hstep ts) hcount (ih next)
      | some name =>
          cases token with
          | atom c => exact atom stack c ts (ih stack)
          | _ => cases htoken

/-! ### Whole runs -/

/-- Atoms pass to the output as they come. -/
lemma filterMap_atom_postfixFrom (stack : List Waiting) (ts : List Token) :
    (postfixFrom stack ts).filterMap atom? = ts.filterMap atom? := by
  induction stack, ts using postfixFrom_induction with
  | nil stack => exact Waiting.filterMap_atom_released stack
  | atom stack name ts ih => simp [postfixFrom, atom?, ih]
  | other stack token ts gone next htoken hstep _ ih =>
      rw [hstep, List.filterMap_append, Waiting.filterMap_atom_released, List.nil_append, ih,
        List.filterMap_cons_none htoken]

/-- **No operator is lost**: the output has those of the sequence and those of the stack. -/
lemma count_postfixFrom (k : Connective) (stack : List Waiting) (ts : List Token) :
    (postfixFrom stack ts).count (.op k) = stack.count (.op k) + ts.count (.op k) := by
  induction stack, ts using postfixFrom_induction with
  | nil stack => exact Waiting.count_released stack k
  | atom stack name ts ih => simp [postfixFrom, ih]
  | other stack token ts gone next _ hstep hcount ih =>
      have hk := hcount k
      rw [hstep, List.count_append, Waiting.count_released, ih,
        ← List.singleton_append (l := ts), List.count_append]
      omega

/-- No parenthesis reaches the output. -/
lemma parenthesis_not_mem_postfixFrom (stack : List Waiting) (ts : List Token) :
    .opening ∉ postfixFrom stack ts ∧ .closing ∉ postfixFrom stack ts := by
  induction stack, ts using postfixFrom_induction with
  | nil stack => exact Waiting.parenthesis_not_mem_released stack
  | atom stack name ts ih => simpa [postfixFrom] using ih
  | other stack token ts gone next _ hstep _ ih =>
      obtain ⟨hopening, hclosing⟩ := Waiting.parenthesis_not_mem_released gone
      rw [hstep, List.mem_append, List.mem_append, not_or, not_or]
      exact ⟨⟨hopening, ih.1⟩, hclosing, ih.2⟩

/-- **No operator overtakes an atom**: what is in the output before an atom was on the stack or
before the atom in the sequence. -/
lemma count_beforeAtom_le (k : Connective) (n : Nat) (stack : List Waiting) (ts : List Token) :
    (beforeAtom n (postfixFrom stack ts)).count (.op k)
      ≤ stack.count (.op k) + (beforeAtom n ts).count (.op k) := by
  induction stack, ts using postfixFrom_induction generalizing n with
  | nil stack =>
      -- without an atom in the output, the whole stack is before it
      have hall := beforeAtom_append (Waiting.filterMap_atom_released stack) n []
      rw [List.append_nil] at hall
      rw [postfixFrom, hall, List.count_append, Waiting.count_released]
  | atom stack name ts ih =>
      cases n with
      | zero => simp [postfixFrom, beforeAtom]
      | succ n => simpa [postfixFrom, beforeAtom] using ih n
  | other stack token ts gone next htoken hstep hcount ih =>
      have hk := hcount k
      have hrest := ih n
      rw [hstep, beforeAtom_append (Waiting.filterMap_atom_released gone), List.count_append,
        Waiting.count_released, beforeAtom_cons htoken,
        ← List.singleton_append (l := beforeAtom n ts), List.count_append]
      omega

/-- **The postfix order of any sequence**, even one with unmatched parentheses, has no parentheses,
the same atoms in the same order and every connective as often; and before each atom it has no
connective more often than the sequence has before that atom. -/
theorem postfixOrder_conserves (ts : List Token) :
    (.opening ∉ postfixOrder ts ∧ .closing ∉ postfixOrder ts)
    ∧ (postfixOrder ts).filterMap atom? = ts.filterMap atom?
    ∧ (∀ k, (postfixOrder ts).count (.op k) = ts.count (.op k))
    ∧ ∀ n k, (beforeAtom n (postfixOrder ts)).count (.op k)
      ≤ (beforeAtom n ts).count (.op k) := by
  refine ⟨parenthesis_not_mem_postfixFrom [] ts, filterMap_atom_postfixFrom [] ts, fun k => ?_,
    fun n k => ?_⟩
  · simpa [postfixOrder] using count_postfixFrom k [] ts
  · simpa [postfixOrder] using count_beforeAtom_le k n [] ts

/-- A closing parenthesis without a partner releases the conjunction before the last atom. -/
example : postfixOrder [.atom 'p', .op .and, .atom 'q', .closing, .atom 'r']
    = [.atom 'p', .atom 'q', .op .and, .atom 'r'] := rfl

end Token

end Clausal
