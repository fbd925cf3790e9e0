/-
The first misfit of a sequence of tokens.

* `Token.surplus`: the atoms of a sequence less its binary connectives, in number;
* `Token.IsMisplaced`, `Formula.misplaced`: a parenthesis or a connective that asks for more
  operands than there are, and the positions of such tokens in a sequence;
* `Formula.exists_pushAll_take`: up to the first misplaced token the stack has as many formulas as
  the surplus says;
* `Formula.ofPostorder_of_misplaced`, `Formula.ofPostorder_of_placed`: the misfit of the first
  misplaced token, and what is left where every token has its place;
* `Formula.ofPostorder_first_misfit`: all of it, with the wording.
-/
import Clausal.Fault
import Clausal.Proofs.Postorder

namespace Clausal

/-! ### Surplus -/

namespace Token

/-- Whether a token joins two formulas. -/
def isBinary : Token → Bool
  | .op k => k.arity == 2
  | _ => false

/-- The atoms of a sequence less its binary connectives, in number. -/
def surplus (ts : List Token) : Int := ts.countP (·.atom?.isSome) - ts.countP (·.isBinary)

/-- Whether a token is out of place after so many finished formulas: a parenthesis always is, a
connective is if it has more operands. -/
def IsMisplaced (available : Int) : Token → Prop
  | .op k => available < k.arity
  | .opening | .closing => True
  | .atom _ => False

instance (available : Int) (token : Token) : Decidable (token.IsMisplaced available) :=
  match token with
  | .op k => inferInstanceAs (Decidable (available < k.arity))
  | .opening | .closing => .isTrue trivial
  | .atom _ => .isFalse id

lemma surplus_append (us vs : List Token) : surplus (us ++ vs) = surplus us + surplus vs := by
  simp only [surplus, List.countP_append]
  omega

lemma surplus_atom (name : Char) : surplus [.atom name] = 1 := rfl

/-- A connective takes its operands and gives one formula. -/
lemma surplus_op (k : Connective) : surplus [.op k] = 1 - k.arity := by
  cases k <;> rfl

end Token

namespace Formula

open Token (surplus)

variable {ts : List Token} {i : Nat}

/-- The positions of a sequence where a token is out of place after the tokens before it. -/
def misplaced (ts : List Token) : Set Nat :=
  {i | ∃ token, ts[i]? = some token ∧ token.IsMisplaced (surplus (ts.take i))}

/-! ### Stacks -/

/-- Formulas are joined unless some operand is missing. -/
lemma join_eq_none_iff (k : Connective) (stack : List Formula) :
    join k stack = none ↔ stack.length < k.arity := by
  match k, stack with
  | .not, [] | .and, [] | .or, [] | .imp, [] => simp [join, Connective.arity]
  | .not, [_] | .and, [_] | .or, [_] | .imp, [_] => simp [join, Connective.arity]
  | .not, _ :: _ :: _ | .and, _ :: _ :: _ | .or, _ :: _ :: _ | .imp, _ :: _ :: _ =>
      simp [join, Connective.arity]

/-- The operands leave the stack and one formula comes. -/
lemma length_of_join {k : Connective} {stack joined : List Formula}
    (h : join k stack = some joined) : joined.length + k.arity = stack.length + 1 := by
  match k, stack, h with
  | .not, _ :: _, h => cases h; rfl
  | .and, _ :: _ :: _, h | .or, _ :: _ :: _, h | .imp, _ :: _ :: _, h => cases h; rfl

/-- A token in its place changes the number of formulas by its surplus. -/
lemma exists_pushAll_cons (sequence : List Token) {stack : List Formula} {token : Token}
    (h : ¬ token.IsMisplaced stack.length) :
    ∃ next : List Formula, (next.length : Int) = stack.length + surplus [token]
      ∧ ∀ rest, pushAll sequence stack (token :: rest) = pushAll sequence next rest := by
  cases token with
  | atom name => exact ⟨.atom name :: stack, by simp [Token.surplus_atom], fun _ => rfl⟩
  | opening | closing => exact absurd trivial h
  | op k =>
      cases hjoin : join k stack with
      | none => exact absurd (Int.ofNat_lt.mpr ((join_eq_none_iff k stack).mp hjoin)) h
      | some next =>
          have hlength := length_of_join hjoin
          refine ⟨next, ?_, fun rest => by rw [pushAll, hjoin]⟩
          rw [Token.surplus_op]
          omega

/-- **The height of the stack**: before the first misplaced token there are as many formulas on the
stack as the tokens so far have surplus. -/
lemma exists_pushAll_take (sequence : List Token) (h : ∀ j < i, j ∉ misplaced ts)
    (hi : i ≤ ts.length) : ∃ stack : List Formula, (stack.length : Int) = surplus (ts.take i)
      ∧ ∀ rest, pushAll sequence [] (ts.take i ++ rest) = pushAll sequence stack rest := by
  -- by position, since whether a token is misplaced depends on the tokens before it
  induction i with
  | zero => exact ⟨[], rfl, fun _ => rfl⟩
  | succ i ih =>
      obtain ⟨stack, hlength, hrun⟩ := ih (fun j hj => h j (by omega)) (by omega)
      have hplaced : ¬ ts[i].IsMisplaced stack.length := fun hmisplaced =>
        h i (by omega) ⟨ts[i], List.getElem?_eq_getElem hi, hlength ▸ hmisplaced⟩
      obtain ⟨next, hnext, hstep⟩ := exists_pushAll_cons sequence hplaced
      have htake : ts.take (i + 1) = ts.take i ++ [ts[i]] := List.take_succ_eq_append_getElem hi
      refine ⟨next, ?_, fun rest => ?_⟩
      · rw [htake, Token.surplus_append, hnext, hlength]
      · rw [htake, List.append_assoc, hrun, List.singleton_append, hstep]

/-! ### The first misfit -/

/-- A sequence is rejected for a misfit, in the given words. -/
def Rejects (ts : List Token) (misfit : Misfit) (words : String) : Prop :=
  ofPostorder ts = .error misfit
    ∧ (Fault.malformedPostfix misfit).message = "malformed postfix sequence: " ++ words

lemma ofPostorder_eq_error {misfit : Misfit} (h : pushAll ts [] ts = .error misfit) :
    ofPostorder ts = .error misfit := by
  rw [ofPostorder, h]

lemma not_exists_ok {misfit : Misfit} (h : ofPostorder ts = .error misfit) :
    ¬ ∃ t, ofPostorder ts = .ok t := by
  rintro ⟨t, ht⟩
  cases h.symm.trans ht

/-- The run stops at the first misplaced token, with its misfit. -/
lemma ofPostorder_of_misplaced (h : IsLeast (misplaced ts) i) :
    ((ts[i]? = some .opening ∨ ts[i]? = some .closing) ∧ ofPostorder ts = .error (.parenthesis ts))
    ∨ ∃ (k : Connective) (n : Nat), ts[i]? = some (.op k) ∧ n = surplus (ts.take i) ∧ n < k.arity
      ∧ ofPostorder ts = .error (.missingOperands k n) := by
  obtain ⟨⟨token, htoken, hmisplaced⟩, hleast⟩ := h
  obtain ⟨hi, hget⟩ := List.getElem?_eq_some_iff.mp htoken
  obtain ⟨stack, hlength, hrun⟩ :=
    exists_pushAll_take ts (fun j hj hmem => absurd (hleast hmem) (by omega)) hi.le
  have hstop : pushAll ts [] ts = pushAll ts stack (token :: ts.drop (i + 1)) := by
    rw [← hrun, ← hget, List.getElem_cons_drop, List.take_append_drop]
  cases token with
  | atom name => exact hmisplaced.elim
  | opening => exact .inl ⟨.inl htoken, ofPostorder_eq_error hstop⟩
  | closing => exact .inl ⟨.inr htoken, ofPostorder_eq_error hstop⟩
  | op k =>
      have hfew : stack.length < k.arity := Int.ofNat_lt.mp (hlength ▸ hmisplaced)
      have hmissing : pushAll ts stack (.op k :: ts.drop (i + 1))
          = .error (.missingOperands k stack.length) := by
        rw [pushAll, (join_eq_none_iff k stack).mpr hfew]
      exact .inr ⟨k, stack.length, htoken, hlength, hfew,
        ofPostorder_eq_error (hstop.trans hmissing)⟩

/-- Where every token has its place, the run ends with as many formulas as there is surplus, and
with none of them only if there was nothing to read. -/
lemma exists_pushAll_of_placed (h : misplaced ts = ∅) :
    ∃ stack, pushAll ts [] ts = .ok stack ∧ stack.length = surplus ts ∧ (stack = [] → ts = []) := by
  obtain ⟨stack, hlength, hrun⟩ := exists_pushAll_take ts (by simp [h]) (Nat.le_refl ts.length)
  have hend := hrun []
  rw [List.take_length, List.append_nil] at hend
  refine ⟨stack, hend, by rw [hlength, List.take_length], fun hnil => ?_⟩
  have hread := unloaded_pushAll hend
  rw [hnil] at hread
  exact hread.symm

/-- Where every token has its place, one formula is built if one is left, and any other number is a
misfit. -/
lemma ofPostorder_of_placed (h : misplaced ts = ∅) :
    (∃ t, ofPostorder ts = .ok t ∧ surplus ts = 1)
    ∨ (ts = [] ∧ ofPostorder ts = .error .empty)
    ∨ ∃ n : Nat, n = surplus ts ∧ 2 ≤ n ∧ ofPostorder ts = .error (.leftover n) := by
  obtain ⟨stack, hrun, hlength, hnil⟩ := exists_pushAll_of_placed h
  match stack with
  | [] => exact .inr (.inl ⟨hnil rfl, by rw [ofPostorder, hrun]⟩)
  | [t] => exact .inl ⟨t, ofPostorder_eq_ok_iff_pushAll.mpr hrun, hlength.symm⟩
  | a :: b :: stack =>
      exact .inr (.inr ⟨_, hlength, by simp, by rw [ofPostorder, hrun]⟩)

/-- **The first misfit decides**: a sequence is rejected for its first misplaced token, and told are
for a parenthesis the whole sequence, for a connective its operand count and the surplus before it.
Where no token is misplaced, a formula is built exactly if the surplus is one; nothing to read is a
misfit of its own, and in all other cases a surplus of two or more is left over. -/
theorem ofPostorder_first_misfit (ts : List Token) :
    (∀ i, IsLeast (misplaced ts) i →
      (ts[i]? = some .opening ∨ ts[i]? = some .closing)
        ∧ Rejects ts (.parenthesis ts) ("unexpected parenthesis in " ++ Token.spaced ts)
      ∨ ∃ (k : Connective) (n : Nat), ts[i]? = some (.op k) ∧ n = surplus (ts.take i) ∧ n < k.arity
        ∧ Rejects ts (.missingOperands k n) (k.keyword ++ " expects " ++ toString k.arity ++
          " operands but only " ++ toString n ++ " are available"))
    ∧ (misplaced ts = ∅ →
      ((∃ t, ofPostorder ts = .ok t) ↔ surplus ts = 1)
      ∧ (Rejects ts .empty "empty sequence" ↔ ts = [])
      ∧ (surplus ts ≠ 1 → ts ≠ [] → ∃ n : Nat, n = surplus ts ∧ 2 ≤ n
        ∧ Rejects ts (.leftover n) (toString n ++ " operands left without connective"))) := by
  constructor
  · intro i hi
    rcases ofPostorder_of_misplaced hi with ⟨htoken, h⟩ | ⟨k, n, htoken, hn, hfew, h⟩
    · exact .inl ⟨htoken, h, rfl⟩
    · exact .inr ⟨k, n, htoken, hn, hfew, h, rfl⟩
  · intro hplaced
    rcases ofPostorder_of_placed hplaced with ⟨t, h, hone⟩ | ⟨rfl, h⟩ | ⟨n, hn, htwo, h⟩
    · refine ⟨iff_of_true ⟨t, h⟩ hone, ?_, fun hne => absurd hone hne⟩
      refine iff_of_false (fun hempty => ?_) (fun hnil => ?_)
      · cases h.symm.trans hempty.1
      · cases hnil ▸ hone
    · exact ⟨iff_of_false (not_exists_ok h) (by decide), iff_of_true ⟨h, rfl⟩ rfl,
        fun _ hne => absurd rfl hne⟩
    · refine ⟨iff_of_false (not_exists_ok h) (by omega), iff_of_false ?_ ?_,
        fun _ _ => ⟨n, hn, htwo, h, rfl⟩⟩
      · intro hempty
        cases h.symm.trans hempty.1
      · rintro rfl
        cases h

/-- A connective that lacks an operand comes before a parenthesis, and two atoms are left over. -/
theorem ofPostorder_first_misfit_and_parenthesis :
    IsLeast (misplaced [.atom 'p', .op .and, .opening]) 1
    ∧ Rejects [.atom 'p', .op .and, .opening] (.missingOperands .and 1)
        "\\wedge expects 2 operands but only 1 are available"
    ∧ misplaced [.atom 'p', .atom 'q'] = ∅
    ∧ Rejects [.atom 'p', .atom 'q'] (.leftover 2) "2 operands left without connective" := by
  have hleast : IsLeast (misplaced [.atom 'p', .op .and, .opening]) 1 := by
    refine ⟨⟨.op .and, rfl, by decide⟩, fun j hj => ?_⟩
    obtain ⟨token, htoken, hmisplaced⟩ := hj
    cases j with
    | zero => cases htoken; exact hmisplaced.elim
    | succ j => exact Nat.le_add_left 1 j
  have hplaced : misplaced [.atom 'p', .atom 'q'] = ∅ := by
    refine Set.eq_empty_iff_forall_notMem.mpr fun j hj => ?_
    obtain ⟨token, htoken, hmisplaced⟩ := hj
    match j, htoken with
    | 0, htoken | 1, htoken => cases htoken; exact hmisplaced
  refine ⟨hleast, ?_, hplaced, ?_⟩
  · rcases (ofPostorder_first_misfit _).1 1 hleast with ⟨htoken, -⟩ | ⟨k, n, hk, hn, -, h⟩
    · simp at htoken
    · cases hk
      cases (Int.ofNat_inj.mp hn : n = 1)
      exact h
  · obtain ⟨n, hn, -, h⟩ := ((ofPostorder_first_misfit _).2 hplaced).2.2 (by decide) (by simp)
    cases (Int.ofNat_inj.mp hn : n = 2)
    exact h

end Formula

end Clausal
