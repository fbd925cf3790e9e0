/-
Renaming the atoms of tokens and formulas, where different atoms may get one name.

* `Grammar.table_map_rename`: the table of a sequence of tokens does not depend on its atoms;
* `Token.postfixOrder_map_rename`: renaming may come before or after the postfix order;
* `Formula.ofPostorder_map_rename`: so it may with the formula of a sequence in postfix order, and a
  misfit stays the same;
* `Formula.nnf_rename`, `Formula.disjoin_rename`, `Formula.cnf_rename`: and with the normal forms;
* `Formula.clauseCount_rename`, `Formula.eval_rename`: the count of clauses stays the same, and the
  value is that under the values of the new names;
* `Assignment.exists_get_eq`: any values are those of an assignment, as there are finitely many
  characters;
* `stages_commute_with_rename`: all of it.
-/
import Clausal.Formula.Evaluation
import Clausal.Formula.Postorder
import Clausal.Grammar.Table
import Clausal.Proofs.Clauses
import Clausal.Token.Postfix

namespace Clausal

variable (f : Char → Char)

/-! ### Tables -/

lemma Terminal.accepts_rename (t : Terminal) (token : Token) :
    t.accepts (token.rename f) = t.accepts token := by
  cases t <;> cases token <;> rfl

lemma Production.accepts_rename (token : Token) (p : Production) :
    p.accepts (token.rename f) = p.accepts token := by
  cases p with
  | terminal t => exact t.accepts_rename f token
  | pair => rfl

namespace Grammar

variable (g : Grammar)

lemma lexical_rename (token : Token) : g.lexical (token.rename f) = g.lexical token := by
  have haccepts : Production.accepts (token.rename f) = Production.accepts token :=
    funext (Production.accepts_rename f token)
  rw [lexical, lexical, haccepts]

lemma columns_map_rename (ts : List Token) :
    g.columns (ts.map (Token.rename f)) = g.columns ts := by
  induction ts with
  | nil => rfl
  | cons token ts ih => rw [List.map_cons, columns, columns, ih, lexical_rename]

/-- **Tables do not look at atoms**: only the diagonal reads tokens, and there every atom fits or
none. -/
lemma table_map_rename (ts : List Token) : g.table (ts.map (Token.rename f)) = g.table ts := by
  rw [table, columns_map_rename, table]

lemma recognizes_map_rename (ts : List Token) :
    g.recognizes (ts.map (Token.rename f)) = g.recognizes ts := by
  rw [recognizes, table_map_rename, List.length_map, recognizes]

end Grammar

/-! ### Postfix order -/

namespace Token

/-- Operators have no names. -/
lemma map_rename_released (entries : List Waiting) :
    (Waiting.released entries).map (rename f) = Waiting.released entries := by
  simp only [Waiting.released, List.map_map]
  rfl

/-- Atoms go to the output and never to the stack, so the two runs have the same stacks. -/
lemma postfixFrom_map_rename (stack : List Waiting) (ts : List Token) :
    postfixFrom stack (ts.map (rename f)) = (postfixFrom stack ts).map (rename f) := by
  induction ts generalizing stack with
  | nil => exact (map_rename_released f stack).symm
  | cons token ts ih =>
      cases token with
      | atom name => simp only [List.map_cons, rename, postfixFrom, ih]
      | opening => simp only [List.map_cons, rename, postfixFrom, ih]
      | closing | op k =>
          simp only [List.map_cons, rename, postfixFrom, ih, List.map_append, map_rename_released]

lemma postfixOrder_map_rename (ts : List Token) :
    postfixOrder (ts.map (rename f)) = (postfixOrder ts).map (rename f) :=
  postfixFrom_map_rename f [] ts

end Token

namespace Formula

/-! ### Formulas of sequences in postfix order -/

/-- A misfit with the atoms of the sequence that it shows renamed. -/
def Misfit.rename : Misfit → Misfit
  | .parenthesis sequence => .parenthesis (sequence.map (Token.rename f))
  | .missingOperands k available => .missingOperands k available
  | .empty => .empty
  | .leftover count => .leftover count

lemma join_map_rename (k : Connective) (stack : List Formula) :
    join k (stack.map (rename f)) = (join k stack).map (List.map (rename f)) := by
  match k, stack with
  | .not, [] | .and, [] | .or, [] | .imp, [] => rfl
  | .not, [_] | .and, [_] | .or, [_] | .imp, [_] => rfl
  | .not, _ :: _ :: _ | .and, _ :: _ :: _ | .or, _ :: _ :: _ | .imp, _ :: _ :: _ => rfl

/-- The two runs have the same stacks up to the names, and they stop at the same token. -/
lemma pushAll_map_rename (sequence : List Token) (stack : List Formula) (ts : List Token) :
    pushAll (sequence.map (Token.rename f)) (stack.map (rename f)) (ts.map (Token.rename f))
      = ((pushAll sequence stack ts).map (List.map (rename f))).mapError (Misfit.rename f) := by
  induction ts generalizing stack with
  | nil => rfl
  | cons token ts ih =>
      cases token with
      | atom name => exact ih (.atom name :: stack)
      | opening | closing => rfl
      | op k =>
          simp only [List.map_cons, Token.rename, pushAll, join_map_rename, List.length_map]
          cases join k stack with
          | none => rfl
          | some stack => exact ih stack

/-- **Building does not look at atoms**: a renamed sequence gives the renamed formula, or the same
misfit. -/
lemma ofPostorder_map_rename (ts : List Token) :
    ofPostorder (ts.map (Token.rename f))
      = ((ofPostorder ts).map (rename f)).mapError (Misfit.rename f) := by
  have hrun := pushAll_map_rename f ts [] ts
  rw [List.map_nil] at hrun
  rw [ofPostorder, ofPostorder, hrun]
  match pushAll ts [] ts with
  | .error _ => rfl
  | .ok [] => rfl
  | .ok [_] => rfl
  | .ok (a :: b :: stack) => simp [Except.map, Except.mapError, Misfit.rename]

/-! ### Normal forms -/

variable (t a b : Formula)

lemma withoutImp_rename : (t.rename f).withoutImp = t.withoutImp.rename f := by
  induction t with
  | atom name => rfl
  | not a ih => simp only [rename, withoutImp, ih]
  | and a b iha ihb | or a b iha ihb | imp a b iha ihb => simp only [rename, withoutImp, iha, ihb]

lemma inward_rename : (t.rename f).inward = t.inward.rename f := by
  induction t using inward_induction with
  | atom name => simp only [rename, inward]
  | not_atom name => simp only [rename, inward]
  | not_not a ih => simp only [rename, inward, ih]
  | not_and a b iha ihb | not_or a b iha ihb =>
      simp only [rename] at iha ihb
      simp only [rename, inward, iha, ihb]
  | and a b iha ihb | or a b iha ihb => simp only [rename, inward, iha, ihb]
  | not_imp a b => simp only [rename, inward]
  | imp a b => simp only [rename, inward]

lemma nnf_rename : (t.rename f).nnf = t.nnf.rename f := by
  rw [nnf_eq_inward, withoutImp_rename, inward_rename, nnf_eq_inward]

lemma disjoinRight_rename :
    disjoinRight (a.rename f) (b.rename f) = (disjoinRight a b).rename f := by
  induction b with
  | and b d ihb ihd => simp only [rename, disjoinRight, ihb, ihd]
  | _ => rfl

lemma disjoin_rename : disjoin (a.rename f) (b.rename f) = (disjoin a b).rename f := by
  induction a with
  | and a d iha ihd => simp only [rename, disjoin, iha, ihd]
  | _ => exact disjoinRight_rename f _ b

lemma distributed_rename : (t.rename f).distributed = t.distributed.rename f := by
  induction t with
  | and a b iha ihb => simp only [rename, distributed, iha, ihb]
  | or a b iha ihb => simp only [rename, distributed, iha, ihb, disjoin_rename]
  | _ => rfl

lemma cnf_rename : (t.rename f).cnf = t.cnf.rename f := by
  rw [cnf_eq_distributed, nnf_rename, distributed_rename, cnf_eq_distributed]

/-! ### Clauses and values -/

lemma nnfClauseCount_rename : (t.rename f).nnfClauseCount = t.nnfClauseCount := by
  induction t with
  | and a b iha ihb | or a b iha ihb => simp only [rename, nnfClauseCount, iha, ihb]
  | _ => rfl

lemma clauseCount_rename : (t.rename f).clauseCount = t.clauseCount := by
  induction t with
  | atom name => rfl
  | and a b iha ihb | or a b iha ihb => simp only [rename, clauseCount, iha, ihb]
  | not a =>
      have hnnf := nnf_rename f (.not a)
      simp only [rename] at hnnf
      simp only [rename, clauseCount, hnnf, nnfClauseCount_rename]
  | imp a b =>
      have hnnf := nnf_rename f (.imp a b)
      simp only [rename] at hnnf
      simp only [rename, clauseCount, hnnf, nnfClauseCount_rename]

/-- The value of a renamed formula is that under the values of the new names. -/
lemma eval_rename (v : Char → Truth) : (t.rename f).eval v = t.eval fun c => v (f c) := by
  induction t with
  | atom name => rfl
  | not a ih => simp only [rename, eval, ih]
  | and a b iha ihb | or a b iha ihb | imp a b iha ihb => simp only [rename, eval, iha, ihb]

end Formula

/-! ### Assignments -/

/-- Any values for the characters of a list are those of an assignment. -/
lemma Assignment.exists_get_eq_of_mem (v : Char → Truth) (names : List Char) :
    ∃ w : Assignment, ∀ c, w.get c = if c ∈ names then v c else none := by
  induction names with
  | nil => exact ⟨empty, by simp [get_empty]⟩
  | cons name names ih =>
      obtain ⟨w, hw⟩ := ih
      cases hname : v name with
      | none => exact ⟨w, by grind⟩
      | some value => exact ⟨w.set name value, by grind [get_set]⟩

/-- **Any values** are those of an assignment, as there are finitely many characters. -/
lemma Assignment.exists_get_eq (v : Char → Truth) : ∃ w : Assignment, ∀ c, w.get c = v c := by
  obtain ⟨w, hw⟩ := exists_get_eq_of_mem v ((List.range 0x110000).map Char.ofNat)
  refine ⟨w, fun c => ?_⟩
  have hmem : c ∈ (List.range 0x110000).map Char.ofNat := by
    have hlt : c.toNat < 0x110000 := by
      rcases c.valid with h | ⟨-, h⟩
      · exact lt_trans h (by decide)
      · exact h
    exact List.mem_map.mpr ⟨c.toNat, List.mem_range.mpr hlt, Char.ofNat_toNat c⟩
  rw [hw, if_pos hmem]

/-- **No stage looks at the identity of an atom**: atoms may be renamed before or after any stage,
even if different atoms get one name. Tables, recognition and counts of clauses stay the same; the
postfix order, the formula of a sequence and its misfits, the normal forms and the distributed
disjunction are renamed; and a renamed formula has the value of the formula under the assignment
that gives each atom the value of its new name. -/
theorem stages_commute_with_rename :
    (∀ (g : Grammar) ts, g.table (ts.map (Token.rename f)) = g.table ts
      ∧ g.recognizes (ts.map (Token.rename f)) = g.recognizes ts)
    ∧ (∀ ts, Token.postfixOrder (ts.map (Token.rename f))
        = (Token.postfixOrder ts).map (Token.rename f))
    ∧ (∀ ts t, Formula.ofPostorder ts = .ok t →
        Formula.ofPostorder (ts.map (Token.rename f)) = .ok (t.rename f))
    ∧ (∀ ts misfit, Formula.ofPostorder ts = .error misfit →
        Formula.ofPostorder (ts.map (Token.rename f)) = .error (misfit.rename f))
    ∧ (∀ t : Formula, (t.rename f).withoutImp = t.withoutImp.rename f
      ∧ (t.rename f).nnf = t.nnf.rename f ∧ (t.rename f).cnf = t.cnf.rename f
      ∧ (t.rename f).clauseCount = t.clauseCount)
    ∧ (∀ a b, Formula.disjoin (a.rename f) (b.rename f) = (Formula.disjoin a b).rename f)
    ∧ ∀ v : Assignment, ∃ w : Assignment, (∀ c, w.get c = v.get (f c))
      ∧ ∀ t : Formula, (t.rename f).eval v.get = t.eval w.get := by
  refine ⟨fun g ts => ⟨g.table_map_rename f ts, g.recognizes_map_rename f ts⟩,
    Token.postfixOrder_map_rename f, fun ts t h => ?_, fun ts misfit h => ?_,
    fun t => ⟨t.withoutImp_rename f, t.nnf_rename f, t.cnf_rename f, t.clauseCount_rename f⟩,
    Formula.disjoin_rename f, fun v => ?_⟩
  · rw [Formula.ofPostorder_map_rename, h]
    rfl
  · rw [Formula.ofPostorder_map_rename, h]
    rfl
  · obtain ⟨w, hw⟩ := Assignment.exists_get_eq fun c => v.get (f c)
    refine ⟨w, hw, fun t => ?_⟩
    rw [Formula.eval_rename, funext hw]

end Clausal
