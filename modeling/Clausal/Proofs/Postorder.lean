/-
Formulas in postfix order.

* `Formula.postorder`: the tokens of a formula, each connective after its operands;
* `Formula.pushAll_postorder`: pushing them puts the formula on the stack;
* `Formula.ofPostorder_postorder`: the formula is built again from its postfix order;
* `Formula.unloaded`: the tokens that a stack of formulas is built from, in postfix order;
* `Formula.unloaded_pushAll`: the invariant of the stack, that it holds what has been read;
* `Formula.ofPostorder_inverts_postorder`: so a formula is built from its postfix order only.
-/
import Mathlib.Tactic
import Clausal.Formula.Postorder

namespace Clausal.Formula

/-- The tokens of a formula in postfix order. -/
def postorder : Formula → List Token
  | .atom name => [.atom name]
  | .not a => a.postorder ++ [.op .not]
  | .and a b => a.postorder ++ (b.postorder ++ [.op .and])
  | .or a b => a.postorder ++ (b.postorder ++ [.op .or])
  | .imp a b => a.postorder ++ (b.postorder ++ [.op .imp])

/-- **One formula on the stack**: whatever lies below and whatever follows, the postfix order of a
formula leaves the formula on top. -/
lemma pushAll_postorder (sequence : List Token) (t : Formula) (stack : List Formula)
    (rest : List Token) :
    pushAll sequence stack (t.postorder ++ rest) = pushAll sequence (t :: stack) rest := by
  induction t generalizing stack rest with
  | atom name => rfl
  | not a ih => rw [postorder, List.append_assoc, ih]; rfl
  | and a b iha ihb => rw [postorder, List.append_assoc, iha, List.append_assoc, ihb]; rfl
  | or a b iha ihb => rw [postorder, List.append_assoc, iha, List.append_assoc, ihb]; rfl
  | imp a b iha ihb => rw [postorder, List.append_assoc, iha, List.append_assoc, ihb]; rfl

/-- A formula is built again from its postfix order. -/
lemma ofPostorder_postorder (t : Formula) : ofPostorder t.postorder = .ok t := by
  have h := pushAll_postorder t.postorder t [] []
  rw [List.append_nil] at h
  rw [ofPostorder, h]
  rfl

/-! ### What a stack was built from -/

/-- The formulas of a stack in postfix order, the lowest one first. -/
def unloaded : List Formula → List Token
  | [] => []
  | t :: stack => unloaded stack ++ t.postorder

variable {sequence ts : List Token} {stack stack' : List Formula} {t : Formula}

/-- Joining formulas adds the connective to what the stack was built from. -/
lemma unloaded_join {k : Connective} (h : join k stack = some stack') :
    unloaded stack' = unloaded stack ++ [.op k] := by
  match k, stack, h with
  | .not, a :: rest, h =>
      cases h
      simp [unloaded, postorder]
  | .and, b :: a :: rest, h | .or, b :: a :: rest, h | .imp, b :: a :: rest, h =>
      cases h
      simp [unloaded, postorder]

/-- **The invariant of the stack**: it was built from the tokens read so far, in their order. -/
lemma unloaded_pushAll (h : pushAll sequence stack ts = .ok stack') :
    unloaded stack' = unloaded stack ++ ts := by
  induction ts generalizing stack with
  | nil =>
      cases h
      rw [List.append_nil]
  | cons token ts ih =>
      cases token with
      | atom name => simpa [unloaded, postorder] using ih h
      | opening | closing => cases h
      | op k =>
          cases hjoin : join k stack with
          | none => simp [pushAll, hjoin] at h
          | some joined =>
              simp only [pushAll, hjoin] at h
              rw [ih h, unloaded_join hjoin, List.append_assoc, List.singleton_append]

/-- A formula comes from the run that leaves it alone on the stack. -/
lemma ofPostorder_eq_ok_iff_pushAll :
    ofPostorder ts = .ok t ↔ pushAll ts [] ts = .ok [t] := by
  rw [ofPostorder]
  match pushAll ts [] ts with
  | .error _ => simp
  | .ok [] => simp
  | .ok [_] => simp
  | .ok (_ :: _ :: _) => simp

/-- A formula is built from its postfix order and from nothing else. -/
lemma ofPostorder_eq_ok_iff : ofPostorder ts = .ok t ↔ ts = t.postorder := by
  constructor
  · intro h
    have hrun := unloaded_pushAll (ofPostorder_eq_ok_iff_pushAll.mp h)
    simpa [unloaded] using hrun.symm
  · rintro rfl
    exact ofPostorder_postorder t

/-- The postfix order of a formula has no parentheses. -/
lemma parenthesis_not_mem_postorder (t : Formula) :
    .opening ∉ t.postorder ∧ .closing ∉ t.postorder := by
  induction t with
  | atom name => simp [postorder]
  | not a ih => simpa [postorder] using ih
  | and a b iha ihb | or a b iha ihb | imp a b iha ihb =>
      simp [postorder, iha.1, iha.2, ihb.1, ihb.2]

/-- **The sequences that build a formula** are the postfix orders: a formula is built from a
sequence exactly if the sequence is its postfix order. So every formula is built from one sequence
and no other, and nothing is built from a sequence with a parenthesis. -/
theorem ofPostorder_inverts_postorder :
    (∀ ts t, ofPostorder ts = .ok t ↔ ts = t.postorder)
    ∧ (∀ t, ∃! ts, ofPostorder ts = .ok t)
    ∧ ∀ ts, .opening ∈ ts ∨ .closing ∈ ts → ∀ t, ofPostorder ts ≠ .ok t := by
  refine ⟨fun ts t => ofPostorder_eq_ok_iff, fun t => ?_, fun ts hparenthesis t h => ?_⟩
  · exact ⟨t.postorder, ofPostorder_postorder t, fun ts h => ofPostorder_eq_ok_iff.mp h⟩
  · obtain rfl := ofPostorder_eq_ok_iff.mp h
    obtain ⟨hopening, hclosing⟩ := t.parenthesis_not_mem_postorder
    exact hparenthesis.elim hopening hclosing

end Clausal.Formula
