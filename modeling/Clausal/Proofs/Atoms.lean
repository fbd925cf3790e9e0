/-
The atoms of a text and of its stages.

* `Formula.gather`: the atoms of a formula, gathered along a walk from left to right;
* `Formula.gather_eq`: the walk adds the atoms that are new, in order of first occurrence, so from
  nothing it gathers the atoms of the formula;
* `Formula.perm_atoms`: formulas in which the same atoms occur list the same atoms, in some order;
* `Reading.atoms_of_formula`: the formula of a text has the atoms of the tokens, in their order;
* `Reading.stages_share_atoms`: so have the stages before the conjunctive normal form, which has the
  same atoms in some order.
-/
import Clausal.Proofs.Lists
import Clausal.Proofs.Occurrences
import Clausal.Proofs.Stages

namespace Clausal

namespace Formula

variable {s t : Formula}

/-! ### Gathering -/

/-- The atoms that are known and those of a formula, each added at its end where a walk from left to
right meets it first. -/
def gather : List Char → Formula → List Char
  | known, .atom name => if name ∈ known then known else known ++ [name]
  | known, .not a => gather known a
  | known, .and a b | known, .or a b | known, .imp a b => gather (gather known a) b

/-- **Gathering** adds the atoms that are new, in order of first occurrence. -/
lemma gather_eq (known : List Char) (t : Formula) :
    gather known t = known ++ (t.occurrences.filter (· ∉ known)).eraseDups := by
  induction t generalizing known with
  | atom name =>
      rw [gather, occurrences]
      split
      · next h => simp [h]
      · next h => simp [h, List.eraseDups_cons]
  | not a ih => exact ih known
  | and a b iha ihb | or a b iha ihb | imp a b iha ihb =>
      rw [gather, ihb, iha, occurrences, append_eraseDups_filter_append]

lemma gather_nil (t : Formula) : gather [] t = t.atoms := by
  simp [gather_eq, atoms]

/-! ### The same atoms -/

lemma atoms_eq_of_occurrences_eq (h : s.occurrences = t.occurrences) : s.atoms = t.atoms := by
  rw [atoms, h, atoms]

lemma perm_atoms (h : ∀ c, c ∈ s.occurrences ↔ c ∈ t.occurrences) : s.atoms.Perm t.atoms := by
  refine (List.perm_ext_iff_of_nodup (nodup_eraseDups _) (nodup_eraseDups _)).mpr fun c => ?_
  rw [List.mem_eraseDups, List.mem_eraseDups, h]

end Formula

/-! ### Stages -/

lemma Reading.atoms_of_formula {text : String} {t : Formula}
    (h : (ofText text).formula = .ok t) : t.atoms = Token.atoms (ofText text).tokens := by
  rw [Formula.atoms, (grouped_of_formula h).occurrences_eq]
  rfl

/-- **All stages share their atoms**: for an accepted text the formula, the formula without its
implications and its negation normal form have the atoms of the tokens in the same order of first
occurrence, and the conjunctive normal form has them in some order. For every formula, a walk from
left to right gathers its atoms; the first two normal forms keep all occurrences of atoms in their
places, and the third one keeps the atoms that occur. -/
theorem Reading.stages_share_atoms :
    (∀ text, (ofText text).wellFormed = true → ∃ t f n c, (ofText text).formula = .ok t
      ∧ (ofText text).implicationFree = .ok f ∧ (ofText text).nnf = .ok n
      ∧ (ofText text).cnf none = .ok c
      ∧ (∀ s ∈ [t, f, n], s.atoms = Token.atoms (ofText text).tokens)
      ∧ c.atoms.Perm (Token.atoms (ofText text).tokens))
    ∧ ∀ t : Formula, t.gather [] = t.atoms ∧ t.withoutImp.occurrences = t.occurrences
      ∧ t.nnf.occurrences = t.occurrences
      ∧ ∀ c, c ∈ t.cnf.occurrences ↔ c ∈ t.occurrences := by
  refine ⟨fun text hwf => ?_, fun t => ⟨t.gather_nil, t.occurrences_withoutImp, t.occurrences_nnf,
    fun c => t.mem_occurrences_cnf_iff⟩⟩
  obtain ⟨t, ht⟩ := exists_formula hwf
  have htokens := atoms_of_formula ht
  refine ⟨t, t.withoutImp, t.nnf, t.cnf, ht, implicationFree_of_formula ht, nnf_of_formula ht,
    cnf_of_formula ht, fun s hs => ?_, ?_⟩
  · have hsame : s.occurrences = t.occurrences := by
      simp only [List.mem_cons, List.not_mem_nil, or_false] at hs
      rcases hs with rfl | rfl | rfl
      · rfl
      · exact t.occurrences_withoutImp
      · exact t.occurrences_nnf
    rw [Formula.atoms_eq_of_occurrences_eq hsame, htokens]
  · rw [← htokens]
    exact Formula.perm_atoms fun c => t.mem_occurrences_cnf_iff

end Clausal
