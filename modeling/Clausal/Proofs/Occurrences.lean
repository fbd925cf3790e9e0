/-
The atoms of a text, of its formula and of the normal forms.

* `Formula.occurrences_withoutImp`, `Formula.occurrences_nnf`: removing implications and moving
  negations inward keep the atoms from left to right, repetitions included;
* `Formula.mem_occurrences_cnf_iff`: distribution repeats atoms, but brings none in and loses none;
* `Grouped.occurrences_eq`: the atoms of a reading are those of its tokens;
* `Token.isName_of_mem_ofText`: the atoms of a text are names.
-/
import Clausal.Proofs.Grouping
import Clausal.Proofs.NormalForm
import Clausal.Proofs.Scan

namespace Clausal

/-! ### Normal forms -/

namespace Formula

variable {c : Char}

lemma occurrences_withoutImp (t : Formula) : t.withoutImp.occurrences = t.occurrences := by
  induction t with
  | atom name => rfl
  | not a ih => exact ih
  | and a b iha ihb | or a b iha ihb | imp a b iha ihb =>
      simp only [withoutImp, occurrences, iha, ihb]

/-- The laws of De Morgan and of double negation leave the atoms in their places. -/
lemma occurrences_inward (t : Formula) : t.inward.occurrences = t.occurrences := by
  induction t using inward_induction with
  | atom name => rw [inward]
  | not_atom name => rw [inward]
  | not_not a ih => rw [inward, ih]; rfl
  | not_and a b iha ihb | not_or a b iha ihb | and a b iha ihb | or a b iha ihb =>
      simp only [inward, occurrences, iha, ihb]
  | not_imp a b => rw [inward]
  | imp a b => rw [inward]

lemma occurrences_nnf (t : Formula) : t.nnf.occurrences = t.occurrences := by
  rw [nnf_eq_inward, occurrences_inward, occurrences_withoutImp]

lemma mem_occurrences_disjoinRight_iff (a b : Formula) :
    c ∈ (disjoinRight a b).occurrences ↔ c ∈ a.occurrences ∨ c ∈ b.occurrences := by
  induction b with
  | and b d ihb ihd =>
      simp only [disjoinRight, occurrences, List.mem_append, ihb, ihd]
      exact or_or_distrib_left.symm
  | _ => simp only [disjoinRight, occurrences, List.mem_append]

lemma mem_occurrences_disjoin_iff (a b : Formula) :
    c ∈ (disjoin a b).occurrences ↔ c ∈ a.occurrences ∨ c ∈ b.occurrences := by
  induction a with
  | and a d iha ihd =>
      simp only [disjoin, occurrences, List.mem_append, iha, ihd]
      exact or_or_distrib_right.symm
  | _ => exact mem_occurrences_disjoinRight_iff _ b

lemma mem_occurrences_distributed_iff (t : Formula) :
    c ∈ t.distributed.occurrences ↔ c ∈ t.occurrences := by
  induction t with
  | and a b iha ihb => simp only [distributed, occurrences, List.mem_append, iha, ihb]
  | or a b iha ihb =>
      rw [distributed, mem_occurrences_disjoin_iff, iha, ihb, occurrences, List.mem_append]
  | _ => rfl

lemma mem_occurrences_cnf_iff (t : Formula) : c ∈ t.cnf.occurrences ↔ c ∈ t.occurrences := by
  rw [cnf_eq_distributed, mem_occurrences_distributed_iff, occurrences_nnf]

end Formula

/-! ### Tokens -/

/-- The atoms of a reading are those of its tokens, in their order. -/
lemma Grouped.occurrences_eq {k : Connective} {ts : List Token} {t : Formula}
    (h : Grouped k ts t) : t.occurrences = ts.filterMap Token.atom? := by
  induction h with
  | imp_of_or _ ih | or_of_and _ ih | and_of_not _ ih => exact ih
  | imp _ _ ihu ihv | or _ _ ihu ihv | and _ _ ihu ihv =>
      rw [List.filterMap_append, Formula.occurrences, ihu, ihv]; rfl
  | atom name => rfl
  | not _ ih => exact ih
  | parens _ ih =>
      rw [List.filterMap_cons_none rfl, List.filterMap_append, ← ih]
      exact (List.append_nil _).symm

namespace Token

/-- Where no character is blank, the atoms that are read are names. -/
lemma isName_of_mem_scan {cs : List Char} (h : ∀ c ∈ cs, Text.isBlank c = false) {name : Char}
    (hname : .atom name ∈ scan cs) : IsName name := by
  induction cs using scan.induct with
  | case1 => simp [scan] at hname
  | case2 c cs k hk ih =>
      rw [scan_of_leading? hk] at hname
      have htail := (List.mem_cons.mp hname).resolve_left (by simp)
      exact ih (fun d hd => h d (List.mem_of_mem_drop hd)) htail
  | case3 c cs hk ih =>
      rw [scan_of_leading?_none hk] at hname
      rcases List.mem_cons.mp hname with hc | htail
      · obtain ⟨rfl, hpart⟩ := ofChar_eq_atom_iff.mp hc.symm
        exact ⟨h c List.mem_cons_self, hpart⟩
      · exact ih (fun d hd => h d (List.mem_cons_of_mem _ hd)) htail

/-- **Atoms are names**: no blank, parenthesis or sign is ever read as an atom. -/
lemma isName_of_mem_ofText {text : String} {name : Char} (h : .atom name ∈ ofText text) :
    IsName name :=
  isName_of_mem_scan (fun _ hc => by simpa using (List.mem_filter.mp hc).2) h

end Token

/-- The atoms of a formula read from a text are names. -/
lemma Grouped.isName_of_mem {k : Connective} {text : String} {t : Formula}
    (h : Grouped k (Token.ofText text) t) {name : Char} (hname : name ∈ t.occurrences) :
    Token.IsName name := by
  rw [h.occurrences_eq, List.mem_filterMap] at hname
  obtain ⟨s, hs, hatom⟩ := hname
  cases s with
  | atom c =>
      cases hatom
      exact Token.isName_of_mem_ofText hs
  | _ => cases hatom

end Clausal
