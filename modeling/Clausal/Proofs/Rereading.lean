/-
Reading again what was written for a text.

* `Formula.isName_of_mem_normalForm`: the normal forms of a formula have no atoms but its own;
* `Reading.formula_text_of_mem_normalForm`: so each normal form of the formula of a text is read
  again as itself once it is written;
* `Reading.normalize_text_cnf`: a written conjunctive normal form is its own outcome;
* `Reading.stages_reread`: both for all stages of an accepted text.
-/
import Clausal.Proofs.Occurrences
import Clausal.Proofs.RoundTrip
import Clausal.Proofs.Stages

namespace Clausal

/-- If all atoms of a formula are names, so are those of its normal forms. -/
lemma Formula.isName_of_mem_normalForm {s t : Formula}
    (ht : ∀ c ∈ t.occurrences, Token.IsName c) (hs : s ∈ [t, t.withoutImp, t.nnf, t.cnf]) :
    ∀ c ∈ s.occurrences, Token.IsName c := by
  intro c hc
  simp only [List.mem_cons, List.not_mem_nil, or_false] at hs
  rcases hs with rfl | rfl | rfl | rfl
  · exact ht c hc
  · exact ht c (t.occurrences_withoutImp ▸ hc)
  · exact ht c (t.occurrences_nnf ▸ hc)
  · exact ht c (t.mem_occurrences_cnf_iff.mp hc)

namespace Reading

variable {text : String} {s t : Formula}

/-- The atoms of the formula of a text are names. -/
lemma isName_of_mem_occurrences (h : (ofText text).formula = .ok t) :
    ∀ c ∈ t.occurrences, Token.IsName c :=
  fun _ hc => (grouped_of_formula h).isName_of_mem hc

/-- **Faithful writing**: the formula of a text and its normal forms are read again as they were
written. -/
lemma formula_text_of_mem_normalForm (h : (ofText text).formula = .ok t)
    (hs : s ∈ [t, t.withoutImp, t.nnf, t.cnf]) : (ofText s.text).formula = .ok s := by
  have hnames := Formula.isName_of_mem_normalForm (isName_of_mem_occurrences h) hs
  exact Formula.formula_text_of_names (s.forall_mem_atoms_iff.mpr hnames)

/-- A written conjunctive normal form has itself as its outcome. -/
lemma normalize_text_cnf (h : (ofText text).formula = .ok t) :
    normalize t.cnf.text = .accepted t.cnf := by
  have hcnf : (ofText t.cnf.text).formula = .ok t.cnf :=
    formula_text_of_mem_normalForm h (by simp)
  rw [normalize_of_formula hcnf, t.cnf_cnf]

/-- **Reading again**: every stage of an accepted text has a formula, and each of the four is read
again as itself once it is written. The outcome writes the last one, which is in conjunctive normal
form, and its text has the same outcome. -/
theorem stages_reread (text : String) (h : (ofText text).wellFormed = true) :
    ∃ t f n c, (ofText text).formula = .ok t ∧ (ofText text).implicationFree = .ok f
      ∧ (ofText text).nnf = .ok n ∧ (ofText text).cnf none = .ok c
      ∧ (∀ s ∈ [t, f, n, c], (ofText s.text).formula = .ok s)
      ∧ (normalize text).cnf = some c.text ∧ c.isCNF = true
      ∧ normalize c.text = normalize text := by
  obtain ⟨t, ht⟩ := exists_formula h
  refine ⟨t, t.withoutImp, t.nnf, t.cnf, ht, implicationFree_of_formula ht, nnf_of_formula ht,
    cnf_of_formula ht, fun s hs => formula_text_of_mem_normalForm ht hs, ?_, t.isCNF_cnf, ?_⟩
  · rw [normalize_of_formula ht]
    rfl
  · rw [normalize_text_cnf ht, normalize_of_formula ht]

/-- The text `¬(p ⟶ q)` and what is written for it. -/
theorem stages_reread_not_imp :
    (ofText "\\neg(p \\rightarrow q)").wellFormed = true
    ∧ ∃ t f n c, (ofText "\\neg(p \\rightarrow q)").formula = .ok t
      ∧ (ofText "\\neg(p \\rightarrow q)").implicationFree = .ok f
      ∧ (ofText "\\neg(p \\rightarrow q)").nnf = .ok n
      ∧ (ofText "\\neg(p \\rightarrow q)").cnf none = .ok c
      ∧ (∀ s ∈ [t, f, n, c], (ofText s.text).formula = .ok s)
      ∧ (normalize "\\neg(p \\rightarrow q)").cnf = some c.text ∧ c.isCNF = true
      ∧ normalize c.text = normalize "\\neg(p \\rightarrow q)" := by
  have h : (ofText "\\neg(p \\rightarrow q)").wellFormed = true := by cbv
  exact ⟨h, stages_reread _ h⟩

end Reading

end Clausal
