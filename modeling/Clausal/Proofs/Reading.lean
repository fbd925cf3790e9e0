/-
The formula of a text.

* `Reading.wellFormed_iff`: a text is accepted if its tokens are a sentence;
* `Reading.formula_of_grouped`: the formula of an accepted text is the one its tokens read as;
* `Reading.formula_of_rejected`: a rejected text has none.
-/
import Clausal.Proofs.Grouping
import Clausal.Reading

namespace Clausal.Reading

variable {text : String} {t : Formula}

lemma wellFormed_iff : (ofText text).wellFormed = true ↔ Sentence (Token.ofText text) :=
  Grammar.propositional_recognizes_iff _

/-- The formula of an accepted text is the one that its tokens read as. -/
lemma formula_of_grouped (h : Grouped .imp (Token.ofText text) t) :
    (ofText text).formula = .ok t := by
  have hwf : (ofText text).wellFormed = true := wellFormed_iff.mpr h.sentence
  have hbuild : Formula.ofPostorder (Token.postfixOrder (ofText text).tokens) = .ok t :=
    h.ofPostorder_postfixOrder
  rw [formula, postfixOrder, if_pos hwf]
  exact congrArg (Except.mapError Fault.malformedPostfix) hbuild

/-- A rejected text has no formula, and the fault names the text. -/
lemma formula_of_rejected (h : (ofText text).wellFormed = false) :
    (ofText text).formula = .error (.notWellFormed text) := by
  rw [formula, postfixOrder, h]
  rfl

end Clausal.Reading
