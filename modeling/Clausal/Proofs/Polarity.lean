/-
Negation normal form in one pass over a formula.

* `Formula.affirmed`, `Formula.denied`: a formula and its negation, with every negation carried down
  to the atoms on the way;
* `Formula.inward_withoutImp_eq`: removing implications and moving negations inward, one after the
  other, give the same;
* `Formula.nnf_eq_affirmed`: so negation normal form is that pass.
-/
import Clausal.Proofs.NormalForm

namespace Clausal.Formula

mutual

/-- A formula in negation normal form: its parts are affirmed or denied, as the negations and
implications around them ask for. -/
def affirmed : Formula → Formula
  | .atom name => .atom name
  | .not a => a.denied
  | .and a b => .and a.affirmed b.affirmed
  | .or a b => .or a.affirmed b.affirmed
  | .imp a b => .or a.denied b.affirmed

/-- The negation of a formula in negation normal form. -/
def denied : Formula → Formula
  | .atom name => .not (.atom name)
  | .not a => a.affirmed
  | .and a b => .or a.denied b.denied
  | .or a b => .and a.denied b.denied
  | .imp a b => .and a.affirmed b.denied

end

/-- **The two passes are one**: without its implications and with its negations moved inward, a
formula is affirmed, and its negation denied. Both go into the induction, since a negation turns
each into the other. -/
lemma inward_withoutImp_eq (t : Formula) :
    t.withoutImp.inward = t.affirmed ∧ (Formula.not t.withoutImp).inward = t.denied := by
  induction t with
  | atom name => simp only [withoutImp, inward, affirmed, denied, and_self]
  | not a ih =>
      obtain ⟨haffirmed, hdenied⟩ := ih
      simp only [withoutImp, inward, affirmed, denied]
      exact ⟨hdenied, haffirmed⟩
  | and a b iha ihb | or a b iha ihb | imp a b iha ihb =>
      obtain ⟨ha, hna⟩ := iha
      obtain ⟨hb, hnb⟩ := ihb
      simp only [withoutImp, inward, affirmed, denied, ha, hna, hb, hnb, and_self]

/-- **Negation normal form** is the pass that carries the negations down: of a formula it affirms
the formula, and of a negation it denies what is negated. -/
theorem nnf_eq_affirmed (t : Formula) :
    t.nnf = t.affirmed ∧ (Formula.not t).nnf = t.denied := by
  obtain ⟨haffirmed, hdenied⟩ := t.inward_withoutImp_eq
  constructor
  · rw [nnf_eq_inward, haffirmed]
  · rw [nnf_eq_inward, withoutImp, hdenied]

/-- Negations of implications, one inside the other. -/
example :
    (Formula.not (.imp (.not (.imp (.atom 'p') (.atom 'q'))) (.not (.not (.atom 'r'))))).nnf
      = .and (.and (.atom 'p') (.not (.atom 'q'))) (.not (.atom 'r')) := by cbv

end Clausal.Formula
