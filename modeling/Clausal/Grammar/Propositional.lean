/-
The grammar of well-formed formulas.

* `Grammar.propositional`: a formula is an atom, a formula after a negation sign, a formula in
  parentheses, or two formulas with a binary connective between them.

The grammar says which sequences are formulas and leaves open how their connectives group.
-/
import Clausal.Grammar.Basic

namespace Clausal.Grammar

/-- The grammar of well-formed formulas. A binary connective is read together with the formula to
its left, an opening parenthesis with the formula to its right. -/
def propositional : Grammar where
  start := .formula
  rules := [
    ⟨.formula, [.pair .formulaImp .formula, .pair .formulaOr .formula, .pair .formulaAnd .formula,
      .pair .not .formula, .pair .openFormula .closing, .terminal .atom]⟩,
    ⟨.formulaImp, [.pair .formula .imp]⟩,
    ⟨.formulaOr, [.pair .formula .or]⟩,
    ⟨.formulaAnd, [.pair .formula .and]⟩,
    ⟨.openFormula, [.pair .opening .formula]⟩,
    ⟨.imp, [.terminal (.op .imp)]⟩,
    ⟨.or, [.terminal (.op .or)]⟩,
    ⟨.and, [.terminal (.op .and)]⟩,
    ⟨.not, [.terminal (.op .not)]⟩,
    ⟨.opening, [.terminal .opening]⟩,
    ⟨.closing, [.terminal .closing]⟩]

end Clausal.Grammar
