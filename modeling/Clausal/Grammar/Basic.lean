/-
Context-free grammars over tokens, in the binary form that tabular recognition needs.

* `Nonterminal`, `Terminal`: the names of a grammar and its patterns for single tokens;
* `Production`, `Rule`, `Grammar`: a right-hand side, a left-hand side with its alternatives, and
  rules with distinct left-hand sides together with a start symbol;
* `Grammar.ofRules`: the grammar of any rules, where the last rule of a left-hand side counts;
* `Grammar.lexical`, `Grammar.pairings`: what derives one token, and what derives two parts;
* `Grammar.text`: the rules in writing.
-/
import Clausal.Token.Basic

namespace Clausal

/-! ### Nonterminals -/

/-- A nonterminal: a formula, a beginning of one, or the name of a single token. -/
inductive Nonterminal where
  /-- A formula. -/
  | formula
  /-- A formula and an implication sign. -/
  | formulaImp
  /-- A formula and a disjunction sign. -/
  | formulaOr
  /-- A formula and a conjunction sign. -/
  | formulaAnd
  /-- An opening parenthesis and a formula. -/
  | openFormula
  | imp
  | or
  | and
  | not
  | opening
  | closing
  deriving DecidableEq

/-- The name of a nonterminal in printed rules and tables. -/
def Nonterminal.name : Nonterminal → String
  | .formula => "E"
  | .formulaImp => "EArrow"
  | .formulaOr => "EOr"
  | .formulaAnd => "EAnd"
  | .openFormula => "OpenE"
  | .imp => "Arrow"
  | .or => "Or"
  | .and => "And"
  | .not => "Not"
  | .opening => "Open"
  | .closing => "Close"

/-! ### Productions -/

/-- A pattern for one token. -/
inductive Terminal where
  | op (k : Connective)
  | opening
  | closing
  | atom
  deriving DecidableEq

namespace Terminal

/-- Whether a token fits the pattern; every atom fits `atom`. -/
def accepts : Terminal → Token → Bool
  | .op k, .op l => k = l
  | .opening, .opening => true
  | .closing, .closing => true
  | .atom, .atom _ => true
  | _, _ => false

/-- A pattern in writing. -/
def text : Terminal → String
  | .op k => k.keyword
  | .opening => "("
  | .closing => ")"
  | .atom => "atom"

end Terminal

/-- A right-hand side: one token, or two nonterminals in a row. -/
inductive Production where
  | terminal (t : Terminal)
  | pair (left right : Nonterminal)
  deriving DecidableEq

namespace Production

/-- Whether a right-hand side is a pattern that a token fits. -/
def accepts (token : Token) : Production → Bool
  | .terminal t => t.accepts token
  | .pair _ _ => false

/-- A right-hand side in writing. -/
def text : Production → String
  | .terminal t => t.text
  | .pair left right => left.name ++ " " ++ right.name

end Production

/-! ### Rules -/

/-- A nonterminal with its alternatives. -/
structure Rule where
  lhs : Nonterminal
  alternatives : List Production
  deriving DecidableEq

namespace Rule

/-- A rule in writing. -/
def text (r : Rule) : String :=
  r.lhs.name ++ " ->" ++
    (if r.alternatives.isEmpty then ""
      else " " ++ " | ".intercalate (r.alternatives.map Production.text))

/-- Adds a rule to a list: in place of the rule with the same left-hand side, else at the end. -/
def putInto (r : Rule) : List Rule → List Rule
  | [] => [r]
  | s :: rest => if s.lhs = r.lhs then r :: rest else s :: r.putInto rest

/-- A left-hand side of the extended list is that of the new rule or an earlier one. -/
theorem mem_lhs_putInto {r : Rule} {rules : List Rule} {A : Nonterminal}
    (h : A ∈ (r.putInto rules).map lhs) : A = r.lhs ∨ A ∈ rules.map lhs := by
  induction rules with
  | nil => simpa [putInto] using h
  | cons s rest ih =>
    rw [putInto] at h
    split at h
    · next hs =>
      rcases List.mem_cons.mp h with rfl | h
      · exact .inl rfl
      · exact .inr (List.mem_cons_of_mem _ h)
    · rcases List.mem_cons.mp h with rfl | h
      · exact .inr List.mem_cons_self
      · exact (ih h).imp id (List.mem_cons_of_mem _)

/-- Adding a rule keeps the left-hand sides distinct. -/
theorem nodup_lhs_putInto (r : Rule) {rules : List Rule} (h : (rules.map lhs).Nodup) :
    ((r.putInto rules).map lhs).Nodup := by
  induction rules with
  | nil => simp [putInto]
  | cons s rest ih =>
    obtain ⟨hs, hrest⟩ := List.nodup_cons.mp h
    rw [putInto]
    split
    · next heq => exact List.nodup_cons.mpr ⟨heq ▸ hs, hrest⟩
    · next hne =>
      refine List.nodup_cons.mpr ⟨fun hmem => ?_, ih hrest⟩
      exact (mem_lhs_putInto hmem).elim hne hs

end Rule

/-! ### Grammars -/

/-- A grammar: a start symbol and rules in a fixed order, at most one for each nonterminal. -/
structure Grammar where
  start : Nonterminal
  rules : List Rule
  nodup_lhs : (rules.map Rule.lhs).Nodup := by decide

/-- A nonterminal and the two nonterminals it derives in a row. -/
structure Pairing where
  whole : Nonterminal
  left : Nonterminal
  right : Nonterminal
  deriving DecidableEq

/-- The pairings among the alternatives of a rule. -/
def Rule.pairings (r : Rule) : List Pairing :=
  r.alternatives.filterMap fun
    | .pair left right => some ⟨r.lhs, left, right⟩
    | .terminal _ => none

namespace Grammar

/-- Adding rules one after the other keeps the left-hand sides distinct. -/
theorem nodup_lhs_foldl (added : List Rule) {rules : List Rule}
    (h : (rules.map Rule.lhs).Nodup) :
    ((added.foldl (fun rules r => r.putInto rules) rules).map Rule.lhs).Nodup := by
  induction added generalizing rules with
  | nil => exact h
  | cons r rest ih => exact ih (r.nodup_lhs_putInto h)

/-- The grammar of some rules, added in order: a later rule takes the place of an earlier one with
the same left-hand side. -/
def ofRules (start : Nonterminal) (rules : List Rule) : Grammar where
  start
  rules := rules.foldl (fun rules r => r.putInto rules) []
  nodup_lhs := nodup_lhs_foldl rules (by simp)

/-- The nonterminals with an alternative that a token fits, in the order of the rules. -/
def lexical (g : Grammar) (token : Token) : List Nonterminal :=
  (g.rules.filter fun r => r.alternatives.any (Production.accepts token)).map Rule.lhs

/-- The pairings of a grammar, in the order of the rules. -/
def pairings (g : Grammar) : List Pairing := g.rules.flatMap Rule.pairings

/-- A grammar in writing, one rule to a line. -/
def text (g : Grammar) : String := String.join (g.rules.map fun r => r.text ++ "\n")

end Grammar

end Clausal
