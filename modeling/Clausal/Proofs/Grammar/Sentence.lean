/-
The sequences that the grammar of formulas derives.

* `Sentence`: the formation rules of formulas, without regard to how connectives group;
* `Token.category`: the one nonterminal that derives a token directly;
* `Nonterminal.Yields`: what each nonterminal stands for, in terms of sentences;
* `Grammar.yields_of_derives`: a nonterminal derives nothing but what it stands for;
* `Grammar.derives_of_sentence`: every sentence is derived;
* `Grammar.propositional_recognizes_iff`: the accepted sequences are the sentences.
-/
import Clausal.Grammar.Propositional
import Clausal.Proofs.Grammar.Derivation

namespace Clausal

/-- The formation rules: an atom, a negated sentence, a sentence in parentheses, and two sentences
with a binary connective between them. -/
inductive Sentence : List Token → Prop
  | atom (name : Char) : Sentence [.atom name]
  | not {u : List Token} (hu : Sentence u) : Sentence (.op .not :: u)
  | parens {u : List Token} (hu : Sentence u) : Sentence (.opening :: (u ++ [.closing]))
  | binary {k : Connective} {u v : List Token} (hk : k ≠ .not) (hu : Sentence u)
      (hv : Sentence v) : Sentence (u ++ .op k :: v)

/-- The nonterminal that derives a token directly. -/
def Token.category : Token → Nonterminal
  | .op .not => .not
  | .op .and => .and
  | .op .or => .or
  | .op .imp => .imp
  | .opening => .opening
  | .closing => .closing
  | .atom _ => .formula

/-- What a nonterminal of the grammar of formulas stands for. -/
def Nonterminal.Yields : Nonterminal → List Token → Prop
  | .formula, w => Sentence w
  | .formulaImp, w => ∃ u, Sentence u ∧ w = u ++ [.op .imp]
  | .formulaOr, w => ∃ u, Sentence u ∧ w = u ++ [.op .or]
  | .formulaAnd, w => ∃ u, Sentence u ∧ w = u ++ [.op .and]
  | .openFormula, w => ∃ u, Sentence u ∧ w = .opening :: u
  | .imp, w => w = [.op .imp]
  | .or, w => w = [.op .or]
  | .and, w => w = [.op .and]
  | .not, w => w = [.op .not]
  | .opening, w => w = [.opening]
  | .closing, w => w = [.closing]

namespace Grammar

/-- Every token has one category. -/
lemma lexical_propositional (s : Token) : propositional.lexical s = [s.category] := by
  cases s with
  | op k => cases k <;> rfl
  | opening => rfl
  | closing => rfl
  | atom name => rfl

lemma pairings_propositional : propositional.pairings =
    [⟨.formula, .formulaImp, .formula⟩, ⟨.formula, .formulaOr, .formula⟩,
      ⟨.formula, .formulaAnd, .formula⟩, ⟨.formula, .not, .formula⟩,
      ⟨.formula, .openFormula, .closing⟩, ⟨.formulaImp, .formula, .imp⟩,
      ⟨.formulaOr, .formula, .or⟩, ⟨.formulaAnd, .formula, .and⟩,
      ⟨.openFormula, .opening, .formula⟩] := rfl

/-- A token is what its category stands for. -/
lemma yields_category (s : Token) : s.category.Yields [s] := by
  cases s with
  | op k => cases k <;> rfl
  | opening => rfl
  | closing => rfl
  | atom name => exact .atom name

/-- Each pairing of the grammar is sound for what its nonterminals stand for. -/
lemma yields_of_pairing {p : Pairing} (hp : p ∈ propositional.pairings) {u v : List Token}
    (hu : p.left.Yields u) (hv : p.right.Yields v) : p.whole.Yields (u ++ v) := by
  rw [pairings_propositional] at hp
  simp only [List.mem_cons, List.not_mem_nil, or_false] at hp
  rcases hp with rfl | rfl | rfl | rfl | rfl | rfl | rfl | rfl | rfl
  · obtain ⟨u, hu, rfl⟩ := hu
    simpa [Nonterminal.Yields] using Sentence.binary (k := .imp) nofun hu hv
  · obtain ⟨u, hu, rfl⟩ := hu
    simpa [Nonterminal.Yields] using Sentence.binary (k := .or) nofun hu hv
  · obtain ⟨u, hu, rfl⟩ := hu
    simpa [Nonterminal.Yields] using Sentence.binary (k := .and) nofun hu hv
  · cases hu
    exact Sentence.not hv
  · obtain ⟨u, hu, rfl⟩ := hu
    cases hv
    exact Sentence.parens hu
  · exact ⟨u, hu, congrArg (u ++ ·) hv⟩
  · exact ⟨u, hu, congrArg (u ++ ·) hv⟩
  · exact ⟨u, hu, congrArg (u ++ ·) hv⟩
  · exact ⟨v, hv, congrArg (· ++ v) hu⟩

lemma yields_of_derives {A : Nonterminal} {w : List Token} (h : propositional.Derives A w) :
    A.Yields w := by
  induction h with
  | token hr hp hs =>
      have hmem := derives_singleton_iff.mp (.token hr hp hs)
      rw [lexical_propositional, List.mem_singleton] at hmem
      exact hmem ▸ yields_category _
  | @pair r B C u v hr hp _ _ ihu ihv =>
      have hmem : (⟨r.lhs, B, C⟩ : Pairing) ∈ propositional.pairings :=
        mem_pairings_iff.mpr ⟨r, hr, rfl, hp⟩
      exact yields_of_pairing hmem ihu ihv

/-- A token is derived from its category. -/
lemma derives_category (s : Token) : propositional.Derives s.category [s] := by
  rw [derives_singleton_iff, lexical_propositional]
  exact List.mem_singleton_self _

/-- One use of a pairing, which is looked up among those of the grammar. -/
lemma derives_pair {A B C : Nonterminal} {u v : List Token} (hu : propositional.Derives B u)
    (hv : propositional.Derives C v)
    (hp : (⟨A, B, C⟩ : Pairing) ∈ propositional.pairings := by
      simp [pairings_propositional, Token.category]) :
    propositional.Derives A (u ++ v) := .of_pairing hp hu hv

lemma derives_of_sentence {w : List Token} (h : Sentence w) :
    propositional.Derives .formula w := by
  induction h with
  | atom name => exact derives_category (.atom name)
  | not _ ih => exact derives_pair (derives_category (.op .not)) ih
  | parens _ ih =>
      have hopen : propositional.Derives .openFormula _ :=
        derives_pair (derives_category .opening) ih
      exact derives_pair hopen (derives_category .closing)
  | @binary k u v hk _ _ ihu ihv =>
      rw [List.append_cons]
      cases k with
      | not => exact absurd rfl hk
      | and =>
          have hand : propositional.Derives .formulaAnd _ :=
            derives_pair ihu (derives_category (.op .and))
          exact derives_pair hand ihv
      | or =>
          have hor : propositional.Derives .formulaOr _ :=
            derives_pair ihu (derives_category (.op .or))
          exact derives_pair hor ihv
      | imp =>
          have himp : propositional.Derives .formulaImp _ :=
            derives_pair ihu (derives_category (.op .imp))
          exact derives_pair himp ihv

/-- **The accepted sequences**: the grammar recognizes the sentences. -/
lemma propositional_recognizes_iff (ts : List Token) :
    propositional.recognizes ts = true ↔ Sentence ts := by
  rw [recognizes_iff_derives]
  exact ⟨yields_of_derives, derives_of_sentence⟩

end Grammar

end Clausal
