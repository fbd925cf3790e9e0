/-
The sentences by local conditions and by counting parentheses.

* `Token.beginsOperand`, `Token.endsOperand`, `Token.followsOperand`, `Token.Meets`: the places a
  token may have, and which tokens may stand next to each other;
* `Phase.run_eq_operator_iff`: operands and operators alternate exactly if the first, the last and
  all adjacent tokens fit;
* `Token.Closes`, `Token.closes_iff_count`: the tokens close so many parentheses besides those
  they open, step by step and by counting;
* `Sentence.closes_append_iff`: a sentence closes what it opens and no more;
* `Continues`: what may come after an operand that stands inside so many parentheses;
* `sentence_iff_run_and_closes`: what alternates and is balanced is a sentence;
* `Grammar.recognizes_iff_alternates_and_balanced`: the accepted sequences in these terms.
-/
import Clausal.Proofs.Alternation
import Clausal.Proofs.Lists

namespace Clausal

/-! ### Neighbours -/

namespace Token

/-- Whether an operand can begin with a token: an atom, an opening parenthesis or a negation
sign. -/
def beginsOperand : Token → Bool
  | .atom _ | .opening => true
  | .op k => k = .not
  | .closing => false

/-- Whether an operand can end with a token: an atom or a closing parenthesis. -/
def endsOperand : Token → Bool
  | .atom _ | .closing => true
  | .op _ | .opening => false

/-- Whether a token can come right after an operand: a closing parenthesis or a binary
connective. -/
def followsOperand : Token → Bool
  | .closing => true
  | .op k => k ≠ .not
  | .atom _ | .opening => false

/-- Whether `y` can come right after `x`: after the end of an operand comes what follows one, and
after anything else an operand begins. -/
def Meets (x y : Token) : Prop :=
  (x.endsOperand = true → y.followsOperand = true)
    ∧ (x.endsOperand = false → y.beginsOperand = true)

end Token

namespace Phase

/-- What is expected after a token, wherever it stands. -/
def after (s : Token) : Phase := if s.endsOperand then .operator else .operand

/-- Whether a token is one of those expected. -/
def Admits : Phase → Token → Prop
  | .operand, s => s.beginsOperand = true
  | .operator, s => s.followsOperand = true

lemma next_eq_some_iff {p q : Phase} {s : Token} :
    p.next s = some q ↔ p.Admits s ∧ after s = q := by
  cases p <;> cases s <;>
    simp [next, Admits, after, Token.beginsOperand, Token.endsOperand, Token.followsOperand]

lemma admits_after_iff {x y : Token} : (after x).Admits y ↔ x.Meets y := by
  cases h : x.endsOperand <;> simp [after, Admits, Token.Meets, h]

/-- A run succeeds exactly if its first token is expected and each token admits the next one. The
last token decides where it ends. -/
lemma run_eq_some_iff {p q : Phase} {ts : List Token} :
    p.run ts = some q ↔ (∀ s ∈ ts.head?, p.Admits s) ∧ ts.IsChain Token.Meets
      ∧ (ts.getLast?.map after).getD p = q := by
  induction ts generalizing p with
  | nil => simp
  | cons s ts ih =>
      have hlast : (((s :: ts).getLast?).map after).getD p
          = (ts.getLast?.map after).getD (after s) := by
        cases ts <;> simp [List.getLast?_cons]
      simp only [run_cons, Option.bind_eq_some_iff, next_eq_some_iff, ih, hlast, List.isChain_cons,
        List.head?_cons, Option.mem_some_iff, forall_eq']
      constructor
      · rintro ⟨_, ⟨hs, rfl⟩, hhead, hchain, hq⟩
        exact ⟨hs, ⟨fun y hy => admits_after_iff.mp (hhead y hy), hchain⟩, hq⟩
      · rintro ⟨hs, ⟨hhead, hchain⟩, hq⟩
        exact ⟨_, ⟨hs, rfl⟩, fun y hy => admits_after_iff.mpr (hhead y hy), hchain, hq⟩

/-- A run from an operand to an operator, by the first, the last and the adjacent tokens. -/
lemma run_eq_operator_iff {ts : List Token} :
    run .operand ts = some .operator ↔ ts ≠ [] ∧ (∀ s ∈ ts.head?, s.beginsOperand = true)
      ∧ (∀ s ∈ ts.getLast?, s.endsOperand = true) ∧ ts.IsChain Token.Meets := by
  have hlast : (ts.getLast?.map after).getD .operand = .operator
      ↔ ts ≠ [] ∧ ∀ s ∈ ts.getLast?, s.endsOperand = true := by
    cases h : ts.getLast? with
    | none => simp [List.getLast?_eq_none_iff.mp h]
    | some s =>
        have hne : ts ≠ [] := by rintro rfl; simp at h
        simp [hne, after]
  rw [run_eq_some_iff, hlast]
  exact ⟨fun ⟨hhead, hchain, hne, hend⟩ => ⟨hne, hhead, hend, hchain⟩,
    fun ⟨hne, hhead, hend, hchain⟩ => ⟨hhead, hchain, hne, hend⟩⟩

end Phase

/-! ### Parentheses -/

namespace Token

/-- Whether the tokens close `d` parentheses besides those they open, and never more than are
open. -/
def Closes : ℕ → List Token → Prop
  | d, [] => d = 0
  | d, .opening :: ts => Closes (d + 1) ts
  | 0, .closing :: _ => False
  | d + 1, .closing :: ts => Closes d ts
  | d, .op _ :: ts => Closes d ts
  | d, .atom _ :: ts => Closes d ts

/-- **Counting parentheses**: the tokens close `d` parentheses besides their own exactly if no
beginning closes more than it opens and `d`, and all of them together close just as many. -/
lemma closes_iff_count {d : ℕ} {ts : List Token} :
    Closes d ts ↔ (∀ p, p <+: ts → p.count .closing ≤ d + p.count .opening)
      ∧ ts.count .closing = d + ts.count .opening := by
  induction ts generalizing d with
  | nil => simp [Closes, eq_comm]
  | cons s ts ih =>
      rw [forall_prefix_cons_iff]
      cases s with
      | op k => simp [Closes, ih]
      | atom name => simp [Closes, ih]
      | opening =>
          simp only [Closes, ih, List.count_cons]
          simp [Nat.add_assoc, Nat.add_comm 1]
      | closing =>
          cases d with
          | zero =>
              simp only [Closes, false_iff]
              -- the parenthesis alone closes too many
              rintro ⟨⟨_, hle⟩, _⟩
              simpa using hle [] List.nil_prefix
          | succ d =>
              simp only [Closes, ih, List.count_cons]
              simp [Nat.add_right_comm]

end Token

variable {d : ℕ} {u ts : List Token}

/-- A sentence closes what it opens and no more. -/
lemma Sentence.closes_append_iff (h : Sentence u) (rest : List Token) :
    Token.Closes d (u ++ rest) ↔ Token.Closes d rest := by
  induction h generalizing d rest with
  | atom name => rfl
  | not _ ih => exact ih rest
  | parens _ ih =>
      rw [List.cons_append, List.append_assoc, Token.Closes, ih]
      rfl
  | binary _ _ _ ihu ihv => rw [List.append_assoc, ihu, List.cons_append, Token.Closes, ihv]

lemma Sentence.closes (h : Sentence ts) : Token.Closes 0 ts := by
  rw [← List.append_nil ts, h.closes_append_iff]
  rfl

/-! ### Finding the operands -/

/-- What may come after an operand that stands inside `d` open parentheses: binary connectives with
further operands, and a closing parenthesis for each open one. -/
inductive Continues : ℕ → List Token → Prop
  | nil : Continues 0 []
  | closing {d : ℕ} {ts : List Token} (h : Continues d ts) : Continues (d + 1) (.closing :: ts)
  | binary {k : Connective} {d : ℕ} {u ts : List Token} (hk : k ≠ .not) (hu : Sentence u)
      (h : Continues d ts) : Continues d (.op k :: (u ++ ts))

/-- Outside of all parentheses, an operand and its continuation are a sentence. -/
lemma Continues.sentence (h : Continues 0 ts) (hu : Sentence u) : Sentence (u ++ ts) := by
  generalize hd : 0 = d at h
  induction h generalizing u with
  | nil => rwa [List.append_nil]
  | closing => cases hd
  | binary hk hv _ ih =>
      rw [← List.cons_append, ← List.append_assoc]
      exact ih (hu.binary hk hv) hd

/-- **The matching parenthesis**: an operand inside of a parenthesis can be continued to one that
the parenthesis encloses. -/
lemma Continues.exists_closing (h : Continues (d + 1) ts) (hu : Sentence u) :
    ∃ v rest, Sentence v ∧ u ++ ts = v ++ .closing :: rest ∧ Continues d rest := by
  generalize hd : d + 1 = e at h
  induction h generalizing u with
  | nil => cases hd
  | closing h =>
      cases hd
      exact ⟨u, _, hu, rfl, h⟩
  | @binary k d w ts hk hw _ ih =>
      obtain ⟨v, rest, hv, heq, hrest⟩ := ih (hu.binary hk hw) hd
      refine ⟨v, rest, hv, ?_, hrest⟩
      rw [← heq, List.append_assoc, List.cons_append]

/-- What the rest of a sequence is, inside of `d` open parentheses: an operand and its continuation
where an operand is expected, and the continuation of one where an operator is. -/
def Phase.Resumes : Phase → ℕ → List Token → Prop
  | .operand, d, ts => ∃ u rest, Sentence u ∧ Continues d rest ∧ ts = u ++ rest
  | .operator, d, ts => Continues d ts

/-- **Finding the operands**: a sequence that alternates and closes the open parentheses falls into
operands and what continues them. The induction is on the sequence, and the first token decides
which phase and which depth the rest has. -/
lemma Phase.resumes_of_run {p : Phase} (hrun : p.run ts = some .operator)
    (hcloses : Token.Closes d ts) : p.Resumes d ts := by
  induction ts generalizing p d with
  | nil =>
      cases hrun
      cases hcloses
      exact .nil
  | cons s ts ih =>
      rw [run_cons] at hrun
      obtain ⟨q, hnext, hrest⟩ := Option.bind_eq_some_iff.mp hrun
      cases p with
      | operand =>
          cases s with
          | op k =>
              obtain ⟨rfl, rfl⟩ : k = .not ∧ q = .operand := by simpa [next, eq_comm] using hnext
              obtain ⟨u, rest, hu, hcont, rfl⟩ := ih hrest hcloses
              exact ⟨_, rest, hu.not, hcont, rfl⟩
          | opening =>
              cases hnext
              obtain ⟨u, rest, hu, hcont, rfl⟩ := ih hrest hcloses
              obtain ⟨v, rest, hv, heq, hcont⟩ := hcont.exists_closing hu
              exact ⟨_, rest, hv.parens, hcont, by simp [heq]⟩
          | closing => cases hnext
          | atom name =>
              cases hnext
              exact ⟨_, ts, .atom name, ih hrest hcloses, rfl⟩
      | operator =>
          cases s with
          | op k =>
              obtain ⟨hk, rfl⟩ : k ≠ .not ∧ q = .operand := by simpa [next, eq_comm] using hnext
              obtain ⟨u, rest, hu, hcont, rfl⟩ := ih hrest hcloses
              exact .binary hk hu hcont
          | opening => cases hnext
          | closing =>
              cases hnext
              cases d with
              | zero => exact hcloses.elim
              | succ d => exact .closing (ih hrest hcloses)
          | atom name => cases hnext

/-- The sentences are the sequences in which operands and operators alternate and parentheses are
balanced. -/
lemma sentence_iff_run_and_closes :
    Sentence ts ↔ Phase.run .operand ts = some .operator ∧ Token.Closes 0 ts := by
  constructor
  · intro h
    exact ⟨h.run, h.closes⟩
  · rintro ⟨hrun, hcloses⟩
    obtain ⟨u, rest, hu, hcont, rfl⟩ := Phase.resumes_of_run hrun hcloses
    exact hcont.sentence hu

/-- **Alternation and balance**: the grammar of formulas accepts exactly the sequences that are not
empty, begin and end like an operand, have only tokens next to each other that may be so, never
close more parentheses than they have opened, and close all of them. -/
theorem Grammar.recognizes_iff_alternates_and_balanced (ts : List Token) :
    propositional.recognizes ts = true ↔ ts ≠ []
      ∧ (∀ s ∈ ts.head?, s.beginsOperand = true) ∧ (∀ s ∈ ts.getLast?, s.endsOperand = true)
      ∧ ts.IsChain Token.Meets ∧ (∀ p, p <+: ts → p.count .closing ≤ p.count .opening)
      ∧ ts.count .closing = ts.count .opening := by
  rw [propositional_recognizes_iff, sentence_iff_run_and_closes, Phase.run_eq_operator_iff,
    Token.closes_iff_count]
  simp only [Nat.zero_add, and_assoc]

end Clausal
