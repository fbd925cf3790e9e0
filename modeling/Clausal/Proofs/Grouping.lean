/-
How the connectives of a sequence of tokens group.

* `Grouped`: the reading of a sequence as a formula by strata, one for each connective: negation
  binds tightest, then conjunction, disjunction and implication, and chains of one connective
  group to the right;
* `Grouped.sentence`, `Sentence.exists_grouped`: the sequences with a reading are the sentences;
* `Token.Reads`: the invariant of the operator stack, that a part of the sequence adds the postfix
  order of its formula to the output and leaves the stack as it was;
* `Grouped.reads`, `Grouped.postfixOrder_eq`: a reading has this invariant, so the postfix order of
  a sequence is that of its formula;
* `grouped_iff_recognizes_and_ofPostorder`: the grammar, the operator stack and the stack of
  formulas together find exactly the readings.
-/
import Clausal.Proofs.Grammar.Sentence
import Clausal.Proofs.Postorder
import Clausal.Token.Postfix

namespace Clausal

/-! ### Readings -/

/-- `Grouped k ts t`: the tokens `ts` read as the formula `t`, and outside of parentheses no
connective is weaker than `k`. A stratum has the readings of the next tighter one, and its own
connective between a reading of the next tighter stratum and one of its own. -/
inductive Grouped : Connective → List Token → Formula → Prop
  | imp_of_or {ts : List Token} {t : Formula} (h : Grouped .or ts t) : Grouped .imp ts t
  | imp {u v : List Token} {a b : Formula} (hu : Grouped .or u a) (hv : Grouped .imp v b) :
      Grouped .imp (u ++ .op .imp :: v) (.imp a b)
  | or_of_and {ts : List Token} {t : Formula} (h : Grouped .and ts t) : Grouped .or ts t
  | or {u v : List Token} {a b : Formula} (hu : Grouped .and u a) (hv : Grouped .or v b) :
      Grouped .or (u ++ .op .or :: v) (.or a b)
  | and_of_not {ts : List Token} {t : Formula} (h : Grouped .not ts t) : Grouped .and ts t
  | and {u v : List Token} {a b : Formula} (hu : Grouped .not u a) (hv : Grouped .and v b) :
      Grouped .and (u ++ .op .and :: v) (.and a b)
  | atom (name : Char) : Grouped .not [.atom name] (.atom name)
  | not {u : List Token} {a : Formula} (hu : Grouped .not u a) :
      Grouped .not (.op .not :: u) (.not a)
  | parens {u : List Token} {t : Formula} (hu : Grouped .imp u t) :
      Grouped .not (.opening :: (u ++ [.closing])) t

variable {k l : Connective} {ts u v : List Token} {t a b : Formula}

/-- What has a reading is a sentence. -/
lemma Grouped.sentence (h : Grouped k ts t) : Sentence ts := by
  induction h with
  | imp_of_or _ ih => exact ih
  | imp _ _ ihu ihv => exact .binary nofun ihu ihv
  | or_of_and _ ih => exact ih
  | or _ _ ihu ihv => exact .binary nofun ihu ihv
  | and_of_not _ ih => exact ih
  | and _ _ ihu ihv => exact .binary nofun ihu ihv
  | atom name => exact .atom name
  | not _ ih => exact .not ih
  | parens _ ih => exact .parens ih

/-- A reading without connectives outside of parentheses, negations apart, is one of any kind. -/
lemma Grouped.imp_of_not (h : Grouped .not ts t) : Grouped .imp ts t :=
  .imp_of_or (.or_of_and (.and_of_not h))

/-! ### Chains -/

/-- Operands of the tightest stratum, one after the other, with binary connectives between them. -/
inductive Chain : List Token → Prop
  | single {u : List Token} {a : Formula} (hu : Grouped .not u a) : Chain u
  | link {k : Connective} {u v : List Token} {a : Formula} (hk : k ≠ .not)
      (hu : Grouped .not u a) (hv : Chain v) : Chain (u ++ .op k :: v)

lemma Chain.append (hk : k ≠ .not) (hu : Chain u) (hv : Chain v) : Chain (u ++ .op k :: v) := by
  induction hu with
  | single hu => exact .link hk hu hv
  | link hl hw _ ih =>
      rw [List.append_assoc, List.cons_append]
      exact .link hl hw ih

lemma Chain.not (hu : Chain u) : Chain (.op .not :: u) := by
  cases hu with
  | single hu => exact .single hu.not
  | link hk hw hv => exact .link hk hw.not hv

lemma Grouped.exists_and_or (hu : Grouped .not u a) (hv : Grouped .or v b) :
    ∃ t, Grouped .or (u ++ .op .and :: v) t := by
  cases hv with
  | or_of_and hv => exact ⟨_, .or_of_and (.and hu hv)⟩
  | or hv hw =>
      rw [← List.cons_append, ← List.append_assoc]
      exact ⟨_, .or (.and hu hv) hw⟩

lemma Grouped.exists_and_imp (hu : Grouped .not u a) (hv : Grouped .imp v b) :
    ∃ t, Grouped .imp (u ++ .op .and :: v) t := by
  cases hv with
  | imp_of_or hv =>
      obtain ⟨t, ht⟩ := hu.exists_and_or hv
      exact ⟨t, .imp_of_or ht⟩
  | imp hv hw =>
      obtain ⟨t, ht⟩ := hu.exists_and_or hv
      rw [← List.cons_append, ← List.append_assoc]
      exact ⟨_, .imp ht hw⟩

lemma Grouped.exists_or_imp (hu : Grouped .and u a) (hv : Grouped .imp v b) :
    ∃ t, Grouped .imp (u ++ .op .or :: v) t := by
  cases hv with
  | imp_of_or hv => exact ⟨_, .imp_of_or (.or hu hv)⟩
  | imp hv hw =>
      rw [← List.cons_append, ← List.append_assoc]
      exact ⟨_, .imp (.or hu hv) hw⟩

/-- An operand and a connective before a sequence with a reading give a sequence with a reading:
the connective goes to the first place of its stratum. -/
lemma Grouped.exists_link (hk : k ≠ .not) (hu : Grouped .not u a) (hv : Grouped .imp v b) :
    ∃ t, Grouped .imp (u ++ .op k :: v) t := by
  cases k with
  | not => exact absurd rfl hk
  | and => exact hu.exists_and_imp hv
  | or => exact hu.and_of_not.exists_or_imp hv
  | imp => exact ⟨_, .imp (.or_of_and hu.and_of_not) hv⟩

lemma Chain.exists_grouped (h : Chain ts) : ∃ t, Grouped .imp ts t := by
  induction h with
  | single hu => exact ⟨_, hu.imp_of_not⟩
  | link hk hu _ ih =>
      obtain ⟨t, ht⟩ := ih
      exact hu.exists_link hk ht

lemma Sentence.chain (h : Sentence ts) : Chain ts := by
  induction h with
  | atom name => exact .single (.atom name)
  | not _ ih => exact ih.not
  | parens _ ih =>
      -- inside of the parentheses the chain is grouped, outside it is one operand
      obtain ⟨t, ht⟩ := ih.exists_grouped
      exact .single ht.parens
  | binary hk _ _ ihu ihv => exact ihu.append hk ihv

/-- **Every sentence has a reading**, although the formation rules do not say how it groups. -/
lemma Sentence.exists_grouped (h : Sentence ts) : ∃ t, Grouped .imp ts t :=
  h.chain.exists_grouped

/-! ### The operator stack -/

namespace Token

/-- Whether a part of a sequence with connectives of at least the strength of `k` ends before the
given tokens: at the end, at a closing parenthesis or at a weaker connective. -/
def Ends (k : Connective) : List Token → Prop
  | [] => True
  | .closing :: _ => True
  | .op l :: _ => l.precedence < k.precedence
  | _ => False

/-- Whether connectives of at least the strength of `k` leave the stack alone: its topmost operator
binds no tighter than `k`. -/
def Holds (k : Connective) : List Waiting → Prop
  | .op top :: _ => top.precedence ≤ k.precedence
  | _ => True

variable {stack : List Waiting} {rest : List Token}

lemma Ends.mono (hkl : k.precedence ≤ l.precedence) (h : Ends k rest) : Ends l rest := by
  match rest, h with
  | [], _ => trivial
  | .closing :: _, _ => trivial
  | .op _ :: _, h => exact Nat.lt_of_lt_of_le h hkl

lemma Holds.mono (hkl : k.precedence ≤ l.precedence) (h : Holds k stack) : Holds l stack := by
  match stack, h with
  | [], _ => trivial
  | .opening :: _, _ => trivial
  | .op _ :: _, h => exact Nat.le_trans h hkl

/-- A connective that the stack holds is put on top. -/
lemma postfixFrom_op_of_holds (h : Holds k stack) (rest : List Token) :
    postfixFrom stack (.op k :: rest) = postfixFrom (.op k :: stack) rest := by
  match stack, h with
  | [], _ => rfl
  | .opening :: _, _ => rfl
  | .op top :: _, h =>
      have hk : k.yieldsTo (.op top) = false := decide_eq_false (Nat.not_lt.mpr h)
      rw [postfixFrom, List.takeWhile_cons_of_neg (by simp [hk]),
        List.dropWhile_cons_of_neg (by simp [hk])]
      rfl

/-- Where its operand ends, the topmost operator is released. -/
lemma postfixFrom_of_ends (h : Ends k rest) (stack : List Waiting) :
    postfixFrom (.op k :: stack) rest = .op k :: postfixFrom stack rest := by
  match rest, h with
  | [], _ => rfl
  | .closing :: _, _ => rfl
  | .op l :: _, h =>
      have hl : l.yieldsTo (.op k) = true := decide_eq_true h
      rw [postfixFrom, postfixFrom, List.takeWhile_cons_of_pos hl, List.dropWhile_cons_of_pos hl]
      rfl

/-- **The invariant of the operator stack**: where the stack holds and the sequence ends, the tokens
`ts` add the postfix order of `t` to the output and leave the stack as it was. -/
def Reads (k : Connective) (ts : List Token) (t : Formula) : Prop :=
  ∀ stack rest, Holds k stack → Ends k rest →
    postfixFrom stack (ts ++ rest) = t.postorder ++ postfixFrom stack rest

lemma Reads.mono (hkl : k.precedence ≤ l.precedence) (h : Reads l ts t) : Reads k ts t :=
  fun stack rest hs hr => h stack rest (hs.mono hkl) (hr.mono hkl)

lemma reads_atom (name : Char) : Reads .not [.atom name] (.atom name) := fun _ _ _ _ => rfl

lemma Reads.not (hu : Reads .not u a) : Reads .not (.op .not :: u) (.not a) := by
  intro stack rest hs hr
  calc postfixFrom stack (.op .not :: u ++ rest)
      = postfixFrom (.op .not :: stack) (u ++ rest) := postfixFrom_op_of_holds hs _
    _ = a.postorder ++ postfixFrom (.op .not :: stack) rest := hu _ _ (Nat.le_refl _) hr
    _ = a.postorder ++ .op .not :: postfixFrom stack rest := by rw [postfixFrom_of_ends hr]
    _ = (Formula.not a).postorder ++ postfixFrom stack rest := by simp [Formula.postorder]

lemma Reads.parens (hu : Reads .imp u t) : Reads .not (.opening :: (u ++ [.closing])) t := by
  intro stack rest _ _
  calc postfixFrom stack (.opening :: (u ++ [.closing]) ++ rest)
      = postfixFrom (.opening :: stack) (u ++ .closing :: rest) := by simp [postfixFrom]
    _ = t.postorder ++ postfixFrom (.opening :: stack) (.closing :: rest) :=
        hu _ _ trivial trivial
    _ = t.postorder ++ postfixFrom stack rest := rfl

/-- A binary connective between an operand that binds tighter and one that binds as tight. -/
lemma Reads.binary (hkl : k.precedence < l.precedence) (hu : Reads l u a) (hv : Reads k v b)
    (ht : t.postorder = a.postorder ++ (b.postorder ++ [.op k])) :
    Reads k (u ++ .op k :: v) t := by
  intro stack rest hs hr
  calc postfixFrom stack (u ++ .op k :: v ++ rest)
      = postfixFrom stack (u ++ .op k :: (v ++ rest)) := by simp
    _ = a.postorder ++ postfixFrom stack (.op k :: (v ++ rest)) :=
        hu _ _ (hs.mono hkl.le) hkl
    _ = a.postorder ++ postfixFrom (.op k :: stack) (v ++ rest) := by
        rw [postfixFrom_op_of_holds hs]
    _ = a.postorder ++ (b.postorder ++ postfixFrom (.op k :: stack) rest) := by
        rw [hv _ _ (Nat.le_refl _) hr]
    _ = a.postorder ++ (b.postorder ++ .op k :: postfixFrom stack rest) := by
        rw [postfixFrom_of_ends hr]
    _ = t.postorder ++ postfixFrom stack rest := by simp [ht]

end Token

/-- A reading keeps the invariant of the operator stack. -/
lemma Grouped.reads (h : Grouped k ts t) : Token.Reads k ts t := by
  induction h with
  | imp_of_or _ ih => exact ih.mono (by decide)
  | imp _ _ ihu ihv => exact ihu.binary (by decide) ihv rfl
  | or_of_and _ ih => exact ih.mono (by decide)
  | or _ _ ihu ihv => exact ihu.binary (by decide) ihv rfl
  | and_of_not _ ih => exact ih.mono (by decide)
  | and _ _ ihu ihv => exact ihu.binary (by decide) ihv rfl
  | atom name => exact Token.reads_atom name
  | not _ ih => exact ih.not
  | parens _ ih => exact ih.parens

/-- The postfix order of a sequence is that of the formula it reads as. -/
lemma Grouped.postfixOrder_eq (h : Grouped k ts t) : Token.postfixOrder ts = t.postorder := by
  have := h.reads [] [] trivial trivial
  simpa [Token.postfixOrder, Token.postfixFrom, Waiting.released] using this

lemma Grouped.ofPostorder_postfixOrder (h : Grouped k ts t) :
    Formula.ofPostorder (Token.postfixOrder ts) = .ok t := by
  rw [h.postfixOrder_eq, Formula.ofPostorder_postorder]

/-- **Precedence and grouping**: the accepted sequences from whose postfix order a formula is built
are exactly those that read as the formula by strata. -/
theorem grouped_iff_recognizes_and_ofPostorder (ts : List Token) (t : Formula) :
    Grouped .imp ts t ↔ Grammar.propositional.recognizes ts = true
      ∧ Formula.ofPostorder (Token.postfixOrder ts) = .ok t := by
  rw [Grammar.propositional_recognizes_iff]
  constructor
  · intro h
    exact ⟨h.sentence, h.ofPostorder_postfixOrder⟩
  · rintro ⟨hts, ht⟩
    -- the sequence has some reading, and that is the formula built from its postfix order
    obtain ⟨t', ht'⟩ := hts.exists_grouped
    have heq : t' = t := Except.ok.inj (ht'.ofPostorder_postfixOrder.symm.trans ht)
    exact heq ▸ ht'

/-- A chain of implications groups to the right. -/
example : Formula.ofPostorder (Token.postfixOrder
    [.atom 'p', .op .imp, .atom 'q', .op .imp, .atom 'r'])
      = .ok (.imp (.atom 'p') (.imp (.atom 'q') (.atom 'r'))) := rfl

end Clausal
