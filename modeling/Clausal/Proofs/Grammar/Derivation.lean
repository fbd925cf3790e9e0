/-
Derivations, and the correctness of tabular recognition.

* `Grammar.Derives`: a nonterminal derives a sequence of tokens;
* `Token.stretch`: the tokens between two positions;
* `Grammar.derives_stretch_iff`: a longer stretch is derived from a pairing by one of its splits;
* `Table.mem_cell_iff`: a cell holds what derives its stretch;
* `Grammar.recognizes_iff_derives`: recognition decides derivability from the start symbol;
* `Grammar.table_decides_derives`: the table is sound, complete and free of repetitions.
-/
import Clausal.Proofs.Grammar.Recurrence

namespace Clausal

/-! ### Stretches -/

namespace Token

/-- The tokens from position `i` to position `j`, both included. -/
def stretch (ts : List Token) (i j : ℕ) : List Token := (ts.drop i).take (j + 1 - i)

variable {ts u v : List Token} {i j k : ℕ}

lemma length_stretch (hij : i ≤ j) (hj : j < ts.length) :
    (stretch ts i j).length = j + 1 - i := by
  rw [stretch, List.length_take, List.length_drop]
  omega

lemma stretch_self (hi : i < ts.length) : stretch ts i i = [ts[i]] := by
  rw [stretch, Nat.add_sub_cancel_left, List.drop_eq_getElem_cons hi]
  rfl

lemma stretch_whole (h : ts ≠ []) : stretch ts 0 (ts.length - 1) = ts := by
  have := List.length_pos_iff.mpr h
  rw [stretch, List.drop_zero]
  exact List.take_of_length_le (by omega)

/-- A stretch falls into two at any of its positions. -/
lemma stretch_append_stretch (hik : i ≤ k) (hkj : k < j) :
    stretch ts i k ++ stretch ts (k + 1) j = stretch ts i j := by
  have hdrop : ts.drop (k + 1) = (ts.drop i).drop (k + 1 - i) := by
    rw [List.drop_drop]
    congr 1
    omega
  have htake : j + 1 - i = (k + 1 - i) + (j + 1 - (k + 1)) := by omega
  rw [stretch, stretch, stretch, hdrop, htake, List.take_add]

/-- Two parts of a stretch are stretches that meet at one of its positions. -/
lemma exists_split_of_append_eq_stretch (hij : i ≤ j) (hj : j < ts.length) (hu : u ≠ [])
    (hv : v ≠ []) (h : u ++ v = stretch ts i j) :
    ∃ k, i ≤ k ∧ k < j ∧ u = stretch ts i k ∧ v = stretch ts (k + 1) j := by
  have hlen := congrArg List.length h
  rw [length_stretch hij hj, List.length_append] at hlen
  have hu' := List.length_pos_iff.mpr hu
  have hv' := List.length_pos_iff.mpr hv
  refine ⟨i + u.length - 1, by omega, by omega, ?_⟩
  rw [← stretch_append_stretch (k := i + u.length - 1) (by omega) (by omega)] at h
  refine List.append_inj h ?_
  rw [length_stretch (by omega) (by omega)]
  omega

end Token

/-! ### Derivations -/

namespace Grammar

/-- A nonterminal derives a sequence of tokens: one token that fits a pattern among its
alternatives, or two parts derived from a pair among them. -/
inductive Derives (g : Grammar) : Nonterminal → List Token → Prop
  | token {r : Rule} {p : Terminal} {s : Token} (hr : r ∈ g.rules)
      (hp : .terminal p ∈ r.alternatives) (hs : p.accepts s = true) : Derives g r.lhs [s]
  | pair {r : Rule} {B C : Nonterminal} {u v : List Token} (hr : r ∈ g.rules)
      (hp : .pair B C ∈ r.alternatives) (hu : Derives g B u) (hv : Derives g C v) :
      Derives g r.lhs (u ++ v)

variable {g : Grammar} {A : Nonterminal} {s : Token} {ts u v : List Token}

/-- Nothing derives the empty sequence. -/
lemma Derives.ne_nil (h : g.Derives A u) : u ≠ [] := by
  induction h with
  | token => simp
  | pair _ _ _ _ ihu _ => simp [ihu]

lemma mem_lexical_iff :
    A ∈ g.lexical s ↔ ∃ r ∈ g.rules, r.lhs = A ∧
      ∃ p, .terminal p ∈ r.alternatives ∧ p.accepts s = true := by
  simp only [lexical, List.mem_map, List.mem_filter, List.any_eq_true]
  constructor
  · rintro ⟨r, ⟨hr, q, hq, hs⟩, rfl⟩
    cases q with
    | terminal p => exact ⟨r, hr, rfl, p, hq, hs⟩
    | pair B C => simp [Production.accepts] at hs
  · rintro ⟨r, hr, rfl, p, hp, hs⟩
    exact ⟨r, ⟨hr, .terminal p, hp, hs⟩, rfl⟩

lemma mem_pairings_iff {p : Pairing} :
    p ∈ g.pairings ↔ ∃ r ∈ g.rules, r.lhs = p.whole ∧ .pair p.left p.right ∈ r.alternatives := by
  simp only [pairings, Rule.pairings, List.mem_flatMap, List.mem_filterMap]
  constructor
  · rintro ⟨r, hr, q, hq, hp⟩
    cases q with
    | terminal t => simp at hp
    | pair B C =>
        simp only [Option.some.injEq] at hp
        subst hp
        exact ⟨r, hr, rfl, hq⟩
  · rintro ⟨r, hr, hA, hq⟩
    exact ⟨r, hr, .pair p.left p.right, hq, by simp [hA]⟩

/-- A single token is derived directly or not at all. -/
lemma derives_singleton_iff : g.Derives A [s] ↔ A ∈ g.lexical s := by
  rw [mem_lexical_iff]
  constructor
  · intro h
    generalize hw : [s] = w at h
    cases h with
    | token hr hp hs =>
        cases hw
        exact ⟨_, hr, rfl, _, hp, hs⟩
    | pair _ _ hu hv =>
        rcases List.append_eq_singleton_iff.mp hw.symm with ⟨hu', _⟩ | ⟨_, hv'⟩
        · exact absurd hu' hu.ne_nil
        · exact absurd hv' hv.ne_nil
  · rintro ⟨r, hr, rfl, p, hp, hs⟩
    exact .token hr hp hs

lemma Derives.of_pairing {p : Pairing} (hp : p ∈ g.pairings) (hu : g.Derives p.left u)
    (hv : g.Derives p.right v) : g.Derives p.whole (u ++ v) := by
  obtain ⟨r, hr, hA, hq⟩ := mem_pairings_iff.mp hp
  exact hA ▸ .pair hr hq hu hv

/-- **Splits**: a stretch of two or more tokens is derived from a pairing whose parts derive the two
sides of one of its splits. -/
lemma derives_stretch_iff {i j : ℕ} (hij : i < j) (hj : j < ts.length) :
    g.Derives A (Token.stretch ts i j) ↔ ∃ k, i ≤ k ∧ k < j ∧ ∃ p ∈ g.pairings, p.whole = A ∧
      g.Derives p.left (Token.stretch ts i k) ∧ g.Derives p.right (Token.stretch ts (k + 1) j) := by
  constructor
  · intro h
    generalize hw : Token.stretch ts i j = w at h
    cases h with
    | token =>
        -- a single token is too short
        have hlen := congrArg List.length hw
        rw [Token.length_stretch hij.le hj, List.length_singleton] at hlen
        omega
    | @pair r B C u v hr hp hu hv =>
        obtain ⟨k, hik, hkj, rfl, rfl⟩ :=
          Token.exists_split_of_append_eq_stretch hij.le hj hu.ne_nil hv.ne_nil hw.symm
        have hmem : (⟨r.lhs, B, C⟩ : Pairing) ∈ g.pairings :=
          mem_pairings_iff.mpr ⟨r, hr, rfl, hp⟩
        exact ⟨k, hik, hkj, _, hmem, rfl, hu, hv⟩
  · rintro ⟨k, hik, hkj, p, hp, rfl, hu, hv⟩
    rw [← Token.stretch_append_stretch hik hkj]
    exact .of_pairing hp hu hv

end Grammar

/-! ### The table -/

lemma Cell.mem_combine_iff {pairings : List Pairing} {left right : Cell} {A : Nonterminal} :
    A ∈ combine pairings left right
      ↔ ∃ p ∈ pairings, p.whole = A ∧ p.left ∈ left ∧ p.right ∈ right := by
  simp only [combine_eq, List.mem_map, List.mem_filter, decide_eq_true_eq]
  constructor
  · rintro ⟨p, ⟨hp, hl, hr⟩, hA⟩
    exact ⟨p, hp, hA, hl, hr⟩
  · rintro ⟨p, hp, hA, hl, hr⟩
    exact ⟨p, ⟨hp, hl, hr⟩, hA⟩

lemma Table.mem_cell_of_lt {g : Grammar} {ts : List Token} {i j : ℕ} {A : Nonterminal}
    (hij : i < j) (hj : j < ts.length) :
    A ∈ (g.table ts).cell i j ↔ ∃ k, i ≤ k ∧ k < j ∧ ∃ p ∈ g.pairings, p.whole = A ∧
      p.left ∈ (g.table ts).cell i k ∧ p.right ∈ (g.table ts).cell (k + 1) j := by
  rw [cell_of_lt hij hj, List.mem_eraseDups, List.mem_flatMap]
  simp only [List.mem_range'_1, Cell.mem_combine_iff, and_assoc, Nat.add_sub_cancel' hij.le]

/-- **Cells are stretches**: a cell holds the nonterminals that derive its stretch. The induction
is on the length of the stretch, since a cell is made of those of shorter stretches. -/
lemma Table.mem_cell_iff (g : Grammar) (ts : List Token) (i j : ℕ) (A : Nonterminal) :
    A ∈ (g.table ts).cell i j ↔ i ≤ j ∧ j < ts.length ∧ g.Derives A (Token.stretch ts i j) := by
  induction hn : j - i using Nat.strong_induction_on generalizing i j A with
  | _ n ih =>
      by_cases h : i ≤ j ∧ j < ts.length
      · obtain ⟨hij, hj⟩ := h
        simp only [hij, hj, true_and]
        rcases hij.lt_or_eq with hij | rfl
        · rw [mem_cell_of_lt hij hj, Grammar.derives_stretch_iff hij hj]
          refine exists_congr fun k => and_congr_right fun hik => and_congr_right fun hkj =>
            exists_congr fun p => and_congr_right fun _ => and_congr_right fun _ => ?_
          -- both sides of the split are shorter
          have hleft := ih (k - i) (by omega) i k p.left rfl
          have hright := ih (j - (k + 1)) (by omega) (k + 1) j p.right rfl
          rw [hleft, hright]
          have hk : k < ts.length := hkj.trans hj
          have hkj' : k + 1 ≤ j := hkj
          simp only [hik, hk, hkj', hj, true_and]
        · rw [cell_self hj, Token.stretch_self hj, Grammar.derives_singleton_iff]
      · rw [cell_eq_nil h]
        simp only [List.not_mem_nil, false_iff]
        exact fun ⟨hij, hj, _⟩ => h ⟨hij, hj⟩

lemma Table.derives_iff (g : Grammar) (ts : List Token) (i j : ℕ) (A : Nonterminal) :
    (g.table ts).derives i j A = true
      ↔ i ≤ j ∧ j < ts.length ∧ g.Derives A (Token.stretch ts i j) := by
  rw [derives, List.contains_iff_mem, mem_cell_iff]

/-- Recognition decides derivability from the start symbol. -/
lemma Grammar.recognizes_iff_derives (g : Grammar) (ts : List Token) :
    g.recognizes ts = true ↔ g.Derives g.start ts := by
  rw [recognizes, Table.derives_iff]
  by_cases h : ts = []
  · subst h
    simp only [List.length_nil, Nat.not_lt_zero, false_and, and_false, false_iff]
    exact fun hd => hd.ne_nil rfl
  · have hlen : ts.length - 1 < ts.length := Nat.sub_lt (List.length_pos_iff.mpr h) Nat.one_pos
    simp [hlen, Token.stretch_whole h]

/-- **The table decides derivability**, for every grammar and every sequence: a nonterminal is in a
cell exactly if the cell is one of the sequence and the nonterminal derives its stretch, no cell
repeats a nonterminal, and recognition is derivability from the start symbol. -/
theorem Grammar.table_decides_derives (g : Grammar) (ts : List Token) :
    (∀ i j A, (g.table ts).derives i j A = true
      ↔ i ≤ j ∧ j < ts.length ∧ g.Derives A (Token.stretch ts i j))
    ∧ (∀ i j, ((g.table ts).cell i j).Nodup)
    ∧ (g.recognizes ts = true ↔ g.Derives g.start ts) :=
  ⟨Table.derives_iff g ts, Table.nodup_cell g ts, g.recognizes_iff_derives ts⟩

end Clausal
