/-
The entries of an assignment, and what they are in writing.

* `Assignment.lastPair`, `Assignment.get_ofPairs`: of all the pairs for an atom the last one counts;
* `Assignment.ofPairs_eq_iff`: so two sequences of pairs make the same assignment exactly if the
  last pairs of every atom agree;
* `Assignment.mergeSort_of_perm`: listed in any order and then sorted, the entries are in the order
  in which they are written;
* `Assignment.entrySpelling_append_inj`, `Assignment.following_injective`: an entry can be told from
  what follows it, whatever character its atom is;
* `Assignment.text_eq_iff`: **assignments in writing** are the same text exactly if they are equal.
-/
import Mathlib.Tactic
import Clausal.Assignment

namespace Clausal.Assignment

variable {ps qs : List (Char × Bool)} {c : Char}

/-! ### The last pair -/

/-- The last of some pairs for an atom. -/
def lastPair (pairs : List (Char × Bool)) (c : Char) : Option (Char × Bool) :=
  (pairs.filter (·.1 = c)).getLast?

lemma ofPairs_concat (pairs : List (Char × Bool)) (pair : Char × Bool) :
    ofPairs (pairs ++ [pair]) = (ofPairs pairs).set pair.1 pair.2 :=
  List.foldl_concat ..

lemma lastPair_concat (pairs : List (Char × Bool)) (pair : Char × Bool) (c : Char) :
    lastPair (pairs ++ [pair]) c = if c = pair.1 then some pair else lastPair pairs c := by
  rw [lastPair, List.filter_append, List.filter_singleton]
  by_cases h : c = pair.1
  · simp [h]
  · simp [h, Ne.symm h, lastPair]

/-- **The last pair counts**: an atom has the value of the last pair for it, and none if there is no
pair for it. -/
lemma get_ofPairs (pairs : List (Char × Bool)) (c : Char) :
    (ofPairs pairs).get c = (lastPair pairs c).map Prod.snd := by
  induction pairs using List.reverseRecOn with
  | nil => rfl
  | append_singleton pairs pair ih =>
      rw [ofPairs_concat, get_set, lastPair_concat, ih]
      split <;> rfl

/-- The last pair for an atom is made up of the atom and its value. -/
lemma lastPair_eq (pairs : List (Char × Bool)) (c : Char) :
    lastPair pairs c = ((ofPairs pairs).get c).map fun value => (c, value) := by
  rw [get_ofPairs, Option.map_map]
  cases h : lastPair pairs c with
  | none => rfl
  | some pair =>
      have hatom : pair.1 = c := by simpa using (List.mem_filter.mp (List.mem_of_getLast? h)).2
      simp [← hatom]

lemma ofPairs_eq_iff : ofPairs ps = ofPairs qs ↔ ∀ c, lastPair ps c = lastPair qs c := by
  constructor
  · intro h c
    rw [lastPair_eq, h, lastPair_eq]
  · intro h
    exact ext_get fun c => by rw [get_ofPairs, h, get_ofPairs]

/-! ### The order of the entries -/

/-- **Any listing** of the entries of an assignment is sorted by atoms to the entries themselves. -/
lemma mergeSort_of_perm {v : Assignment} {listing : List (Char × Bool)}
    (h : listing.Perm v.entries) : listing.mergeSort (fun a b => a.1 ≤ b.1) = v.entries := by
  have hsorted : v.entries.Pairwise fun a b => a.1 ≤ b.1 :=
    (List.pairwise_map.mp v.increasing).imp Std.le_of_lt
  have hnodup : (v.entries.map Prod.fst).Nodup := v.increasing.imp Std.ne_of_lt
  have hperm : (listing.mergeSort fun a b => a.1 ≤ b.1).Perm v.entries :=
    (List.mergeSort_perm ..).trans h
  have htrans : ∀ a b d : Char × Bool,
      decide (a.1 ≤ b.1) = true → decide (b.1 ≤ d.1) = true → decide (a.1 ≤ d.1) = true := by
    intro a b d
    simpa using Std.le_trans
  have htotal : ∀ a b : Char × Bool, (decide (a.1 ≤ b.1) || decide (b.1 ≤ a.1)) = true := by
    intro a b
    simpa using Std.le_total
  have hsort : (listing.mergeSort fun a b => a.1 ≤ b.1).Pairwise fun a b => a.1 ≤ b.1 := by
    simpa using List.pairwise_mergeSort htrans htotal listing
  refine hperm.eq_of_pairwise (fun a b ha hb hab hba => ?_) hsort hsorted
  -- an atom has one entry only
  exact List.inj_on_of_nodup_map hnodup (hperm.mem_iff.mp ha) hb (Std.le_antisymm hab hba)

/-! ### Writing -/

/-- The characters that follow an entry: the other entries with a comma before each, and the closing
bracket. -/
def following : List (Char × Bool) → List Char
  | [] => [']']
  | entry :: rest => ',' :: ' ' :: (entrySpelling entry ++ following rest)

/-- The first entry and what follows it. -/
lemma intercalate_entrySpelling (entry : Char × Bool) (rest : List (Char × Bool)) :
    [',', ' '].intercalate ((entry :: rest).map entrySpelling) ++ [']']
      = entrySpelling entry ++ following rest := by
  induction rest generalizing entry with
  | nil => simp [following]
  | cons next rest ih =>
      rw [following, ← ih next, List.map_cons, List.map_cons, List.intercalate_cons_cons]
      simp

/-- **Entries in writing** are a prefix code: the atom comes first, and of the two words for its
value neither begins the other. -/
lemma entrySpelling_append_inj {a b : Char × Bool} {u v : List Char}
    (h : entrySpelling a ++ u = entrySpelling b ++ v) : a = b ∧ u = v := by
  obtain ⟨atom, value⟩ := a
  obtain ⟨atom', value'⟩ := b
  cases value <;> cases value' <;> simp_all [entrySpelling]

/-- What follows an entry tells the other entries: a bracket in the place of a comma is the last
one. -/
lemma following_injective : Function.Injective following := by
  intro l r h
  induction l generalizing r with
  | nil =>
      cases r with
      | nil => rfl
      | cons => simp [following] at h
  | cons a l ih =>
      cases r with
      | nil => simp [following] at h
      | cons b r =>
          rw [following, following, List.cons.injEq, List.cons.injEq] at h
          obtain ⟨rfl, hrest⟩ := entrySpelling_append_inj h.2.2
          rw [ih hrest]

/-- **Reading back**: a written assignment determines its entries. Without entries the text is too
short to hold one. -/
lemma entries_eq_of_spelling_eq {v w : Assignment} (h : v.spelling = w.spelling) :
    v.entries = w.entries := by
  rw [spelling, spelling, List.cons.injEq] at h
  replace h := h.2
  cases hv : v.entries with
  | nil =>
      cases hw : w.entries with
      | nil => rfl
      | cons b r =>
          rw [hv, hw, intercalate_entrySpelling] at h
          simp [entrySpelling] at h
  | cons a l =>
      cases hw : w.entries with
      | nil =>
          rw [hv, hw, intercalate_entrySpelling] at h
          simp [entrySpelling] at h
      | cons b r =>
          rw [hv, hw, intercalate_entrySpelling, intercalate_entrySpelling] at h
          obtain ⟨rfl, hrest⟩ := entrySpelling_append_inj h
          rw [following_injective hrest]

lemma text_injective : Function.Injective text := by
  intro v w h
  have hentries := entries_eq_of_spelling_eq (String.ofList_injective h)
  cases v
  cases w
  simpa using hentries

/-- **Assignments in writing** are canonical: two assignments, each made by setting atoms in turn,
have the same text exactly if they are equal, and that is the case exactly if for every atom the
last pair is the same in both or absent in both. So it is with any characters as atoms, brackets,
commas and blanks among them, and in whatever order the entries are found before they are sorted. -/
theorem text_eq_iff (ps qs : List (Char × Bool)) :
    ((ofPairs ps).text = (ofPairs qs).text ↔ ofPairs ps = ofPairs qs)
    ∧ (ofPairs ps = ofPairs qs ↔ ∀ c, lastPair ps c = lastPair qs c)
    ∧ ∀ listing : List (Char × Bool), listing.Perm (ofPairs ps).entries →
        listing.mergeSort (fun a b => a.1 ≤ b.1) = (ofPairs ps).entries :=
  ⟨text_injective.eq_iff, ofPairs_eq_iff, fun _ => mergeSort_of_perm⟩

/-- A comma, a bracket and a blank as atoms, one of them set twice. -/
example : (ofPairs [(']', true), (',', false), (' ', true), (']', false)]).text
    = "[ : true, ,: false, ]: false]" := by decide

end Clausal.Assignment
