/-
Tabular recognition: which nonterminals derive which stretch of a sequence of tokens.

* `Cell`, `Column`: the nonterminals of one stretch, and the cells of all stretches with one end;
* `Cell.combine`, `Cell.joined`: the nonterminals of a stretch from those of its parts;
* `Column.addStart`, `Grammar.columns`: the columns of a sequence, from those of its tail by the
  stretches that start at the new first token;
* `Table`, `Table.cell`, `Table.derives`, `Table.lines`: the table and its use;
* `Grammar.recognizes`: whether the whole sequence is derived from the start symbol.
-/
import Clausal.Grammar.Basic

namespace Clausal

/-- The nonterminals of one stretch of tokens, without repetition. -/
abbrev Cell := List Nonterminal

/-- The cells of the stretches with a common end, the longest stretch first. -/
abbrev Column := List Cell

/-! ### Filling -/

/-- The nonterminals that derive two adjacent stretches, given the cells of the two, in the order of
the pairings. Most cells are empty, and then no pairing is tried. -/
def Cell.combine (pairings : List Pairing) (left right : Cell) : Cell :=
  if left.isEmpty || right.isEmpty then []
  else (pairings.filter fun p => left.contains p.left && right.contains p.right).map Pairing.whole

/-- The cell of a stretch: `lefts` holds the cells of its proper beginnings, the shortest first, and
`rights` those of its proper ends, the longest first. What derives the stretch by an earlier split
comes first. -/
def Cell.joined (pairings : List Pairing) (lefts rights : List Cell) : Cell :=
  (List.zipWith (combine pairings) lefts rights).flatten.eraseDups

/-- Extends columns by the stretches that start one token earlier; `lefts` holds the cells of those
among them that end before the first column, the shortest first. -/
def Column.addStart (pairings : List Pairing) : List Cell → List Column → List Column
  | _, [] => []
  | lefts, column :: rest =>
    let cell := Cell.joined pairings lefts column
    (cell :: column) :: addStart pairings (lefts ++ [cell]) rest

/-- The columns of a sequence of tokens, one for each end. -/
def Grammar.columns (g : Grammar) : List Token → List Column
  | [] => []
  | token :: rest =>
    [g.lexical token] :: Column.addStart g.pairings [g.lexical token] (g.columns rest)

/-! ### Tables -/

/-- The table of a sequence of tokens. -/
structure Table where
  columns : List Column

namespace Table

/-- The number of tokens of the sequence. -/
def size (t : Table) : Nat := t.columns.length

/-- The nonterminals that derive the tokens from position `i` to position `j`, both included; none
if that is not a stretch of the sequence. -/
def cell (t : Table) (i j : Nat) : Cell := ((t.columns[j]?.getD [])[i]?).getD []

/-- Whether a nonterminal derives the tokens from position `i` to position `j`. -/
def derives (t : Table) (i j : Nat) (A : Nonterminal) : Bool := (t.cell i j).contains A

/-- A cell in writing. -/
def cellText (i j : Nat) (cell : Cell) : String :=
  "[" ++ toString i ++ ", " ++ toString j ++ "]: [" ++
    ", ".intercalate (cell.map Nonterminal.name) ++ "]"

/-- The cells that are not empty in writing, by first and then by last position. -/
def lines (t : Table) : List String :=
  (List.range t.size).flatMap fun i =>
    (List.range' i (t.size - i)).filterMap fun j =>
      let cell := t.cell i j
      if cell.isEmpty then none else some (cellText i j cell)

end Table

namespace Grammar

/-- The table of a sequence of tokens. -/
def table (g : Grammar) (ts : List Token) : Table := ⟨g.columns ts⟩

/-- Whether the start symbol derives a sequence of tokens. Nothing derives the empty sequence. -/
def recognizes (g : Grammar) (ts : List Token) : Bool :=
  (g.table ts).derives 0 (ts.length - 1) g.start

end Grammar

end Clausal
