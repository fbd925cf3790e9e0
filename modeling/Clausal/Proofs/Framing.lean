/-
The lines that a command prints, and its exit status.

* `CommandLine.IsLine`, `CommandLine.printed`: texts without a line break, and lines in print;
  `CommandLine.splitOn_printed`: the lines are the pieces between the breaks;
* `Token.isLine_spaced`, `Formula.isLine_text`: where all atoms are names, tokens and formulas are
  written without a break;
* `CommandLine.stageLines_of_formula`, `CommandLine.stageLines_of_rejected`: the stages of a text;
* `CommandLine.block_of_exceeds`, `CommandLine.block_of_not_exceeds`: the report on a text;
* `CommandLine.isLine_of_mem_block`, `CommandLine.length_block`: its lines and their number;
* `CommandLine.report`, `CommandLine.answer`: the response to some formulas, and to what was read;
* `Frames`, `CommandLine.respondWith_frames`: the response to every command line, however its words
  are understood.

A text on the command line may have breaks in it, but no break is ever read as a token.
-/
import Clausal.Proofs.Limit
import Clausal.Proofs.Rereading

namespace Clausal

/-! ### Lines -/

namespace CommandLine

/-- Whether a text has no line break. -/
def IsLine (text : String) : Prop := '\n' ∉ text.toList

instance : DecidablePred IsLine := fun text => inferInstanceAs (Decidable ('\n' ∉ text.toList))

/-- Some lines in print, a line break after each. -/
def printed (lines : List String) : String := String.join (lines.map (· ++ "\n"))

lemma isLine_append {a b : String} (ha : IsLine a) (hb : IsLine b) : IsLine (a ++ b) := by
  rw [IsLine, String.toList_append, List.mem_append, not_or]
  exact ⟨ha, hb⟩

lemma printed_cons (line : String) (lines : List String) :
    printed (line :: lines) = line ++ "\n" ++ printed lines := by
  rw [printed, List.map_cons, String.join_cons, printed]

/-- **Lines in print** are the pieces between the line breaks; nothing follows the last break. -/
lemma splitOn_printed {lines : List String} (h : ∀ line ∈ lines, IsLine line) :
    (printed lines).toList.splitOn '\n' = lines.map String.toList ++ [[]] := by
  induction lines with
  | nil => rfl
  | cons line lines ih =>
      obtain ⟨hline, hlines⟩ := List.forall_mem_cons.mp h
      have hbreak : (printed (line :: lines)).toList
          = line.toList ++ '\n' :: (printed lines).toList := by
        rw [printed_cons, String.toList_append, String.toList_append, List.append_assoc]
        rfl
      rw [hbreak, List.splitOn_append_cons_self_of_not_mem hline, ih hlines]
      rfl

/-- The reports on several texts are printed one after the other. -/
lemma printed_flatMap {α : Type} (f : α → List String) (as : List α) :
    printed (as.flatMap f) = String.join (as.map fun a => printed (f a)) := by
  apply String.toList_injective
  simp only [printed, String.toList_join, List.flatMap_map, List.flatMap_assoc]

end CommandLine

/-! ### Line breaks in writing -/

lemma Connective.newline_not_mem_spelling (k : Connective) : '\n' ∉ k.spelling := by
  cases k <;> decide

namespace Token

variable {t : Token} {ts : List Token}

/-- Only an atom is written with a line break. -/
lemma eq_atom_of_newline_mem (h : '\n' ∈ t.spelling) : t = .atom '\n' := by
  cases t with
  | op k => exact absurd h k.newline_not_mem_spelling
  | opening | closing => simp [spelling] at h
  | atom name => rw [List.mem_singleton.mp h]

/-- Neighbouring tokens are separated by a space, so a line break comes from an atom. -/
lemma atom_mem_of_newline_mem (h : '\n' ∈ spacedSpelling ts) : .atom '\n' ∈ ts := by
  induction ts with
  | nil => simp [spacedSpelling] at h
  | cons t ts ih =>
      cases ts with
      | nil =>
          have ht : '\n' ∈ t.spelling := by simpa [spacedSpelling] using h
          exact List.mem_singleton.mpr (eq_atom_of_newline_mem ht).symm
      | cons u us =>
          have hsplit : spacedSpelling (t :: u :: us)
              = t.spelling ++ ' ' :: spacedSpelling (u :: us) := by
            simp [spacedSpelling, List.intercalate_cons_cons]
          rw [hsplit, List.mem_append, List.mem_cons] at h
          rcases h with ht | hspace | hrest
          · exact eq_atom_of_newline_mem ht ▸ List.mem_cons_self
          · cases hspace
          · exact List.mem_cons_of_mem t (ih hrest)

/-- A line break is blank and names no atom. -/
lemma not_isName_newline : ¬IsName '\n' := by decide

lemma isLine_spaced (h : ∀ c, .atom c ∈ ts → IsName c) : CommandLine.IsLine (spaced ts) := by
  rw [CommandLine.IsLine, spaced, String.toList_ofList]
  exact fun hbreak => not_isName_newline (h '\n' (atom_mem_of_newline_mem hbreak))

end Token

namespace Formula

variable {t : Formula}

lemma newline_mem_infixSpelling_iff (k : Connective) (left right : List Char) :
    '\n' ∈ infixSpelling k left right ↔ '\n' ∈ left ∨ '\n' ∈ right := by
  simp [infixSpelling, k.newline_not_mem_spelling]

/-- A line break in a written formula is one of its atoms. -/
lemma newline_mem_spelling_iff : '\n' ∈ t.spelling ↔ '\n' ∈ t.occurrences := by
  induction t with
  | atom name => rfl
  | not a ih => simp [spelling, occurrences, Connective.newline_not_mem_spelling, ih]
  | and a b iha ihb | or a b iha ihb | imp a b iha ihb =>
      rw [spelling, newline_mem_infixSpelling_iff, iha, ihb, occurrences, List.mem_append]

lemma isLine_text (h : ∀ c ∈ t.occurrences, Token.IsName c) : CommandLine.IsLine t.text := by
  rw [CommandLine.IsLine, text, String.toList_ofList, newline_mem_spelling_iff]
  exact fun hbreak => Token.not_isName_newline (h '\n' hbreak)

/-- Postfix order has the atoms of the formula. -/
lemma atom_mem_postorder_iff {c : Char} : .atom c ∈ t.postorder ↔ c ∈ t.occurrences := by
  induction t with
  | atom name => simp [postorder, occurrences]
  | not a ih => simp [postorder, occurrences, ih]
  | and a b iha ihb | or a b iha ihb | imp a b iha ihb =>
      simp [postorder, occurrences, iha, ihb]

end Formula

/-! ### The report on a text -/

namespace CommandLine

open Reading

variable {text : String} {limit : Option ℕ} {t : Formula} {clauses bound : ℕ}

/-- The stages of a formula. -/
lemma stageLines_of_formula (h : (ofText text).formula = .ok t) :
    stageLines (ofText text) = ["tokens: " ++ Token.spaced (Token.ofText text),
      "well-formed: true", "postfix: " ++ Token.spaced t.postorder, "tree: " ++ t.text,
      "implication-free: " ++ t.withoutImp.text, "nnf: " ++ t.nnf.text] := by
  have hwf := wellFormed_of_formula h
  have hsequence : (ofText text).postfixOrder = .ok t.postorder := by
    rw [postfixOrder_of_accepted hwf, ← (grouped_of_formula h).postfixOrder_eq]
    rfl
  simp only [stageLines, hwf, hsequence, h, implicationFree_of_formula h, nnf_of_formula h]
  rfl

/-- A rejected text has no stage after the judgement. -/
lemma stageLines_of_rejected (h : (ofText text).wellFormed = false) :
    stageLines (ofText text)
      = ["tokens: " ++ Token.spaced (Token.ofText text), "well-formed: false"] := by
  obtain ⟨hsequence, -⟩ := failsWith_of_rejected h
  simp only [stageLines, h, hsequence]
  rfl

/-- The report on a text that exceeds the limit. -/
lemma block_of_exceeds (h : Exceeds text limit clauses bound) (stages : Bool) :
    block stages limit text = ⟨(if stages then stageLines (ofText text) else []) ++ ["too large"],
      some (.tooManyClauses clauses bound)⟩ := by
  have hline := ((limited_conclusion text).eq_error_iff _ _ _).mpr h
  simp only [block, hline]

/-- The report on every other text. -/
lemma block_of_not_exceeds (h : ∀ clauses bound, ¬Exceeds text limit clauses bound)
    (stages : Bool) : block stages limit text
      = ⟨(if stages then stageLines (ofText text) else []) ++ [(normalize text).text], none⟩ := by
  have hline := (limited_conclusion text).eq_unlimited _ h
  simp only [block, hline]

/-- The number of lines in the report on a text. -/
def lineCount (stages : Bool) (text : String) : ℕ :=
  if stages then if (ofText text).wellFormed then 7 else 3 else 1

lemma isLine_of_mem_stageLines (text : String) :
    ∀ line ∈ stageLines (ofText text), IsLine line := by
  have htokens : IsLine (Token.spaced (ofText text).tokens) :=
    Token.isLine_spaced fun _ => Token.isName_of_mem_ofText
  cases hwf : (ofText text).wellFormed with
  | false =>
      rw [stageLines_of_rejected hwf]
      simp only [List.forall_mem_cons]
      exact ⟨isLine_append (by decide) htokens, by decide, List.forall_mem_nil _⟩
  | true =>
      obtain ⟨t, ht⟩ := exists_formula hwf
      have hnames := isName_of_mem_occurrences ht
      have hsequence : IsLine (Token.spaced t.postorder) :=
        Token.isLine_spaced fun c hc => hnames c (Formula.atom_mem_postorder_iff.mp hc)
      have hforms : ∀ s ∈ [t, t.withoutImp, t.nnf, t.cnf], IsLine s.text :=
        fun s hs => Formula.isLine_text (Formula.isName_of_mem_normalForm hnames hs)
      rw [stageLines_of_formula ht]
      simp only [List.forall_mem_cons] at hforms ⊢
      obtain ⟨htree, hfree, hnnf, -⟩ := hforms
      exact ⟨isLine_append (by decide) htokens, by decide, isLine_append (by decide) hsequence,
        isLine_append (by decide) htree, isLine_append (by decide) hfree,
        isLine_append (by decide) hnnf, List.forall_mem_nil _⟩

lemma isLine_text_normalize (text : String) : IsLine (normalize text).text := by
  cases hwf : (ofText text).wellFormed with
  | false =>
      rw [normalize_of_rejected hwf]
      decide
  | true =>
      obtain ⟨t, ht⟩ := exists_formula hwf
      have hnames := Formula.isName_of_mem_normalForm (s := t.cnf) (isName_of_mem_occurrences ht)
        (by simp)
      rw [normalize_of_formula ht]
      exact Formula.isLine_text hnames

/-- **The report on a text** consists of its stages, if they are asked for, and one more line, and
has a fault exactly if the text exceeds the limit. -/
lemma exists_block_eq (stages : Bool) (limit : Option ℕ) (text : String) :
    ∃ last fault, IsLine last ∧ block stages limit text
        = ⟨(if stages then stageLines (ofText text) else []) ++ [last], fault⟩
      ∧ (fault.isSome = true ↔ ∃ clauses bound, Exceeds text limit clauses bound) := by
  by_cases hex : ∃ clauses bound, Exceeds text limit clauses bound
  · obtain ⟨clauses, bound, h⟩ := hex
    exact ⟨_, _, by decide, block_of_exceeds h stages, iff_of_true rfl ⟨clauses, bound, h⟩⟩
  · have hno : ∀ clauses bound, ¬Exceeds text limit clauses bound :=
      fun clauses bound h => hex ⟨clauses, bound, h⟩
    exact ⟨_, _, isLine_text_normalize text, block_of_not_exceeds hno stages,
      iff_of_false Bool.false_ne_true hex⟩

lemma isSome_fault_block_iff (stages : Bool) (limit : Option ℕ) (text : String) :
    (block stages limit text).fault.isSome = true
      ↔ ∃ clauses bound, Exceeds text limit clauses bound := by
  obtain ⟨last, fault, -, hblock, hfault⟩ := exists_block_eq stages limit text
  rw [hblock, hfault]

lemma isLine_of_mem_block (stages : Bool) (limit : Option ℕ) (text : String) :
    ∀ line ∈ (block stages limit text).lines, IsLine line := by
  obtain ⟨last, fault, hlast, hblock, -⟩ := exists_block_eq stages limit text
  intro line hline
  rw [hblock, List.mem_append, List.mem_singleton] at hline
  rcases hline with hstage | rfl
  · cases stages with
    | false => cases hstage
    | true => exact isLine_of_mem_stageLines text line hstage
  · exact hlast

lemma length_block (stages : Bool) (limit : Option ℕ) (text : String) :
    (block stages limit text).lines.length = lineCount stages text := by
  obtain ⟨last, fault, -, hblock, -⟩ := exists_block_eq stages limit text
  rw [hblock, List.length_append, lineCount]
  cases stages with
  | false => rfl
  | true =>
      cases hwf : (ofText text).wellFormed with
      | false =>
          rw [if_pos rfl, stageLines_of_rejected hwf]
          rfl
      | true =>
          obtain ⟨t, ht⟩ := exists_formula hwf
          rw [if_pos rfl, stageLines_of_formula ht]
          rfl

/-- The report on a negation that is written on two lines. -/
example : (block true none "\\neg\np").lines = ["tokens: \\neg p", "well-formed: true",
    "postfix: p \\neg", "tree:  \\neg p", "implication-free:  \\neg p", "nnf:  \\neg p",
    " \\neg p"] := by cbv

/-! ### The whole command -/

/-- The response to some formulas. -/
def report (args : Arguments) (formulas : List String) : Response :=
  .ofBlocks (formulas.map (block args.stages args.limit))

/-- The response to the content of a file or of the standard input, if it could be read. -/
def answer (args : Arguments) (content : Option ByteArray) : Response :=
  match content.bind fun bytes => formulaLines bytes.data.toList with
  | some formulas => report args formulas
  | none => .failure 1 "the formulas could not be read"

section Respond

variable {parse : List String → Except Response Arguments} {words : List String} {args : Arguments}
  {m : Type → Type} [Monad m] [LawfulMonad m]

lemma respondWith_of_ne_nil (env : Environment m) (h : parse words = .ok args)
    (hformulas : args.formulas ≠ []) :
    respondWith parse env words = pure (report args args.formulas) := by
  have htexts : texts env args = pure (some args.formulas) := by
    rw [texts, if_neg (mt List.isEmpty_iff.mp hformulas)]
  simp only [respondWith, h, htexts, pure_bind]
  rfl

lemma respondWith_of_eq_nil (env : Environment m) (h : parse words = .ok args)
    (hformulas : args.formulas = []) :
    respondWith parse env words = answer args <$> args.file.elim env.readInput env.readFile := by
  have htexts : texts env args
      = (fun content => content.bind fun bytes => formulaLines bytes.data.toList)
          <$> args.file.elim env.readInput env.readFile := by
    rw [texts, if_pos (List.isEmpty_iff.mpr hformulas), map_eq_pure_bind]
    cases args.file <;> rfl
  simp only [respondWith, h, htexts, bind_map_left]
  rw [map_eq_pure_bind]
  refine bind_congr fun content => ?_
  rw [answer]
  cases content.bind fun bytes => formulaLines bytes.data.toList <;> rfl

end Respond

/-- A response that reports on some formulas in turn. What is printed is one report after the
other, so none has a part in another; each has its number of lines, where the line breaks tell the
lines apart. The status is one if some formula exceeds the limit and else zero. -/
structure Frames (args : Arguments) (formulas : List String) (r : Response) : Prop where
  printed_eq : printed r.lines = String.join (formulas.map fun text =>
    printed (block args.stages args.limit text).lines)
  splitOn_eq : ∀ text ∈ formulas, ∃ lines, lines.length = lineCount args.stages text
    ∧ (printed (block args.stages args.limit text).lines).toList.splitOn '\n' = lines ++ [[]]
  status_eq_one_iff : r.status = 1
    ↔ ∃ text ∈ formulas, ∃ clauses bound, Exceeds text args.limit clauses bound
  status_eq : r.status = 0 ∨ r.status = 1

lemma frames_report (args : Arguments) (formulas : List String) :
    Frames args formulas (report args formulas) where
  printed_eq := by
    have hlines : (report args formulas).lines
        = formulas.flatMap fun text => (block args.stages args.limit text).lines :=
      List.flatMap_map ..
    rw [hlines, printed_flatMap]
  splitOn_eq text _ := by
    refine ⟨(block args.stages args.limit text).lines.map String.toList, ?_, ?_⟩
    · rw [List.length_map, length_block]
    · exact splitOn_printed (isLine_of_mem_block args.stages args.limit text)
  status_eq_one_iff := by
    have hany : (report args formulas).status = 1
        ↔ (formulas.map (block args.stages args.limit)).any (·.fault.isSome) = true := by
      rw [report, Response.ofBlocks]
      split <;> simp_all
    rw [hany, List.any_map, List.any_eq_true]
    exact exists_congr fun text => and_congr_right fun _ => isSome_fault_block_iff _ _ text
  status_eq := by
    rw [report, Response.ofBlocks]
    split
    · exact .inr rfl
    · exact .inl rfl

/-- **The response to a command line**, however its words are understood, reports on its formulas in
turn. They are those on the command line itself if there are any, and then nothing is read; else they
are the lines of the file, or of the standard input if no file is named, that are not blank. -/
theorem respondWith_frames (parse : List String → Except Response Arguments) (words : List String)
    (args : Arguments) (h : parse words = .ok args) :
    (∀ formulas, Frames args formulas (report args formulas))
    ∧ (∀ bytes lines, (byteLines bytes.data.toList).mapM decodeLine = some lines →
        answer args (some bytes) = report args (lines.filter (!isBlankText ·)))
    ∧ ∀ {m : Type → Type} [Monad m] [LawfulMonad m] (env : Environment m),
        (args.formulas ≠ [] → respondWith parse env words = pure (report args args.formulas))
        ∧ (args.formulas = [] → ∀ path, args.file = some path →
            respondWith parse env words = answer args <$> env.readFile path)
        ∧ (args.formulas = [] → args.file = none →
            respondWith parse env words = answer args <$> env.readInput) := by
  refine ⟨frames_report args, fun bytes lines hlines => ?_, fun env =>
    ⟨respondWith_of_ne_nil env h, fun hformulas path hfile => ?_, fun hformulas hfile => ?_⟩⟩
  · rw [answer, Option.bind_some, formulaLines, hlines]
    rfl
  · rw [respondWith_of_eq_nil env h hformulas, hfile]
    rfl
  · rw [respondWith_of_eq_nil env h hformulas, hfile]
    rfl

/-- Two formulas on the command line, the second one with a line break, where no state changes since
nothing is read; and two in a file. -/
theorem respondWith_frames_line_break :
    (∃ args r, Arguments.parse ["--stages", "-c1", "(p \\wedge q) \\vee r", "p\nq"] = .ok args
      ∧ Frames args ["(p \\wedge q) \\vee r", "p\nq"] r
      ∧ ∀ env : Environment (StateM ℕ), respondWith Arguments.parse env
        ["--stages", "-c1", "(p \\wedge q) \\vee r", "p\nq"] = pure r)
    ∧ ∃ args r, Arguments.parse ["-fx"] = .ok args ∧ Frames args ["p", "q"] r
      ∧ ∀ env : Environment Id, env.readFile "x" = some "p\n \nq".toUTF8 →
        respondWith Arguments.parse env ["-fx"] = r := by
  constructor
  · have hwords : Arguments.parse ["--stages", "-c1", "(p \\wedge q) \\vee r", "p\nq"]
        = .ok ⟨none, true, some 1, ["(p \\wedge q) \\vee r", "p\nq"]⟩ := by rfl
    obtain ⟨hframes, -, hrespond⟩ := respondWith_frames _ _ _ hwords
    exact ⟨_, _, hwords, hframes _, fun env => (hrespond env).1 (by simp)⟩
  · have hwords : Arguments.parse ["-fx"] = .ok ⟨some "x", false, none, []⟩ := by rfl
    have hlines : (byteLines "p\n \nq".toUTF8.data.toList).mapM decodeLine
        = some ["p", " ", "q"] := by decide +kernel
    obtain ⟨hframes, hanswer, hrespond⟩ := respondWith_frames _ _ _ hwords
    refine ⟨_, _, hwords, hframes ["p", "q"], fun env hread => ?_⟩
    rw [(hrespond env).2.1 rfl "x" rfl, hread]
    exact hanswer _ _ hlines

end CommandLine

end Clausal
