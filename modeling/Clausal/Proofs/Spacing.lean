/-
Blank characters in what a command reads.

* `Token.ofText_eq_nil_iff`, `Token.ofText_squeezed`: the tokens of a text come from the characters
  that are not blank;
* `CommandLine.block_squeezed`: so does the report on a text;
* `CommandLine.condensed`: a content line by line, without its blanks and its blank lines;
  `CommandLine.condensed_append_newline`, `CommandLine.condensed_eq_nil_iff`,
  `CommandLine.condensed_withReturns`, `CommandLine.condensed_unspaced`: what makes no difference
  to it;
* `CommandLine.answer_toUTF8`: the response to a content is the report on the condensed content;
* `CommandLine.TakesContent`, `CommandLine.respondWith_ignores_blanks`: two commands with the same
  choices, however their words are understood, respond alike to contents that differ in nothing else.
-/
import Clausal.Proofs.Encoding
import Clausal.Proofs.Framing

namespace Clausal

/-! ### Blanks in a text -/

namespace Text

/-- A text without its blanks. -/
def squeezed (text : String) : String := String.ofList (withoutBlanks text.toList)

lemma withoutBlanks_eq_nil_iff {cs : List Char} :
    withoutBlanks cs = [] ↔ cs.all isBlank = true := by
  simp [withoutBlanks]

lemma withoutBlanks_withoutBlanks (cs : List Char) :
    withoutBlanks (withoutBlanks cs) = withoutBlanks cs := by
  simp [withoutBlanks]

end Text

namespace Token

lemma scan_eq_nil_iff {cs : List Char} : scan cs = [] ↔ cs = [] := by
  induction cs using scan.induct with
  | case1 => simp [scan]
  | case2 c cs k hk _ => simp [scan_of_leading? hk]
  | case3 c cs hk _ => simp [scan_of_leading?_none hk]

/-- **A text without tokens** is one of blanks only. -/
lemma ofText_eq_nil_iff {text : String} :
    ofText text = [] ↔ CommandLine.isBlankText text = true := by
  rw [CommandLine.isBlankText, ← Text.withoutBlanks_eq_nil_iff, ← scan_eq_nil_iff]
  rfl

lemma ofText_squeezed (text : String) : ofText (Text.squeezed text) = ofText text := by
  rw [Text.squeezed, ofText_ofList, Text.withoutBlanks_withoutBlanks]
  rfl

end Token

namespace CommandLine

open Reading

variable {a b : String}

/-! ### Reports -/

/-- The report on a text depends on its tokens only: a formula is that of the tokens, and a rejected
text is not printed. -/
lemma block_eq_of_ofText_eq (h : Token.ofText a = Token.ofText b) (stages : Bool)
    (limit : Option ℕ) : block stages limit a = block stages limit b := by
  have hjudgement : (ofText a).wellFormed = (ofText b).wellFormed :=
    congrArg Grammar.propositional.recognizes h
  cases hwf : (ofText a).wellFormed with
  | false =>
      have hwf' : (ofText b).wellFormed = false := hjudgement.symm.trans hwf
      simp only [block, (result_of_rejected hwf limit).2, (result_of_rejected hwf' limit).2,
        stageLines_of_rejected hwf, stageLines_of_rejected hwf', h]
  | true =>
      obtain ⟨t, ht⟩ := exists_formula hwf
      have ht' : (ofText b).formula = .ok t := formula_of_grouped (h ▸ grouped_of_formula ht)
      have hcnf : (ofText a).cnf limit = (ofText b).cnf limit := by
        cases limit with
        | none => rw [cnf_of_formula ht, cnf_of_formula ht']
        | some m => rw [cnf_some_of_formula ht, cnf_some_of_formula ht']
      simp only [block, conclusion, hcnf, stageLines_of_formula ht, stageLines_of_formula ht', h]

lemma block_squeezed (stages : Bool) (limit : Option ℕ) (text : String) :
    block stages limit (Text.squeezed text) = block stages limit text :=
  block_eq_of_ofText_eq (Token.ofText_squeezed text) stages limit

lemma report_map_squeezed (args : Arguments) (formulas : List String) :
    report args (formulas.map Text.squeezed) = report args formulas := by
  have hblocks : (formulas.map Text.squeezed).map (block args.stages args.limit)
      = formulas.map (block args.stages args.limit) := by
    rw [List.map_map]
    exact List.map_congr_left fun text _ => block_squeezed args.stages args.limit text
  rw [report, hblocks, report]

/-! ### Contents -/

/-- Some lines without their blanks, less those of blanks only. -/
def condense (lines : List (List Char)) : List String :=
  (lines.filter fun line => !line.all Text.isBlank).map fun line =>
    String.ofList (Text.withoutBlanks line)

/-- A content line by line, without its blanks, less the lines of blanks only. -/
def condensed (content : String) : List String := condense (content.toList.splitOn '\n')

lemma condense_append (lines more : List (List Char)) :
    condense (lines ++ more) = condense lines ++ condense more := by
  rw [condense, List.filter_append, List.map_append, condense, condense]

/-- Changing lines in their blanks makes no difference. -/
lemma condense_map {f : List Char → List Char}
    (hf : ∀ line, Text.withoutBlanks (f line) = Text.withoutBlanks line)
    (lines : List (List Char)) : condense (lines.map f) = condense lines := by
  have hkeep : (fun line : List Char => !line.all Text.isBlank) ∘ f
      = fun line => !line.all Text.isBlank := by
    funext line
    have hall : (f line).all Text.isBlank = line.all Text.isBlank := by
      rw [Bool.eq_iff_iff, ← Text.withoutBlanks_eq_nil_iff, hf, Text.withoutBlanks_eq_nil_iff]
    simp only [Function.comp_apply, hall]
  have hshow : (fun line => String.ofList (Text.withoutBlanks line)) ∘ f
      = fun line => String.ofList (Text.withoutBlanks line) := by
    funext line
    simp only [Function.comp_apply, hf]
  rw [condense, List.filter_map, List.map_map, hkeep, hshow, condense]

lemma withoutBlanks_withoutReturnChar (line : List Char) :
    Text.withoutBlanks (withoutReturnChar line) = Text.withoutBlanks line := by
  rw [withoutReturnChar]
  split
  · next h =>
    obtain ⟨cs, rfl⟩ := List.getLast?_eq_some_iff.mp h
    rw [List.dropLast_concat, Text.withoutBlanks_append]
    exact (List.append_nil _).symm
  · rfl

/-- A carriage return before a line break is blank, and so is an empty line at the end. -/
lemma condense_textLines (cs : List Char) : condense (textLines cs) = condense (cs.splitOn '\n') := by
  obtain ⟨pieces, last, hpieces⟩ := exists_splitOn_eq_concat '\n' cs
  have hlast : condense ([last].filter (· ≠ [])) = condense [last] := by
    by_cases h : last = []
    · rw [h]
      rfl
    · simp [h]
  rw [textLines, hpieces]
  simp only [List.dropLast_concat, List.getLast?_concat, Option.toList_some, condense_append,
    condense_map withoutBlanks_withoutReturnChar, hlast]

/-- **The formulas of a content** are its lines, and without their blanks they are the condensed
content. -/
lemma exists_formulaLines_toUTF8 (content : String) :
    ∃ formulas, formulaLines content.toUTF8.data.toList = some formulas
      ∧ formulas.map Text.squeezed = condensed content := by
  refine ⟨_, by rw [formulaLines, mapM_decodeLine_byteLines, Option.map_some], ?_⟩
  rw [condensed, ← condense_textLines, condense, List.filter_map, List.map_map]
  simp only [Function.comp_def, isBlankText, Text.squeezed, String.toList_ofList]

/-- **The response to a content** is the report on the condensed content. -/
lemma answer_toUTF8 (args : Arguments) (content : String) :
    answer args (some content.toUTF8) = report args (condensed content) := by
  obtain ⟨formulas, hformulas, hcondensed⟩ := exists_formulaLines_toUTF8 content
  rw [answer, Option.bind_some, hformulas, ← hcondensed, report_map_squeezed]

/-! ### What makes no difference -/

/-- A content with a carriage return put before each line break. -/
def withReturns (content : String) : String :=
  String.ofList (content.toList.flatMap fun c => if c = '\n' then ['\r', '\n'] else [c])

/-- Whether a character is read or ends a line. -/
def isSolid (c : Char) : Bool := c == '\n' || !Text.isBlank c

/-- A content without any blanks but the line breaks. -/
def unspaced (content : String) : String := String.ofList (content.toList.filter isSolid)

/-- A line break separates what is condensed before it from what is condensed after it. -/
lemma condensed_append_newline (content more : String) :
    condensed (content ++ "\n" ++ more) = condensed content ++ condensed more := by
  have hbreak : (content ++ "\n" ++ more).toList = content.toList ++ '\n' :: more.toList := by
    rw [String.toList_append, String.toList_append, List.append_assoc]
    rfl
  rw [condensed, hbreak, List.splitOn_append_cons_self, condense_append, condensed, condensed]

lemma all_splitOn_newline (cs : List Char) :
    (cs.splitOn '\n').all (·.all Text.isBlank) = cs.all Text.isBlank := by
  induction cs with
  | nil => rfl
  | cons c cs ih =>
      obtain ⟨piece, pieces, hpieces⟩ := List.exists_cons_of_ne_nil (List.splitOn_ne_nil '\n' cs)
      rw [List.splitOn_cons_eq_if_modifyHead, List.all_cons, ← ih]
      split
      · next h =>
        rw [eq_of_beq h]
        rfl
      · rw [hpieces]
        simp only [List.modifyHead_cons, List.all_cons, Bool.and_assoc]

/-- Nothing is left exactly of a content of blanks only. -/
lemma condensed_eq_nil_iff {content : String} :
    condensed content = [] ↔ isBlankText content = true := by
  rw [isBlankText, ← all_splitOn_newline, condensed, condense, List.map_eq_nil_iff,
    List.filter_eq_nil_iff, List.all_eq_true]
  simp

lemma filter_isSolid_eq_flatMap (cs : List Char) :
    cs.filter isSolid = cs.flatMap fun c => [c].filter isSolid := by
  rw [← List.filter_flatMap, List.flatMap_singleton']

/-- Only the characters that are read and the line breaks count: the content may be cut up before or
after the others are dropped. -/
lemma condensed_unspaced (content : String) : condensed (unspaced content) = condensed content := by
  have hsep : ['\n'].filter isSolid = ['\n'] := rfl
  have hother : ∀ c, c ≠ '\n' → '\n' ∉ [c].filter isSolid := by
    intro c hc hmem
    exact hc (List.mem_singleton.mp (List.mem_of_mem_filter hmem)).symm
  have hsplit : (content.toList.filter isSolid).splitOn '\n'
      = (content.toList.splitOn '\n').map (·.filter isSolid) := by
    rw [filter_isSolid_eq_flatMap, splitOn_flatMap (f := fun c => [c].filter isSolid) hsep hother]
    exact List.map_congr_left fun piece _ => (filter_isSolid_eq_flatMap piece).symm
  have hsolid (line : List Char) :
      Text.withoutBlanks (line.filter isSolid) = Text.withoutBlanks line := by
    rw [Text.withoutBlanks, List.filter_filter, Text.withoutBlanks]
    exact List.filter_congr fun c _ => by cases h : Text.isBlank c <;> simp [isSolid, h]
  rw [condensed, unspaced, String.toList_ofList, hsplit, condense_map hsolid, condensed]

lemma unspaced_withReturns (content : String) :
    unspaced (withReturns content) = unspaced content := by
  have hchar (c : Char) :
      (if c = '\n' then ['\r', '\n'] else [c]).filter isSolid = [c].filter isSolid := by
    split
    · next h =>
      rw [h]
      rfl
    · rfl
  rw [unspaced, withReturns, String.toList_ofList, List.filter_flatMap, unspaced,
    filter_isSolid_eq_flatMap]
  simp only [hchar]

lemma condensed_withReturns (content : String) :
    condensed (withReturns content) = condensed content := by
  rw [← condensed_unspaced, unspaced_withReturns, condensed_unspaced]

/-! ### Two commands -/

section TwoCommands

variable {m : Type → Type} [Monad m]

/-- Whether a command without formulas of its own is understood as the choices `args`, and finds the
content where they tell it to read. -/
structure TakesContent (parse : List String → Except Response Arguments) (env : Environment m)
    (words : List String) (args : Arguments) (content : String) : Prop where
  parse_eq : parse words = .ok args
  formulas_eq : args.formulas = []
  source_eq : args.file.elim env.readInput env.readFile = pure (some content.toUTF8)

lemma TakesContent.respondWith_eq [LawfulMonad m] {parse : List String → Except Response Arguments}
    {env : Environment m} {words : List String} {args : Arguments} {content : String}
    (h : TakesContent parse env words args content) :
    respondWith parse env words = pure (report args (condensed content)) := by
  rw [respondWith_of_eq_nil env h.parse_eq h.formulas_eq, h.source_eq, map_pure, answer_toUTF8]

end TwoCommands

/-- **Blanks make no difference** to a command, but for line breaks: if two contents in UTF-8 are the
same once they are cut into lines, the lines of blanks only are left out and the blanks of the other
lines deleted, commands with the same choices respond to them alike, however words are understood. So
it is with contents that differ in carriage returns before the line breaks, in any other blanks, within
a reserved word or outside, in blank lines and in a line break at the end; and a line is left out
exactly if it has no tokens. -/
theorem respondWith_ignores_blanks :
    (∀ (parse : List String → Except Response Arguments) {m : Type → Type} [Monad m] [LawfulMonad m]
      (env env' : Environment m) (words words' : List String) (args args' : Arguments)
      (content content' : String),
      TakesContent parse env words args content → TakesContent parse env' words' args' content' →
      args.stages = args'.stages → args.limit = args'.limit →
      condensed content = condensed content' →
      ∃ r : Response, respondWith parse env words = pure r ∧ respondWith parse env' words' = pure r)
    ∧ (∀ content, condensed (withReturns content) = condensed content)
    ∧ (∀ content, condensed (unspaced content) = condensed content)
    ∧ (∀ content, condensed (content ++ "\n") = condensed content)
    ∧ (∀ content more, condensed (content ++ "\n" ++ more) = condensed content ++ condensed more)
    ∧ (∀ content, condensed content = [] ↔ isBlankText content = true)
    ∧ ∀ bytes, formulaLines bytes = ((byteLines bytes).mapM decodeLine).map fun lines =>
        lines.filter fun line => !(Token.ofText line).isEmpty := by
  refine ⟨?_, condensed_withReturns, condensed_unspaced, fun content => ?_,
    condensed_append_newline, fun _ => condensed_eq_nil_iff, fun bytes => ?_⟩
  · intro parse m _ _ env env' words words' args args' content content' h h' hstages hlimit hcondensed
    refine ⟨report args (condensed content), h.respondWith_eq, ?_⟩
    rw [h'.respondWith_eq, ← hcondensed, report, report, hstages, hlimit]
  · have hempty : condensed "" = [] := rfl
    rw [← String.append_empty (s := content ++ "\n"), condensed_append_newline, hempty,
      List.append_nil]
  · have hblank : isBlankText = fun line => (Token.ofText line).isEmpty := by
      funext line
      rw [Bool.eq_iff_iff, List.isEmpty_iff, Token.ofText_eq_nil_iff]
    rw [formulaLines, hblank]

/-- The same two texts in a file and on the standard input, where blanks break up a reserved word. -/
theorem respondWith_ignores_blanks_reserved_word :
    condensed "\r\n\\neg p\r\n(" = condensed "\\ne\tg p\n \n(\n"
    ∧ ∃ r : Response,
      respondWith Arguments.parse
        (⟨fun _ => none, some "\r\n\\neg p\r\n(".toUTF8⟩ : Environment Id) ["--stages"] = pure r
      ∧ respondWith Arguments.parse
        (⟨fun _ => some "\\ne\tg p\n \n(\n".toUTF8, none⟩ : Environment Id) ["-fx", "--stages"]
        = pure r := by
  have hcondensed : condensed "\r\n\\neg p\r\n(" = condensed "\\ne\tg p\n \n(\n" := by
    decide +kernel
  refine ⟨hcondensed, respondWith_ignores_blanks.1 Arguments.parse _ _ _ _
    ⟨none, true, none, []⟩ ⟨some "x", true, none, []⟩ _ _ ⟨?_, rfl, rfl⟩ ⟨?_, rfl, rfl⟩ rfl rfl
    hcondensed⟩
  · rfl
  · rfl

end CommandLine

end Clausal
