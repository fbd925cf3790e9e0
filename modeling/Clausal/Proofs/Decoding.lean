/-
Contents that are read and contents that are refused.

* `Text.IsEncoded`, `Text.isEncoded_iff_isValidUTF8`: bytes that stand for characters;
* `CommandLine.isEncoded_iff_forall_byteLines`: a content stands for characters exactly if each of
  its lines does, since no character is cut by the byte of a line break;
* `CommandLine.isSome_formulaLines_iff`: so the formulas of a content can be read exactly if the
  content as a whole is valid;
* `Response.IsRefusal`, `CommandLine.isRefusal_answer_iff`: a response that fails and prints nothing
  is given to contents that cannot be read, and to no others;
* `CommandLine.respondWith_all_or_nothing`: **all or nothing** for every command line.
-/
import Clausal.Proofs.Encoding
import Clausal.Proofs.Framing

namespace Clausal

/-! ### Valid bytes -/

namespace Text

/-- Whether some bytes are those of some characters in UTF-8. -/
def IsEncoded (bytes : List UInt8) : Prop := ∃ cs, bytes = encoded cs

lemma isEncoded_nil : IsEncoded [] := ⟨[], rfl⟩

lemma IsEncoded.append {a b : List UInt8} (ha : IsEncoded a) (hb : IsEncoded b) :
    IsEncoded (a ++ b) := by
  obtain ⟨cs, rfl⟩ := ha
  obtain ⟨ds, rfl⟩ := hb
  exact ⟨cs ++ ds, List.flatMap_append.symm⟩

lemma isValidUTF8_toByteArray_iff {bytes : List UInt8} :
    bytes.toByteArray.IsValidUTF8 ↔ IsEncoded bytes := by
  constructor
  · rintro ⟨cs, hcs⟩
    exact ⟨cs, List.toByteArray_inj.mp hcs⟩
  · rintro ⟨cs, rfl⟩
    exact ⟨cs, rfl⟩

/-- **Valid contents** are those that stand for characters. -/
lemma isEncoded_iff_isValidUTF8 {bytes : ByteArray} :
    IsEncoded bytes.data.toList ↔ bytes.IsValidUTF8 := by
  have hbytes : bytes.data.toList.toByteArray = bytes := by
    apply ByteArray.ext
    apply Array.ext'
    exact List.toList_data_toByteArray
  rw [← isValidUTF8_toByteArray_iff, hbytes]

end Text

/-! ### Lines -/

namespace CommandLine

open Text

variable {bytes line : List UInt8}

lemma isSome_decodeLine_iff : (decodeLine line).isSome = true ↔ IsEncoded line := by
  rw [← isValidUTF8_toByteArray_iff, decodeLine, String.fromUTF8?]
  split
  · next h => simpa using h
  · next h => simpa using h

/-- Every line of valid bytes is valid. -/
lemma isEncoded_of_mem_byteLines (h : IsEncoded bytes) (hline : line ∈ byteLines bytes) :
    IsEncoded line := by
  obtain ⟨cs, rfl⟩ := h
  rw [byteLines_encoded, List.mem_map] at hline
  obtain ⟨piece, -, rfl⟩ := hline
  exact ⟨piece, rfl⟩

/-- A carriage return is a character of its own. -/
lemma isEncoded_of_withoutReturn (h : IsEncoded (withoutReturn line)) : IsEncoded line := by
  rw [withoutReturn] at h
  split at h
  · next hreturn =>
    obtain ⟨start, rfl⟩ := List.getLast?_eq_some_iff.mp hreturn
    rw [List.dropLast_concat] at h
    exact h.append ⟨['\r'], rfl⟩
  · exact h

/-- Valid pieces with line breaks between them are valid. -/
lemma isEncoded_intercalate {pieces : List (List UInt8)} (h : ∀ piece ∈ pieces, IsEncoded piece) :
    IsEncoded ([newline].intercalate pieces) := by
  have hbreak : IsEncoded [newline] := ⟨['\n'], rfl⟩
  induction pieces with
  | nil => exact isEncoded_nil
  | cons piece rest ih =>
      obtain ⟨hpiece, hrest⟩ := List.forall_mem_cons.mp h
      cases rest with
      | nil =>
          rw [List.intercalate_singleton]
          exact hpiece
      | cons next rest =>
          rw [List.intercalate_cons_cons]
          exact (hpiece.append hbreak).append (ih hrest)

/-- **Line by line or as a whole**: bytes are valid exactly if all their lines are. A line is a
piece between line breaks up to a carriage return, and only an empty piece is left out. -/
lemma isEncoded_iff_forall_byteLines :
    IsEncoded bytes ↔ ∀ line ∈ byteLines bytes, IsEncoded line := by
  constructor
  · exact fun h line hline => isEncoded_of_mem_byteLines h hline
  · intro h
    obtain ⟨pieces, last, hpieces⟩ := exists_splitOn_eq_concat newline bytes
    rw [byteLines, hpieces] at h
    simp only [List.dropLast_concat, List.getLast?_concat, Option.toList_some,
      List.forall_mem_append, List.forall_mem_map] at h
    obtain ⟨hfull, hlast⟩ := h
    have hjoin : [newline].intercalate (bytes.splitOn newline) = bytes :=
      List.intercalate_splitOn newline
    rw [← hjoin, hpieces]
    refine isEncoded_intercalate fun piece hpiece => ?_
    rcases List.mem_append.mp hpiece with hmem | hmem
    · exact isEncoded_of_withoutReturn (hfull piece hmem)
    · rw [List.mem_singleton.mp hmem]
      by_cases hempty : last = []
      · rw [hempty]
        exact isEncoded_nil
      · exact hlast last (by simp [hempty])

/-- Some lines have texts exactly if each of them has one. -/
lemma isSome_mapM_decodeLine_iff {lines : List (List UInt8)} :
    (lines.mapM decodeLine).isSome = true ↔ ∀ line ∈ lines, (decodeLine line).isSome = true := by
  induction lines with
  | nil => simp
  | cons line lines ih =>
      rw [List.forall_mem_cons, ← ih, List.mapM_cons]
      cases decodeLine line with
      | none => simp
      | some text => cases lines.mapM decodeLine <;> simp

/-- **Reading is all or nothing**: the formulas of a content can be read exactly if the content is
valid as a whole. -/
lemma isSome_formulaLines_iff {bytes : ByteArray} :
    (formulaLines bytes.data.toList).isSome = true ↔ bytes.IsValidUTF8 := by
  rw [formulaLines, Option.isSome_map, isSome_mapM_decodeLine_iff, ← isEncoded_iff_isValidUTF8,
    isEncoded_iff_forall_byteLines]
  simp only [isSome_decodeLine_iff]

/-! ### Refusals -/

/-- Whether a response fails and prints nothing. -/
def Response.IsRefusal (r : Response) : Prop := r.status = 1 ∧ r.lines = []

/-- A report is no refusal: it can only fail over a formula, and then prints what it says of it. -/
lemma not_isRefusal_report (args : Arguments) (formulas : List String) :
    ¬(report args formulas).IsRefusal := by
  rintro ⟨hstatus, hlines⟩
  obtain ⟨text, htext, -⟩ := (frames_report args formulas).status_eq_one_iff.mp hstatus
  have hempty : (block args.stages args.limit text).lines = [] :=
    List.flatMap_eq_nil_iff.mp hlines _ (List.mem_map_of_mem htext)
  obtain ⟨last, fault, -, hblock, -⟩ := exists_block_eq args.stages args.limit text
  rw [hblock] at hempty
  exact List.append_ne_nil_of_right_ne_nil _ (List.cons_ne_nil last []) hempty

/-- **What is refused** is a content that cannot be read: there is none, or it is not valid. -/
lemma isRefusal_answer_iff (args : Arguments) (content : Option ByteArray) :
    (answer args content).IsRefusal ↔ ∀ bytes, content = some bytes → ¬bytes.IsValidUTF8 := by
  rw [answer]
  cases content with
  | none => simp [Response.failure, Response.IsRefusal]
  | some bytes =>
      simp only [Option.bind_some, Option.some.injEq, forall_eq', ← isSome_formulaLines_iff]
      cases formulaLines bytes.data.toList with
      | none => simp [Response.failure, Response.IsRefusal]
      | some formulas => simp [not_isRefusal_report]

/-- **All or nothing**, however the words of a command are understood: a command without formulas of
its own answers to the content of the file, or of the standard input if no file is named. The lines of
a content can be read exactly if it is valid UTF-8 as a whole; where it is not, or there is no content,
the command prints nothing and its status is one, and else it reports on the lines. A command with
formulas of its own reads nothing and never fails in that way. -/
theorem respondWith_all_or_nothing (parse : List String → Except Response Arguments)
    (words : List String) (args : Arguments) (h : parse words = .ok args) :
    (∀ bytes : ByteArray, (formulaLines bytes.data.toList).isSome = true ↔ bytes.IsValidUTF8)
    ∧ (∀ content, (answer args content).IsRefusal
        ↔ ∀ bytes, content = some bytes → ¬bytes.IsValidUTF8)
    ∧ ∀ {m : Type → Type} [Monad m] [LawfulMonad m] (env : Environment m),
        (args.formulas = [] → respondWith parse env words
          = answer args <$> args.file.elim env.readInput env.readFile)
        ∧ (args.formulas ≠ [] →
          ∃ r : Response, respondWith parse env words = pure r ∧ ¬r.IsRefusal) := by
  refine ⟨fun _ => isSome_formulaLines_iff, isRefusal_answer_iff args, fun env =>
    ⟨respondWith_of_eq_nil env h, fun hformulas => ?_⟩⟩
  exact ⟨_, respondWith_of_ne_nil env h hformulas, not_isRefusal_report args args.formulas⟩

/-- A formula and then a character of two bytes that a line break cuts apart, on the standard input;
a file that is not there; and a formula on the command line beside such a file. -/
theorem respondWith_all_or_nothing_cut_character :
    (∃ args r, Arguments.parse ["--stages", "-c1"] = .ok args ∧ Response.IsRefusal r
      ∧ respondWith Arguments.parse
        (⟨fun _ => none, some ⟨#[112, 10, 0xC3, 10, 0xA9]⟩⟩ : Environment Id) ["--stages", "-c1"] = r)
    ∧ (∃ args r, Arguments.parse ["-fx"] = .ok args ∧ Response.IsRefusal r
      ∧ respondWith Arguments.parse
        (⟨fun _ => none, some "p".toUTF8⟩ : Environment Id) ["-fx"] = r)
    ∧ ∃ args r, Arguments.parse ["-fx", "p"] = .ok args ∧ ¬Response.IsRefusal r
      ∧ respondWith Arguments.parse
        (⟨fun _ => none, none⟩ : Environment Id) ["-fx", "p"] = r := by
  have hstages : Arguments.parse ["--stages", "-c1"] = .ok ⟨none, true, some 1, []⟩ := by rfl
  have hfile : Arguments.parse ["-fx"] = .ok ⟨some "x", false, none, []⟩ := by rfl
  have hboth : Arguments.parse ["-fx", "p"] = .ok ⟨some "x", false, none, ["p"]⟩ := by rfl
  have hcut : ¬ByteArray.IsValidUTF8 ⟨#[112, 10, 0xC3, 10, 0xA9]⟩ := by decide +kernel
  refine ⟨?_, ?_, ?_⟩
  · obtain ⟨-, hrefusal, hrespond⟩ := respondWith_all_or_nothing _ _ _ hstages
    refine ⟨_, _, hstages, (hrefusal _).mpr fun bytes hbytes => ?_, (hrespond _).1 rfl⟩
    rwa [← Option.some.inj hbytes]
  · obtain ⟨-, hrefusal, hrespond⟩ := respondWith_all_or_nothing _ _ _ hfile
    exact ⟨_, _, hfile, (hrefusal none).mpr (by simp), (hrespond _).1 rfl⟩
  · obtain ⟨-, -, hrespond⟩ := respondWith_all_or_nothing _ _ _ hboth
    obtain ⟨r, hr, hnot⟩ := (hrespond (⟨fun _ => none, none⟩ : Environment Id)).2 (by simp)
    exact ⟨_, r, hboth, hnot, hr⟩

end CommandLine

end Clausal
