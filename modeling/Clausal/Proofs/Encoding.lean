/-
The lines of a content in bytes, and those of its characters.

* `Text.encoded`, `Text.mem_utf8EncodeChar_iff`: characters in UTF-8, where a byte below 128 is
  only ever written for the character with that number;
* `CommandLine.textLines`, `CommandLine.byteLines_encoded`: so the lines of bytes are the lines of
  characters, each in UTF-8;
* `CommandLine.mapM_decodeLine_byteLines`: what is read from a content in UTF-8.
-/
import Clausal.CommandLine.Lines
import Clausal.Proofs.Lists

namespace Clausal

/-! ### UTF-8 -/

namespace Text

/-- The bytes of some characters in UTF-8. -/
def encoded (cs : List Char) : List UInt8 := cs.flatMap String.utf8EncodeChar

/-- **Bytes below 128** stand for themselves: such a byte is written for one character only, and is
then all that is written for it. -/
lemma mem_utf8EncodeChar_iff {b : UInt8} (hb : b.toNat < 128) {c : Char} :
    b ∈ String.utf8EncodeChar c ↔ c.toNat = b.toNat := by
  have hval : c.toNat = c.val.toNat := rfl
  rw [String.utf8EncodeChar]
  split_ifs <;> simp only [List.mem_cons, List.not_mem_nil, or_false, ← UInt8.toNat_inj,
    UInt8.toNat_ofNat'] <;> omega

lemma toList_data_toUTF8 (content : String) :
    content.toUTF8.data.toList = encoded content.toList := by
  rw [encoded, ← List.toList_data_toByteArray (l := content.toList.flatMap String.utf8EncodeChar)]
  exact congrArg (·.data.toList) String.utf8Encode_toList.symm

end Text

/-! ### Lines -/

namespace CommandLine

open Text

/-- The characters of a line that ended in a line break, without a carriage return before it. -/
def withoutReturnChar (line : List Char) : List Char :=
  if line.getLast? = some '\r' then line.dropLast else line

/-- The lines of some characters. What follows the last line break is a line of its own unless it is
empty, and keeps a carriage return at its end. -/
def textLines (cs : List Char) : List (List Char) :=
  let pieces := cs.splitOn '\n'
  pieces.dropLast.map withoutReturnChar ++ pieces.getLast?.toList.filter (· ≠ [])

lemma encoded_eq_nil_iff {cs : List Char} : encoded cs = [] ↔ cs = [] := by
  cases cs with
  | nil => simp [encoded]
  | cons c cs => simp [encoded, String.utf8EncodeChar_ne_nil]

lemma splitOn_encoded (cs : List Char) :
    (encoded cs).splitOn newline = (cs.splitOn '\n').map encoded := by
  have hother : ∀ c, c ≠ '\n' → newline ∉ String.utf8EncodeChar c := by
    intro c hc hmem
    exact hc (Char.toNat_inj.mp ((mem_utf8EncodeChar_iff (by decide)).mp hmem))
  exact splitOn_flatMap (f := String.utf8EncodeChar) rfl hother cs

/-- A line ends in the byte of a carriage return exactly if it ends in that character. -/
lemma getLast?_encoded_eq_iff (cs : List Char) :
    (encoded cs).getLast? = some carriageReturn ↔ cs.getLast? = some '\r' := by
  induction cs using List.reverseRecOn with
  | nil => simp [encoded]
  | append_singleton cs c =>
      rw [encoded, List.flatMap_append, List.flatMap_singleton,
        List.getLast?_append_of_ne_nil _ String.utf8EncodeChar_ne_nil, List.getLast?_concat]
      constructor
      · intro h
        have hmem := List.mem_of_getLast? h
        rw [mem_utf8EncodeChar_iff (by decide)] at hmem
        exact congrArg some (Char.toNat_inj.mp hmem)
      · intro h
        rw [Option.some.inj h]
        rfl

lemma withoutReturn_encoded (cs : List Char) :
    withoutReturn (encoded cs) = encoded (withoutReturnChar cs) := by
  rw [withoutReturn, withoutReturnChar]
  by_cases h : cs.getLast? = some '\r'
  · obtain ⟨ds, rfl⟩ := List.getLast?_eq_some_iff.mp h
    have hencoded : encoded (ds ++ ['\r']) = encoded ds ++ [carriageReturn] := by
      rw [encoded, List.flatMap_append]
      rfl
    rw [if_pos ((getLast?_encoded_eq_iff _).mpr h), if_pos h, hencoded, List.dropLast_concat,
      List.dropLast_concat]
  · rw [if_neg (mt (getLast?_encoded_eq_iff _).mp h), if_neg h]

/-- **The lines of bytes** in UTF-8 are the lines of the characters. -/
lemma byteLines_encoded (cs : List Char) : byteLines (encoded cs) = (textLines cs).map encoded := by
  obtain ⟨pieces, last, hpieces⟩ := exists_splitOn_eq_concat '\n' cs
  have hfull : (pieces.map encoded).map withoutReturn
      = (pieces.map withoutReturnChar).map encoded := by
    rw [List.map_map, List.map_map]
    exact List.map_congr_left fun line _ => withoutReturn_encoded line
  have hlast : [encoded last].filter (· ≠ []) = ([last].filter (· ≠ [])).map encoded := by
    by_cases h : last = []
    · simp [h, encoded]
    · simp [h, encoded_eq_nil_iff]
  rw [byteLines, textLines, splitOn_encoded, hpieces]
  simp only [List.map_append, List.map_singleton, List.dropLast_concat, List.getLast?_concat,
    Option.toList_some, hfull, hlast]

lemma decodeLine_encoded (cs : List Char) : decodeLine (encoded cs) = some (String.ofList cs) := by
  have hvalid : (encoded cs).toByteArray.IsValidUTF8 := ByteArray.isValidUTF8_utf8Encode
  rw [decodeLine, String.fromUTF8?, dif_pos hvalid]
  rfl

/-- **The texts of the lines** of a content in UTF-8 are the lines of its characters. -/
lemma mapM_decodeLine_byteLines (content : String) :
    (byteLines content.toUTF8.data.toList).mapM decodeLine
      = some ((textLines content.toList).map String.ofList) := by
  have hdecode : decodeLine ∘ encoded = fun cs => pure (String.ofList cs) :=
    funext decodeLine_encoded
  rw [toList_data_toUTF8, byteLines_encoded, List.mapM_map, hdecode, List.mapM_pure]
  rfl

end CommandLine

end Clausal
