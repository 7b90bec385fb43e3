/-
**Places of a source.** A position is a count: of bytes, of lines and of characters in a line. Where
reading comes to, the counts are those of the text before it.

* `bytesOf` counts the bytes of a text; between two texts of a source is a boundary
  (`isValid_bytesOf`), and a text is the slice of the source where it stands (`extract_bytesOf`).
* `Position.Counts source p` says that all counts of a position are true of a source.
* `Cursor.Reaches.counts`: so they are wherever a cursor comes to that starts before the first
  character, and `Cursor.Reaches.get?` is the character there.
-/

import Mathlib.Data.List.Induction
import Mathlib.Data.String.Basic
import TypedMarkup.Proofs.Source.Reach

namespace TypedMarkup

variable {source : String}

/-! ### Bytes -/

/-- The number of bytes of a text. -/
def bytesOf (text : List Char) : Nat :=
  (String.ofList text).utf8ByteSize

theorem bytesOf_append (text more : List Char) : bytesOf (text ++ more) = bytesOf text + bytesOf more := by
  unfold bytesOf
  rw [String.ofList_append, String.utf8ByteSize_append]

theorem bytesOf_toList (text : String) : bytesOf text.toList = text.utf8ByteSize := by
  unfold bytesOf
  rw [String.ofList_toList]

/-- Between characters is a boundary. -/
theorem isValid_bytesOf {text more : List Char} (split : source.toList = text ++ more) :
    String.Pos.Raw.IsValid source ⟨bytesOf text⟩ := by
  have whole : source = String.ofList text ++ String.ofList more := by
    rw [← String.ofList_append, ← split, String.ofList_toList]
  rw [whole]
  exact String.Pos.Raw.isValid_rawEndPos.append_right _

/-- A text is the slice of the source where it stands. -/
theorem extract_bytesOf {text middle more : List Char} (split : source.toList = text ++ middle ++ more) :
    String.Pos.Raw.extract source ⟨bytesOf text⟩ ⟨bytesOf (text ++ middle)⟩ =
      String.ofList middle := by
  have whole : source = String.ofList (text ++ middle ++ more) := by
    rw [← split, String.ofList_toList]
  have cut := String.extract_of_valid text middle more
  rw [← String.utf8ByteSize_ofList, ← String.utf8ByteSize_ofList] at cut
  rw [bytesOf_append, whole]
  exact cut

/-- Behind a text of a source stands the first character of what follows it. -/
theorem get?_bytesOf {text more : List Char} (split : source.toList = text ++ more) :
    String.Pos.Raw.get? source ⟨bytesOf text⟩ = more.head? := by
  have whole : source = String.ofList (text ++ more) := by
    rw [← split, String.ofList_toList]
  have found := String.get?_of_valid text more
  rw [← String.utf8ByteSize_ofList] at found
  rw [whole]
  exact found

/-! ### Lines and columns -/

/-- The characters of a text behind its last line feed. -/
def lastLine (text : List Char) : List Char :=
  (text.reverse.takeWhile fun c => c != '\n').reverse

theorem lastLine_concat (text : List Char) (c : Char) :
    lastLine (text ++ [c]) = if c = '\n' then [] else lastLine text ++ [c] := by
  unfold lastLine
  rw [List.reverse_append, List.reverse_singleton, List.singleton_append, List.takeWhile_cons]
  by_cases feed : c = '\n'
  · simp [feed]
  · simp [feed]

namespace Position

/-- Passing over a text adds its line feeds to the line. -/
theorem past_line (p : Position) (text : List Char) :
    (p.past text).line = p.line + text.count '\n' := by
  induction text generalizing p with
  | nil => rfl
  | cons c text ih =>
    rw [past_cons, ih, List.count_cons]
    unfold after
    by_cases feed : c = '\n'
    · simp only [feed, if_true, beq_self_eq_true]
      omega
    · simp [feed]

/-- Behind a text from the start of a source, the column counts the characters of the last line. -/
theorem past_col (text : List Char) : (start.past text).col = 1 + (lastLine text).length := by
  induction text using List.reverseRecOn with
  | nil => rfl
  | append_singleton text c ih =>
    rw [past_append, past_cons, past_nil, lastLine_concat]
    unfold after
    by_cases feed : c = '\n'
    · simp [feed]
    · simp only [if_neg feed, ih, List.length_append, List.length_singleton]
      omega

/-! ### Counts -/

/-- The text of a source before a position. -/
def before (source : String) (p : Position) : List Char :=
  (String.Pos.Raw.extract source ⟨0⟩ ⟨p.offset⟩).toList

/-- A position counts the bytes, the lines and the characters of the line before it. -/
structure Counts (source : String) (p : Position) : Prop where
  inside : p.offset ≤ source.utf8ByteSize
  boundary : String.Pos.Raw.IsValid source ⟨p.offset⟩
  line : p.line = 1 + (p.before source).count '\n'
  col : p.col = 1 + (lastLine (p.before source)).length

end Position

namespace Cursor.Reaches

variable {there : Cursor}

/-- What the first cursor of a source has passed over on the way to another is the text before
it. -/
theorem before_eq {text : List Char} (split : source.toList = text ++ there.rest)
    (position : there.position = Position.start.past text) :
    there.position.offset = bytesOf text ∧ there.position.before source = text := by
  have offset : there.position.offset = bytesOf text := by
    rw [position, Position.past_offset]
    exact Nat.zero_add _
  have cut : String.Pos.Raw.extract source ⟨bytesOf []⟩ ⟨bytesOf ([] ++ text)⟩ =
      String.ofList text := extract_bytesOf split
  refine ⟨offset, ?_⟩
  unfold Position.before
  rw [offset]
  exact (congrArg String.toList cut).trans String.toList_ofList

/-- **Wherever reading comes to, it has counted.** -/
theorem counts (reaches : (Cursor.ofString source).Reaches there) :
    there.position.Counts source := by
  obtain ⟨text, split, position⟩ := reaches
  obtain ⟨offset, before⟩ := before_eq split position
  have valid : String.Pos.Raw.IsValid source ⟨there.position.offset⟩ := offset ▸ isValid_bytesOf split
  refine ⟨valid.le_rawEndPos, valid, ?_, ?_⟩
  · rw [before, position, Position.past_line]
    rfl
  · rw [before, position]
    exact Position.past_col text

/-- What stands at a cursor is the character at its offset. -/
theorem get? (reaches : (Cursor.ofString source).Reaches there) :
    String.Pos.Raw.get? source ⟨there.position.offset⟩ = there.head := by
  obtain ⟨text, split, position⟩ := reaches
  rw [(before_eq split position).1]
  exact get?_bytesOf split

end Cursor.Reaches

end TypedMarkup
