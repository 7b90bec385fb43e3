/-
**Cursors of one source.** A cursor reaches another if the source leads from the one to the other.

* `Cursor.Reaches` is that relation: what is left at the first is some text and then what is left
  at the second, whose position is the first one's moved past that text. It is a preorder along
  which what is left only gets shorter (`Reaches.length_le`) and offsets only grow
  (`Reaches.offset_le`).
* `Cursor.Finds c position holds`: at `position`, somewhere from `c` on, `holds` is true of the
  cursor. Every position that reading records or blames is found like this.
-/

import TypedMarkup.Source.Position
import TypedMarkup.Source.Trivia

namespace TypedMarkup

namespace Position

/-- Passing over a text adds its bytes to the offset. -/
theorem past_offset (p : Position) (text : List Char) :
    (p.past text).offset = p.offset + (String.ofList text).utf8ByteSize := by
  induction text generalizing p with
  | nil => rfl
  | cons c text ih =>
    have step : (p.after c).offset = p.offset + c.utf8Size := by
      unfold after
      split <;> rfl
    rw [past_cons, ih, step, String.ofList_cons, String.utf8ByteSize_append,
      String.utf8ByteSize_singleton, Nat.add_assoc]

end Position

namespace Cursor

variable {c after last : Cursor}

/-! ### Reaching -/

/-- The source leads from one cursor to the other. -/
def Reaches (c after : Cursor) : Prop :=
  ∃ text, c.rest = text ++ after.rest ∧ after.position = c.position.past text

namespace Reaches

theorem refl (c : Cursor) : c.Reaches c :=
  ⟨[], rfl, rfl⟩

theorem trans (first : c.Reaches after) (second : after.Reaches last) : c.Reaches last := by
  obtain ⟨text, rest, position⟩ := first
  obtain ⟨more, rest', position'⟩ := second
  refine ⟨text ++ more, ?_, ?_⟩
  · rw [rest, rest', List.append_assoc]
  · rw [position', position, Position.past_append]

theorem length_le (reaches : c.Reaches after) : after.rest.length ≤ c.rest.length := by
  obtain ⟨text, rest, _⟩ := reaches
  rw [rest, List.length_append]
  omega

theorem offset_le (reaches : c.Reaches after) : c.position.offset ≤ after.position.offset := by
  obtain ⟨text, _, position⟩ := reaches
  rw [position, Position.past_offset]
  omega

/-- A cursor with as much left as one that reaches it is that one. -/
theorem eq_of_length_le (reaches : c.Reaches after)
    (length : c.rest.length ≤ after.rest.length) : after = c := by
  obtain ⟨text, rest, position⟩ := reaches
  have none : text = [] := by
    rw [← List.length_eq_zero_iff]
    rw [rest, List.length_append] at length
    omega
  subst none
  cases c
  cases after
  cases rest
  cases position
  rfl

end Reaches

/-- A cursor reaches the one behind a text that stands there. -/
theorem reaches_behind {text : List Char} (stands : text <+: c.rest) :
    c.Reaches (c.behind text) := by
  obtain ⟨rest, split⟩ := stands
  refine ⟨text, ?_, rfl⟩
  rw [← split]
  simp [behind, ← split]

/-- What is left behind a text that stands at a cursor. -/
theorem behind_rest {text rest : List Char} (split : c.rest = text ++ rest) :
    (c.behind text).rest = rest := by
  simp [behind, split]

/-- The character behind a text. -/
theorem behind_head (text : List Char) (c : Cursor) :
    (c.behind text).head = (c.rest.drop text.length).head? :=
  rfl

/-- Passing over something leaves less. -/
theorem behind_shorter {text : List Char} (stands : text <+: c.rest) (positive : text ≠ []) :
    (c.behind text).rest.length < c.rest.length := by
  have nonempty := List.length_pos_iff.2 positive
  have fits := stands.length_le
  simp only [behind, List.length_drop]
  omega

/-- A cursor with a character has it at the front of what is left. -/
theorem rest_of_head {x : Char} (head : c.head = some x) : c.rest = x :: c.rest.tail := by
  unfold Cursor.head at head
  cases split : c.rest with
  | nil => simp [split] at head
  | cons first rest =>
    rw [split, List.head?_cons, Option.some.injEq] at head
    rw [head, List.tail_cons]

/-- The first character of what is left stands there. -/
theorem take_one_of_head {x : Char} (head : c.head = some x) : c.rest.take 1 = [x] := by
  rw [rest_of_head head]
  rfl

theorem take_one_stands (c : Cursor) : c.rest.take 1 <+: c.rest :=
  List.take_prefix 1 c.rest

theorem one_stands_of_head {x : Char} (head : c.head = some x) : [x] <+: c.rest :=
  take_one_of_head head ▸ c.take_one_stands

/-- Whether a text of allowed characters stands at a cursor shows in the first of them. -/
theorem takeWhile_isEmpty (c : Cursor) (allowed : Char → Bool) :
    (c.rest.takeWhile allowed).isEmpty = !c.head.any allowed := by
  unfold head
  cases c.rest with
  | nil => rfl
  | cons x rest =>
    rw [List.takeWhile_cons, List.head?_cons, Option.any_some]
    cases allowed x <;> rfl

theorem takeWhile_ne_nil {allowed : Char → Bool} (found : c.head.any allowed = true) :
    c.rest.takeWhile allowed ≠ [] := by
  intro none
  have same := c.takeWhile_isEmpty allowed
  rw [none, found] at same
  cases same

/-- What is left behind one character. -/
theorem behind_one_rest (x : Char) (c : Cursor) : (c.behind [x]).rest = c.rest.tail :=
  List.drop_one

/-- The text between two cursors. -/
theorem textTo_of_rest {text : List Char} (split : c.rest = text ++ after.rest) :
    c.textTo after = text := by
  simp [textTo, split]

/-- What is left behind the text between two cursors. -/
theorem behind_textTo (reaches : c.Reaches after) : c.behind (c.textTo after) = after := by
  obtain ⟨text, split, position⟩ := reaches
  rw [textTo_of_rest split]
  obtain ⟨left, place⟩ := after
  obtain rfl : place = c.position.past text := position
  rw [behind, split]
  simp

/-! ### Finding -/

/-- Somewhere from a cursor on, at the given position, something is true. -/
def Finds (c : Cursor) (position : Position) (holds : Cursor → Prop) : Prop :=
  ∃ there, c.Reaches there ∧ there.position = position ∧ holds there

/-- At the given position stands the given character. -/
def FindsChar (c : Cursor) (position : Position) (x : Char) : Prop :=
  c.Finds position fun there => there.head = some x

theorem Reaches.finds {holds : Cursor → Prop} (reaches : c.Reaches after) (here : holds after) :
    c.Finds after.position holds :=
  ⟨after, reaches, rfl, here⟩

end Cursor

/-! ### Trivia -/

/-- Where no trivia stand, there are no leading ones. -/
theorem leadingTrivia_of_trivia?_eq_none {text : List Char} (missing : trivia? text = none) :
    leadingTrivia text = [] := by
  rw [leadingTrivia]
  split
  · rfl
  · next found => simp [found] at missing

/-- Leading trivia are the first piece and those behind it. -/
theorem leadingTrivia_of_trivia?_eq_some {text : List Char} {piece : Trivia}
    (found : trivia? text = some piece) :
    leadingTrivia text = piece :: leadingTrivia (text.drop piece.text.length) := by
  rw [leadingTrivia]
  split
  · next missing => simp [found] at missing
  · next other same =>
    obtain rfl : piece = other := by simpa [found] using same
    rfl

/-- No trivia stand behind leading trivia. -/
theorem trivia?_drop_triviaText (text : List Char) :
    trivia? (text.drop (triviaText text).length) = none := by
  unfold triviaText
  induction text using leadingTrivia.induct with
  | case1 text found =>
    rw [leadingTrivia_of_trivia?_eq_none found]
    exact found
  | case2 text piece found ih =>
    rw [leadingTrivia_of_trivia?_eq_some found, List.flatMap_cons, List.length_append,
      ← List.drop_drop]
    exact ih

/-- The character behind leading trivia is no space. -/
theorem isSpace_of_trivia?_eq_none {x : Char} {rest : List Char}
    (missing : trivia? (x :: rest) = none) : isSpace x = false := by
  unfold trivia? at missing
  split at missing
  · next empty => cases empty
  · cases missing
  · cases missing
  · next same =>
    cases same
    split at missing
    · cases missing
    · next space => simpa using space

end TypedMarkup
