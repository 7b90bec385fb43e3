/-
**Positions and cursors.** Where a character stands in a source: its line and column, which count
characters from one, and its offset, which counts bytes from zero. A cursor is a place in a source
together with what is left to read there.

* `Position.after p c` is the position behind the character `c` standing at `p`; only a line feed
  starts a new line. `Position.past p text` passes over a whole text, and `past_append` splits it.
* `Cursor.behind text c` passes over `text`, which callers take from the front of what is left.
* `Cursor.textTo before after` is what lies between two cursors of one source.
-/

namespace TypedMarkup

/-! ### Positions -/

/-- A place in a source text. -/
structure Position where
  /-- The line, from one. -/
  line : Nat
  /-- The column in characters, from one. -/
  col : Nat
  /-- The number of bytes before the place. -/
  offset : Nat
deriving DecidableEq, Repr

namespace Position

/-- The place of the first character of a source. -/
def start : Position := ⟨1, 1, 0⟩

instance : Inhabited Position := ⟨start⟩

/-- The place behind a character. -/
def after (p : Position) (c : Char) : Position :=
  if c = '\n' then ⟨p.line + 1, 1, p.offset + c.utf8Size⟩
  else ⟨p.line, p.col + 1, p.offset + c.utf8Size⟩

/-- The place behind a text. -/
def past (p : Position) (text : List Char) : Position :=
  text.foldl after p

/-- Line and column, as messages show them. -/
def label (p : Position) : String :=
  toString p.line ++ ":" ++ toString p.col

/-! ### Passing over texts -/

@[simp] theorem past_nil (p : Position) : p.past [] = p := rfl

@[simp] theorem past_cons (p : Position) (c : Char) (text : List Char) :
    p.past (c :: text) = (p.after c).past text := rfl

theorem past_append (p : Position) (first second : List Char) :
    p.past (first ++ second) = (p.past first).past second :=
  List.foldl_append

end Position

/-! ### Cursors -/

/-- What is left of a source, and where it starts. -/
structure Cursor where
  /-- The characters not read yet. -/
  rest : List Char
  /-- The place of the first of them. -/
  position : Position
deriving DecidableEq, Repr, Inhabited

namespace Cursor

/-- The cursor before the first character. -/
def ofString (source : String) : Cursor :=
  ⟨source.toList, Position.start⟩

/-- The character at the cursor; none at the end of the source. -/
def head (c : Cursor) : Option Char :=
  c.rest.head?

/-- The character behind the one at the cursor. -/
def second (c : Cursor) : Option Char :=
  c.rest.tail.head?

/-- The cursor behind a text that stands at the cursor. -/
def behind (text : List Char) (c : Cursor) : Cursor :=
  ⟨c.rest.drop text.length, c.position.past text⟩

/-- The text from one cursor to a later one. -/
def textTo (before after : Cursor) : List Char :=
  before.rest.take (before.rest.length - after.rest.length)

/-! ### Passing over texts -/

@[simp] theorem behind_nil (c : Cursor) : c.behind [] = c := rfl

theorem behind_append (first second : List Char) (c : Cursor) :
    c.behind (first ++ second) = (c.behind first).behind second := by
  simp [behind, Position.past_append, List.drop_drop]

end Cursor

end TypedMarkup
