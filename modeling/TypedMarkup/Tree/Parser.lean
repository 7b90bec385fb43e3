/-
**Parsers.** A parser reads from a cursor and moves it, or fails with the one parse error of the
source.

* `Parser.take` is the only way to move: it passes over a text at the front of what is left.
* `Parser.many` repeats a step until it says stop. A step that goes on has moved, so as many
  rounds as there are characters left, and one more to stop, are always enough; a parser that needs
  more is `exhausted`, which is kept apart from every error.
* `Parser.escapedText` reads text between backticks, in which a backslash escapes a backtick or a
  backslash and any other backslash stands for itself. Lines after the first are indented to one
  column past the opening backtick, and that indentation is no part of the text. `scanEscaped` reads
  what is behind the opening backtick: what it stands for, how much of the source it takes, and how
  it ends.
-/

import TypedMarkup.Name
import TypedMarkup.ParseError
import TypedMarkup.Source.Position
import TypedMarkup.Source.Trivia
import TypedMarkup.Tree

namespace TypedMarkup

/-- How a parser fails. -/
inductive Parser.Failure where
  /-- The source does not fit the grammar. -/
  | malformed (error : ParseError)
  /-- The bound on repetition or nesting was too small. -/
  | exhausted
deriving DecidableEq, Repr

/-- Reads from a cursor and moves it, or fails. -/
abbrev Parser := StateT Cursor (Except Parser.Failure)

namespace Parser

variable {α : Type}

/-! ### Looking and moving -/

/-- The character at the cursor. -/
def head : Parser (Option Char) :=
  return (← get).head

/-- The character behind the one at the cursor. -/
def second : Parser (Option Char) :=
  return (← get).second

/-- The place of the cursor. -/
def position : Parser Position :=
  return (← get).position

/-- Passes over the text that `front` finds at the front of what is left. -/
def take (front : List Char → List Char) : Parser (List Char) := do
  let cursor ← get
  let text := front cursor.rest
  set (cursor.behind text)
  return text

/-- Passes over one character. -/
def advance : Parser Unit := do
  let _ ← take fun rest => rest.take 1

/-- Passes over white space and comments. -/
def skip : Parser Unit := do
  let _ ← take triviaText

/-! ### Failing -/

/-- Fails at the cursor, where one of `expected` could have stood. -/
def fail (expected : List Expectation) (parsing : Option Construct) (start : Option Position) :
    Parser α := do
  let cursor ← get
  throw (.malformed ⟨cursor.position, Found.ofHead cursor.head, expected, parsing, start⟩)

/-- Fails at a word that has been read. -/
def failAt (word : Word) (expected : List Expectation) (parsing : Option Construct) : Parser α :=
  throw (.malformed ⟨word.start, .word word.content, expected, parsing, none⟩)

/-- Passes over the given character. -/
def expect (c : Char) (parsing : Option Construct) (start : Option Position) : Parser Unit := do
  if (← head) = some c then
    advance
  else
    fail [.char c] parsing start

/-! ### Repeating -/

/-- What one step of a repetition does. -/
inductive Round (α : Type) where
  /-- It ends the repetition. -/
  | stop
  /-- It passes over something that is not kept. -/
  | pass
  /-- It reads an item. -/
  | item (a : α)

/-- At most so many rounds of a step. -/
def rounds (step : Parser (Round α)) : Nat → Parser (List α)
  | 0 => throw .exhausted
  | left + 1 => do
    match ← step with
    | .stop => return []
    | .pass => rounds step left
    | .item a => return a :: (← rounds step left)

/-- Repeats a step until it stops, and keeps its items. -/
def many (step : Parser (Round α)) : Parser (List α) := do
  rounds step ((← get).rest.length + 1)

/-! ### Words -/

/-- The longest text of allowed characters at the cursor. -/
def word (allowed : Char → Bool) : Parser Word := do
  let start ← position
  let text ← take fun rest => rest.takeWhile allowed
  return ⟨String.ofList text, start⟩

/-- A name. -/
def name : Parser Word := do
  if (← head).any isNameChar then
    word isNameChar
  else
    fail [.construct .name] none none

end Parser

/-! ### Escaped text -/

/-- How an escaped text ends. -/
inductive EscapedEnd where
  /-- With its closing backtick. -/
  | closed
  /-- Not at all. -/
  | unclosed
  /-- At a line that is not indented far enough. -/
  | unpadded
deriving DecidableEq, Repr

/-- What is read of an escaped text. -/
structure EscapedScan where
  /-- What the text stands for. -/
  content : List Char
  /-- The characters passed over. -/
  passed : List Char
  ending : EscapedEnd
deriving DecidableEq, Repr

/-- The scan with more text before it. -/
def EscapedScan.after (content passed : List Char) (scan : EscapedScan) : EscapedScan :=
  ⟨content ++ scan.content, passed ++ scan.passed, scan.ending⟩

/-- Reads escaped text behind its opening backtick in column `col`, where so many spaces of
indentation are due first. -/
def scanEscaped (col : Nat) : Nat → List Char → EscapedScan
  | due + 1, ' ' :: rest => (scanEscaped col due rest).after [] [' ']
  | _ + 1, _ => ⟨[], [], .unpadded⟩
  | 0, [] => ⟨[], [], .unclosed⟩
  | 0, ['\\'] => ⟨[], [], .unclosed⟩
  | 0, '\x60' :: _ => ⟨[], ['\x60'], .closed⟩
  | 0, '\\' :: '\x60' :: rest => (scanEscaped col 0 rest).after ['\x60'] ['\\', '\x60']
  | 0, '\\' :: '\\' :: rest => (scanEscaped col 0 rest).after ['\\'] ['\\', '\\']
  | 0, '\n' :: rest => (scanEscaped col col rest).after ['\n'] ['\n']
  | 0, c :: rest => (scanEscaped col 0 rest).after [c] [c]

/-- Escaped text, at its opening backtick. -/
def Parser.escapedText : Parser EscapedText := do
  let start ← position
  advance
  let inside ← get
  let scan := scanEscaped start.col 0 inside.rest
  set (inside.behind scan.passed)
  match scan.ending with
  | .closed => return ⟨start, ⟨String.ofList scan.content, inside.position⟩⟩
  | .unclosed => fail [.char '\x60'] (some .escapedText) (some start)
  | .unpadded => fail [.construct .escapedTextLinePadding] none none

end TypedMarkup
