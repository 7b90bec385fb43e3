/-
**Lexers.** A lexer cuts tokens from a cursor. It knows the grammar, but it keeps what it has cut
when the source does not fit.

* `Lexer.emit` is the way to move: it turns a text at the cursor into a token, so that the tokens
  follow each other without gaps.
* `Lexer.collapsed` turns all that a lexer cuts into one token.
* `Lexer.whileGoing` repeats a step; as for parsers, a step that goes on has moved.
-/

import TypedMarkup.Name
import TypedMarkup.Source.Position
import TypedMarkup.Source.Trivia
import TypedMarkup.Token

namespace TypedMarkup

/-- How a lexer stops early. -/
inductive Lexer.Refusal where
  /-- The source does not fit the grammar. -/
  | unreadable
  /-- The bound on repetition or nesting was too small. -/
  | exhausted
deriving DecidableEq, Repr

/-- How far a lexer has come. -/
structure Lexer.State where
  cursor : Cursor
  /-- The number of open brackets. -/
  depth : Nat
  /-- The tokens cut so far, the newest first. -/
  tokens : List Token
deriving DecidableEq, Repr

/-- Cuts tokens, or refuses to go on. -/
abbrev Lexer := ExceptT Lexer.Refusal (StateM Lexer.State)

namespace Lexer

/-! ### Looking -/

/-- The character at the cursor. -/
def head : Lexer (Option Char) :=
  return (← get).cursor.head

/-- The character behind the one at the cursor. -/
def second : Lexer (Option Char) :=
  return (← get).cursor.second

/-- What is left to read. -/
def rest : Lexer (List Char) :=
  return (← get).cursor.rest

/-- Refuses a source that does not fit. -/
def refuse {α : Type} : Lexer α :=
  throw .unreadable

/-! ### Cutting -/

/-- Cuts a text that stands at the cursor. -/
def emitAt (kind : TokenKind) (depth : Option Nat) (text : List Char) : Lexer Unit :=
  modify fun state =>
    { state with
      cursor := state.cursor.behind text
      tokens := ⟨kind, state.cursor.position.offset, String.ofList text, depth⟩ :: state.tokens }

/-- Cuts a text that stands at the cursor and is no bracket. -/
def emit (kind : TokenKind) (text : List Char) : Lexer Unit :=
  emitAt kind none text

/-- Cuts one character. -/
def single (kind : TokenKind) : Lexer Unit := do
  emit kind ((← rest).take 1)

/-- Cuts the given character. -/
def expect (c : Char) (kind : TokenKind) : Lexer Unit := do
  if (← head) = some c then
    single kind
  else
    refuse

/-- The token of a piece of trivia. -/
def triviaToken : TriviaKind → TokenKind
  | .space => .space
  | .comment => .comment

/-- Cuts white space and comments. -/
def skip : Lexer Unit := do
  (leadingTrivia (← rest)).forM fun piece => emit (triviaToken piece.kind) piece.text

/-- Cuts a name. -/
def name (kind : TokenKind) : Lexer Unit := do
  let text := (← rest).takeWhile isNameChar
  if text.isEmpty then
    refuse
  else
    emit kind text

/-- Cuts an opening bracket. -/
def openNode : Lexer Unit := do
  let depth := (← get).depth + 1
  modify fun state => { state with depth := depth }
  emitAt .nodeOpen (some depth) ((← rest).take 1)

/-- Cuts a closing bracket. -/
def closeNode : Lexer Unit := do
  if (← head) = some ']' then
    let depth := (← get).depth
    emitAt .nodeClose (some depth) ((← rest).take 1)
    modify fun state => { state with depth := depth - 1 }
  else
    refuse

/-- Passes over one character and then does what `inner` does, and turns it all into one token;
if `inner` refuses, its tokens are dropped. -/
def collapsed (kind : TokenKind) (inner : Lexer Unit) : Lexer Unit := do
  let before ← get
  set { before with cursor := before.cursor.behind (before.cursor.rest.take 1) }
  let outcome ← liftM inner.run
  let after ← get
  set { after with tokens := before.tokens }
  match outcome with
  | .error refusal => throw refusal
  | .ok () =>
    set { after with cursor := before.cursor, tokens := before.tokens }
    emit kind (before.cursor.textTo after.cursor)

/-! ### Repeating -/

/-- At most so many rounds of a step. -/
def rounds (step : Lexer Bool) : Nat → Lexer Unit
  | 0 => throw .exhausted
  | left + 1 => do
    if ← step then
      rounds step left

/-- Repeats a step while it says so. -/
def whileGoing (step : Lexer Bool) : Lexer Unit := do
  rounds step ((← rest).length + 1)

end Lexer

end TypedMarkup
