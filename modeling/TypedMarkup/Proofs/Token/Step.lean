/-
**Steps of lexers.** All that a lexer ever does to its state, failed attempts included, is made of
three kinds of steps: it cuts a piece of what is left, or it cuts an opening or a closing bracket.

* `Piece left kind text`: from the front of `left`, `text` may be cut as a token of that kind. There
  is a case for each scan of the lexer, so what holds of all pieces is proved scan by scan.
* `Lexer.State.Step` is one step and `Lexer.State.Steps` any number of them. `Step.cuts` says what
  all steps have in common; they lead on in the source (`Step.reaches`), and none leaves as much as
  there was (`Step.movesTo`).
* `Steps.preserves`: what every step keeps, all keep.
-/

import Mathlib.Logic.Relation
import TypedMarkup.Proofs.Source.Reach
import TypedMarkup.Proofs.Token.Run

namespace TypedMarkup

/-! ### Pieces -/

namespace TokenKind

/-- The kinds of single characters that stand outside text and are no brackets of nodes. -/
def isSign : TokenKind → Bool
  | preambleOpen | preambleClose | preambleFallback | classStart | childStart | propertiesOpen
  | propertiesClose | propertyAssign | propertyNegate => true
  | keyword | typeName | bindingName | propertyName | valueLiteral | text | escapedText | nodeOpen
  | nodeClose | comment | space | ignored | unread => false

/-- The kinds of names. -/
def isWord : TokenKind → Bool
  | keyword | typeName | bindingName | propertyName => true
  | preambleOpen | preambleClose | preambleFallback | classStart | childStart | propertiesOpen
  | propertiesClose | propertyAssign | propertyNegate | valueLiteral | text | escapedText | nodeOpen
  | nodeClose | comment | space | ignored | unread => false

end TokenKind

/-- What may be cut from the front of what is left, brackets apart. -/
inductive Piece (left : List Char) : TokenKind → List Char → Prop
  | trivia {piece : Trivia} (found : trivia? left = some piece) :
    Piece left (Lexer.triviaToken piece.kind) piece.text
  | sign {kind : TokenKind} {c : Char} (sign : kind.isSign = true) (found : left.head? = some c) :
    Piece left kind [c]
  | word {kind : TokenKind} (word : kind.isWord = true) (found : left.takeWhile isNameChar ≠ []) :
    Piece left kind (left.takeWhile isNameChar)
  | literal (found : left.takeWhile isValueChar ≠ []) :
    Piece left .valueLiteral (left.takeWhile isValueChar)
  | escaped {rest front : List Char} (found : left = '\x60' :: rest)
    (closed : escapedFront rest = some front) : Piece left .escapedText ('\x60' :: front)
  | text {c : Char} {rest : List Char} (found : left = c :: rest)
    (plain : c ∉ ['\r', '\n', '\x60', ']']) :
    Piece left .text (c :: rest.takeWhile fun next => !Lexer.endsTextToken next)
  | ignored {inside behind : List Char} (found : left = '_' :: '[' :: inside ++ ']' :: behind) :
    Piece left .ignored ('_' :: '[' :: inside ++ [']'])

/-- The rest of an escaped text stands behind its opening backtick. -/
theorem escapedFront_stands {text front : List Char} (closed : escapedFront text = some front) :
    front <+: text := by
  fun_induction escapedFront text generalizing front with
  | case1 => cases closed
  | case2 => cases closed
  | case3 rest =>
    cases closed
    exact ⟨rest, rfl⟩
  | case4 rest ih =>
    obtain ⟨inner, same, rfl⟩ := Option.map_eq_some_iff.1 closed
    exact List.cons_prefix_cons.2 ⟨rfl, List.cons_prefix_cons.2 ⟨rfl, ih same⟩⟩
  | case5 rest ih =>
    obtain ⟨inner, same, rfl⟩ := Option.map_eq_some_iff.1 closed
    exact List.cons_prefix_cons.2 ⟨rfl, List.cons_prefix_cons.2 ⟨rfl, ih same⟩⟩
  | case6 c rest _ _ _ _ ih =>
    obtain ⟨inner, same, rfl⟩ := Option.map_eq_some_iff.1 closed
    exact List.cons_prefix_cons.2 ⟨rfl, ih same⟩

namespace Piece

variable {left text : List Char} {kind : TokenKind}

/-- A piece stands at the front. -/
theorem stands (piece : Piece left kind text) : text <+: left := by
  cases piece with
  | trivia found => exact trivia?_stands found
  | sign sign found =>
    obtain ⟨rest, rfl⟩ := List.head?_eq_some_iff.1 found
    exact ⟨rest, rfl⟩
  | word word found => exact List.takeWhile_prefix _
  | literal found => exact List.takeWhile_prefix _
  | escaped found closed =>
    rw [found]
    exact List.cons_prefix_cons.2 ⟨rfl, escapedFront_stands closed⟩
  | text found plain =>
    rw [found]
    exact List.cons_prefix_cons.2 ⟨rfl, List.takeWhile_prefix _⟩
  | @ignored inside behind found =>
    refine ⟨behind, ?_⟩
    rw [found]
    simp

/-- A piece is not empty. -/
theorem ne_nil (piece : Piece left kind text) : text ≠ [] := by
  cases piece with
  | trivia found => exact trivia?_ne_nil found
  | sign sign found => exact List.cons_ne_nil _ _
  | word word found => exact found
  | literal found => exact found
  | escaped found closed => exact List.cons_ne_nil _ _
  | text found plain => exact List.cons_ne_nil _ _
  | ignored found => exact List.cons_ne_nil _ _

/-- A piece has been read. -/
theorem read (piece : Piece left kind text) : kind ≠ .unread := by
  cases piece with
  | @trivia piece found => cases piece.kind <;> exact nofun
  | sign sign found =>
    rintro rfl
    cases sign
  | word word found =>
    rintro rfl
    cases word
  | literal found => exact nofun
  | escaped found closed => exact nofun
  | text found plain => exact nofun
  | ignored found => exact nofun

/-- A piece is no bracket. -/
theorem noBracket (piece : Piece left kind text) : kind ≠ .nodeOpen ∧ kind ≠ .nodeClose := by
  cases piece with
  | @trivia piece found => cases piece.kind <;> exact ⟨nofun, nofun⟩
  | sign sign found => constructor <;> (rintro rfl; cases sign)
  | word word found => constructor <;> (rintro rfl; cases word)
  | literal found => exact ⟨nofun, nofun⟩
  | escaped found closed => exact ⟨nofun, nofun⟩
  | text found plain => exact ⟨nofun, nofun⟩
  | ignored found => exact ⟨nofun, nofun⟩

end Piece

namespace Lexer.State

/-! ### Steps -/

/-- The state behind an opening bracket. -/
def opened (state : State) : State :=
  { state.cut .nodeOpen (some (state.depth + 1)) ['['] with depth := state.depth + 1 }

/-- The state behind a closing bracket. -/
def closed (state : State) : State :=
  { state.cut .nodeClose (some state.depth) [']'] with depth := state.depth - 1 }

/-- One step of a lexer. No bracket is closed where none is open. -/
inductive Step (state : State) : State → Prop
  | cut {kind : TokenKind} {text : List Char} (piece : Piece state.cursor.rest kind text) :
    Step state (state.cut kind none text)
  | opened (found : state.cursor.head = some '[') : Step state state.opened
  | closed (found : state.cursor.head = some ']') (inside : 0 < state.depth) :
    Step state state.closed

variable {state middle after : State}

/-- **A step** turns a text that stands at the cursor into a token that is read. -/
theorem Step.cuts (step : state.Step after) : ∃ kind depth text, text <+: state.cursor.rest ∧
    text ≠ [] ∧ kind ≠ .unread ∧ after.cursor = state.cursor.behind text ∧
    after.tokens =
      ⟨kind, state.cursor.position.offset, String.ofList text, depth⟩ :: state.tokens := by
  cases step with
  | cut piece => exact ⟨_, none, _, piece.stands, piece.ne_nil, piece.read, rfl, rfl⟩
  | opened found =>
    exact ⟨.nodeOpen, _, ['['], Cursor.one_stands_of_head found, List.cons_ne_nil _ _, nofun, rfl, rfl⟩
  | closed found _ =>
    exact ⟨.nodeClose, _, [']'], Cursor.one_stands_of_head found, List.cons_ne_nil _ _, nofun, rfl, rfl⟩

theorem Step.reaches (step : state.Step after) : state.cursor.Reaches after.cursor := by
  obtain ⟨_, _, text, stands, _, _, moved, _⟩ := step.cuts
  rw [moved]
  exact Cursor.reaches_behind stands

/-- Less is left than before. -/
def MovesTo (state after : State) : Prop :=
  after.cursor.rest.length < state.cursor.rest.length

theorem Step.movesTo (step : state.Step after) : state.MovesTo after := by
  obtain ⟨_, _, text, stands, positive, _, moved, _⟩ := step.cuts
  rw [MovesTo, moved]
  exact Cursor.behind_shorter stands positive

/-- Any number of steps. -/
abbrev Steps : State → State → Prop :=
  Relation.ReflTransGen Step

namespace Steps

/-- **What every step keeps** holds after any number of them. -/
theorem preserves {keeps : State → Prop} (steps : state.Steps after) (here : keeps state)
    (step : ∀ {before next : State}, before.Step next → keeps before → keeps next) :
    keeps after := by
  induction steps with
  | refl => exact here
  | tail _ last ih => exact step last ih

theorem reaches (steps : state.Steps after) : state.cursor.Reaches after.cursor := by
  induction steps with
  | refl => exact .refl _
  | tail _ last ih => exact ih.trans last.reaches

theorem length_le (steps : state.Steps after) :
    after.cursor.rest.length ≤ state.cursor.rest.length :=
  steps.reaches.length_le

/-- Steps before something that moves. -/
theorem movesTo (steps : state.Steps middle) (moves : middle.MovesTo after) :
    state.MovesTo after :=
  Nat.lt_of_lt_of_le moves steps.length_le

end Steps

namespace MovesTo

/-- Something that moves, and more steps. -/
theorem steps (moves : state.MovesTo middle) (more : middle.Steps after) : state.MovesTo after :=
  Nat.lt_of_le_of_lt (Steps.length_le more) moves

theorem trans (first : state.MovesTo middle) (second : middle.MovesTo after) :
    state.MovesTo after :=
  Nat.lt_trans second first

end MovesTo

end Lexer.State

end TypedMarkup
