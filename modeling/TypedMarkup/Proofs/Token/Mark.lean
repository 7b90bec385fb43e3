/-
**Marks.** What tokens and trees have in common. A mark is something a source has, as both a token
of the source and a part of its tree give it.

* `Token.marks` and `Part.marks` are the two ways to the marks. Words keep their text, opening
  signs and escaped text only their place, and plain text is taken character by character, since
  tokens cut it at other places than the tree.
* `Lexer.State.Tidy` holds of a lexer that has not given anything up: no token is unread, and none
  ends behind the cursor.
-/

import TypedMarkup.Proofs.Token.Run
import TypedMarkup.Proofs.Tree.Part

namespace TypedMarkup

/-! ### Marks -/

/-- Something a source has. -/
inductive Mark where
  | word (kind : TokenKind) (start : Nat) (text : String)
  | place (kind : TokenKind) (start : Nat)
  | char (c : Char)
deriving DecidableEq, Repr

/-- The marks of a token. -/
def Token.marks (token : Token) : List Mark :=
  match token.kind with
  | .typeName | .bindingName | .propertyName | .valueLiteral =>
    [.word token.kind token.start token.text]
  | .classStart | .childStart | .propertiesOpen | .propertyNegate | .preambleFallback
  | .escapedText => [.place token.kind token.start]
  | .text => token.text.toList.map Mark.char
  | _ => []

/-- The mark of a word as a token of the given kind. -/
def Word.mark (kind : TokenKind) (word : Word) : Mark :=
  .word kind word.start.offset word.content

/-- The mark of the escaped text. -/
def EscapedText.mark (text : EscapedText) : Mark :=
  .place .escapedText text.start.offset

/-- The marks of a value. -/
def Value.marks : Value → List Mark
  | literal word => [word.mark .valueLiteral]
  | bound _ name => [name.mark .bindingName]
  | escaped text => [text.mark]

/-- The marks of a setting. -/
def Setting.marks : Setting → List Mark
  | pair name value => name.mark .propertyName :: value.marks
  | flag name => [name.mark .propertyName]
  | negated start name => [.place .propertyNegate start.offset, name.mark .propertyName]

/-- The marks of a class. -/
def ClassRef.marks (used : ClassRef) : List Mark :=
  [.place .classStart used.start.offset, used.name.mark .bindingName]

/-- The marks of a step to a child type. -/
def ChildStep.marks (step : ChildStep) : List Mark :=
  [.place .childStart step.start.offset, step.name.mark .typeName]

/-- The marks of a type path. -/
def TypePath.marks : TypePath → List Mark
  | absolute root steps => root.mark .typeName :: steps.flatMap ChildStep.marks
  | relative steps => steps.flatMap ChildStep.marks

/-- The marks of a part. -/
def Part.marks : Part → List Mark
  | node _ => []
  | element _ => []
  | fallback mark => [.place .preambleFallback mark.offset]
  | name word => [word.mark .bindingName]
  | keyword _ => []
  | classRef used => used.marks
  | path route => route.marks
  | block start => [.place .propertiesOpen start.offset]
  | value given => given.marks
  | setting set => set.marks
  | run text => text.content.toList.map Mark.char
  | escaped text => [text.mark]

/-- The marks of some parts. -/
def marksOf (parts : List Part) : List Mark :=
  parts.flatMap Part.marks

@[simp] theorem marksOf_nil : marksOf [] = [] := rfl

@[simp] theorem marksOf_cons (part : Part) (parts : List Part) :
    marksOf (part :: parts) = part.marks ++ marksOf parts := rfl

@[simp] theorem marksOf_append (parts more : List Part) :
    marksOf (parts ++ more) = marksOf parts ++ marksOf more :=
  List.flatMap_append

theorem marksOf_flatMap {α : Type} (view : α → List Part) (items : List α) :
    marksOf (items.flatMap view) = items.flatMap fun a => marksOf (view a) := by
  induction items with
  | nil => rfl
  | cons a items ih => rw [List.flatMap_cons, marksOf_append, ih, List.flatMap_cons]

theorem marksOf_map {α : Type} (view : α → Part) (items : List α) :
    marksOf (items.map view) = items.flatMap fun a => (view a).marks := by
  rw [marksOf, List.flatMap_map]

/-! ### Lexers that go on -/

namespace Lexer.State

/-- The marks of all tokens cut so far, the oldest first. -/
def marks (state : State) : List Mark :=
  state.tokens.reverse.flatMap Token.marks

/-- Nothing is given up, and no token ends behind the cursor. -/
structure Tidy (state : State) : Prop where
  read : ∀ token ∈ state.tokens, token.kind ≠ .unread
  behind : Token.endOf state.tokens.reverse ≤ state.cursor.position.offset

theorem marks_cut (state : State) (kind : TokenKind) (depth : Option Nat) (text : List Char) :
    (state.cut kind depth text).marks = state.marks ++
      Token.marks ⟨kind, state.cursor.position.offset, String.ofList text, depth⟩ := by
  simp [marks, cut, List.flatMap_append]

theorem Tidy.cut {state : State} {kind : TokenKind} (tidy : state.Tidy) (read : kind ≠ .unread)
    (depth : Option Nat) (text : List Char) : (state.cut kind depth text).Tidy := by
  refine ⟨?_, ?_⟩
  · intro token member
    rcases List.mem_cons.1 member with rfl | member
    · exact read
    · exact tidy.read token member
  · refine Nat.le_of_eq ((Token.endOf_reverse_cons _ _).trans ?_)
    show state.cursor.position.offset + (String.ofList text).utf8ByteSize =
      (state.cursor.position.past text).offset
    rw [Position.past_offset]

end Lexer.State

end TypedMarkup
