/-
**Tokens show the tree.** The tokens of a source that parses, and the tree that parsing gives, say
the same of it: which words it has and of what kind, where its signs stand, and what its text is.

* `Content.words` lists the words of a tree, each with the kind of token that shows it, and
  `Content.runs` its runs of text, both in the order of the source.
* `TokenKind.sign?` is the sign that tokens of a kind start with, if the tree records it.
* Both sides are read off their marks: `Token.words_of_marks`, `Part.words_of_marks` and the pairs
  after them do so for words, for signs and for text.
* `tokenize_shows_tree` is the result.
-/

import TypedMarkup.Proofs.Token.Tokenize
import TypedMarkup.Proofs.Tree.Signs

namespace TypedMarkup

/-! ### What a tree shows -/

/-- The words of a value, each with the kind of token that shows it. -/
def Value.words : Value → List (TokenKind × Word)
  | literal word => [(.valueLiteral, word)]
  | bound _ name => [(.bindingName, name)]
  | escaped _ => []

/-- The words of a setting. -/
def Setting.words : Setting → List (TokenKind × Word)
  | pair name value => (.propertyName, name) :: value.words
  | flag name => [(.propertyName, name)]
  | negated _ name => [(.propertyName, name)]

/-- The words of a type path. -/
def TypePath.words : TypePath → List (TokenKind × Word)
  | absolute root steps => (.typeName, root) :: steps.map fun step => (.typeName, step.name)
  | relative steps => steps.map fun step => (.typeName, step.name)

/-- The words of a part. The word that starts a text node is a keyword. -/
def Part.words : Part → List (TokenKind × Word)
  | name word => [(.bindingName, word)]
  | classRef used => [(.bindingName, used.name)]
  | path route => route.words
  | value given => given.words
  | setting set => set.words
  | node _ | element _ | fallback _ | keyword _ | block _ | run _ | escaped _ => []

/-- All words of a tree. -/
def Content.words (content : Content) : List (TokenKind × Word) :=
  content.parts.flatMap Part.words

/-- The run of text that a part is. -/
def Part.runs : Part → List TextRun
  | run text => [text]
  | node _ | element _ | fallback _ | name _ | keyword _ | classRef _ | path _ | block _ | value _
  | setting _ | escaped _ => []

/-- All runs of text of a tree. -/
def Content.runs (content : Content) : List TextRun :=
  content.parts.flatMap Part.runs

/-! ### What tokens show -/

namespace TokenKind

/-- Whether tokens of a kind are words that a tree records. -/
def showsWord : TokenKind → Bool
  | typeName | bindingName | propertyName | valueLiteral => true
  | _ => false

/-- The sign that tokens of a kind start with, if it opens something that a tree records. -/
def sign? : TokenKind → Option Char
  | escapedText => some '\x60'
  | classStart => some '.'
  | childStart => some '\\'
  | propertiesOpen => some '\x7b'
  | propertyNegate => some '!'
  | preambleFallback => some '?'
  | _ => none

end TokenKind

/-- What is selected from a list, item by item. -/
theorem flatMap_selected {α β : Type} {items : List α} {view : α → List β} {select : α → Bool}
    {shown : α → β} (each : ∀ a, view a = if select a then [shown a] else []) :
    items.flatMap view = (items.filter select).map shown := by
  induction items with
  | nil => rfl
  | cons a items ih =>
    rw [List.flatMap_cons, ih, each]
    cases selected : select a with
    | true => simp [selected]
    | false => simp [selected]

/-! ### Words of marks -/

/-- A word with its kind and place, as a mark has it. -/
def Mark.word? : Mark → Option (TokenKind × Nat × String)
  | word kind start text => some (kind, start, text)
  | place _ _ | char _ => none

theorem Token.words_of_marks (tokens : List Token) :
    (tokens.flatMap Token.marks).filterMap Mark.word? =
      (tokens.filter fun token => token.kind.showsWord).map fun token =>
        (token.kind, token.start, token.text) := by
  rw [List.filterMap_flatMap]
  refine flatMap_selected fun token => ?_
  obtain ⟨kind, start, text, depth⟩ := token
  cases kind <;> simp [Token.marks, Mark.word?, TokenKind.showsWord, List.filterMap_map, Function.comp_def]

/-- A word with its kind and place, as a tree has it. -/
def shownWord (shown : TokenKind × Word) : TokenKind × Nat × String :=
  (shown.1, shown.2.start.offset, shown.2.content)

theorem ChildStep.words_of_marks (steps : List ChildStep) :
    (steps.flatMap ChildStep.marks).filterMap Mark.word? =
      (steps.map fun step => (TokenKind.typeName, step.name)).map shownWord := by
  induction steps with
  | nil => rfl
  | cons step rest ih =>
    rw [List.flatMap_cons, List.filterMap_append, ih]
    rfl

theorem TypePath.words_of_marks (path : TypePath) :
    path.marks.filterMap Mark.word? = path.words.map shownWord := by
  cases path with
  | absolute root steps =>
    exact congrArg (shownWord (.typeName, root) :: ·) (ChildStep.words_of_marks steps)
  | relative steps => exact ChildStep.words_of_marks steps

theorem Value.words_of_marks (value : Value) :
    value.marks.filterMap Mark.word? = value.words.map shownWord := by
  cases value <;> rfl

theorem Setting.words_of_marks (setting : Setting) :
    setting.marks.filterMap Mark.word? = setting.words.map shownWord := by
  cases setting with
  | pair name value => exact congrArg (shownWord (.propertyName, name) :: ·) value.words_of_marks
  | flag name => rfl
  | negated start name => rfl

theorem Part.words_of_marks (parts : List Part) :
    (marksOf parts).filterMap Mark.word? = (parts.flatMap Part.words).map shownWord := by
  rw [marksOf, List.filterMap_flatMap, List.map_flatMap]
  refine List.flatMap_congr fun part _ => ?_
  cases part with
  | path route => exact route.words_of_marks
  | value given => exact given.words_of_marks
  | setting set => exact set.words_of_marks
  | run text => simp [Part.marks, Part.words, Mark.word?, List.filterMap_map, Function.comp_def]
  | _ => rfl

/-! ### Signs of marks -/

/-- The place of a sign that tokens of a kind start with. -/
def Mark.place? (shows : TokenKind) : Mark → Option Nat
  | place kind start => if kind == shows then some start else none
  | word _ _ _ | char _ => none

variable {kind : TokenKind} {sign : Char}

theorem Token.places_of_marks (signs : kind.sign? = some sign) (tokens : List Token) :
    (tokens.flatMap Token.marks).filterMap (Mark.place? kind) =
      (tokens.filter fun token => token.kind == kind).map Token.start := by
  rw [List.filterMap_flatMap]
  refine flatMap_selected fun token => ?_
  obtain ⟨other, start, text, depth⟩ := token
  -- Of the kinds with a sign only `kind` is selected, and it has one.
  by_cases same : other = kind
  · subst same
    cases other <;> cases signs <;> rfl
  · cases other <;>
      simp [Token.marks, Mark.place?, same, List.filterMap_map, Function.comp_def]

/-- The places of a sign among those that a tree records. -/
def placesOf (sign : Char) (signs : List (Char × Position)) : List Nat :=
  (signs.filter fun recorded => recorded.1 == sign).map fun recorded => recorded.2.offset

theorem Value.places_of_marks (signs : kind.sign? = some sign) (value : Value) :
    value.marks.filterMap (Mark.place? kind) = placesOf sign value.signs := by
  cases kind <;> cases signs <;> cases value <;> rfl

theorem Setting.places_of_marks (signs : kind.sign? = some sign) (setting : Setting) :
    setting.marks.filterMap (Mark.place? kind) = placesOf sign setting.signs := by
  cases setting with
  | pair name value => exact value.places_of_marks signs
  | flag name => rfl
  | negated start name => cases kind <;> cases signs <;> rfl

theorem TypePath.places_of_marks (signs : kind.sign? = some sign) (path : TypePath) :
    path.marks.filterMap (Mark.place? kind) = placesOf sign (Part.path path).signs := by
  have below (steps : List ChildStep) :
      (steps.flatMap ChildStep.marks).filterMap (Mark.place? kind) =
        placesOf sign (steps.map fun step => ('\\', step.start)) := by
    induction steps with
    | nil => rfl
    | cons step rest ih =>
      rw [List.flatMap_cons, List.filterMap_append, ih]
      cases kind <;> cases signs <;> rfl
  cases path with
  | absolute root steps => exact below steps
  | relative steps => exact below steps

theorem Part.places_of_marks (signs : kind.sign? = some sign) (parts : List Part) :
    (marksOf parts).filterMap (Mark.place? kind) = placesOf sign (parts.flatMap Part.signs) := by
  rw [marksOf, List.filterMap_flatMap, placesOf, List.filter_flatMap, List.map_flatMap]
  refine List.flatMap_congr fun part _ => ?_
  cases part with
  | path route => exact route.places_of_marks signs
  | value given => exact given.places_of_marks signs
  | setting set => exact set.places_of_marks signs
  | run text => simp [Part.marks, Part.signs, Mark.place?, List.filterMap_map, Function.comp_def]
  | name word => rfl
  | keyword word => rfl
  | _ => cases kind <;> cases signs <;> rfl

/-! ### Text of marks -/

/-- A character of text. -/
def Mark.char? : Mark → Option Char
  | char c => some c
  | word _ _ _ | place _ _ => none

theorem Token.text_of_marks (tokens : List Token) :
    (tokens.flatMap Token.marks).filterMap Mark.char? =
      Token.textOf (tokens.filter fun token => token.kind == .text) := by
  rw [List.filterMap_flatMap]
  unfold Token.textOf
  induction tokens with
  | nil => rfl
  | cons token tokens ih =>
    rw [List.flatMap_cons, ih]
    obtain ⟨kind, start, text, depth⟩ := token
    cases kind <;> simp [Token.marks, Mark.char?, List.filterMap_map, Function.comp_def]

theorem Part.text_of_marks (parts : List Part) :
    (marksOf parts).filterMap Mark.char? =
      (parts.flatMap Part.runs).flatMap fun run => run.content.toList := by
  rw [marksOf, List.filterMap_flatMap, List.flatMap_assoc]
  refine List.flatMap_congr fun part _ => ?_
  cases part with
  | run text => simp [Part.marks, Part.runs, Mark.char?, List.filterMap_map, Function.comp_def]
  | path route =>
    have below (steps : List ChildStep) :
        (steps.flatMap ChildStep.marks).filterMap Mark.char? = [] := by
      simp [List.filterMap_flatMap, ChildStep.marks, Word.mark, Mark.char?]
    cases route with
    | absolute root steps => exact below steps
    | relative steps => exact below steps
  | value given => cases given <;> rfl
  | setting set =>
    cases set with
    | pair name value => cases value <;> rfl
    | flag name => rfl
    | negated start name => rfl
  | _ => rfl

/-! ### Sources -/

/-- **The tokens of a source show its tree.** They have the same words, with their kinds and places
and in the same order; the signs that the tree records start where the tokens of their kind do; and
the text is the same. -/
theorem tokenize_shows_tree {source : String} {content : Content}
    (parsed : Content.parse source = .ok content) :
    (((tokenize source).filter fun token => token.kind.showsWord).map fun token =>
        (token.kind, token.start, token.text)) =
      (content.words.map fun shown => (shown.1, shown.2.start.offset, shown.2.content)) ∧
    (∀ kind sign, kind.sign? = some sign →
      ((tokenize source).filter fun token => token.kind == kind).map Token.start =
        (content.signs.filter fun recorded => recorded.1 == sign).map fun recorded =>
          recorded.2.offset) ∧
    Token.textOf ((tokenize source).filter fun token => token.kind == .text) =
      content.runs.flatMap fun run => run.content.toList := by
  have ran := run_file_of_parse source
  rw [parsed] at ran
  obtain ⟨after, run, _, said⟩ := ran
  have marks : (tokenize source).flatMap Token.marks = marksOf content.parts := by
    rw [tokenize_of_run run]
    exact said
  refine ⟨?_, fun kind sign signs => ?_, ?_⟩
  · rw [← Token.words_of_marks, marks]
    exact Part.words_of_marks content.parts
  · rw [← Token.places_of_marks signs, marks]
    exact Part.places_of_marks signs content.parts
  · rw [← Token.text_of_marks, marks]
    exact Part.text_of_marks content.parts

/-- A type whose name is a keyword elsewhere, a setting, and text around an ignored node. -/
theorem tokenize_shows_tree_keyword : ∃ content,
    Content.parse "<def text{!a}>x_[y]_z" = .ok content ∧
    (content.words.map fun shown => (shown.1, shown.2.start.offset, shown.2.content)) =
      [(.typeName, 5, "text"), (.propertyName, 11, "a")] ∧
    ((content.signs.filter fun recorded => recorded.1 == '!').map fun recorded =>
      recorded.2.offset) = [10] ∧
    (content.runs.flatMap fun run => run.content.toList) = ['x', '_', 'z'] := by
  have fits : (Content.parse "<def text{!a}>x_[y]_z").isOk = true := by decide +kernel
  have words : (((tokenize "<def text{!a}>x_[y]_z").filter fun token => token.kind.showsWord).map
      fun token => (token.kind, token.start, token.text)) =
        [(.typeName, 5, "text"), (.propertyName, 11, "a")] := by
    decide +kernel
  have marks : ((tokenize "<def text{!a}>x_[y]_z").filter fun token =>
      token.kind == .propertyNegate).map Token.start = [10] := by
    decide +kernel
  have text : Token.textOf ((tokenize "<def text{!a}>x_[y]_z").filter fun token =>
      token.kind == .text) = ['x', '_', 'z'] := by
    decide +kernel
  cases parsed : Content.parse "<def text{!a}>x_[y]_z" with
  | error error =>
    rw [parsed] at fits
    cases fits
  | ok content =>
    have shows := tokenize_shows_tree parsed
    exact ⟨content, rfl, shows.1 ▸ words, shows.2.1 .propertyNegate '!' rfl ▸ marks,
      shows.2.2 ▸ text⟩

end TypedMarkup
