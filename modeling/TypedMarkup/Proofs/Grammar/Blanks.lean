/-
**Lexemes with blank comments.** The comments in the gaps of a source may be made blank without
changing how it is cut into lexemes.

* `Text.Dimmed text text'`: the second text is the first with some of its comments blank. What may be
  seen at the front of the one may be seen at the front of the other (`Dimmed.sees`).
* `Cursor.blanked c lexemes` is the text of some lexemes with all comments blank, except those inside
  ignored nodes.
* `Cursor.Flows.blanked`: lexemes that flow from a cursor flow, with other gaps, from the same place of
  the source with blank comments.
-/

import TypedMarkup.Proofs.Grammar.Transfers
import TypedMarkup.Proofs.Source.Fronts

namespace TypedMarkup

namespace Text

/-- The text with a space for everything but line feeds. -/
def blank (text : List Char) : List Char :=
  text.map fun c => if c = '\n' then c else ' '

theorem isSpace_of_mem_blank {text : List Char} : ∀ c ∈ blank text, isSpace c = true := by
  intro c member
  obtain ⟨d, _, rfl⟩ := List.mem_map.1 member
  split
  · next feed => exact feed ▸ rfl
  · rfl

end Text

open Text (blank)

/-! ### Trivia -/

/-- The text of a piece of trivia, blank if it is a comment. -/
def Trivia.blanked (piece : Trivia) : List Char :=
  match piece.kind with
  | .space => piece.text
  | .comment => blank piece.text

/-- The trivia at the front of a text, with blank comments. -/
def blankedTrivia (text : List Char) : List Char :=
  (leadingTrivia text).flatMap Trivia.blanked

theorem blankedTrivia_of_some {text : List Char} {piece : Trivia}
    (found : trivia? text = some piece) :
    blankedTrivia text = piece.blanked ++ blankedTrivia (text.drop piece.text.length) := by
  rw [blankedTrivia, leadingTrivia_of_trivia?_eq_some found]
  rfl

/-- A comment begins with its sign. -/
theorem isComment_of_trivia? {text front : List Char}
    (found : trivia? text = some ⟨.comment, front⟩) :
    Sight.isComment text.head? text.tail.head? = true ∧ ∃ more, blank front = ' ' :: more := by
  unfold trivia? at found
  split at found
  · cases found
  · cases found
    exact ⟨rfl, _, rfl⟩
  · cases found
    exact ⟨rfl, _, rfl⟩
  · split at found <;> cases found

/-- The signs of comments begin trivia, and may be part of text. -/
theorem head_of_isComment {head second : Option Char}
    (comment : Sight.isComment head second = true) :
    ∃ x, head = some x ∧ beginsTrivia x = true ∧ Parser.endsText x = false ∧ x ≠ '_' := by
  simp only [Sight.isComment, Bool.or_eq_true, Bool.and_eq_true, decide_eq_true_eq] at comment
  obtain line | ⟨slash, _⟩ := comment
  · exact ⟨';', line, rfl, rfl, by decide⟩
  · exact ⟨'/', slash, rfl, rfl, by decide⟩

/-- White space is white space. -/
theorem isSpace_of_trivia? {text front : List Char}
    (found : trivia? text = some ⟨.space, front⟩) : ∀ c ∈ front, isSpace c = true := by
  unfold trivia? at found
  split at found
  · cases found
  · cases found
  · cases found
  · next c rest _ _ =>
    split at found
    · next space =>
      cases found
      intro d member
      rcases List.mem_cons.1 member with rfl | member
      · exact space
      · exact List.all_eq_true.1 List.all_takeWhile d member
    · cases found

/-- Of trivia with blank comments all is white space. -/
theorem isSpace_of_mem_blankedTrivia {text : List Char} :
    ∀ c ∈ blankedTrivia text, isSpace c = true := by
  induction text using leadingTrivia.induct with
  | case1 text missing =>
    rw [blankedTrivia, leadingTrivia_of_trivia?_eq_none missing]
    exact fun _ none => absurd none List.not_mem_nil
  | case2 text piece found ih =>
    rw [blankedTrivia_of_some found]
    intro c member
    rcases List.mem_append.1 member with member | member
    · obtain ⟨kind, front⟩ := piece
      cases kind with
      | space => exact isSpace_of_trivia? found c member
      | comment => exact Text.isSpace_of_mem_blank c member
    · exact ih c member

/-- Blanks lead to the same line and column. -/
theorem Position.View.past_blank {p q : Position} (text : List Char)
    (same : lineAndColumn.of q = lineAndColumn.of p) :
    lineAndColumn.of (q.past (blank text)) = lineAndColumn.of (p.past text) := by
  induction text generalizing p q with
  | nil => exact same
  | cons c text ih =>
    refine ih ?_
    dsimp only
    split
    · exact lineAndColumn.after c same
    · next other =>
      simp only [lineAndColumn, Position.mk.injEq] at same
      simp [lineAndColumn, Position.after, other, same.1, same.2]

/-- A text leads on from places of one line and column to places of one line and column. -/
theorem Position.View.past {view : View} {p q : Position} (text : List Char)
    (same : view.of q = view.of p) : view.of (q.past text) = view.of (p.past text) := by
  induction text generalizing p q with
  | nil => exact same
  | cons c text ih => exact ih (view.after c same)

theorem Position.View.past_blankedTrivia {p q : Position} (text : List Char)
    (same : lineAndColumn.of q = lineAndColumn.of p) :
    lineAndColumn.of (q.past (blankedTrivia text)) = lineAndColumn.of (p.past (triviaText text)) := by
  induction text using leadingTrivia.induct generalizing p q with
  | case1 text missing =>
    rw [blankedTrivia, triviaText, leadingTrivia_of_trivia?_eq_none missing]
    exact same
  | case2 text piece found ih =>
    rw [blankedTrivia_of_some found, triviaText_of_some found, Position.past_append,
      Position.past_append]
    refine ih ?_
    obtain ⟨kind, front⟩ := piece
    cases kind with
    | space => exact past front same
    | comment => exact past_blank front same

/-! ### Texts with blank comments -/

namespace Text

/-- A text, and the text with some of its comments blank. -/
inductive Dimmed : List Char → List Char → Prop
  | nil : Dimmed [] []
  | keep {text text' : List Char} (c : Char) (later : Dimmed text text') :
    Dimmed (c :: text) (c :: text')
  | comment {text text' front : List Char} (found : trivia? text = some ⟨.comment, front⟩)
    (later : Dimmed (text.drop front.length) text') : Dimmed text (blank front ++ text')

namespace Dimmed

variable {text text' : List Char}

theorem refl (text : List Char) : Dimmed text text := by
  induction text with
  | nil => exact nil
  | cons c text ih => exact ih.keep c

theorem append (front : List Char) (later : Dimmed text text') :
    Dimmed (front ++ text) (front ++ text') := by
  induction front with
  | nil => exact later
  | cons c front ih => exact ih.keep c

/-- The first character stays, unless it begins a comment. -/
theorem head? (dimmed : Dimmed text text') : text'.head? = text.head? ∨
    Sight.isComment text.head? text.tail.head? = true ∧ text'.head? = some ' ' := by
  cases dimmed with
  | nil => exact .inl rfl
  | keep c later => exact .inl rfl
  | comment found later =>
    obtain ⟨comment, more, same⟩ := isComment_of_trivia? found
    exact .inr ⟨comment, by rw [same, List.cons_append, List.head?_cons]⟩

/-- What does not begin a comment stays. -/
theorem head?_eq_some {x : Char} (dimmed : Dimmed text text') (solid : x ≠ ' ' ∧ x ≠ ';' ∧ x ≠ '/') :
    text'.head? = some x ↔ text.head? = some x := by
  rcases dimmed.head? with same | ⟨comment, space⟩
  · rw [same]
  · rw [space]
    simp only [Sight.isComment, Bool.or_eq_true, Bool.and_eq_true, decide_eq_true_eq] at comment
    constructor
    · rintro ⟨⟩
      exact (solid.1 rfl).elim
    · intro head
      rw [head] at comment
      obtain ⟨⟨⟩⟩ | ⟨⟨⟨⟩⟩, _⟩ := comment
      · exact (solid.2.1 rfl).elim
      · exact (solid.2.2 rfl).elim

/-- What may not begin a word does not begin one where comments are blank. -/
theorem any_head? {allowed : Char → Bool} (dimmed : Dimmed text text')
    (space : allowed ' ' = false) (ends : text.head?.any allowed = false) :
    text'.head?.any allowed = false := by
  rcases dimmed.head? with same | ⟨_, blank⟩
  · rw [same, ends]
  · rw [blank, Option.any_some, space]

/-- Where no trivia begin, none begin where comments are blank. -/
theorem trivia?_eq_none (dimmed : Dimmed text text') (clear : trivia? text = none) :
    trivia? text' = none := by
  cases dimmed with
  | nil => rfl
  | comment found later => simp [clear] at found
  | @keep rest rest' c later =>
    have star := later.head?_eq_some (x := '*') (by decide)
    refine trivia?_other (isSpace_of_trivia?_eq_none clear) ?_ ?_
    · rintro rfl
      cases clear
    · refine Bool.eq_false_iff.2 fun opens => ?_
      simp only [opensComment, Bool.and_eq_true, decide_eq_true_eq, star] at opens
      obtain ⟨rest, rfl⟩ := List.head?_eq_some_iff.1 opens.2
      obtain rfl := opens.1
      cases clear

theorem eq_nil (dimmed : Dimmed text text') (none : text = []) : text' = [] := by
  cases dimmed with
  | nil => rfl
  | keep => cases none
  | comment found later =>
    subst none
    cases found

/-- **What is seen is seen where comments are blank.** -/
theorem sees {seen : Sight} (dimmed : Dimmed text text')
    (sees : seen.sees text.head? text.tail.head? = true) :
    seen.sees text'.head? text'.tail.head? = true := by
  cases dimmed with
  | nil => exact sees
  | @keep rest rest' c later =>
    exact (Sight.sees_congr (later.head?_eq_some (by decide)) (later.head?_eq_some (by decide))
      seen).trans sees
  | @comment _ rest' front found later =>
    obtain ⟨comment, more, same⟩ := isComment_of_trivia? found
    obtain ⟨x, head, trivia, plain, _⟩ := head_of_isComment comment
    -- Where a comment begins, only such things are seen as are seen at a space.
    rw [head] at sees
    rw [same, List.cons_append, List.head?_cons]
    cases seen with
    | avoids signs =>
      simp only [Sight.sees, Bool.and_eq_true] at sees ⊢
      exact ⟨sees.1, by rw [Option.any_some, not_contains_of_apart sees.1 rfl]; rfl⟩
    | shows signs =>
      simp only [Sight.sees, Bool.and_eq_true, Option.any_some] at sees
      rw [not_contains_of_apart sees.1 trivia] at sees
      cases sees.2
    | noPath | line | plain | nodeText => rfl
    | settingNext =>
      rw [← head] at sees
      simp only [Sight.sees, comment, Bool.not_true, Bool.and_false] at sees
      cases sees
    | textEnd =>
      simp [Sight.sees, plain] at sees
    | sourceEnd => cases sees
    | lineEnd | blockEnd => simp_all [Sight.sees, Parser.endsText]

/-- Plain text ends where it ended. -/
theorem plainText_eq_nil (dimmed : Dimmed text text') (ends : Parser.plainText text = []) :
    Parser.plainText text' = [] := by
  cases dimmed with
  | nil => rfl
  | @keep rest rest' c later =>
    rw [Parser.plainText_cons] at ends ⊢
    simp only [later.head?_eq_some (x := '[') (by decide)]
    split at ends
    · next stops => rw [if_pos stops]
    · cases ends
  | comment found later =>
    obtain ⟨x, head, _, plain, other⟩ := head_of_isComment (isComment_of_trivia? found).1
    obtain ⟨rest, rfl⟩ := List.head?_eq_some_iff.1 head
    simp [Parser.plainText_cons, plain, other] at ends

end Dimmed

/-- Trivia with blank comments. -/
theorem dimmed_blankedTrivia {text rest' : List Char}
    (later : Dimmed (text.drop (triviaText text).length) rest') :
    Dimmed text (blankedTrivia text ++ rest') := by
  induction text using leadingTrivia.induct with
  | case1 text missing =>
    rw [triviaText_of_none missing] at later
    rw [blankedTrivia, leadingTrivia_of_trivia?_eq_none missing]
    exact later
  | case2 text piece found ih =>
    rw [triviaText_of_some found, List.length_append, ← List.drop_drop] at later
    rw [blankedTrivia_of_some found, List.append_assoc]
    have behind := ih later
    obtain ⟨kind, front⟩ := piece
    cases kind with
    | space =>
      have whole := behind.append front
      rwa [List.prefix_iff_eq_append.1 (trivia?_stands found)] at whole
    | comment => exact .comment found behind

end Text

/-! ### Lexemes -/

namespace Lexeme

/-- The text of a lexeme at a cursor, with blank comments if it is a gap outside ignored nodes. -/
def blankedAt (c : Cursor) (x : Lexeme) : List Char :=
  match x.kind with
  | .gap false => blankedTrivia c.rest
  | _ => x.text

variable {c c' : Cursor} {x : Lexeme} {rest' : List Char}

/-- A lexeme with blank comments before what is left with blank comments. -/
theorem Fits.dimmed (fits : x.Fits c) (later : Text.Dimmed (c.behind x.text).rest rest') :
    Text.Dimmed c.rest (x.blankedAt c ++ rest') := by
  have kept : Text.Dimmed c.rest (x.text ++ rest') :=
    List.prefix_iff_eq_append.1 fits.front ▸ later.append x.text
  obtain ⟨kind, start, text⟩ := x
  cases kind with
  | gap kept' =>
    cases kept' with
    | false =>
      obtain rfl : text = triviaText c.rest := fits
      exact Text.dimmed_blankedTrivia later
    | true => exact kept
  | sign | name | literal | escaped | plain | sight => exact kept

/-- **What stands at a cursor stands where comments are blank.** -/
theorem Fits.blanked (fits : x.Fits c)
    (place : Position.View.lineAndColumn.of c'.position = Position.View.lineAndColumn.of c.position)
    (later : Text.Dimmed (c.behind x.text).rest rest') (split : c'.rest = x.blankedAt c ++ rest') :
    Fits c' ⟨x.kind, c'.position, x.blankedAt c⟩ := by
  have dimmed := fits.dimmed later
  rw [← split] at dimmed
  have col : c'.position.col = c.position.col := by
    simp only [Position.View.lineAndColumn, Position.mk.injEq] at place
    exact place.2.1
  obtain ⟨kind, start, text⟩ := x
  cases kind with
  | gap kept =>
    have taken : text = triviaText c.rest := fits
    have clear := later.trivia?_eq_none (taken ▸ trivia?_drop_triviaText c.rest)
    cases kept with
    | false =>
      show blankedTrivia c.rest = triviaText c'.rest
      rw [split, blankedAt, triviaText_spaces isSpace_of_mem_blankedTrivia, triviaText_of_none clear,
        List.append_nil]
    | true => exact fits.before col split ⟨clear, later.eq_nil⟩
  | sign => exact fits.before col split trivial
  | name =>
    have ends := later.any_head? rfl (fits.1 ▸ takeWhile_ends isNameChar c.rest)
    exact fits.before col split ends
  | literal =>
    have ends := later.any_head? rfl (fits.1 ▸ takeWhile_ends isValueChar c.rest)
    exact fits.before col split ends
  | escaped content => exact fits.before col split trivial
  | plain =>
    have ends := later.plainText_eq_nil (fits.1 ▸ Parser.plainText_ends c.rest)
    exact fits.before col split ⟨ends, (later.head?_eq_some (x := '[') (by decide)).1⟩
  | sight seen =>
    obtain ⟨rfl, sees⟩ := fits
    exact ⟨rfl, dimmed.sees sees⟩

/-- Behind a lexeme with blank comments line and column are what they were. -/
theorem Fits.past_blankedAt (fits : x.Fits c) {p q : Position}
    (place : Position.View.lineAndColumn.of q = Position.View.lineAndColumn.of p) :
    Position.View.lineAndColumn.of (q.past (x.blankedAt c)) =
      Position.View.lineAndColumn.of (p.past x.text) := by
  have kept := Position.View.past x.text place
  obtain ⟨kind, start, text⟩ := x
  cases kind with
  | gap kept' =>
    cases kept' with
    | false =>
      obtain rfl : text = triviaText c.rest := fits
      exact Position.View.past_blankedTrivia c.rest place
    | true => exact kept
  | sign | name | literal | escaped | plain | sight => exact kept

/-- A lexeme with blank comments looks alike. -/
theorem relabel_blankedAt (start : x.start = c.position)
    (place : Position.View.lineAndColumn.of c'.position =
      Position.View.lineAndColumn.of c.position) :
    relabel .lineAndColumn id ⟨x.kind, c'.position, x.blankedAt c⟩ =
      relabel .lineAndColumn id x := by
  obtain ⟨kind, start', text⟩ := x
  obtain rfl : start' = c.position := start
  cases kind with
  | gap kept => rfl
  | sign | name | literal | escaped | plain | sight => simp only [relabel, blankedAt, place]

end Lexeme

/-! ### Flows -/

namespace Cursor

variable {c c' d : Cursor} {lexemes more : List Lexeme}

/-- The text of some lexemes from a cursor on, with blank comments. -/
def blanked (c : Cursor) : List Lexeme → List Char
  | [] => []
  | x :: lexemes => x.blankedAt c ++ (c.behind x.text).blanked lexemes

@[simp] theorem blanked_nil : c.blanked [] = [] := rfl

@[simp] theorem blanked_cons (x : Lexeme) :
    c.blanked (x :: lexemes) = x.blankedAt c ++ (c.behind x.text).blanked lexemes := rfl

/-- Inside an ignored node comments stay. -/
theorem blanked_keep (lexemes : List Lexeme) :
    c.blanked (lexemes.map Lexeme.keep) = Lexeme.textOf lexemes := by
  induction lexemes generalizing c with
  | nil => rfl
  | cons x lexemes ih =>
    rw [List.map_cons, blanked_cons, ih, Lexeme.textOf_cons]
    obtain ⟨kind, start, text⟩ := x
    cases kind <;> rfl

namespace Flows

theorem blanked_append (flows : c.Flows lexemes d) :
    c.blanked (lexemes ++ more) = c.blanked lexemes ++ d.blanked more := by
  induction lexemes generalizing c with
  | nil =>
    obtain rfl : d = c := flows
    rfl
  | cons x lexemes ih => rw [List.cons_append, blanked_cons, ih flows.2, blanked_cons,
      List.append_assoc]

theorem dimmed (flows : c.Flows lexemes d) :
    Text.Dimmed c.rest (c.blanked lexemes ++ d.rest) := by
  induction lexemes generalizing c with
  | nil =>
    obtain rfl : d = c := flows
    exact .refl d.rest
  | cons x lexemes ih =>
    rw [blanked_cons, List.append_assoc]
    exact flows.1.2.dimmed (ih flows.2)

/-- **Blank comments.** Where the comments of a source are blank, it is cut into lexemes that look
alike. -/
theorem blanked (flows : c.Flows lexemes d)
    (place : Position.View.lineAndColumn.of c'.position = Position.View.lineAndColumn.of c.position)
    (split : c'.rest = c.blanked lexemes ++ d.rest) :
    ∃ (lexemes' : List Lexeme) (d' : Cursor), c'.Flows lexemes' d' ∧
      lexemes'.map (Lexeme.relabel .lineAndColumn id) =
        lexemes.map (Lexeme.relabel .lineAndColumn id) := by
  induction lexemes generalizing c c' with
  | nil => exact ⟨[], c', flows_nil.2 rfl, rfl⟩
  | cons x lexemes ih =>
    obtain ⟨⟨start, fits⟩, later⟩ := flows
    rw [blanked_cons, List.append_assoc] at split
    have fits' := fits.blanked place later.dimmed split
    have place' : Position.View.lineAndColumn.of (c'.behind (x.blankedAt c)).position =
        Position.View.lineAndColumn.of (c.behind x.text).position := fits.past_blankedAt place
    obtain ⟨lexemes', d', later', same⟩ := ih later place' (Cursor.behind_rest split)
    refine ⟨⟨x.kind, c'.position, x.blankedAt c⟩ :: lexemes', d', ⟨⟨rfl, fits'⟩, later'⟩, ?_⟩
    rw [List.map_cons, List.map_cons, same, Lexeme.relabel_blankedAt start place]

end Flows

end Cursor

end TypedMarkup
