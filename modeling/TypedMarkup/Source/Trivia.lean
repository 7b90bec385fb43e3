/-
**Trivia.** What stands between the parts of a construct without meaning anything: white space,
comments to the end of a line, and comments that nest.

* `trivia?` is the piece of trivia at the front of a text, if there is one; it is never empty
  (`trivia?_ne_nil`) and stands there (`trivia?_stands`).
* `leadingTrivia` lists all pieces up to the first character that is none; together they stand at
  the front of the text (`leadingTrivia_stands`).
-/

namespace TypedMarkup

/-! ### Pieces -/

/-- The two kinds of trivia. -/
inductive TriviaKind where
  | space
  | comment
deriving DecidableEq, Repr

/-- A piece of trivia. -/
structure Trivia where
  kind : TriviaKind
  text : List Char
deriving DecidableEq, Repr

/-- The four characters that separate without meaning anything. -/
def isSpace (c : Char) : Bool :=
  c == '\t' || c == '\r' || c == '\n' || c == ' '

/-- The rest of a nesting comment behind its opening, through the closing that ends it, with so
many inner comments open; all of an unclosed one. The count is not bounded here; where it is kept
in 32 bits with a sign, this stands for sources with fewer than `2 ^ 31` comments open in each
other. -/
def commentTail : Nat → List Char → List Char
  | _, [] => []
  | inner, '/' :: '*' :: rest => '/' :: '*' :: commentTail (inner + 1) rest
  | 0, '*' :: '/' :: _ => ['*', '/']
  | inner + 1, '*' :: '/' :: rest => '*' :: '/' :: commentTail inner rest
  | inner, c :: rest => c :: commentTail inner rest

/-- The piece of trivia at the front of a text. A comment to the end of a line stops before the
line feed. -/
def trivia? : List Char → Option Trivia
  | [] => none
  | ';' :: rest => some ⟨.comment, ';' :: rest.takeWhile fun c => c != '\n'⟩
  | '/' :: '*' :: rest => some ⟨.comment, '/' :: '*' :: commentTail 0 rest⟩
  | c :: rest => if isSpace c then some ⟨.space, c :: rest.takeWhile isSpace⟩ else none

/-- The text of a nesting comment is the front of what it is taken from. -/
theorem commentTail_stands (inner : Nat) (text : List Char) : commentTail inner text <+: text := by
  fun_induction commentTail inner text with
  | case1 => exact List.prefix_rfl
  | case2 _ rest ih => exact List.cons_prefix_cons.2 ⟨rfl, List.cons_prefix_cons.2 ⟨rfl, ih⟩⟩
  | case3 rest => exact ⟨rest, rfl⟩
  | case4 _ rest ih => exact List.cons_prefix_cons.2 ⟨rfl, List.cons_prefix_cons.2 ⟨rfl, ih⟩⟩
  | case5 _ c rest _ _ _ ih => exact List.cons_prefix_cons.2 ⟨rfl, ih⟩

/-- A piece of trivia stands at the front of the text. -/
theorem trivia?_stands {text : List Char} {piece : Trivia} (found : trivia? text = some piece) :
    piece.text <+: text := by
  unfold trivia? at found
  split at found
  · cases found
  · cases found
    exact List.cons_prefix_cons.2 ⟨rfl, List.takeWhile_prefix _⟩
  · cases found
    exact List.cons_prefix_cons.2 ⟨rfl, List.cons_prefix_cons.2 ⟨rfl, commentTail_stands _ _⟩⟩
  · split at found
    · cases found
      exact List.cons_prefix_cons.2 ⟨rfl, List.takeWhile_prefix _⟩
    · cases found

/-- A piece of trivia is not empty. -/
theorem trivia?_ne_nil {text : List Char} {piece : Trivia} (found : trivia? text = some piece) :
    piece.text ≠ [] := by
  unfold trivia? at found
  split at found
  · cases found
  · cases found; simp
  · cases found; simp
  · split at found
    · cases found; simp
    · cases found

/-- What follows a piece of trivia is shorter than the text. -/
theorem trivia?_shortens {text : List Char} {piece : Trivia} (found : trivia? text = some piece) :
    (text.drop piece.text.length).length < text.length := by
  have stands := (trivia?_stands found).length_le
  have positive := List.length_pos_iff.2 (trivia?_ne_nil found)
  simp only [List.length_drop]
  omega

/-! ### Leading trivia -/

/-- All pieces of trivia at the front of a text. -/
def leadingTrivia (text : List Char) : List Trivia :=
  match _ : trivia? text with
  | none => []
  | some piece => piece :: leadingTrivia (text.drop piece.text.length)
termination_by text.length
decreasing_by exact trivia?_shortens ‹_›

/-- The characters of all leading trivia. -/
def triviaText (text : List Char) : List Char :=
  (leadingTrivia text).flatMap Trivia.text

/-- Leading trivia stand at the front of the text. -/
theorem triviaText_stands (text : List Char) : triviaText text <+: text := by
  unfold triviaText
  induction text using leadingTrivia.induct with
  | case1 text found => rw [leadingTrivia]; split <;> simp_all
  | case2 text piece found ih =>
    rw [leadingTrivia]
    split
    · simp_all
    · next other same =>
      obtain rfl : piece = other := by simpa [found] using same
      obtain ⟨rest, stands⟩ := trivia?_stands found
      obtain ⟨tail, more⟩ := ih
      refine ⟨tail, ?_⟩
      rw [List.flatMap_cons, List.append_assoc, more]
      rw [← stands]
      simp

end TypedMarkup
