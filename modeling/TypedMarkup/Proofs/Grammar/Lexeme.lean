/-
**Lexemes.** The smallest parts of a source as its grammar knows them: gaps of trivia, signs, names,
values and texts, and places where something is seen without being passed over.

* `Lexeme.Stands c x` says that the lexeme is what stands at the cursor. Gaps, words and texts go on
  for as long as they can, so this also looks at what follows them.
* `Cursor.Flows c lexemes d`: the source from one cursor to the other is cut into these lexemes. It
  splits where the list does (`flows_append`), and the source leads from `c` to `d` over the text of
  the lexemes (`Flows.rest_eq`, `Flows.reaches`).
-/

import TypedMarkup.Proofs.Source.Fronts

namespace TypedMarkup

/-! ### Kinds -/

/-- Whether a piece of trivia may begin with a character. -/
@[simp] def beginsTrivia (c : Char) : Bool :=
  ['\t', '\r', '\n', ' ', ';', '/'].contains c

/-- Characters none of which begins trivia. -/
def apart (signs : List Char) : Bool :=
  signs.all fun c => !beginsTrivia c

@[simp] theorem apart_nil : apart [] = true := rfl

@[simp] theorem apart_cons (c : Char) (signs : List Char) :
    apart (c :: signs) = (!beginsTrivia c && apart signs) :=
  List.all_cons

/-- Where no sign begins trivia, what begins trivia is no sign. -/
theorem not_contains_of_apart {signs : List Char} (clear : apart signs = true) {c : Char}
    (trivia : beginsTrivia c = true) : signs.contains c = false := by
  simp only [apart, List.all_eq_true, Bool.not_eq_true'] at clear
  simp only [List.contains_eq_mem, decide_eq_false_iff_not]
  exact fun member => Bool.false_ne_true ((clear c member).symm.trans trivia)

/-- What may be seen at a cursor, in its first character and the one behind it. Signs to look for do
not begin trivia. -/
inductive Sight where
  /-- None of these characters. -/
  | avoids (signs : List Char)
  /-- One of these characters. -/
  | shows (signs : List Char)
  /-- No type path. -/
  | noPath
  /-- The end of a property block, or another setting, and no comment. -/
  | settingNext
  /-- The end of a line. -/
  | lineEnd
  /-- The end of a block. -/
  | blockEnd
  /-- No end of a block. -/
  | line
  /-- The end of a run of text. -/
  | textEnd
  /-- Text in a line. -/
  | plain
  /-- Text in a text node, where an opening bracket is text as well. -/
  | nodeText
  /-- The end of the source. -/
  | sourceEnd
deriving DecidableEq, Repr

namespace Sight

/-- Whether a node that is ignored stands there. -/
def isIgnored (head second : Option Char) : Bool :=
  head = some '_' && second = some '['

/-- Whether a comment begins there. -/
def isComment (head second : Option Char) : Bool :=
  head = some ';' || head = some '/' && second = some '*'

/-- Whether something is seen in the first two characters. -/
def sees (head second : Option Char) : Sight → Bool
  | avoids signs => apart signs && !head.any signs.contains
  | shows signs => apart signs && head.any signs.contains
  | noPath => !(head = some '\\') && !head.any isNameChar
  | settingNext =>
    (head = some '\x7d' || head = some '!' || head.any isNameChar) && !isComment head second
  | lineEnd => head.all ['\r', '\n', ']'].contains
  | blockEnd => head.all [']'].contains
  | line => !head.all [']'].contains
  | textEnd => head.all Parser.endsText
  | plain => !head.all Parser.endsText && !isIgnored head second
  | nodeText => !head.all ['\r', '\n', '\x60', ']'].contains && !isIgnored head second
  | sourceEnd => head.isNone

/-- Of the second character it only matters whether it is one of two. -/
theorem sees_congr {head second second' : Option Char}
    (bracket : second' = some '[' ↔ second = some '[')
    (star : second' = some '*' ↔ second = some '*') (seen : Sight) :
    seen.sees head second' = seen.sees head second := by
  have ignored : isIgnored head second' = isIgnored head second := by
    simp only [isIgnored, decide_eq_decide.2 bracket]
  have comment : isComment head second' = isComment head second := by
    simp only [isComment, decide_eq_decide.2 star]
  cases seen <;> simp only [sees, ignored, comment]

/-- Where no trivia begin, no comment does. -/
theorem isComment_eq_false {c : Cursor} (none : trivia? c.rest = none) :
    isComment c.head c.second = false := by
  refine Bool.eq_false_iff.2 fun comment => ?_
  simp only [isComment, Bool.or_eq_true, Bool.and_eq_true, decide_eq_true_eq] at comment
  obtain line | ⟨slash, star⟩ := comment
  · rw [Cursor.rest_of_head line] at none
    cases none
  · obtain ⟨rest, same⟩ := List.head?_eq_some_iff.1 star
    rw [Cursor.rest_of_head slash, same] at none
    cases none

/-- A sign that does not stand at a cursor is avoided there. -/
theorem sees_avoids {c : Cursor} {x : Char} (clear : beginsTrivia x = false)
    (other : c.head ≠ some x) : (avoids [x]).sees c.head c.second = true := by
  cases found : c.head with
  | none => simp [sees, clear, -beginsTrivia]
  | some y =>
    have different : y ≠ x := fun same => other (found.trans (congrArg some same))
    simp [sees, clear, different, -beginsTrivia]

section

variable {head second : Option Char}

/-- One of the characters that are looked for is there. -/
theorem exists_of_shows {signs : List Char} (sees : (shows signs).sees head second = true) :
    ∃ x ∈ signs, head = some x := by
  simp only [Sight.sees, Bool.and_eq_true, Option.any_eq_true, List.contains_iff_mem] at sees
  obtain ⟨x, found, member⟩ := sees.2
  exact ⟨x, member, found⟩

/-- Where one character is looked for, it is there. -/
theorem head_of_shows {x : Char} (sees : (shows [x]).sees head second = true) : head = some x := by
  obtain ⟨y, member, found⟩ := exists_of_shows sees
  rwa [List.mem_singleton.1 member] at found

/-- Where one of two characters is looked for, one is there. -/
theorem head_of_shows_pair {x y : Char} (sees : (shows [x, y]).sees head second = true) :
    head = some x ∨ head = some y := by
  obtain ⟨z, member, found⟩ := exists_of_shows sees
  rw [List.mem_cons, List.mem_singleton] at member
  obtain rfl | rfl := member
  · exact .inl found
  · exact .inr found

/-- A block ends at the end of the source, or at its bracket. -/
theorem head_of_blockEnd (sees : blockEnd.sees head second = true) :
    head = none ∨ head = some ']' := by
  cases head <;> simp_all [Sight.sees]

/-- A line ends at its end, or at one of three characters. -/
theorem head_of_lineEnd (sees : lineEnd.sees head second = true) :
    head = none ∨ head = some '\r' ∨ head = some '\n' ∨ head = some ']' := by
  cases head <;> simp_all [Sight.sees]

/-- Neither kind of text stands where a line ends. -/
theorem not_sees_text (sees : lineEnd.sees head second = true) :
    plain.sees head second = false ∧ nodeText.sees head second = false := by
  obtain rfl | rfl | rfl | rfl := head_of_lineEnd sees <;> exact ⟨rfl, rfl⟩

/-- At the end of a source nothing is left. -/
theorem head_of_sourceEnd (sees : sourceEnd.sees head second = true) : head = none :=
  Option.isNone_iff_eq_none.1 sees

end

end Sight

/-- What a lexeme is. -/
inductive LexemeKind where
  /-- Trivia, of which there may be none; a gap is `kept` inside an ignored node. -/
  | gap (kept : Bool)
  /-- One character, mostly with a meaning of its own, that does not end a line. -/
  | sign
  | name
  /-- An unquoted value. -/
  | literal
  /-- Escaped text with its backticks, and what it stands for. -/
  | escaped (content : List Char)
  /-- Text behind the first character of a run. -/
  | plain
  /-- Nothing, where something is seen. -/
  | sight (seen : Sight)
deriving DecidableEq, Repr

/-- A part of a source. -/
structure Lexeme where
  kind : LexemeKind
  start : Position
  text : List Char
deriving DecidableEq, Repr

namespace Lexeme

/-! ### Standing -/

/-- Whether a lexeme is, by its kind, what stands at a cursor. -/
def Fits (c : Cursor) (x : Lexeme) : Prop :=
  match x.kind with
  | .gap _ => x.text = triviaText c.rest
  | .sign => ∃ sign, x.text = [sign] ∧ c.head = some sign ∧ sign ≠ '\r' ∧ sign ≠ '\n'
  | .name => x.text = c.rest.takeWhile isNameChar ∧ x.text ≠ []
  | .literal => x.text = c.rest.takeWhile isValueChar ∧ x.text ≠ []
  | .escaped content => ∃ passed, x.text = '\x60' :: passed ∧ c.head = some '\x60' ∧
    scanEscaped c.position.col 0 c.rest.tail = ⟨content, passed, .closed⟩
  | .plain => x.text = Parser.plainText c.rest ∧ x.text ≠ []
  | .sight seen => x.text = [] ∧ seen.sees c.head c.second = true

/-- A lexeme stands at a cursor. -/
def Stands (c : Cursor) (x : Lexeme) : Prop :=
  x.start = c.position ∧ x.Fits c

/-- Whether a lexeme always has characters. -/
def isSolid (x : Lexeme) : Bool :=
  match x.kind with
  | .sign | .name | .literal | .escaped _ | .plain => true
  | .gap _ | .sight _ => false

/-- The lexeme inside an ignored node. -/
def keep (x : Lexeme) : Lexeme :=
  match x.kind with
  | .gap _ => { x with kind := .gap true }
  | _ => x

/-- The text of some lexemes. -/
def textOf (lexemes : List Lexeme) : List Char :=
  lexemes.flatMap Lexeme.text

@[simp] theorem textOf_cons (x : Lexeme) (lexemes : List Lexeme) :
    textOf (x :: lexemes) = x.text ++ textOf lexemes := rfl

@[simp] theorem textOf_append (lexemes more : List Lexeme) :
    textOf (lexemes ++ more) = textOf lexemes ++ textOf more :=
  List.flatMap_append

variable {c : Cursor} {x : Lexeme}

/-- What stands at a cursor is at the front of what is left. -/
theorem Fits.front (fits : x.Fits c) : x.text <+: c.rest := by
  unfold Fits at fits
  split at fits
  · exact fits ▸ triviaText_stands c.rest
  · obtain ⟨sign, text, head, _⟩ := fits
    exact text ▸ Cursor.one_stands_of_head head
  · exact fits.1 ▸ List.takeWhile_prefix _
  · exact fits.1 ▸ List.takeWhile_prefix _
  · obtain ⟨passed, text, head, scan⟩ := fits
    have stands := scanEscaped_stands c.position.col 0 c.rest.tail
    rw [scan] at stands
    rw [text, Cursor.rest_of_head head]
    exact List.cons_prefix_cons.2 ⟨rfl, stands⟩
  · exact fits.1 ▸ Parser.plainText_stands c.rest
  · exact fits.1 ▸ List.nil_prefix

/-- A solid lexeme has characters. -/
theorem Fits.ne_nil (fits : x.Fits c) (solid : x.isSolid = true) : x.text ≠ [] := by
  obtain ⟨kind, start, text⟩ := x
  cases kind with
  | gap kept => cases solid
  | sign =>
    obtain ⟨sign, rfl, _⟩ := fits
    exact List.cons_ne_nil _ _
  | name => exact fits.2
  | literal => exact fits.2
  | escaped content =>
    obtain ⟨passed, rfl, _⟩ := fits
    exact List.cons_ne_nil _ _
  | plain => exact fits.2
  | sight seen => cases solid

/-! ### Standing before something else -/

/-- Whether a lexeme that ends before one text ends before another. -/
def EndsBefore (rest rest' : List Char) (x : Lexeme) : Prop :=
  match x.kind with
  | .gap _ => trivia? rest' = none ∧ (rest = [] → rest' = [])
  | .sign | .escaped _ => True
  | .name => rest'.head?.any isNameChar = false
  | .literal => rest'.head?.any isValueChar = false
  | .plain => Parser.plainText rest' = [] ∧ (rest'.head? = some '[' → rest.head? = some '[')
  | .sight seen => seen.sees rest'.head? rest'.tail.head? = true

/-- **What stands before one text stands before another** where it ends, in the same column. -/
theorem Fits.before (fits : x.Fits c) {c' : Cursor} {rest' : List Char}
    (col : c'.position.col = c.position.col) (split : c'.rest = x.text ++ rest')
    (ends : x.EndsBefore (c.behind x.text).rest rest') : x.Fits c' := by
  have front := List.prefix_iff_eq_append.1 fits.front
  obtain ⟨kind, start, text⟩ := x
  cases kind with
  | gap kept =>
    obtain rfl : text = triviaText c.rest := fits
    show triviaText c.rest = triviaText c'.rest
    rw [split]
    exact (triviaText_front ends.1 ends.2).symm
  | sign =>
    obtain ⟨sign, rfl, _, line⟩ := fits
    exact ⟨sign, rfl, by rw [Cursor.head, split]; rfl, line⟩
  | name =>
    obtain ⟨taken, some⟩ := fits
    exact ⟨split ▸ (takeWhile_front (front.symm ▸ taken.symm) ends).symm, some⟩
  | literal =>
    obtain ⟨taken, some⟩ := fits
    exact ⟨split ▸ (takeWhile_front (front.symm ▸ taken.symm) ends).symm, some⟩
  | escaped content =>
    obtain ⟨passed, rfl, head, scan⟩ := fits
    refine ⟨passed, rfl, by rw [Cursor.head, split]; rfl, ?_⟩
    have tail : c'.rest.tail = passed ++ rest' := by rw [split]; rfl
    have closed := scanEscaped_front (congrArg EscapedScan.ending scan) rest'
    rw [tail, col]
    rwa [scan] at closed
  | plain =>
    obtain ⟨taken, some⟩ := fits
    exact ⟨split ▸ (Parser.plainText_front (front.symm ▸ taken.symm) ends.1 ends.2).symm, some⟩
  | sight seen =>
    obtain ⟨rfl, _⟩ := fits
    obtain rfl : c'.rest = rest' := split
    exact ⟨rfl, ends⟩

theorem keep_text (x : Lexeme) : x.keep.text = x.text := by
  unfold keep
  split <;> rfl

theorem textOf_keep (lexemes : List Lexeme) : textOf (lexemes.map keep) = textOf lexemes := by
  induction lexemes with
  | nil => rfl
  | cons x lexemes ih => rw [List.map_cons, textOf_cons, textOf_cons, keep_text, ih]

/-- Being kept does not matter to what stands where. -/
theorem keep_stands : x.keep.Stands c ↔ x.Stands c := by
  obtain ⟨kind, start, text⟩ := x
  cases kind <;> exact Iff.rfl

end Lexeme

/-! ### Flowing -/

namespace Cursor

/-- The source from one cursor to another is cut into the given lexemes. -/
def Flows (c : Cursor) : List Lexeme → Cursor → Prop
  | [], d => d = c
  | x :: lexemes, d => x.Stands c ∧ (c.behind x.text).Flows lexemes d

variable {c d : Cursor} {x : Lexeme} {lexemes more : List Lexeme}

@[simp] theorem flows_nil : c.Flows [] d ↔ d = c := Iff.rfl

@[simp] theorem flows_cons :
    c.Flows (x :: lexemes) d ↔ x.Stands c ∧ (c.behind x.text).Flows lexemes d := Iff.rfl

theorem flows_singleton : c.Flows [x] d ↔ x.Stands c ∧ d = c.behind x.text := Iff.rfl

theorem flows_append :
    c.Flows (lexemes ++ more) d ↔ ∃ middle, c.Flows lexemes middle ∧ middle.Flows more d := by
  induction lexemes generalizing c with
  | nil => simp
  | cons x lexemes ih =>
    rw [List.cons_append, flows_cons, ih]
    constructor
    · rintro ⟨stands, middle, first, second⟩
      exact ⟨middle, ⟨stands, first⟩, second⟩
    · rintro ⟨middle, ⟨stands, first⟩, second⟩
      exact ⟨stands, middle, first, second⟩

theorem flows_keep : c.Flows (lexemes.map Lexeme.keep) d ↔ c.Flows lexemes d := by
  induction lexemes generalizing c with
  | nil => exact Iff.rfl
  | cons x lexemes ih =>
    rw [List.map_cons, flows_cons, flows_cons, ih, Lexeme.keep_stands, Lexeme.keep_text]

namespace Flows

theorem append {middle : Cursor} (first : c.Flows lexemes middle) (second : middle.Flows more d) :
    c.Flows (lexemes ++ more) d :=
  flows_append.2 ⟨middle, first, second⟩

/-- The source leads over the text of the lexemes. -/
theorem rest_eq (flows : c.Flows lexemes d) :
    c.rest = Lexeme.textOf lexemes ++ d.rest ∧
      d.position = c.position.past (Lexeme.textOf lexemes) := by
  induction lexemes generalizing c with
  | nil =>
    obtain rfl : d = c := flows
    exact ⟨rfl, rfl⟩
  | cons x lexemes ih =>
    obtain ⟨stands, later⟩ := flows
    obtain ⟨rest, front⟩ := stands.2.front
    obtain ⟨split, position⟩ := ih later
    rw [behind_rest front.symm] at split
    constructor
    · rw [Lexeme.textOf_cons, List.append_assoc, ← split, front]
    · rw [Lexeme.textOf_cons, Position.past_append]
      exact position

theorem reaches (flows : c.Flows lexemes d) : c.Reaches d :=
  ⟨_, flows.rest_eq⟩

/-- Over a solid lexeme less is left. -/
theorem shorter (flows : c.Flows lexemes d) (solid : ∃ x ∈ lexemes, x.isSolid = true) :
    d.rest.length < c.rest.length := by
  obtain ⟨x, member, solid⟩ := solid
  obtain ⟨before, after, rfl⟩ := List.append_of_mem member
  obtain ⟨middle, first, stands, second⟩ := flows_append.1 flows
  have shorter := behind_shorter stands.2.front (stands.2.ne_nil solid)
  have fewer := first.reaches.length_le
  have fewer' := second.reaches.length_le
  omega

end Flows

end Cursor

end TypedMarkup
