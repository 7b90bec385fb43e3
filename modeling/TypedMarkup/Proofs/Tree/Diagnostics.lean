/-
**Diagnostics.** What the error of a source says can be checked in the source, by byte offsets alone.

* `Found.IsAt source offset found`: what was found is what the source has at an offset, where a word
  is taken to its last character.
* `Position.NotBehind` orders positions by offset, line and column; reading only goes forward
  (`Cursor.Reaches.notBehind`).
* `Content.parse_error_isTrueOf`: the error of a source is true of it.
-/

import Mathlib.Data.List.TakeWhile
import TypedMarkup.Proofs.Source.Fronts
import TypedMarkup.Proofs.Source.Places
import TypedMarkup.Proofs.Tree.ReadsBlock

namespace TypedMarkup

/-! ### Order of positions -/

/-- A position is not behind another, by its offset as well as by its line and column. -/
structure Position.NotBehind (p q : Position) : Prop where
  offset : p.offset ≤ q.offset
  label : p.line < q.line ∨ p.line = q.line ∧ p.col ≤ q.col

namespace Position.NotBehind

variable {p q r : Position}

theorem refl (p : Position) : p.NotBehind p :=
  ⟨Nat.le_refl _, .inr ⟨rfl, Nat.le_refl _⟩⟩

theorem trans (first : p.NotBehind q) (second : q.NotBehind r) : p.NotBehind r := by
  obtain ⟨offset, label⟩ := first
  obtain ⟨offset', label'⟩ := second
  exact ⟨by omega, by omega⟩

theorem after (p : Position) (c : Char) : p.NotBehind (p.after c) := by
  unfold Position.after
  split
  · exact ⟨Nat.le_add_right _ _, .inl (Nat.lt_succ_self _)⟩
  · exact ⟨Nat.le_add_right _ _, .inr ⟨rfl, Nat.le_succ _⟩⟩

theorem past (p : Position) (text : List Char) : p.NotBehind (p.past text) := by
  induction text generalizing p with
  | nil => exact refl p
  | cons c text ih => exact (after p c).trans (ih (p.after c))

end Position.NotBehind

/-- Reading goes forward. -/
theorem Cursor.Reaches.notBehind {c there : Cursor} (reaches : c.Reaches there) :
    c.position.NotBehind there.position := by
  obtain ⟨text, _, position⟩ := reaches
  rw [position]
  exact .past c.position text

/-! ### What was found -/

/-- What was found is what a source has at an offset. A word is not empty, and no character that
could belong to it follows it. -/
def Found.IsAt (source : String) (offset : Nat) : Found → Prop
  | char c => String.Pos.Raw.get? source ⟨offset⟩ = some c
  | word text => text ≠ "" ∧ ∃ before after,
    source.toList = before ++ text.toList ++ after ∧ bytesOf before = offset ∧
    (∀ c ∈ text.toList, isNameChar c = true) ∧ ∀ c, after.head? = some c → isNameChar c = false
  | endOfFile => offset = source.utf8ByteSize

/-- What stands at a cursor is what the source has at its offset. -/
theorem Found.Stands.isAt {source : String} {there : Cursor} {found : Found}
    (reaches : (Cursor.ofString source).Reaches there) (stands : found.Stands there) :
    found.IsAt source there.position.offset := by
  cases found with
  | char c => exact reaches.get?.trans stands
  | word text =>
    obtain ⟨taken, some⟩ := stands
    obtain ⟨before, split, position⟩ := reaches
    refine ⟨fun none => some (none ▸ rfl), before, there.rest.drop text.toList.length, ?_, ?_, ?_, ?_⟩
    · rw [List.append_assoc, taken,
        List.prefix_iff_eq_append.1 (List.takeWhile_prefix (l := there.rest) isNameChar)]
      exact split
    · exact (Cursor.Reaches.before_eq split position).1.symm
    · exact fun c member => List.mem_takeWhile_imp (taken ▸ member)
    · intro c head
      have ends := takeWhile_ends isNameChar there.rest
      rwa [← taken, head, Option.any_some] at ends
  | endOfFile =>
    obtain ⟨before, split, position⟩ := reaches
    rw [show there.rest = [] from stands, List.append_nil] at split
    show there.position.offset = source.utf8ByteSize
    rw [(Cursor.Reaches.before_eq (by rw [stands, List.append_nil]; exact split) position).1,
      ← bytesOf_toList]
    exact congrArg bytesOf split.symm

/-! ### Errors -/

/-- An error is true of a source: what it found is there, where something else was expected, and
the construct being read starts no later. -/
structure ParseError.IsTrueOf (source : String) (error : ParseError) : Prop where
  found : error.found.IsAt source error.position.offset
  expected : error.expected ≠ []
  unexpected : error.found.expectation ∉ error.expected
  started : ∀ start, error.start = some start → start.NotBehind error.position

/-- **The error of a source is true of it.** -/
theorem Content.parse_error_isTrueOf {source : String} {error : ParseError}
    (failed : parse source = .error error) : error.IsTrueOf source := by
  obtain ⟨⟨there, reaches, position, stands, started⟩, expected, unexpected⟩ := parse_tells failed
  refine ⟨position ▸ stands.isAt reaches, expected, unexpected, fun start recorded => ?_⟩
  obtain ⟨earlier, _, begins, leads⟩ := started start recorded
  rw [← begins, ← position]
  exact leads.notBehind

/-- A word that is no keyword is blamed where it starts, after the comment behind it has been read;
and an angle bracket that is never closed is blamed at the end of the source. -/
theorem Content.parse_error_isTrueOf_word : ∃ error error',
    parse "<? é/vol ;c\n x>" = .error error ∧ error.found = .word "é/vol" ∧
    error.position.offset = 3 ∧ error.IsTrueOf "<? é/vol ;c\n x>" ∧
    parse "<val a\n é" = .error error' ∧ error'.found = .endOfFile ∧
    error'.start = some ⟨1, 1, 0⟩ ∧ error'.IsTrueOf "<val a\n é" := by
  have keyword : parse "<? é/vol ;c\n x>" = .error ⟨⟨1, 4, 3⟩, .word "é/vol",
      Parser.preambleKeywords, none, none⟩ := by
    with_unfolding_all rfl
  have bracket : parse "<val a\n é" = .error ⟨⟨2, 3, 10⟩, .endOfFile, [.char '>'],
      some .preambleElement, some ⟨1, 1, 0⟩⟩ := by
    with_unfolding_all rfl
  exact ⟨_, _, keyword, rfl, rfl, parse_error_isTrueOf keyword, bracket, rfl, rfl,
    parse_error_isTrueOf bracket⟩

end TypedMarkup
