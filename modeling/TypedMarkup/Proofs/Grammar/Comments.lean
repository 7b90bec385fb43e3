/-
**Comments do not matter.** A source whose comments become blank is read like before.

* `blankComments` puts a space for every character of a comment that is no line feed. Which parts of
  a source are comments is told by its tokens, whose texts are all of it.
* `blankComments_eq`: these are the comments in the gaps of the source.
* `Content.parse_blankComments`: the tree stays the same but for offsets.
-/

import TypedMarkup.Proofs.Grammar.LexesBlock

namespace TypedMarkup

/-- The source with a space for every character of its comments, except for line feeds. -/
def blankComments (source : String) : String :=
  String.ofList ((tokenize source).flatMap Token.blanked)

variable {source : String} {content : Content} {lexemes : List Lexeme} {last : Cursor}

/-- Nothing is left behind a whole source. -/
theorem Grammar.file_ends {nested : Grammar.Nested} {c : Cursor}
    (spelled : file nested content lexemes) (flows : c.Flows lexemes last) : last.rest = [] := by
  obtain ⟨_, _, _, _, ⟨_, _, _, _, ⟨_, _, _, ⟨_, rfl⟩, ⟨_, rfl⟩, rfl⟩, rfl⟩, rfl⟩ := spelled
  obtain ⟨_, _, flows⟩ := Cursor.flows_append.1 flows
  obtain ⟨there, _, ⟨_, _, ends⟩, same⟩ := Cursor.flows_append.1 flows
  obtain rfl : last = there := same
  exact List.head?_eq_none_iff.1 (Option.isNone_iff_eq_none.1 ends)

/-- **The comments of a source** are those in its gaps, outside ignored nodes. -/
theorem blankComments_eq
    (spelled : Grammar.file (Grammar.ofDepth (source.length + 1)) content lexemes)
    (flows : (Cursor.ofString source).Flows lexemes last) :
    (blankComments source).toList = (Cursor.ofString source).blanked lexemes := by
  have lexes : Lexer.Lexes _ (Lexer.State.ofString source) _ _ :=
    .file (Lexer.lexes_ofDepth (source.length + 1))
  obtain ⟨after, run, _, behind⟩ := lexes content lexemes last spelled flows
  rw [blankComments, String.toList_ofList, tokenize_of_run run]
  exact behind.text

namespace Content

/-- **Comments do not matter.** -/
theorem parse_blankComments (parsed : parse source = .ok content) :
    ∃ content', parse (blankComments source) = .ok content' ∧
      content'.relabel .lineAndColumn id = content.relabel .lineAndColumn id := by
  obtain ⟨lexemes, last, spelled, flows⟩ := flows_of_parse parsed
  have split : (Cursor.ofString (blankComments source)).rest =
      (Cursor.ofString source).blanked lexemes ++ last.rest := by
    rw [Grammar.file_ends spelled flows, List.append_nil]
    exact blankComments_eq spelled flows
  have place : Position.View.lineAndColumn.of (Cursor.ofString (blankComments source)).position =
      Position.View.lineAndColumn.of (Cursor.ofString source).position := rfl
  obtain ⟨lexemes', last', flows', alike⟩ := flows.blanked place split
  obtain ⟨content', spelled', same⟩ := Grammar.transfers_file
    (Grammar.transfers_ofDepth (Nat.le_refl _)) content lexemes lexemes' spelled alike
  exact ⟨content', parse_eq_ok_iff.2 ⟨_, lexemes', last', spelled', flows'⟩, same⟩

/-- A text node with one letter in column 12, at the given offset. -/
def letterNode (offset : Nat) : Content :=
  ⟨[], [[.node (.text ⟨1, 1, 0⟩ (some ⟨"text", ⟨1, 2, 1⟩⟩) [] none
    [.plain ⟨"a", ⟨1, 12, offset⟩⟩])]]⟩

/-- A comment before a letter, of more bytes than characters, and one inside an ignored node, which
is no token. -/
theorem parse_blankComments_letter :
    blankComments "[text /*é*/a_[x /*b*/]]" = "[text      a_[x /*b*/]]" ∧
    parse "[text /*é*/a_[x /*b*/]]" = .ok (letterNode 12) ∧
    parse "[text      a_[x /*b*/]]" = .ok (letterNode 11) ∧
    ∃ content', parse (blankComments "[text /*é*/a_[x /*b*/]]") = .ok content' ∧
      content'.relabel .lineAndColumn id = (letterNode 12).relabel .lineAndColumn id := by
  have blank : blankComments "[text /*é*/a_[x /*b*/]]" = "[text      a_[x /*b*/]]" := by
    decide +kernel
  have fits : parse "[text /*é*/a_[x /*b*/]]" = .ok (letterNode 12) := by
    with_unfolding_all rfl
  have fits' : parse "[text      a_[x /*b*/]]" = .ok (letterNode 11) := by
    with_unfolding_all rfl
  have alike := @parse_blankComments "[text /*é*/a_[x /*b*/]]" (letterNode 12) fits
  exact ⟨blank, fits, fits', alike⟩

end Content

end TypedMarkup
