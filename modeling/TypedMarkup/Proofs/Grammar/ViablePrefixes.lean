/-
**Errors stand where the source could still have gone on.** The text before an error is the front of
some source that is read.

* `Content.parse_viablePrefix`: what stands before the position of the error can be completed.
-/

import TypedMarkup.Proofs.Grammar.BreaksBlock
import TypedMarkup.Proofs.Source.Places

namespace TypedMarkup

namespace Content

variable {source : String} {error : ParseError}

/-- A source that fails does so where its parser breaks off. -/
theorem breaks_of_parse (failed : parse source = .error error) :
    ∃ text, text <+: source.toList ∧ error.position = Position.start.past text ∧
      (text ≠ [] → (Grammar.file (Grammar.ofDepth (source.length + 1 + 1))).Viable [none]
        Position.start text) := by
  have ran := parse_eq source
  split at ran
  · simp [failed] at ran
  · next other run =>
    obtain rfl : other = error := by simpa [failed] using ran.1.symm
    obtain ⟨text, _, stands⟩ := Parser.Breaks.file (Parser.breaks_ofDepth (source.length + 1)) _ run
    exact ⟨text, stands⟩
  · exact ran.elim

/-- A text that is viable as a whole source can be completed to one. -/
theorem parse_of_viable {depth : Nat} {text : List Char}
    (viable : (Grammar.file (Grammar.ofDepth depth)).Viable [none] Position.start text) :
    ∃ rest content, parse (String.ofList text ++ rest) = .ok content := by
  obtain ⟨more, content, lexemes, spelled, writes⟩ := viable
  obtain ⟨_, lexemes', alike, flows⟩ := writes [] (List.mem_singleton_self _)
  obtain ⟨content', spelled', _⟩ := Grammar.transfers_file
    (Grammar.transfers_ofDepth (Nat.le_refl depth)) content lexemes lexemes' spelled alike
  have same : Cursor.ofString (String.ofList text ++ String.ofList more) =
      ⟨text ++ more ++ [], Position.start⟩ := by
    rw [Cursor.ofString, String.toList_append, String.toList_ofList, String.toList_ofList,
      List.append_nil]
  rw [← same] at flows
  exact ⟨String.ofList more, content', parse_eq_ok_iff.2 ⟨depth, lexemes', _, spelled', flows⟩⟩

/-- **The text before an error can be completed**: the error stands no later than the first character
that cannot be made up for. -/
theorem parse_viablePrefix (failed : parse source = .error error) :
    ∃ before after rest : String, ∃ content, source = before ++ after ∧
      before.utf8ByteSize = error.position.offset ∧ parse (before ++ rest) = .ok content := by
  obtain ⟨text, ⟨tail, split⟩, position, viable⟩ := breaks_of_parse failed
  have offset : (String.ofList text).utf8ByteSize = error.position.offset := by
    rw [position, Position.past_offset]
    exact (Nat.zero_add _).symm
  have whole : source = String.ofList text ++ String.ofList tail := by
    rw [← String.ofList_append, split, String.ofList_toList]
  by_cases none : text = []
  · subst none
    have empty : parse ("" ++ "") = .ok ⟨[], []⟩ := by with_unfolding_all rfl
    exact ⟨"", String.ofList tail, "", _, whole, offset, empty⟩
  · obtain ⟨rest, content, parsed⟩ := parse_of_viable (viable none)
    exact ⟨String.ofList text, String.ofList tail, rest, content, whole, offset, parsed⟩

/-- A property block that ends inside a comment, which has to be closed first. -/
theorem parse_viablePrefix_comment :
    parse "[\x7bx /*y" = .error ⟨⟨1, 8, 7⟩, .endOfFile,
      [.char '=', .construct .propertySetting, .char '\x7d'], none, none⟩ ∧
    ∃ before after rest : String, ∃ content, "[\x7bx /*y" = before ++ after ∧
      before.utf8ByteSize = 7 ∧ parse (before ++ rest) = .ok content := by
  have failed : parse "[\x7bx /*y" = .error ⟨⟨1, 8, 7⟩, .endOfFile,
      [.char '=', .construct .propertySetting, .char '\x7d'], none, none⟩ := by
    with_unfolding_all rfl
  exact ⟨failed, parse_viablePrefix failed⟩

end Content

end TypedMarkup
