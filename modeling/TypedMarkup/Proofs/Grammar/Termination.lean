/-
**Reading terminates.** Reading a source, as tokens and as a tree, is a recursion between nodes and
blocks that takes as many levels as it needs, with loops that take as many rounds as they need. The
bounds that make both finite by definition are never met.

* A loop that goes on has passed over a character, and so has a construct when it is read again
  inside of itself; hence one level and one round more than there are characters are enough.
* `reading_terminates` says so for both, and that the bounds do not show in what is read.

The scans of characters recur on the text that is left itself and need no bound.
-/

import TypedMarkup.Proofs.Token.Recursion
import TypedMarkup.Proofs.Tree.Recursion

namespace TypedMarkup

/-- **Reading terminates.** There are lexers and parsers of nested constructs that call themselves,
and whichever they are, reading with them terminates and gives what reading with bounds gives. -/
theorem reading_terminates :
    ((∃ nested : Lexer.Nested, nested.Unbounded) ∧
      ∀ nested : Lexer.Nested, nested.Unbounded → nested.Terminates) ∧
    (∃ nested : Parser.Nested, nested.Unbounded) ∧
      ∀ nested : Parser.Nested, nested.Unbounded → nested.Terminates :=
  ⟨⟨Lexer.exists_unbounded, fun _ unbounded => unbounded.terminates⟩,
    Parser.exists_unbounded, fun _ unbounded => unbounded.terminates⟩

/-- A node inside of an ignored one, cut and read without bounds. -/
theorem reading_terminates_ignored :
    (∃ nested : Lexer.Nested, nested.Unbounded ∧
      nested.tokenize "a_[b[c]]" = [⟨.text, 0, "a", none⟩, ⟨.ignored, 1, "_[b[c]]", none⟩]) ∧
    ∃ nested : Parser.Nested, nested.Unbounded ∧
      nested.parse "a_[b[c]]" = .ok ⟨[], [[.plain ⟨"a", ⟨1, 1, 0⟩⟩]]⟩ := by
  obtain ⟨⟨⟨lexers, unbounded⟩, terminates⟩, ⟨parsers, unbounded'⟩, terminates'⟩ :=
    reading_terminates
  refine ⟨⟨lexers, unbounded, ?_⟩, parsers, unbounded', ?_⟩
  · rw [← (terminates lexers unbounded).tokens]
    decide +kernel
  · have parsed : Content.parse "a_[b[c]]" = .ok ⟨[], [[.plain ⟨"a", ⟨1, 1, 0⟩⟩]]⟩ := by
      with_unfolding_all rfl
    rw [← (terminates' parsers unbounded').parse, parsed]
    rfl

end TypedMarkup
