/-
**Tokens and trees of one source.** The lexer and the parser accept the same sources, up to two
checks that only the parser makes.

* `tokenize_follows_parse`: a source that can be parsed has no unread token. One that cannot, for a
  reason that is no check of the parser alone, ends with an unread token, which starts no later than
  where the parser blames the source.
-/

import TypedMarkup.Proofs.Token.AgreesBlock

namespace TypedMarkup

variable {source : String} {after : Lexer.State}

theorem Lexer.State.tidy_ofString (source : String) : (ofString source).Tidy :=
  ⟨fun _ none => absurd none List.not_mem_nil, Nat.zero_le _⟩

/-- How cutting a source ends, by what parsing it gives. -/
theorem run_file_of_parse (source : String) :
    match Content.parse source with
    | .ok content => ∃ after, (Lexer.file (.ofDepth (source.length + 1))).run.run
        (.ofString source) = (.ok (), after) ∧ after.Tidy ∧ after.marks = marksOf content.parts
    | .error error => error.OfParser ∨
        (Lexer.file (.ofDepth (source.length + 1))).GivesUp (.ofString source)
          error.position.offset := by
  have agrees : Agrees (Parser.file _) (Lexer.file _) (.ofString source) _ :=
    Agrees.file (Agrees.agree_ofDepth (source.length + 1))
  have ran := agrees (Lexer.State.tidy_ofString source)
  have start : (Lexer.State.ofString source).cursor = Cursor.ofString source := rfl
  rw [start] at ran
  have parsed := Content.parse_eq source
  split at parsed
  · next same =>
    rw [same] at ran
    rw [parsed.1]
    obtain ⟨_, after, run, _, tidy, said⟩ := ran
    exact ⟨after, run, tidy, said⟩
  · next same =>
    rw [same] at ran
    rw [parsed.1]
    exact ran
  · exact parsed.elim

/-- **The lexer accepts what the parser accepts.** It also refuses what the parser refuses, except
for the checks that only the parser makes. -/
theorem tokenize_follows_parse (source : String) :
    (∀ content, Content.parse source = .ok content →
      ∀ token ∈ tokenize source, token.kind ≠ .unread) ∧
    (∀ error, Content.parse source = .error error →
      error.expected ≠ [.construct .escapedTextLinePadding] →
      error.parsing ≠ some .classDeclaration → error.parsing ≠ some .defaultDeclaration →
      ∃ token, (tokenize source).getLast? = some token ∧ token.kind = .unread ∧
        token.start ≤ error.position.offset) := by
  have ran := run_file_of_parse source
  constructor
  · intro content fits token member
    rw [fits] at ran
    obtain ⟨after, run, tidy, _⟩ := ran
    rw [tokenize_of_run run] at member
    exact tidy.read token (List.mem_reverse.1 member)
  · intro error fails padding classes defaults
    rw [fails] at ran
    rcases ran with (own | own | own) | ⟨refusal, after, run, behind⟩
    · exact absurd own padding
    · exact absurd own classes
    · exact absurd own defaults
    · obtain ⟨left, tokens⟩ := tokenize_of_refusal run
      exact ⟨_, by rw [tokens, List.getLast?_concat], rfl, behind⟩

/-- A text node with a class, and an opening bracket without a node. -/
theorem tokenize_follows_parse_text_node :
    (∀ token ∈ tokenize "[.a b]", token.kind ≠ .unread) ∧
    ∃ token, (tokenize "[").getLast? = some token ∧ token.kind = .unread ∧ token.start ≤ 1 := by
  have fits : (Content.parse "[.a b]").isOk = true := by decide +kernel
  have fails : Content.parse "[" = .error ⟨⟨1, 2, 1⟩, .endOfFile, Parser.nodeStarts, some .node,
      some ⟨1, 1, 0⟩⟩ := by
    with_unfolding_all rfl
  constructor
  · cases parsed : Content.parse "[.a b]" with
    | ok content => exact (tokenize_follows_parse "[.a b]").1 content parsed
    | error error =>
      rw [parsed] at fits
      cases fits
  · exact (tokenize_follows_parse "[").2 _ fails (by decide) (by decide) (by decide)

end TypedMarkup
