/-
**Deeper parsers.** Levels of nesting only bound how deep a parser may go: more of them change
nothing but that a parser which was exhausted goes on.

* `Parser.Approximates parser parser'`: wherever the first parser is not exhausted, the second does
  the same.
* `approximates_ofDepth`: parsers for fewer levels of nesting approximate those for more.
* `Content.parse_of_file`: a tree that is read with any number of levels is what reading gives.
-/

import TypedMarkup.Proofs.Tree.ReadsBlock

namespace TypedMarkup

namespace Parser

variable {α β : Type}

/-- Wherever the first parser is not exhausted, the second does the same. -/
def Approximates (parser parser' : Parser α) : Prop :=
  ∀ c, parser c = .error .exhausted ∨ parser c = parser' c

/-- The parsers of nested constructs approximate others. -/
structure Nested.Approximates (nested nested' : Nested) : Prop where
  node : nested.node.Approximates nested'.node
  content : nested.content.Approximates nested'.content

namespace Approximates

theorem refl (parser : Parser α) : parser.Approximates parser :=
  fun _ => .inr rfl

theorem bind {parser parser' : Parser α} {next next' : α → Parser β}
    (first : parser.Approximates parser') (rest : ∀ a, (next a).Approximates (next' a)) :
    (parser >>= next).Approximates (parser' >>= next') := by
  intro c
  show (parser c >>= fun result => next result.1 result.2) = _ ∨
    (parser c >>= fun result => next result.1 result.2) =
      (parser' c >>= fun result => next' result.1 result.2)
  rcases first c with exhausted | same
  · rw [exhausted]
    exact .inl rfl
  · rw [← same]
    cases parser c with
    | error failure => exact .inr rfl
    | ok result => exact rest result.1 result.2

/-- Behind the same parser. -/
theorem after {parser : Parser α} {next next' : α → Parser β}
    (rest : ∀ a, (next a).Approximates (next' a)) :
    (parser >>= next).Approximates (parser >>= next') :=
  (refl parser).bind rest

/-- Before the same parser. -/
theorem before {parser parser' : Parser α} {next : α → Parser β}
    (first : parser.Approximates parser') : (parser >>= next).Approximates (parser' >>= next) :=
  first.bind fun a => refl (next a)

theorem many {step step' : Parser (Round α)} (round : step.Approximates step') :
    (many step).Approximates (Parser.many step') := by
  refine after fun c => ?_
  generalize c.rest.length + 1 = left
  induction left with
  | zero => exact refl _
  | succ left ih =>
    refine round.bind fun result => ?_
    cases result with
    | stop => exact refl _
    | pass => exact ih
    | item a => exact ih.before

variable {nested nested' : Nested} {start : Position}

/-! ### Preambles -/

theorem contentBinding (deeper : nested.Approximates nested') :
    (contentBinding nested).Approximates (Parser.contentBinding nested') := by
  refine after fun _ => ?_
  refine after fun _ => ?_
  refine after fun _ => ?_
  refine after fun _ => ?_
  refine after fun _ => ?_
  exact deeper.content.before

theorem directive (deeper : nested.Approximates nested') :
    (directive nested).Approximates (Parser.directive nested') := by
  refine after fun next => ?_
  dsimp only
  split
  · exact refl _
  · refine after fun keyword => after fun _ => ?_
    cases Keyword.ofSpelling? keyword.content with
    | none => exact refl _
    | some keyword =>
      cases keyword with
      | content => exact contentBinding deeper
      | _ => exact refl _

theorem preambleElement (deeper : nested.Approximates nested') :
    (preambleElement nested).Approximates (Parser.preambleElement nested') := by
  refine after fun _ => ?_
  refine after fun _ => ?_
  refine after fun _ => ?_
  refine after fun _ => ?_
  exact (directive deeper).before

theorem preamble (deeper : nested.Approximates nested') :
    (preamble nested).Approximates (Parser.preamble nested') := by
  refine many (after fun next => ?_)
  split
  · exact (preambleElement deeper).before
  · exact refl _

/-! ### Lines -/

theorem ignoredNode (deeper : nested.Approximates nested') :
    (ignoredNode nested).Approximates (Parser.ignoredNode nested') :=
  after fun _ => deeper.node.before

theorem textPiece (deeper : nested.Approximates nested') :
    (textPiece nested).Approximates (Parser.textPiece nested') := by
  refine after fun next => ?_
  cases next with
  | none => exact refl _
  | some c =>
    dsimp only
    split
    · exact refl _
    · refine after fun node => ?_
      split
      · exact (ignoredNode deeper).before
      · exact refl _

theorem textRun (deeper : nested.Approximates nested') :
    (textRun nested).Approximates (Parser.textRun nested') := by
  refine after fun _ => ?_
  refine after fun _ => ?_
  exact (many (textPiece deeper)).before

/-- Text or an ignored node. -/
theorem textOrIgnored (deeper : nested.Approximates nested') {made : TextRun → β} :
    Approximates (do
      if ← atIgnoredNode then
        Parser.ignoredNode nested
        return .pass
      else
        return .item (made (← Parser.textRun nested))) (do
      if ← atIgnoredNode then
        Parser.ignoredNode nested'
        return .pass
      else
        return Round.item (made (← Parser.textRun nested'))) := by
  refine after fun node => ?_
  split
  · exact (ignoredNode deeper).before
  · exact (textRun deeper).before

theorem lineElement (deeper : nested.Approximates nested') :
    (lineElement nested).Approximates (Parser.lineElement nested') := by
  refine after fun next => ?_
  split
  · exact refl _
  · exact refl _
  · exact refl _
  · exact refl _
  · exact deeper.node.before
  · exact refl _
  · exact textOrIgnored deeper

theorem line (deeper : nested.Approximates nested') :
    (line nested).Approximates (Parser.line nested') :=
  many (lineElement deeper)

theorem textElement (deeper : nested.Approximates nested') :
    (textElement nested).Approximates (Parser.textElement nested') := by
  refine after fun next => ?_
  split
  · exact refl _
  · exact refl _
  · exact refl _
  · exact refl _
  · exact refl _
  · exact textOrIgnored deeper

theorem textElements (deeper : nested.Approximates nested') :
    (textElements nested).Approximates (Parser.textElements nested') :=
  many (textElement deeper)

theorem lineRound (deeper : nested.Approximates nested') :
    (lineRound nested).Approximates (Parser.lineRound nested') := by
  refine after fun _ => after fun next => ?_
  split
  · exact refl _
  · exact refl _
  · exact (line deeper).before

theorem lines (deeper : nested.Approximates nested') :
    (lines nested).Approximates (Parser.lines nested') :=
  many (lineRound deeper)

theorem content (deeper : nested.Approximates nested') :
    (content nested).Approximates (Parser.content nested') := by
  refine (preamble deeper).bind fun _ => ?_
  exact (lines deeper).before

/-! ### Nodes -/

theorem textNode {keyword : Option Word} (deeper : nested.Approximates nested') :
    (textNode nested start keyword).Approximates (Parser.textNode nested' start keyword) := by
  refine after fun _ => ?_
  refine after fun _ => ?_
  exact (textElements deeper).before

theorem typedNode {path : TypePath} (deeper : nested.Approximates nested') :
    (typedNode nested start path).Approximates (Parser.typedNode nested' start path) := by
  refine after fun _ => ?_
  refine after fun _ => ?_
  exact (content deeper).before

theorem namedNode {first : Word} (deeper : nested.Approximates nested') :
    (namedNode nested start first).Approximates (Parser.namedNode nested' start first) := by
  unfold Parser.namedNode
  cases Keyword.ofSpelling? first.content with
  | none => exact after fun _ => after fun _ => typedNode deeper
  | some keyword =>
    cases keyword with
    | classes | defaults => exact after fun _ => after fun _ => typedNode deeper
    | text => exact after fun _ => textNode deeper
    | read | value => exact refl _
    | inclusion => exact after fun _ => after fun _ => after fun _ => (preamble deeper).before
    | content => exact after fun _ => after fun _ => after fun _ => (preamble deeper).before

theorem nodeBody (deeper : nested.Approximates nested') :
    (nodeBody nested start).Approximates (Parser.nodeBody nested' start) := by
  refine after fun next => ?_
  split
  · exact (content deeper).before
  · exact textNode deeper
  · exact textNode deeper
  · exact after fun _ => after fun _ => typedNode deeper
  · split
    · exact after fun _ => namedNode deeper
    · exact refl _

theorem node (deeper : nested.Approximates nested') :
    (node nested).Approximates (Parser.node nested') := by
  refine after fun _ => ?_
  refine after fun _ => ?_
  refine after fun _ => ?_
  exact (nodeBody deeper).before

theorem file (deeper : nested.Approximates nested') :
    (file nested).Approximates (Parser.file nested') :=
  after fun _ => deeper.content.before

end Approximates

/-! ### Nesting -/

/-- Parsers for fewer levels of nesting approximate those for more. -/
theorem approximates_ofDepth {depth more : Nat} (fewer : depth ≤ more) :
    (Nested.ofDepth depth).Approximates (Nested.ofDepth more) := by
  induction depth generalizing more with
  | zero => exact ⟨fun _ => .inl rfl, fun _ => .inl rfl⟩
  | succ depth ih =>
    obtain ⟨more, rfl⟩ := Nat.exists_eq_add_of_lt fewer
    have deeper := ih (Nat.le_add_right depth more)
    exact ⟨.node deeper, .content deeper⟩

end Parser

namespace Content

/-- **Levels of nesting do not matter.** A result with any number of them is the result. -/
theorem parse_of_file {depth : Nat} {source : String} {content : Content} {last : Cursor}
    (read : Parser.file (.ofDepth depth) (Cursor.ofString source) = .ok (content, last)) :
    parse source = .ok content := by
  have deeper := Parser.Approximates.file (Parser.approximates_ofDepth
    (Nat.le_max_left depth (source.length + 1))) (Cursor.ofString source)
  have enough := Parser.Approximates.file (Parser.approximates_ofDepth
    (Nat.le_max_right depth (source.length + 1))) (Cursor.ofString source)
  rw [read] at deeper
  have ran := parse_eq source
  rcases deeper with same | same
  · cases same
  rw [← same] at enough
  rcases enough with same | same
  · rw [same] at ran
    exact ran.elim
  · rw [same] at ran
    exact ran.1

end Content

end TypedMarkup
