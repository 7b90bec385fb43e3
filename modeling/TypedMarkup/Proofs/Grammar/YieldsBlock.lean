/-
**Parsed trees are well formed.** What `Language.Yields` says of the constructs that nest, and of
whole sources.

* Where a run of text has ended, no other begins in a line, and in a text node only one that begins
  with an opening bracket (`Yields.line`, `Yields.textElements`).
* `Grammar.yields_ofDepth` ties the knot, and `Content.parse_wellFormed` is the result for all
  sources that are read.
-/

import TypedMarkup.Proofs.Grammar.SpellsBlock
import TypedMarkup.Proofs.Grammar.Yields

namespace TypedMarkup

open TypedMarkup.Parser (endsText)

/-- What is nested deeper is well formed. -/
structure Grammar.Nested.Yields (nested : Grammar.Nested) : Prop where
  node : ∀ here, nested.node.Yields here fun inner _ => inner.WellFormed
  content : ∀ here, nested.content.Yields here fun body _ => body.WellFormed

/-- A first character that is read, and plain text behind it. -/
def TextRun.BeginsAt (run : TextRun) (here : Cursor) : Prop :=
  ∃ first rest, here.head = some first ∧ first ≠ '\r' ∧ first ≠ '\n' ∧
    run.content.toList = first :: rest ∧ ∀ c ∈ rest, endsText c = false

namespace TextRun.BeginsAt

variable {run : TextRun} {here : Cursor}

/-- Text that is seen in a line can stand there. -/
theorem standsInLine (begins : run.BeginsAt here)
    (sees : Sight.plain.sees here.head here.second = true) : run.StandsInLine := by
  obtain ⟨first, rest, head, _, _, split, plain⟩ := begins
  have starts : endsText first = false := by
    simp only [Sight.sees, head, Option.all_some, Bool.and_eq_true, Bool.not_eq_true'] at sees
    exact sees.1
  refine ⟨fun none => ?_, fun c member listed => ?_⟩
  · rw [none] at split
    cases split
  · have allowed : endsText c = false := by
      rw [split] at member
      rcases List.mem_cons.1 member with rfl | member
      · exact starts
      · exact plain c member
    simp only [List.mem_cons, List.not_mem_nil, or_false] at listed
    rcases listed with rfl | rfl | rfl | rfl | rfl <;> cases allowed

/-- Text that is seen in a text node can stand there. -/
theorem standsInText (begins : run.BeginsAt here)
    (sees : Sight.nodeText.sees here.head here.second = true) : run.StandsInText := by
  obtain ⟨first, rest, head, _, _, split, plain⟩ := begins
  have starts : first ∉ ['\r', '\n', '\x60', ']'] := by
    simp only [Sight.sees, head, Option.all_some, Bool.and_eq_true, Bool.not_eq_true'] at sees
    simpa using sees.1
  refine ⟨fun none => ?_, fun c member listed => ?_, fun bracket => ?_⟩
  · rw [none] at split
    cases split
  · rw [split] at member
    rcases List.mem_cons.1 member with rfl | member
    · exact starts listed
    · have allowed := plain c member
      simp only [List.mem_cons, List.not_mem_nil, or_false] at listed
      rcases listed with rfl | rfl | rfl | rfl <;> cases allowed
  · rw [split] at bracket
    cases plain '[' bracket

end TextRun.BeginsAt

/-! ### Where a run of text has ended -/

/-- What of a line may begin at a cursor: no text where text has ended. -/
def LineElement.MayBegin (here : Cursor) : LineElement → Prop
  | plain _ => here.head.all endsText = false
  | escaped _ | node _ => True

/-- What of a text node may begin at a cursor: where text has ended, only text with a bracket. -/
def TextElement.MayBegin (here : Cursor) : TextElement → Prop
  | plain run => here.head.all endsText = true → ['['] <+: run.content.toList
  | escaped _ => True

namespace Language.Yields

open TypedMarkup.Parser (Round)

variable {nested : Grammar.Nested} {here : Cursor} {start : Position}

/-! ### Text -/

/-- Text has not ended before an ignored node. -/
theorem ignoredNode : (Grammar.ignoredNode nested).Yields here fun _ _ =>
    here.head.all endsText = false := by
  refine of_opens ((opens_sign '_').bind _) fun mark => ?_
  refine any.mono fun _ _ _ => ?_
  rw [mark]
  rfl

/-- A run of text goes on until text ends. -/
theorem textRun : (Grammar.textRun nested).Yields here fun run there =>
    run.BeginsAt here ∧ there.head.all endsText = true := by
  have pieces {here : Cursor} : (Language.rounds (Grammar.textPiece nested)).Yields here
      fun pieces there => (∀ piece ∈ pieces, ∀ c ∈ piece, endsText c = false) ∧
        there.head.all endsText = true := by
    refine and (rounds fun _ => ?_) ?_
    · refine orElse (later fun _ _ => pure fun _ same => nomatch same)
        (orElse (later fun _ _ => pure fun _ same => nomatch same) ?_)
      refine plain.map fun text _ ends => ?_
      rintro _ ⟨rfl⟩
      exact ends
    · have stops (lexemes : List Lexeme) (c d : Cursor)
          (spelled : Grammar.textPiece nested .stop lexemes) (flows : c.Flows lexemes d) :
          d.head.all endsText = true := by
        rcases spelled with last | ⟨_, _, _, _, ⟨same, _⟩, _⟩ | ⟨_, _, _, _, ⟨same, _⟩, _⟩
        · obtain ⟨_, ⟨_, rfl⟩, _⟩ := map_iff.1 last
          obtain ⟨⟨_, _, sees⟩, rfl⟩ := flows
          exact sees
        · cases same
        · cases same
      exact fun pieces lexemes there spelled flows => rounds_ends stops spelled flows
  refine anySign.bind fun first _ read => pieces.map fun pieces _ read' => ⟨?_, read'.2⟩
  refine ⟨first.1, pieces.flatten, read.1, read.2.1, read.2.2, ?_, ?_⟩
  · rw [String.toList_ofList, List.singleton_append]
  · exact List.forall_mem_flatten.2 read'.1

theorem textElement : (Grammar.textElement nested).Yields here fun result there =>
    (result = .pass → ∀ a, TextElement.MayBegin there a → TextElement.MayBegin here a) ∧
    ∀ a, result = .item a → a.WellFormed ∧ a.MayBegin here ∧
      ∀ b, b.MayBegin there → a.MayPrecede b := by
  refine orElse (later fun _ _ => pure ⟨(nomatch ·), fun _ same => nomatch same⟩) <|
    orElse ?_ <| orElse ?_ ?_
  · refine any.map fun text _ _ => ⟨(nomatch ·), ?_⟩
    rintro _ ⟨rfl⟩
    exact ⟨trivial, trivial, fun _ _ => trivial⟩
  · refine ignoredNode.map fun _ _ goesOn => ⟨fun _ a _ => ?_, fun _ same => nomatch same⟩
    cases a with
    | plain run => exact fun ended => absurd (goesOn.symm.trans ended) Bool.false_ne_true
    | escaped => trivial
  · refine sight_bind fun sees => textRun.map fun run there read => ⟨(nomatch ·), ?_⟩
    rintro _ ⟨rfl⟩
    refine ⟨read.1.standsInText sees, fun ended => ?_, fun b begins => ?_⟩
    · obtain ⟨first, rest, head, _, _, split, _⟩ := read.1
      -- Of the characters that end text, only an opening bracket is seen as text.
      obtain rfl : first = '[' := by
        simp only [Sight.sees, head, Option.all_some, Bool.and_eq_true] at sees ended
        simp_all [endsText]
      exact ⟨rest, split.symm⟩
    · cases b with
      | plain run => exact begins read.2
      | escaped => trivial

theorem textElements : (Grammar.textElements nested).Yields here fun elements _ =>
    (∀ element ∈ elements, element.WellFormed) ∧ elements.IsChain TextElement.MayPrecede := by
  refine and ?_ ?_
  · refine rounds fun _ => ?_
    refine textElement.mono fun _ _ read a item => ?_
    exact (read.2 a item).1
  · refine rounds_isChain (fun _ => textElement.mono fun _ _ read => read.1) fun _ => ?_
    refine textElement.mono fun _ _ read a item => ?_
    exact (read.2 a item).2

theorem textNode {keyword : Option Word}
    (marked : keyword.map Word.content = some "text" ∨
      keyword = none ∧ (Sight.shows ['.', '\x7b']).sees here.head here.second = true) :
    (Grammar.textNode nested start keyword).Yields here fun read _ => read.WellFormed := by
  refine parts_bind fun _ _ _ parts some => ?_
  refine textElements.map fun _ _ read => ?_
  exact .text (marked.imp_right (And.imp_right some)) parts read.1 read.2

/-! ### Lines -/

variable (deeper : nested.Yields)

include deeper

theorem lineElement : (Grammar.lineElement nested).Yields here fun result there =>
    (result = .pass → ∀ a, LineElement.MayBegin there a → LineElement.MayBegin here a) ∧
    ∀ a, result = .item a → a.WellFormed ∧ a.MayBegin here ∧
      ∀ b, b.MayBegin there → a.MayPrecede b := by
  refine orElse (later fun _ _ => pure ⟨(nomatch ·), fun _ same => nomatch same⟩) <|
    orElse ?_ <| orElse ?_ <| orElse ?_ ?_
  · refine (deeper.node here).map fun inner _ inside => ⟨(nomatch ·), ?_⟩
    rintro _ ⟨rfl⟩
    exact ⟨.node inside, trivial, fun _ _ => trivial⟩
  · refine any.map fun text _ _ => ⟨(nomatch ·), ?_⟩
    rintro _ ⟨rfl⟩
    exact ⟨.escaped, trivial, fun _ _ => trivial⟩
  · refine ignoredNode.map fun _ _ goesOn => ⟨fun _ a _ => ?_, fun _ same => nomatch same⟩
    cases a with
    | plain run => exact goesOn
    | escaped | node => trivial
  · refine sight_bind fun sees => textRun.map fun run there read => ⟨(nomatch ·), ?_⟩
    rintro _ ⟨rfl⟩
    refine ⟨.plain (read.1.standsInLine sees), ?_, fun b begins => ?_⟩
    · simp only [Sight.sees, Bool.and_eq_true, Bool.not_eq_true'] at sees
      exact sees.1
    · cases b with
      | plain run => exact Bool.false_ne_true (begins.symm.trans read.2)
      | escaped | node => trivial

theorem line : (Grammar.line nested).Yields here fun line _ =>
    (∀ element ∈ line, element.WellFormed) ∧ line.IsChain LineElement.MayPrecede := by
  refine and ?_ ?_
  · refine rounds fun _ => ?_
    refine (lineElement deeper).mono fun _ _ read a item => ?_
    exact (read.2 a item).1
  · refine rounds_isChain (fun _ => (lineElement deeper).mono fun _ _ read => read.1) fun _ => ?_
    refine (lineElement deeper).mono fun _ _ read a item => ?_
    exact (read.2 a item).2

/-! ### Blocks -/

theorem directive : (Grammar.directive nested).Yields here fun read _ => read.WellFormed := by
  refine later fun keyword _ => gap_bind fun _ clear => ?_
  cases Keyword.ofSpelling? keyword.content with
  | none => exact nothing
  | some keyword =>
    cases keyword with
    | classes => exact classDeclaration
    | content =>
      refine name.bind fun _ _ read => later fun _ _ => later fun _ _ => later fun _ _ => ?_
      exact (deeper.content _).bind fun _ _ inside => later fun _ _ =>
        pure (.content read.1 (read.2 clear) inside)
    | defaults => exact declaration fun _ _ _ => .defaults
    | value => exact valueBinding clear
    | text | read | inclusion => exact nothing

theorem preambleElement : (Grammar.preambleElement nested).Yields here fun element _ =>
    element.WellFormed := by
  refine later fun _ _ => ?_
  refine later fun _ _ => ?_
  refine later fun _ _ => ?_
  refine (directive deeper).bind fun _ _ inside => ?_
  refine later fun _ _ => ?_
  refine later fun _ _ => ?_
  exact pure ⟨inside⟩

theorem preamble : (Grammar.preamble nested).Yields here fun elements there =>
    (∀ element ∈ elements, element.WellFormed) ∧
      (elements = [] → there = here ∧ here.head ≠ some '<') := by
  refine items fun _ => ?_
  refine (preambleElement deeper).bind fun element _ read => ?_
  refine later fun _ _ => ?_
  exact pure ⟨element, rfl, read⟩

theorem content : (Grammar.content nested).Yields here fun body _ =>
    body.WellFormed ∧ (body.preamble = [] → here.head ≠ some '<') := by
  have lines {here : Cursor} : (Grammar.lines nested).Yields here fun lines _ => ∀ line ∈ lines,
      (∀ element ∈ line, element.WellFormed) ∧ line.IsChain LineElement.MayPrecede := by
    refine rounds fun _ => later fun _ _ => orElse (later fun _ _ => pure fun _ same => nomatch same) ?_
    refine later fun _ _ => (line deeper).map fun _ _ read => ?_
    rintro _ ⟨rfl⟩
    exact read
  exact (preamble deeper).bind fun _ _ read => lines.map fun _ _ read' =>
    ⟨⟨read.1, fun line member => (read' line member).1, fun line member => (read' line member).2⟩,
      fun none => (read.2 none).2⟩

/-! ### Nodes -/

theorem typedNode {path : TypePath} (route : path.WellFormed) (declared : path.IsDeclared) :
    (Grammar.typedNode nested start path).Yields here fun read _ => read.WellFormed := by
  refine parts_bind fun _ _ _ parts _ => ?_
  refine (content deeper).map fun _ _ read => ?_
  exact .typed route declared parts read.1

theorem namedNode {first : Word} (isName : first.IsName) (clear : first.IsClear) :
    (Grammar.namedNode nested start first).Yields here fun read _ => read.WellFormed := by
  have typed (other : first.content ∉ nodeWords) : (do
      let steps ← Grammar.childSteps
      Language.gap
      Grammar.typedNode nested start (.absolute first steps)).Yields here
        fun read _ => read.WellFormed :=
    childSteps.bind fun _ _ steps => later fun _ _ =>
      typedNode deeper ⟨isName, clear, steps.1⟩ other
  unfold Grammar.namedNode
  cases spelt : Keyword.ofSpelling? first.content with
  | none => exact typed (Keyword.not_mem_nodeWords_iff.2 (by rw [spelt]; rfl))
  | some keyword =>
    cases keyword with
    | classes | defaults =>
      exact typed (Keyword.not_mem_nodeWords_iff.2 (by rw [spelt]; rfl))
    | text =>
      have marked := congrArg some (Keyword.spelling_of_ofSpelling? spelt)
      exact later fun _ _ => textNode (.inl marked)
    | read => exact later fun _ _ => parts_bind fun _ _ _ parts _ => pure (.read parts)
    | inclusion =>
      exact later fun _ _ => parts_bind fun _ _ _ parts _ => (preamble deeper).map fun _ _ read =>
        .inclusion parts read.1
    | content =>
      exact gap_bind fun _ clear => name.bind fun _ _ read => later fun _ _ =>
        (preamble deeper).map fun _ _ read' => .content read.1 (read.2 clear) read'.1
    | value =>
      exact gap_bind fun _ clear => name.bind fun _ _ read => later fun _ _ =>
        pure (.value read.1 (read.2 clear))

theorem nodeBody (clear : trivia? here.rest = none) :
    (Grammar.nodeBody nested start).Yields here fun read _ => read.WellFormed := by
  refine orElse ?_ (orElse ?_ (orElse ?_ ?_))
  · refine sight_bind fun sees => (content deeper).map fun body _ read => ?_
    exact .block (fun none => read.2 none (Sight.head_of_shows sees)) read.1
  · exact sight_bind fun sees => textNode (.inr ⟨rfl, sees⟩)
  · exact sight_bind fun sees => (childSteps_of_sees sees).bind fun _ _ route =>
      later fun _ _ => typedNode deeper route trivial
  · exact name.bind fun _ _ read => namedNode deeper read.1 (read.2 clear)

theorem node : (Grammar.node nested).Yields here fun read _ => read.WellFormed := by
  refine later fun _ _ => ?_
  refine gap_bind fun _ clear => ?_
  refine (nodeBody deeper clear).bind fun _ _ read => ?_
  refine later fun _ _ => ?_
  exact pure read

end Language.Yields

namespace Grammar

/-- What is nested to any depth is well formed. -/
theorem yields_ofDepth (depth : Nat) : (ofDepth depth).Yields := by
  induction depth with
  | zero => exact ⟨fun _ => .nothing, fun _ => .nothing⟩
  | succ depth ih => exact ⟨fun _ => .node ih, fun _ => (Language.Yields.content ih).mono
      fun _ _ read => read.1⟩

end Grammar

namespace Content

variable {source : String} {content : Content}

/-- **Parsed trees are well formed**, at every depth. -/
theorem parse_wellFormed (parsed : parse source = .ok content) : content.WellFormed := by
  obtain ⟨depth, lexemes, last, spelled, flows⟩ := parse_eq_ok_iff.1 parsed
  have yields : (Grammar.file (Grammar.ofDepth depth)).Yields (Cursor.ofString source)
      fun read _ => read.WellFormed :=
    .later fun _ _ => ((Grammar.yields_ofDepth depth).content _).bind fun _ _ read =>
      .later fun _ _ => .pure read
  exact yields content lexemes last spelled flows

/-- Two runs in a text node. The second begins with a bracket and goes on behind an ignored node. -/
theorem parse_wellFormed_bracket :
    let read : Content := ⟨[], [[.node (.text ⟨1, 1, 0⟩ none [⟨⟨1, 2, 1⟩, ⟨"c", ⟨1, 3, 2⟩⟩⟩] none
      [.plain ⟨"x", ⟨1, 5, 4⟩⟩, .plain ⟨"[y", ⟨1, 6, 5⟩⟩]),
      .escaped ⟨⟨1, 13, 12⟩, ⟨"z", ⟨1, 14, 13⟩⟩⟩]]⟩
    parse "[.c x[_[v]y]`z`" = .ok read ∧ read.WellFormed := by
  intro read
  have parsed : parse "[.c x[_[v]y]`z`" = .ok read := by with_unfolding_all rfl
  exact ⟨parsed, parse_wellFormed parsed⟩

end Content

end TypedMarkup
