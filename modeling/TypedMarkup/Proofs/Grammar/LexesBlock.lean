/-
**Lexers of blocks and nodes.** What `Lexer.Lexes` says of the lexers whose constructs nest, and of
a whole source.

* `Nested.Lexes` is what they take from the lexers for what is nested deeper, and `lexes_ofDepth`
  ties the knot.
* `Lexes.textRun`: a run of text takes as many rounds of a line as it has tokens.
* `tokenize_of_flows`: the tokens of a source that is spelled.
-/

import TypedMarkup.Proofs.Grammar.LexesProperty
import TypedMarkup.Proofs.Grammar.SpellsBlock

namespace TypedMarkup.Lexer

open TypedMarkup.Language
open TypedMarkup.Parser (Round)

/-- The lexers of nested constructs go over their languages. -/
structure Nested.Lexes (nested : Nested) (nested' : Grammar.Nested) : Prop where
  opens : nested'.Opens
  moves : ∀ here, nested'.node.Moves here
  node : ∀ state, Lexer.Lexes nested.node state nested'.node done
  content : ∀ state, Lexer.Lexes nested.content state nested'.content done

namespace Lexes

variable {α : Type} {state : State} {start : Position} {nested : Nested} {nested' : Grammar.Nested}

/-! ### Declarations -/

/-- Type paths begin with a gap, whatever it is. -/
theorem typePaths_regap {paths : List TypePath} {lexemes : List Lexeme}
    (spelled : Grammar.typePaths paths lexemes) : ∃ start text more,
      lexemes = ⟨.gap false, start, text⟩ :: more ∧
      ∀ start' text', Grammar.typePaths paths (⟨.gap false, start', text'⟩ :: more) := by
  have again {result : Round TypePath} {lexemes : List Lexeme}
      (round : Grammar.typePath result lexemes) : ∃ start text more,
        lexemes = ⟨.gap false, start, text⟩ :: more ∧
        ∀ start' text', Grammar.typePath result (⟨.gap false, start', text'⟩ :: more) := by
    obtain ⟨_, _, more, ⟨start, text, rfl⟩, later, rfl⟩ := round
    exact ⟨start, text, more, rfl, fun start' text' =>
      ⟨(), _, more, ⟨start', text', rfl⟩, later, rfl⟩⟩
  cases spelled with
  | stop last =>
    obtain ⟨start, text, more, rfl, others⟩ := again last
    exact ⟨start, text, more, rfl, fun start' text' => .stop (others start' text')⟩
  | pass first later =>
    obtain ⟨start, text, more, rfl, others⟩ := again first
    exact ⟨start, text, more ++ _, rfl, fun start' text' => .pass (others start' text') later⟩
  | item first later =>
    obtain ⟨start, text, more, rfl, others⟩ := again first
    exact ⟨start, text, more ++ _, rfl, fun start' text' => .item (others start' text') later⟩

/-- Of a gap before type paths, which begin with one as well, nothing is left for the second. -/
theorem gap_typePaths : Lexes Lexer.typePaths state (do
    gap
    Grammar.typePaths) done := by
  rintro paths _ d ⟨_, _, later, ⟨start, text, rfl⟩, spelled, rfl⟩ flows
  obtain ⟨start', text', more, rfl, others⟩ := typePaths_regap spelled
  obtain ⟨first, second, flows⟩ := flows
  have missing : trivia? (state.cursor.behind text).rest = none :=
    gap_ends ⟨start, text, rfl⟩ ⟨first, rfl⟩
  have same : text' = triviaText (state.cursor.behind text).rest := second.2
  rw [triviaText_of_none missing] at same
  subst same
  obtain ⟨after, run, rfl, behind⟩ := typePaths paths _ d (others start text) ⟨first, flows⟩
  refine ⟨after, run, rfl, ⟨first, second, behind.flows.2⟩, ?_⟩
  have blank : Lexeme.blankedAt (state.cursor.behind text) ⟨.gap false, start', []⟩ = [] := by
    show blankedTrivia _ = []
    rw [blankedTrivia, leadingTrivia_of_trivia?_eq_none missing]
    rfl
  rw [behind.text, List.cons_append, List.nil_append, Cursor.blanked_cons, Cursor.blanked_cons,
    Cursor.blanked_cons, blank]
  rfl

theorem declaredProperties {uses : List ClassRef} : Lexes (do
    if (← head) = some '\x7b' then
      Lexer.propertyBlock) state (Grammar.declaredProperties uses) done := by
  refine head_bind (orElse ?_ ?_)
  · refine opens (Grammar.opens_propertyBlock.bind _) fun brace => ?_
    rw [if_pos brace]
    exact propertyBlock.map
  · refine sight_bind fun sees => guard_bind fun _ => ?_
    have other : state.cursor.head ≠ some '\x7b' := fun same => by simp [Sight.sees, same] at sees
    rw [if_neg other]
    exact pure rfl

theorem defaultDeclaration : Lexes declaration state Grammar.defaultDeclaration done := by
  refine typePaths.bind fun _ _ _ _ _ => ?_
  refine classes.bind fun _ _ _ _ _ => ?_
  exact declaredProperties.map

theorem classDeclaration : Lexes (do
    if (← head) ≠ some '.' then
      refuse
    Lexer.classRef
    declaration) state Grammar.classDeclaration done := by
  refine opens (Grammar.opens_classRef.bind _) fun dot => head_bind ?_
  dsimp only
  rw [if_neg (not_not_intro dot)]
  refine classRef.bind fun _ _ there _ _ => ?_
  unfold declaration
  rw [← Language.bind_bind]
  exact gap_typePaths.bind fun _ _ _ _ _ => classes.bind fun _ _ _ _ _ => declaredProperties.map

theorem valueBinding : Lexes (do
    Lexer.name .bindingName
    Lexer.skip
    Lexer.value) state Grammar.valueBinding done := by
  refine (name (by decide)).bind fun _ _ _ _ _ => ?_
  refine skip_bind fun _ _ => ?_
  exact value.map

/-! ### Preambles -/

theorem contentBinding (lexes : nested.Lexes nested') :
    Lexes (contentBinding nested) state (Grammar.contentBinding nested') done := by
  refine (name (by decide)).bind fun _ _ _ _ _ => skip_bind fun there _ => ?_
  refine opens ((opens_sign '[').bind _) fun bracket => head_bind ?_
  dsimp only
  rw [if_neg (not_not_intro bracket)]
  refine openNode.bind fun _ _ _ _ _ => skip_bind fun _ _ => ?_
  exact (lexes.content _).bind fun _ _ _ _ _ => closeNode.map

/-- A keyword, and what it starts. -/
theorem keyword {next : Lexer Unit} {next' : Word → Language α} {keyword : Keyword}
    (spelt : Keyword.ofSpelling? (String.ofList (state.cursor.rest.takeWhile isNameChar)) =
      some keyword)
    (rest : ∀ word after, Keyword.ofSpelling? word.content = some keyword →
      Lexes next after (next' word) done) : Lexes (do
      emit .keyword (state.cursor.rest.takeWhile isNameChar)
      Lexer.skip
      next) state (do
      let word ← Language.name
      gap
      next' word) done := by
  refine name_emit_bind (by decide) fun word _ same => ?_
  refine skip_bind fun after _ => ?_
  exact rest word after (same ▸ spelt)

theorem directive (lexes : nested.Lexes nested') :
    Lexes (directive nested) state (Grammar.directive nested') done := by
  refine opens (opens_word (p := fun word =>
    ((Keyword.ofSpelling? word).filter Keyword.startsPreambleElement).isSome = true) ?_)
    fun starts => rest_bind ?_
  · intro word other
    refine .never fun _ => ?_
    split <;> simp_all [opens_nothing, Keyword.startsPreambleElement]
  dsimp only
  unfold Grammar.directive
  rw [if_pos starts]
  cases spelt : Keyword.ofSpelling? (String.ofList (state.cursor.rest.takeWhile isNameChar)) with
  | none =>
    rw [spelt] at starts
    cases starts
  | some found =>
    cases found with
    | classes =>
      refine keyword spelt fun word after same => ?_
      rw [same]
      exact classDeclaration
    | content =>
      refine keyword spelt fun word after same => ?_
      rw [same]
      exact contentBinding lexes
    | defaults =>
      refine keyword spelt fun word after same => ?_
      rw [same]
      exact defaultDeclaration
    | value =>
      refine keyword spelt fun word after same => ?_
      rw [same]
      exact valueBinding
    | text | read | inclusion =>
      rw [spelt] at starts
      cases starts

theorem fallbackMark_bind {next : Lexer Unit} {next' : Option Position → Language α}
    (rest : ∀ mark after, Lexes next after (next' mark) done) : Lexes (do
      if (← head) = some '?' then
        Lexer.single .preambleFallback
        Lexer.skip
      next) state (Grammar.fallbackMark >>= next') done := by
  refine head_bind (orElse_bind ?_ ?_)
  · refine opens (((opens_sign '?').bind _).bind _) fun mark => ?_
    rw [if_pos mark, Language.bind_bind]
    refine (single (by decide)).bind fun mark _ _ _ _ => ?_
    rw [Language.bind_bind]
    refine skip_bind fun after _ => ?_
    rw [pure_then]
    exact rest (some mark) after
  · rw [Language.bind_bind]
    refine sight_bind fun sees => ?_
    have other : state.cursor.head ≠ some '?' := fun same => by simp [Sight.sees, same] at sees
    rw [if_neg other, pure_then]
    exact rest none state

theorem preambleElement (lexes : nested.Lexes nested') :
    Lexes (preambleElement nested) state (Grammar.preambleElement nested') done := by
  refine (single (by decide)).bind fun _ _ _ _ _ => ?_
  refine skip_bind fun _ _ => ?_
  refine fallbackMark_bind fun _ _ => ?_
  refine (directive lexes).bind fun _ _ _ _ _ => ?_
  refine skip_bind fun _ _ => ?_
  exact (expect (by decide)).map

theorem preamble (lexes : nested.Lexes nested') :
    Lexes (preamble nested) state (Grammar.preamble nested') done := by
  refine whileAt (Grammar.opens_preambleElement.bind _) (fun _ => ((moves_sign '<').bind _).bind _)
    fun _ => ?_
  refine (preambleElement lexes).bind fun _ _ _ _ _ => ?_
  refine skip_bind fun _ _ => ?_
  exact pure rfl

/-! ### Text -/

/-- An ignored node becomes one token, in which comments stay. -/
theorem ignoredNode (lexes : nested.Lexes nested') :
    Lexes (collapsed .ignored nested.node) state (Grammar.ignoredNode nested') done := by
  rintro _ _ d ⟨start, _, _, rfl, ⟨node, _, _, ⟨inside, spelled, rfl⟩, ⟨_, rfl⟩, rfl⟩, rfl⟩ flows
  rw [List.append_nil] at flows ⊢
  obtain ⟨⟨_, _, same, head, _⟩, later⟩ := id flows
  cases same
  let inner : State := { state with cursor := state.cursor.behind ['_'] }
  obtain ⟨after, run, rfl, _⟩ :=
    lexes.node inner node inside d spelled (Cursor.flows_keep.1 later)
  have text : state.cursor.textTo after.cursor = '_' :: Lexeme.textOf inside := by
    refine Cursor.textTo_of_rest (flows.rest_eq.1.trans ?_)
    rw [Lexeme.textOf_append, Lexeme.textOf_keep]
    rfl
  have ran := run_collapsed .ignored nested.node state
  rw [Cursor.take_one_of_head head, run] at ran
  dsimp only at ran
  have solid : TokenKind.ignored ≠ .comment := by decide
  have moved : state.cursor.behind (state.cursor.textTo after.cursor) = after.cursor :=
    Cursor.behind_textTo flows.reaches
  refine ⟨_, ran, moved, ?_, ?_⟩
  · show state.cursor.Flows _ (state.cursor.behind (state.cursor.textTo after.cursor))
    rw [moved]
    exact flows
  · rw [State.blanked_cut solid, text, List.singleton_append, Cursor.blanked_cons,
      Cursor.blanked_keep]
    rfl

/-- Text or an ignored node, where an ignored node stands. -/
theorem ignored_round {step : Lexer Bool} (lexes : nested.Lexes nested')
    (cuts : step.run.run state = (do
      textOrIgnored nested
      return true : Lexer Bool).run.run state) : Lexes step state (do
      Grammar.ignoredNode nested'
      return (.pass : Round α)) Round.goesOn := by
  refine opens ((Grammar.opens_ignoredNode lexes.opens).bind _) fun node => ?_
  have looked : (textOrIgnored nested).run.run state =
      (collapsed .ignored nested.node).run.run state := by
    refine (run_bind atIgnoredNode _ state).trans ?_
    show (if (state.cursor.head = some '_' && state.cursor.second = some '[') = true then _
      else text : Lexer Unit).run.run state = _
    rw [if_pos (by simp [node.1, node.2])]
  have both : Lexes (do
      collapsed .ignored nested.node
      return true : Lexer Bool) state (do
      Grammar.ignoredNode nested'
      return (.pass : Round α)) Round.goesOn :=
    (ignoredNode lexes).bind fun _ _ _ _ _ => pure rfl
  refine both.congr ?_
  rw [cuts, run_bind, looked, run_bind]

end Lexes

/-! ### Runs of text -/

section Text

variable {α : Type} {state : State} {nested : Nested} {nested' : Grammar.Nested}
  {step : Lexer Bool} (lexes : nested.Lexes nested') (cuts : CutsText nested step)

/-- Texts that have become tokens are kept. -/
theorem State.blanked_cutAll (state : State) (pieces : List (List Char)) :
    (state.cutAll pieces).blanked = state.blanked ++ pieces.flatten := by
  have solid : TokenKind.text ≠ .comment := by decide
  induction pieces generalizing state with
  | nil => exact (List.append_nil _).symm
  | cons piece pieces ih =>
    rw [List.flatten_cons, ← List.append_assoc, ← blanked_cut solid none piece]
    exact ih (state.cut .text none piece)

include cuts in
/-- Rounds that begin with a text token go on to the end of the plain text. -/
theorem Runs.plain {x : Char} (found : state.cursor.head = some x)
    (first : step.run.run state = (.ok true, state.cut .text none
      (x :: state.cursor.rest.tail.takeWhile fun c => !endsTextToken c))) :
    ∃ after, Runs step state after ∧
      after.cursor = state.cursor.behind (x :: Parser.plainText state.cursor.rest.tail) ∧
      after.blanked = state.blanked ++ x :: Parser.plainText state.cursor.rest.tail := by
  obtain ⟨pieces, flat, runs⟩ := cut_pieces cuts found first
  rw [← flat]
  exact ⟨_, runs, state.cutAll_cursor pieces, state.blanked_cutAll pieces⟩

include lexes cuts

/-- The pieces of a run of text, at the start of a round. -/
theorem runs_textPieces {pieces : List (List Char)} {lexemes : List Lexeme} {d : Cursor}
    (spelled : Language.rounds (Grammar.textPiece nested') pieces lexemes)
    (flows : state.cursor.Flows lexemes d) :
    ∃ after, after.cursor = d ∧ state.Behind lexemes after ∧ Runs step state after := by
  induction spelled generalizing state with
  | stop last =>
    rcases last with last | last | last <;> obtain ⟨_, spelled, same⟩ := map_iff.1 last <;>
      cases same
    obtain ⟨start, rfl⟩ := spelled
    obtain ⟨stands, rfl⟩ := flows
    exact ⟨state, rfl, .sight stands (.refl state), .refl state⟩
  | pass first later ih =>
    rcases first with first | first | first <;> obtain ⟨_, spelled, same⟩ := map_iff.1 first <;>
      cases same
    obtain ⟨there, flows, flows'⟩ := Cursor.flows_append.1 flows
    have node := Grammar.opens_ignoredNode lexes.opens _ _ _ _ spelled flows
    have round := Lexes.ignored_round (α := List Char) lexes (cuts node.1 (by decide))
    obtain ⟨middle, rfl, behind, runs⟩ :=
      Advances.of_lexes round (Grammar.moves_ignoredNode.bind _).goes .pass _ _
        (map_iff.2 ⟨(), spelled, rfl⟩) flows
    obtain ⟨after, same, behind', runs'⟩ := ih flows'
    exact ⟨after, same, behind.trans behind', Runs.trans runs runs'⟩
  | item first later ih =>
    rcases first with first | first | first <;> obtain ⟨_, spelled, same⟩ := map_iff.1 first <;>
      cases same
    obtain ⟨there, flows, flows'⟩ := Cursor.flows_append.1 flows
    obtain ⟨start, rfl⟩ := spelled
    obtain ⟨stands, rfl⟩ := Cursor.flows_singleton.1 flows
    obtain ⟨_, taken, nonempty⟩ := id stands
    obtain ⟨x, text, rfl⟩ := List.exists_cons_of_ne_nil nonempty
    obtain ⟨head, plain, notNode, same⟩ := Parser.plainText_eq_cons taken.symm
    obtain ⟨middle, runs, moved, text⟩ := Runs.plain cuts head (cuts.run head plain notNode)
    rw [← same] at moved text
    obtain ⟨after, same', behind, runs'⟩ := ih (moved ▸ flows')
    have first : state.Behind [⟨.plain, start, _⟩] middle := ⟨⟨stands, moved⟩, by
      simpa [Lexeme.blankedAt] using text⟩
    exact ⟨after, same', first.trans behind, runs.trans runs'⟩

omit lexes cuts in
/-- The pieces of a run begin with all of the plain text. -/
theorem textPieces_split {pieces : List (List Char)} {lexemes : List Lexeme} {c d : Cursor}
    (opens : nested'.Opens) (spelled : Language.rounds (Grammar.textPiece nested') pieces lexemes)
    (flows : c.Flows lexemes d) : ∃ front more pieces', lexemes = front ++ more ∧
      Language.rounds (Grammar.textPiece nested') pieces' more ∧
      c.Flows front (c.behind (Parser.plainText c.rest)) ∧
      (c.behind (Parser.plainText c.rest)).Flows more d ∧
      c.blanked front = Parser.plainText c.rest := by
  have none (ends : Parser.plainText c.rest = []) : ∃ front more pieces',
      lexemes = front ++ more ∧ Language.rounds (Grammar.textPiece nested') pieces' more ∧
      c.Flows front (c.behind (Parser.plainText c.rest)) ∧
      (c.behind (Parser.plainText c.rest)).Flows more d ∧
      c.blanked front = Parser.plainText c.rest := by
    rw [ends]
    exact ⟨[], lexemes, pieces, rfl, spelled, rfl, flows, rfl⟩
  cases spelled with
  | stop last =>
    rcases last with last | last | last <;> obtain ⟨_, spelled, same⟩ := map_iff.1 last <;>
      cases same
    exact none (Parser.plainText_eq_nil.2 (.inl (opens_sight _ _ _ _ _ spelled flows)))
  | pass first later =>
    rcases first with first | first | first <;> obtain ⟨_, spelled, same⟩ := map_iff.1 first <;>
      cases same
    obtain ⟨there, flows, _⟩ := Cursor.flows_append.1 flows
    have node := Grammar.opens_ignoredNode opens _ _ _ _ spelled flows
    exact none (Parser.plainText_eq_nil.2 (.inr node))
  | item first later =>
    rcases first with first | first | first <;> obtain ⟨_, spelled, same⟩ := map_iff.1 first <;>
      cases same
    obtain ⟨start, rfl⟩ := spelled
    obtain ⟨there, flows, flows'⟩ := Cursor.flows_append.1 flows
    obtain ⟨stands, rfl⟩ := Cursor.flows_singleton.1 flows
    obtain ⟨_, rfl, nonempty⟩ := id stands
    exact ⟨_, _, _, rfl, later, flows, flows', by simp [Lexeme.blankedAt]⟩

/-- **A run of text** takes as many rounds as it has tokens. -/
theorem runs_textRun {run : TextRun} {lexemes : List Lexeme} {d : Cursor}
    (first : ∀ x, state.cursor.head = some x →
      step.run.run state = (.ok true, state.cut .text none
        (x :: state.cursor.rest.tail.takeWhile fun c => !endsTextToken c)))
    (spelled : Grammar.textRun nested' run lexemes) (flows : state.cursor.Flows lexemes d) :
    ∃ after, after.cursor = d ∧ state.Behind lexemes after ∧ Runs step state after := by
  obtain ⟨⟨x, start⟩, _, _, rfl, later, rfl⟩ := spelled
  obtain ⟨pieces, spelled, rfl⟩ := map_iff.1 later
  obtain ⟨stands, flows⟩ := flows
  obtain ⟨_, sign, same, head, _⟩ := id stands
  cases same
  obtain ⟨middle, runs, moved, text⟩ := Runs.plain cuts head (first x head)
  obtain ⟨front, more, pieces', rfl, spelled', before, behind, kept⟩ :=
    textPieces_split lexes.opens spelled flows
  rw [Cursor.behind_one_rest] at before behind kept
  rw [← List.singleton_append, Cursor.behind_append] at moved
  rw [← moved] at before behind
  obtain ⟨after, same, later, runs'⟩ := runs_textPieces lexes cuts spelled' behind
  have cut : state.Behind (⟨.sign, start, [x]⟩ :: front) middle := by
    refine ⟨⟨stands, before⟩, ?_⟩
    rw [text, Cursor.blanked_cons, kept]
    rfl
  exact ⟨after, same, cut.trans later, runs.trans runs'⟩

/-- A round that begins with a run of text. -/
theorem Advances.textRun {made : TextRun → α}
    (first : ∀ x, state.cursor.head = some x →
      step.run.run state = (.ok true, state.cut .text none
        (x :: state.cursor.rest.tail.takeWhile fun c => !endsTextToken c))) :
    Advances step state (do return .item (made (← Grammar.textRun nested'))) := by
  intro result lexemes d spelled flows
  obtain ⟨run, spelled', rfl⟩ := map_iff.1 spelled
  exact runs_textRun lexes cuts first spelled' flows

/-- A round at an ignored node. -/
theorem Advances.ignoredNode : Advances step state (do
    Grammar.ignoredNode nested'
    return (.pass : Round α)) := by
  refine opens ((Grammar.opens_ignoredNode lexes.opens).bind _) fun node => ?_
  exact of_lexes (Lexes.ignored_round lexes (cuts node.1 (by decide)))
    (Grammar.moves_ignoredNode.bind _).goes

end Text

/-- A round that ends where a line does. -/
theorem Advances.lineEnd {α : Type} {state : State} {step : Lexer Bool}
    (stops : ∀ head, state.cursor.head = head → (head = none ∨ head = some '\r' ∨
      head = some '\n' ∨ head = some ']') → step.run.run state = (.ok false, state)) :
    Advances step state (do
      sight .lineEnd
      return (.stop : Round α)) :=
  of_lexes (.sight_bind fun sees => (Lexes.pure (b := false) rfl).congr
    (stops _ rfl (Sight.head_of_lineEnd sees))) (goes_stop _)

namespace Lexes

variable {α : Type} {state : State} {start : Position} {nested : Nested} {nested' : Grammar.Nested}

/-! ### Lines -/

theorem lineElement (lexes : nested.Lexes nested') :
    Advances (lineElement nested) state (Grammar.lineElement nested') := by
  refine .orElse (.lineEnd ?_) (.orElse ?_ (.orElse ?_ (.orElse (.ignoredNode lexes
    Agrees.cutsText_lineElement) ?_)))
  · rintro head found ends
    rw [Agrees.run_lineElement, found]
    rcases ends with rfl | rfl | rfl | rfl <;> rfl
  · refine .opens (lexes.opens.bind _) fun bracket =>
      .of_lexes ((lexes.node state).item.congr ?_) ((lexes.moves _).bind _).goes
    rw [Agrees.run_lineElement, bracket]
    rfl
  · refine .opens (opens_escaped.bind _) fun quote =>
      .of_lexes (escapedText.item.congr ?_) (moves_escaped.bind _).goes
    rw [Agrees.run_lineElement, quote]
    rfl
  · refine .sight_bind fun sees => .textRun lexes Agrees.cutsText_lineElement fun x found => ?_
    simp only [Sight.sees, Bool.and_eq_true, Bool.not_eq_true'] at sees
    rw [found] at sees
    exact Agrees.cutsText_lineElement.run found sees.1 (found ▸ Bool.not_eq_true _ ▸ sees.2)

theorem textElement (lexes : nested.Lexes nested') :
    Advances (textElement nested) state (Grammar.textElement nested') := by
  refine .orElse (.lineEnd ?_) (.orElse ?_ (.orElse (.ignoredNode lexes
    Agrees.cutsText_textElement) ?_))
  · rintro head found ends
    rw [Agrees.run_textElement, found]
    rcases ends with rfl | rfl | rfl | rfl <;> rfl
  · refine .opens (opens_escaped.bind _) fun quote =>
      .of_lexes (escapedText.item.congr ?_) (moves_escaped.bind _).goes
    rw [Agrees.run_textElement, quote]
    rfl
  · refine .sight_bind fun sees => .textRun lexes Agrees.cutsText_textElement fun x found => ?_
    simp only [Sight.sees, Bool.and_eq_true, Bool.not_eq_true'] at sees
    have notNode : ¬ (state.cursor.head = some '_' && state.cursor.second = some '[') = true :=
      Bool.not_eq_true _ ▸ sees.2
    have cuts : (Lexer.textElement nested).run.run state = (do
        textOrIgnored nested
        return true : Lexer Bool).run.run state := by
      rw [Agrees.run_textElement, found]
      split
      all_goals simp_all
    rw [cuts, run_bind, run_textOrIgnored found notNode]
    rfl

theorem line (lexes : nested.Lexes nested') :
    Lexes (line nested) state (Grammar.line nested') done :=
  repeats fun _ => lineElement lexes

theorem textElements (lexes : nested.Lexes nested') :
    Lexes (textElements nested) state (Grammar.textElements nested') done :=
  repeats fun _ => textElement lexes

theorem lines (lexes : nested.Lexes nested') :
    Lexes (lines nested) state (Grammar.lines nested') done := by
  refine many (fun state => skip_bind fun there _ => head_bind (orElse ?_ ?_))
    fun _ => Parser.Spells.goes_lineRound lexes.moves
  · refine sight_bind fun sees => ?_
    rcases Sight.head_of_blockEnd sees with found | found <;> rw [found] <;> exact pure rfl
  · refine sight_bind fun sees => ?_
    split
    · next none => simp [Sight.sees, none] at sees
    · next close => simp [Sight.sees, close] at sees
    · exact (line lexes).item

theorem content (lexes : nested.Lexes nested') :
    Lexes (content nested) state (Grammar.content nested') done := by
  refine (preamble lexes).bind fun _ _ _ _ _ => ?_
  exact (lines lexes).map

/-! ### Nodes -/

theorem textNode {keyword : Option Word} (lexes : nested.Lexes nested') :
    Lexes (textNode nested) state (Grammar.textNode nested' start keyword) done := by
  refine classesAndProperties_bind fun _ _ _ => ?_
  exact (textElements lexes).map

theorem typedNode {f : List ChildStep → TypePath} (lexes : nested.Lexes nested') :
    Lexes (typedNode nested) state (do
      let steps ← Grammar.childSteps
      gap
      Grammar.typedNode nested' start (f steps)) done := by
  refine childSteps.bind fun _ _ _ _ _ => ?_
  refine skip_bind fun _ _ => ?_
  refine classesAndProperties_bind fun _ _ _ => ?_
  exact (content lexes).map

theorem namedNode (lexes : nested.Lexes nested') : Lexes (namedNode nested) state (do
    Grammar.namedNode nested' start (← Language.name)) done := by
  refine rest_bind ?_
  dsimp only
  have typed (other : (Keyword.ofSpelling? (String.ofList
      (state.cursor.rest.takeWhile isNameChar))).filter Keyword.startsNode = none) : Lexes (do
      emit .typeName (state.cursor.rest.takeWhile isNameChar)
      Lexer.typedNode nested) state (do
      Grammar.namedNode nested' start (← Language.name)) done := by
    refine name_emit_bind (by decide) fun word _ same => ?_
    rw [← same] at other
    rw [Grammar.namedNode_of_other other]
    exact typedNode lexes
  cases spelt : Keyword.ofSpelling? (String.ofList (state.cursor.rest.takeWhile isNameChar)) with
  | none => exact typed (by rw [spelt]; rfl)
  | some keyword =>
    cases keyword with
    | classes | defaults => exact typed (by rw [spelt]; rfl)
    | text =>
      refine name_emit_bind (by decide) fun word _ same => ?_
      rw [Grammar.namedNode, same, spelt]
      exact skip_bind fun _ _ => textNode lexes
    | read =>
      refine name_emit_bind (by decide) fun word _ same => ?_
      rw [Grammar.namedNode, same, spelt]
      exact skip_bind fun _ _ => classesAndProperties
    | inclusion =>
      refine name_emit_bind (by decide) fun word _ same => ?_
      rw [Grammar.namedNode, same, spelt]
      exact skip_bind fun _ _ => classesAndProperties_bind fun _ _ _ => (preamble lexes).map
    | content =>
      refine name_emit_bind (by decide) fun word _ same => ?_
      rw [Grammar.namedNode, same, spelt]
      exact skip_bind fun _ _ => (name (by decide)).bind fun _ _ _ _ _ => skip_bind fun _ _ =>
        (preamble lexes).map
    | value =>
      refine name_emit_bind (by decide) fun word _ same => ?_
      rw [Grammar.namedNode, same, spelt]
      exact skip_bind fun _ _ => (name (by decide)).bind fun _ _ _ _ _ => skip.map

theorem nodeBody (lexes : nested.Lexes nested') :
    Lexes (nodeBody nested) state (Grammar.nodeBody nested' start) done := by
  refine head_bind (orElse ?_ (orElse ?_ (orElse ?_ ?_)))
  · refine sight_bind fun sees => ?_
    rw [Sight.head_of_shows sees]
    exact (content lexes).map
  · refine sight_bind fun sees => ?_
    rcases Sight.head_of_shows_pair sees with shown | shown <;> rw [shown] <;> exact textNode lexes
  · refine sight_bind fun sees => ?_
    rw [Sight.head_of_shows sees]
    exact typedNode lexes
  · refine opens (opens_name.bind _) fun found => ?_
    split
    · next other => rw [other] at found; cases found
    · next other => rw [other] at found; cases found
    · next other => rw [other] at found; cases found
    · next other => rw [other] at found; cases found
    · rw [if_pos found]
      exact namedNode lexes

theorem node (lexes : nested.Lexes nested') :
    Lexes (node nested) state (Grammar.node nested') done := by
  refine openNode.bind fun _ _ _ _ _ => ?_
  refine skip_bind fun _ _ => ?_
  refine (nodeBody lexes).bind fun _ _ _ _ _ => ?_
  exact closeNode.map

end Lexes

/-! ### Nesting -/

/-- The lexers of one level of nesting go over the languages of it. -/
theorem lexes_ofDepth (depth : Nat) : (Nested.ofDepth depth).Lexes (Grammar.ofDepth depth) := by
  have spells := Parser.spells_ofDepth depth
  induction depth with
  | zero =>
    exact ⟨spells.opens, spells.moves, fun _ _ _ _ spelled _ => spelled.elim,
      fun _ _ _ _ spelled _ => spelled.elim⟩
  | succ depth ih =>
    have lexes := ih (Parser.spells_ofDepth depth)
    exact ⟨spells.opens, spells.moves, fun _ => .node lexes, fun _ => .content lexes⟩

/-- **A whole source.** -/
theorem Lexes.file {state : State} {nested : Nested} {nested' : Grammar.Nested}
    (lexes : nested.Lexes nested') : Lexes (file nested) state (Grammar.file nested') done := by
  refine skip_bind fun there _ => (lexes.content there).bind fun read _ after _ _ => ?_
  refine head_bind (sight_bind fun ends => ?_)
  rw [if_neg (by simp [Sight.head_of_sourceEnd ends])]
  exact pure rfl

end TypedMarkup.Lexer
