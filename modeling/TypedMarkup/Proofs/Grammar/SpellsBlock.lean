/-
**Parsers of blocks and nodes.** What `Parser.Spells` says of the parsers whose constructs nest, and
of a whole source.

* `Nested.Spells` is what they take from the parsers for what is nested deeper, and
  `spells_ofDepth` ties the knot.
* `Content.parse_eq_ok_iff`: reading a whole source is reading the language of whole sources, to
  any depth.
-/

import TypedMarkup.Proofs.Grammar.SpellsProperty
import TypedMarkup.Proofs.Token.AgreesText
import TypedMarkup.Proofs.Tree.Deeper

namespace TypedMarkup

namespace Grammar

open TypedMarkup.Language

variable {nested : Grammar.Nested}

/-! ### How constructs open -/

/-- Nodes open with a bracket. -/
def Nested.Opens (nested : Grammar.Nested) : Prop :=
  nested.node.Opens fun c => c.head = some '['

theorem opens_ignoredNode (opens : nested.Opens) :
    (ignoredNode nested).Opens fun c => c.head = some '_' ∧ c.second = some '[' := by
  rintro _ _ c d ⟨start, _, _, rfl, ⟨node, _, _, inside, _, rfl⟩, rfl⟩ flows
  obtain ⟨_, ⟨⟨_, _, same, head, _⟩, rfl⟩, flows⟩ := Cursor.flows_append.1 flows
  cases same
  obtain ⟨middle, flows, _⟩ := Cursor.flows_append.1 flows
  refine ⟨head, ?_⟩
  have bracket := opens_kept opens node _ _ middle inside flows
  rw [Cursor.behind_head] at bracket
  rw [Cursor.second, ← List.drop_one]
  exact bracket

theorem opens_plain : plain.Opens fun c => ∃ x, c.head = some x ∧ Parser.endsText x = false ∧
    Sight.isIgnored c.head c.second = false := by
  rintro text _ c d ⟨start, rfl⟩ ⟨⟨_, same, some⟩, _⟩
  have same : text = Parser.plainText c.rest := same
  cases text with
  | nil => exact absurd rfl some
  | cons x more =>
    obtain ⟨head, plain, notNode, _⟩ := Parser.plainText_eq_cons same.symm
    exact ⟨x, head, plain, by simpa [Sight.isIgnored] using notNode⟩

theorem opens_preambleElement :
    (preambleElement nested).Opens fun c => c.head = some '<' :=
  (opens_sign '<').bind _

theorem moves_ignoredNode {here : Cursor} : (ignoredNode nested).Moves here :=
  (moves_sign '_').bind _

theorem moves_textRun {here : Cursor} : (textRun nested).Moves here :=
  moves_anySign.bind _

end Grammar

namespace Parser

open TypedMarkup.Language

/-- The parsers of nested constructs read their languages. -/
structure Nested.Spells (nested : Parser.Nested) (nested' : Grammar.Nested) : Prop where
  opens : nested'.Opens
  moves : ∀ here, nested'.node.Moves here
  node : ∀ {c : Cursor}, c.head = some '[' → Parser.Spells nested.node c nested'.node
  content : ∀ {c : Cursor}, Parser.Spells nested.content c nested'.content

namespace Spells

variable {α : Type} {c : Cursor} {start : Position} {nested : Parser.Nested}
  {nested' : Grammar.Nested}

/-! ### Declarations -/

theorem declaredProperties {uses : List ClassRef} {parsing : Construct} :
    Spells (declaredProperties uses parsing) c (Grammar.declaredProperties uses) := by
  refine head_bind ?_
  by_cases brace : c.head = some '\x7b'
  · rw [if_pos brace]
    refine left (propertyBlock brace).map ?_
    exact ((opens_sight _).bind _).ne (by simp [Sight.sees, brace])
  rw [if_neg brace]
  refine right ((Grammar.opens_propertyBlock.bind _).ne brace) ?_
  have sees : (Sight.avoids ['\x7b']).sees c.head c.second = true := Sight.sees_avoids rfl brace
  split
  · next empty =>
    refine fail ?_
    rintro block _ _ d ⟨_, _, _, ⟨_, rfl⟩, ⟨_, _, _, ⟨some, _⟩, _⟩, rfl⟩ _
    exact absurd (List.isEmpty_iff.1 empty) some
  · next some =>
    exact sight_bind sees (guard_bind (fun none => some (List.isEmpty_iff.2 none)) (pure _))

theorem classDeclaration : Spells classDeclaration c Grammar.classDeclaration := by
  refine head_bind ?_
  dsimp only
  split
  · next other => exact fail_bind ((Grammar.opens_classRef.bind _).ne other)
  · next found =>
    refine (classRef (Decidable.not_not.1 found)).bind fun _ _ _ _ _ => ?_
    refine skip.bind fun _ _ _ _ _ => typePaths.bind fun _ _ _ _ _ => ?_
    exact classes.bind fun _ _ _ _ _ => declaredProperties.map

theorem defaultDeclaration : Spells defaultDeclaration c Grammar.defaultDeclaration := by
  refine typePaths.bind fun _ _ _ _ _ => ?_
  refine classes.bind fun _ _ _ _ _ => ?_
  exact declaredProperties.map

theorem valueBinding : Spells valueBinding c Grammar.valueBinding := by
  refine name.bind fun _ _ _ _ _ => ?_
  refine skip.bind fun _ _ _ _ _ => ?_
  exact value.map

/-! ### Preambles -/

theorem contentBinding (spells : nested.Spells nested') :
    Spells (contentBinding nested) c (Grammar.contentBinding nested') := by
  refine name.bind fun _ _ _ _ _ => ?_
  refine skip.bind fun _ _ _ _ _ => ?_
  refine expect_bind (by decide) fun _ => ?_
  refine position_bind ?_
  refine skip.bind fun _ _ _ _ _ => ?_
  refine spells.content.bind fun _ _ _ _ _ => ?_
  refine expect_bind (by decide) fun _ => ?_
  exact pure _

theorem directive (spells : nested.Spells nested') :
    Spells (directive nested) c (Grammar.directive nested') := by
  refine head_bind ?_
  dsimp only
  split
  · next missing => exact fail_bind ((opens_name.bind _).ne (by simpa using missing))
  · refine name.bind fun keyword _ _ _ _ => skip.bind fun _ _ _ _ _ => ?_
    cases Keyword.ofSpelling? keyword.content with
    | none => exact failAt
    | some keyword =>
      cases keyword with
      | classes => exact classDeclaration
      | content => exact contentBinding spells
      | defaults => exact defaultDeclaration
      | value => exact valueBinding
      | text | read | inclusion => exact failAt

theorem fallbackMark : Spells fallbackMark c Grammar.fallbackMark := by
  refine head_bind ?_
  by_cases mark : c.head = some '?'
  · rw [if_pos mark]
    refine left (position_bind (advance_bind mark (by decide) (skip.bind fun _ _ _ _ _ => pure _))) ?_
    exact ((opens_sight _).bind _).ne (by simp [Sight.sees, mark])
  · rw [if_neg mark]
    refine right (((opens_sign _).bind _).ne mark) (sight_bind ?_ (pure _))
    exact Sight.sees_avoids rfl mark

theorem preambleElement (spells : nested.Spells nested') (found : c.head = some '<') :
    Spells (preambleElement nested) c (Grammar.preambleElement nested') := by
  refine position_bind ?_
  refine advance_bind found (by decide) ?_
  refine skip.bind fun _ _ _ _ _ => ?_
  refine fallbackMark.bind fun _ _ _ _ _ => ?_
  refine (directive spells).bind fun _ _ _ _ _ => ?_
  refine skip.bind fun _ _ _ _ _ => ?_
  refine expect_bind (by decide) fun _ => ?_
  exact pure _

theorem preamble (spells : nested.Spells nested') :
    Spells (preamble nested) c (Grammar.preamble nested') := by
  refine whileAt (by decide) (Grammar.opens_preambleElement.bind _)
    (fun _ => ((moves_sign '<').bind _).bind _) fun _ found => ?_
  refine (preambleElement spells found).bind fun _ _ _ _ _ => ?_
  refine skip.bind fun _ _ _ _ _ => ?_
  exact pure _

/-! ### Text -/

theorem atIgnoredNode_bind {next : Bool → Parser α} {language : Language α}
    (spells : Spells (next (c.head = some '_' && c.second = some '[')) c language) :
    Spells (atIgnoredNode >>= next) c language :=
  spells

/-- A node inside an ignored one. -/
theorem kept {parser : Parser α} {language : Language α} (spells : Spells parser c language) :
    Spells parser c (Language.kept language) := by
  intro a d
  rw [spells a d]
  constructor
  · rintro ⟨lexemes, spelled, flows⟩
    exact ⟨_, ⟨lexemes, spelled, rfl⟩, Cursor.flows_keep.2 flows⟩
  · rintro ⟨_, ⟨lexemes, spelled, rfl⟩, flows⟩
    exact ⟨lexemes, spelled, Cursor.flows_keep.1 flows⟩

theorem ignoredNode (spells : nested.Spells nested') (first : c.head = some '_')
    (second : c.second = some '[') :
    Spells (ignoredNode nested) c (Grammar.ignoredNode nested') := by
  have bracket : (c.behind ['_']).head = some '[' := by
    rw [Cursor.behind_head, ← second]
    simp [Cursor.second]
  exact advance_bind first (by decide) (kept (spells.node bracket)).map

/-- A round of plain text, where it begins. -/
theorem plain {x : Char} (found : c.head = some x) (plain : ¬ endsText x = true)
    (notNode : ¬ (c.head = some '_' && c.second = some '[') = true) :
    Spells (take plainText) c Language.plain := by
  have nonempty := plainText_ne_nil found plain notNode
  have spelled : Language.plain (plainText c.rest) [⟨.plain, c.position, plainText c.rest⟩] :=
    ⟨_, rfl⟩
  have flows : c.Flows [⟨.plain, c.position, plainText c.rest⟩] _ := ⟨⟨rfl, rfl, nonempty⟩, rfl⟩
  refine of_run rfl spelled flows ?_
  rintro text e _ ⟨start, rfl⟩ ⟨⟨_, same, _⟩, rfl⟩
  exact ⟨same, congrArg c.behind same⟩

theorem textPiece (spells : nested.Spells nested') :
    Spells (textPiece nested) c (Grammar.textPiece nested') := by
  refine head_bind ?_
  have ends (here : c.head.all endsText = true) :
      Spells (Pure.pure .stop) c (Grammar.textPiece nested') := by
    refine left (sight_bind here (pure _)) (.orElse ?_ ?_)
    · refine ((Grammar.opens_ignoredNode spells.opens).bind _).ne fun node => ?_
      rw [node.1] at here
      revert here
      decide
    · refine (Grammar.opens_plain.bind _).ne fun plain => ?_
      obtain ⟨x, found, plain, _⟩ := plain
      simp [found, plain] at here
  split
  · next found => exact ends (by simp [found])
  · next x found =>
    split
    · next stops => exact ends (by simpa [found] using stops)
    · next plain =>
      refine right (((opens_sight _).bind _).ne (by simpa [Sight.sees, found] using plain)) ?_
      refine atIgnoredNode_bind ?_
      split
      · next node =>
        have node' := node
        simp only [Bool.and_eq_true, decide_eq_true_eq] at node
        refine left ((ignoredNode spells node.1 node.2).bind fun _ _ _ _ _ => pure _) ?_
        refine (Grammar.opens_plain.bind _).ne fun other => ?_
        obtain ⟨_, _, _, notNode⟩ := other
        rw [Sight.isIgnored, node'] at notNode
        cases notNode
      · next notNode =>
        refine right ?_ (Spells.plain found plain notNode).map
        refine ((Grammar.opens_ignoredNode spells.opens).bind _).ne fun node => notNode ?_
        simp [node.1, node.2]

theorem textRun (spells : nested.Spells nested') {x : Char} (found : c.head = some x)
    (inLine : x ≠ '\r' ∧ x ≠ '\n') : Spells (textRun nested) c (Grammar.textRun nested') := by
  have goes (here : Cursor) : (Grammar.textPiece nested').Goes here :=
    (goes_stop _).orElse ((Grammar.moves_ignoredNode.bind _).goes.orElse (moves_plain.bind _).goes)
  exact position_bind (anySign_bind found inLine (many (fun _ => textPiece spells) goes).map)

/-! ### Lines -/

/-- What a line or a text node holds where none of its signs stands: text, or an ignored node. -/
theorem textOrIgnored {β : Type} (spells : nested.Spells nested') {x : Char}
    (found : c.head = some x) (inLine : x ≠ '\r' ∧ x ≠ '\n') {seen : Sight} {made : TextRun → β}
    (sees : seen.sees c.head c.second = !Sight.isIgnored c.head c.second) :
    Spells (do
      if ← atIgnoredNode then
        Parser.ignoredNode nested
        return .pass
      else
        return .item (made (← Parser.textRun nested))) c ((do
      Grammar.ignoredNode nested'
      return .pass) <|> (do
      Language.sight seen
      return Round.item (made (← Grammar.textRun nested')))) := by
  refine atIgnoredNode_bind ?_
  split
  · next node =>
    rw [Sight.isIgnored, node] at sees
    simp only [Bool.and_eq_true, decide_eq_true_eq] at node
    refine left ((ignoredNode spells node.1 node.2).bind fun _ _ _ _ _ => pure _) ?_
    exact ((opens_sight _).bind _).ne (by simp [sees])
  · next notNode =>
    refine right ?_ (sight_bind ?_ (textRun spells found inLine).map)
    · refine ((Grammar.opens_ignoredNode spells.opens).bind _).ne fun node => notNode ?_
      simp [node.1, node.2]
    · rw [sees, Sight.isIgnored, Bool.not_eq_true'] 
      exact Bool.eq_false_iff.2 notNode

/-- Where a line ends, none of its elements stands. -/
theorem stop_round {β : Type} (spells : nested.Spells nested')
    (ends : Sight.lineEnd.sees c.head c.second = true) {language : Language (Round β)}
    (others : (∀ {other : Language (Round β)}, other.Opens (fun here => here.head = some '[') →
        other.Opens (· ≠ c)) →
      (∀ {other : Language (Round β)}, other.Opens (fun here => here.head = some '\x60') →
        other.Opens (· ≠ c)) →
      (∀ {next}, (Grammar.ignoredNode nested' >>= next : Language (Round β)).Opens (· ≠ c)) →
      language.Opens (· ≠ c)) :
    Spells (Pure.pure .stop) c ((do
      Language.sight .lineEnd
      return .stop) <|> language) := by
  have never (x : Char) (other : Sight.lineEnd.sees (some x) c.second = false) :
      c.head ≠ some x := by
    intro found
    rw [found, other] at ends
    cases ends
  refine left (sight_bind ends (pure _)) (others ?_ ?_ ?_)
  · exact fun opens => opens.ne (never '[' rfl)
  · exact fun opens => opens.ne (never '\x60' rfl)
  · exact ((Grammar.opens_ignoredNode spells.opens).bind _).ne fun opens => never '_' rfl opens.1

theorem lineElement (spells : nested.Spells nested') :
    Spells (lineElement nested) c (Grammar.lineElement nested') := by
  refine head_bind ?_
  have ends (here : Sight.lineEnd.sees c.head c.second = true) :
      Spells (Pure.pure .stop) c (Grammar.lineElement nested') := by
    refine stop_round spells here fun bracket quote ignored => ?_
    refine .orElse (bracket (spells.opens.bind _)) (.orElse (quote (opens_escaped.bind _)) ?_)
    exact .orElse ignored (((opens_sight _).bind _).ne (by simp [Sight.not_sees_text here]))
  split
  · next found => exact ends (by simp [Sight.sees, found])
  · next found => exact ends (by simp [Sight.sees, found])
  · next found => exact ends (by simp [Sight.sees, found])
  · next found => exact ends (by simp [Sight.sees, found])
  · next found =>
    refine right (((opens_sight _).bind _).ne (by simp [Sight.sees, found])) ?_
    refine left (spells.node found).map (.orElse ?_ (.orElse ?_ ?_))
    · exact (opens_escaped.bind _).ne (by simp [found])
    · exact ((Grammar.opens_ignoredNode spells.opens).bind _).ne (by simp [found])
    · exact ((opens_sight _).bind _).ne (by simp [Sight.sees, found, endsText])
  · next found =>
    refine right (((opens_sight _).bind _).ne (by simp [Sight.sees, found])) ?_
    refine right ((spells.opens.bind _).ne (by simp [found])) ?_
    refine left (escapedText found).map (.orElse ?_ ?_)
    · exact ((Grammar.opens_ignoredNode spells.opens).bind _).ne (by simp [found])
    · exact ((opens_sight _).bind _).ne (by simp [Sight.sees, found, endsText])
  · next x notReturn notFeed notClose notOpen notQuote found =>
    have plain : endsText x = false :=
      Parser.endsText_eq_false_iff.2 ⟨notReturn, notFeed, notQuote, notOpen, notClose⟩
    refine right (((opens_sight _).bind _).ne ?_) ?_
    · simpa [Sight.sees, found] using ⟨notReturn, notFeed, notClose⟩
    refine right ((spells.opens.bind _).ne (by simpa [found] using notOpen)) ?_
    refine right ((opens_escaped.bind _).ne (by simpa [found] using notQuote)) ?_
    exact textOrIgnored spells found ⟨notReturn, notFeed⟩ (by simp [Sight.sees, found, plain])

theorem textElement (spells : nested.Spells nested') :
    Spells (textElement nested) c (Grammar.textElement nested') := by
  refine head_bind ?_
  have ends (here : Sight.lineEnd.sees c.head c.second = true) :
      Spells (Pure.pure .stop) c (Grammar.textElement nested') := by
    refine stop_round spells here fun _ quote ignored => .orElse (quote (opens_escaped.bind _)) ?_
    exact .orElse ignored (((opens_sight _).bind _).ne (by simp [Sight.not_sees_text here]))
  split
  · next found => exact ends (by simp [Sight.sees, found])
  · next found => exact ends (by simp [Sight.sees, found])
  · next found => exact ends (by simp [Sight.sees, found])
  · next found => exact ends (by simp [Sight.sees, found])
  · next found =>
    refine right (((opens_sight _).bind _).ne (by simp [Sight.sees, found])) ?_
    refine left (escapedText found).map (.orElse ?_ ?_)
    · exact ((Grammar.opens_ignoredNode spells.opens).bind _).ne (by simp [found])
    · exact ((opens_sight _).bind _).ne (by simp [Sight.sees, found])
  · next x notReturn notFeed notClose notQuote found =>
    refine right (((opens_sight _).bind _).ne ?_) ?_
    · simpa [Sight.sees, found] using ⟨notReturn, notFeed, notClose⟩
    refine right ((opens_escaped.bind _).ne (by simpa [found] using notQuote)) ?_
    refine textOrIgnored spells found ⟨notReturn, notFeed⟩ ?_
    simp_all [Sight.sees]

theorem line (spells : nested.Spells nested') :
    Spells (line nested) c (Grammar.line nested') := by
  refine many (fun _ => lineElement spells) fun here => ?_
  refine (goes_stop _).orElse ?_
  refine ((spells.moves here).bind _).goes.orElse ?_
  refine (moves_escaped.bind _).goes.orElse ?_
  refine (Grammar.moves_ignoredNode.bind _).goes.orElse ?_
  exact (Moves.after fun _ _ => Grammar.moves_textRun.bind _).goes

theorem textElements (spells : nested.Spells nested') :
    Spells (textElements nested) c (Grammar.textElements nested') := by
  refine many (fun _ => textElement spells) fun _ => ?_
  refine (goes_stop _).orElse ?_
  refine (moves_escaped.bind _).goes.orElse ?_
  refine (Grammar.moves_ignoredNode.bind _).goes.orElse ?_
  exact (Moves.after fun _ _ => Grammar.moves_textRun.bind _).goes

/-- Where a line starts behind a gap, no line ends, so every line moves. -/
theorem moves_line (moves : ∀ here, nested'.node.Moves here) (skipped : trivia? c.rest = none)
    (sees : Sight.line.sees c.head c.second = true) : (Grammar.line nested').Moves c := by
  refine .rounds (.orElse (((opens_sight _).bind _).moves fun ends => ?_) ?_)
  · obtain same | same | same | same := Sight.head_of_lineEnd ends
    · simp [Sight.sees, same] at sees
    · have space := isSpace_of_trivia?_eq_none (Cursor.rest_of_head same ▸ skipped)
      simp [isSpace] at space
    · have space := isSpace_of_trivia?_eq_none (Cursor.rest_of_head same ▸ skipped)
      simp [isSpace] at space
    · simp [Sight.sees, same] at sees
  · exact .orElse ((moves c).bind _) <| .orElse (moves_escaped.bind _) <|
      .orElse (Grammar.moves_ignoredNode.bind _)
        (Moves.after fun _ _ => Grammar.moves_textRun.bind _)

/-- Every line moves, and so does the gap before it. -/
theorem goes_lineRound (moves : ∀ here, nested'.node.Moves here) :
    (Grammar.lineRound nested').Goes c := by
  refine .gap fun _ skipped => ?_
  refine (goes_stop _).orElse ?_
  refine .sight fun sees => ?_
  exact ((moves_line moves skipped sees).bind _).goes

theorem lineRound (spells : nested.Spells nested') :
    Spells (lineRound nested) c (Grammar.lineRound nested') := by
  refine skip.bind fun _ there _ _ _ => head_bind ?_
  have notLine (ends : Sight.blockEnd.sees there.head there.second = true) :
      (do
        Language.sight .line
        return .item (← Grammar.line nested') : Language (Round _)).Opens (· ≠ there) :=
    ((opens_sight _).bind _).ne fun sees => by
      simp only [Sight.sees] at ends sees
      simp [ends] at sees
  split
  · next found =>
    have ends : Sight.blockEnd.sees there.head there.second = true := by simp [Sight.sees, found]
    exact left (sight_bind ends (pure _)) (notLine ends)
  · next found =>
    have ends : Sight.blockEnd.sees there.head there.second = true := by simp [Sight.sees, found]
    exact left (sight_bind ends (pure _)) (notLine ends)
  · next x notClose found =>
    have other : x ≠ ']' := fun same => notClose same
    refine right (((opens_sight _).bind _).ne (by simp [Sight.sees, found, other])) ?_
    exact sight_bind (by simp [Sight.sees, found, other]) (line spells).map

theorem lines (spells : nested.Spells nested') :
    Spells (lines nested) c (Grammar.lines nested') :=
  many (fun _ => lineRound spells) fun _ => goes_lineRound spells.moves

theorem content (spells : nested.Spells nested') :
    Spells (content nested) c (Grammar.content nested') := by
  refine (preamble spells).bind fun _ _ _ _ _ => ?_
  exact (lines spells).map

/-! ### Nodes -/

theorem textNode {keyword : Option Word} (spells : nested.Spells nested') :
    Spells (textNode nested start keyword) c (Grammar.textNode nested' start keyword) := by
  refine classes.bind fun _ _ _ _ _ => ?_
  refine properties.bind fun _ _ _ _ _ => ?_
  exact (textElements spells).map

theorem typedNode {path : TypePath} (spells : nested.Spells nested') :
    Spells (typedNode nested start path) c (Grammar.typedNode nested' start path) := by
  refine classes.bind fun _ _ _ _ _ => ?_
  refine properties.bind fun _ _ _ _ _ => ?_
  exact (content spells).map

theorem namedNode {first : Word} (spells : nested.Spells nested') :
    Spells (namedNode nested start first) c (Grammar.namedNode nested' start first) := by
  have typed : Spells (do
      let steps ← Parser.childSteps
      Parser.skip
      Parser.typedNode nested start (.absolute first steps)) c (do
      let steps ← Grammar.childSteps
      Language.gap
      Grammar.typedNode nested' start (.absolute first steps)) :=
    childSteps.bind fun _ _ _ _ _ => skip.bind fun _ _ _ _ _ => typedNode spells
  unfold Parser.namedNode Grammar.namedNode
  cases Keyword.ofSpelling? first.content with
  | none => exact typed
  | some keyword =>
    cases keyword with
    | classes | defaults => exact typed
    | text => exact skip.bind fun _ _ _ _ _ => textNode spells
    | read => exact skip.bind fun _ _ _ _ _ => classes.bind fun _ _ _ _ _ => properties.map
    | inclusion =>
      exact skip.bind fun _ _ _ _ _ => classes.bind fun _ _ _ _ _ => properties.bind
        fun _ _ _ _ _ => (preamble spells).map
    | content =>
      exact skip.bind fun _ _ _ _ _ => name.bind fun _ _ _ _ _ => skip.bind
        fun _ _ _ _ _ => (preamble spells).map
    | value =>
      exact skip.bind fun _ _ _ _ _ => name.bind fun _ _ _ _ _ => skip.bind
        fun _ _ _ _ _ => pure _

theorem nodeBody (spells : nested.Spells nested') :
    Spells (nodeBody nested start) c (Grammar.nodeBody nested' start) := by
  refine head_bind ?_
  -- The four ways to go on are told apart by the head.
  have shown {β : Type} {signs : List Char} {next : Unit → Language β}
      (never : ∀ x ∈ signs, c.head ≠ some x) :
      (Language.sight (.shows signs) >>= next).Opens (· ≠ c) := by
    refine ((opens_sight _).bind _).ne fun sees => ?_
    obtain ⟨x, member, found⟩ := Sight.exists_of_shows sees
    exact never x member found
  have named {x : Char} {next : Word → Language Node} (found : c.head = some x)
      (never : isNameChar x = false) : (Language.name >>= next).Opens (· ≠ c) :=
    (opens_name.bind _).ne (by simp [found, never])
  have text (found : Sight.sees c.head c.second (.shows ['.', '\x7b']) = true) :
      Spells (Parser.textNode nested start none) c (Grammar.nodeBody nested' start) := by
    have either : c.head = some '.' ∨ c.head = some '\x7b' := Sight.head_of_shows_pair found
    refine right (shown ?_) (left (sight_bind found (textNode spells)) (.orElse (shown ?_) ?_))
    · rcases either with same | same <;> simp [same]
    · rcases either with same | same <;> simp [same]
    · rcases either with same | same
      · exact named same rfl
      · exact named same rfl
  split
  · next found =>
    refine left (sight_bind (by simp [Sight.sees, found]) (content spells).map) ?_
    exact .orElse (shown (by simp [found])) (.orElse (shown (by simp [found])) (named found rfl))
  · next found => exact text (by simp [Sight.sees, found])
  · next found => exact text (by simp [Sight.sees, found])
  · next found =>
    refine right (shown (by simp [found])) (right (shown (by simp [found])) ?_)
    refine left (sight_bind (by simp [Sight.sees, found]) ?_) (named found rfl)
    exact childSteps.bind fun _ _ _ _ _ => skip.bind fun _ _ _ _ _ => typedNode spells
  · next notContent notDot notBrace notStep =>
    refine right (shown (by simpa using notContent)) ?_
    refine right (shown (by simpa using ⟨notDot, notBrace⟩)) (right (shown (by simpa using notStep)) ?_)
    split
    · exact name.bind fun _ _ _ _ _ => namedNode spells
    · next missing => exact fail ((opens_name.bind _).ne missing)

theorem node (spells : nested.Spells nested') (found : c.head = some '[') :
    Spells (node nested) c (Grammar.node nested') :=
  position_bind <| advance_bind found (by decide) <| skip.bind fun _ _ _ _ _ => (nodeBody spells).bind
    fun _ _ _ _ _ => expect_bind (by decide) fun _ => pure _

end Spells

/-! ### Nesting -/

/-- The parsers of one level of nesting read the languages of it. -/
theorem spells_ofDepth (depth : Nat) :
    (Nested.ofDepth depth).Spells (Grammar.ofDepth depth) := by
  induction depth with
  | zero =>
    refine ⟨fun _ _ _ _ spelled _ => spelled.elim, fun _ _ _ _ spelled _ => spelled.elim, ?_, ?_⟩
    · exact fun _ => .of_failed rfl fun _ _ _ _ spelled _ => spelled.elim
    · exact .of_failed rfl fun _ _ _ _ spelled _ => spelled.elim
  | succ depth ih =>
    exact ⟨(opens_sign '[').bind _, fun _ => (moves_sign '[').bind _, Spells.node ih,
      Spells.content ih⟩

/-- **A whole source.** -/
theorem Spells.file {c : Cursor} {nested : Parser.Nested} {nested' : Grammar.Nested}
    (spells : nested.Spells nested') : Spells (file nested) c (Grammar.file nested') := by
  refine skip.bind fun _ _ _ _ _ => spells.content.bind fun _ there _ _ _ => head_bind ?_
  dsimp only
  split
  · next some =>
    refine fail_bind (((opens_sight _).bind _).ne fun sees => ?_)
    rw [Sight.head_of_sourceEnd sees] at some
    cases some
  · next none => exact sight_bind (by simpa [Sight.sees] using none) (pure _)

end Parser

namespace Content

variable {source : String} {content : Content}

/-- A source that is read is spelled, at no more levels of nesting than it has characters. -/
theorem flows_of_parse (parsed : parse source = .ok content) : ∃ lexemes last,
    Grammar.file (Grammar.ofDepth (source.length + 1)) content lexemes ∧
      (Cursor.ofString source).Flows lexemes last := by
  have ran := parse_eq source
  split at ran
  · next other last run =>
    obtain rfl : other = content := by simpa [parsed] using ran.1.symm
    have spells := Parser.Spells.file (Parser.spells_ofDepth (source.length + 1))
      (c := Cursor.ofString source)
    obtain ⟨lexemes, spelled, flows⟩ := (spells other last).1 run
    exact ⟨lexemes, last, spelled, flows⟩
  · simp [parsed] at ran
  · exact ran.elim

/-- **Reading a source is reading the language of whole sources.** -/
theorem parse_eq_ok_iff : parse source = .ok content ↔ ∃ depth lexemes last,
    Grammar.file (Grammar.ofDepth depth) content lexemes ∧
      (Cursor.ofString source).Flows lexemes last := by
  constructor
  · intro parsed
    obtain ⟨lexemes, last, spelled⟩ := flows_of_parse parsed
    exact ⟨_, lexemes, last, spelled⟩
  · rintro ⟨depth, lexemes, last, spelled, flows⟩
    have spells := Parser.Spells.file (Parser.spells_ofDepth depth) (c := Cursor.ofString source)
    exact parse_of_file ((spells content last).2 ⟨lexemes, spelled, flows⟩)

end Content

end TypedMarkup
