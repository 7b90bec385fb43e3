/-
**What may follow a construct.** Each construct of the grammar, once it is read, can be written again
before some characters: those with which the rest of what it stands in can go on or end.

* `Follow` names these characters for each kind of construct.
* `Language.Keeps language here follow`: whatever is spelled at a cursor can be written before them.
  It holds of a sequence if it holds of its parts (`Keeps.bind`), and only the last part matters if
  that is never empty (`Keeps.bind_moves`).
-/

import TypedMarkup.Proofs.Grammar.SpellsBlock
import TypedMarkup.Proofs.Grammar.Writes

namespace TypedMarkup

/-! ### What may follow -/

namespace Grammar.Follow

/-- What may follow a setting. -/
def setting : List (Option Char) := [some '\x7d']

/-- What may follow the parts of a preamble element. -/
def element : List (Option Char) := [some '>']

/-- What may follow a value. -/
def value : List (Option Char) := setting ++ element

/-- What may follow a block and the parts of a node. -/
def block : List (Option Char) := [some ']', none]

/-- What may follow classes and type paths. -/
def parts : List (Option Char) := some '\x7b' :: element ++ block

/-- What may follow a name. -/
def name : List (Option Char) := some '\n' :: parts

end Grammar.Follow

namespace Grammar

open TypedMarkup.Language

variable {nested : Nested} {here : Cursor}

/-! ### Constructs that are not empty -/

/-- Where a step to a child type is seen, there are some. -/
theorem moves_childSteps
    (step : (Sight.shows ['\\']).sees here.head here.second = true) : childSteps.Moves here := by
  refine .rounds (.orElse ((moves_sign _).bind _) (((opens_sight _).bind _).moves ?_))
  simp [Sight.sees, Sight.head_of_shows step]

/-- Where classes or properties are seen, a text node is not empty. -/
theorem moves_textNode {start : Position} {keyword : Option Word}
    (sees : (Sight.shows ['.', '\x7b']).sees here.head here.second = true) :
    (textNode nested start keyword).Moves here := by
  have either : here.head = some '.' ∨ here.head = some '\x7b' := Sight.head_of_shows_pair sees
  rcases either with dot | brace
  · refine .bind (.rounds (.orElse ((((moves_sign _).bind _).bind _)) ?_)) _
    exact ((opens_sight _).bind _).moves (by simp [Sight.sees, dot])
  · refine .later fun _ => .bind (.orElse (((moves_sign _).bind _).bind _) ?_) _
    exact ((opens_sight _).bind _).moves (by simp [Sight.sees, brace])

/-- Where a preamble is seen, a block is not empty. -/
theorem moves_content (sees : (Sight.shows ['<']).sees here.head here.second = true) :
    (content nested).Moves here := by
  have angle : here.head = some '<' := Sight.head_of_shows sees
  refine .bind (.rounds (.orElse (((moves_sign _).bind _).bind _) ?_)) _
  exact ((opens_sight _).bind _).moves (by simp [Sight.sees, angle])

end Grammar

namespace Language

open Lexeme (Kept)

variable {α β : Type} {here : Cursor} {language second : Language α}
  {follow less : List (Option Char)}

/-- Whatever is spelled at a cursor can be written before what may follow. -/
def Keeps (language : Language α) (here : Cursor) (follow : List (Option Char)) : Prop :=
  ∀ a lexemes d, language a lexemes → here.Flows lexemes d → Kept here lexemes d follow

namespace Keeps

theorem mono (keeps : language.Keeps here follow) (sub : less ⊆ follow) :
    language.Keeps here less := by
  intro a lexemes d spelled flows
  exact (keeps a lexemes d spelled flows).mono sub

theorem pure (a : α) : (Pure.pure a : Language α).Keeps here follow := by
  rintro _ _ d ⟨rfl, rfl⟩ rfl
  exact .nil

/-- **One after the other.** -/
theorem bind {next : α → Language β} (first : language.Keeps here follow)
    (rest : ∀ a there, (next a).Keeps there follow) : (language >>= next).Keeps here follow := by
  rintro b _ d ⟨a, before, after, spelled, spelled', rfl⟩ flows
  obtain ⟨middle, flows, flows'⟩ := Cursor.flows_append.1 flows
  exact (first a before middle spelled flows).append flows flows'
    (rest a middle b after d spelled' flows')

/-- Before something with characters, it does not matter what may follow. -/
theorem bind_moves {next : α → Language β} (first : language.Keeps here less)
    (moves : ∀ a there, (next a).Moves there)
    (rest : ∀ a there, (next a).Keeps there follow) : (language >>= next).Keeps here follow := by
  rintro b _ d ⟨a, before, after, spelled, spelled', rfl⟩ flows
  obtain ⟨middle, flows, flows'⟩ := Cursor.flows_append.1 flows
  refine Kept.append' flows (rest a middle b after d spelled' flows')
    (fun rest' like => (first a before middle spelled flows).like _ (flows'.rest_eq.1 ▸ like)) ?_
  intro none
  have shorter := moves a middle b after d spelled' flows'
  rw [flows'.rest_eq.1, none] at shorter
  exact absurd shorter (Nat.lt_irrefl _)

theorem map {f : α → β} (first : language.Keeps here follow) :
    (language >>= fun a => Pure.pure (f a)).Keeps here follow :=
  first.bind fun a _ => pure (f a)

theorem orElse (first : language.Keeps here follow) (later : second.Keeps here follow) :
    (language <|> second).Keeps here follow := by
  rintro a lexemes d (spelled | spelled) flows
  · exact first a lexemes d spelled flows
  · exact later a lexemes d spelled flows

theorem nothing : (nothing : Language α).Keeps here follow :=
  fun _ _ _ spelled => spelled.elim

theorem guard {holds : Prop} : (guard holds).Keeps here follow := by
  rintro _ _ d ⟨_, rfl⟩ rfl
  exact .nil

/-! ### Lexemes -/

theorem gap (ends : (LexemeKind.gap false).Ends follow) : gap.Keeps here follow := by
  rintro _ _ d ⟨start, text, rfl⟩ ⟨stands, rfl⟩
  exact .single stands ends fun same => LexemeKind.noConfusion same

theorem sign {x : Char} (ends : LexemeKind.sign.Ends follow) : (sign x).Keeps here follow := by
  rintro start _ d rfl ⟨stands, rfl⟩
  exact .single stands ends fun same => LexemeKind.noConfusion same

theorem anySign (ends : LexemeKind.sign.Ends follow) : anySign.Keeps here follow := by
  rintro start _ d rfl ⟨stands, rfl⟩
  exact .single stands ends fun same => LexemeKind.noConfusion same

theorem name (ends : LexemeKind.name.Ends follow) : name.Keeps here follow := by
  rintro word _ d rfl ⟨stands, rfl⟩
  exact .single stands ends fun same => LexemeKind.noConfusion same

theorem literal (ends : LexemeKind.literal.Ends follow) : literal.Keeps here follow := by
  rintro word _ d rfl ⟨stands, rfl⟩
  exact .single stands ends fun same => LexemeKind.noConfusion same

theorem escaped (ends : LexemeKind.sign.Ends follow) : escaped.Keeps here follow := by
  rintro text _ d ⟨passed, rfl, _⟩ ⟨stands, rfl⟩
  exact .single stands ends fun same => LexemeKind.noConfusion same

theorem sight {seen : Sight} (ends : (LexemeKind.sight seen).Ends follow) :
    (sight seen).Keeps here follow := by
  rintro _ _ d ⟨start, rfl⟩ ⟨stands, rfl⟩
  exact .single stands ends fun same => LexemeKind.noConfusion same

/-- Something seen in what has characters. -/
theorem sight_bind {seen : Sight}
    (moves : seen.sees here.head here.second = true → language.Moves here)
    (rest : language.Keeps here follow) :
    (Language.sight seen >>= fun _ => language).Keeps here follow := by
  rintro a _ d ⟨_, _, after, ⟨start, rfl⟩, spelled, rfl⟩ ⟨stands, flows⟩
  have none : (LexemeKind.sight seen).Ends [] := fun _ member => absurd member List.not_mem_nil
  have first : Kept here [⟨.sight seen, start, []⟩] here [] :=
    .single stands none fun same => LexemeKind.noConfusion same
  have begins : here.Flows [⟨.sight seen, start, []⟩] here := ⟨stands, rfl⟩
  have flows : here.Flows after d := flows
  refine Kept.append' begins (rest a after d spelled flows) (fun rest' like =>
    first.like _ (flows.rest_eq.1 ▸ like)) fun empty => ?_
  have shorter := moves stands.2.2 a after d spelled flows
  rw [flows.rest_eq.1, empty] at shorter
  exact absurd shorter (Nat.lt_irrefl _)

/-- Behind a gap the trivia of the source have ended. -/
theorem gap_bind {next : Unit → Language α} (ends : (LexemeKind.gap false).Ends follow)
    (rest : ∀ there, trivia? there.rest = none → (next ()).Keeps there follow) :
    (Language.gap >>= next).Keeps here follow := by
  rintro a _ d ⟨_, before, after, spelled, spelled', rfl⟩ flows
  obtain ⟨middle, flows, flows'⟩ := Cursor.flows_append.1 flows
  exact (gap ends () before middle spelled flows).append flows flows'
    (rest middle (gap_ends spelled flows) a after d spelled' flows')

/-! ### Repetitions -/

open TypedMarkup.Parser (Round)

theorem rounds {round : Language (Round α)} (each : ∀ there, round.Keeps there follow) :
    (rounds round).Keeps here follow := by
  intro items lexemes d spelled flows
  induction spelled generalizing here with
  | stop last => exact each here _ _ d last flows
  | pass first later ih =>
    obtain ⟨middle, flows, flows'⟩ := Cursor.flows_append.1 flows
    exact (each here _ _ middle first flows).append flows flows' (ih flows')
  | item first later ih =>
    obtain ⟨middle, flows, flows'⟩ := Cursor.flows_append.1 flows
    exact (each here _ _ middle first flows).append flows flows' (ih flows')

/-- Items up to a place where something is seen. -/
theorem items {item : Language (Round α)} {seen : Sight}
    (each : ∀ there, item.Keeps there follow) (ends : (LexemeKind.sight seen).Ends follow) :
    (Language.rounds (item <|> (do
      Language.sight seen
      return .stop))).Keeps here follow := by
  refine rounds fun there => ?_
  refine (each there).orElse ?_
  exact (sight ends).map

theorem kept (inside : language.Keeps here follow) : (kept language).Keeps here follow := by
  rintro a _ d ⟨lexemes, spelled, rfl⟩ flows
  exact (inside a lexemes d spelled (Cursor.flows_keep.1 flows)).keep

/-! ### Classes and type paths -/

open Grammar (Follow.setting Follow.element Follow.value Follow.parts Follow.block)

/-- A sign with a name behind it. -/
theorem sign_name {x : Char} {f : Position → Word → α} (ends : LexemeKind.sign.Ends follow)
    (ends' : LexemeKind.name.Ends follow) : (do
      let start ← Language.sign x
      return f start (← Language.name)).Keeps here follow := by
  refine (sign ends).bind fun _ _ => ?_
  exact (name ends').map

theorem classItem : (do
    let read ← Grammar.classRef
    Language.gap
    return Round.item read).Keeps here Follow.parts := by
  refine (sign_name (by decide) (by decide)).bind fun _ _ => ?_
  exact (gap (by decide)).map

theorem classes : Grammar.classes.Keeps here Follow.parts :=
  items (fun _ => classItem) (by decide)

theorem childSteps : Grammar.childSteps.Keeps here Follow.parts :=
  items (fun _ => sign_name (by decide) (by decide)) (by decide)

theorem typePath : Grammar.typePath.Keeps here Follow.parts := by
  refine (gap (by decide)).bind fun _ there => orElse ?_ (orElse ?_ ?_)
  · exact sight_bind (fun step => (Grammar.moves_childSteps step).bind _) childSteps.map
  · exact (name (by decide)).bind fun _ _ => childSteps.map
  · exact (sight (by decide)).map

theorem typePaths : Grammar.typePaths.Keeps here Follow.parts :=
  rounds fun _ => typePath

/-! ### Properties -/

theorem boundValue : Grammar.boundValue.Keeps here Follow.value := by
  refine (sign (by decide)).bind fun _ _ => ?_
  refine (gap (by decide)).bind fun _ _ => ?_
  refine (name (by decide)).bind fun _ _ => ?_
  refine guard.bind fun _ _ => ?_
  refine (gap (by decide)).bind fun _ _ => ?_
  refine (name (by decide)).bind fun _ _ => ?_
  refine (gap (by decide)).bind fun _ _ => ?_
  exact (sign (by decide)).map

theorem value : Grammar.value.Keeps here Follow.value := by
  refine boundValue.orElse ?_
  refine (escaped (by decide)).map.orElse ?_
  exact (literal (by decide)).map

theorem setting : Grammar.setting.Keeps here Follow.setting := by
  refine (gap (by decide)).bind fun _ _ => orElse ?_ (orElse ?_ ?_)
  · exact (sight (by decide)).map
  · exact map (sign_name (by decide) (by decide))
  · refine map ((name (by decide)).bind fun _ _ => (gap (by decide)).bind fun _ _ => orElse ?_ ?_)
    · exact (sign (by decide)).bind fun _ _ => (gap (by decide)).bind fun _ _ =>
        (value.mono (by decide)).map
    · exact (sight (by decide)).map

theorem settings : Grammar.settings.Keeps here Follow.setting :=
  rounds fun _ => setting

theorem mainValue : Grammar.mainValue.Keeps here Follow.setting := by
  refine orElse ?_ ?_
  · refine (sign (by decide)).bind fun _ _ => ?_
    refine (gap (by decide)).bind fun _ _ => ?_
    exact (value.mono (by decide)).map
  · exact (sight (by decide)).map

theorem propertyBlock (ends : LexemeKind.sign.Ends follow) :
    Grammar.propertyBlock.Keeps here follow := by
  refine (sign ends).bind fun _ _ => ?_
  refine bind_moves (gap (by decide : (LexemeKind.gap false).Ends [])) ?_ fun _ _ => ?_
  · exact fun _ _ => .after fun _ _ => .after fun _ _ => (moves_sign '\x7d').bind _
  refine bind_moves mainValue (fun _ _ => .after fun _ _ => (moves_sign '\x7d').bind _) fun _ _ => ?_
  exact bind_moves settings (fun _ _ => (moves_sign '\x7d').bind _) fun _ _ => (sign ends).map

theorem properties : Grammar.properties.Keeps here Follow.block := by
  refine orElse ?_ ?_
  · refine (propertyBlock (by decide)).bind fun _ _ => ?_
    exact (gap (by decide)).map
  · exact (sight (by decide)).map

/-! ### Preambles -/

theorem declaredProperties {uses : List ClassRef} :
    (Grammar.declaredProperties uses).Keeps here Follow.element := by
  refine orElse ?_ ?_
  · exact (propertyBlock (by decide)).map
  · refine (sight (by decide)).bind fun _ _ => ?_
    exact guard.map

theorem fallbackMark : Grammar.fallbackMark.Keeps here [some 'v'] := by
  refine orElse ?_ ?_
  · refine (sign (by decide)).bind fun _ _ => ?_
    exact (gap (by decide)).map
  · exact (sight (by decide)).map

end Keeps

end Language

/-! ### Blocks and nodes -/

namespace Grammar

/-- Nodes are never empty, and what is nested deeper can be written before what may follow it. -/
structure Nested.Keeps (nested : Nested) : Prop where
  moves : ∀ here, nested.node.Moves here
  node : ∀ here follow, LexemeKind.sign.Ends follow → nested.node.Keeps here follow
  content : ∀ here, nested.content.Keeps here Follow.block

end Grammar

namespace Language.Keeps

open Lexeme (Kept)

open TypedMarkup.Parser (Round)
open Grammar (Follow.setting Follow.element Follow.value Follow.parts Follow.block)

variable {nested : Grammar.Nested} {here : Cursor} {follow : List (Option Char)}
  (deeper : nested.Keeps)

include deeper

theorem directive : (Grammar.directive nested).Keeps here Follow.element := by
  have declared {β : Type} {next : List TypePath → List ClassRef → Option PropertyBlock → β}
      {here : Cursor} : (do
        let targets ← Grammar.typePaths
        let uses ← Grammar.classes
        return next targets uses (← Grammar.declaredProperties uses)).Keeps here Follow.element :=
    (typePaths.mono (by decide)).bind fun _ _ => (classes.mono (by decide)).bind fun _ _ =>
      declaredProperties.map
  refine (name (by decide)).bind fun keyword _ => (gap (by decide)).bind fun _ _ => ?_
  cases Keyword.ofSpelling? keyword.content with
  | none => exact nothing
  | some keyword =>
    cases keyword with
    | classes =>
      exact (sign_name (by decide) (by decide)).bind fun _ _ => (gap (by decide)).bind
        fun _ _ => declared
    | content =>
      refine (name (by decide)).bind fun _ _ => (gap (by decide)).bind fun _ _ => ?_
      refine (sign (by decide)).bind fun _ _ => (gap (by decide)).bind fun _ _ => ?_
      exact bind_moves (deeper.content _) (fun _ _ => (moves_sign ']').bind _) fun _ _ =>
        (sign (by decide)).map
    | defaults => exact declared
    | value =>
      exact (name (by decide)).bind fun _ _ => (gap (by decide)).bind fun _ _ =>
        (value.mono (by decide)).map
    | text | read | inclusion => exact nothing

theorem preambleElement : (Grammar.preambleElement nested).Keeps here Follow.block := by
  refine (sign (by decide)).bind fun _ _ => (gap (by decide)).bind fun _ _ => ?_
  refine bind_moves fallbackMark (fun _ _ => (moves_name.bind _).bind _) fun _ _ => ?_
  refine bind_moves (directive deeper) (fun _ _ => .after fun _ _ => (moves_sign '>').bind _) ?_
  exact fun _ _ => (gap (by decide)).bind fun _ _ => (sign (by decide)).map

theorem preamble : (Grammar.preamble nested).Keeps here Follow.block := by
  refine items (fun _ => ?_) (by decide)
  refine (preambleElement deeper).bind fun _ _ => ?_
  exact (gap (by decide)).map

/-! ### Text -/

theorem ignoredNode : (Grammar.ignoredNode nested).Keeps here Follow.block := by
  refine (sign (by decide)).bind fun _ _ => ?_
  exact (kept (deeper.node _ _ (by decide))).map

omit deeper in
/-- Two characters of an ignored node are its sign and the bracket behind it. -/
theorem two_le_of_ignoredNode (moves : ∀ here, nested.node.Moves here) {a : Unit}
    {lexemes : List Lexeme} {d : Cursor} (spelled : Grammar.ignoredNode nested a lexemes)
    (flows : here.Flows lexemes d) : d.rest.length + 2 ≤ here.rest.length := by
  obtain ⟨start, _, _, rfl, ⟨node, _, _, ⟨inside, spelled, rfl⟩, ⟨_, rfl⟩, rfl⟩, rfl⟩ := spelled
  obtain ⟨middle, sign, flows⟩ := Cursor.flows_append.1 flows
  rw [List.append_nil, Cursor.flows_keep] at flows
  have first := sign.shorter ⟨_, List.mem_singleton_self _, rfl⟩
  have second := moves middle node inside d spelled flows
  omega

omit deeper in
/-- Where an ignored node stands, no other piece of text does. -/
theorem two_le_of_textPiece (moves : ∀ here, nested.node.Moves here) (mark : here.head = some '_')
    (bracket : here.second = some '[') {result : Round (List Char)} {lexemes : List Lexeme}
    {d : Cursor} (spelled : Grammar.textPiece nested result lexemes)
    (flows : here.Flows lexemes d) : d.rest.length + 2 ≤ here.rest.length := by
  rcases spelled with ends | node | plain
  · have sees := (opens_sight .textEnd).bind _ _ _ _ _ ends flows
    rw [mark] at sees
    cases sees
  · obtain ⟨_, node, _⟩ := map_iff.1 node
    exact two_le_of_ignoredNode moves node flows
  · obtain ⟨_, _, _, other⟩ := Grammar.opens_plain.bind _ _ _ _ _ plain flows
    simp [Sight.isIgnored, mark, bracket] at other

/-- Plain text may end before an ignored node, and then that is the next piece. -/
theorem textPieces : (Language.rounds (Grammar.textPiece nested)).Keeps here Follow.block := by
  intro pieces lexemes d spelled flows
  induction spelled generalizing here with
  | stop last =>
    rcases last with last | ⟨_, _, _, _, ⟨same, _⟩, _⟩ | ⟨_, _, _, _, ⟨same, _⟩, _⟩
    · exact (sight (by decide)).map _ _ d last flows
    · cases same
    · cases same
  | pass first later ih =>
    rcases first with ⟨_, _, _, _, ⟨same, _⟩, _⟩ | first | ⟨_, _, _, _, ⟨same, _⟩, _⟩
    · cases same
    · obtain ⟨middle, flows, flows'⟩ := Cursor.flows_append.1 flows
      exact ((ignoredNode deeper).map _ _ middle first flows).append flows flows' (ih flows')
    · cases same
  | @item _ _ _ more first later ih =>
    rcases first with ⟨_, _, _, _, ⟨same, _⟩, _⟩ | ⟨_, _, _, _, ⟨same, _⟩, _⟩ | first
    · cases same
    · cases same
    obtain ⟨text, ⟨start, rfl⟩, _⟩ := map_iff.1 first
    obtain ⟨middle, flows, flows'⟩ := Cursor.flows_append.1 flows
    obtain ⟨stands, rfl⟩ := flows
    have ends := Parser.plainText_ends here.rest
    rw [← stands.2.1] at ends
    rcases Parser.plainText_eq_nil.1 ends with ends | node
    · have plain : LexemeKind.plain.Ends Follow.block := by decide
      exact .append ⟨stands, rfl⟩ flows' (.single stands plain fun _ => ends) (ih flows')
    have long : 2 ≤ (Lexeme.textOf more).length := by
      have sees : (here.behind text).head = some '_' ∧ (here.behind text).second = some '[' := node
      obtain ⟨_, piece, more', spelled, rfl⟩ := rounds_first later
      obtain ⟨there, flows, flows''⟩ := Cursor.flows_append.1 flows'
      have two := two_le_of_textPiece deeper.moves sees.1 sees.2 spelled flows
      rw [flows.rest_eq.1, List.length_append] at two
      rw [Lexeme.textOf_append, List.length_append]
      omega
    refine .append' ⟨stands, rfl⟩ (ih flows') (fun rest' _ => ?_) fun none => ?_
    · refine Lexeme.writes_of_beginsSame ⟨stands, rfl⟩ ?_
      rw [flows'.rest_eq.1]
      exact Text.beginsSame_of_front long _ _
    · rw [none] at long
      cases long

theorem textRun : (Grammar.textRun nested).Keeps here Follow.block := by
  refine (anySign (by decide)).bind fun _ _ => ?_
  exact (textPieces deeper).map

/-! ### Lines -/

theorem textOrIgnored {α : Type} {seen : Sight} {made : TextRun → α} :
    ((do
      Grammar.ignoredNode nested
      return .pass) <|> (do
      Language.sight seen
      return .item (made (← Grammar.textRun nested))) : Language (Round α)).Keeps here
        Follow.block := by
  refine orElse (ignoredNode deeper).map ?_
  exact sight_bind (fun _ => Grammar.moves_textRun.bind _) (textRun deeper).map

theorem lineElement : (Grammar.lineElement nested).Keeps here Follow.block := by
  refine (sight (by decide)).map.orElse ?_
  refine (deeper.node _ _ (by decide)).map.orElse ?_
  refine (escaped (by decide)).map.orElse ?_
  exact textOrIgnored deeper

theorem line : (Grammar.line nested).Keeps here Follow.block :=
  rounds fun _ => lineElement deeper

theorem textElement : (Grammar.textElement nested).Keeps here Follow.block := by
  refine (sight (by decide)).map.orElse ?_
  refine (escaped (by decide)).map.orElse ?_
  exact textOrIgnored deeper

theorem textElements : (Grammar.textElements nested).Keeps here Follow.block :=
  rounds fun _ => textElement deeper

theorem lineRound : (Grammar.lineRound nested).Keeps here Follow.block := by
  refine gap_bind (by decide) fun there clear => orElse (sight (by decide)).map ?_
  refine sight_bind (fun sees => ?_) (line deeper).map
  exact (Parser.Spells.moves_line deeper.moves clear sees).bind _

theorem lines : (Grammar.lines nested).Keeps here Follow.block :=
  rounds fun _ => lineRound deeper

theorem content : (Grammar.content nested).Keeps here Follow.block := by
  refine (preamble deeper).bind fun _ _ => ?_
  exact (lines deeper).map

/-! ### Nodes -/

theorem textNode {start : Position} {keyword : Option Word} :
    (Grammar.textNode nested start keyword).Keeps here Follow.block := by
  refine (classes.mono (by decide)).bind fun _ _ => ?_
  refine properties.bind fun _ _ => ?_
  exact (textElements deeper).map

theorem typedNode {start : Position} {path : TypePath} :
    (Grammar.typedNode nested start path).Keeps here Follow.block := by
  refine (classes.mono (by decide)).bind fun _ _ => ?_
  refine properties.bind fun _ _ => ?_
  exact (content deeper).map

theorem namedNode {start : Position} {first : Word} :
    (Grammar.namedNode nested start first).Keeps here Follow.block := by
  have typed : (do
      let steps ← Grammar.childSteps
      Language.gap
      Grammar.typedNode nested start (.absolute first steps)).Keeps here Follow.block :=
    (childSteps.mono (by decide)).bind fun _ _ => (gap (by decide)).bind fun _ _ =>
      typedNode deeper
  unfold Grammar.namedNode
  cases Keyword.ofSpelling? first.content with
  | none => exact typed
  | some keyword =>
    cases keyword with
    | classes | defaults => exact typed
    | text => exact (gap (by decide)).bind fun _ _ => textNode deeper
    | read =>
      exact (gap (by decide)).bind fun _ _ => (classes.mono (by decide)).bind fun _ _ =>
        properties.map
    | inclusion =>
      exact (gap (by decide)).bind fun _ _ => (classes.mono (by decide)).bind fun _ _ =>
        properties.bind fun _ _ => (preamble deeper).map
    | content =>
      exact (gap (by decide)).bind fun _ _ => (name (by decide)).bind fun _ _ =>
        (gap (by decide)).bind fun _ _ => (preamble deeper).map
    | value =>
      exact (gap (by decide)).bind fun _ _ => (name (by decide)).bind fun _ _ => (gap (by decide)).map

theorem nodeBody {start : Position} :
    (Grammar.nodeBody nested start).Keeps here Follow.block := by
  refine orElse ?_ (orElse ?_ (orElse ?_ ?_))
  · exact sight_bind (fun sees => (Grammar.moves_content sees).bind _)
      (content deeper).map
  · exact sight_bind Grammar.moves_textNode (textNode deeper)
  · exact sight_bind (fun step => (Grammar.moves_childSteps step).bind _)
      ((childSteps.mono (by decide)).bind fun _ _ => (gap (by decide)).bind fun _ _ =>
        typedNode deeper)
  · exact (name (by decide)).bind fun _ _ => namedNode deeper

theorem node (ends : LexemeKind.sign.Ends follow) : (Grammar.node nested).Keeps here follow := by
  refine (sign ends).bind fun _ _ => ?_
  refine bind_moves (gap (by decide : (LexemeKind.gap false).Ends [])) ?_ fun _ _ => ?_
  · exact fun _ _ => .after fun _ _ => (moves_sign ']').bind _
  · exact bind_moves (nodeBody deeper) (fun _ _ => (moves_sign ']').bind _) fun _ _ =>
      (sign ends).map

end Language.Keeps

namespace Grammar

/-- What is nested to any depth can be written before what may follow it. -/
theorem keeps_ofDepth (depth : Nat) : (ofDepth depth).Keeps := by
  induction depth with
  | zero => exact ⟨fun _ _ _ _ spelled => spelled.elim, fun _ _ _ => .nothing, fun _ => .nothing⟩
  | succ depth ih =>
    exact ⟨fun _ => (Language.moves_sign '[').bind _, fun _ _ ends => .node ih ends,
      fun _ => .content ih⟩

end Grammar

end TypedMarkup
