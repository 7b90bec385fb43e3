/-
**Lexers and languages.** A logic for lexers that go over what is spelled in a language, one rule
for each way to build one. It also says which text the tokens have when comments are blank.

* `Lexer.Lexes lexer state language say`: where lexemes that spell a result flow from the cursor, the
  lexer goes over them and says `say` of the result. Blank comments in the tokens are the blank
  comments of the gaps.
* `Lexes.bind` chains lexers, `Lexes.orElse` covers either of two languages, and `Lexes.repeats`
  repeats steps, of which one lexeme may take several (`Lexer.Advances`).
-/

import TypedMarkup.Proofs.Grammar.Blanks
import TypedMarkup.Proofs.Token.AgreesBlock

namespace TypedMarkup

/-- The text of a token, blank if it is a comment. -/
def Token.blanked (token : Token) : List Char :=
  if token.kind = .comment then Text.blank token.text.toList else token.text.toList

/-- Whether rounds go on behind one of them. -/
def Parser.Round.goesOn {α : Type} : Round α → Bool
  | .stop => false
  | .pass => true
  | .item _ => true

namespace Lexer

open TypedMarkup.Parser (Round)

/-! ### States -/

namespace State

/-- The text of all tokens cut so far, with blank comments. -/
def blanked (state : State) : List Char :=
  state.tokens.reverse.flatMap Token.blanked

/-- A state behind some lexemes, whose texts have become tokens. -/
structure Behind (state : State) (lexemes : List Lexeme) (after : State) : Prop where
  flows : state.cursor.Flows lexemes after.cursor
  text : after.blanked = state.blanked ++ state.cursor.blanked lexemes

variable {state middle after : State} {lexemes more : List Lexeme}

theorem blanked_cut {kind : TokenKind} (solid : kind ≠ .comment) (depth : Option Nat)
    (text : List Char) : (state.cut kind depth text).blanked = state.blanked ++ text := by
  simp [blanked, cut, Token.blanked, solid]

namespace Behind

theorem refl (state : State) : state.Behind [] state :=
  ⟨rfl, (List.append_nil _).symm⟩

theorem trans (first : state.Behind lexemes middle) (second : middle.Behind more after) :
    state.Behind (lexemes ++ more) after where
  flows := first.flows.append second.flows
  text := by
    rw [second.text, first.text, first.flows.blanked_append, List.append_assoc]

/-- Something that is seen has no text. -/
theorem sight {seen : Sight} {start : Position}
    (stands : Lexeme.Stands state.cursor ⟨.sight seen, start, []⟩)
    (later : state.Behind lexemes after) :
    state.Behind (⟨.sight seen, start, []⟩ :: lexemes) after :=
  ⟨⟨stands, later.flows⟩, later.text⟩

end Behind

end State

/-! ### Sequences -/

variable {α β γ δ : Type} {lexer : Lexer β} {state : State} {language second : Language α}
  {say : α → β}

/-- A lexer goes over what is spelled in a language. -/
def Lexes (lexer : Lexer β) (state : State) (language : Language α) (say : α → β) : Prop :=
  ∀ a lexemes d, language a lexemes → state.cursor.Flows lexemes d →
    ∃ after, lexer.run.run state = (.ok (say a), after) ∧ after.cursor = d ∧
      state.Behind lexemes after

/-- What lexers without a result say. -/
def done : α → Unit :=
  fun _ => ()

namespace Lexes

theorem pure {a : α} {b : β} (same : b = say a) : Lexes (Pure.pure b) state (Pure.pure a) say := by
  rintro _ _ d ⟨rfl, rfl⟩ flows
  obtain rfl : d = state.cursor := flows
  exact ⟨state, by rw [same]; rfl, rfl, .refl state⟩

/-- **One lexer after another.** -/
theorem bind {next : β → Lexer δ} {next' : α → Language γ} {say' : γ → δ}
    (first : Lexes lexer state language say)
    (rest : ∀ a before after, language a before → state.cursor.Flows before after.cursor →
      Lexes (next (say a)) after (next' a) say') :
    Lexes (lexer >>= next) state (language >>= next') say' := by
  rintro c _ d ⟨a, before, later, spelled, spelled', rfl⟩ flows
  obtain ⟨there, flows, flows'⟩ := Cursor.flows_append.1 flows
  obtain ⟨middle, run, rfl, behind⟩ := first a before there spelled flows
  obtain ⟨after, run', same, behind'⟩ :=
    rest a before middle spelled flows c later d spelled' flows'
  exact ⟨after, by rw [run_bind, run]; exact run', same, behind.trans behind'⟩

/-- A result put into another. -/
theorem map {lexer : Lexer Unit} {f : α → γ} (lexes : Lexes lexer state language done) :
    Lexes lexer state (language >>= fun a => Pure.pure (f a)) done := by
  have both : Lexes (lexer >>= Pure.pure) state (language >>= fun a => Pure.pure (f a)) done :=
    lexes.bind fun _ _ _ _ _ => pure rfl
  rwa [bind_pure] at both

theorem congr {lexer' : Lexer β} (lexes : Lexes lexer state language say)
    (same : lexer'.run.run state = lexer.run.run state) : Lexes lexer' state language say := by
  intro a lexemes d spelled flows
  rw [same]
  exact lexes a lexemes d spelled flows

/-- Nothing is spelled where the language does not open. -/
theorem opens {first : Cursor → Prop} (opens : language.Opens first)
    (lexes : first state.cursor → Lexes lexer state language say) :
    Lexes lexer state language say := by
  intro a lexemes d spelled flows
  exact lexes (opens a lexemes state.cursor d spelled flows) a lexemes d spelled flows

theorem orElse (left : Lexes lexer state language say) (right : Lexes lexer state second say) :
    Lexes lexer state (language <|> second) say := by
  rintro a lexemes d (spelled | spelled) flows
  · exact left a lexemes d spelled flows
  · exact right a lexemes d spelled flows

/-- Either of two languages, and what follows. -/
theorem orElse_bind {next : α → Language γ} {say : γ → β}
    (left : Lexes lexer state (language >>= next) say)
    (right : Lexes lexer state (second >>= next) say) :
    Lexes lexer state ((language <|> second) >>= next) say := by
  rintro c _ d ⟨a, before, after, spelled | spelled, later, rfl⟩ flows
  · exact left c _ d ⟨a, before, after, spelled, later, rfl⟩ flows
  · exact right c _ d ⟨a, before, after, spelled, later, rfl⟩ flows

/-! ### Looking -/

theorem head_bind {next : Option Char → Lexer β}
    (lexes : Lexes (next state.cursor.head) state language say) :
    Lexes (head >>= next) state language say :=
  lexes.congr (run_head_bind next state)

theorem rest_bind {next : List Char → Lexer β}
    (lexes : Lexes (next state.cursor.rest) state language say) :
    Lexes (rest >>= next) state language say :=
  lexes.congr (run_rest_bind next state)

theorem sight_bind {seen : Sight} {next : Unit → Language α}
    (lexes : seen.sees state.cursor.head state.cursor.second = true →
      Lexes lexer state (next ()) say) :
    Lexes lexer state (Language.sight seen >>= next) say := by
  rintro a _ d ⟨_, _, later, ⟨start, rfl⟩, spelled, rfl⟩ ⟨stands, flows⟩
  obtain ⟨after, run, same, behind⟩ := lexes stands.2.2 a later d spelled flows
  exact ⟨after, run, same, .sight stands behind⟩

theorem guard_bind {holds : Prop} {next : Unit → Language α}
    (lexes : holds → Lexes lexer state (next ()) say) :
    Lexes lexer state (Language.guard holds >>= next) say := by
  rintro a _ d ⟨_, _, later, ⟨here, none⟩, spelled, rfl⟩ flows
  subst none
  exact lexes here a later d spelled flows

/-! ### Cutting -/

/-- A lexeme that becomes a token as it is. -/
theorem cut {lexer : Lexer Unit} {kind : TokenKind} {depth : Option Nat} {x : Lexeme}
    {d : Cursor} {after : State} (solid : kind ≠ .comment) (same : x.blankedAt state.cursor = x.text)
    (flows : state.cursor.Flows [x] d)
    (run : lexer.run.run state = (.ok (), after))
    (cursor : after.cursor = (state.cut kind depth x.text).cursor)
    (tokens : after.tokens = (state.cut kind depth x.text).tokens) :
    ∃ after, lexer.run.run state = (.ok (), after) ∧ after.cursor = d ∧
      state.Behind [x] after := by
  obtain ⟨stands, rfl⟩ := Cursor.flows_singleton.1 flows
  refine ⟨after, run, cursor, ⟨stands, cursor⟩, ?_⟩
  have text : (state.cut kind depth x.text).blanked = _ := State.blanked_cut solid depth x.text
  rw [Cursor.blanked_cons, Cursor.blanked_nil, List.append_nil, same, ← text]
  simp only [State.blanked, tokens]

theorem single {kind : TokenKind} {x : Char} (solid : kind ≠ .comment) :
    Lexes (single kind) state (Language.sign x) done := by
  rintro start _ d rfl flows
  obtain ⟨_, sign, text, head, _⟩ := flows.1
  cases text
  have run : (Lexer.single kind).run.run state =
      (.ok (), state.cut kind none (state.cursor.rest.take 1)) := rfl
  rw [Cursor.take_one_of_head head] at run
  exact cut solid rfl flows run rfl rfl

theorem expect {kind : TokenKind} {x : Char} (solid : kind ≠ .comment) :
    Lexes (expect x kind) state (Language.sign x) done := by
  refine opens (Language.opens_sign x) fun found => head_bind ?_
  rw [if_pos found]
  exact single solid

theorem openNode : Lexes openNode state (Language.sign '[') done := by
  rintro start _ d rfl flows
  obtain ⟨_, sign, text, head, _⟩ := flows.1
  cases text
  have run : Lexer.openNode.run.run state = (.ok (), { state with depth := state.depth + 1 }.cut
      .nodeOpen (some (state.depth + 1)) (state.cursor.rest.take 1)) := rfl
  rw [Cursor.take_one_of_head head] at run
  exact cut (by decide) rfl flows run rfl rfl

theorem closeNode : Lexes closeNode state (Language.sign ']') done := by
  refine opens (Language.opens_sign ']') fun found => head_bind ?_
  rw [if_pos found]
  rintro start _ d rfl flows
  have run : (do
      let depth := (← get).depth
      emitAt .nodeClose (some depth) ((← Lexer.rest).take 1)
      modify fun state => { state with depth := depth - 1 } : Lexer Unit).run.run state =
      (.ok (), { state.cut .nodeClose (some state.depth) (state.cursor.rest.take 1) with
        depth := state.depth - 1 }) := rfl
  rw [Cursor.take_one_of_head found] at run
  exact cut (by decide) rfl flows run rfl rfl

/-- Words are cut as they are. -/
theorem word {kind : TokenKind} (solid : kind ≠ .comment) (allowed : Char → Bool) {shape : LexemeKind}
    (same : ∀ {start text}, Lexeme.Fits state.cursor ⟨shape, start, text⟩ ↔
      text = state.cursor.rest.takeWhile allowed ∧ text ≠ [])
    (kept : ∀ x : Lexeme, x.kind = shape → x.blankedAt state.cursor = x.text) :
    Lexes (emit kind (state.cursor.rest.takeWhile allowed)) state
      (fun word lexemes => lexemes = [⟨shape, word.start, word.content.toList⟩] : Language Word)
      done := by
  rintro found _ d rfl flows
  obtain ⟨_, fits⟩ := flows.1
  have run : (emit kind (state.cursor.rest.takeWhile allowed)).run.run state =
      (.ok (), state.cut kind none (state.cursor.rest.takeWhile allowed)) := rfl
  rw [← (same.1 fits).1] at run ⊢
  exact cut solid (kept _ rfl) flows run rfl rfl

/-- A name that the lexer has looked at already. -/
theorem name_emit {kind : TokenKind} (solid : kind ≠ .comment) :
    Lexes (emit kind (state.cursor.rest.takeWhile isNameChar)) state Language.name done := by
  refine word solid isNameChar Iff.rfl fun x same => ?_
  rw [Lexeme.blankedAt, same]

theorem name {kind : TokenKind} (solid : kind ≠ .comment) :
    Lexes (name kind) state Language.name done := by
  refine opens Language.opens_name fun found => rest_bind ?_
  dsimp only
  rw [Cursor.takeWhile_isEmpty, found]
  exact name_emit solid

/-- The lexer knows such a name, and so does what follows. -/
theorem name_emit_bind {kind : TokenKind} {next : Unit → Lexer β} {next' : Word → Language α}
    (solid : kind ≠ .comment)
    (rest : ∀ word after, word.content = String.ofList (state.cursor.rest.takeWhile isNameChar) →
      Lexes (next ()) after (next' word) say) :
    Lexes (emit kind (state.cursor.rest.takeWhile isNameChar) >>= next) state
      (Language.name >>= next') say := by
  refine (name_emit solid).bind fun word _ after spelled flows => ?_
  exact rest word after (Language.content_of_name spelled flows)

theorem literal : Lexes (emit .valueLiteral (state.cursor.rest.takeWhile isValueChar)) state
    Language.literal done := by
  refine word (by decide) isValueChar Iff.rfl fun x same => ?_
  rw [Lexeme.blankedAt, same]

theorem escapedText : Lexes escapedText state Language.escaped done := by
  rintro text _ d ⟨written, rfl, _⟩ flows
  obtain ⟨_, passed, same, _, scan⟩ := flows.1
  have ends := escapedFront_scanEscaped state.cursor.position.col 0 state.cursor.rest.tail
  rw [scan] at ends
  have run := Agrees.run_lexer_escapedText state
  rw [ends] at run
  obtain rfl : written = '\x60' :: passed := same
  exact cut (by decide) rfl flows run rfl rfl

/-- Cutting pieces of trivia one after the other. -/
theorem run_trivia (pieces : List Trivia) (state : State) :
    ∃ after, (pieces.forM fun piece =>
        emit (triviaToken piece.kind) piece.text).run.run state = (.ok (), after) ∧
      after.cursor = state.cursor.behind (pieces.flatMap Trivia.text) ∧
      after.blanked = state.blanked ++ pieces.flatMap Trivia.blanked := by
  induction pieces generalizing state with
  | nil => exact ⟨state, rfl, rfl, (List.append_nil _).symm⟩
  | cons piece pieces ih =>
    obtain ⟨after, run, moved, text⟩ := ih (state.cut (triviaToken piece.kind) none piece.text)
    refine ⟨after, ?_, ?_, ?_⟩
    · have unfolded := run_bind (emit (triviaToken piece.kind) piece.text)
        (fun _ => pieces.forM fun piece => emit (triviaToken piece.kind) piece.text) state
      exact unfolded.trans run
    · rw [moved, List.flatMap_cons, Cursor.behind_append]
      rfl
    · rw [text, List.flatMap_cons, ← List.append_assoc]
      congr 1
      have space : TokenKind.space ≠ .comment := by decide
      obtain ⟨kind, front⟩ := piece
      cases kind with
      | space => exact State.blanked_cut space none front
      | comment => simp [State.blanked, State.cut, Token.blanked, Trivia.blanked, triviaToken]

theorem skip : Lexes skip state Language.gap done := by
  rintro _ _ d ⟨start, text, rfl⟩ flows
  obtain ⟨stands, rfl⟩ := Cursor.flows_singleton.1 flows
  obtain rfl : text = triviaText state.cursor.rest := stands.2
  obtain ⟨after, run, moved, blanked⟩ := run_trivia (leadingTrivia state.cursor.rest) state
  have run' : Lexer.skip.run.run state = (.ok (), after) := run
  refine ⟨after, run', moved, ⟨stands, moved⟩, ?_⟩
  rw [Cursor.blanked_cons, Cursor.blanked_nil, List.append_nil]
  exact blanked

/-- Behind a gap no trivia stand. -/
theorem skip_bind {next : Unit → Lexer β} {next' : Unit → Language α}
    (rest : ∀ after, trivia? after.cursor.rest = none → Lexes (next ()) after (next' ()) say) :
    Lexes (Lexer.skip >>= next) state (Language.gap >>= next') say := by
  refine skip.bind fun _ _ after spelled flows => ?_
  exact rest after (Language.gap_ends spelled flows)

end Lexes

/-! ### Repetitions -/

/-- A round that goes on with what has been read. -/
theorem Lexes.item {lexer : Lexer Unit} {f : α → γ} (lexes : Lexes lexer state language done) :
    Lexes (lexer >>= fun _ => Pure.pure true) state
      (language >>= fun a => Pure.pure (.item (f a))) Round.goesOn := by
  refine lexes.bind fun _ _ _ _ _ => ?_
  exact pure rfl

/-- Rounds of a step go over what is spelled in the language of one round. -/
def Advances (step : Lexer Bool) (state : State) (round : Language (Round α)) : Prop :=
  ∀ result lexemes d, round result lexemes → state.cursor.Flows lexemes d →
    ∃ after, after.cursor = d ∧ state.Behind lexemes after ∧
      if result.goesOn then Runs step state after else step.run.run state = (.ok false, after)

namespace Advances

variable {step : Lexer Bool} {round second : Language (Round α)}

/-- A step that does in one round what is spelled. -/
theorem of_lexes (lexes : Lexes step state round Round.goesOn) (goes : round.Goes state.cursor) :
    Advances step state round := by
  intro result lexemes d spelled flows
  obtain ⟨after, run, rfl, behind⟩ := lexes result lexemes d spelled flows
  refine ⟨after, rfl, behind, ?_⟩
  split
  · next going =>
    rw [going] at run
    refine .of_step run ((goes result lexemes _ spelled flows).resolve_left ?_)
    rintro rfl
    cases going
  · next ends =>
    rw [run, Bool.eq_false_iff.2 ends]

theorem orElse (left : Advances step state round) (right : Advances step state second) :
    Advances step state (round <|> second) := by
  rintro result lexemes d (spelled | spelled) flows
  · exact left result lexemes d spelled flows
  · exact right result lexemes d spelled flows

/-- Nothing is spelled where the language does not open. -/
theorem opens {first : Cursor → Prop} (opens : round.Opens first)
    (advances : first state.cursor → Advances step state round) : Advances step state round := by
  intro result lexemes d spelled flows
  exact advances (opens result lexemes state.cursor d spelled flows) result lexemes d spelled flows

theorem sight_bind {seen : Sight} {next : Unit → Language (Round α)}
    (advances : seen.sees state.cursor.head state.cursor.second = true →
      Advances step state (next ())) :
    Advances step state (Language.sight seen >>= next) := by
  rintro result _ d ⟨_, _, later, ⟨start, rfl⟩, spelled, rfl⟩ ⟨stands, flows⟩
  obtain ⟨after, same, behind, runs⟩ := advances stands.2.2 result later d spelled flows
  exact ⟨after, same, .sight stands behind, runs⟩

end Advances

namespace Lexes

variable {step : Lexer Bool} {round : Language (Round α)}

/-- Enough rounds go over all that is spelled. -/
theorem rounds_of_advances (each : ∀ state, Advances step state round) {items : List α}
    {lexemes : List Lexeme} {d : Cursor} (spelled : Language.rounds round items lexemes)
    (flows : state.cursor.Flows lexemes d) {left : Nat} (enough : state.cursor.rest.length < left) :
    ∃ after, (rounds step left).run.run state = (.ok (), after) ∧ after.cursor = d ∧
      state.Behind lexemes after := by
  induction spelled generalizing state left with
  | stop last =>
    obtain ⟨after, same, behind, run⟩ := each state _ _ d last flows
    obtain ⟨left, rfl⟩ : ∃ more, left = more + 1 := ⟨left - 1, by omega⟩
    refine ⟨after, (run_bind step _ state).trans ?_, same, behind⟩
    rw [show step.run.run state = (.ok false, after) from run]
    rfl
  | pass first later ih | item first later ih =>
    obtain ⟨there, flows, flows'⟩ := Cursor.flows_append.1 flows
    obtain ⟨middle, rfl, behind, runs⟩ := each state _ _ there first flows
    obtain ⟨left', enough', same⟩ := runs left enough
    obtain ⟨after, run, same', behind'⟩ := ih flows' enough'
    exact ⟨after, same.trans run, same', behind.trans behind'⟩

/-- **A repetition**, whose rounds need not be as many as what is spelled. -/
theorem repeats (each : ∀ state, Advances step state round) :
    Lexes (whileGoing step) state (Language.rounds round) done := by
  intro items lexemes d spelled flows
  obtain ⟨after, run, same, behind⟩ :=
    rounds_of_advances each spelled flows (Nat.lt_succ_self state.cursor.rest.length)
  exact ⟨after, (run_rest_bind _ state).trans run, same, behind⟩

/-- A repetition of steps that do one round each. -/
theorem many (each : ∀ state, Lexes step state round Round.goesOn)
    (goes : ∀ here, round.Goes here) : Lexes (whileGoing step) state (Language.rounds round) done :=
  repeats fun state => .of_lexes (each state) (goes state.cursor)

/-- A repetition that goes on wherever a sign stands. -/
theorem whileAt {x : Char} {taken : Lexer Bool} {items : Language (Round α)}
    (opens : items.Opens fun here => here.head = some x) (moves : ∀ here, items.Moves here)
    (lexes : ∀ state, Lexes taken state items Round.goesOn) :
    Lexes (whileGoing do
      if (← head) = some x then
        taken
      else
        return false) state (Language.rounds (items <|> (do
      Language.sight (.avoids [x])
      return .stop))) done := by
  refine many (fun state => head_bind (orElse (.opens opens fun found => ?_) (sight_bind ?_))) ?_
  · rw [if_pos found]
    exact lexes state
  · intro missing
    have other : state.cursor.head ≠ some x := by
      intro found
      simp [Sight.sees, found] at missing
    rw [if_neg other]
    exact pure rfl
  · exact fun here => (moves here).goes.orElse (Language.goes_stop _)

end Lexes

end Lexer

end TypedMarkup
