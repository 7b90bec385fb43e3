/-
**Parsers and lexers in step.** A logic for a parser and a lexer that read the same text.

* `Agrees parser lexer state holds`: where the parser succeeds from the cursor of a tidy state, the
  lexer goes on to the same cursor and the results satisfy `holds`; where the parser blames the
  source, the lexer gives up no later, unless the parser made a check of its own
  (`ParseError.OfParser`).
* `Agrees.bind` chains both sides, and `Agrees.many` repeats steps that stay together; the other
  rules are about looking, moving and failing.
-/

import TypedMarkup.Proofs.Token.Mark
import TypedMarkup.Proofs.Tree.Reads

namespace TypedMarkup

/-- The errors of checks that no lexer makes: indentation inside escaped text, and declarations
that declare nothing. -/
def ParseError.OfParser (error : ParseError) : Prop :=
  error.expected = [.construct .escapedTextLinePadding] ∨
    error.parsing = some .classDeclaration ∨ error.parsing = some .defaultDeclaration

/-- A lexer refuses, and its tokens end no later than at an offset. -/
def Lexer.GivesUp {α : Type} (lexer : Lexer α) (state : Lexer.State) (offset : Nat) : Prop :=
  ∃ refusal after, lexer.run.run state = (.error refusal, after) ∧
    Token.endOf after.tokens.reverse ≤ offset

/-- A state said some marks more than an earlier one. -/
def Lexer.State.Says (state : Lexer.State) (marks : List Mark) (after : Lexer.State) : Prop :=
  after.marks = state.marks ++ marks

namespace Lexer

namespace State.Says

variable {state middle after : State}

theorem refl (state : State) : state.Says [] state :=
  (List.append_nil _).symm

theorem trans {marks more : List Mark} (first : state.Says marks middle)
    (second : middle.Says more after) : state.Says (marks ++ more) after := by
  unfold Says at *
  rw [second, first, List.append_assoc]

theorem quiet {marks : List Mark} (first : state.Says marks middle)
    (silent : middle.Says [] after) : state.Says marks after := by
  rw [← List.append_nil marks]
  exact first.trans silent

theorem cut (state : State) (kind : TokenKind) (depth : Option Nat) (text : List Char) :
    state.Says (Token.marks ⟨kind, state.cursor.position.offset, String.ofList text, depth⟩)
      (state.cut kind depth text) :=
  state.marks_cut kind depth text

end State.Says

end Lexer

open TypedMarkup.Parser (Round)

variable {α β γ δ : Type} {parser : Parser α} {lexer : Lexer β} {state : Lexer.State}
  {holds holds' : α → β → Lexer.State → Prop}

/-- A parser and a lexer stay together from a state on. -/
def Agrees (parser : Parser α) (lexer : Lexer β) (state : Lexer.State)
    (holds : α → β → Lexer.State → Prop) : Prop :=
  state.Tidy →
    match parser state.cursor with
    | .ok (a, cursor) => ∃ b after, lexer.run.run state = (.ok b, after) ∧
        after.cursor = cursor ∧ after.Tidy ∧ holds a b after
    | .error (.malformed error) => error.OfParser ∨ lexer.GivesUp state error.position.offset
    | .error .exhausted => True

namespace Agrees

theorem pure {a : α} {b : β} (result : holds a b state) :
    Agrees (Pure.pure a) (Pure.pure b) state holds :=
  fun tidy => ⟨b, state, rfl, rfl, tidy, result⟩

/-- Runs that do not fail and end at one cursor. -/
theorem of_run {a : α} {b : β} {after : Lexer.State} {cursor : Cursor}
    (run : parser state.cursor = .ok (a, cursor)) (run' : lexer.run.run state = (.ok b, after))
    (same : after.cursor = cursor) (tidy : state.Tidy → after.Tidy) (result : holds a b after) :
    Agrees parser lexer state holds := by
  intro tidy'
  rw [run]
  exact ⟨b, after, run', same, tidy tidy', result⟩

theorem mono (agrees : Agrees parser lexer state holds)
    (weaken : ∀ a b after, holds a b after → holds' a b after) :
    Agrees parser lexer state holds' := by
  intro tidy
  have run := agrees tidy
  split
  · next a cursor same =>
    rw [same] at run
    obtain ⟨b, after, run, here, tidy, result⟩ := run
    exact ⟨b, after, run, here, tidy, weaken a b after result⟩
  · next error same =>
    rw [same] at run
    exact run
  · trivial

/-- Where both sides have run ahead and are together again. -/
theorem catch_up {parser' : Parser α} {lexer' : Lexer β} {after : Lexer.State}
    (agrees : Agrees parser' lexer' after holds)
    (run : parser state.cursor = parser' after.cursor)
    (run' : lexer.run.run state = lexer'.run.run after) (tidy : state.Tidy → after.Tidy) :
    Agrees parser lexer state holds := by
  intro here
  have ran := agrees (tidy here)
  unfold Lexer.GivesUp at *
  rw [run, run']
  exact ran

/-- What the parser alone does holds as well. -/
theorem reads {bound : Nat} {moves : α → Cursor → Prop}
    (agrees : Agrees parser lexer state holds)
    (reads : Parser.Reads state.cursor bound parser state.cursor moves) :
    Agrees parser lexer state fun a b after => holds a b after ∧ moves a after.cursor := by
  intro tidy
  have ran := agrees tidy
  have moved := reads (.refl state.cursor)
  split
  · next a cursor same =>
    rw [same] at ran moved
    obtain ⟨b, after, run, rfl, tidy, result⟩ := ran
    exact ⟨b, after, run, rfl, tidy, result, moved.2⟩
  · next error same =>
    rw [same] at ran
    exact ran
  · trivial

/-- **One parser and lexer after another.** -/
theorem bind {next : α → Parser γ} {next' : β → Lexer δ} {later : γ → δ → Lexer.State → Prop}
    (first : Agrees parser lexer state holds)
    (second : ∀ a b after, holds a b after → Agrees (next a) (next' b) after later) :
    Agrees (parser >>= next) (lexer >>= next') state later := by
  intro tidy
  have run := first tidy
  have unfolded : (parser >>= next) state.cursor =
      (parser state.cursor >>= fun result => next result.1 result.2) := rfl
  cases same : parser state.cursor with
  | error failure =>
    rw [same] at run
    rw [unfolded, same]
    cases failure with
    | malformed error =>
      refine run.imp_right ?_
      rintro ⟨refusal, after, run, behind⟩
      exact ⟨refusal, after, by rw [Lexer.run_bind, run], behind⟩
    | exhausted => trivial
  | ok result =>
    obtain ⟨a, cursor⟩ := result
    rw [same] at run
    obtain ⟨b, after, run, rfl, tidy', result⟩ := run
    have goesOn : (parser >>= next) state.cursor = next a after.cursor := by
      rw [unfolded, same]
      rfl
    have goesOn' : (lexer >>= next').run.run state = (next' b).run.run after := by
      rw [Lexer.run_bind, run]
    exact (second a b after result).catch_up goesOn goesOn' (fun _ => tidy') tidy

/-- The result of the parser put into another. -/
theorem map {f : α → γ} {later : γ → β → Lexer.State → Prop}
    (agrees : Agrees parser lexer state holds)
    (weaken : ∀ a b after, holds a b after → later (f a) b after) :
    Agrees (parser >>= fun a => Pure.pure (f a)) lexer state later := by
  have both : Agrees (parser >>= fun a => Pure.pure (f a)) (lexer >>= Pure.pure) state later :=
    agrees.bind fun a b after result => pure (weaken a b after result)
  rwa [bind_pure] at both

/-! ### Looking -/

theorem head_bind {next : Option Char → Parser α} {next' : Option Char → Lexer β}
    (agrees : Agrees (next state.cursor.head) (next' state.cursor.head) state holds) :
    Agrees (Parser.head >>= next) (Lexer.head >>= next') state holds :=
  agrees.catch_up rfl (Lexer.run_head_bind ..) id

/-- Where only the parser looks at the cursor. -/
theorem position_bind {next : Position → Parser α}
    (agrees : Agrees (next state.cursor.position) lexer state holds) :
    Agrees (Parser.position >>= next) lexer state holds :=
  agrees

/-- Where only the parser looks at the character. -/
theorem head_parser_bind {next : Option Char → Parser α}
    (agrees : Agrees (next state.cursor.head) lexer state holds) :
    Agrees (Parser.head >>= next) lexer state holds :=
  agrees

/-- Where only the lexer looks at what is left. -/
theorem rest_bind {next : List Char → Lexer β}
    (agrees : Agrees parser (next state.cursor.rest) state holds) :
    Agrees parser (Lexer.rest >>= next) state holds :=
  agrees.catch_up rfl (Lexer.run_rest_bind ..) id

/-! ### Failing -/

theorem refuse {expected : List Expectation} {parsing : Option Construct}
    {start : Option Position} :
    Agrees (Parser.fail expected parsing start : Parser α) (Lexer.refuse : Lexer β) state holds :=
  fun tidy => .inr ⟨_, state, rfl, tidy.behind⟩

/-- Where the parser fails and the lexer does not look any further. -/
theorem refuse_bind {expected : List Expectation} {parsing : Option Construct}
    {start : Option Position} {next : γ → Parser α} :
    Agrees (Parser.fail expected parsing start >>= next) (Lexer.refuse : Lexer β) state holds :=
  fun tidy => .inr ⟨_, state, rfl, tidy.behind⟩

/-- Where the parser blames the source and the lexer gives up. -/
theorem of_failed {error : ParseError} (failed : parser state.cursor = .error (.malformed error))
    (gives : state.Tidy → lexer.GivesUp state error.position.offset) :
    Agrees parser lexer state holds := by
  intro tidy
  rw [failed]
  exact .inr (gives tidy)

/-- Where the parser reads a name and then blames it, while the lexer refuses it uncut. -/
theorem name_refuse {next : Word → Parser α} (found : state.cursor.head.any isNameChar = true)
    (blames : ∀ word c, word.content = String.ofList (state.cursor.rest.takeWhile isNameChar) →
      ∃ error, next word c = .error (.malformed error) ∧ error.position = word.start) :
    Agrees (Parser.name >>= next) (Lexer.refuse : Lexer β) state holds := by
  have run : Parser.name state.cursor =
      .ok (⟨String.ofList (state.cursor.rest.takeWhile isNameChar), state.cursor.position⟩,
        state.cursor.behind (state.cursor.rest.takeWhile isNameChar)) := by
    show (if state.cursor.head.any isNameChar = true then Parser.word isNameChar
      else Parser.fail [.construct .name] none none) state.cursor = _
    rw [if_pos found]
    rfl
  obtain ⟨error, failed, position⟩ := blames
    ⟨String.ofList (state.cursor.rest.takeWhile isNameChar), state.cursor.position⟩
    (state.cursor.behind (state.cursor.rest.takeWhile isNameChar)) rfl
  have failed' : (Parser.name >>= next) state.cursor = .error (.malformed error) := by
    show (Parser.name state.cursor >>= fun result => next result.1 result.2) = _
    rw [run]
    exact failed
  refine of_failed failed' fun tidy => ⟨_, state, rfl, ?_⟩
  rw [position]
  exact tidy.behind

/-! ### Cutting -/

/-- Passing over a character and cutting it. -/
theorem advance {kind : TokenKind} (read : kind ≠ .unread) :
    Agrees Parser.advance (Lexer.single kind) state fun _ _ after =>
      state.Says (Token.marks ⟨kind, state.cursor.position.offset,
        String.ofList (state.cursor.rest.take 1), none⟩) after := by
  have run' : (Lexer.single kind).run.run state =
      (.ok (), state.cut kind none (state.cursor.rest.take 1)) := rfl
  exact of_run (by rfl) run' rfl (fun tidy => tidy.cut read _ _) (.cut _ _ _ _)

theorem expect {x : Char} {kind : TokenKind} {parsing : Option Construct}
    {start : Option Position} (read : kind ≠ .unread) :
    Agrees (Parser.expect x parsing start) (Lexer.expect x kind) state fun _ _ after =>
      state.Says (Token.marks ⟨kind, state.cursor.position.offset,
        String.ofList (state.cursor.rest.take 1), none⟩) after := by
  unfold Parser.expect Lexer.expect
  apply head_bind
  split
  · exact advance read
  · exact refuse

/-- Cutting pieces of trivia one after the other moves behind all of them. -/
theorem run_trivia (pieces : List Trivia) (state : Lexer.State) :
    ∃ after, (pieces.forM fun piece =>
        Lexer.emit (Lexer.triviaToken piece.kind) piece.text).run.run state = (.ok (), after) ∧
      after.cursor = state.cursor.behind (pieces.flatMap Trivia.text) ∧
      (state.Tidy → after.Tidy) ∧ state.Says [] after := by
  induction pieces generalizing state with
  | nil => exact ⟨state, rfl, rfl, id, .refl state⟩
  | cons piece pieces ih =>
    have read : Lexer.triviaToken piece.kind ≠ .unread := by
      cases piece.kind <;> exact nofun
    obtain ⟨after, run, moved, tidy, said⟩ :=
      ih (state.cut (Lexer.triviaToken piece.kind) none piece.text)
    refine ⟨after, ?_, ?_, fun here => tidy (here.cut read none piece.text), ?_⟩
    · have unfolded := Lexer.run_bind
        (Lexer.emit (Lexer.triviaToken piece.kind) piece.text)
        (fun _ => pieces.forM fun piece =>
          Lexer.emit (Lexer.triviaToken piece.kind) piece.text) state
      exact unfolded.trans run
    · rw [moved, List.flatMap_cons, Cursor.behind_append]
      rfl
    · have silent : Token.marks ⟨Lexer.triviaToken piece.kind, state.cursor.position.offset,
          String.ofList piece.text, none⟩ = [] := by
        cases piece.kind <;> rfl
      have first := Lexer.State.Says.cut state (Lexer.triviaToken piece.kind) none piece.text
      rw [silent] at first
      exact first.trans said

theorem skip : Agrees Parser.skip Lexer.skip state fun _ _ after =>
    after.cursor = state.cursor.behind (triviaText state.cursor.rest) ∧ state.Says [] after := by
  obtain ⟨after, run, moved, tidy, said⟩ := run_trivia (leadingTrivia state.cursor.rest) state
  have run' : Lexer.skip.run.run state = (.ok (), after) := run
  exact of_run (by rfl) run' moved tidy ⟨moved, said⟩

/-- A word and the token of it. -/
theorem word {allowed : Char → Bool} {kind : TokenKind} (read : kind ≠ .unread) :
    Agrees (Parser.word allowed) (Lexer.emit kind (state.cursor.rest.takeWhile allowed)) state
      fun word _ after =>
        word.content = String.ofList (state.cursor.rest.takeWhile allowed) ∧
        state.Says (Token.marks ⟨kind, word.start.offset, word.content, none⟩) after := by
  have run' : (Lexer.emit kind (state.cursor.rest.takeWhile allowed)).run.run state =
      (.ok (), state.cut kind none (state.cursor.rest.takeWhile allowed)) := rfl
  exact of_run (by rfl) run' rfl (fun tidy => tidy.cut read _ _) ⟨rfl, .cut _ _ _ _⟩

theorem name {kind : TokenKind} (read : kind ≠ .unread) :
    Agrees Parser.name (Lexer.name kind) state fun word _ after =>
      state.Says (Token.marks ⟨kind, word.start.offset, word.content, none⟩) after := by
  unfold Parser.name Lexer.name
  apply head_parser_bind
  apply rest_bind
  dsimp only
  rw [Cursor.takeWhile_isEmpty]
  cases state.cursor.head.any isNameChar with
  | true => exact (word read).mono fun _ _ _ result => result.2
  | false => exact refuse

/-- A name that the lexer has looked at already. -/
theorem name_emit {kind : TokenKind} (read : kind ≠ .unread)
    (found : state.cursor.head.any isNameChar = true) :
    Agrees Parser.name (Lexer.emit kind (state.cursor.rest.takeWhile isNameChar)) state
      fun word _ after =>
        word.content = String.ofList (state.cursor.rest.takeWhile isNameChar) ∧
        state.Says (Token.marks ⟨kind, word.start.offset, word.content, none⟩) after := by
  unfold Parser.name
  apply head_parser_bind
  rw [if_pos found]
  exact word read

/-! ### Repeating -/

/-- What steps of repetitions have to do: they go on or stop together, and say the marks of the
item. -/
def Goes (view : α → List Mark) (state : Lexer.State) : Round α → Bool → Lexer.State → Prop
  | .stop, going, after => going = false ∧ state.Says [] after
  | .pass, going, after => going = true ∧ state.Says [] after
  | .item a, going, after => going = true ∧ state.Says (view a) after

/-- Repetitions that stay together, if every round does so with the rounds that come after it. The
rounds left on both sides may differ, as long as there are `enough`. -/
theorem rounds (view : α → List Mark) (enough : Nat → Nat → Lexer.State → Prop)
    {step : Parser (Round α)} {step' : Lexer Bool}
    (round : ∀ {state left left'} (next : Round α → Parser (List α))
      (holds : List α → Unit → Lexer.State → Prop), enough (left + 1) left' state →
      (∀ after, state.Says [] after → Agrees (next .stop) (Pure.pure ()) after holds) →
      (∀ after left'', enough left left'' after → state.Says [] after →
        Agrees (next .pass) (Lexer.rounds step' left'') after holds) →
      (∀ a after left'', enough left left'' after → state.Says (view a) after →
        Agrees (next (.item a)) (Lexer.rounds step' left'') after holds) →
      Agrees (step >>= next) (Lexer.rounds step' left') state holds)
    {left left' : Nat} (start : enough left left' state) :
    Agrees (Parser.rounds step left) (Lexer.rounds step' left') state fun items _ after =>
      state.Says (items.flatMap view) after := by
  induction left generalizing state left' with
  | zero => exact fun _ => trivial
  | succ left ih =>
    unfold Parser.rounds
    refine round _ _ start ?_ ?_ ?_
    · exact fun after said => pure said
    · intro after left'' start' said
      exact (ih start').mono fun items _ last later => said.trans later
    · intro a after left'' start' said
      refine (ih start').map fun items _ last later => ?_
      rw [List.flatMap_cons]
      exact said.trans later

/-- The first round of the lexer against what the parser does in the same place. -/
theorem first_round {step' : Lexer Bool} {left : Nat} {next : α → Parser γ}
    {later : γ → Unit → Lexer.State → Prop}
    (run : step'.run.run state = (lexer >>= fun _ => Pure.pure true).run.run state)
    (first : Agrees parser lexer state holds)
    (rest : ∀ a b after, holds a b after →
      Agrees (next a) (Lexer.rounds step' left) after later) :
    Agrees (parser >>= next) (Lexer.rounds step' (left + 1)) state later := by
  refine (first.bind rest).catch_up rfl ?_ id
  refine (Lexer.run_bind step' _ state).trans ?_
  rw [run, Lexer.run_bind, Lexer.run_bind]
  rcases lexer.run.run state with ⟨refusal | b, after⟩
  · rfl
  · rfl

/-- Where both sides stop. -/
theorem last_round {step' : Lexer Bool} {left : Nat} {holds : α → Unit → Lexer.State → Prop}
    (run : step'.run.run state = (.ok false, state))
    (agrees : Agrees parser (Pure.pure ()) state holds) :
    Agrees parser (Lexer.rounds step' (left + 1)) state holds := by
  refine agrees.catch_up rfl ?_ id
  refine (Lexer.run_bind step' _ state).trans ?_
  rw [run]
  rfl

/-- Repetitions whose rounds are as many. -/
theorem rounds_together {step : Parser (Round α)} {step' : Lexer Bool} {view : α → List Mark}
    (round : ∀ {state left} (next : Round α → Parser (List α))
      (holds : List α → Unit → Lexer.State → Prop),
      (∀ result going after, Goes view state result going after →
        Agrees (next result) (if going then Lexer.rounds step' left else Pure.pure ()) after
          holds) →
      Agrees (step >>= next)
        (step' >>= fun going => if going then Lexer.rounds step' left else Pure.pure ()) state
        holds)
    {left left' : Nat} (enough : left ≤ left') :
    Agrees (Parser.rounds step left) (Lexer.rounds step' left') state fun items _ after =>
      state.Says (items.flatMap view) after := by
  refine rounds view (fun left left' _ => left ≤ left') ?_ enough
  intro state left left' next holds enough stop pass item
  obtain ⟨more, rfl⟩ := Nat.exists_eq_add_of_lt enough
  refine round next holds fun result going after went => ?_
  cases result with
  | stop =>
    obtain ⟨rfl, said⟩ := went
    exact stop after said
  | pass =>
    obtain ⟨rfl, said⟩ := went
    exact pass after _ (Nat.le_add_right _ _) said
  | item a =>
    obtain ⟨rfl, said⟩ := went
    exact item a after _ (Nat.le_add_right _ _) said

/-- **Repetitions in step.** They have the same bound on their rounds. -/
theorem many {step : Parser (Round α)} {step' : Lexer Bool} (view : α → List Mark)
    (round : ∀ state, Agrees step step' state (Goes view state)) :
    Agrees (Parser.many step) (Lexer.whileGoing step') state fun items _ after =>
      state.Says (items.flatMap view) after := by
  unfold Lexer.whileGoing
  apply rest_bind
  exact rounds_together (fun _ _ later => (round _).bind later) (Nat.le_refl _)

end Agrees

end TypedMarkup
