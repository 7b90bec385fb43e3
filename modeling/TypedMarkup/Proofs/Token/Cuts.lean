/-
**What a lexer does from a state on.** A logic for lexers, one rule for each way to build one.

* `Lexer.Cuts bound lexer state holds`: run at `state`, the lexer goes on by steps, closes the
  brackets that it opens, and what it gives satisfies `holds`; or it refuses and keeps the tokens of
  some steps. It is exhausted only if at least `bound` characters are left.
* `Cuts.bind` chains lexers, `Cuts.whileGoing` repeats a step that moves whenever it goes on,
  `Cuts.bracketed` is about what stands between brackets, and `Cuts.ignoredNode` about what is
  collapsed.
-/

import TypedMarkup.Proofs.Token.Loops
import TypedMarkup.Proofs.Token.Step

namespace TypedMarkup.Lexer

open State (Steps)

variable {α β : Type} {bound : Nat} {lexer lexer' : Lexer α} {state after : State}
  {holds holds' : α → State → Prop}

/-! ### The judgement -/

/-- What a lexer does at a state. -/
def Cuts (bound : Nat) (lexer : Lexer α) (state : State) (holds : α → State → Prop) : Prop :=
  match lexer.run.run state with
  | (.ok a, after) => state.Steps after ∧ after.depth = state.depth ∧ holds a after
  | (.error refusal, after) =>
    (∃ last, state.Steps last ∧ after.tokens = last.tokens) ∧
      (refusal = .exhausted → bound ≤ state.cursor.rest.length)

namespace Cuts

/-- A run of a lexer that does not refuse. -/
theorem of_run {a : α} (run : lexer.run.run state = (.ok a, after)) (steps : state.Steps after)
    (depth : after.depth = state.depth) (result : holds a after) :
    Cuts bound lexer state holds := by
  unfold Cuts
  rw [run]
  exact ⟨steps, depth, result⟩

/-- A run of a lexer that refuses. -/
theorem of_refusal {refusal : Refusal} (run : lexer.run.run state = (.error refusal, after))
    (kept : ∃ last, state.Steps last ∧ after.tokens = last.tokens)
    (enough : refusal = .exhausted → bound ≤ state.cursor.rest.length) :
    Cuts bound lexer state holds := by
  unfold Cuts
  rw [run]
  exact ⟨kept, enough⟩

/-- What a run that does not refuse has done. -/
theorem of_ok {a : α} (cuts : Cuts bound lexer state holds)
    (run : lexer.run.run state = (.ok a, after)) :
    state.Steps after ∧ after.depth = state.depth ∧ holds a after := by
  unfold Cuts at cuts
  rwa [run] at cuts

/-- What a run that refuses has done. -/
theorem of_error {refusal : Refusal} (cuts : Cuts bound lexer state holds)
    (run : lexer.run.run state = (.error refusal, after)) :
    (∃ last, state.Steps last ∧ after.tokens = last.tokens) ∧
      (refusal = .exhausted → bound ≤ state.cursor.rest.length) := by
  unfold Cuts at cuts
  rwa [run] at cuts

/-- A lexer that runs like another. -/
theorem congr (cuts : Cuts bound lexer state holds)
    (same : lexer'.run.run state = lexer.run.run state) : Cuts bound lexer' state holds := by
  unfold Cuts at *
  rwa [same]

/-- Where too few characters are left, a lexer is not exhausted. -/
theorem not_exhausted (cuts : Cuts bound lexer state holds)
    (few : state.cursor.rest.length < bound) : (lexer.run.run state).1 ≠ .error .exhausted := by
  rcases ran : lexer.run.run state with ⟨refusal | a, after⟩
  · rintro ⟨⟩
    exact absurd ((cuts.of_error ran).2 rfl) (Nat.not_le.2 few)
  · exact nofun

theorem pure {a : α} (result : holds a state) : Cuts bound (Pure.pure a) state holds :=
  of_run rfl .refl rfl result

theorem refuse : Cuts bound (refuse : Lexer α) state holds :=
  ⟨⟨state, .refl, rfl⟩, nofun⟩

theorem refuse_bind {next : β → Lexer α} : Cuts bound (Lexer.refuse >>= next) state holds :=
  refuse

theorem mono (cuts : Cuts bound lexer state holds)
    (weaken : ∀ a after, state.Steps after → holds a after → holds' a after) :
    Cuts bound lexer state holds' := by
  rcases ran : lexer.run.run state with ⟨refusal | a, after⟩
  · obtain ⟨kept, enough⟩ := cuts.of_error ran
    exact of_refusal ran kept enough
  · obtain ⟨steps, depth, result⟩ := cuts.of_ok ran
    exact of_run ran steps depth (weaken a after steps result)

/-- **One lexer after another.** -/
theorem bind {next : α → Lexer β} {later : β → State → Prop} (first : Cuts bound lexer state holds)
    (second : ∀ a after, state.Steps after → holds a after → Cuts bound (next a) after later) :
    Cuts bound (lexer >>= next) state later := by
  rcases ran : lexer.run.run state with ⟨refusal | a, middle⟩
  · obtain ⟨kept, enough⟩ := first.of_error ran
    exact of_refusal (by rw [run_bind, ran]) kept enough
  · obtain ⟨steps, depth, result⟩ := first.of_ok ran
    have rest := second a middle steps result
    have goesOn : (lexer >>= next).run.run state = (next a).run.run middle := by
      rw [run_bind, ran]
    rcases ran' : (next a).run.run middle with ⟨refusal | b, after⟩
    · obtain ⟨⟨last, more, same⟩, enough⟩ := rest.of_error ran'
      refine of_refusal (goesOn.trans ran') ⟨last, steps.trans more, same⟩ fun stop => ?_
      exact Nat.le_trans (enough stop) (State.Steps.length_le steps)
    · obtain ⟨more, depth', result'⟩ := rest.of_ok ran'
      exact of_run (goesOn.trans ran') (steps.trans more) (depth'.trans depth) result'

/-! ### Looking -/

theorem head_bind {next : Option Char → Lexer α}
    (cuts : Cuts bound (next state.cursor.head) state holds) :
    Cuts bound (head >>= next) state holds :=
  cuts.congr (run_head_bind ..)

theorem rest_bind {next : List Char → Lexer α}
    (cuts : Cuts bound (next state.cursor.rest) state holds) :
    Cuts bound (rest >>= next) state holds :=
  cuts.congr (run_rest_bind ..)

/-! ### Cutting -/

/-- Cutting a piece moves. -/
theorem emit {kind : TokenKind} {text : List Char} (piece : Piece state.cursor.rest kind text) :
    Cuts bound (emit kind text) state fun _ after =>
      after = state.cut kind none text ∧ state.MovesTo after := by
  have step := State.Step.cut piece
  exact of_run rfl (.single step) rfl ⟨rfl, step.movesTo⟩

theorem single {kind : TokenKind} {c : Char} (found : state.cursor.head = some c)
    (sign : kind.isSign = true) :
    Cuts bound (single kind) state fun _ after => state.MovesTo after := by
  unfold Lexer.single
  refine rest_bind ?_
  rw [Cursor.take_one_of_head found]
  exact (emit (.sign sign found)).mono fun _ _ _ cut => cut.2

theorem expect {kind : TokenKind} {c : Char} (sign : kind.isSign = true) :
    Cuts bound (expect c kind) state fun _ _ => True := by
  unfold Lexer.expect
  refine head_bind ?_
  split
  · next found => exact (single found sign).mono fun _ _ _ _ => trivial
  · exact refuse

/-- Behind leading trivia there are none. -/
theorem skip : Cuts bound skip state fun _ after => trivia? after.cursor.rest = none := by
  unfold Lexer.skip
  refine rest_bind ?_
  generalize same : state.cursor.rest = text
  induction text using leadingTrivia.induct generalizing state with
  | case1 text found =>
    rw [leadingTrivia_of_trivia?_eq_none found]
    exact pure (same ▸ found)
  | case2 text piece found ih =>
    rw [leadingTrivia_of_trivia?_eq_some found]
    show Cuts bound (Lexer.emit _ _ >>= fun _ => List.forM _ _) state _
    refine (emit (.trivia (same ▸ found))).bind fun _ middle _ cut => ih ?_
    rw [cut.1, ← same]
    rfl

/-- A name moves. -/
theorem name {kind : TokenKind} (word : kind.isWord = true) :
    Cuts bound (name kind) state fun _ after => state.MovesTo after := by
  unfold Lexer.name
  refine rest_bind ?_
  dsimp only
  split
  · exact refuse
  · next found =>
    have some : state.cursor.rest.takeWhile isNameChar ≠ [] := by simpa using found
    exact (emit (.word word some)).mono fun _ _ _ cut => cut.2

/-! ### Repeating -/

/-- What a step of a repetition has to do: whenever it goes on it has moved, and `stops` holds where
it stops. -/
def Goes (stops : State → Prop) (here : State) : Bool → State → Prop
  | true, after => here.MovesTo after
  | false, after => stops after

section Repetition

variable {step : Lexer Bool} (stops : State → Prop)

theorem rounds {left : Nat} (enough : state.cursor.rest.length < left)
    (round : ∀ here, Cuts bound step here (Goes stops here)) :
    Cuts bound (rounds step left) state fun _ after => stops after := by
  induction left generalizing state with
  | zero => omega
  | succ left ih =>
    unfold Lexer.rounds
    refine (round state).bind fun goesOn after _ went => ?_
    cases goesOn with
    | false => exact pure went
    | true =>
      have moves : state.MovesTo after := went
      exact ih (Nat.lt_of_lt_of_le moves (Nat.le_of_lt_succ enough))

/-- **A repetition** is never exhausted itself, since a step that goes on has moved. -/
theorem whileGoing (round : ∀ here, Cuts bound step here (Goes stops here)) :
    Cuts bound (whileGoing step) state fun _ after => stops after := by
  unfold Lexer.whileGoing
  exact rest_bind (rounds stops (Nat.lt_succ_self _) round)

/-- A repetition whose first round has to go on moves. -/
theorem whileGoing_starting (starts : State → Prop)
    (round : ∀ here, Cuts bound step here fun goesOn after =>
      Goes stops here goesOn after ∧ (starts here → goesOn = true)) :
    Cuts bound (Lexer.whileGoing step) state fun _ after =>
      stops after ∧ (starts state → state.MovesTo after) := by
  have goes : ∀ here, Cuts bound step here (Goes stops here) :=
    fun here => (round here).mono fun _ _ _ went => went.1
  unfold Lexer.whileGoing
  refine rest_bind ?_
  unfold Lexer.rounds
  refine (round state).bind fun goesOn after _ went => ?_
  cases goesOn with
  | false => exact pure ⟨went.1, fun first => absurd (went.2 first) Bool.false_ne_true⟩
  | true =>
    have moves : state.MovesTo after := went.1
    exact (rounds stops moves goes).mono fun _ last more stopped =>
      ⟨stopped, fun _ => moves.steps more⟩

end Repetition

end Cuts

/-! ### Brackets -/

/-- Between two states stands something in brackets. -/
def State.Brackets (state after : State) : Prop :=
  ∃ inside, state.cursor.rest = '[' :: inside ++ ']' :: after.cursor.rest

theorem State.Brackets.movesTo (brackets : state.Brackets after) : state.MovesTo after := by
  obtain ⟨inside, whole⟩ := brackets
  unfold State.MovesTo
  rw [whole]
  simp only [List.length_append, List.length_cons]
  omega

theorem run_openNode (found : state.cursor.head = some '[') :
    openNode.run.run state = (.ok (), state.opened) := by
  have run : openNode.run.run state = (.ok (), { state.cut .nodeOpen (some (state.depth + 1))
      (state.cursor.rest.take 1) with depth := state.depth + 1 }) := rfl
  rwa [Cursor.take_one_of_head found] at run

theorem run_closeNode (state : State) : closeNode.run.run state =
    if state.cursor.head = some ']' then (.ok (), state.closed) else (.error .unreadable, state) := by
  unfold closeNode
  rw [run_head_bind]
  split
  · next found =>
    show (Except.ok (), { state.cut .nodeClose (some state.depth) (state.cursor.rest.take 1) with
      depth := state.depth - 1 }) = _
    rw [Cursor.take_one_of_head found]
    rfl
  · rfl

namespace Cuts

/-- **Brackets** leave as many open as there were. What stands between them has less left. -/
theorem bracketed {inner : Lexer Unit} (found : state.cursor.head = some '[')
    (inside : Cuts bound inner state.opened fun _ _ => True) :
    Cuts (bound + 1) (do
      openNode
      inner
      closeNode) state fun _ after => state.Brackets after := by
  have first := State.Step.opened found
  have fewer : state.opened.cursor.rest.length < state.cursor.rest.length := first.movesTo
  unfold Cuts
  rw [run_bind, run_openNode found]
  dsimp only
  rw [run_bind]
  rcases ran : inner.run.run state.opened with ⟨refusal | done, middle⟩
  · obtain ⟨⟨last, steps, same⟩, enough⟩ := inside.of_error ran
    refine ⟨⟨last, .head first steps, same⟩, fun stop => ?_⟩
    exact Nat.le_trans (Nat.succ_le_succ (enough stop)) fewer
  · obtain ⟨steps, depth, _⟩ := inside.of_ok ran
    dsimp only
    rw [run_closeNode]
    by_cases ends : middle.cursor.head = some ']'
    · rw [if_pos ends]
      have open_ : 0 < middle.depth := depth ▸ Nat.succ_pos state.depth
      refine ⟨(Relation.ReflTransGen.head first steps).tail (.closed ends open_), ?_, ?_⟩
      · show middle.depth - 1 = state.depth
        rw [depth]
        rfl
      · obtain ⟨text, rest, _⟩ := State.Steps.reaches steps
        refine ⟨text, ?_⟩
        have opening : state.opened.cursor.rest = state.cursor.rest.tail :=
          Cursor.behind_one_rest _ _
        have closing : middle.closed.cursor.rest = middle.cursor.rest.tail :=
          Cursor.behind_one_rest _ _
        rw [Cursor.rest_of_head found, ← opening, rest, closing, ← Cursor.rest_of_head ends]
        rfl
    · rw [if_neg ends]
      exact ⟨⟨middle, .head first steps, rfl⟩, nofun⟩

/-- **A node behind an underscore** becomes one piece, or leaves nothing. -/
theorem ignoredNode {inner : Lexer Unit} (found : state.cursor.head = some '_')
    (inside : Cuts bound inner { state with cursor := state.cursor.behind ['_'] } fun _ after =>
      State.Brackets { state with cursor := state.cursor.behind ['_'] } after) :
    Cuts bound (collapsed .ignored inner) state fun _ after => state.MovesTo after := by
  have behind : (state.cursor.behind ['_']).rest = state.cursor.rest.tail :=
    Cursor.behind_one_rest _ _
  unfold Cuts
  rw [run_collapsed, Cursor.take_one_of_head found]
  rcases ran : inner.run.run { state with cursor := state.cursor.behind ['_'] } with
    ⟨refusal | done, after⟩
  · have enough := (inside.of_error ran).2
    refine ⟨⟨state, .refl, rfl⟩, fun stop => Nat.le_trans (enough stop) ?_⟩
    rw [behind, List.length_tail]
    exact Nat.sub_le _ _
  · obtain ⟨_, depth, between, whole⟩ := inside.of_ok ran
    have split : state.cursor.rest = '_' :: '[' :: between ++ ']' :: after.cursor.rest := by
      rw [Cursor.rest_of_head found, ← behind, whole]
      rfl
    have text : state.cursor.textTo after.cursor = '_' :: '[' :: between ++ [']'] :=
      Cursor.textTo_of_rest (split.trans (by simp))
    have back : ({ after with cursor := state.cursor, tokens := state.tokens } : State) = state := by
      cases state
      cases depth
      rfl
    dsimp only
    rw [text, back]
    have step := State.Step.cut (.ignored split)
    exact ⟨.single step, rfl, step.movesTo⟩

end Cuts

end TypedMarkup.Lexer
