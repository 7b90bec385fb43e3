/-
**Loops of lexers.** What repeating a step comes to without any bound on the repetition.

* `Lexer.Loops step state result` runs a step until it refuses or stops. It has no more than one
  result (`Loops.unique`).
* `Lexer.loops_whileGoing_iff`: if a step that goes on has moved, that is the result of the
  repetition, whose bound is one round more than there are characters left.
* `Lexer.IsLoop` lists the loops over constructs, each with its step. White space and comments are
  skipped piece by piece, which is a loop too (`Lexer.loops_skip`); the scans of characters inside
  of a token are recursions on the text itself.
-/

import TypedMarkup.Proofs.Source.Reach
import TypedMarkup.Proofs.Token.Run

namespace TypedMarkup.Lexer

variable {step : Lexer Bool} {state after : State} {result result' : Except Refusal Unit × State}

/-! ### Repeating without a bound -/

/-- Repeats a step while it says so. -/
inductive Loops (step : Lexer Bool) : State → Except Refusal Unit × State → Prop
  | refuses {state after : State} {refusal : Refusal}
    (ran : step.run.run state = (.error refusal, after)) :
    Loops step state (.error refusal, after)
  | stops {state after : State} (ran : step.run.run state = (.ok false, after)) :
    Loops step state (.ok (), after)
  | goesOn {state after : State} {result : Except Refusal Unit × State}
    (ran : step.run.run state = (.ok true, after)) (rest : Loops step after result) :
    Loops step state result

theorem Loops.unique (loops : Loops step state result) (loops' : Loops step state result') :
    result = result' := by
  induction loops with
  | refuses ran =>
    cases loops' with
    | refuses ran' => cases ran.symm.trans ran'; rfl
    | stops ran' => cases ran.symm.trans ran'
    | goesOn ran' _ => cases ran.symm.trans ran'
  | stops ran =>
    cases loops' with
    | refuses ran' => cases ran.symm.trans ran'
    | stops ran' => cases ran.symm.trans ran'; rfl
    | goesOn ran' _ => cases ran.symm.trans ran'
  | goesOn ran _ ih =>
    cases loops' with
    | refuses ran' => cases ran.symm.trans ran'
    | stops ran' => cases ran.symm.trans ran'
    | goesOn ran' rest' =>
      cases ran.symm.trans ran'
      exact ih rest'

/-- Whether a step has moved whenever it goes on. -/
def Progresses (step : Lexer Bool) : Prop :=
  ∀ state after, step.run.run state = (.ok true, after) →
    after.cursor.rest.length < state.cursor.rest.length

theorem loops_rounds (progresses : Progresses step) {left : Nat}
    (enough : state.cursor.rest.length < left) :
    Loops step state ((rounds step left).run.run state) := by
  induction left generalizing state with
  | zero => exact absurd enough (Nat.not_lt_zero _)
  | succ left ih =>
    unfold rounds
    rw [run_bind]
    rcases ran : step.run.run state with ⟨refusal | goesOn, after⟩
    · exact .refuses ran
    · cases goesOn with
      | false => exact .stops ran
      | true =>
        have fewer := progresses _ _ ran
        exact .goesOn ran (ih (Nat.lt_of_lt_of_le fewer (Nat.le_of_lt_succ enough)))

/-- **The bound on repetition is none**, where a step that goes on has moved. -/
theorem loops_whileGoing_iff (progresses : Progresses step) :
    Loops step state result ↔ (whileGoing step).run.run state = result := by
  have loops : Loops step state ((whileGoing step).run.run state) := by
    unfold whileGoing
    rw [run_rest_bind]
    exact loops_rounds progresses (Nat.lt_succ_self _)
  exact ⟨loops.unique, fun same => same ▸ loops⟩

/-! ### Rounds -/

/-- A piece of trivia, if one stands at the cursor. -/
def skipRound : Lexer Bool := do
  match trivia? (← rest) with
  | none => return false
  | some piece =>
    emit (triviaToken piece.kind) piece.text
    return true

/-- A class and what separates it from the next one, if one stands at the cursor. -/
def classRound : Lexer Bool := do
  if (← head) = some '.' then
    classRef
    skip
    return true
  else
    return false

/-- A step to a child type, if one stands at the cursor. -/
def childStepRound : Lexer Bool := do
  if (← head) = some '\\' then
    single .childStart
    name .typeName
    return true
  else
    return false

/-- A preamble element and what separates it from the next one, if one stands at the cursor. -/
def preambleRound (nested : Nested) : Lexer Bool := do
  if (← head) = some '<' then
    preambleElement nested
    skip
    return true
  else
    return false

/-- A line behind what separates it from the one before, if the block goes on. -/
def lineRound (nested : Nested) : Lexer Bool := do
  skip
  match ← head with
  | none | some ']' => return false
  | some _ =>
    line nested
    return true

/-! ### Skipping -/

theorem run_skipRound (state : State) : skipRound.run.run state =
    match trivia? state.cursor.rest with
    | none => (.ok false, state)
    | some piece => (.ok true, state.cut (triviaToken piece.kind) none piece.text) := by
  unfold skipRound
  rw [run_rest_bind]
  cases trivia? state.cursor.rest <;> rfl

/-- No piece of trivia is empty. -/
theorem progresses_skipRound : Progresses skipRound := by
  intro state after ran
  rw [run_skipRound] at ran
  cases found : trivia? state.cursor.rest with
  | none =>
    rw [found] at ran
    cases ran
  | some piece =>
    rw [found] at ran
    cases ran
    exact Cursor.behind_shorter (trivia?_stands found) (trivia?_ne_nil found)

/-- White space and comments are skipped piece by piece. -/
theorem loops_skip (state : State) : Loops skipRound state (skip.run.run state) := by
  unfold skip
  rw [run_rest_bind]
  generalize same : state.cursor.rest = text
  induction text using leadingTrivia.induct generalizing state with
  | case1 text found =>
    rw [leadingTrivia_of_trivia?_eq_none found]
    refine .stops ?_
    rw [run_skipRound, same, found]
  | case2 text piece found ih =>
    rw [leadingTrivia_of_trivia?_eq_some found]
    have ran : skipRound.run.run state =
        (.ok true, state.cut (triviaToken piece.kind) none piece.text) := by
      rw [run_skipRound, same, found]
    refine .goesOn ran (ih _ ?_)
    rw [← same]
    rfl

/-! ### The loops -/

/-- The loops over constructs of the lexers, each with its step. The scans of characters within one
token are not among them: those of white space, comments, words, escaped text and plain text are
recursions on the text that is left, a proper end of it in each round. -/
inductive IsLoop (nested : Nested) : Lexer Unit → Lexer Bool → Prop
  | skip : IsLoop nested skip skipRound
  | classes : IsLoop nested classes classRound
  | childSteps : IsLoop nested childSteps childStepRound
  | typePaths : IsLoop nested typePaths typePath
  | settings : IsLoop nested settings setting
  | preamble : IsLoop nested (preamble nested) (preambleRound nested)
  | textElements : IsLoop nested (textElements nested) (textElement nested)
  | line : IsLoop nested (line nested) (lineElement nested)
  | lines : IsLoop nested (lines nested) (lineRound nested)

/-- A loop repeats its step as often as it takes, if that has moved whenever it goes on. -/
theorem IsLoop.loops_iff {nested : Nested} {loop : Lexer Unit} (isLoop : IsLoop nested loop step)
    (progresses : Progresses step) :
    Loops step state result ↔ loop.run.run state = result := by
  cases isLoop with
  | skip => exact ⟨(loops_skip state).unique, fun same => same ▸ loops_skip state⟩
  | classes | childSteps | typePaths | settings | preamble | textElements | line | lines =>
    exact loops_whileGoing_iff progresses

end TypedMarkup.Lexer
