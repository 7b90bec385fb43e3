/-
**Loops of parsers.** What repeating a step comes to without any bound on the repetition.

* `Parser.Loops step c result` runs a step until it fails or stops, and keeps the items that it
  reads. It has no more than one result (`Loops.unique`).
* `Parser.loops_many_iff`: if a step that goes on has moved, that is the result of the repetition,
  whose bound is one round more than there are characters left.
* `Parser.IsLoop` lists the loops over constructs, each with its step. White space and comments are
  skipped piece by piece, which is a loop too (`Parser.loops_skip`); the scans of characters inside
  of a piece are recursions on the text itself.
-/

import TypedMarkup.Proofs.Source.Reach
import TypedMarkup.Tree.Parser.Block

namespace TypedMarkup.Parser

variable {α : Type} {step : Parser (Round α)} {c after : Cursor}
  {result result' : Except Failure (List α × Cursor)}

/-! ### Repeating without a bound -/

/-- A result with one item more at its front. -/
def withItem (a : α) (result : Except Failure (List α × Cursor)) :
    Except Failure (List α × Cursor) :=
  result.map fun (items, last) => (a :: items, last)

/-- Repeats a step until it stops, and keeps its items. -/
inductive Loops (step : Parser (Round α)) : Cursor → Except Failure (List α × Cursor) → Prop
  | fails {c : Cursor} {failure : Failure} (ran : step c = .error failure) :
    Loops step c (.error failure)
  | stops {c after : Cursor} (ran : step c = .ok (.stop, after)) : Loops step c (.ok ([], after))
  | passes {c after : Cursor} {result : Except Failure (List α × Cursor)}
    (ran : step c = .ok (.pass, after)) (rest : Loops step after result) : Loops step c result
  | reads {c after : Cursor} {a : α} {result : Except Failure (List α × Cursor)}
    (ran : step c = .ok (.item a, after)) (rest : Loops step after result) :
    Loops step c (withItem a result)

theorem Loops.unique (loops : Loops step c result) (loops' : Loops step c result') :
    result = result' := by
  induction loops generalizing result' with
  | fails ran =>
    cases loops' with
    | fails ran' => cases ran.symm.trans ran'; rfl
    | stops ran' => cases ran.symm.trans ran'
    | passes ran' _ => cases ran.symm.trans ran'
    | reads ran' _ => cases ran.symm.trans ran'
  | stops ran =>
    cases loops' with
    | fails ran' => cases ran.symm.trans ran'
    | stops ran' => cases ran.symm.trans ran'; rfl
    | passes ran' _ => cases ran.symm.trans ran'
    | reads ran' _ => cases ran.symm.trans ran'
  | passes ran _ ih =>
    cases loops' with
    | fails ran' => cases ran.symm.trans ran'
    | stops ran' => cases ran.symm.trans ran'
    | passes ran' rest' =>
      cases ran.symm.trans ran'
      exact ih rest'
    | reads ran' _ => cases ran.symm.trans ran'
  | reads ran _ ih =>
    cases loops' with
    | fails ran' => cases ran.symm.trans ran'
    | stops ran' => cases ran.symm.trans ran'
    | passes ran' _ => cases ran.symm.trans ran'
    | reads ran' rest' =>
      cases ran.symm.trans ran'
      rw [ih rest']

/-- Whether a step has moved whenever it goes on. -/
def Progresses (step : Parser (Round α)) : Prop :=
  ∀ c round after, step c = .ok (round, after) → round ≠ .stop → after.rest.length < c.rest.length

theorem loops_rounds (progresses : Progresses step) {left : Nat} (enough : c.rest.length < left) :
    Loops step c (rounds step left c) := by
  induction left generalizing c with
  | zero => exact absurd enough (Nat.not_lt_zero _)
  | succ left ih =>
    show Loops step c (step c >>= fun result => _)
    rcases ran : step c with failure | ⟨round, after⟩
    · exact .fails ran
    · cases round with
      | stop => exact .stops ran
      | pass =>
        have fewer := progresses _ _ _ ran nofun
        exact .passes ran (ih (Nat.lt_of_lt_of_le fewer (Nat.le_of_lt_succ enough)))
      | item a =>
        have fewer := progresses _ _ _ ran nofun
        have rest := ih (Nat.lt_of_lt_of_le fewer (Nat.le_of_lt_succ enough))
        have kept : (do return a :: (← rounds step left) : Parser (List α)) after =
            withItem a (rounds step left after) := by
          show (rounds step left after >>= fun _ => _) = _
          cases rounds step left after <;> rfl
        show Loops step c ((do return a :: (← rounds step left) : Parser (List α)) after)
        rw [kept]
        exact .reads ran rest

/-- **The bound on repetition is none**, where a step that goes on has moved. -/
theorem loops_many_iff (progresses : Progresses step) :
    Loops step c result ↔ many step c = result := by
  have loops : Loops step c (many step c) := loops_rounds progresses (Nat.lt_succ_self _)
  exact ⟨loops.unique, fun same => same ▸ loops⟩

/-! ### Rounds -/

/-- A piece of trivia, if one stands at the cursor. -/
def skipRound : Parser (Round Unit) := do
  match trivia? (← get).rest with
  | none => return .stop
  | some piece =>
    let _ ← take fun _ => piece.text
    return .pass

/-- A class and what separates it from the next one, if one stands at the cursor. -/
def classRound : Parser (Round ClassRef) := do
  if (← head) = some '.' then
    let read ← classRef
    skip
    return .item read
  else
    return .stop

/-- A step to a child type, if one stands at the cursor. -/
def childStepRound : Parser (Round ChildStep) := do
  if (← head) = some '\\' then
    let start ← position
    advance
    return .item ⟨start, ← name⟩
  else
    return .stop

/-- A preamble element and what separates it from the next one, if one stands at the cursor. -/
def preambleRound (nested : Nested) : Parser (Round PreambleElement) := do
  if (← head) = some '<' then
    let read ← preambleElement nested
    skip
    return .item read
  else
    return .stop

/-- A line behind what separates it from the one before, or the end of the block. -/
def lineRound (nested : Nested) : Parser (Round (List LineElement)) := do
  skip
  match ← head with
  | none | some ']' => return .stop
  | some _ => return .item (← line nested)

/-! ### Skipping -/

theorem run_skipRound (c : Cursor) : skipRound c =
    match trivia? c.rest with
    | none => .ok (.stop, c)
    | some piece => .ok (.pass, c.behind piece.text) := by
  show (match trivia? c.rest with
    | none => (return .stop : Parser (Round Unit))
    | some piece => do
      let _ ← take fun _ => piece.text
      return .pass) c = _
  cases trivia? c.rest <;> rfl

/-- No piece of trivia is empty. -/
theorem progresses_skipRound : Progresses skipRound := by
  intro c round after ran goesOn
  rw [run_skipRound] at ran
  cases found : trivia? c.rest with
  | none =>
    rw [found] at ran
    cases ran
    exact absurd rfl goesOn
  | some piece =>
    rw [found] at ran
    cases ran
    exact Cursor.behind_shorter (trivia?_stands found) (trivia?_ne_nil found)

/-- White space and comments are skipped piece by piece. -/
theorem loops_skip (c : Cursor) : Loops skipRound c (((fun _ => []) <$> skip : Parser _) c) := by
  show Loops skipRound c (.ok ([], c.behind (triviaText c.rest)))
  unfold triviaText
  generalize same : c.rest = text
  induction text using leadingTrivia.induct generalizing c with
  | case1 text found =>
    rw [leadingTrivia_of_trivia?_eq_none found]
    refine .stops ?_
    rw [run_skipRound, same, found]
    rfl
  | case2 text piece found ih =>
    rw [leadingTrivia_of_trivia?_eq_some found, List.flatMap_cons, Cursor.behind_append]
    have ran : skipRound c = .ok (.pass, c.behind piece.text) := by
      rw [run_skipRound, same, found]
    refine .passes ran (ih _ ?_)
    rw [← same]
    rfl

/-! ### The loops -/

/-- The loops over constructs of the parsers, each with its step. What is skipped leaves no items.
The scans of characters within one piece are not among them: those of white space, comments, words,
escaped text and plain text are recursions on the text that is left, a proper end of it in each
round. -/
inductive IsLoop (nested : Nested) : {α : Type} → Parser (List α) → Parser (Round α) → Prop
  | skip : IsLoop nested ((fun _ => []) <$> skip) skipRound
  | classes : IsLoop nested classes classRound
  | childSteps : IsLoop nested childSteps childStepRound
  | typePaths : IsLoop nested typePaths typePath
  | settings {start : Position} : IsLoop nested (settings start) (setting start)
  | preamble : IsLoop nested (preamble nested) (preambleRound nested)
  | textPieces : IsLoop nested (many (textPiece nested)) (textPiece nested)
  | textElements : IsLoop nested (textElements nested) (textElement nested)
  | line : IsLoop nested (line nested) (lineElement nested)
  | lines : IsLoop nested (lines nested) (lineRound nested)

/-- A loop repeats its step as often as it takes, if that has moved whenever it goes on. -/
theorem IsLoop.loops_iff {nested : Nested} {loop : Parser (List α)}
    (isLoop : IsLoop nested loop step) (progresses : Progresses step) :
    Loops step c result ↔ loop c = result := by
  cases isLoop with
  | skip => exact ⟨(loops_skip c).unique, fun same => same ▸ loops_skip c⟩
  | classes | childSteps | typePaths | settings | preamble | textPieces | textElements | line
  | lines =>
    exact loops_many_iff progresses

end TypedMarkup.Parser
