/-
**Cutting classes, type paths and properties.** What `Lexer.Cuts` says of the lexers whose
constructs hold no blocks. None of them is ever exhausted.
-/

import TypedMarkup.Proofs.Token.Cuts

namespace TypedMarkup.Lexer.Cuts

variable {bound : Nat} {state : State}

theorem escapedText (found : state.cursor.head = some '\x60') :
    Cuts bound escapedText state fun _ after => state.MovesTo after := by
  unfold Lexer.escapedText
  refine rest_bind ?_
  split
  · exact refuse
  · next front closed =>
    exact (emit (.escaped (Cursor.rest_of_head found) closed)).mono fun _ _ _ cut => cut.2

/-! ### Classes and type paths -/

theorem classRef (found : state.cursor.head = some '.') :
    Cuts bound classRef state fun _ after => state.MovesTo after := by
  refine (single found rfl).bind fun _ _ _ moves => ?_
  refine (name rfl).mono fun _ _ _ moves' => ?_
  exact moves.trans moves'

theorem classRound : Cuts bound classRound state (Goes (fun _ => True) state) := by
  refine head_bind ?_
  split
  · next found =>
    exact (classRef found).bind fun _ _ _ moves => skip.bind fun _ _ more _ => pure (moves.steps more)
  · exact pure trivial

theorem classes : Cuts bound classes state fun _ _ => True :=
  whileGoing (fun _ => True) fun _ => classRound

/-- At a backslash there is a step. -/
theorem childStepRound : Cuts bound childStepRound state fun goesOn after =>
    Goes (fun _ => True) state goesOn after ∧
      (state.cursor.head = some '\\' → goesOn = true) := by
  refine head_bind ?_
  split
  · next found =>
    refine (single found rfl).bind fun _ _ _ moves => (name rfl).bind fun _ _ _ moves' => ?_
    exact pure ⟨moves.trans moves', fun _ => rfl⟩
  · next other => exact pure ⟨trivial, fun found => absurd found other⟩

theorem childSteps : Cuts bound childSteps state fun _ after =>
    state.cursor.head = some '\\' → state.MovesTo after := by
  refine (whileGoing_starting (fun _ => True) (fun here => here.cursor.head = some '\\')
    fun _ => ?_).mono fun _ _ _ went => went.2
  exact childStepRound

theorem typePath : Cuts bound typePath state (Goes (fun _ => True) state) := by
  unfold Lexer.typePath
  refine skip.bind fun _ _ before _ => head_bind ?_
  split
  · next found =>
    exact childSteps.bind fun _ _ _ moves => pure (before.movesTo (moves found))
  · split
    · refine (name rfl).bind fun _ _ _ moves => childSteps.bind fun _ _ more _ => pure ?_
      exact before.movesTo (moves.steps more)
    · exact pure trivial

theorem typePaths : Cuts bound typePaths state fun _ _ => True :=
  whileGoing (fun _ => True) fun _ => typePath

/-! ### Properties -/

theorem boundValue (found : state.cursor.head = some '<') :
    Cuts bound boundValue state fun _ _ => True := by
  unfold Lexer.boundValue
  refine (single found rfl).bind fun _ _ _ _ => skip.bind fun _ there _ _ => rest_bind ?_
  dsimp only
  split
  · exact refuse_bind
  · next same =>
    have some : there.cursor.rest.takeWhile isNameChar ≠ [] := by
      intro none
      rw [none] at same
      exact same (by decide)
    refine (emit (.word rfl some)).bind fun _ _ _ _ => skip.bind fun _ _ _ _ => ?_
    refine (name rfl).bind fun _ _ _ _ => skip.bind fun _ _ _ _ => ?_
    exact expect rfl

theorem value : Cuts bound value state fun _ _ => True := by
  unfold Lexer.value
  refine head_bind ?_
  split
  · next found => exact boundValue found
  · split
    · next found => exact (escapedText found).mono fun _ _ _ _ => trivial
    · split
      · next found =>
        have some := Cursor.takeWhile_ne_nil found
        exact rest_bind ((emit (.literal some)).mono fun _ _ _ _ => trivial)
      · exact refuse

theorem assignment : Cuts bound assignment state fun _ _ => True := by
  unfold Lexer.assignment
  refine head_bind ?_
  split
  · next found => exact (single found rfl).bind fun _ _ _ _ => skip.bind fun _ _ _ _ => value
  · exact pure trivial

theorem setting : Cuts bound setting state
    (Goes (fun after => after.cursor.head = some '\x7d') state) := by
  unfold Lexer.setting
  refine skip.bind fun _ there before _ => head_bind ?_
  split
  · next found => exact pure found
  · next found =>
    refine (single found rfl).bind fun _ _ _ moves => (name rfl).bind fun _ _ _ moves' => ?_
    exact pure (before.movesTo (moves.trans moves'))
  · split
    · refine (name rfl).bind fun _ _ _ moves => skip.bind fun _ _ more _ => ?_
      refine assignment.bind fun _ _ more' _ => pure ?_
      exact before.movesTo ((moves.steps more).steps more')
    · exact refuse

theorem settings : Cuts bound settings state fun _ after => after.cursor.head = some '\x7d' :=
  whileGoing _ fun _ => setting

theorem propertyBlock (found : state.cursor.head = some '\x7b') :
    Cuts bound propertyBlock state fun _ _ => True := by
  unfold Lexer.propertyBlock
  refine (single found rfl).bind fun _ _ _ _ => skip.bind fun _ _ _ _ => ?_
  refine assignment.bind fun _ _ _ _ => settings.bind fun _ _ _ closes => ?_
  exact (single closes rfl).mono fun _ _ _ _ => trivial

theorem classesAndProperties : Cuts bound classesAndProperties state fun _ _ => True := by
  unfold Lexer.classesAndProperties
  refine classes.bind fun _ _ _ _ => head_bind ?_
  split
  · next found =>
    exact (propertyBlock found).bind fun _ _ _ _ => skip.mono fun _ _ _ _ => trivial
  · exact pure trivial

end TypedMarkup.Lexer.Cuts
