/-
**Hidden bindings are not seen.** Of the bindings of a name only the newest one shows, whatever is
done with an environment.

* `Error.LooksLike` relates errors of the same kind at the same places whose environments have the
  same text; `Error.Alike.looksLike`: errors that are alike as a whole look alike.
* `Environment.Alike.rebound`: an environment is like one with other bindings in which names stand
  for the same.
* `only_newest_bindings_show` says so of looking up, of the texts of environments, and of resolving.
-/

import TypedMarkup.Proofs.Environment.Newest
import TypedMarkup.Proofs.Resolution.Alike

namespace TypedMarkup

/-! ### Errors -/

/-- Errors of the same kind at the same places, in environments with the same text. -/
def Error.LooksLike : Error → Error → Prop
  | semantic error, semantic error' =>
    error.cause = error'.cause ∧ error.positions = error'.positions ∧
      error.environment.debugText = error'.environment.debugText
  | parse path position error, parse path' position' error' =>
    path = path' ∧ position = position' ∧ error = error'
  | read position error, read position' error' => position = position' ∧ error = error'
  | semantic _, parse _ _ _ | semantic _, read _ _ | parse _ _ _, semantic _
  | parse _ _ _, read _ _ | read _ _, semantic _ | read _ _, parse _ _ _ => False

theorem Error.Alike.looksLike {error error' : Error} (alike : error.Alike True error') :
    error.LooksLike error' := by
  cases error with
  | semantic failure =>
    cases error' with
    | semantic failure' =>
      obtain ⟨cause, positions, near⟩ := alike
      exact ⟨cause, positions, near.debugText.symm⟩
    | parse _ _ _ => exact alike
    | read _ _ => exact alike
  | parse _ _ _ => cases error' <;> exact alike
  | read _ _ => cases error' <;> exact alike

/-! ### Environments -/

/-- An environment is like one with other bindings in which names stand for the same. -/
theorem Environment.Alike.rebound {env : Environment} {values : Bindings String}
    {contents : Bindings Content} (sameValues : ∀ name, values.get? name = env.value? name)
    (sameContents : ∀ name, contents.get? name = env.content? name) :
    env.Alike True { env with values := values, contents := contents } := by
  refine ⟨sameValues, sameContents, rfl, rfl, rfl, fun _ => ?_⟩
  exact ⟨rfl, rfl, rfl, rfl, rfl, rfl⟩

/-- **Only the newest bindings show.** After any changes a name stands for the newest of the bindings
that have been made for it, at the start or since, and the text of the environment lists these, each
name once and in increasing order. Other bindings in which names stand for the same, with other
hidden ones and in any order, make no difference: without expanders, a block gives the same lines
with them, or an error of the same kind at the same places in an environment with the same text. -/
theorem only_newest_bindings_show :
    (∀ start changes env, Environment.changeAll start changes = .ok env →
      let made := changes.foldl Made.after start.made
      (∀ name text, env.value? name = some text ↔ made.values.IsNewest name text) ∧
      (∀ name body, env.content? name = some body ↔ made.contents.IsNewest name body) ∧
      ∃ values contents, env.Lists env.debugText values contents) ∧
    ∀ (env : Environment) (values : Bindings String) (contents : Bindings Content),
      (∀ name, values.get? name = env.value? name) →
      (∀ name, contents.get? name = env.content? name) →
      env.registry.withoutExpanders = true →
      ∀ depth expanders content implied,
        (resolveWithin depth expanders env content implied).EndAlike
          (resolveWithin depth expanders { env with values := values, contents := contents } content
            implied) (· = ·) Error.LooksLike := by
  refine ⟨fun start changes env changed => ?_, fun env values contents sameValues sameContents
    without depth expanders content implied => ?_⟩
  · have made := (start.changeAll_ends_made changes).of_eq_ok changed
    dsimp only
    rw [← made]
    exact ⟨fun _ _ => Bindings.get?_eq_some_iff, fun _ _ => Bindings.get?_eq_some_iff, _, _,
      env.debugText_lists⟩
  · have anything : ∀ nodes bodies, Throughout (Node.AsksOnlyIf True) nodes bodies :=
      fun _ _ => .of_forall fun _ _ => trivial
    have asks : env.AsksOnlyIf True := ⟨without, fun _ _ _ => anything _ _⟩
    have alike := resolveWithin_alike (.rebound sameValues sameContents) asks
      (anything content.nodes content.bodies) depth expanders implied
    exact alike.mono_error fun _ _ => Error.Alike.looksLike

/-- A value that is bound by hand and again by a preamble, which first uses it for another one and
has a fallback for it, is shown once. The block, in which a third one is missing, cannot tell the
bindings from those without the hidden one, in another order. -/
theorem only_newest_bindings_show_thrice :
    let word (text : String) : Word := ⟨text, Position.start⟩
    let element (fallback : Option Position) (name : String) (value : Value) : PreambleElement :=
      ⟨Position.start, fallback, .value (word name) value⟩
    let start := Environment.ofFile Reader.nothing "main" Registry.empty
    let changes : List Change := [.value "x" "1", .preamble [
      element none "y" (.bound Position.start (word "x")), element none "x" (.literal (word "2")),
      element (some Position.start) "x" (.literal (word "3"))]]
    let block : Content := ⟨[], [[.node (.value Position.start (word "z"))]]⟩
    ∃ env failure, start.changeAll changes = .ok env ∧
      env.value? "x" = some "2" ∧ env.value? "y" = some "1" ∧
      (resolveWithin 1 Expansion.stock { env with values := [("y", "1"), ("x", "2")] } block
        false).outcome = .error (.error (.semantic failure)) ∧
      failure.cause = .unboundValue "z" ∧ failure.environment.debugText = env.debugText := by
  intro word element start changes block
  obtain ⟨env, changed⟩ : ∃ env, start.changeAll changes = .ok env := ⟨_, rfl⟩
  obtain ⟨value, -, -⟩ := only_newest_bindings_show.1 start changes env changed
  have x : env.value? "x" = some "2" :=
    (value "x" "2").2 ⟨[], [("y", "1"), ("x", "1")], rfl, List.forall_mem_nil _⟩
  have y : env.value? "y" = some "1" :=
    (value "y" "1").2 ⟨[("x", "2")], [("x", "1")], rfl, by decide⟩
  have same : ∀ name, Bindings.get? [("y", "1"), ("x", "2")] name = env.value? name := by
    cases changed
    intro name
    show [("y", "1"), ("x", "2")].lookup name = [("x", "2"), ("y", "1"), ("x", "1")].lookup name
    simp only [Table.lookup_entry, List.lookup_nil]
    by_cases isX : name = "x"
    · subst isX
      rfl
    · simp [isX]
  have alike := only_newest_bindings_show.2 env [("y", "1"), ("x", "2")] env.contents same
    (fun _ => rfl) (by cases changed; rfl) 1 Expansion.stock block false
  rcases alike.results with ⟨lines, _, found, _, _⟩ | ⟨stop, stop', failed, failed', looks⟩
  · cases changed
    cases found
  · cases changed
    cases failed
    cases stop' with
    | exhausted => exact looks.elim
    | error error =>
      cases error with
      | semantic failure =>
        obtain ⟨cause, _, text⟩ := looks
        exact ⟨_, failure, rfl, x, y, failed', cause.symm, text.symm⟩
      | parse path position error => exact looks.elim
      | read position error => exact looks.elim

end TypedMarkup
