/-
**Computations that end alike.** A logic for two computations that may fail and are gone through
side by side, one rule for each way to build them.

* `EndAlike first second agree blame`: both have results, which `agree`, or both fail, and `blame`
  relates the failures.
* `EndAlike.bind` chains computations and `EndAlike.foldlM` repeats them over the same items.
* `Run.EndAlike` says so of runs, which may also both be exhausted.
-/

import TypedMarkup.Proofs.Resolution.RunEnds

namespace TypedMarkup

variable {ε α α' β β' γ : Type}

/-- Two computations that may fail end alike. -/
def EndAlike (first : Except ε α) (second : Except ε α') (agree : α → α' → Prop)
    (blame : ε → ε → Prop) : Prop :=
  match first, second with
  | .ok a, .ok a' => agree a a'
  | .error error, .error error' => blame error error'
  | .ok _, .error _ | .error _, .ok _ => False

namespace EndAlike

variable {agree : α → α' → Prop} {later : β → β' → Prop} {blame : ε → ε → Prop}

/-- Both have a result or neither has. -/
theorem results {first : Except ε α} {second : Except ε α'}
    (alike : EndAlike first second agree blame) :
    (∃ a a', first = .ok a ∧ second = .ok a' ∧ agree a a') ∨
      ∃ error error', first = .error error ∧ second = .error error' ∧ blame error error' := by
  cases first with
  | ok a =>
    cases second with
    | ok a' => exact .inl ⟨a, a', rfl, rfl, alike⟩
    | error error' => exact alike.elim
  | error error =>
    cases second with
    | ok a' => exact alike.elim
    | error error' => exact .inr ⟨error, error', rfl, rfl, alike⟩

theorem bind {first : Except ε α} {second : Except ε α'} {next : α → Except ε β}
    {next' : α' → Except ε β'} (alike : EndAlike first second agree blame)
    (rest : ∀ a a', agree a a' → EndAlike (next a) (next' a') later blame) :
    EndAlike (first >>= next) (second >>= next') later blame := by
  rcases alike.results with ⟨a, a', rfl, rfl, agreed⟩ | ⟨error, error', rfl, rfl, blamed⟩
  · exact rest a a' agreed
  · exact blamed

theorem mono {first : Except ε α} {second : Except ε α'} {agree' : α → α' → Prop}
    {blame' : ε → ε → Prop} (alike : EndAlike first second agree blame)
    (weaken : ∀ a a', agree a a' → agree' a a')
    (weaken' : ∀ error error', blame error error' → blame' error error') :
    EndAlike first second agree' blame' := by
  rcases alike.results with ⟨a, a', rfl, rfl, agreed⟩ | ⟨error, error', rfl, rfl, blamed⟩
  · exact weaken a a' agreed
  · exact weaken' error error' blamed

/-- Computations with the same results, and what comes after them. -/
theorem bind_same {first second : Except ε α} {next : α → Except ε β} {next' : α → Except ε β'}
    (alike : EndAlike first second (· = ·) blame)
    (rest : ∀ a, EndAlike (next a) (next' a) later blame) :
    EndAlike (first >>= next) (second >>= next') later blame :=
  alike.bind fun a _ same => same ▸ rest a

/-- The first results may also be known to have a property of their own. -/
theorem and_ends {first : Except ε α} {second : Except ε α'} {holds : α → Prop}
    (alike : EndAlike first second agree blame) (ends : Ends first holds fun _ => True) :
    EndAlike first second (fun a a' => agree a a' ∧ holds a) blame := by
  rcases alike.results with ⟨a, a', rfl, rfl, agreed⟩ | ⟨error, error', rfl, rfl, blamed⟩
  · exact ⟨agreed, ends⟩
  · exact blamed

/-- Folds over the same items end alike if all their steps do. -/
theorem foldlM {step : α → γ → Except ε α} {step' : α' → γ → Except ε α'} {items : List γ}
    {start : α} {start' : α'} (first : agree start start')
    (round : ∀ a a', agree a a' → ∀ item, EndAlike (step a item) (step' a' item) agree blame) :
    EndAlike (items.foldlM step start) (items.foldlM step' start') agree blame := by
  induction items generalizing start start' with
  | nil => exact first
  | cons item items ih =>
    rw [List.foldlM_cons, List.foldlM_cons]
    exact (round start start' first item).bind fun a a' kept => ih kept

end EndAlike

namespace Run

/-- Two runs end alike. -/
def EndAlike (first : Run α) (second : Run α') (agree : α → α' → Prop)
    (blame : Error → Error → Prop) : Prop :=
  TypedMarkup.EndAlike first.outcome second.outcome agree fun stop stop' =>
    match stop, stop' with
    | .error error, .error error' => blame error error'
    | .exhausted, .exhausted => True
    | .error _, .exhausted | .exhausted, .error _ => False

namespace EndAlike

variable {agree : α → α' → Prop} {later : β → β' → Prop} {blame : Error → Error → Prop}

theorem bind {first : Run α} {second : Run α'} {next : α → Run β} {next' : α' → Run β'}
    (alike : first.EndAlike second agree blame)
    (rest : ∀ a a', agree a a' → (next a).EndAlike (next' a') later blame) :
    (first >>= next).EndAlike (second >>= next') later blame := by
  unfold Run.EndAlike at *
  rw [outcome_bind_eq, outcome_bind_eq]
  exact TypedMarkup.EndAlike.bind alike rest

theorem bind_same {first second : Run α} {next : α → Run β} {next' : α → Run β'}
    (alike : first.EndAlike second (· = ·) blame)
    (rest : ∀ a, (next a).EndAlike (next' a) later blame) :
    (first >>= next).EndAlike (second >>= next') later blame :=
  alike.bind fun a _ same => same ▸ rest a

/-- Runs that end alike still do if more errors count as alike. -/
theorem mono_error {first : Run α} {second : Run α'} {blame' : Error → Error → Prop}
    (alike : first.EndAlike second agree blame)
    (weaken : ∀ error error', blame error error' → blame' error error') :
    first.EndAlike second agree blame' := by
  refine TypedMarkup.EndAlike.mono alike (fun _ _ agreed => agreed) fun stop stop' blamed => ?_
  cases stop with
  | error error =>
    cases stop' with
    | error error' => exact weaken error error' blamed
    | exhausted => exact blamed
  | exhausted =>
    cases stop' with
    | error error' => exact blamed
    | exhausted => trivial

theorem ofExcept {first : Except Error α} {second : Except Error α'}
    (alike : TypedMarkup.EndAlike first second agree blame) :
    (Run.ofExcept first).EndAlike (Run.ofExcept second) agree blame := by
  rcases alike.results with ⟨a, a', rfl, rfl, agreed⟩ | ⟨error, error', rfl, rfl, blamed⟩
  · exact agreed
  · exact blamed

end EndAlike

end Run

end TypedMarkup
