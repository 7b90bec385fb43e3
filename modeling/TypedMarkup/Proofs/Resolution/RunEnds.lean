/-
**How runs end.** The logic of `Ends` for runs, which may also be exhausted: `Run.Ends` says what
the result or the error of a run satisfies, and nothing of a run that is exhausted.
-/

import Mathlib.Data.List.Forall2
import TypedMarkup.Expansion
import TypedMarkup.Proofs.Ends

namespace TypedMarkup

variable {α β : Type} {holds holds' : α → Prop} {fails fails' : Error → Prop}

namespace Run

/-- How a run ends. -/
def Ends (run : Run α) (holds : α → Prop) (fails : Error → Prop) : Prop :=
  match run.outcome with
  | .ok result => holds result
  | .error (.error error) => fails error
  | .error .exhausted => True

theorem outcome_bind (first : Run α) (next : α → Run β) :
    (first >>= next).outcome = match first.outcome with
      | .ok result => (next result).outcome
      | .error stop => .error stop := by
  show (first.andThen next).outcome = _
  unfold andThen
  cases first.outcome <;> rfl

theorem outcome_bind_eq (first : Run α) (next : α → Run β) :
    (first >>= next).outcome = first.outcome >>= fun a => (next a).outcome := by
  rw [outcome_bind]
  cases first.outcome <;> rfl

/-- One run after another has a result if both have. -/
theorem outcome_bind_eq_ok {first : Run α} {next : α → Run β} {b : β} :
    (first >>= next).outcome = .ok b ↔
      ∃ a, first.outcome = .ok a ∧ (next a).outcome = .ok b := by
  rw [outcome_bind_eq, TypedMarkup.Ends.bind_eq_ok_iff]

/-- What comes after a run with a result is all that is left to do. -/
theorem outcome_bind_of_ok {first : Run α} {a : α} (ok : first.outcome = .ok a)
    (next : α → Run β) : (first >>= next).outcome = (next a).outcome := by
  rw [outcome_bind, ok]

/-- Nothing comes after a run that stops. -/
theorem outcome_bind_of_error {first : Run α} {stop : Stop} (stopped : first.outcome = .error stop)
    (next : α → Run β) : (first >>= next).outcome = .error stop := by
  rw [outcome_bind, stopped]

/-- Runs can be regrouped. -/
instance : LawfulMonad Run := LawfulMonad.mk' Run
  (by
    intro α run
    obtain ⟨calls, outcome⟩ := run
    cases outcome with
    | ok a => exact congrArg (Run.mk · _) (List.append_nil calls)
    | error stop => rfl)
  (by
    intro α β a next
    rfl)
  (by
    intro α β γ run next later
    obtain ⟨calls, outcome⟩ := run
    cases outcome with
    | error stop => rfl
    | ok a =>
      show Run.andThen (Run.andThen _ _) _ = Run.andThen _ fun a => Run.andThen _ _
      unfold andThen
      dsimp only
      cases (next a).outcome with
      | error stop => rfl
      | ok b => exact congrArg (Run.mk · _) (List.append_assoc ..))

theorem outcome_pure_eq_ok {a b : α} : (pure a : Run α).outcome = .ok b ↔ a = b :=
  ⟨Except.ok.inj, congrArg Except.ok⟩

theorem outcome_map_eq_ok {run : Run α} {f : α → β} {b : β} :
    (f <$> run).outcome = .ok b ↔ ∃ a, run.outcome = .ok a ∧ f a = b := by
  rw [map_eq_pure_bind, outcome_bind_eq_ok]
  exact exists_congr fun a => and_congr_right fun _ => outcome_pure_eq_ok

theorem outcome_map_eq_error {run : Run α} {f : α → β} {stop : Stop} :
    (f <$> run).outcome = .error stop ↔ run.outcome = .error stop := by
  rw [map_eq_pure_bind, outcome_bind]
  cases run.outcome with
  | ok a => exact iff_of_false (fun same => nomatch same) fun same => nomatch same
  | error stop' => exact ⟨fun same => congrArg _ (Except.error.inj same), fun same => same ▸ rfl⟩

theorem ofExcept_ok (a : α) : ofExcept (.ok a) = pure a :=
  rfl

theorem outcome_ofExcept_eq_ok {result : Except Error α} {a : α} :
    (ofExcept result).outcome = .ok a ↔ result = .ok a := by
  cases result <;> simp [ofExcept]

theorem ofExcept_bind (first : Except Error α) (next : α → Except Error β) :
    ofExcept (first >>= next) = (do
      let a ← ofExcept first
      ofExcept (next a)) := by
  cases first with
  | ok a => exact (pure_bind a fun a => ofExcept (next a)).symm
  | error error => rfl

/-- Runs for all items have results if each of them has its own. -/
theorem outcome_mapM_eq_ok {run : α → Run β} {items : List α} {results : List β} :
    (items.mapM run).outcome = .ok results ↔
      List.Forall₂ (fun item result => (run item).outcome = .ok result) items results := by
  induction items generalizing results with
  | nil =>
    rw [List.mapM_nil, List.forall₂_nil_left_iff]
    exact ⟨fun same => (Except.ok.inj same).symm, fun same => congrArg Except.ok same.symm⟩
  | cons item rest ih =>
    rw [List.mapM_cons, List.forall₂_cons_left_iff]
    simp only [outcome_bind_eq_ok, ih]
    constructor
    · rintro ⟨result, here, later, behind, same⟩
      exact ⟨result, later, here, behind, (Except.ok.inj same).symm⟩
    · rintro ⟨result, later, here, behind, rfl⟩
      exact ⟨result, here, later, behind, rfl⟩

/-- The first item whose run stops is where all of them stop. -/
theorem outcome_mapM_of_error {run : α → Run β} {before after : List α} {item : α} {stop : Stop}
    (resolved : ∀ earlier ∈ before, ∃ result, (run earlier).outcome = .ok result)
    (stopped : (run item).outcome = .error stop) :
    ((before ++ item :: after).mapM run).outcome = .error stop := by
  induction before with
  | nil =>
    rw [List.nil_append, List.mapM_cons]
    exact outcome_bind_of_error stopped _
  | cons earlier rest ih =>
    obtain ⟨⟨result, here⟩, resolved⟩ := List.forall_mem_cons.1 resolved
    rw [List.cons_append, List.mapM_cons, outcome_bind_of_ok here]
    exact outcome_bind_of_error (ih resolved) _

namespace Ends

theorem mono {run : Run α} (ends : run.Ends holds fails) (weaken : ∀ a, holds a → holds' a)
    (weaken' : ∀ error, fails error → fails' error) : run.Ends holds' fails' := by
  unfold Run.Ends at *
  split
  · next same =>
    rw [same] at ends
    exact weaken _ ends
  · next same =>
    rw [same] at ends
    exact weaken' _ ends
  · trivial

theorem bind {first : Run α} {next : α → Run β} {later : β → Prop} (ends : first.Ends holds fails)
    (rest : ∀ a, holds a → (next a).Ends later fails) : (first >>= next).Ends later fails := by
  unfold Run.Ends at *
  rw [outcome_bind]
  cases same : first.outcome with
  | ok a =>
    rw [same] at ends
    exact rest a ends
  | error stop =>
    rw [same] at ends
    cases stop with
    | error error => exact ends
    | exhausted => trivial

theorem map_iff {run : Run α} {f : α → β} {later : β → Prop} :
    (f <$> run).Ends later fails ↔ run.Ends (fun a => later (f a)) fails := by
  rw [map_eq_pure_bind]
  unfold Run.Ends
  rw [outcome_bind]
  cases run.outcome with
  | ok a => exact Iff.rfl
  | error stop => cases stop <;> exact Iff.rfl

/-- Runs for all items end as each of them does. -/
theorem mapM {run : α → Run β} {later : β → Prop} {items : List α}
    (each : ∀ item ∈ items, (run item).Ends later fails) :
    (items.mapM run).Ends (fun results => ∀ result ∈ results, later result) fails := by
  induction items with
  | nil => exact List.forall_mem_nil _
  | cons item rest ih =>
    obtain ⟨here, behind⟩ := List.forall_mem_cons.1 each
    rw [List.mapM_cons]
    refine here.bind fun result known => (ih behind).bind fun results all => ?_
    exact List.forall_mem_cons.2 ⟨known, all⟩

theorem ofExcept {result : Except Error α} (ends : TypedMarkup.Ends result holds fails) :
    (Run.ofExcept result).Ends holds fails := by
  cases result with
  | ok a => exact ends
  | error error => exact ends

theorem record_bind {call : Call} {next : Unit → Run α} (rest : (next ()).Ends holds fails) :
    (Run.record call >>= next).Ends holds fails := by
  have recorded : (Run.record call).Ends (fun _ => True) fails := trivial
  exact recorded.bind fun _ _ => rest

/-- Nothing is known of any run. -/
theorem any (run : Run α) : run.Ends (fun _ => True) fun _ => True := by
  unfold Run.Ends
  split <;> trivial

/-- The errors of a run that is attempted become results. -/
theorem attempt {run : Run α} {never : Error → Prop} (ends : run.Ends holds fails) :
    run.attempt.Ends (fun reply => TypedMarkup.Ends reply holds fails) never := by
  unfold Run.Ends Run.attempt at *
  cases same : run.outcome with
  | ok a =>
    rw [same] at ends
    exact ends
  | error stop =>
    rw [same] at ends
    cases stop with
    | error error => exact ends
    | exhausted => trivial

/-- A run that does not fail has what it is known to have. -/
theorem of_ok {run : Run α} {a : α} (ends : run.Ends holds fails) (ok : run.outcome = .ok a) :
    holds a := by
  unfold Run.Ends at ends
  rwa [ok] at ends

/-- A run that fails has an error that is known. -/
theorem of_error {run : Run α} {error : Error} (ends : run.Ends holds fails)
    (failed : run.outcome = .error (.error error)) : fails error := by
  unfold Run.Ends at ends
  rwa [failed] at ends

end Ends

end Run

end TypedMarkup
