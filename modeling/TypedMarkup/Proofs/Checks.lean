/-
**First faults.** A logic for computations that report the first fault in what they are given, one
rule for each way to build them.

* `Checks result faults holds`: without any of the `faults` there is a result, which satisfies
  `holds`; otherwise the first of them is reported.
* `Checks.bind` chains computations: the faults of the second come behind those of the first.
* `Checks.guard` puts a check before a computation, and `Checks.and_ends` adds what is known of its
  result otherwise.
* `Checks.succeeds_iff`: there is a result just if there are no faults.
-/

import TypedMarkup.Proofs.Ends

namespace TypedMarkup

variable {ε α β : Type} {faults more : List ε} {holds holds' : α → Prop}

/-- A computation reports the first of some faults, and has a result if there are none. -/
def Checks (result : Except ε α) (faults : List ε) (holds : α → Prop) : Prop :=
  match result with
  | .ok a => faults = [] ∧ holds a
  | .error error => faults.head? = some error

namespace Checks

theorem pure {a : α} (result : holds a) : Checks (Pure.pure a) ([] : List ε) holds :=
  ⟨rfl, result⟩

/-- A fault is reported, whatever comes behind it. -/
theorem blame (error : ε) (faults : List ε) :
    Checks (.error error) (error :: faults) holds :=
  rfl

theorem bind {first : Except ε α} {next : α → Except ε β} {later : β → Prop}
    (checks : Checks first faults holds) (rest : ∀ a, holds a → Checks (next a) more later) :
    Checks (first >>= next) (faults ++ more) later := by
  cases first with
  | ok a =>
    obtain ⟨none, held⟩ := checks
    rw [none, List.nil_append]
    exact rest a held
  | error error =>
    show (faults ++ more).head? = some error
    rw [List.head?_append, show faults.head? = some error from checks]
    rfl

/-- A computation whose result is only passed on finds no faults of its own. -/
theorem bind_pure {first : Except ε α} {next : α → β} {later : β → Prop}
    (checks : Checks first faults holds) (rest : ∀ a, holds a → later (next a)) :
    Checks (first >>= fun a => Pure.pure (next a)) faults later := by
  have whole := checks.bind fun a held => (pure (rest a held) : Checks _ ([] : List ε) later)
  rwa [List.append_nil] at whole

/-- A check before others. -/
theorem guard {result blamed : Except ε α} {fails : Prop} [Decidable fails] {error : ε}
    (same : blamed = .error error) (rest : ¬ fails → Checks result faults holds) :
    Checks (if fails then blamed else result) ((if fails then [error] else []) ++ faults) holds := by
  split
  · exact same ▸ blame error faults
  · next passes => exact rest passes

/-- What is known of a result, and that there are no faults if there is one. -/
theorem and_ends {result : Except ε α} (checks : Checks result faults holds)
    (ends : Ends result holds' fun _ => True) :
    Checks result faults fun a => holds' a ∧ faults = [] := by
  cases result with
  | ok a => exact ⟨checks.1, ends, checks.1⟩
  | error error => exact checks

theorem succeeds_iff {result : Except ε α} (checks : Checks result faults holds) :
    (∃ a, result = .ok a) ↔ faults = [] := by
  cases result with
  | ok a => exact ⟨fun _ => checks.1, fun _ => ⟨a, rfl⟩⟩
  | error error =>
    have head : faults.head? = some error := checks
    constructor
    · rintro ⟨a, same⟩
      cases same
    · intro none
      rw [none] at head
      cases head

/-- A result is what a computation without faults has. -/
theorem eq_ok_iff {result : Except ε α} {a : α} (checks : Checks result faults (· = a)) (b : α) :
    result = .ok b ↔ faults = [] ∧ b = a := by
  constructor
  · rintro rfl
    exact checks
  · rintro ⟨none, rfl⟩
    obtain ⟨c, found⟩ := checks.succeeds_iff.2 none
    rw [found] at checks ⊢
    rw [show c = b from checks.2]

end Checks

end TypedMarkup
