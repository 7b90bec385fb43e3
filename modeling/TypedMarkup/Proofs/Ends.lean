/-
**How computations end.** A logic for what may fail, one rule for each way to build it.

* `Ends result holds fails`: the result satisfies `holds`, or the failure satisfies `fails`.
* `Ends.bind` chains computations and `Ends.foldlM` repeats one; `Ends.foldlM_view` follows what is
  seen of its results.
-/

namespace TypedMarkup

variable {ε α β γ : Type} {holds holds' : α → Prop} {fails fails' : ε → Prop}

/-- How something that may fail ends. -/
def Ends (result : Except ε α) (holds : α → Prop) (fails : ε → Prop) : Prop :=
  match result with
  | .ok a => holds a
  | .error error => fails error

namespace Ends

theorem pure {a : α} (result : holds a) : Ends (Pure.pure a) holds fails :=
  result

theorem mono {result : Except ε α} (ends : Ends result holds fails)
    (weaken : ∀ a, holds a → holds' a) (weaken' : ∀ error, fails error → fails' error) :
    Ends result holds' fails' := by
  cases result with
  | ok a => exact weaken a ends
  | error error => exact weaken' error ends

theorem and {result : Except ε α} (ends : Ends result holds fails)
    (ends' : Ends result holds' fails') :
    Ends result (fun a => holds a ∧ holds' a) (fun error => fails error ∧ fails' error) := by
  cases result with
  | ok a => exact ⟨ends, ends'⟩
  | error error => exact ⟨ends, ends'⟩

theorem bind {first : Except ε α} {next : α → Except ε β} {later : β → Prop}
    (ends : Ends first holds fails) (rest : ∀ a, holds a → Ends (next a) later fails) :
    Ends (first >>= next) later fails := by
  cases first with
  | ok a => exact rest a ends
  | error error => exact ends

/-- A chain has a result if both of its parts have one. -/
theorem bind_eq_ok_iff {first : Except ε α} {next : α → Except ε β} {b : β} :
    (first >>= next) = .ok b ↔ ∃ a, first = .ok a ∧ next a = .ok b := by
  cases first with
  | ok a => exact ⟨fun same => ⟨a, rfl, same⟩, fun ⟨_, rfl, same⟩ => same⟩
  | error error => exact iff_of_false (fun same => nomatch same) fun ⟨_, same, _⟩ => nomatch same

/-- A result is what the computation ends in. -/
theorem of_eq_ok {result : Except ε α} {a : α} (ends : Ends result holds fails)
    (same : result = .ok a) : holds a := by
  subst same
  exact ends

/-- Of any result nothing is known but that it is the result. -/
theorem any (result : Except ε α) : Ends result (fun a => result = .ok a) fun _ => True := by
  cases result <;> trivial

/-- A computation ends in its result. -/
theorem result (result : Except ε α) :
    Ends result (fun a => result = .ok a) fun error => result = .error error := by
  cases result <;> rfl

/-- A fold keeps what every step keeps. -/
theorem foldlM {step : β → α → Except ε β} {keeps : β → Prop} {items : List α} {start : β}
    (first : keeps start)
    (round : ∀ b, keeps b → ∀ a ∈ items, Ends (step b a) keeps fails) :
    Ends (items.foldlM step start) keeps fails := by
  induction items generalizing start with
  | nil => exact pure first
  | cons a items ih =>
    rw [List.foldlM_cons]
    refine bind (round start first a List.mem_cons_self) fun b kept => ih kept ?_
    exact fun b kept a member => round b kept a (List.mem_cons_of_mem _ member)

/-- What is seen of a fold follows what is seen of its steps. -/
theorem foldlM_view {step : β → α → Except ε β} {view : β → γ} {follow : γ → α → γ}
    (round : ∀ b a, Ends (step b a) (fun next => view next = follow (view b) a) fun _ => True)
    (items : List α) (start : β) :
    Ends (items.foldlM step start) (fun last => view last = items.foldl follow (view start))
      fun _ => True := by
  induction items generalizing start with
  | nil => exact pure rfl
  | cons a items ih =>
    rw [List.foldlM_cons, List.foldl_cons]
    exact bind (round start a) fun next same => same ▸ ih next

end Ends

end TypedMarkup
