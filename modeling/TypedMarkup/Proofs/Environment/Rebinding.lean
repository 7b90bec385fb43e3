/-
**Rebinding.** What a preamble makes of one name, which may stand for a value and for a content.

* `Binder` is what values and contents have in common: elements write something for a name, which
  has a meaning where they stand, and nothing else changes what the name stands for.
* `Binder.Follows` says what a name stands for after a preamble: what the last element makes of it
  that is no fallback, or else what it stood for before, or else what the first fallback makes of
  it.
* `Binder.follows`: so it is for every binder, by `Binder.get?_of_none_rewrites`, since an element
  counts only until another one does.
* `applyPreamble_binds` says so of values and contents, and what single elements leave as it is.
-/

import TypedMarkup.Proofs.Environment.Bindings

namespace TypedMarkup

open Environment

namespace Environment

variable {env after : Environment} {element : PreambleElement} {front back : List PreambleElement}

/-! ### Single elements -/

namespace Applies

theorem styles (applies : env.Applies element after)
    (binds : element.directive.isDeclaration = false) : after.styles = env.styles := by
  cases applies with
  | boundValue | value | boundContent | content => rfl
  | declaration declares =>
    rw [declares] at binds
    cases binds

theorem bindings (applies : env.Applies element after)
    (declares : element.directive.isDeclaration = true) :
    after.values = env.values ∧ after.contents = env.contents := by
  cases applies with
  | boundValue | value | boundContent | content => cases declares
  | declaration _ restyled =>
    obtain ⟨styles, rfl⟩ := restyled
    exact ⟨rfl, rfl⟩

theorem beside (applies : env.Applies element after) : env.Beside after := by
  cases applies with
  | boundValue | boundContent => exact Beside.refl env
  | value => exact Beside.withValue _ _
  | content => exact Beside.withContent _ _
  | declaration _ restyled => exact restyled.beside

end Applies

/-- An element that declares nothing fails only with the value that it binds. -/
theorem applyElement_error {error : Error} (binds : element.directive.isDeclaration = false)
    (failed : env.applyElement element = .error error) :
    ∃ name value, element.directive = .value name value ∧
      env.resolveValue value = .error error := by
  obtain ⟨start, fallback, directive⟩ := element
  unfold applyElement at failed
  cases directive with
  | value name value =>
    dsimp only at failed
    split at failed
    · cases failed
    · refine ⟨name, value, rfl, ?_⟩
      cases resolved : env.resolveValue value with
      | ok text =>
        rw [resolved] at failed
        cases failed
      | error found =>
        rw [resolved] at failed
        cases failed
        rfl
  | content name body =>
    dsimp only at failed
    split at failed <;> cases failed
  | bundle | defaults => cases binds

/-! ### Parts of a preamble -/

theorem applyPreamble_append (env : Environment) (front back : List PreambleElement) :
    env.applyPreamble (front ++ back) = (do
      let middle ← env.applyPreamble front
      middle.applyPreamble back) :=
  List.foldlM_append

theorem applyPreamble_append_eq_ok_iff :
    env.applyPreamble (front ++ back) = .ok after ↔
      ∃ middle, env.applyPreamble front = .ok middle ∧ middle.applyPreamble back = .ok after := by
  rw [applyPreamble_append, Ends.bind_eq_ok_iff]

theorem applyPreamble_cons_eq_ok_iff :
    env.applyPreamble (element :: back) = .ok after ↔
      ∃ next, env.applyElement element = .ok next ∧ next.applyPreamble back = .ok after := by
  unfold applyPreamble
  rw [List.foldlM_cons, Ends.bind_eq_ok_iff]

end Environment

/-! ### Binders -/

/-- What values and contents have in common. -/
structure Binder (Written Bound : Type) where
  /-- What a directive writes for a name. -/
  written? : Directive → String → Option Written
  /-- What something written means. -/
  resolve : Environment → Written → Except Error Bound
  /-- What a name stands for. -/
  get? : Environment → String → Option Bound
  /-- An element leaves a name alone for which it writes nothing, or for which it is a fallback that
  does not count. -/
  kept : ∀ {env next : Environment} {element : PreambleElement} {name : String},
    env.Applies element next →
    (written? element.directive name = none ∨
      element.fallback.isSome = true ∧ (get? env name).isSome = true) →
    get? next name = get? env name
  /-- Otherwise the name stands for what the element writes. -/
  bound : ∀ {env next : Environment} {element : PreambleElement} {name : String}
    {written : Written}, env.Applies element next → written? element.directive name = some written →
    (element.fallback = none ∨ get? env name = none) →
    ∃ bound, resolve env written = .ok bound ∧ get? next name = some bound

/-- What a directive that binds a name writes for it; nothing for other names. -/
def writtenFor {α : Type} (bound : Word) (written : α) (name : String) : Option α :=
  if bound.content = name then some written else none

theorem writtenFor_eq_some_iff {α : Type} {bound : Word} {written found : α} {name : String} :
    writtenFor bound written name = some found ↔ bound.content = name ∧ written = found := by
  unfold writtenFor
  split
  · next same => simp [same]
  · next differs => simp [differs]

section Bindings

variable {α β : Type} {bound : Word} {written : α} {name : String} {bindings : Bindings β}
  {fallback : Option Position}

/-- A new binding leaves a name alone for which nothing is written. -/
theorem get?_bound_of_passed (value : β)
    (free : fallback = none ∨ bindings.get? bound.content = none)
    (passed : writtenFor bound written name = none ∨
      fallback.isSome = true ∧ (bindings.get? name).isSome = true) :
    Bindings.get? ((bound.content, value) :: bindings) name = bindings.get? name := by
  have differs : name ≠ bound.content := by
    rintro rfl
    rcases passed with nothing | ⟨question, held⟩
    · exact absurd nothing (by simp [writtenFor])
    · rcases free with plain | unbound
      · rw [plain] at question
        cases question
      · rw [unbound] at held
        cases held
  exact (Table.lookup_entry name bound.content value bindings).trans (if_neg differs)

/-- A fallback for a bound name does not bind it. -/
theorem not_free_of_bound {question : Position} (held : (bindings.get? bound.content).isSome = true)
    (same : bound.content = name) : ¬ (some question = none ∨ bindings.get? name = none) := by
  rintro (plain | unbound)
  · cases plain
  · rw [same, unbound] at held
    cases held

end Bindings

namespace Binder

/-- The binder of values. -/
def values : Binder Value String where
  written? directive name := match directive with
    | .value bound value => writtenFor bound value name
    | .content .. | .bundle .. | .defaults .. => none
  resolve := resolveValue
  get? := value?
  kept applies passed := by
    cases applies with
    | boundValue | boundContent | content => rfl
    | value free => exact get?_bound_of_passed _ free passed
    | declaration declares restyled =>
      obtain ⟨styles, rfl⟩ := restyled
      rfl
  bound := by
    intro env next element name written applies writes free
    cases applies with
    | boundValue held =>
      obtain ⟨same, -⟩ := writtenFor_eq_some_iff.1 writes
      exact absurd free (not_free_of_bound held same)
    | value _ resolved =>
      obtain ⟨rfl, rfl⟩ := writtenFor_eq_some_iff.1 writes
      exact ⟨_, resolved, (Table.lookup_entry ..).trans (if_pos rfl)⟩
    | boundContent | content => cases writes
    | declaration declares =>
      obtain ⟨start, fallback, directive⟩ := element
      cases directive with
      | value | content => cases declares
      | bundle | defaults => cases writes

/-- The binder of contents, which mean themselves. -/
def contents : Binder Content Content where
  written? directive name := match directive with
    | .content bound body => writtenFor bound body name
    | .value .. | .bundle .. | .defaults .. => none
  resolve _ body := .ok body
  get? := content?
  kept applies passed := by
    cases applies with
    | boundValue | value | boundContent => rfl
    | content free => exact get?_bound_of_passed _ free passed
    | declaration declares restyled =>
      obtain ⟨styles, rfl⟩ := restyled
      rfl
  bound := by
    intro env next element name written applies writes free
    cases applies with
    | boundContent held =>
      obtain ⟨same, -⟩ := writtenFor_eq_some_iff.1 writes
      exact absurd free (not_free_of_bound held same)
    | content =>
      obtain ⟨rfl, rfl⟩ := writtenFor_eq_some_iff.1 writes
      exact ⟨_, rfl, (Table.lookup_entry ..).trans (if_pos rfl)⟩
    | boundValue | value => cases writes
    | declaration declares =>
      obtain ⟨start, fallback, directive⟩ := element
      cases directive with
      | value | content => cases declares
      | bundle | defaults => cases writes

/-! ### Names after a preamble -/

section Names

variable {Written Bound : Type} (binder : Binder Written Bound)

/-- An element writes something for a name. -/
def Writes (name : String) (element : PreambleElement) : Prop :=
  (binder.written? element.directive name).isSome = true

/-- An element writes something for a name and is no fallback. -/
def Rewrites (name : String) (element : PreambleElement) : Prop :=
  element.fallback = none ∧ binder.Writes name element

instance (name : String) : DecidablePred (binder.Writes name) := fun element =>
  inferInstanceAs (Decidable ((binder.written? element.directive name).isSome = true))

instance (name : String) : DecidablePred (binder.Rewrites name) := fun element =>
  inferInstanceAs (Decidable (element.fallback = none ∧ binder.Writes name element))

/-- A name stands for what is written for it behind a part of a preamble. -/
def Resolved (env : Environment) (before : List PreambleElement) (written : Written)
    (after : Environment) (name : String) : Prop :=
  ∃ middle bound, env.applyPreamble before = .ok middle ∧
    binder.resolve middle written = .ok bound ∧ binder.get? after name = some bound

/-- **What a name stands for after a preamble.** -/
structure Follows (env : Environment) (preamble : List PreambleElement) (after : Environment)
    (name : String) : Prop where
  /-- The last element that is no fallback counts. -/
  rewritten : ∀ before element later written, preamble = before ++ element :: later →
    element.fallback = none → binder.written? element.directive name = some written →
    (∀ other ∈ later, ¬ binder.Rewrites name other) → binder.Resolved env before written after name
  /-- Without one a bound name stands for what it stood for. -/
  kept : (∀ element ∈ preamble, ¬ binder.Rewrites name element) →
    ∀ bound, binder.get? env name = some bound → binder.get? after name = some bound
  /-- A name that is not bound stands for what the first fallback makes of it. -/
  fallback : (∀ element ∈ preamble, ¬ binder.Rewrites name element) → binder.get? env name = none →
    ∀ before element later written, preamble = before ++ element :: later →
    binder.written? element.directive name = some written →
    (∀ other ∈ before, ¬ binder.Writes name other) → binder.Resolved env before written after name
  /-- Without any element for it, it stays so. -/
  unbound : (∀ element ∈ preamble, ¬ binder.Writes name element) → binder.get? env name = none →
    binder.get? after name = none

variable {binder} {env next after : Environment} {element : PreambleElement}
  {preamble before later : List PreambleElement} {name : String} {bound : Bound} {written : Written}

/-- Elements that write nothing for a name leave it alone. -/
theorem get?_of_none_writes (applied : env.applyPreamble preamble = .ok after)
    (none : ∀ element ∈ preamble, ¬ binder.Writes name element) :
    binder.get? after name = binder.get? env name := by
  induction preamble generalizing env with
  | nil =>
    cases applied
    rfl
  | cons element rest ih =>
    obtain ⟨here, later⟩ := List.forall_mem_cons.1 none
    obtain ⟨next, step, applied⟩ := applyPreamble_cons_eq_ok_iff.1 applied
    have applies := (env.applyElement_applies element).of_eq_ok step
    have nothing := Option.not_isSome_iff_eq_none.1 here
    exact (ih applied later).trans (binder.kept applies (.inl nothing))

/-- Fallbacks leave a bound name alone. -/
theorem get?_of_none_rewrites (applied : env.applyPreamble preamble = .ok after)
    (none : ∀ element ∈ preamble, ¬ binder.Rewrites name element)
    (held : binder.get? env name = some bound) : binder.get? after name = some bound := by
  induction preamble generalizing env with
  | nil =>
    cases applied
    exact held
  | cons element rest ih =>
    obtain ⟨here, later⟩ := List.forall_mem_cons.1 none
    obtain ⟨next, step, applied⟩ := applyPreamble_cons_eq_ok_iff.1 applied
    have applies := (env.applyElement_applies element).of_eq_ok step
    refine ih applied later (Eq.trans (binder.kept applies ?_) held)
    by_cases writes : binder.Writes name element
    · have fallback : element.fallback ≠ Option.none := fun plain => here ⟨plain, writes⟩
      exact .inr ⟨Option.isSome_iff_ne_none.2 fallback, by rw [held]; rfl⟩
    · exact .inl (Option.not_isSome_iff_eq_none.1 writes)

/-- What an element makes of a name counts until another one does that is no fallback. -/
theorem resolved_of_split (applied : env.applyPreamble (before ++ element :: later) = .ok after)
    (writes : binder.written? element.directive name = some written)
    (free : ∀ middle, env.applyPreamble before = .ok middle →
      element.fallback = none ∨ binder.get? middle name = none)
    (none : ∀ other ∈ later, ¬ binder.Rewrites name other) :
    binder.Resolved env before written after name := by
  obtain ⟨middle, first, applied⟩ := applyPreamble_append_eq_ok_iff.1 applied
  obtain ⟨next, step, applied⟩ := applyPreamble_cons_eq_ok_iff.1 applied
  have applies := (middle.applyElement_applies element).of_eq_ok step
  obtain ⟨bound, resolved, now⟩ := binder.bound applies writes (free middle first)
  exact ⟨middle, bound, first, resolved, get?_of_none_rewrites applied none now⟩

theorem follows (applied : env.applyPreamble preamble = .ok after) (name : String) :
    binder.Follows env preamble after name where
  rewritten before element later written split plain writes none := by
    subst split
    exact resolved_of_split applied writes (fun _ _ => .inl plain) none
  kept none bound held := get?_of_none_rewrites applied none held
  fallback none unbound before element later written split writes first := by
    subst split
    refine resolved_of_split applied writes (fun middle done => .inr ?_) fun other member => ?_
    · exact (get?_of_none_writes done first).trans unbound
    · exact none other (List.mem_append_right _ (List.mem_cons_of_mem _ member))
  unbound none unbound := (get?_of_none_writes applied none).trans unbound

end Names

end Binder

/-- **What a preamble binds**, and what its elements leave as it is. An element that binds something
fails only if a value has no meaning. A preamble may be split anywhere. -/
theorem applyPreamble_binds (env : Environment) (preamble : List PreambleElement) :
    (∀ after, env.applyPreamble preamble = .ok after → ∀ name,
      Binder.values.Follows env preamble after name ∧
      Binder.contents.Follows env preamble after name) ∧
    (∀ element,
      (∀ next, env.applyElement element = .ok next →
        (element.directive.isDeclaration = false → next.styles = env.styles) ∧
        (element.directive.isDeclaration = true →
          next.values = env.values ∧ next.contents = env.contents) ∧
        env.Beside next) ∧
      (element.directive.isDeclaration = false →
        ∀ error, env.applyElement element = .error error →
          ∃ name value, element.directive = .value name value ∧
            env.resolveValue value = .error error)) ∧
    ∀ front back, preamble = front ++ back →
      env.applyPreamble preamble = (do
        let middle ← env.applyPreamble front
        middle.applyPreamble back) := by
  refine ⟨fun after applied name => ⟨Binder.follows applied name, Binder.follows applied name⟩,
    fun element => ⟨fun next applied => ?_, fun binds _ => applyElement_error binds⟩,
    fun front back split => ?_⟩
  · have applies := (env.applyElement_applies element).of_eq_ok applied
    exact ⟨applies.styles, applies.bindings, applies.beside⟩
  · rw [split]
    exact env.applyPreamble_append front back

/-- Of two values for one name the last one counts, but a value between them refers to the first
one, which is a fallback. A fallback for a bound name does not count. -/
theorem applyPreamble_binds_twice :
    let word (text : String) : Word := ⟨text, Position.start⟩
    let env := (Environment.ofFile Reader.nothing "" Registry.empty).withValue "k" "old"
    let element (fallback : Option Position) (name : String) (value : Value) : PreambleElement :=
      ⟨Position.start, fallback, .value (word name) value⟩
    let first := element (some Position.start) "x" (.literal (word "a"))
    let between := element none "y" (.bound Position.start (word "x"))
    let second := element none "x" (.literal (word "b"))
    let passed := element (some Position.start) "k" (.literal (word "new"))
    ∃ after, env.applyPreamble [first, between, second, passed] = .ok after ∧
      after.value? "x" = some "b" ∧ after.value? "y" = some "a" ∧ after.value? "k" = some "old" ∧
      after.value? "z" = none ∧ after.content? "x" = none := by
  intro word env element first between second passed
  obtain ⟨names, -, -⟩ := applyPreamble_binds env [first, between, second, passed]
  obtain ⟨after, applied⟩ :
    ∃ after, env.applyPreamble [first, between, second, passed] = .ok after := ⟨_, rfl⟩
  refine ⟨after, applied, ?_, ?_, ?_, ?_, ?_⟩
  · obtain ⟨middle, bound, -, resolved, now⟩ :=
      (names after applied "x").1.rewritten [first, between] second [passed] _ rfl rfl rfl
        (by decide)
    cases resolved
    exact now
  · obtain ⟨middle, bound, done, resolved, now⟩ :=
      (names after applied "y").1.rewritten [first] between [second, passed] _ rfl rfl rfl
        (by decide)
    cases done
    cases resolved
    exact now
  · exact (names after applied "k").1.kept (by decide) "old" rfl
  · exact (names after applied "z").1.unbound (by decide) rfl
  · exact (names after applied "x").2.unbound (by decide) rfl

end TypedMarkup
