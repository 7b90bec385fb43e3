/-
**What preambles bind.** The values and contents that are bound after a preamble, and the types that
paths lead to.

* `Environment.applyElement_ends_bindings`: what is bound behind an element is what `valuesBehind` and
  `contentsBehind` read off it.
* `Environment.applyPreamble_ends_values`: the values after a preamble are those that `valuesAfter`
  reads off it.
* `Environment.applyPreamble_ends_contents`: the contents after a preamble are those before it and
  the bodies of its elements; `Environment.applyPreamble_ends_content?` says so of those that names
  stand for, which newer ones may hide.
* `Registry.follow?` follows a path of a tree from the type around it, and `resolvePath_follows`
  says that resolving the path does so.
-/

import TypedMarkup.Proofs.Environment.Beside
import TypedMarkup.Proofs.Tree.Leaves

namespace TypedMarkup

/-- A directive declares a class or defaults. -/
def Directive.isDeclaration : Directive → Bool
  | bundle .. | defaults .. => true
  | value .. | content .. => false

/-- The contents that are bound behind a preamble element. -/
def contentsBehind (contents : Bindings Content) (element : PreambleElement) : Bindings Content :=
  match element.directive with
  | .content name body =>
    if element.fallback.isSome && (contents.get? name.content).isSome then contents
    else (name.content, body) :: contents
  | .value _ _ | .bundle _ _ _ _ | .defaults _ _ _ => contents

/-! ### Paths -/

/-- The type that a path of a tree leads to from the type around it. -/
def Registry.follow? (registry : Registry) (current : Option TypeId) (path : TypePath) :
    Option TypeId :=
  let root := match path with
    | .absolute root _ => registry.global? root.content
    | .relative _ => current
  root.bind fun root =>
    path.steps.foldlM (fun parent step => registry.child? parent step.name.content) root

namespace Environment

variable (env : Environment)

/-- Resolving a path follows it, and fails just where it is lost. -/
theorem resolvePath_follows (path : TypePath) :
    Ends (env.resolvePath path)
      (fun type => env.registry.follow? env.current path = some type)
      fun _ => env.registry.follow? env.current path = none := by
  have walk : ∀ (steps : List ChildStep) (root : TypeId),
      Ends (steps.foldlM (env.resolveStep ·) root) (fun type =>
        steps.foldlM (fun parent step => env.registry.child? parent step.name.content) root =
          some type) fun _ =>
        steps.foldlM (fun parent step => env.registry.child? parent step.name.content) root =
          none := by
    intro steps
    induction steps with
    | nil => exact fun _ => rfl
    | cons step rest ih =>
      intro root
      rw [List.foldlM_cons, List.foldlM_cons]
      unfold resolveStep
      cases env.registry.child? root step.name.content with
      | none => exact rfl
      | some child => exact ih child
  unfold Registry.follow?
  cases path with
  | absolute root steps =>
    unfold resolvePath resolveRoot
    dsimp only
    cases env.registry.global? root.content with
    | none => exact rfl
    | some id => exact walk steps id
  | relative steps =>
    unfold resolvePath resolveRoot
    dsimp only
    cases env.current with
    | none => exact rfl
    | some id => exact walk steps id

theorem resolvePath_ends_follow (path : TypePath) :
    Ends (env.resolvePath path)
      (fun type => env.registry.follow? env.current path = some type) fun _ => True :=
  (env.resolvePath_follows path).mono (fun _ leads => leads) fun _ _ => trivial

theorem resolvePath_eq_ok_iff {path : TypePath} {type : TypeId} :
    env.resolvePath path = .ok type ↔ env.registry.follow? env.current path = some type := by
  have follows := env.resolvePath_follows path
  cases resolved : env.resolvePath path with
  | ok found =>
    have leads : env.registry.follow? env.current path = some found := by
      rwa [resolved] at follows
    rw [leads]
    exact ⟨fun same => congrArg some (Except.ok.inj same),
      fun same => congrArg _ (Option.some.inj same)⟩
  | error error =>
    have lost : env.registry.follow? env.current path = none := by
      rwa [resolved] at follows
    rw [lost]
    exact iff_of_false (fun same => nomatch same) fun same => nomatch same

/-! ### Values -/

theorem resolveValue_ends_text (value : Value) :
    Ends (env.resolveValue value) (fun text => text = value.textIn env.values) fun _ => True := by
  cases value with
  | literal word => rfl
  | escaped text => rfl
  | bound start name =>
    unfold resolveValue Value.textIn
    dsimp only
    split
    · next text found =>
      show text = (env.value? name.content).getD ""
      rw [found]
      rfl
    · trivial

/-- What an element does: it binds a value or a content, unless it is a fallback and the name is
bound, or it declares something. -/
inductive Applies : PreambleElement → Environment → Prop where
  | boundValue {start question : Position} {name : Word} {value : Value}
      (bound : (env.value? name.content).isSome = true) :
      Applies ⟨start, some question, .value name value⟩ env
  | value {start : Position} {fallback : Option Position} {name : Word} {value : Value}
      {text : String} (free : fallback = none ∨ env.value? name.content = none)
      (resolved : env.resolveValue value = .ok text) :
      Applies ⟨start, fallback, .value name value⟩ (env.withValue name.content text)
  | boundContent {start question : Position} {name : Word} {body : Content}
      (bound : (env.content? name.content).isSome = true) :
      Applies ⟨start, some question, .content name body⟩ env
  | content {start : Position} {fallback : Option Position} {name : Word} {body : Content}
      (free : fallback = none ∨ env.content? name.content = none) :
      Applies ⟨start, fallback, .content name body⟩ (env.withContent name.content body)
  | declaration {element : PreambleElement} {next : Environment}
      (declares : element.directive.isDeclaration = true) (restyled : env.Restyled next) :
      Applies element next

theorem declare_ends_restyled (target : Target) (paths : List TypePath) (uses : List ClassRef)
    (block : Option PropertyBlock) :
    Ends (env.declare target paths uses block) env.Restyled fun _ => True :=
  (env.declare_ends (AllKnown.trivial _)).mono (fun _ restyled => restyled) fun _ _ => trivial

/-- An element binds unless it is a fallback and its name is bound. -/
theorem free_iff {fallback : Option Position} {α : Type} {bound : Option α} :
    ¬ (fallback.isSome && bound.isSome) = true ↔ fallback = none ∨ bound = none := by
  cases fallback <;> cases bound <;> simp

theorem applyElement_applies (element : PreambleElement) :
    Ends (env.applyElement element) (env.Applies element) fun _ => True := by
  obtain ⟨start, fallback, directive⟩ := element
  unfold applyElement
  cases directive with
  | value name value =>
    dsimp only
    split
    · next both =>
      rw [Bool.and_eq_true] at both
      obtain ⟨question, rfl⟩ := Option.isSome_iff_exists.1 both.1
      exact .boundValue both.2
    · next free =>
      cases resolved : env.resolveValue value with
      | error error => trivial
      | ok text => exact .value (free_iff.1 free) resolved
  | content name body =>
    dsimp only
    split
    · next both =>
      rw [Bool.and_eq_true] at both
      obtain ⟨question, rfl⟩ := Option.isSome_iff_exists.1 both.1
      exact .boundContent both.2
    · next free => exact .content (free_iff.1 free)
  | bundle declared paths uses block =>
    refine (env.declare_ends_restyled _ paths uses block).mono ?_ fun _ _ => trivial
    exact fun _ => .declaration rfl
  | defaults paths uses block =>
    refine (env.declare_ends_restyled _ paths uses block).mono ?_ fun _ _ => trivial
    exact fun _ => .declaration rfl

/-- What is bound behind an element is read off it and what was bound before. -/
theorem applyElement_ends_bindings (element : PreambleElement) :
    Ends (env.applyElement element) (fun next => next.values = valuesBehind env.values element ∧
      next.contents = contentsBehind env.contents element) fun _ => True := by
  refine (env.applyElement_applies element).mono (fun next applies => ?_) fun _ _ => trivial
  cases applies with
  | boundValue bound => exact ⟨(if_pos bound).symm, rfl⟩
  | value free resolved =>
    rw [(env.resolveValue_ends_text _).of_eq_ok resolved]
    exact ⟨(if_neg (free_iff.2 free)).symm, rfl⟩
  | boundContent bound => exact ⟨rfl, (if_pos bound).symm⟩
  | content free => exact ⟨rfl, (if_neg (free_iff.2 free)).symm⟩
  | @declaration element next declares restyled =>
    obtain ⟨styles, rfl⟩ := restyled
    obtain ⟨start, fallback, directive⟩ := element
    cases directive with
    | value => cases declares
    | content => cases declares
    | bundle => exact ⟨rfl, rfl⟩
    | defaults => exact ⟨rfl, rfl⟩

theorem applyElement_ends_values (element : PreambleElement) :
    Ends (env.applyElement element) (fun next => next.values = valuesBehind env.values element)
      fun _ => True :=
  (env.applyElement_ends_bindings element).mono (fun _ same => same.1) fun _ _ => trivial

/-- **The values after a preamble** are those that can be read off it. -/
theorem applyPreamble_ends_values (preamble : List PreambleElement) :
    Ends (env.applyPreamble preamble) (fun inner => inner.values = valuesAfter env.values preamble)
      fun _ => True :=
  Ends.foldlM_view (fun next element => next.applyElement_ends_values element) preamble env

/-! ### Contents -/

/-- An element binds its body or leaves the contents alone. -/
theorem applyElement_ends_contents (element : PreambleElement) :
    Ends (env.applyElement element) (fun next => next.contents = env.contents ∨
      ∃ name body, element.directive = .content name body ∧
        next.contents = (name.content, body) :: env.contents)
      fun _ => True := by
  refine (env.applyElement_applies element).mono (fun next applies => ?_) fun _ _ => trivial
  cases applies with
  | boundValue => exact .inl rfl
  | value => exact .inl rfl
  | boundContent => exact .inl rfl
  | @content start fallback name body => exact .inr ⟨name, body, rfl, rfl⟩
  | declaration declares restyled =>
    obtain ⟨styles, rfl⟩ := restyled
    exact .inl rfl

/-- **The contents after a preamble** were bound before it or are bodies of its elements. -/
theorem applyPreamble_ends_contents (preamble : List PreambleElement) :
    Ends (env.applyPreamble preamble) (fun inner => ∀ binding ∈ inner.contents,
      binding ∈ env.contents ∨
        ∃ element ∈ preamble, ∃ name, element.directive = .content name binding.2)
      fun _ => True := by
  refine Ends.foldlM (fun binding member => .inl member) fun next known element inside => ?_
  refine (next.applyElement_ends_contents element).mono (fun later added binding member => ?_)
    fun _ _ => trivial
  rcases added with same | ⟨name, body, binds, same⟩
  · exact known binding (same ▸ member)
  · rw [same] at member
    rcases List.mem_cons.1 member with rfl | member
    · exact .inr ⟨element, inside, name, binds⟩
    · exact known binding member

/-- What a name stands for after a preamble, it stood for before or the preamble binds. -/
theorem applyPreamble_ends_content? (preamble : List PreambleElement) :
    Ends (env.applyPreamble preamble) (fun inner => ∀ name content,
      inner.content? name = some content → env.content? name = some content ∨
        ∃ element ∈ preamble, ∃ bound, element.directive = .content bound content)
      fun _ => True := by
  refine Ends.foldlM (fun name content found => .inl found) fun next known element inside => ?_
  refine (next.applyElement_ends_contents element).mono (fun later added name content found => ?_)
    fun _ _ => trivial
  unfold content? at found
  rcases added with same | ⟨bound, body, binds, same⟩
  · rw [same] at found
    exact known name content found
  · rw [same] at found
    unfold Bindings.get? at found
    rw [List.lookup_cons] at found
    split at found
    · cases found
      exact .inr ⟨element, inside, bound, binds⟩
    · exact known name content found

end Environment

end TypedMarkup
