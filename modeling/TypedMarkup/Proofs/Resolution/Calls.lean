/-
**Calls of expanders.** A run asks expanders only where it says so: other expanders that answer the
recorded calls in the same way give the same run.

* `Run.SameIf` compares a run to another one as far as its own calls are answered alike, one rule
  for each way to build a run.
* `Expanders.AgreeAt` is what two families of expanders have to share at a call: the answer of the
  expander that the type of the node names.
* `resolveWithin_eq_of_agreeAt`: two families that agree at all calls of a run give the same run.
-/

import TypedMarkup.Proofs.Resolution.Shown

namespace TypedMarkup

open Output (Line)

variable {α β : Type} {agree : Call → Prop}

/-! ### Runs -/

/-- The run is the other one, if its calls are answered alike. -/
def Run.SameIf (agree : Call → Prop) (run other : Run α) : Prop :=
  (∀ call ∈ run.calls, agree call) → run = other

namespace Run.SameIf

theorem refl (run : Run α) : run.SameIf agree run :=
  fun _ => rfl

/-- What comes second may rely on what the first run has recorded. -/
theorem bind {first first' : Run α} {next next' : α → Run β} (same : first.SameIf agree first')
    (rest : ∀ a, first.outcome = .ok a → (∀ call ∈ first.calls, agree call) →
      (next a).SameIf agree (next' a)) :
    (first >>= next).SameIf agree (first' >>= next') := by
  intro alike
  rw [Run.calls_bind] at alike
  obtain ⟨calls, outcome⟩ := first
  cases outcome with
  | error stop => rw [← same alike]; rfl
  | ok a =>
    obtain ⟨before, behind⟩ := List.forall_mem_append.1 alike
    rw [← same before]
    show Run.mk _ _ = Run.mk _ _
    rw [rest a rfl before behind]

/-- Only the second of two runs may differ. -/
theorem bind_left (first : Run α) {next next' : α → Run β}
    (rest : ∀ a, first.outcome = .ok a → (∀ call ∈ first.calls, agree call) →
      (next a).SameIf agree (next' a)) :
    (first >>= next).SameIf agree (first >>= next') :=
  (refl first).bind rest

/-- Only the first of two runs may differ. -/
theorem bind_right {first first' : Run α} (same : first.SameIf agree first')
    (next : α → Run β) : (first >>= next).SameIf agree (first' >>= next) :=
  same.bind fun a _ _ => refl (next a)

theorem attempt {run run' : Run α} (same : run.SameIf agree run') :
    run.attempt.SameIf agree run'.attempt := by
  intro alike
  have calls : run.attempt.calls = run.calls := by
    unfold Run.attempt
    split <;> rfl
  rw [same (calls ▸ alike)]

end Run.SameIf

/-! ### Expanders -/

/-- Two families of expanders answer a call alike. -/
structure Expanders.AgreeAt (expanders expanders' : Expanders) (call : Call) : Prop where
  pre : ∀ name,
    (call.environment.registry.get call.invocation.type).kind = .preExpander name →
    expanders.pre name call.environment call.invocation =
      expanders'.pre name call.environment call.invocation
  post : ∀ name,
    (call.environment.registry.get call.invocation.type).kind = .postExpander name →
    expanders.post name call.environment call.invocation =
      expanders'.post name call.environment call.invocation

/-- An expansion asks for the same blocks, whatever resolves them. -/
theorem Expansion.run_sameIf {block block' : Environment → Content → Bool → Run (List Line)}
    (blamed : String → Error) (expansion : Expansion α)
    (resolves : ∀ env content implied,
      (block env content implied).SameIf agree (block' env content implied)) :
    (expansion.run block blamed).SameIf agree (expansion.run block' blamed) := by
  induction expansion with
  | done answer => exact .refl _
  | fail reason => exact .refl _
  | raise error => exact .refl _
  | resolve env content implied next ih =>
    exact (resolves env content implied).attempt.bind fun reply _ _ => ih reply

namespace Resolver

/-- The runs of a resolver are those of another one, as far as their calls are answered alike. -/
def SameIf (agree : Call → Prop) (resolver resolver' : Resolver) : Prop :=
  ∀ env element, (resolver env element).SameIf agree (resolver' env element)

variable {resolver resolver' : Resolver}

/-! ### Lines and blocks -/

theorem joinElements_sameIf (same : resolver.SameIf agree resolver') (env : Environment)
    (begun : Line) (elements : List LineElement) :
    (resolver.joinElements env begun elements).SameIf agree
      (resolver'.joinElements env begun elements) := by
  induction elements generalizing begun with
  | nil => exact .refl _
  | cons element rest ih =>
    unfold joinElements
    refine (same env element).bind fun expanded _ _ => ?_
    cases expanded with
    | nil => exact ih begun
    | cons first others =>
      cases others with
      | nil => exact ih _
      | cons second more => exact (ih _).bind_right _

theorem lines_sameIf (same : resolver.SameIf agree resolver') (env : Environment)
    (lines : List (List LineElement)) :
    (resolver.lines env lines).SameIf agree (resolver'.lines env lines) := by
  induction lines with
  | nil => exact .refl _
  | cons first rest ih =>
    unfold lines
    exact (joinElements_sameIf same env [] first).bind fun resolved _ _ => ih.bind_right _

theorem block_sameIf (same : resolver.SameIf agree resolver') (env : Environment)
    (content : Content) (implied : Bool) :
    (resolver.block env content implied).SameIf agree (resolver'.block env content implied) := by
  unfold block
  refine .bind_left _ fun inner _ _ => ?_
  exact (lines_sameIf same inner content.lines).bind_right _

/-! ### Lists and maps -/

theorem slottedElements_sameIf (same : resolver.SameIf agree resolver') (env inner : Environment)
    (type : TypeId) (shape : MapType) (elements : List LineElement) :
    (resolver.slottedElements env inner type shape elements).SameIf agree
      (resolver'.slottedElements env inner type shape elements) := by
  induction elements with
  | nil => exact .refl _
  | cons element rest ih =>
    unfold slottedElements
    refine (same inner element).bind fun expanded _ _ => ?_
    dsimp only
    split
    · exact ih.bind_right _
    · exact .refl _

theorem mapNode_sameIf (same : resolver.SameIf agree resolver') (env : Environment)
    (type : TypeId) (shape : MapType) (classes : List ClassRef) (block : Option PropertyBlock)
    (content : Content) :
    (resolver.mapNode env type shape classes block content).SameIf agree
      (resolver'.mapNode env type shape classes block content) := by
  unfold mapNode
  refine .bind_left _ fun inner _ _ => ?_
  cases shape.mainSlot with
  | none =>
    exact (slottedElements_sameIf same env inner type shape _).bind_right _
  | some main =>
    exact (lines_sameIf same inner content.lines).bind_right _

theorem listNode_sameIf (same : resolver.SameIf agree resolver') (env : Environment)
    (type : TypeId) (shape : ListType) (start : Position) (classes : List ClassRef)
    (block : Option PropertyBlock) (content : Content) :
    (resolver.listNode env type shape start classes block content).SameIf agree
      (resolver'.listNode env type shape start classes block content) := by
  unfold listNode
  exact (block_sameIf same _ content _).bind_right _

/-! ### Nodes -/

/-- What an expander is given is recorded together with its environment. -/
theorem invocation_calls {env : Environment} {type : TypeId} {start : Position}
    {classes : List ClassRef} {block : Option PropertyBlock} {content : Content}
    {given : Invocation}
    (ok : (invocation env type start classes block content).outcome = .ok given) :
    given.type = type ∧
      (⟨env, given⟩ : Call) ∈ (invocation env type start classes block content).calls := by
  unfold invocation at *
  obtain ⟨properties, found, recorded⟩ := Run.outcome_bind_eq_ok.1 ok
  rw [Run.outcome_ofExcept_eq_ok] at found
  cases recorded
  rw [found, Run.ofExcept_ok, pure_bind]
  exact ⟨rfl, List.mem_singleton.2 rfl⟩

variable {expanders expanders' : Expanders}

theorem typedNode_sameIf (same : resolver.SameIf (expanders.AgreeAt expanders') resolver')
    (env : Environment) (type : TypeId) (start : Position) (classes : List ClassRef)
    (block : Option PropertyBlock) (content : Content) :
    (resolver.typedNode expanders env type start classes block content).SameIf
      (expanders.AgreeAt expanders')
      (resolver'.typedNode expanders' env type start classes block content) := by
  have resolves := block_sameIf same
  unfold typedNode
  split
  · next name kind =>
    refine .bind_left _ fun given ok alike => ?_
    obtain ⟨here, recorded⟩ := invocation_calls ok
    have answer := (alike _ recorded).pre name (here ▸ kind)
    dsimp only at answer
    rw [← answer]
    refine (Expansion.run_sameIf _ _ resolves).bind fun markup _ _ => ?_
    exact resolves env markup false
  · next name kind =>
    refine .bind_left _ fun given ok alike => ?_
    obtain ⟨here, recorded⟩ := invocation_calls ok
    have answer := (alike _ recorded).post name (here ▸ kind)
    dsimp only at answer
    rw [← answer]
    exact Expansion.run_sameIf _ _ resolves
  · next shape _ =>
    exact (listNode_sameIf same env type shape start classes block content).bind_right _
  · next shape _ =>
    exact (mapNode_sameIf same _ type shape classes block content).bind_right _
  all_goals exact .refl _

theorem inclusion_sameIf (same : resolver.SameIf agree resolver') (env : Environment)
    (start : Position) (classes : List ClassRef) (block : Option PropertyBlock)
    (preamble : List PreambleElement) :
    (resolver.inclusion env start classes block preamble).SameIf agree
      (resolver'.inclusion env start classes block preamble) := by
  unfold inclusion
  refine .bind_left _ fun properties _ _ => ?_
  dsimp only
  split
  · exact .refl _
  · refine .bind_left _ fun text _ _ => ?_
    split
    · exact .refl _
    · next content _ =>
      refine .bind_left _ fun entered _ _ => ?_
      refine .bind_left _ fun included _ _ => ?_
      exact block_sameIf same included content false

/-- One level of nesting asks expanders only where it says so. -/
theorem element_sameIf (same : resolver.SameIf (expanders.AgreeAt expanders') resolver') :
    (resolver.element expanders).SameIf (expanders.AgreeAt expanders')
      (resolver'.element expanders') := by
  intro env element
  match element with
  | .plain run => exact .refl _
  | .escaped text => exact .refl _
  | .node (.text _ _ classes block elements) => exact .refl _
  | .node (.inclusion start classes block preamble) =>
    exact inclusion_sameIf same env start classes block preamble
  | .node (.read start classes block) => exact .refl _
  | .node (.block _ content) => exact block_sameIf same env content false
  | .node (.content _ name preamble) =>
    simp only [Resolver.element, Resolver.node]
    split
    · exact .refl _
    · next content _ =>
      refine .bind_left _ fun inner _ _ => ?_
      exact block_sameIf same inner content false
  | .node (.value _ name) => exact .refl _
  | .node (.typed start path classes block content) =>
    refine .bind_left _ fun type _ _ => ?_
    exact typedNode_sameIf same env type start classes block content

theorem ofDepth_sameIf (expanders expanders' : Expanders) (depth : Nat) :
    (ofDepth expanders depth).SameIf (expanders.AgreeAt expanders')
      (ofDepth expanders' depth) := by
  induction depth with
  | zero => exact fun _ _ => .refl _
  | succ depth ih => exact element_sameIf ih

end Resolver

/-- **Expanders are asked at the recorded calls only.** Expanders that answer all calls of a run
alike give the same run. -/
theorem resolveWithin_eq_of_agreeAt {expanders expanders' : Expanders} {depth : Nat}
    {env : Environment} {content : Content} {implied : Bool}
    (alike : ∀ call ∈ (resolveWithin depth expanders env content implied).calls,
      expanders.AgreeAt expanders' call) :
    resolveWithin depth expanders env content implied =
      resolveWithin depth expanders' env content implied := by
  have each := Resolver.ofDepth_sameIf expanders expanders' depth
  exact Resolver.block_sameIf each env content implied alike

end TypedMarkup
