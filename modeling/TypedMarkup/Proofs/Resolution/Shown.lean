/-
**What a run lets out.** Resolving hands environments to expanders and puts one into its error. What
holds of an environment wherever resolving leads from it holds of all of these.

* `Run.Shows` says so of a run, one rule for each way to build it.
* `Expanders.Stay` is what is asked of expanders: they have blocks resolved in the environment that
  they are given, and raise only the errors that come of it.
* `Environment.Kept` is what is asked of the property: preambles keep it, and so does moving into a
  node or an included file.
* `resolveWithin_lets_out`: then it holds of every environment that a run lets out, and its error
  is one that comes up in such an environment.
-/

import TypedMarkup.Expansion.Stock
import TypedMarkup.Proofs.Environment.Includes
import TypedMarkup.Proofs.Registry.Built
import TypedMarkup.Proofs.Resolution.RunEnds
import TypedMarkup.Resolution

namespace TypedMarkup

open Output (Line)

variable {α β : Type} {seen : Environment → Prop} {fails : Error → Prop} {holds holds' : α → Prop}

/-! ### Runs -/

namespace Run

/-- All environments that a run hands to expanders have been seen, its error satisfies `fails` and
its result `holds`. -/
structure Shows (run : Run α) (seen : Environment → Prop) (fails : Error → Prop)
    (holds : α → Prop) : Prop where
  calls : ∀ call ∈ run.calls, seen call.environment
  ends : run.Ends holds fails

theorem calls_bind (first : Run α) (next : α → Run β) :
    (first >>= next).calls = match first.outcome with
      | .ok result => first.calls ++ (next result).calls
      | .error _ => first.calls := by
  show (first.andThen next).calls = _
  unfold andThen
  cases first.outcome <;> rfl

namespace Shows

/-- A run that calls no expander. -/
theorem of_ends {run : Run α} (silent : run.calls = []) (ends : run.Ends holds fails) :
    run.Shows seen fails holds := by
  refine ⟨?_, ends⟩
  rw [silent]
  exact List.forall_mem_nil _

theorem pure {a : α} (result : holds a) : (Pure.pure a : Run α).Shows seen fails holds :=
  of_ends rfl result

theorem throw {error : Error} (known : fails error) :
    (Run.throw error : Run α).Shows seen fails holds :=
  of_ends rfl known

theorem ofExcept {result : Except Error α} (ends : TypedMarkup.Ends result holds fails) :
    (Run.ofExcept result).Shows seen fails holds := by
  have silent : (Run.ofExcept result).calls = [] := by cases result <;> rfl
  exact of_ends silent (Run.Ends.ofExcept ends)

theorem record {call : Call} (here : seen call.environment) :
    (Run.record call).Shows seen fails fun _ => True :=
  ⟨List.forall_mem_singleton.2 here, trivial⟩

theorem bind {first : Run α} {next : α → Run β} {later : β → Prop} (shows' : first.Shows seen fails holds)
    (rest : ∀ a, holds a → (next a).Shows seen fails later) : (first >>= next).Shows seen fails later := by
  refine ⟨?_, shows'.ends.bind fun a result => (rest a result).ends⟩
  rw [calls_bind]
  split
  · next a same =>
    exact List.forall_mem_append.2 ⟨shows'.calls, (rest a (shows'.ends.of_ok same)).calls⟩
  · exact shows'.calls

/-- The errors of a run that is attempted become results. -/
theorem attempt {run : Run α} (shows' : run.Shows seen fails holds) :
    run.attempt.Shows seen fails fun reply => TypedMarkup.Ends reply holds fails := by
  refine ⟨?_, shows'.ends.attempt⟩
  have same : run.attempt.calls = run.calls := by
    unfold Run.attempt
    split <;> rfl
  rw [same]
  exact shows'.calls

end Shows

end Run

/-! ### Expanders -/

namespace Expansion

/-- The error in a reply, if it is one. -/
def errorsOf : Except Error α → List Error
  | .ok _ => []
  | .error error => [error]

/-- An expansion has blocks resolved in the given environment only, and raises no error but those it
has received. -/
def Stays (env : Environment) (received : List Error) : Expansion α → Prop
  | .done _ => True
  | .fail _ => True
  | .raise error => error ∈ received
  | .resolve other _ _ next =>
    other = env ∧ ∀ reply, (next reply).Stays env (received ++ errorsOf reply)

theorem run_shows {block : Environment → Content → Bool → Run (List Line)}
    {blamed : String → Error} {env : Environment} {received : List Error}
    {expansion : Expansion α} (stays : expansion.Stays env received)
    (known : ∀ error ∈ received, fails error)
    (resolves : ∀ content implied, (block env content implied).Shows seen fails fun _ => True)
    (blames : ∀ reason, fails (blamed reason)) :
    (expansion.run block blamed).Shows seen fails fun _ => True := by
  induction expansion generalizing received with
  | done answer => exact .pure trivial
  | fail reason => exact .throw (blames reason)
  | raise error => exact .throw (known error stays)
  | resolve other content implied next ih =>
    obtain ⟨rfl, stays⟩ := stays
    refine (resolves content implied).attempt.bind fun reply ends => ih reply (stays reply) ?_
    refine List.forall_mem_append.2 ⟨known, ?_⟩
    cases reply with
    | ok lines => exact List.forall_mem_nil _
    | error error => exact List.forall_mem_singleton.2 ends

end Expansion

/-- Expanders that have blocks resolved in the environment that they are given, and raise only the
errors that come of it. -/
structure Expanders.Stay (expanders : Expanders) : Prop where
  pre : ∀ name env invocation, (expanders.pre name env invocation).Stays env []
  post : ∀ name env invocation, (expanders.post name env invocation).Stays env []

/-- The stock expanders stay in their environment. -/
theorem Expansion.stock_stay : stock.Stay := by
  have failing : ∀ {α : Type} (env : Environment) (invocation : Invocation),
      (failing invocation : Expansion α).Stays env [] := by
    intro _ env invocation
    unfold Expansion.failing
    dsimp only
    split <;> trivial
  refine ⟨fun name env invocation => ?_, fun name env invocation => ?_⟩
  · show (stockPre name env invocation).Stays env []
    unfold stockPre
    split
    · trivial
    · trivial
    · unfold parsed
      split <;> trivial
    · refine ⟨rfl, fun reply => ?_⟩
      cases reply with
      | ok lines => trivial
      | error error => exact List.mem_cons_self
    · trivial
    · trivial
    · exact failing env invocation
  · show (stockPost name env invocation).Stays env []
    unfold stockPost
    split
    · trivial
    · refine ⟨rfl, fun reply => ?_⟩
      cases reply with
      | ok lines => trivial
      | error error => exact List.mem_cons_self
    · trivial
    · trivial
    · exact failing env invocation

/-- Expanders that stay in the environments that have been seen, as far as their types are known
there. -/
structure Expanders.StayAmong (expanders : Expanders) (seen : Environment → Prop) : Prop where
  pre : ∀ {env : Environment} {type : TypeId} {name : String}, seen env →
    (env.registry.get type).kind = .preExpander name →
    ∀ invocation, (expanders.pre name env invocation).Stays env []
  post : ∀ {env : Environment} {type : TypeId} {name : String}, seen env →
    (env.registry.get type).kind = .postExpander name →
    ∀ invocation, (expanders.post name env invocation).Stays env []

namespace Expanders.StayAmong

variable {expanders : Expanders}

theorem of_stay (stay : expanders.Stay) : expanders.StayAmong seen :=
  ⟨fun _ _ => stay.pre _ _, fun _ _ => stay.post _ _⟩

/-- Where no type is an expander, nothing is asked of expanders. -/
theorem of_without (without : ∀ env, seen env → env.registry.withoutExpanders = true) :
    expanders.StayAmong seen := by
  refine ⟨fun {env type name} here kind => ?_, fun {env type name} here kind => ?_⟩
  · exact absurd kind (Registry.kind_ne_preExpander (without env here) type name)
  · exact absurd kind (Registry.kind_ne_postExpander (without env here) type name)

end Expanders.StayAmong

/-! ### Properties that are kept -/

/-- A property of environments that holds wherever resolving leads from one, and what is known of
the errors that come up there. -/
structure Environment.Kept (seen : Environment → Prop) (fails : Error → Prop) : Prop where
  beside : ∀ {env other : Environment}, env.Beside other → seen env → seen other
  within : ∀ {env : Environment} (type : TypeId), seen env → seen (env.within type)
  enter : ∀ {env included : Environment} {asked : String} {text : FileText} {position : Position},
    env.reader env.path asked = .ok text → env.enterInclude text.path position = .ok included →
    seen env → seen included
  parse : ∀ path position error, fails (.parse path position error)
  read : ∀ position error, fails (.read position error)
  semantic : ∀ failure : SemanticError, seen failure.environment →
    failure.cause.Grounded failure.environment → fails (.semantic failure)

namespace Environment.Kept

/-- An error that blames an environment carries one beside it. -/
theorem blames (kept : Environment.Kept seen fails) {env : Environment} {known : Position → Prop}
    {error : Error} (here : seen env) (blames : error.Blames env known) : fails error := by
  cases error with
  | semantic failure =>
    obtain ⟨near, -, grounded⟩ := blames
    exact kept.semantic failure (kept.beside near here) grounded
  | parse path position error => exact kept.parse path position error
  | read position error => exact kept.read position error

theorem blame (kept : Environment.Kept seen fails) {env : Environment} {cause : Cause}
    {positions : List Position} (here : seen env) (grounded : cause.Grounded env := by trivial) :
    (Run.blame env cause positions : Run α).Shows seen fails holds :=
  .throw (kept.semantic ⟨cause, positions, env⟩ here grounded)

variable {env : Environment}

theorem nodeProperties (kept : Kept seen fails) (here : seen env) (type : TypeId)
    (classes : List ClassRef) (block : Option PropertyBlock) :
    Ends (env.nodeProperties type classes block) (fun _ => True) fails := by
  refine (env.nodeProperties_ends (AllKnown.trivial _) (AllKnown.trivial _)).mono
    (fun _ _ => trivial) fun _ => ?_
  exact kept.blames here

theorem applyPreamble (kept : Kept seen fails) (here : seen env)
    (preamble : List PreambleElement) :
    Ends (env.applyPreamble preamble) seen fails := by
  refine (env.applyPreamble_ends (AllKnown.trivial _)).mono (fun _ near => kept.beside near here)
    fun _ => ?_
  exact kept.blames here

theorem enterInclude (kept : Kept seen fails) (here : seen env) {asked : String} {text : FileText}
    (read : env.reader env.path asked = .ok text) (position : Position) :
    Ends (env.enterInclude text.path position) seen fails := by
  have blamed : Ends (env.enterInclude text.path position) (· = env.entered text.path)
      (Error.Blames env fun _ => True) := env.enterInclude_ends text.path trivial
  cases entered : env.enterInclude text.path position with
  | ok included => exact kept.enter read entered here
  | error error =>
    rw [entered] at blamed
    exact kept.blames here blamed

theorem readFile (kept : Kept seen fails) (path : String) (position : Position) :
    Ends (env.readFile path position) (fun text => env.reader env.path path = .ok text) fails := by
  refine (env.readFile_ends_text path position).mono (fun _ read => read) ?_
  rintro _ ⟨reason, rfl⟩
  exact kept.read position reason

end Environment.Kept

namespace Resolver

/-- A resolver whose runs let out only what has been seen, from environments that have. -/
def Shows (resolver : Resolver) (seen : Environment → Prop) (fails : Error → Prop) : Prop :=
  ∀ env element, seen env → (resolver env element).Shows seen fails fun _ => True

variable {resolver : Resolver} {expanders : Expanders} {env inner : Environment}

/-! ### Lines and blocks -/

theorem joinElements_shows (sound : resolver.Shows seen fails) (here : seen env)
    (elements : List LineElement) (begun : Line) :
    (resolver.joinElements env begun elements).Shows seen fails fun _ => True := by
  induction elements generalizing begun with
  | nil => exact .pure trivial
  | cons element rest ih =>
    unfold joinElements
    refine (sound env element here).bind fun expanded _ => ?_
    match expanded with
    | [] => exact ih begun
    | [only] => exact ih _
    | first :: second :: more => exact (ih _).bind fun _ _ => .pure trivial

theorem lines_shows (sound : resolver.Shows seen fails) (here : seen env)
    (lines : List (List LineElement)) :
    (resolver.lines env lines).Shows seen fails fun _ => True := by
  induction lines with
  | nil => exact .pure trivial
  | cons first rest ih =>
    unfold lines line
    refine (joinElements_shows sound here first []).bind fun resolved _ => ?_
    exact ih.bind fun _ _ => .pure trivial

theorem block_shows (kept : Environment.Kept seen fails)
    (sound : resolver.Shows seen fails) (here : seen env)
    (content : Content) (implied : Bool) :
    (resolver.block env content implied).Shows seen fails fun _ => True := by
  unfold block
  refine (Run.Shows.ofExcept (kept.applyPreamble here content.preamble)).bind ?_
  intro inner inside
  exact (lines_shows sound inside content.lines).bind fun _ _ => .pure trivial

/-! ### Lists and maps -/

theorem slottedElements_shows (kept : Environment.Kept seen fails)
    (sound : resolver.Shows seen fails) (here : seen env) (inside : seen inner)
    (type : TypeId) (shape : MapType) (elements : List LineElement) :
    (resolver.slottedElements env inner type shape elements).Shows seen fails fun _ => True := by
  induction elements with
  | nil => exact .pure trivial
  | cons element rest ih =>
    unfold slottedElements
    refine (sound inner element inside).bind fun expanded _ => ?_
    dsimp only
    split
    · exact ih.bind fun _ _ => .pure trivial
    · exact kept.blame here

theorem mapNode_shows (kept : Environment.Kept seen fails)
    (sound : resolver.Shows seen fails) (here : seen env)
    (type : TypeId) (shape : MapType) (classes : List ClassRef) (block : Option PropertyBlock)
    (content : Content) :
    (resolver.mapNode env type shape classes block content).Shows seen fails fun _ => True := by
  unfold mapNode
  refine (Run.Shows.ofExcept (kept.applyPreamble here content.preamble)).bind ?_
  intro inner inside
  have finish : ∀ nodes : List Output.Node, (do
      let properties ← Run.ofExcept (env.nodeProperties type classes block)
      return .map type properties (env.slotsOf shape nodes) : Run Output.Node).Shows seen fails
        fun _ => True := fun nodes =>
    (Run.Shows.ofExcept (kept.nodeProperties here type classes block)).bind
      fun _ _ => .pure trivial
  cases shape.mainSlot with
  | none =>
    refine (slottedElements_shows kept sound here inside type shape _).bind fun nodes _ => ?_
    exact finish nodes
  | some main =>
    refine (lines_shows sound inside content.lines).bind fun lines _ => ?_
    exact finish _

theorem listNode_shows (kept : Environment.Kept seen fails)
    (sound : resolver.Shows seen fails) (here : seen env)
    (type : TypeId) (shape : ListType) (start : Position) (classes : List ClassRef)
    (block : Option PropertyBlock) (content : Content) :
    (resolver.listNode env type shape start classes block content).Shows seen fails fun _ => True := by
  unfold listNode
  have inside := kept.within type here
  refine (block_shows kept sound inside content shape.containsParagraphs).bind fun lines _ => ?_
  have finish : (do
      let properties ← Run.ofExcept ((env.within type).nodeProperties type classes block)
      return .list type properties lines.flatten : Run Output.Node).Shows seen fails fun _ => True :=
    (Run.Shows.ofExcept (kept.nodeProperties inside type classes block)).bind
      fun _ _ => .pure trivial
  dsimp only
  split
  · split
    · exact kept.blame here
    · exact finish
  · exact finish

/-! ### Nodes -/

/-- The call of an expander lets its environment out. -/
theorem invocation_shows (kept : Environment.Kept seen fails) (here : seen env) (type : TypeId)
    (start : Position) (classes : List ClassRef) (block : Option PropertyBlock)
    (content : Content) :
    (invocation env type start classes block content).Shows seen fails fun _ => True := by
  unfold invocation
  refine (Run.Shows.ofExcept (kept.nodeProperties here type classes block)).bind ?_
  intro properties _
  have recorded : (Run.record ⟨env, ⟨type, properties, content, start⟩⟩).Shows seen fails fun _ => True :=
    .record here
  exact recorded.bind fun _ _ => .pure trivial

theorem typedNode_shows (kept : Environment.Kept seen fails) (stay : expanders.StayAmong seen)
    (sound : resolver.Shows seen fails) (here : seen env) (type : TypeId) (start : Position)
    (classes : List ClassRef) (block : Option PropertyBlock) (content : Content) :
    (resolver.typedNode expanders env type start classes block content).Shows seen fails
      fun _ => True := by
  have resolves := block_shows kept sound here
  have blames : ∀ reason, fails (gaveUp env start reason) := fun _ =>
    kept.semantic _ here trivial
  unfold typedNode
  split
  · next kind =>
    refine (invocation_shows kept here type start classes block content).bind fun given _ => ?_
    refine (Expansion.run_shows (stay.pre here kind given) (List.forall_mem_nil _) resolves
      blames).bind fun markup _ => ?_
    exact resolves markup false
  · next kind =>
    refine (invocation_shows kept here type start classes block content).bind fun given _ => ?_
    exact Expansion.run_shows (stay.post here kind given) (List.forall_mem_nil _) resolves blames
  · next shape _ =>
    exact (listNode_shows kept sound here type shape start classes block content).bind
      fun _ _ => .pure trivial
  · next shape _ =>
    exact (mapNode_shows kept sound (kept.within type here) type shape classes block content).bind
      fun _ _ => .pure trivial
  all_goals exact kept.blame here

theorem inclusion_shows (kept : Environment.Kept seen fails) (sound : resolver.Shows seen fails)
    (here : seen env) (start : Position) (classes : List ClassRef) (block : Option PropertyBlock)
    (preamble : List PreambleElement) :
    (resolver.inclusion env start classes block preamble).Shows seen fails fun _ => True := by
  unfold inclusion
  refine (Run.Shows.ofExcept (kept.nodeProperties here _ classes block)).bind ?_
  intro properties _
  dsimp only
  split
  · exact kept.blame here
  · refine (Run.Shows.ofExcept (kept.readFile _ start)).bind fun text read => ?_
    split
    · exact .throw (kept.parse _ _ _)
    · next content _ =>
      refine (Run.Shows.ofExcept (kept.enterInclude here read start)).bind ?_
      intro entered inside
      refine (Run.Shows.ofExcept (kept.applyPreamble inside preamble)).bind ?_
      exact fun included bound => block_shows kept sound bound content false

/-- One level of nesting lets out only what has been seen. -/
theorem element_shows (kept : Environment.Kept seen fails) (stay : expanders.StayAmong seen)
    (sound : resolver.Shows seen fails) : (resolver.element expanders).Shows seen fails := by
  intro env element here
  match element with
  | .plain run => exact .pure trivial
  | .escaped text => exact .pure trivial
  | .node (.text _ _ classes block elements) =>
    exact (Run.Shows.ofExcept (kept.nodeProperties here _ classes block)).bind
      fun _ _ => .pure trivial
  | .node (.inclusion start classes block preamble) =>
    exact inclusion_shows kept sound here start classes block preamble
  | .node (.read start classes block) =>
    refine (Run.Shows.ofExcept (kept.nodeProperties here _ classes block)).bind ?_
    intro properties _
    exact (Run.Shows.ofExcept (kept.readFile _ start)).bind fun _ _ => .pure trivial
  | .node (.block _ content) => exact block_shows kept sound here content false
  | .node (.content _ name preamble) =>
    simp only [Resolver.element, Resolver.node]
    split
    · exact kept.blame here
    · next content _ =>
      refine (Run.Shows.ofExcept (kept.applyPreamble here preamble)).bind ?_
      exact fun inner inside => block_shows kept sound inside content false
  | .node (.value _ name) =>
    simp only [Resolver.element, Resolver.node]
    split
    · exact .pure trivial
    · exact kept.blame here
  | .node (.typed start path classes block content) =>
    have found : Ends (env.resolvePath path) (fun _ => True) fails :=
      (env.resolvePath_ends (AllKnown.trivial [.path path] _ List.mem_cons_self)).mono
        (fun _ _ => trivial) fun _ => kept.blames here
    refine (Run.Shows.ofExcept found).bind fun type _ => ?_
    exact typedNode_shows kept stay sound here type start classes block content

theorem ofDepth_shows (kept : Environment.Kept seen fails) (stay : expanders.StayAmong seen) (depth : Nat) :
    (ofDepth expanders depth).Shows seen fails := by
  induction depth with
  | zero => exact fun _ _ _ => .of_ends rfl trivial
  | succ depth ih => exact element_shows kept stay ih

end Resolver

variable {expanders : Expanders} {env : Environment}

/-- **Every environment that a run lets out** has what resolving keeps, if the first one has it, and
its error is of the kind that comes up there. -/
theorem resolveWithin_lets_out (kept : Environment.Kept seen fails)
    (stay : expanders.StayAmong seen) (here : seen env) (depth : Nat) (content : Content)
    (implied : Bool) :
    (resolveWithin depth expanders env content implied).Shows seen fails fun _ => True := by
  have each := Resolver.ofDepth_shows kept stay depth
  exact Resolver.block_shows kept each here content implied

/-- The environment that an error carries, if it carries one, has been seen. -/
def Error.Carries (seen : Environment → Prop) : Error → Prop
  | semantic failure => seen failure.environment
  | parse _ _ _ | read _ _ => True

/-- So has the one that its error carries, if it carries one. -/
theorem resolveWithin_shows (kept : Environment.Kept seen (Error.Carries seen))
    (stay : expanders.Stay) (here : seen env) (depth : Nat) (content : Content) (implied : Bool) :
    (resolveWithin depth expanders env content implied).Shows seen (Error.Carries seen)
      fun _ => True :=
  resolveWithin_lets_out kept (.of_stay stay) here depth content implied

end TypedMarkup
