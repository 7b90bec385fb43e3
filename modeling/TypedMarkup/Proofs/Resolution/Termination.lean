/-
**Resolving ends.** Whatever files include each other, resolving a block ends if no bound content
uses another: with a large enough bound on nesting the run is not cut short, and a larger one gives
the same run.

* `Settles` says so of runs that depend on a bound, one rule for each way to build a run.
* The lemmas about `Resolver` lead the runs of a block back to those of its elements.
* `Environment.Shallow` is what is known of an environment: bound contents use none, those of texts
  that are read neither, and only so many includes are left.
* `Content.settlesAt_of_fewer` goes through a tree, and `resolveWithin_settles` is the result.

The induction is on the includes that are left. For each number of them the tree is gone through
twice: first where it uses no bound contents, and then, as bound contents are such trees,
everywhere.
-/

import TypedMarkup.Expansion.Stock
import TypedMarkup.Proofs.Environment.Bindings
import TypedMarkup.Proofs.Environment.Includes
import TypedMarkup.Proofs.Registry.Built
import TypedMarkup.Proofs.Resolution.RunEnds
import TypedMarkup.Proofs.Tree.Bodies
import TypedMarkup.Resolution

namespace TypedMarkup

open Output (Line)

variable {α β : Type}

/-! ### Runs -/

/-- From some bound on, the runs are the same, and not exhausted. -/
def Settles (runs : Nat → Run α) : Prop :=
  ∃ enough run, run.outcome ≠ .error .exhausted ∧ ∀ depth, enough ≤ depth → runs depth = run

namespace Settles

/-- A run that needs no bound. -/
theorem const {run : Run α} (ends : run.outcome ≠ .error .exhausted) : Settles fun _ => run :=
  ⟨0, run, ends, fun _ _ => rfl⟩

theorem pure (a : α) : Settles fun _ => (Pure.pure a : Run α) :=
  const fun same => nomatch same

theorem throw (error : Error) : Settles fun _ => (Run.throw error : Run α) :=
  const fun same => nomatch same

theorem blame (env : Environment) (cause : Cause) (positions : List Position) :
    Settles fun _ => (Run.blame env cause positions : Run α) :=
  throw _

theorem bind {first : Nat → Run α} {next : Nat → α → Run β} (settles : Settles first)
    (rest : ∀ a, Settles fun depth => next depth a) :
    Settles fun depth => first depth >>= next depth := by
  obtain ⟨enough, ⟨calls, outcome⟩, ends, same⟩ := settles
  cases outcome with
  | error stop =>
    have stops : stop ≠ .exhausted := fun exhausted => ends (congrArg Except.error exhausted)
    refine ⟨enough, ⟨calls, .error stop⟩, fun failed => stops (Except.error.inj failed), ?_⟩
    intro depth above
    show (first depth >>= next depth) = _
    rw [same depth above]
    rfl
  | ok a =>
    obtain ⟨enough', run, ends', same'⟩ := rest a
    refine ⟨max enough enough', ⟨calls ++ run.calls, run.outcome⟩, ends', fun depth above => ?_⟩
    obtain ⟨above, above'⟩ := Nat.max_le.1 above
    show (first depth >>= next depth) = _
    rw [same depth above, ← same' depth above']
    rfl

/-- What needs no bound, with what comes after it. -/
theorem ofExcept_bind {result : Except Error α} {holds : α → Prop} {fails : Error → Prop}
    {next : Nat → α → Run β} (ends : Ends result holds fails)
    (rest : ∀ a, holds a → Settles fun depth => next depth a) :
    Settles fun depth => Run.ofExcept result >>= next depth := by
  cases result with
  | ok a => exact rest a ends
  | error error => exact throw error

/-- The bound may count one level more. -/
theorem of_succ {runs : Nat → Run α} (settles : Settles fun depth => runs (depth + 1)) :
    Settles runs := by
  obtain ⟨enough, run, ends, same⟩ := settles
  refine ⟨enough + 1, run, ends, fun depth above => ?_⟩
  cases depth with
  | zero => exact absurd above (Nat.not_succ_le_zero enough)
  | succ depth => exact same depth (Nat.le_of_succ_le_succ above)

end Settles

/-! ### Lines and blocks -/

namespace Resolver

variable {resolvers : Nat → Resolver} {env inner : Environment} {content : Content}

theorem joinElements_settles {elements : List LineElement}
    (each : ∀ element ∈ elements, Settles fun depth => resolvers depth env element) (begun : Line) :
    Settles fun depth => (resolvers depth).joinElements env begun elements := by
  induction elements generalizing begun with
  | nil => exact .pure [begun]
  | cons element rest ih =>
    obtain ⟨here, later⟩ := List.forall_mem_cons.1 each
    unfold joinElements
    refine here.bind fun expanded => ?_
    match expanded with
    | [] => exact ih later begun
    | [only] => exact ih later _
    | first :: second :: more => exact (ih later _).bind fun lines => .pure _

theorem lines_settles {lines : List (List LineElement)}
    (each : ∀ line ∈ lines, ∀ element ∈ line, Settles fun depth => resolvers depth env element) :
    Settles fun depth => (resolvers depth).lines env lines := by
  induction lines with
  | nil => exact .pure []
  | cons first rest ih =>
    obtain ⟨here, later⟩ := List.forall_mem_cons.1 each
    unfold lines line
    refine (joinElements_settles here []).bind fun resolved => ?_
    exact (ih later).bind fun more => .pure _

/-- Resolving the elements of a block ends, in the environment behind its preamble. -/
def Inside (resolvers : Nat → Resolver) (env : Environment) (content : Content) : Prop :=
  Ends (env.applyPreamble content.preamble) (fun inner => ∀ line ∈ content.lines, ∀ element ∈ line,
    Settles fun depth => resolvers depth inner element) fun _ => True

theorem block_settles (inside : Inside resolvers env content) (implied : Bool) :
    Settles fun depth => (resolvers depth).block env content implied := by
  unfold block
  refine Settles.ofExcept_bind inside fun inner each => ?_
  exact (lines_settles each).bind fun resolved => .pure _

/-! ### Lists and maps -/

theorem slottedElements_settles {elements : List LineElement}
    (each : ∀ element ∈ elements, Settles fun depth => resolvers depth inner element)
    (type : TypeId) (shape : MapType) :
    Settles fun depth => (resolvers depth).slottedElements env inner type shape elements := by
  induction elements with
  | nil => exact .pure []
  | cons element rest ih =>
    obtain ⟨here, later⟩ := List.forall_mem_cons.1 each
    unfold slottedElements
    refine here.bind fun expanded => ?_
    dsimp only
    split
    · exact (ih later).bind fun more => .pure _
    · exact .blame env _ _

theorem mapNode_settles (inside : Inside resolvers env content) (type : TypeId) (shape : MapType)
    (classes : List ClassRef) (block : Option PropertyBlock) :
    Settles fun depth => (resolvers depth).mapNode env type shape classes block content := by
  have finish : ∀ nodes : List Output.Node, Settles fun _ => (do
      let properties ← Run.ofExcept (env.nodeProperties type classes block)
      return .map type properties (env.slotsOf shape nodes) : Run Output.Node) := fun nodes =>
    Settles.ofExcept_bind (Ends.any _) fun properties _ => .pure _
  unfold mapNode
  refine Settles.ofExcept_bind inside fun inner each => ?_
  cases shape.mainSlot with
  | some main =>
    refine (lines_settles each).bind fun lines => ?_
    exact finish _
  | none =>
    have flat : ∀ element ∈ content.lines.flatten, Settles fun depth =>
        resolvers depth inner element := by
      intro element member
      obtain ⟨line, row, member⟩ := List.mem_flatten.1 member
      exact each line row element member
    exact (slottedElements_settles flat type shape).bind finish

theorem listNode_settles {type : TypeId} (inside : Inside resolvers (env.within type) content)
    (shape : ListType) (start : Position) (classes : List ClassRef) (block : Option PropertyBlock) :
    Settles fun depth => (resolvers depth).listNode env type shape start classes block content := by
  unfold listNode
  refine (block_settles inside shape.containsParagraphs).bind fun lines => ?_
  have finish : Settles fun _ => (do
      let properties ← Run.ofExcept ((env.within type).nodeProperties type classes block)
      return .list type properties lines.flatten : Run Output.Node) :=
    Settles.ofExcept_bind (Ends.any _) fun properties _ => .pure _
  dsimp only
  split
  · split
    · exact .blame env _ _
    · exact finish
  · exact finish

/-! ### Nodes -/

theorem typedNode_settles (expanders : Expanders) (without : env.registry.withoutExpanders = true)
    {type : TypeId} (inside : Inside resolvers (env.within type) content) (start : Position)
    (classes : List ClassRef) (block : Option PropertyBlock) :
    Settles fun depth =>
      (resolvers depth).typedNode expanders env type start classes block content := by
  unfold typedNode
  split
  · next kind => exact absurd kind (Registry.kind_ne_preExpander without type _)
  · next kind => exact absurd kind (Registry.kind_ne_postExpander without type _)
  · next shape _ =>
    exact (listNode_settles inside shape start classes block).bind fun node => .pure _
  · next shape _ => exact (mapNode_settles inside type shape classes block).bind fun node => .pure _
  all_goals exact .blame env _ _

/-- An include ends if the file that it leads to does. -/
theorem inclusion_settles {start : Position} {preamble : List PreambleElement}
    (inside : ∀ asked text content entered, env.reader env.path asked = .ok text →
      Content.parse text.content = .ok content →
      env.enterInclude text.path start = .ok entered →
      Ends (entered.applyPreamble preamble) (Inside resolvers · content) fun _ => True)
    (classes : List ClassRef) (block : Option PropertyBlock) :
    Settles fun depth => (resolvers depth).inclusion env start classes block preamble := by
  unfold inclusion
  refine Settles.ofExcept_bind (Ends.any _) fun properties _ => ?_
  dsimp only
  split
  · exact .blame env _ _
  · refine Settles.ofExcept_bind (env.readFile_ends_text _ start) fun text read => ?_
    split
    · exact .throw _
    · next content parsed =>
      refine Settles.ofExcept_bind (Ends.result _) fun entered enters => ?_
      exact Settles.ofExcept_bind (inside _ text content entered read parsed enters)
        fun included inside => block_settles inside false

end Resolver

/-! ### Environments -/

namespace Environment

/-- Bound contents use none, those of texts that are read neither, there are no expanders, and at
most so many includes are left. -/
structure Shallow (env : Environment) (level : Nat) : Prop where
  without : env.registry.withoutExpanders = true
  texts : ∀ current path text content, env.reader current path = .ok text →
    Content.parse text.content = .ok content → AllShallow content.bodies
  bound : ∀ name body, env.content? name = some body → AllShallow (body :: body.bodies)
  room : env.limits.maxIncludeDepth ≤ env.includeDepth + level

namespace Shallow

variable {env : Environment} {level : Nat}

theorem within (shallow : env.Shallow level) (type : TypeId) : (env.within type).Shallow level := by
  obtain ⟨without, texts, bound, room⟩ := shallow
  exact ⟨without, texts, bound, room⟩

/-- A preamble whose contents are shallow adds no others. -/
theorem applyPreamble (shallow : env.Shallow level) {preamble : List PreambleElement}
    (bodies : AllShallow (preambleBodies preamble)) :
    Ends (env.applyPreamble preamble) (Shallow · level) fun _ => True := by
  refine ((env.applyPreamble_beside preamble).and (env.applyPreamble_ends_content? preamble)).mono
    (fun inner ⟨near, contents⟩ => ?_) fun _ _ => trivial
  refine ⟨near.registry ▸ shallow.without, near.reader ▸ shallow.texts, fun name body found => ?_, ?_⟩
  · rcases contents name body found with before | ⟨element, member, bound, binds⟩
    · exact shallow.bound name body before
    · exact bodies.bound member binds
  · have room := shallow.room
    unfold includeDepth at *
    rwa [near.limits, near.includes]

/-- An include leaves one include less. -/
theorem enter (shallow : env.Shallow level) {path : String} {position : Position}
    {included : Environment} (entered : env.enterInclude path position = .ok included) :
    ∃ fewer < level, included.Shallow fewer := by
  obtain ⟨free, _, rfl⟩ := enterInclude_eq_ok.1 entered
  have room := shallow.room
  obtain _ | fewer := level
  · exact absurd free (Nat.not_lt.2 room)
  · refine ⟨fewer, Nat.lt_succ_self fewer, shallow.without, shallow.texts, shallow.bound, ?_⟩
    show env.limits.maxIncludeDepth ≤ env.includeDepth + 1 + fewer
    omega

end Shallow

end Environment

/-! ### Trees -/

section Trees

variable {expanders : Expanders} {level : Nat}

/-- Resolving an element ends in all environments with so many includes left. -/
def LineElement.SettlesAt (expanders : Expanders) (level : Nat) (element : LineElement) : Prop :=
  ∀ env : Environment, env.Shallow level →
    Settles fun depth => Resolver.ofDepth expanders depth env element

/-- Resolving a block ends in all environments with so many includes left. -/
def Content.SettlesAt (expanders : Expanders) (level : Nat) (content : Content) : Prop :=
  ∀ env : Environment, env.Shallow level → Resolver.Inside (Resolver.ofDepth expanders) env content

/-- Resolving ends with fewer includes left. -/
def FewerSettle (expanders : Expanders) (level : Nat) : Prop :=
  ∀ fewer < level, ∀ content : Content, AllShallow content.bodies →
    content.SettlesAt expanders fewer

/-- Resolving the nodes that use bound contents ends. -/
def UsesSettle (expanders : Expanders) (level : Nat) (nodes : List Node) : Prop :=
  ∀ node ∈ nodes, node.isUse = true → AllShallow node.bodies →
    (LineElement.node node).SettlesAt expanders level

theorem UsesSettle.subset {nodes more : List Node} (all : UsesSettle expanders level nodes)
    (inside : more ⊆ nodes) : UsesSettle expanders level more :=
  fun node member => all node (inside member)

mutual

theorem Content.settlesAt_of_uses (fewer : FewerSettle expanders level) : ∀ content : Content,
    AllShallow content.bodies → UsesSettle expanders level content.nodes →
      content.SettlesAt expanders level
  | ⟨preamble, lines⟩ => by
    intro shallow uses env here
    rw [Content.bodies, AllShallow.append] at shallow
    refine (here.applyPreamble shallow.1).mono (fun inner inside line row element member => ?_)
      fun _ _ => trivial
    exact lines_settle fewer lines shallow.2 uses line row element member inner inside

theorem Node.settlesAt (fewer : FewerSettle expanders level) : ∀ node : Node,
    AllShallow node.bodies → UsesSettle expanders level node.nodes →
      (LineElement.node node).SettlesAt expanders level
  | .content start name preamble => fun shallow uses => uses _ List.mem_cons_self rfl shallow
  | .block start body => fun shallow uses env here =>
    have inside := body.settlesAt_of_uses fewer shallow (uses.subset (List.subset_cons_self _ _))
    .of_succ (Resolver.block_settles (inside env here) false)
  | .typed start path classes block body => fun shallow uses env here =>
    have inside := body.settlesAt_of_uses fewer shallow (uses.subset (List.subset_cons_self _ _))
    .of_succ (Settles.ofExcept_bind (Ends.any _) fun type _ =>
      Resolver.typedNode_settles expanders here.without (inside _ (here.within type)) start classes
        block)
  | .inclusion start classes block preamble => by
    refine fun shallow _ env here => .of_succ (Resolver.inclusion_settles ?_ classes block)
    intro asked text content entered read parsed enters
    obtain ⟨less, below, there⟩ := here.enter enters
    refine (there.applyPreamble shallow).mono (fun included inside => ?_) fun _ _ => trivial
    exact fewer less below content (here.texts _ _ text content read parsed) included inside
  | .value start name => by
    refine fun _ _ env _ => .of_succ ?_
    simp only [Resolver.ofDepth, Resolver.element, Resolver.node]
    split
    · exact .pure _
    · exact .blame env _ _
  | .text start keyword classes block elements => fun _ _ env _ =>
    .of_succ (Settles.ofExcept_bind (Ends.any _) fun properties _ => .pure _)
  | .read start classes block => fun _ _ env _ =>
    .of_succ (Settles.ofExcept_bind (Ends.any _) fun properties _ =>
      Settles.ofExcept_bind (Ends.any _) fun text _ => .pure _)

theorem LineElement.settlesAt (fewer : FewerSettle expanders level) : ∀ element : LineElement,
    AllShallow element.bodies → UsesSettle expanders level element.nodes →
      element.SettlesAt expanders level
  | .plain _ | .escaped _ => fun _ _ _ _ => .of_succ (.pure _)
  | .node inner => fun shallow uses => inner.settlesAt fewer shallow uses

theorem line_settle (fewer : FewerSettle expanders level) : ∀ line : List LineElement,
    AllShallow (lineBodies line) → UsesSettle expanders level (lineNodes line) →
      ∀ element ∈ line, element.SettlesAt expanders level
  | [] => fun _ _ => List.forall_mem_nil _
  | first :: rest => by
    intro shallow uses
    rw [lineBodies, AllShallow.append] at shallow
    rw [lineNodes] at uses
    refine List.forall_mem_cons.2 ⟨?_, ?_⟩
    · exact first.settlesAt fewer shallow.1 (uses.subset (List.subset_append_left _ _))
    · exact line_settle fewer rest shallow.2 (uses.subset (List.subset_append_right _ _))

theorem lines_settle (fewer : FewerSettle expanders level) : ∀ lines : List (List LineElement),
    AllShallow (linesBodies lines) → UsesSettle expanders level (linesNodes lines) →
      ∀ line ∈ lines, ∀ element ∈ line, element.SettlesAt expanders level
  | [] => fun _ _ => List.forall_mem_nil _
  | first :: rest => by
    intro shallow uses
    rw [linesBodies, AllShallow.append] at shallow
    rw [linesNodes] at uses
    refine List.forall_mem_cons.2 ⟨?_, ?_⟩
    · exact line_settle fewer first shallow.1 (uses.subset (List.subset_append_left _ _))
    · exact lines_settle fewer rest shallow.2 (uses.subset (List.subset_append_right _ _))

end

/-- Resolving any block ends if it does with fewer includes left. -/
theorem Content.settlesAt_of_fewer (fewer : FewerSettle expanders level) (content : Content)
    (shallow : AllShallow content.bodies) : content.SettlesAt expanders level := by
  -- without uses first, as these are what uses lead to
  have flat : ∀ body : Content, AllShallow (body :: body.bodies) →
      body.SettlesAt expanders level := by
    intro body all
    rw [AllShallow.cons] at all
    refine body.settlesAt_of_uses fewer all.2 fun node member use => ?_
    exact absurd ((all.1 node member).symm.trans use) Bool.false_ne_true
  refine content.settlesAt_of_uses fewer shallow fun node _ use bodies env here => .of_succ ?_
  cases node with
  | content start name preamble =>
    simp only [Resolver.ofDepth, Resolver.element, Resolver.node]
    split
    · exact .blame env _ _
    · next body found =>
      refine Settles.ofExcept_bind (here.applyPreamble bodies) fun inner inside => ?_
      exact Resolver.block_settles (flat body (here.bound _ body found) inner inside) false
  | block start body => cases use
  | value start name => cases use
  | text start keyword classes block elements => cases use
  | read start classes block => cases use
  | inclusion start classes block preamble => cases use
  | typed start path classes block body => cases use

theorem Content.settlesAt (expanders : Expanders) (level : Nat) (content : Content)
    (shallow : AllShallow content.bodies) : content.SettlesAt expanders level := by
  induction level using Nat.strongRecOn generalizing content with
  | ind level ih => exact content.settlesAt_of_fewer ih shallow

end Trees

/-! ### Documents -/

/-- **Resolving ends**, in a result or in an error. Over a registry without expanders it does so for
every reader and all limits, provided that no bound content uses one: none that the document binds,
none that a text of the reader binds, and none that is bound already or bound by such a content. -/
theorem resolveWithin_settles {expanders : Expanders} {env : Environment} {content : Content}
    (without : env.registry.withoutExpanders = true)
    (texts : ∀ current path text content, env.reader current path = .ok text →
      Content.parse text.content = .ok content → AllShallow content.bodies)
    (bound : ∀ name body, env.content? name = some body → AllShallow (body :: body.bodies))
    (document : AllShallow content.bodies) (implied : Bool) :
    ∃ enough run, run.outcome ≠ .error .exhausted ∧
      ∀ depth, enough ≤ depth → resolveWithin depth expanders env content implied = run := by
  have room : env.limits.maxIncludeDepth ≤ env.includeDepth + env.limits.maxIncludeDepth :=
    Nat.le_add_left _ _
  have inside := content.settlesAt expanders _ document env ⟨without, texts, bound, room⟩
  exact Resolver.block_settles inside implied

/-- Files that include themselves, and limits that let them do so. -/
def endlessInclude : Environment :=
  (Environment.ofFile (fun _ path => .ok ⟨path, "[include {=a}]"⟩) "a" Registry.empty).withLimits
    ⟨2, false⟩

/-- A block that includes one of them. -/
def includesItself : Content :=
  let here := Position.start
  ⟨[], [[.node (.inclusion here [] (some ⟨here, some (.literal ⟨"a", here⟩), []⟩) [])]]⟩

/-- Resolving a file that includes itself ends. -/
theorem resolveWithin_settles_endless : ∃ enough run, run.outcome ≠ .error .exhausted ∧
    ∀ depth, enough ≤ depth →
      resolveWithin depth Expansion.stock endlessInclude includesItself false = run := by
  have binds : ((Content.parse "[include {=a}]").toOption.all fun content =>
      content.bodies.isEmpty) = true := by decide +kernel
  have texts : ∀ current path text content, endlessInclude.reader current path = .ok text →
      Content.parse text.content = .ok content → AllShallow content.bodies := by
    intro current path text content read parsed
    cases read
    rw [parsed] at binds
    have none : content.bodies = [] := List.isEmpty_iff.1 binds
    rw [none]
    exact AllShallow.nil.2 trivial
  have bound : ∀ name body, endlessInclude.content? name = some body →
      AllShallow (body :: body.bodies) := fun _ _ found => nomatch found
  have document : AllShallow includesItself.bodies := AllShallow.nil.2 trivial
  exact resolveWithin_settles rfl texts bound document false

end TypedMarkup
