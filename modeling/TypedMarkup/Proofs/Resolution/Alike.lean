/-
**Resolving cannot tell environments apart.** Environments that are alike give the same output, or
errors that are alike; and what asks for no files does not see the file it stands in.

* `Node.asksFile` marks the nodes that take in a file, and `Environment.AsksOnlyIf whole` keeps them
  out of what is bound unless the environments agree as a whole.
* One lemma for each construct leads `Run.EndAlike` from the elements of a block to the block:
  `block_alike`, `mapNode_alike`, `listNode_alike` and so on; `element_alike` is one level of
  nesting.
* `resolveWithin_alike` is the result for whole blocks, and `resolveBehind_transparent` says of it
  what it means for an include.

The induction is on the levels of nesting. Its invariant is that the environments are alike and that
what is bound in them takes in no files: preambles keep both, so a bound content may be resolved
wherever it is used.
-/

import TypedMarkup.Expansion.Stock
import TypedMarkup.Proofs.Environment.Alike
import TypedMarkup.Proofs.Environment.Bindings
import TypedMarkup.Proofs.Environment.Includes
import TypedMarkup.Proofs.Registry.Built
import TypedMarkup.Proofs.Tree.Bodies
import TypedMarkup.Resolution

namespace TypedMarkup

open Output (Line)

/-! ### Asking for files -/

/-- Whether a node takes in a file. -/
def Node.asksFile : Node → Bool
  | .inclusion _ _ _ _ | .read _ _ _ => true
  | .content _ _ _ | .block _ _ | .value _ _ | .text _ _ _ _ _ | .typed _ _ _ _ _ => false

/-- A node takes in a file only if something holds. -/
def Node.AsksOnlyIf (whole : Prop) (node : Node) : Prop :=
  node.asksFile = true → whole

/-- Nothing in a block takes in a file, nor in the contents that it binds. -/
def Content.AsksNoFile (content : Content) : Prop :=
  Throughout (fun node => node.asksFile = false) content.nodes content.bodies

namespace Environment

/-- What is bound takes in files only if something holds, and there are no expanders. -/
structure AsksOnlyIf (whole : Prop) (env : Environment) : Prop where
  without : env.registry.withoutExpanders = true
  bound : ∀ name body, env.content? name = some body →
    Throughout (Node.AsksOnlyIf whole) body.nodes body.bodies

variable {whole : Prop} {env other : Environment}

theorem AsksOnlyIf.within (asks : env.AsksOnlyIf whole) (type : TypeId) :
    (env.within type).AsksOnlyIf whole :=
  ⟨asks.without, asks.bound⟩

/-- A preamble does the same to environments that are alike, and adds nothing that takes in
files. -/
theorem preamble_alike (near : env.Alike whole other) (asks : env.AsksOnlyIf whole)
    {preamble : List PreambleElement}
    (all : Throughout (Node.AsksOnlyIf whole) [] (preambleBodies preamble)) :
    EndAlike (env.applyPreamble preamble) (other.applyPreamble preamble)
      (fun inner inner' => inner.Alike whole inner' ∧ inner.AsksOnlyIf whole)
      (Error.Alike whole) := by
  refine (near.applyPreamble preamble).and_ends ?_
  refine ((env.applyPreamble_beside preamble).and (env.applyPreamble_ends_content? preamble)).mono
    (fun inner ⟨beside, contents⟩ => ?_) fun _ _ => trivial
  refine ⟨beside.registry ▸ asks.without, fun name body found => ?_⟩
  rcases contents name body found with before | ⟨element, member, bound, binds⟩
  · exact asks.bound name body before
  · exact all.bound member binds

namespace Alike

/-! ### Paragraphs and slots -/

theorem textNode (near : env.Alike whole other) (content : String) :
    other.textNode content = env.textNode content := by
  unfold Environment.textNode
  rw [near.registry, near.defaults]

theorem isGathered (near : env.Alike whole other) : other.isGathered = env.isGathered := by
  funext node
  unfold Environment.isGathered
  rw [near.registry]

theorem gather (near : env.Alike whole other) (lines : List Line) :
    other.gather lines = env.gather lines := by
  have paragraph : other.paragraphOf = env.paragraphOf := by
    funext nodes
    unfold paragraphOf
    rw [near.registry, near.defaults]
  have line : ∀ line waiting, other.gatherLine waiting line = env.gatherLine waiting line := by
    intro line
    induction line with
    | nil => exact fun waiting => congrFun paragraph waiting
    | cons node rest ih =>
      intro waiting
      unfold gatherLine
      rw [near.isGathered, paragraph, ih, ih]
  have same : other.gatherLine [] = env.gatherLine [] := funext fun rest => line rest []
  unfold Environment.gather
  rw [same]

theorem distribute (near : env.Alike whole other) (shape : MapType) (main : MainSlot)
    (lines : List Line) : other.distribute shape main lines = env.distribute shape main lines := by
  have node : other.mainSlotNode = env.mainSlotNode := by
    funext child rests
    unfold mainSlotNode
    simp only [near.registry, near.defaults, near.gather]
  unfold Environment.distribute mainSlotNodes
  rw [node]

theorem slotsOf (near : env.Alike whole other) (shape : MapType) (nodes : List Output.Node) :
    other.slotsOf shape nodes = env.slotsOf shape nodes := by
  unfold Environment.slotsOf
  rw [near.registry]

end Alike

end Environment

namespace Resolver

variable {whole : Prop} {resolver : Resolver} {env other inner inner' : Environment}

/-! ### Lines and blocks -/

/-- Resolves elements in the same way in all environments that are alike. -/
def CannotTell (whole : Prop) (resolver : Resolver) : Prop :=
  ∀ env other element, env.Alike whole other → env.AsksOnlyIf whole →
    Throughout (Node.AsksOnlyIf whole) element.nodes element.bodies →
    (resolver env element).EndAlike (resolver other element) (· = ·) (Error.Alike whole)

theorem joinElements_alike (sound : resolver.CannotTell whole) (near : env.Alike whole other)
    (asks : env.AsksOnlyIf whole) {elements : List LineElement}
    (all : Throughout (Node.AsksOnlyIf whole) (lineNodes elements) (lineBodies elements))
    (begun : Line) :
    (resolver.joinElements env begun elements).EndAlike (resolver.joinElements other begun elements)
      (· = ·) (Error.Alike whole) := by
  induction elements generalizing begun with
  | nil => exact rfl
  | cons element rest ih =>
    rw [lineNodes, lineBodies, Throughout.append] at all
    unfold joinElements
    refine (sound env other element near asks all.1).bind_same fun expanded => ?_
    match expanded with
    | [] => exact ih all.2 begun
    | [only] => exact ih all.2 _
    | first :: second :: more => exact (ih all.2 _).bind_same fun lines => rfl

theorem lines_alike (sound : resolver.CannotTell whole) (near : env.Alike whole other)
    (asks : env.AsksOnlyIf whole) {lines : List (List LineElement)}
    (all : Throughout (Node.AsksOnlyIf whole) (linesNodes lines) (linesBodies lines)) :
    (resolver.lines env lines).EndAlike (resolver.lines other lines) (· = ·)
      (Error.Alike whole) := by
  induction lines with
  | nil => exact rfl
  | cons first rest ih =>
    rw [linesNodes, linesBodies, Throughout.append] at all
    unfold lines line
    refine (joinElements_alike sound near asks all.1 []).bind_same fun resolved => ?_
    exact (ih all.2).bind_same fun later => rfl

theorem block_alike (sound : resolver.CannotTell whole) (near : env.Alike whole other)
    (asks : env.AsksOnlyIf whole) {content : Content}
    (all : Throughout (Node.AsksOnlyIf whole) content.nodes content.bodies) (implied : Bool) :
    (resolver.block env content implied).EndAlike (resolver.block other content implied) (· = ·)
      (Error.Alike whole) := by
  obtain ⟨preamble, lines⟩ := all.content
  unfold block
  refine (Run.EndAlike.ofExcept (Environment.preamble_alike near asks preamble)).bind
    fun inner inner' known => ?_
  obtain ⟨near, asks⟩ := known
  refine (lines_alike sound near asks lines).bind_same fun resolved => ?_
  rw [near.gather]
  exact rfl

/-! ### Lists and maps -/

theorem slottedElements_alike (sound : resolver.CannotTell whole) (near : env.Alike whole other)
    (near' : inner.Alike whole inner') (asks : inner.AsksOnlyIf whole) (type : TypeId)
    (shape : MapType) {elements : List LineElement}
    (all : Throughout (Node.AsksOnlyIf whole) (lineNodes elements) (lineBodies elements)) :
    (resolver.slottedElements env inner type shape elements).EndAlike
      (resolver.slottedElements other inner' type shape elements) (· = ·) (Error.Alike whole) := by
  induction elements with
  | nil => exact rfl
  | cons element rest ih =>
    rw [lineNodes, lineBodies, Throughout.append] at all
    unfold slottedElements
    refine (sound inner inner' element near' asks all.1).bind_same fun expanded => ?_
    dsimp only
    split
    · exact (ih all.2).bind_same fun later => rfl
    · rw [near.typeName]
      exact near.blame rfl _

theorem mapNode_alike (sound : resolver.CannotTell whole) (near : env.Alike whole other)
    (asks : env.AsksOnlyIf whole) (type : TypeId) (shape : MapType) (classes : List ClassRef)
    (block : Option PropertyBlock) {content : Content}
    (all : Throughout (Node.AsksOnlyIf whole) content.nodes content.bodies) :
    (resolver.mapNode env type shape classes block content).EndAlike
      (resolver.mapNode other type shape classes block content) (· = ·) (Error.Alike whole) := by
  obtain ⟨preamble, lines⟩ := all.content
  have finish : ∀ nodes, (do
      let properties ← Run.ofExcept (env.nodeProperties type classes block)
      return .map type properties (env.slotsOf shape nodes) : Run Output.Node).EndAlike (do
        let properties ← Run.ofExcept (other.nodeProperties type classes block)
        return .map type properties (other.slotsOf shape nodes) : Run Output.Node)
      (· = ·) (Error.Alike whole) := by
    intro nodes
    rw [near.slotsOf]
    refine (Run.EndAlike.ofExcept (near.nodeProperties type classes block)).bind_same ?_
    exact fun properties => rfl
  unfold mapNode
  refine (Run.EndAlike.ofExcept (Environment.preamble_alike near asks preamble)).bind
    fun inner inner' known => ?_
  obtain ⟨near', asks⟩ := known
  cases shape.mainSlot with
  | some main =>
    refine (lines_alike sound near' asks lines).bind_same fun resolved => ?_
    rw [near'.distribute]
    exact finish _
  | none =>
    rw [linesNodes_flatten, linesBodies_flatten] at lines
    exact (slottedElements_alike sound near near' asks type shape lines).bind_same finish

theorem listNode_alike (sound : resolver.CannotTell whole) (near : env.Alike whole other)
    (asks : env.AsksOnlyIf whole) (type : TypeId) (shape : ListType) (start : Position)
    (classes : List ClassRef) (block : Option PropertyBlock) {content : Content}
    (all : Throughout (Node.AsksOnlyIf whole) content.nodes content.bodies) :
    (resolver.listNode env type shape start classes block content).EndAlike
      (resolver.listNode other type shape start classes block content) (· = ·)
      (Error.Alike whole) := by
  have finish : ∀ children, (do
      let properties ← Run.ofExcept ((env.within type).nodeProperties type classes block)
      return .list type properties children : Run Output.Node).EndAlike (do
        let properties ← Run.ofExcept ((other.within type).nodeProperties type classes block)
        return .list type properties children : Run Output.Node) (· = ·) (Error.Alike whole) := by
    intro children
    refine (Run.EndAlike.ofExcept ((near.within type).nodeProperties type classes block)).bind_same ?_
    exact fun properties => rfl
  unfold listNode
  refine (block_alike sound (near.within type) (asks.within type) all shape.containsParagraphs).bind_same
    fun lines => ?_
  dsimp only
  rw [near.registry, near.isGathered]
  split
  · split
    · rw [near.typeName]
      exact near.blame rfl _
    · exact finish _
  · exact finish _

/-! ### Nodes -/

theorem typedNode_alike (expanders : Expanders) (sound : resolver.CannotTell whole)
    (near : env.Alike whole other) (asks : env.AsksOnlyIf whole) (type : TypeId) (start : Position)
    (classes : List ClassRef) (block : Option PropertyBlock) {content : Content}
    (all : Throughout (Node.AsksOnlyIf whole) content.nodes content.bodies) :
    (resolver.typedNode expanders env type start classes block content).EndAlike
      (resolver.typedNode expanders other type start classes block content) (· = ·)
      (Error.Alike whole) := by
  unfold typedNode
  rw [near.registry]
  cases kind : (env.registry.get type).kind with
  | preExpander expander =>
    exact absurd kind (Registry.kind_ne_preExpander asks.without type expander)
  | postExpander expander =>
    exact absurd kind (Registry.kind_ne_postExpander asks.without type expander)
  | list shape =>
    exact (listNode_alike sound near asks type shape start classes block all).bind_same fun node => rfl
  | map shape =>
    refine (mapNode_alike sound (near.within type) (asks.within type) type shape classes block
      all).bind_same ?_
    exact fun node => rfl
  | text =>
    dsimp only
    rw [near.typeName]
    exact near.blame rfl _
  | misc =>
    dsimp only
    rw [near.typeName]
    exact near.blame rfl _

theorem inclusion_alike (sound : resolver.CannotTell whole) (near : env.Alike whole other)
    (asks : env.AsksOnlyIf whole) (holds : whole) (start : Position) (classes : List ClassRef)
    (block : Option PropertyBlock) (preamble : List PreambleElement) :
    (resolver.inclusion env start classes block preamble).EndAlike
      (resolver.inclusion other start classes block preamble) (· = ·) (Error.Alike whole) := by
  have all : ∀ nodes bodies, Throughout (Node.AsksOnlyIf whole) nodes bodies :=
    fun nodes bodies => .of_forall fun _ _ => holds
  unfold inclusion
  rw [near.registry]
  refine (Run.EndAlike.ofExcept (near.nodeProperties _ classes block)).bind_same fun properties => ?_
  dsimp only
  split
  · exact near.blame rfl _
  · refine (Run.EndAlike.ofExcept (near.readFile holds _ start)).bind_same fun text => ?_
    split
    · exact ⟨rfl, rfl, rfl⟩
    · next content parsed =>
      have enters := (near.enterInclude holds text.path start).and_ends
        ((Ends.result _).mono (fun _ found => (Environment.enterInclude_eq_ok.1 found).2.2)
          fun _ _ => trivial)
      refine (Run.EndAlike.ofExcept enters).bind fun entered entered' known => ?_
      obtain ⟨near, rfl⟩ := known
      have there : (env.entered text.path).AsksOnlyIf whole := ⟨asks.without, asks.bound⟩
      refine (Run.EndAlike.ofExcept (Environment.preamble_alike near there (all _ _))).bind
        fun included included' known => ?_
      exact block_alike sound known.1 known.2 (all _ _) false

/-- One level of nesting cannot tell environments apart. -/
theorem element_alike (expanders : Expanders) (sound : resolver.CannotTell whole) :
    (resolver.element expanders).CannotTell whole := by
  intro env other element near asks all
  have text : ∀ content, [[other.textNode content]] = [[env.textNode content]] := by
    intro content
    rw [near.textNode]
  match element, all with
  | .plain run, _ => exact (text run.content).symm
  | .escaped escaped, _ => exact (text escaped.text.content).symm
  | .node (.text _ _ classes block elements), _ =>
    simp only [Resolver.element, Resolver.node, near.registry]
    refine (Run.EndAlike.ofExcept (near.nodeProperties _ classes block)).bind_same ?_
    exact fun properties => rfl
  | .node (.block _ content), all => exact block_alike sound near asks all.tail false
  | .node (.value _ name), _ =>
    simp only [Resolver.element, Resolver.node, near.value]
    cases env.value? name.content with
    | some value => exact (text value).symm
    | none => exact near.blame rfl _
  | .node (.typed start path classes block content), all =>
    refine (Run.EndAlike.ofExcept (near.resolvePath path)).bind_same fun type => ?_
    exact typedNode_alike expanders sound near asks type start classes block all.tail
  | .node (.content start name preamble), all =>
    simp only [Resolver.element, Resolver.node, near.content]
    cases found : env.content? name.content with
    | none => exact near.blame rfl _
    | some content =>
      have bound : Throughout (Node.AsksOnlyIf whole) [] (preambleBodies preamble) :=
        all.tail
      refine (Run.EndAlike.ofExcept (Environment.preamble_alike near asks bound)).bind
        fun inner inner' known => ?_
      exact block_alike sound known.1 known.2 (asks.bound _ content found) false
  | .node (.inclusion start classes block preamble), all =>
    have holds : whole := all.nodes _ List.mem_cons_self rfl
    exact inclusion_alike sound near asks holds start classes block preamble
  | .node (.read start classes block), all =>
    have holds : whole := all.nodes _ List.mem_cons_self rfl
    simp only [Resolver.element, Resolver.node, near.registry]
    refine (Run.EndAlike.ofExcept (near.nodeProperties _ classes block)).bind_same fun properties => ?_
    refine (Run.EndAlike.ofExcept (near.readFile holds _ start)).bind_same fun read => ?_
    exact (text read.content).symm

theorem ofDepth_alike (expanders : Expanders) (depth : Nat) :
    (ofDepth expanders depth).CannotTell whole := by
  induction depth with
  | zero => exact fun _ _ _ _ _ _ => trivial
  | succ depth ih => exact element_alike expanders ih

end Resolver

/-! ### Documents -/

/-- **Environments that are alike resolve alike.** Without expanders, a block gives the same output
in both, or errors that are alike, if nothing in it or in what is bound takes in a file or the
environments agree as a whole. -/
theorem resolveWithin_alike {whole : Prop} {env other : Environment} {content : Content}
    (near : env.Alike whole other) (asks : env.AsksOnlyIf whole)
    (all : Throughout (Node.AsksOnlyIf whole) content.nodes content.bodies)
    (depth : Nat) (expanders : Expanders) (implied : Bool) :
    (resolveWithin depth expanders env content implied).EndAlike
      (resolveWithin depth expanders other content implied) (· = ·) (Error.Alike whole) := by
  refine Resolver.block_alike ?_ near asks all implied
  exact Resolver.ofDepth_alike expanders depth

/-! ### Includes -/

/-- Resolves a block behind a preamble, as an include does with its own preamble and its file. -/
def resolveBehind (depth : Nat) (expanders : Expanders) (env : Environment)
    (preamble : List PreambleElement) (content : Content) (implied : Bool) : Run (List Line) := do
  let inner ← Run.ofExcept (env.applyPreamble preamble)
  resolveWithin depth expanders inner content implied

/-- **An include is transparent.** Without expanders, and if nothing in a preamble, in a block or in
what is bound takes in a file, the block behind the preamble gives the same output inside an include
as outside it, or fails for the same cause at the same places. The reader, the file, the includes
that lead to it and the limits make no difference at all. -/
theorem resolveBehind_transparent {env : Environment} {preamble : List PreambleElement}
    {content : Content} (without : env.registry.withoutExpanders = true)
    (bound : ∀ name body, env.content? name = some body → body.AsksNoFile)
    (before : Throughout (fun node => node.asksFile = false) [] (preambleBodies preamble))
    (document : content.AsksNoFile) (depth : Nat) (expanders : Expanders) (implied : Bool) :
    (∀ path position entered, env.enterInclude path position = .ok entered →
      (resolveBehind depth expanders env preamble content implied).EndAlike
        (resolveBehind depth expanders entered preamble content implied) (· = ·)
        (Error.Alike False)) ∧
    ∀ reader path includes limits,
      (resolveBehind depth expanders env preamble content implied).EndAlike
        (resolveBehind depth expanders
          { env with reader := reader, path := path, includes := includes, limits := limits }
          preamble content implied) (· = ·) (Error.Alike False) := by
  have never : ∀ node : Node, node.asksFile = false → node.AsksOnlyIf False :=
    fun node none asks => Bool.false_ne_true (none.symm.trans asks)
  have asks : env.AsksOnlyIf False := ⟨without, fun name body found => (bound name body found).mono never⟩
  have anywhere : ∀ other, env.Alike False other →
      (resolveBehind depth expanders env preamble content implied).EndAlike
        (resolveBehind depth expanders other preamble content implied) (· = ·)
        (Error.Alike False) := by
    intro other near
    refine (Run.EndAlike.ofExcept (Environment.preamble_alike near asks (before.mono never))).bind
      fun inner inner' known => ?_
    exact resolveWithin_alike known.1 known.2 (document.mono never) depth expanders implied
  refine ⟨fun path position entered enters => anywhere entered ?_, fun reader path includes limits =>
    anywhere _ (.elsewhere env reader path includes limits)⟩
  obtain ⟨_, _, rfl⟩ := Environment.enterInclude_eq_ok.1 enters
  exact .elsewhere env env.reader path _ env.limits

/-- A preamble that binds one value. -/
def boundOnce : List PreambleElement :=
  [⟨Position.start, none, .value ⟨"x", Position.start⟩ (.literal ⟨"text", Position.start⟩)⟩]

/-- A use of that value and one of another, which is not bound. -/
def usedTwice : Content :=
  let there : Position := ⟨1, 8, 7⟩
  ⟨[], [[.node (.value Position.start ⟨"x", Position.start⟩), .node (.value there ⟨"y", there⟩)]]⟩

/-- The value that is missing outside an include is missing inside it. -/
theorem resolveBehind_transparent_missing :
    let env := Environment.ofFile Reader.nothing "main" Registry.empty
    ∃ entered failure, env.enterInclude "part" Position.start = .ok entered ∧
      (resolveBehind 1 Expansion.stock entered boundOnce usedTwice false).outcome =
        .error (.error (.semantic failure)) ∧
      failure.cause = .unboundValue "y" ∧ failure.positions = [⟨1, 8, 7⟩] := by
  intro env
  have nothing : ∀ name body, env.content? name = some body → body.AsksNoFile :=
    fun name body found => nomatch found
  have before : Throughout (fun node => node.asksFile = false) [] (preambleBodies boundOnce) :=
    ⟨List.forall_mem_nil _, List.forall_mem_nil _⟩
  have document : usedTwice.AsksNoFile := by
    refine ⟨?_, List.forall_mem_nil _⟩
    intro node member
    simp only [usedTwice, Content.nodes, linesNodes, lineNodes, LineElement.nodes, Node.nodes,
      List.append_nil, List.cons_append, List.nil_append, List.mem_cons, List.not_mem_nil,
      or_false] at member
    rcases member with rfl | rfl <;> rfl
  have alike := (resolveBehind_transparent rfl nothing before document 1 Expansion.stock false).1
    "part" Position.start _ rfl
  rcases alike.results with ⟨lines, _, found, _, _⟩ | ⟨stop, stop', failed, failed', same⟩
  · cases found
  · cases failed
    cases stop' with
    | exhausted => exact same.elim
    | error error =>
      cases error with
      | semantic failure =>
        obtain ⟨cause, positions, _⟩ := same
        exact ⟨_, failure, rfl, failed', cause.symm, positions.symm⟩
      | parse path position error => exact same.elim
      | read position error => exact same.elim

end TypedMarkup
