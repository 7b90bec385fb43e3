/-
**Well-typed output.** The kinds and places of the nodes of an output tree are those that their
types give them.

* `Output.Node.WellTyped` says so of a node and of all nodes inside it.
* Every construct keeps it: joining lines, gathering paragraphs, filling slots, including files,
  using bound contents and expanding. The main slot of a map needs that the registry was built
  (`Registry.map_fits`).
* `resolveWithin_wellTyped`: what a block resolves to is well typed, and with implied paragraphs it
  stands alone on its line, outside of any paragraph.

Pre-expanders are arbitrary. Post-expanders answer with finished nodes, which have to be well typed
(`Expanders.ReturnWellTyped`); the stock ones are (`Expansion.stock_returnWellTyped`).
-/

import TypedMarkup.Expansion.Stock
import TypedMarkup.Proofs.Environment.Beside
import TypedMarkup.Proofs.Registry.Built
import TypedMarkup.Proofs.Resolution.Lines
import TypedMarkup.Proofs.Resolution.Paragraphs

namespace TypedMarkup

open Output (Line)

/-! ### Well-typed nodes -/

/-- Whether a node may stand in a paragraph. -/
def Registry.allowsInParagraph (registry : Registry) (node : Output.Node) : Bool :=
  (registry.get node.type).inParagraph

/-- One slot for each type, in the order of the types and with their names, and in each slot nodes
of its type only. -/
def SlotsFit (registry : Registry) : List TypeId → List Output.Slot → Prop
  | [], [] => True
  | child :: children, slot :: slots =>
    slot.name = (registry.get child).name ∧ (∀ node ∈ slot.nodes, node.type = child) ∧
      SlotsFit registry children slots
  | [], _ :: _ | _ :: _, [] => False

/-- A node whose kind and whose places are those of its type, at every depth. -/
inductive Output.Node.WellTyped (registry : Registry) : Output.Node → Prop where
  | text {properties : Properties} {content : String} :
    WellTyped registry (.text registry.text properties content)
  | list {type : TypeId} {shape : ListType} {properties : Properties}
    {children : List Output.Node} (kind : (registry.get type).list? = some shape)
    (inside : ∀ child ∈ children, WellTyped registry child)
    (paragraph : type = registry.paragraph →
      ∀ child ∈ children, registry.allowsInParagraph child = true)
    (grouped : shape.containsParagraphs = true →
      ∀ child ∈ children, registry.allowsInParagraph child = false) :
    WellTyped registry (.list type properties children)
  | map {type : TypeId} {shape : MapType} {properties : Properties} {slots : List Output.Slot}
    (kind : (registry.get type).map? = some shape) (distinct : shape.mapped.Nodup)
    (fit : SlotsFit registry shape.mapped slots)
    (inside : ∀ slot ∈ slots, ∀ node ∈ slot.nodes, WellTyped registry node) :
    WellTyped registry (.map type properties slots)

/-- Lines of well-typed nodes. -/
def AllWellTyped (registry : Registry) (lines : List Line) : Prop :=
  ∀ line ∈ lines, ∀ node ∈ line, node.WellTyped registry

/-- Lines of one node each that does not stand in a paragraph. -/
def AllAlone (registry : Registry) (lines : List Line) : Prop :=
  ∀ line ∈ lines, ∃ node, line = [node] ∧ registry.allowsInParagraph node = false

variable {registry : Registry} {env : Environment}

namespace AllWellTyped

theorem nil : AllWellTyped registry [] :=
  List.forall_mem_nil _

theorem single {node : Output.Node} (typed : node.WellTyped registry) :
    AllWellTyped registry [[node]] :=
  List.forall_mem_singleton.2 (List.forall_mem_singleton.2 typed)

theorem flatten {lines : List Line} (typed : AllWellTyped registry lines) :
    ∀ node ∈ lines.flatten, node.WellTyped registry :=
  List.forall_mem_flatten.2 typed

end AllWellTyped

namespace AllAlone

theorem flatten {lines : List Line} (alone : AllAlone registry lines) :
    ∀ node ∈ lines.flatten, registry.allowsInParagraph node = false := by
  intro node member
  obtain ⟨line, inside, member⟩ := List.mem_flatten.1 member
  obtain ⟨only, rfl, outside⟩ := alone line inside
  rw [List.mem_singleton.1 member]
  exact outside

end AllAlone

/-! ### Paragraphs -/

namespace Environment

theorem textNode_wellTyped (same : env.registry = registry) (content : String) :
    (env.textNode content).WellTyped registry := by
  unfold textNode
  rw [same]
  exact .text

/-- A group of well-typed nodes becomes a well-typed one. -/
theorem output_wellTyped (same : env.registry = registry) {group : Group}
    (order : group.InOrder env) (typed : ∀ node ∈ group.nodes, node.WellTyped registry) :
    (group.output env).WellTyped registry := by
  cases group with
  | gathered nodes =>
    have kind : (registry.get registry.paragraph).list? = some ⟨false, false, []⟩ := by
      rw [registry.get_paragraph]
      rfl
    have allowed : ∀ node ∈ nodes, registry.allowsInParagraph node = true := by
      rw [← same]
      exact order.2
    unfold Group.output
    rw [same]
    exact .list kind typed (fun _ => allowed) fun grouped => nomatch grouped
  | alone node => exact typed node List.mem_cons_self

/-- Implied paragraphs leave well-typed nodes that stand alone. -/
theorem gather_wellTyped (same : env.registry = registry) {lines : List Line}
    (typed : AllWellTyped registry lines) :
    AllWellTyped registry (env.gather lines) ∧ AllAlone registry (env.gather lines) := by
  refine ⟨fun line member => ?_, ?_⟩
  · obtain ⟨source, inside, member⟩ := List.mem_flatMap.1 member
    obtain ⟨groups, fall, gathered⟩ := env.gatherLine_groups source
    rw [gathered] at member
    obtain ⟨group, among, rfl⟩ := List.mem_map.1 member
    refine List.forall_mem_singleton.2 (env.output_wellTyped same (fall.order group among) ?_)
    intro node within
    refine typed source inside node ?_
    rw [← fall.whole]
    exact List.mem_flatMap.2 ⟨group, among, within⟩
  · rw [← same]
    exact env.gather_alone lines

/-! ### Slots -/

/-- Whatever the nodes, the slots of a map fit. -/
theorem slotsOf_fit (same : env.registry = registry) (shape : MapType)
    (nodes : List Output.Node) : SlotsFit registry shape.mapped (env.slotsOf shape nodes) := by
  unfold slotsOf
  induction shape.mapped with
  | nil => trivial
  | cons child children ih =>
    refine ⟨by rw [same], fun node member => ?_, ih⟩
    exact eq_of_beq (List.mem_filter.1 member).2

/-- A map around well-typed nodes. -/
theorem map_wellTyped (same : env.registry = registry) {type : TypeId} {shape : MapType}
    (kind : (registry.get type).map? = some shape) (distinct : shape.mapped.Nodup)
    {nodes : List Output.Node} (typed : ∀ node ∈ nodes, node.WellTyped registry)
    (properties : Properties) :
    (Output.Node.map type properties (env.slotsOf shape nodes)).WellTyped registry := by
  refine .map kind distinct (env.slotsOf_fit same shape nodes) fun slot member node inside => ?_
  obtain ⟨child, _, rfl⟩ := List.mem_map.1 member
  exact typed node (List.mem_filter.1 inside).1

/-- The node of a main slot is a list as its type says. -/
theorem mainSlotNode_wellTyped (same : env.registry = registry) {child : TypeId} {type : NodeType}
    (declared : typeAt 0 registry.declared child = some type) (list : type.list?.isSome = true)
    {lines : List Line} (typed : AllWellTyped registry lines) :
    (env.mainSlotNode child lines).WellTyped registry := by
  obtain ⟨shape, kind⟩ := Option.isSome_iff_exists.1 list
  have known : (registry.get child).list? = some shape := by
    rw [Registry.get_declared declared]
    exact kind
  have gathered := env.gather_wellTyped same typed
  unfold mainSlotNode
  rw [same, known]
  dsimp only
  refine Output.Node.WellTyped.list known ?_ ?_ fun grouped => ?_
  · split
    · exact gathered.1.flatten
    · exact typed.flatten
  · exact fun paragraph => absurd paragraph (Registry.ne_paragraph declared)
  · rw [if_pos grouped]
    exact gathered.2.flatten

theorem mainSlotNodes_wellTyped (same : env.registry = registry) {child : TypeId}
    {type : NodeType} (declared : typeAt 0 registry.declared child = some type)
    (list : type.list?.isSome = true) {lines : List Line} (typed : AllWellTyped registry lines) :
    ∀ node ∈ env.mainSlotNodes child lines, node.WellTyped registry := by
  unfold mainSlotNodes
  dsimp only
  split
  · exact List.forall_mem_nil _
  · refine List.forall_mem_singleton.2 ?_
    refine env.mainSlotNode_wellTyped same declared list fun line member => ?_
    exact typed line (List.mem_filter.1 member).1

/-- What is put into the slots of a map is well typed. -/
theorem distribute_wellTyped (same : env.registry = registry) {shape : MapType} {main : MainSlot}
    (fits : shape.Fits (typeAt 0 registry.declared)) (slot : shape.mainSlot = some main)
    {lines : List Line} (typed : AllWellTyped registry lines) :
    ∀ node ∈ env.distribute shape main lines, node.WellTyped registry := by
  obtain ⟨type, declared, list⟩ := fits.mainList main slot
  have own : ∀ line ∈ lines, ∀ node ∈ slotted shape line, node.WellTyped registry :=
    fun line member node inside => typed line member node (List.mem_filter.1 inside).1
  have left : ∀ line ∈ lines, ∀ node ∈ leftover shape line, node.WellTyped registry :=
    fun line member node inside => typed line member node (List.mem_filter.1 inside).1
  unfold distribute
  split
  · refine List.forall_mem_append.2 ⟨fun node member => ?_, ?_⟩
    · obtain ⟨line, inside, member⟩ := List.mem_flatMap.1 member
      exact own line inside node member
    · refine env.mainSlotNodes_wellTyped same declared list fun rest member => ?_
      obtain ⟨line, inside, rfl⟩ := List.mem_map.1 member
      exact left line inside
  · intro node member
    obtain ⟨line, inside, member⟩ := List.mem_flatMap.1 member
    have rest : AllWellTyped registry [leftover shape line] :=
      List.forall_mem_singleton.2 (left line inside)
    have main := env.mainSlotNodes_wellTyped same declared list rest
    exact List.forall_mem_append.2 ⟨own line inside, main⟩ node member

end Environment

namespace Resolver

/-! ### Lines and blocks -/

/-- A resolver whose lines are well typed. -/
def TypesWell (registry : Registry) (resolver : Resolver) : Prop :=
  ∀ env element, env.registry = registry →
    (resolver env element).Ends (AllWellTyped registry) fun _ => True

variable {resolver : Resolver}

theorem lines_wellTyped (sound : resolver.TypesWell registry) (same : env.registry = registry)
    (lines : List (List LineElement)) :
    (resolver.lines env lines).Ends (AllWellTyped registry) fun _ => True := by
  -- Only the nodes count, wherever lines end, and they are those of the elements.
  have nodes : (List.flatten <$> resolver.lines env lines).Ends
      (fun nodes => ∀ node ∈ nodes, node.WellTyped registry) fun _ => True := by
    rw [lines_flatten_eq, Run.Ends.map_iff]
    refine (Run.Ends.mapM fun element _ => sound env element same).mono
      (fun expansions typed => ?_) fun _ _ => trivial
    refine List.forall_mem_flatten.2 (List.forall_mem_map.2 fun expanded member => ?_)
    exact (typed expanded member).flatten
  exact (Run.Ends.map_iff.1 nodes).mono (fun _ => List.forall_mem_flatten.1) fun _ _ => trivial

/-- What is known of a block. -/
def BlockTyped (registry : Registry) (implied : Bool) (lines : List Line) : Prop :=
  AllWellTyped registry lines ∧ (implied = true → AllAlone registry lines)

theorem block_wellTyped (sound : resolver.TypesWell registry) (same : env.registry = registry)
    (content : Content) (implied : Bool) :
    (resolver.block env content implied).Ends (BlockTyped registry implied) fun _ => True := by
  unfold block
  refine (Run.Ends.ofExcept (env.applyPreamble_beside content.preamble)).bind fun inner near => ?_
  have here : inner.registry = registry := near.registry.trans same
  refine (lines_wellTyped sound here content.lines).bind fun resolved typed => ?_
  cases implied with
  | false => exact ⟨typed, fun implied => nomatch implied⟩
  | true => exact ⟨(inner.gather_wellTyped here typed).1, fun _ => (inner.gather_wellTyped here typed).2⟩

/-! ### Lists and maps -/

theorem slottedElements_wellTyped (sound : resolver.TypesWell registry) {inner : Environment}
    (same : inner.registry = registry) (type : TypeId) (shape : MapType)
    (elements : List LineElement) :
    (resolver.slottedElements env inner type shape elements).Ends
      (fun nodes => ∀ node ∈ nodes, node.WellTyped registry) fun _ => True := by
  induction elements with
  | nil => exact List.forall_mem_nil _
  | cons element rest ih =>
    unfold slottedElements
    refine (sound inner element same).bind fun expanded typed => ?_
    dsimp only
    split
    · exact ih.bind fun nodes typed' => List.forall_mem_append.2 ⟨typed.flatten, typed'⟩
    · trivial

theorem mapNode_wellTyped (sound : resolver.TypesWell registry) (same : env.registry = registry)
    {type : TypeId} {shape : MapType} (kind : (registry.get type).map? = some shape)
    (fits : shape.Fits (typeAt 0 registry.declared)) (classes : List ClassRef)
    (block : Option PropertyBlock) (content : Content) :
    (resolver.mapNode env type shape classes block content).Ends
      (Output.Node.WellTyped registry) fun _ => True := by
  unfold mapNode
  refine (Run.Ends.ofExcept (env.applyPreamble_beside content.preamble)).bind fun inner near => ?_
  have here : inner.registry = registry := near.registry.trans same
  have finish : ∀ nodes, (∀ node ∈ nodes, node.WellTyped registry) →
      (do
        let properties ← Run.ofExcept (env.nodeProperties type classes block)
        return .map type properties (env.slotsOf shape nodes) : Run Output.Node).Ends
          (Output.Node.WellTyped registry) fun _ => True := fun nodes typed =>
    (Run.Ends.any _).bind fun properties _ => env.map_wellTyped same kind fits.distinct typed properties
  cases slot : shape.mainSlot with
  | none =>
    refine (slottedElements_wellTyped sound here type shape _).bind fun nodes typed => ?_
    exact finish nodes typed
  | some main =>
    refine (lines_wellTyped sound here content.lines).bind fun lines typed => ?_
    exact finish _ (inner.distribute_wellTyped here fits slot typed)

theorem listNode_wellTyped (sound : resolver.TypesWell registry) (same : env.registry = registry)
    {type : TypeId} {shape : ListType} (kind : (registry.get type).list? = some shape)
    (start : Position) (classes : List ClassRef) (block : Option PropertyBlock)
    (content : Content) :
    (resolver.listNode env type shape start classes block content).Ends
      (Output.Node.WellTyped registry) fun _ => True := by
  unfold listNode
  have here : (env.within type).registry = registry := same
  refine (block_wellTyped sound here content shape.containsParagraphs).bind fun lines typed => ?_
  have finish : (type = registry.paragraph →
      ∀ child ∈ lines.flatten, registry.allowsInParagraph child = true) →
      (do
        let properties ← Run.ofExcept ((env.within type).nodeProperties type classes block)
        return .list type properties lines.flatten : Run Output.Node).Ends
          (Output.Node.WellTyped registry) fun _ => True := fun paragraph =>
    (Run.Ends.any _).bind fun properties _ =>
      .list kind typed.1.flatten paragraph fun grouped => (typed.2 grouped).flatten
  dsimp only
  rw [same]
  split
  · split
    · trivial
    · next nothing =>
      refine finish fun _ child member => ?_
      have missing := Option.eq_none_iff_forall_ne_some.2 nothing
      have gathered := List.find?_eq_none.1 missing child member
      rw [Bool.not_eq_true, Bool.not_eq_false'] at gathered
      rw [← same]
      exact gathered
  · next other => exact finish fun paragraph => absurd paragraph other

end Resolver

/-! ### Expanders -/

/-- Post-expanders that answer with well-typed lines, if whatever they have resolved is well typed.
Answers are those of the expander at work at some depth. -/
def Expanders.ReturnWellTyped (expanders : Expanders) (registry : Registry) : Prop :=
  ∀ depth, (Resolver.ofDepth expanders depth).TypesWell registry →
    ∀ name env invocation, env.registry = registry →
      ((expanders.post name env invocation).run (Resolver.ofDepth expanders depth).block
        (Resolver.gaveUp env invocation.start)).Ends (AllWellTyped registry) fun _ => True

/-- The stock post-expanders answer with text, or with what they have resolved. -/
theorem Expansion.stock_returnWellTyped (registry : Registry) :
    stock.ReturnWellTyped registry := by
  intro depth sound name env invocation same
  show ((stockPost name env invocation).run _ _).Ends _ _
  unfold stockPost
  split
  · exact AllWellTyped.single (env.textNode_wellTyped same _)
  · have replied := Resolver.block_wellTyped sound same invocation.content
      (invocation.properties.get? "imply" == some "true")
    refine replied.attempt.bind fun reply typed => ?_
    cases reply with
    | ok lines => exact typed.1
    | error error => trivial
  · intro line member
    obtain ⟨index, _, rfl⟩ := List.mem_map.1 member
    exact List.forall_mem_singleton.2 (env.textNode_wellTyped same _)
  · exact AllWellTyped.nil
  · unfold failing
    dsimp only
    split <;> trivial

namespace Resolver

variable {resolver : Resolver}

/-! ### Nodes -/

theorem inclusion_wellTyped (sound : resolver.TypesWell registry) (same : env.registry = registry)
    (start : Position) (classes : List ClassRef) (block : Option PropertyBlock)
    (preamble : List PreambleElement) :
    (resolver.inclusion env start classes block preamble).Ends (AllWellTyped registry)
      fun _ => True := by
  unfold inclusion
  refine (Run.Ends.any _).bind fun properties _ => ?_
  dsimp only
  split
  · trivial
  · refine (Run.Ends.any _).bind fun text _ => ?_
    split
    · trivial
    · next content _ =>
      have blamed : Ends (env.enterInclude text.path start) (· = env.entered text.path)
          (Error.Blames env fun _ => True) := env.enterInclude_ends text.path trivial
      have entered := blamed.mono (fun _ led => led) fun _ _ => trivial
      refine (Run.Ends.ofExcept entered).bind fun inside led => ?_
      have bound := inside.applyPreamble_beside preamble
      refine (Run.Ends.ofExcept bound).bind fun included near => ?_
      have here : included.registry = registry := by
        rw [near.registry, led]
        exact same
      exact (block_wellTyped sound here content false).mono (fun _ typed => typed.1) fun _ _ => trivial

theorem typedNode_wellTyped {decls : List NamedDecl} {expanders : Expanders} {depth : Nat}
    (built : Registry.ofDeclarations decls = .ok registry)
    (returns : expanders.ReturnWellTyped registry)
    (sound : (ofDepth expanders depth).TypesWell registry) (same : env.registry = registry)
    (type : TypeId) (start : Position) (classes : List ClassRef) (block : Option PropertyBlock)
    (content : Content) :
    ((ofDepth expanders depth).typedNode expanders env type start classes block content).Ends
      (AllWellTyped registry) fun _ => True := by
  have called : (invocation env type start classes block content).Ends
      (fun invocation => invocation.start = start) fun _ => True := by
    unfold invocation
    exact (Run.Ends.any _).bind fun properties _ => Run.Ends.record_bind rfl
  unfold typedNode
  split
  · refine called.bind fun invocation _ => (Run.Ends.any _).bind fun markup _ => ?_
    exact (block_wellTyped sound same markup false).mono (fun _ typed => typed.1) fun _ _ => trivial
  · next expander _ =>
    refine called.bind fun invocation here => ?_
    rw [← here]
    exact returns depth sound expander env invocation same
  · next shape kind =>
    have list : (registry.get type).list? = some shape := by
      rw [← same]
      unfold NodeType.list?
      rw [kind]
    refine (listNode_wellTyped sound same list start classes block content).bind fun node typed => ?_
    exact AllWellTyped.single typed
  · next shape kind =>
    have map : (registry.get type).map? = some shape := by
      rw [← same]
      unfold NodeType.map?
      rw [kind]
    have within : (env.within type).registry = registry := same
    refine (mapNode_wellTyped sound within map (Registry.map_fits built map) classes block
      content).bind fun node typed => ?_
    exact AllWellTyped.single typed
  all_goals trivial

/-- One level of nesting keeps output well typed. -/
theorem element_wellTyped {decls : List NamedDecl} {expanders : Expanders} {depth : Nat}
    (built : Registry.ofDeclarations decls = .ok registry)
    (returns : expanders.ReturnWellTyped registry)
    (sound : (ofDepth expanders depth).TypesWell registry) :
    ((ofDepth expanders depth).element expanders).TypesWell registry := by
  intro env element same
  match element with
  | .plain run => exact AllWellTyped.single (env.textNode_wellTyped same _)
  | .escaped text => exact AllWellTyped.single (env.textNode_wellTyped same _)
  | .node (.text _ _ classes block elements) =>
    refine (Run.Ends.any _).bind fun properties _ => AllWellTyped.single ?_
    rw [same]
    exact .text
  | .node (.inclusion start classes block preamble) =>
    exact inclusion_wellTyped sound same start classes block preamble
  | .node (.read start classes block) =>
    refine (Run.Ends.any _).bind fun properties _ => (Run.Ends.any _).bind fun text _ => ?_
    exact AllWellTyped.single (env.textNode_wellTyped same _)
  | .node (.block _ content) =>
    exact (block_wellTyped sound same content false).mono (fun _ typed => typed.1) fun _ _ => trivial
  | .node (.content _ name preamble) =>
    simp only [Resolver.element, Resolver.node]
    split
    · trivial
    · next content _ =>
      have bound := env.applyPreamble_beside preamble
      refine (Run.Ends.ofExcept bound).bind fun inner near => ?_
      refine (block_wellTyped sound (near.registry.trans same) content false).mono ?_ fun _ _ => trivial
      exact fun _ typed => typed.1
  | .node (.value _ name) =>
    simp only [Resolver.element, Resolver.node]
    split
    · exact AllWellTyped.single (env.textNode_wellTyped same _)
    · trivial
  | .node (.typed start path classes block content) =>
    refine (Run.Ends.any _).bind fun type _ => ?_
    exact typedNode_wellTyped built returns sound same type start classes block content

theorem ofDepth_wellTyped {decls : List NamedDecl} {expanders : Expanders}
    (built : Registry.ofDeclarations decls = .ok registry)
    (returns : expanders.ReturnWellTyped registry) (depth : Nat) :
    (ofDepth expanders depth).TypesWell registry := by
  induction depth with
  | zero => exact fun _ _ _ => trivial
  | succ depth ih => exact element_wellTyped built returns ih

end Resolver

/-! ### Documents -/

/-- **Output is well typed.** Whatever a block over a built registry resolves to is well typed at
every depth. With implied paragraphs every line is one node, which does not stand in a paragraph. -/
theorem resolveWithin_wellTyped {decls : List NamedDecl} {expanders : Expanders} {depth : Nat}
    {content : Content} {implied : Bool} {lines : List Line}
    (built : Registry.ofDeclarations decls = .ok registry)
    (returns : expanders.ReturnWellTyped registry) (same : env.registry = registry)
    (resolved : (resolveWithin depth expanders env content implied).outcome = .ok lines) :
    AllWellTyped registry lines ∧ (implied = true → AllAlone registry lines) := by
  have sound := Resolver.ofDepth_wellTyped built returns depth
  exact (Resolver.block_wellTyped sound same content implied).of_ok resolved

/-- Notes with a body, and an echo of whatever it is given. -/
def noteDecls : List NamedDecl :=
  [⟨"note", .map false none [⟨"body", .list true false none []⟩] ["body"] (some ("body", .perLine))⟩,
    ⟨"echo", .postExpander "resolve" none⟩]

/-- The registry of `noteDecls`. -/
def noteRegistry : Registry :=
  ⟨[⟨"note", none, none, .map ⟨false, [("body", ⟨1⟩)], [⟨1⟩], some ⟨⟨1⟩, .perLine⟩⟩⟩,
    ⟨"body", some ⟨0⟩, none, .list ⟨true, false, []⟩⟩,
    ⟨"echo", none, none, .postExpander "resolve"⟩], [("note", ⟨0⟩), ("echo", ⟨2⟩)]⟩

/-- A note that echoes a word. -/
def noteContent : Content :=
  let here := Position.start
  let echo : Node := .typed here (.absolute ⟨"echo", here⟩ []) [] none (.ofText "word" here)
  ⟨[], [[.node (.typed here (.absolute ⟨"note", here⟩ []) [] none ⟨[], [[.node echo]]⟩)]]⟩

/-- The word becomes a paragraph in the body of the note. -/
theorem resolveWithin_wellTyped_note : ∃ line,
    (resolveWithin 3 Expansion.stock (.ofFile Reader.nothing "" noteRegistry) noteContent
      true).outcome = .ok [line] ∧
    AllWellTyped noteRegistry [line] ∧ AllAlone noteRegistry [line] := by
  have built : Registry.ofDeclarations noteDecls = .ok noteRegistry := rfl
  have resolved : (resolveWithin 3 Expansion.stock (.ofFile Reader.nothing "" noteRegistry) noteContent
      true).outcome = .ok [[.map ⟨0⟩ Table.empty [⟨"body", [.list ⟨1⟩ Table.empty
        [.list ⟨4⟩ Table.empty [.text ⟨3⟩ Table.empty "word"]]]⟩]]] := rfl
  have typed := resolveWithin_wellTyped built (Expansion.stock_returnWellTyped _) rfl resolved
  exact ⟨_, resolved, typed.1, typed.2 rfl⟩

end TypedMarkup
