/-
**No text is lost.** Over a registry without expanders, the texts in an output tree are those that
the source stands for (`Content.leaves`), each as often.

* `Output.Node.leaves` lists the texts of an output node, and `Output.leavesOf` those of some nodes.
* `slotsOf_leaves`: the slots of a map hold what is put into them, if every node has a slot and no
  type has two.
* `distribute_leaves`: a main slot takes what has no slot of its own. Both rest on a built registry
  (`Registry.map_fits`).
* `resolveWithin_leaves`: a block without bound contents and files keeps its texts, and where no
  node is a map it keeps their order too.
-/

import Mathlib.Data.List.Perm.Basic
import TypedMarkup.Expansion.Stock
import TypedMarkup.Proofs.Environment.Bindings
import TypedMarkup.Proofs.Registry.Built
import TypedMarkup.Proofs.Resolution.Lines
import TypedMarkup.Proofs.Resolution.Paragraphs

namespace TypedMarkup

open Output (Line)

/-! ### Texts of output -/

namespace Output

mutual

/-- The texts of an output node, from left to right. -/
def Node.leaves : Node → List String
  | .text _ _ content => [content]
  | .list _ _ children => leavesOf children
  | .map _ _ slots => slotLeaves slots

/-- The texts of some nodes. -/
def leavesOf : List Node → List String
  | [] => []
  | node :: rest => node.leaves ++ leavesOf rest

/-- The texts of some slots. -/
def slotLeaves : List Slot → List String
  | [] => []
  | ⟨_, nodes⟩ :: rest => leavesOf nodes ++ slotLeaves rest

end

theorem leavesOf_eq (nodes : List Node) : leavesOf nodes = nodes.flatMap Node.leaves := by
  induction nodes with
  | nil => rfl
  | cons node rest ih => rw [leavesOf, ih, List.flatMap_cons]

@[simp] theorem leavesOf_nil : leavesOf [] = [] := by
  rw [leavesOf]

@[simp] theorem leavesOf_append (nodes more : List Node) :
    leavesOf (nodes ++ more) = leavesOf nodes ++ leavesOf more := by
  rw [leavesOf_eq, leavesOf_eq, leavesOf_eq, List.flatMap_append]

theorem leavesOf_flatMap {α : Type} (nodes : α → List Node) (items : List α) :
    leavesOf (items.flatMap nodes) = items.flatMap fun item => leavesOf (nodes item) := by
  simp only [leavesOf_eq, List.flatMap_assoc]

@[simp] theorem leavesOf_single (node : Node) : leavesOf [node] = node.leaves := by
  rw [leavesOf, leavesOf_nil, List.append_nil]

theorem slotLeaves_eq (slots : List Slot) :
    slotLeaves slots = leavesOf (slots.flatMap Slot.nodes) := by
  induction slots with
  | nil => rw [slotLeaves, List.flatMap_nil, leavesOf_nil]
  | cons slot rest ih =>
    obtain ⟨name, nodes⟩ := slot
    rw [slotLeaves, ih, List.flatMap_cons, leavesOf_append]

theorem leavesOf_perm {nodes more : List Node} (same : nodes.Perm more) :
    (leavesOf nodes).Perm (leavesOf more) := by
  rw [leavesOf_eq, leavesOf_eq]
  exact same.flatMap_right _

end Output

open Output (leavesOf)

/-! ### Paragraphs -/

theorem Group.output_leaves (env : Environment) (group : Group) :
    (group.output env).leaves = leavesOf group.nodes := by
  cases group with
  | gathered nodes =>
    unfold Group.output
    rw [Output.Node.leaves]
    rfl
  | alone node => exact (Output.leavesOf_single node).symm

namespace Environment

variable (env : Environment)

/-- Implied paragraphs keep all texts and their order. -/
theorem gather_leaves (lines : List Line) :
    leavesOf (env.gather lines).flatten = leavesOf lines.flatten := by
  obtain ⟨groups, falls, same⟩ := env.gather_of_groups lines
  rw [same, ← nodes_of_groups falls, ← List.flatMap_def, Output.leavesOf_flatMap,
    Output.leavesOf_flatMap]
  refine List.flatMap_congr fun group _ => ?_
  rw [Output.leavesOf_single, Group.output_leaves]

/-! ### Slots -/

/-- Nodes sorted by their types, if each has one of the types and no type occurs twice. -/
theorem sorted_perm {types : List TypeId} (distinct : types.Nodup) {nodes : List Output.Node}
    (slotted : ∀ node ∈ nodes, node.type ∈ types) :
    (types.flatMap fun child => nodes.filter fun node => node.type == child).Perm nodes := by
  induction types generalizing nodes with
  | nil =>
    cases nodes with
    | nil => exact List.Perm.refl _
    | cons node rest => exact absurd (slotted node List.mem_cons_self) List.not_mem_nil
  | cons child rest ih =>
    obtain ⟨new, distinct⟩ := List.nodup_cons.1 distinct
    let others := nodes.filter fun node => !node.type == child
    -- The nodes of later types are among those that are not of the first.
    have later : (rest.flatMap fun other => nodes.filter fun node => node.type == other) =
        rest.flatMap fun other => others.filter fun node => node.type == other := by
      refine List.flatMap_congr fun other member => ?_
      rw [List.filter_filter]
      refine List.filter_congr fun node _ => ?_
      by_cases hit : node.type = other
      · have differs : ¬ node.type = child := by
          rintro rfl
          exact new (hit ▸ member)
        simp [hit, hit ▸ differs]
      · simp [hit]
    have others_slotted : ∀ node ∈ others, node.type ∈ rest := by
      intro node member
      obtain ⟨inside, differs⟩ := List.mem_filter.1 member
      rcases List.mem_cons.1 (slotted node inside) with same | behind
      · rw [same] at differs
        simp at differs
      · exact behind
    rw [List.flatMap_cons, later]
    refine List.Perm.trans ?_ (List.filter_append_perm (fun node => node.type == child) nodes)
    exact (ih distinct others_slotted).append_left _

/-- The slots of a map hold the texts of the nodes that are put into them. -/
theorem slotsOf_leaves {shape : MapType} (distinct : shape.mapped.Nodup)
    {nodes : List Output.Node} (slotted : ∀ node ∈ nodes, node.type ∈ shape.mapped) :
    (Output.slotLeaves (env.slotsOf shape nodes)).Perm (leavesOf nodes) := by
  rw [Output.slotLeaves_eq]
  unfold slotsOf
  rw [List.flatMap_map]
  exact Output.leavesOf_perm (sorted_perm distinct slotted)

theorem mainSlotNode_leaves (child : TypeId) (lines : List Line) :
    (env.mainSlotNode child lines).leaves = leavesOf lines.flatten := by
  unfold mainSlotNode
  dsimp only
  rw [Output.Node.leaves]
  split
  · split
    · exact env.gather_leaves lines
    · rfl
  · rfl

/-- The node of a main slot holds all texts that are left over. -/
theorem mainSlotNodes_leaves (child : TypeId) (lines : List Line) :
    leavesOf (env.mainSlotNodes child lines) = leavesOf lines.flatten := by
  have nonempty : (lines.filter fun line => !line.isEmpty).flatten = lines.flatten :=
    List.flatten_filter_not_isEmpty
  unfold mainSlotNodes
  dsimp only
  split
  · next empty =>
    rw [← nonempty, List.isEmpty_iff.1 empty]
    rfl
  · rw [Output.leavesOf_single, mainSlotNode_leaves, nonempty]

theorem mainSlotNodes_type {child : TypeId} {lines : List Line} {node : Output.Node}
    (member : node ∈ env.mainSlotNodes child lines) : node.type = child := by
  unfold mainSlotNodes at member
  dsimp only at member
  split at member
  · exact (List.not_mem_nil member).elim
  · rw [List.mem_singleton.1 member]
    rfl

/-- The nodes with a slot and those without are all nodes of a line. -/
theorem slotted_leftover_perm (shape : MapType) (line : Line) :
    (slotted shape line ++ leftover shape line).Perm line :=
  List.filter_append_perm _ line

/-- One node for what is left over of each line has the same texts as what is left over. -/
theorem perLine_leaves (shape : MapType) (child : TypeId) (lines : List Line) :
    leavesOf (lines.flatMap fun line =>
      slotted shape line ++ env.mainSlotNodes child [leftover shape line]) =
    leavesOf (lines.flatMap fun line => slotted shape line ++ leftover shape line) := by
  induction lines with
  | nil => rfl
  | cons line rest ih =>
    rw [List.flatMap_cons, List.flatMap_cons, Output.leavesOf_append, Output.leavesOf_append, ih,
      Output.leavesOf_append, Output.leavesOf_append, mainSlotNodes_leaves, List.flatten_cons,
      List.flatten_nil, List.append_nil]

/-- What is put into the slots of a map has all texts of its lines. -/
theorem distribute_leaves (shape : MapType) (main : MainSlot) (lines : List Line) :
    (leavesOf (env.distribute shape main lines)).Perm (leavesOf lines.flatten) := by
  have whole : (lines.flatMap fun line => slotted shape line ++ leftover shape line).Perm
      lines.flatten := by
    induction lines with
    | nil => exact List.Perm.refl _
    | cons line rest ih => exact (slotted_leftover_perm shape line).append ih
  unfold distribute
  split
  · rw [Output.leavesOf_append, mainSlotNodes_leaves, ← List.flatMap_def, ← Output.leavesOf_append]
    exact Output.leavesOf_perm ((List.flatMap_append_perm lines _ _).trans whole)
  · rw [perLine_leaves]
    exact Output.leavesOf_perm whole

/-- Whatever is put into the slots of a map has one. -/
theorem distribute_slotted {shape : MapType} {main : MainSlot}
    (fits : main.child ∈ shape.mapped) {lines : List Line} :
    ∀ node ∈ env.distribute shape main lines, node.type ∈ shape.mapped := by
  have here : ∀ line, ∀ node ∈ slotted shape line, node.type ∈ shape.mapped :=
    fun line node member => List.contains_iff_mem.1 (List.mem_filter.1 member).2
  intro node member
  unfold distribute at member
  split at member
  · rcases List.mem_append.1 member with member | member
    · obtain ⟨line, _, member⟩ := List.mem_flatMap.1 member
      exact here line node member
    · exact env.mainSlotNodes_type member ▸ fits
  · obtain ⟨line, _, member⟩ := List.mem_flatMap.1 member
    rcases List.mem_append.1 member with member | member
    · exact here line node member
    · exact env.mainSlotNodes_type member ▸ fits

end Environment

/-! ### Blocks without maps -/

section Mapless

variable (registry : Registry)

mutual

/-- No node of a block is a map, for a block inside a node of a type or outside of any. -/
def Content.Mapless (current : Option TypeId) : Content → Prop
  | ⟨_, lines⟩ => linesMapless current lines

/-- Neither a node nor one inside it is a map. -/
def Node.Mapless (current : Option TypeId) : Node → Prop
  | .block _ body => body.Mapless current
  | .typed _ path _ _ body => ∀ type, registry.follow? current path = some type →
    (registry.get type).map? = none ∧ body.Mapless (some type)
  | .value _ _ | .text _ _ _ _ _ | .content _ _ _ | .inclusion _ _ _ _ | .read _ _ _ => True

/-- No node of an element is a map. -/
def LineElement.Mapless (current : Option TypeId) : LineElement → Prop
  | .plain _ | .escaped _ => True
  | .node inner => inner.Mapless current

/-- No node of a line is a map. -/
def lineMapless (current : Option TypeId) : List LineElement → Prop
  | [] => True
  | element :: rest => element.Mapless current ∧ lineMapless current rest

/-- No node of some lines is a map. -/
def linesMapless (current : Option TypeId) : List (List LineElement) → Prop
  | [] => True
  | line :: rest => lineMapless current line ∧ linesMapless current rest

end

end Mapless

/-! ### Accounts -/

/-- The texts found are those that are due, and in their order if `ordered` holds. -/
structure Accounts (ordered : Prop) (found due : List String) : Prop where
  perm : found.Perm due
  order : ordered → found = due

namespace Accounts

variable {ordered ordered' : Prop} {found found' due due' : List String}

theorem refl (found : List String) : Accounts ordered found found :=
  ⟨List.Perm.refl _, fun _ => rfl⟩

theorem weaken (accounts : Accounts ordered found due) (stronger : ordered' → ordered) :
    Accounts ordered' found due :=
  ⟨accounts.perm, fun order => accounts.order (stronger order)⟩

theorem append (first : Accounts ordered found due) (second : Accounts ordered' found' due') :
    Accounts (ordered ∧ ordered') (found ++ found') (due ++ due') := by
  refine ⟨first.perm.append second.perm, fun order => ?_⟩
  rw [first.order order.1, second.order order.2]

theorem due_eq (accounts : Accounts ordered found due) (same : due = due') :
    Accounts ordered found due' :=
  same ▸ accounts

theorem found_eq (accounts : Accounts ordered found due) (same : found = found') :
    Accounts ordered found' due :=
  same ▸ accounts

end Accounts

/-! ### Lines and blocks -/

namespace Resolver

variable {registry : Registry} {resolver : Resolver} {env : Environment}

/-- A resolver that keeps the texts of elements that stand for themselves. -/
def Conserves (registry : Registry) (resolver : Resolver) : Prop :=
  ∀ env element, env.registry = registry → AllOwn element.nodes →
    (resolver env element).Ends (fun lines => Accounts (element.Mapless registry env.current)
      (leavesOf lines.flatten) (element.leaves env.values)) fun _ => True

/-- What elements give holds their texts. -/
theorem elements_leaves (sound : resolver.Conserves registry) (same : env.registry = registry)
    {elements : List LineElement} (own : AllOwn (lineNodes elements)) :
    (elements.mapM (resolver env)).Ends (fun expansions =>
      Accounts (lineMapless registry env.current elements)
        (leavesOf (expansions.map List.flatten).flatten) (lineLeaves env.values elements))
      fun _ => True := by
  induction elements with
  | nil => exact Accounts.refl _
  | cons element rest ih =>
    rw [lineNodes, AllOwn.append] at own
    rw [List.mapM_cons]
    refine (sound env element same own.1).bind fun expanded here => ?_
    refine (ih own.2).bind fun expansions later => (here.append later).found_eq ?_
    rw [List.map_cons, List.flatten_cons, Output.leavesOf_append]

theorem line_leaves (sound : resolver.Conserves registry) (same : env.registry = registry)
    {elements : List LineElement} (own : AllOwn (lineNodes elements)) :
    (resolver.line env elements).Ends (fun lines =>
      Accounts (lineMapless registry env.current elements) (leavesOf lines.flatten)
        (lineLeaves env.values elements)) fun _ => True := by
  rw [line_eq, Run.Ends.map_iff]
  refine (elements_leaves sound same own).mono (fun expansions accounts => ?_) fun _ _ => trivial
  exact accounts.found_eq (congrArg leavesOf (Output.foldl_glue_flatten expansions [[]]).symm)

theorem lines_leaves (sound : resolver.Conserves registry) (same : env.registry = registry)
    {lines : List (List LineElement)} (own : AllOwn (linesNodes lines)) :
    (resolver.lines env lines).Ends (fun resolved =>
      Accounts (linesMapless registry env.current lines) (leavesOf resolved.flatten)
        (linesLeaves env.values lines)) fun _ => True := by
  induction lines with
  | nil => exact Accounts.refl _
  | cons first rest ih =>
    rw [linesNodes, AllOwn.append] at own
    unfold lines
    refine (line_leaves sound same own.1).bind fun resolved here => ?_
    refine (ih own.2).bind fun later accounts => ?_
    refine (here.append accounts).found_eq ?_
    rw [List.flatten_append, Output.leavesOf_append]

/-- What is inside a block, once its preamble has been gone through. -/
theorem preamble_leaves (preamble : List PreambleElement) :
    (Run.ofExcept (env.applyPreamble preamble)).Ends (fun inner =>
      env.Beside inner ∧ inner.values = valuesAfter env.values preamble) fun _ => True := by
  have near := (env.applyPreamble_beside preamble).and (env.applyPreamble_ends_values preamble)
  exact (Run.Ends.ofExcept near).mono (fun _ known => known) fun _ _ => trivial

theorem block_leaves (sound : resolver.Conserves registry) (same : env.registry = registry)
    {content : Content} (own : AllOwn content.nodes) (implied : Bool) :
    (resolver.block env content implied).Ends (fun lines =>
      Accounts (content.Mapless registry env.current) (leavesOf lines.flatten)
        (content.leaves env.values)) fun _ => True := by
  obtain ⟨preamble, lines⟩ := content
  unfold block
  refine (preamble_leaves preamble).bind fun inner known => ?_
  obtain ⟨near, values⟩ := known
  refine (lines_leaves sound (near.registry.trans same) own).bind fun resolved accounts => ?_
  rw [near.current, values] at accounts
  cases implied with
  | false => exact accounts
  | true => exact accounts.found_eq (inner.gather_leaves resolved).symm

/-! ### Lists and maps -/

theorem slottedElements_leaves (sound : resolver.Conserves registry) {inner : Environment}
    (same : inner.registry = registry) (type : TypeId) (shape : MapType)
    {elements : List LineElement} (own : AllOwn (lineNodes elements)) :
    (resolver.slottedElements env inner type shape elements).Ends (fun nodes =>
      (leavesOf nodes).Perm (lineLeaves inner.values elements) ∧
        ∀ node ∈ nodes, node.type ∈ shape.mapped) fun _ => True := by
  induction elements with
  | nil => exact ⟨List.Perm.refl _, List.forall_mem_nil _⟩
  | cons element rest ih =>
    rw [lineNodes, AllOwn.append] at own
    unfold slottedElements
    refine (sound inner element same own.1).bind fun expanded here => ?_
    dsimp only
    split
    · next slotted =>
      have fits : ∀ node ∈ expanded.flatten, node.type ∈ shape.mapped :=
        fun node member => List.contains_iff_mem.1 (List.all_eq_true.1 slotted node member)
      refine (ih own.2).bind fun nodes later => ⟨?_, List.forall_mem_append.2 ⟨fits, later.2⟩⟩
      rw [Output.leavesOf_append]
      exact here.perm.append later.1
    · trivial

theorem mapNode_leaves (sound : resolver.Conserves registry) (same : env.registry = registry)
    (type : TypeId) {shape : MapType} (fits : shape.Fits (typeAt 0 registry.declared))
    (classes : List ClassRef) (block : Option PropertyBlock) {content : Content}
    (own : AllOwn content.nodes) :
    (resolver.mapNode env type shape classes block content).Ends (fun node =>
      node.leaves.Perm (content.leaves env.values)) fun _ => True := by
  obtain ⟨preamble, lines⟩ := content
  unfold mapNode
  refine (preamble_leaves preamble).bind fun inner known => ?_
  obtain ⟨near, values⟩ := known
  have here : inner.registry = registry := near.registry.trans same
  have finish : ∀ nodes, (leavesOf nodes).Perm (linesLeaves inner.values lines) →
      (∀ node ∈ nodes, node.type ∈ shape.mapped) →
      (do
        let properties ← Run.ofExcept (env.nodeProperties type classes block)
        return .map type properties (env.slotsOf shape nodes) : Run Output.Node).Ends
          (fun node => node.leaves.Perm (linesLeaves inner.values lines)) fun _ => True :=
    fun nodes kept slotted => (Run.Ends.any _).bind fun properties _ => by
      show (Output.Node.map type properties (env.slotsOf shape nodes)).leaves.Perm _
      rw [Output.Node.leaves]
      exact (env.slotsOf_leaves fits.distinct slotted).trans kept
  rw [Content.leaves, ← values]
  cases slot : shape.mainSlot with
  | none =>
    rw [Content.nodes, linesNodes_flatten] at own
    refine (slottedElements_leaves sound here type shape own).bind fun nodes known => ?_
    refine finish nodes ?_ known.2
    rw [linesLeaves_flatten]
    exact known.1
  | some main =>
    refine (lines_leaves sound here own).bind fun resolved accounts => ?_
    refine finish _ ((inner.distribute_leaves shape main resolved).trans accounts.perm) ?_
    exact inner.distribute_slotted (fits.mainMapped main slot)

theorem listNode_leaves (sound : resolver.Conserves registry) (same : env.registry = registry)
    (type : TypeId) (shape : ListType) (start : Position) (classes : List ClassRef)
    (block : Option PropertyBlock) {content : Content} (own : AllOwn content.nodes) :
    (resolver.listNode env type shape start classes block content).Ends (fun node =>
      Accounts (content.Mapless registry (some type)) node.leaves (content.leaves env.values))
      fun _ => True := by
  have here : (env.within type).registry = registry := same
  unfold listNode
  refine (block_leaves sound here own shape.containsParagraphs).bind fun lines accounts => ?_
  have finish : (do
      let properties ← Run.ofExcept ((env.within type).nodeProperties type classes block)
      return .list type properties lines.flatten : Run Output.Node).Ends (fun node =>
        Accounts (content.Mapless registry (some type)) node.leaves (content.leaves env.values))
        fun _ => True :=
    (Run.Ends.any _).bind fun properties _ => by
      show Accounts _ (Output.Node.list type properties lines.flatten).leaves _
      rw [Output.Node.leaves]
      exact accounts
  dsimp only
  split
  · split
    · trivial
    · exact finish
  · exact finish

/-! ### Nodes -/

theorem typedNode_leaves {decls : List NamedDecl} (expanders : Expanders)
    (built : Registry.ofDeclarations decls = .ok registry)
    (without : registry.withoutExpanders = true) (sound : resolver.Conserves registry)
    (same : env.registry = registry) (type : TypeId) (start : Position) (classes : List ClassRef)
    (block : Option PropertyBlock) {content : Content} (own : AllOwn content.nodes) :
    (resolver.typedNode expanders env type start classes block content).Ends (fun lines =>
      Accounts ((registry.get type).map? = none ∧ content.Mapless registry (some type))
        (leavesOf lines.flatten) (content.leaves env.values)) fun _ => True := by
  unfold typedNode
  rw [same]
  split
  · next expander kind => exact absurd kind (Registry.kind_ne_preExpander without type expander)
  · next expander kind => exact absurd kind (Registry.kind_ne_postExpander without type expander)
  · next shape kind =>
    refine (listNode_leaves sound same type shape start classes block own).bind fun node accounts => ?_
    refine (accounts.weaken fun order => order.2).found_eq ?_
    rw [List.flatten_cons, List.flatten_nil, List.append_nil, Output.leavesOf_single]
  · next shape kind =>
    have map : (registry.get type).map? = some shape := by
      rw [NodeType.map?, kind]
    have within : (env.within type).registry = registry := same
    refine (mapNode_leaves sound within type (Registry.map_fits built map) classes block
      own).bind fun node kept => ⟨?_, fun order => ?_⟩
    · rw [List.flatten_cons, List.flatten_nil, List.append_nil, Output.leavesOf_single]
      exact kept
    · rw [map] at order
      cases order.1
  all_goals trivial

/-- One level of nesting keeps texts. -/
theorem element_leaves {decls : List NamedDecl} (expanders : Expanders)
    (built : Registry.ofDeclarations decls = .ok registry)
    (without : registry.withoutExpanders = true) (sound : resolver.Conserves registry) :
    (resolver.element expanders).Conserves registry := by
  intro env element same own
  have text : ∀ {ordered : Prop} content, Accounts ordered
      (leavesOf [[env.textNode content]].flatten) [content] := fun content => Accounts.refl _
  match element, own with
  | .plain run, _ => exact text run.content
  | .escaped escaped, _ => exact text escaped.text.content
  | .node (.text _ _ classes block elements), _ =>
    exact (Run.Ends.any _).bind fun properties _ => Accounts.refl _
  | .node (.block _ content), own =>
    refine block_leaves sound same (fun node member => own node ?_) false
    exact List.mem_cons_of_mem _ member
  | .node (.value _ name), _ =>
    simp only [Resolver.element, Resolver.node]
    split
    · next value found =>
      refine (text value).due_eq ?_
      show _ = (env.value? name.content).toList
      rw [found]
      rfl
    · trivial
  | .node (.typed start path classes block content), own =>
    have resolved := Run.Ends.ofExcept (env.resolvePath_ends_follow path)
    refine resolved.bind fun type leads => ?_
    rw [same] at leads
    have inside : AllOwn content.nodes := fun node member => own node (List.mem_cons_of_mem _ member)
    refine (typedNode_leaves expanders built without sound same type start classes block
      inside).mono (fun lines accounts => ?_) fun _ _ => trivial
    exact accounts.weaken fun mapless => mapless type leads
  | .node (.content start name preamble), own =>
    exact absurd (own _ List.mem_cons_self) Bool.false_ne_true
  | .node (.inclusion start classes block preamble), own =>
    exact absurd (own _ List.mem_cons_self) Bool.false_ne_true
  | .node (.read start classes block), own =>
    exact absurd (own _ List.mem_cons_self) Bool.false_ne_true

theorem ofDepth_leaves {decls : List NamedDecl} (expanders : Expanders)
    (built : Registry.ofDeclarations decls = .ok registry)
    (without : registry.withoutExpanders = true) (depth : Nat) :
    (ofDepth expanders depth).Conserves registry := by
  induction depth with
  | zero => exact fun _ _ _ _ => trivial
  | succ depth ih => exact element_leaves expanders built without ih

end Resolver

/-! ### Documents -/

/-- **No text is lost and none is doubled.** Over a built registry without expanders, a block that
uses no bound contents and no files resolves to output with the texts it stands for, each as often;
the order is the same too if no node of the block is a map. -/
theorem resolveWithin_leaves {registry : Registry} {decls : List NamedDecl} {expanders : Expanders}
    {env : Environment} {depth : Nat} {content : Content} {implied : Bool} {lines : List Line}
    (built : Registry.ofDeclarations decls = .ok registry)
    (without : registry.withoutExpanders = true) (same : env.registry = registry)
    (own : AllOwn content.nodes)
    (resolved : (resolveWithin depth expanders env content implied).outcome = .ok lines) :
    (leavesOf lines.flatten).Perm (content.leaves env.values) ∧
      (content.Mapless registry env.current →
        leavesOf lines.flatten = content.leaves env.values) := by
  have sound := Resolver.ofDepth_leaves expanders built without depth
  have accounts := (Resolver.block_leaves sound same own implied).of_ok resolved
  exact ⟨accounts.perm, accounts.order⟩

/-- Cards with a title before a body that takes everything else. -/
def cardDecls : List NamedDecl :=
  [⟨"card", .map false none
    [⟨"title", .list false false none []⟩, ⟨"body", .list true false none []⟩]
    ["title", "body"] (some ("body", .wholeBlock))⟩]

/-- The registry of `cardDecls`. -/
def cardRegistry : Registry :=
  ⟨[⟨"card", none, none, .map ⟨false, [("title", ⟨1⟩), ("body", ⟨2⟩)], [⟨1⟩, ⟨2⟩],
      some ⟨⟨2⟩, .wholeBlock⟩⟩⟩,
    ⟨"title", some ⟨0⟩, none, .list ⟨false, false, []⟩⟩,
    ⟨"body", some ⟨0⟩, none, .list ⟨true, false, []⟩⟩], [("card", ⟨0⟩)]⟩

/-- A card with a value in its body, written before the title. -/
def cardContent : Content :=
  let here := Position.start
  let title : Node := .typed here (.relative [⟨here, ⟨"title", here⟩⟩]) [] none (.ofText "name" here)
  let value : PreambleElement := ⟨here, none, .value ⟨"x", here⟩ (.literal ⟨"text", here⟩)⟩
  ⟨[], [[.node (.typed here (.absolute ⟨"card", here⟩ []) [] none
    ⟨[value], [[.node (.value here ⟨"x", here⟩)], [.node title]]⟩)]]⟩

/-- The title comes first in the output, and nothing is lost. -/
theorem resolveWithin_leaves_card : ∃ lines,
    (resolveWithin 3 Expansion.stock (.ofFile Reader.nothing "" cardRegistry) cardContent
      false).outcome = .ok lines ∧
    leavesOf lines.flatten = ["name", "text"] ∧ (leavesOf lines.flatten).Perm ["text", "name"] := by
  have built : Registry.ofDeclarations cardDecls = .ok cardRegistry := rfl
  have resolved : (resolveWithin 3 Expansion.stock (.ofFile Reader.nothing "" cardRegistry)
      cardContent false).outcome = .ok [[.map ⟨0⟩ Table.empty
        [⟨"title", [.list ⟨1⟩ Table.empty [.text ⟨3⟩ Table.empty "name"]]⟩,
          ⟨"body", [.list ⟨2⟩ Table.empty
            [.list ⟨4⟩ Table.empty [.text ⟨3⟩ Table.empty "text"]]]⟩]]] := rfl
  have own : AllOwn cardContent.nodes := by
    intro node member
    simp only [cardContent, Content.nodes, linesNodes, lineNodes, LineElement.nodes, Node.nodes,
      Content.ofText, List.append_nil, List.cons_append, List.nil_append, List.mem_cons,
      List.not_mem_nil, or_false] at member
    rcases member with rfl | rfl | rfl <;> rfl
  exact ⟨_, resolved, rfl, (resolveWithin_leaves built rfl rfl own resolved).1⟩

end TypedMarkup
