/-
**Where the nodes of a map go.** What each slot of a map holds, told from the output lines of its
block alone.

* `Environment.Distributes` is the rule: a slot holds the nodes of its type in their order, and the
  main slot also holds the nodes that are made around what has no slot, one for the whole block or
  one for each line.
* `Resolver.lines_flatten`: however elements end and begin lines, the nodes of the lines are those
  of the elements, one element after the other.
* `Resolver.mapNode_distributes`: every map that is resolved follows the rule, and a map without a
  main slot blames the first element that gives a node without a slot.
-/

import TypedMarkup.Proofs.Registry.Built
import TypedMarkup.Proofs.Resolution.Leaves
import TypedMarkup.Proofs.Resolution.Lines

namespace TypedMarkup

open Output (Line)

/-! ### The rule -/

/-- The nodes of a type, in their order. -/
def Output.ofType (type : TypeId) (nodes : List Output.Node) : List Output.Node :=
  nodes.filter fun node => node.type == type

namespace Environment

/-- The node of the main slot around what lines have left over, in paragraphs line by line if its
type contains them. -/
def implicitNode (env : Environment) (main : TypeId) (rests : List Line) : Output.Node :=
  let inParagraphs := (env.registry.get main).list?.any ListType.containsParagraphs
  .list main (env.defaults main) (if inParagraphs then env.gather rests else rests).flatten

/-- How the slots of a map are `filled` with the nodes of some lines. -/
structure Distributes (env : Environment) (shape : MapType) (lines : List Line)
    (filled : TypeId → List Output.Node) : Prop where
  /-- Slots other than the main one. -/
  other : ∀ child ∈ shape.mapped, (∀ main, shape.mainSlot = some main → main.child ≠ child) →
    filled child = Output.ofType child lines.flatten
  /-- A main slot with one node for the whole block. -/
  wholeBlock : ∀ main, shape.mainSlot = some ⟨main, .wholeBlock⟩ → main ∈ shape.mapped ∧
    filled main = Output.ofType main lines.flatten ++
      if ∃ node ∈ lines.flatten, node.type ∉ shape.mapped then
        [env.implicitNode main (lines.map (leftover shape))]
      else []
  /-- A main slot with a node for each line. -/
  perLine : ∀ main, shape.mainSlot = some ⟨main, .perLine⟩ → main ∈ shape.mapped ∧
    filled main = lines.flatMap fun line => Output.ofType main line ++
      if ∃ node ∈ line, node.type ∉ shape.mapped then
        [env.implicitNode main [leftover shape line]]
      else []
  /-- No main slot. -/
  unmapped : shape.mainSlot = none → ∀ node ∈ lines.flatten, node.type ∈ shape.mapped

variable {env : Environment} {shape : MapType}

/-! ### Main slots -/

/-- Lines with nothing left over add nothing to the node of the main slot. -/
theorem mainSlotNode_nonempty (main : TypeId) (rests : List Line) :
    env.mainSlotNode main (rests.filter fun rest => !rest.isEmpty) = env.implicitNode main rests := by
  have gathered : env.gather (rests.filter fun rest => !rest.isEmpty) = env.gather rests := by
    induction rests with
    | nil => rfl
    | cons rest rests ih =>
      cases rest with
      | nil => exact ih
      | cons node rest => exact congrArg (env.gatherLine [] (node :: rest) ++ ·) ih
  unfold mainSlotNode implicitNode
  rw [gathered]
  cases (env.registry.get main).list? with
  | none => exact congrArg _ List.flatten_filter_not_isEmpty
  | some shape =>
    dsimp only [Option.any]
    split
    · rfl
    · exact congrArg _ List.flatten_filter_not_isEmpty

theorem leftover_eq_nil_iff {line : Line} :
    leftover shape line = [] ↔ ¬ ∃ node ∈ line, node.type ∉ shape.mapped := by
  simp [leftover, MapType.isMapped]

/-- The main slot gets a node exactly if some node of the lines has no slot. -/
theorem mainSlotNodes_leftover (main : TypeId) (lines : List Line) :
    env.mainSlotNodes main (lines.map (leftover shape)) =
      if ∃ node ∈ lines.flatten, node.type ∉ shape.mapped then
        [env.implicitNode main (lines.map (leftover shape))]
      else [] := by
  unfold mainSlotNodes
  dsimp only
  rw [mainSlotNode_nonempty]
  by_cases stray : ∃ node ∈ lines.flatten, node.type ∉ shape.mapped
  · rw [if_pos stray, if_neg]
    obtain ⟨node, member, unmapped⟩ := stray
    obtain ⟨line, here, inside⟩ := List.mem_flatten.1 member
    have left : leftover shape line ≠ [] :=
      fun empty => leftover_eq_nil_iff.1 empty ⟨node, inside, unmapped⟩
    intro empty
    have found : leftover shape line ∈
        (lines.map (leftover shape)).filter fun rest => !rest.isEmpty :=
      List.mem_filter.2 ⟨List.mem_map_of_mem here, by simpa using left⟩
    rw [List.isEmpty_iff.1 empty] at found
    exact List.not_mem_nil found
  · rw [if_neg stray, if_pos]
    refine List.isEmpty_iff.2 (List.filter_eq_nil_iff.2 fun rest member => ?_)
    obtain ⟨line, here, rfl⟩ := List.mem_map.1 member
    have none : leftover shape line = [] := leftover_eq_nil_iff.2 fun ⟨node, inside, unmapped⟩ =>
      stray ⟨node, List.mem_flatten.2 ⟨line, here, inside⟩, unmapped⟩
    simp [none]

theorem mainSlotNodes_leftover_line (main : TypeId) (line : Line) :
    env.mainSlotNodes main [leftover shape line] =
      if ∃ node ∈ line, node.type ∉ shape.mapped then
        [env.implicitNode main [leftover shape line]]
      else [] := by
  have left : env.mainSlotNodes main ([line].map (leftover shape)) = _ :=
    mainSlotNodes_leftover main [line]
  rwa [List.flatten_singleton] at left

/-! ### Slots -/

theorem ofType_slotted {child : TypeId} (mapped : child ∈ shape.mapped) (line : Line) :
    Output.ofType child (slotted shape line) = Output.ofType child line := by
  unfold Output.ofType slotted
  rw [List.filter_filter]
  refine List.filter_congr fun node _ => ?_
  by_cases hit : node.type = child
  · simp [hit, MapType.isMapped, mapped]
  · simp [hit]

theorem ofType_mainSlotNodes (main child : TypeId) (rests : List Line) :
    Output.ofType child (env.mainSlotNodes main rests) =
      if main = child then env.mainSlotNodes main rests else [] := by
  unfold Output.ofType
  split
  · next same =>
    refine List.filter_eq_self.2 fun node member => beq_iff_eq.2 ?_
    exact (env.mainSlotNodes_type member).trans same
  · next differs =>
    refine List.filter_eq_nil_iff.2 fun node member hit => differs ?_
    exact (env.mainSlotNodes_type member).symm.trans (beq_iff_eq.1 hit)

/-- A line fills a slot with its nodes of the type, and the main slot also with what is left. -/
theorem ofType_line (main : TypeId) {child : TypeId} (mapped : child ∈ shape.mapped)
    (line : Line) (rests : List Line) :
    Output.ofType child (slotted shape line ++ env.mainSlotNodes main rests) =
      Output.ofType child line ++ if main = child then env.mainSlotNodes main rests else [] := by
  have parts : Output.ofType child (slotted shape line ++ env.mainSlotNodes main rests) =
      Output.ofType child (slotted shape line) ++
        Output.ofType child (env.mainSlotNodes main rests) := List.filter_append ..
  rw [parts, ofType_slotted mapped, ofType_mainSlotNodes]

theorem slotted_flatten (lines : List Line) :
    lines.flatMap (slotted shape) = slotted shape lines.flatten := by
  unfold slotted
  rw [List.filter_flatten, List.flatMap_def]

/-- With one node for the whole block, a slot gets its nodes, and the main slot what is left. -/
theorem ofType_distribute_wholeBlock (main : TypeId) {child : TypeId}
    (mapped : child ∈ shape.mapped) (lines : List Line) :
    Output.ofType child (env.distribute shape ⟨main, .wholeBlock⟩ lines) =
      Output.ofType child lines.flatten ++
        if main = child then env.mainSlotNodes main (lines.map (leftover shape)) else [] := by
  unfold distribute
  dsimp only
  rw [slotted_flatten, ofType_line main mapped]

/-- With a node for each line, it does so line by line. -/
theorem ofType_distribute_perLine (main : TypeId) {child : TypeId} (mapped : child ∈ shape.mapped)
    (lines : List Line) :
    Output.ofType child (env.distribute shape ⟨main, .perLine⟩ lines) =
      lines.flatMap fun line => Output.ofType child line ++
        if main = child then env.mainSlotNodes main [leftover shape line] else [] := by
  have parts : Output.ofType child (env.distribute shape ⟨main, .perLine⟩ lines) =
      lines.flatMap fun line => Output.ofType child
        (slotted shape line ++ env.mainSlotNodes main [leftover shape line]) :=
    List.filter_flatMap
  rw [parts]
  exact List.flatMap_congr fun line _ => ofType_line main mapped line _

/-- The nodes for the slots of a map with a main slot follow the rule. -/
theorem distribute_distributes {main : MainSlot} (slot : shape.mainSlot = some main)
    (mapped : main.child ∈ shape.mapped) (lines : List Line) :
    env.Distributes shape lines fun child =>
      Output.ofType child (env.distribute shape main lines) := by
  obtain ⟨main, mode⟩ := main
  cases mode with
  | wholeBlock =>
    refine ⟨fun child mapped other => ?_, fun child same => ?_, fun child same => ?_, fun none => ?_⟩
    · rw [ofType_distribute_wholeBlock main mapped, if_neg (other _ slot), List.append_nil]
    · cases slot.symm.trans same
      refine ⟨mapped, ?_⟩
      rw [ofType_distribute_wholeBlock main mapped, if_pos rfl, mainSlotNodes_leftover]
    · cases slot.symm.trans same
    · cases slot.symm.trans none
  | perLine =>
    refine ⟨fun child mapped other => ?_, fun child same => ?_, fun child same => ?_, fun none => ?_⟩
    · rw [ofType_distribute_perLine main mapped]
      simp only [if_neg (other _ slot), List.append_nil]
      unfold Output.ofType
      rw [List.filter_flatten, List.flatMap_def]
    · cases slot.symm.trans same
    · cases slot.symm.trans same
      refine ⟨mapped, ?_⟩
      rw [ofType_distribute_perLine main mapped]
      refine List.flatMap_congr fun line _ => ?_
      rw [if_pos rfl, mainSlotNodes_leftover_line]
    · cases slot.symm.trans none

/-- The rule leaves no choice. -/
theorem Distributes.unique {lines : List Line} {filled filled' : TypeId → List Output.Node}
    (rule : env.Distributes shape lines filled) (rule' : env.Distributes shape lines filled')
    {child : TypeId} (mapped : child ∈ shape.mapped) : filled child = filled' child := by
  cases slot : shape.mainSlot with
  | none =>
    have other : ∀ main, shape.mainSlot = some main → main.child ≠ child :=
      fun main found => nomatch slot.symm.trans found
    rw [rule.other child mapped other, rule'.other child mapped other]
  | some main =>
    obtain ⟨main, mode⟩ := main
    by_cases same : main = child
    · subst same
      cases mode with
      | wholeBlock => rw [(rule.wholeBlock main slot).2, (rule'.wholeBlock main slot).2]
      | perLine => rw [(rule.perLine main slot).2, (rule'.perLine main slot).2]
    · have other : ∀ main, shape.mainSlot = some main → main.child ≠ child := by
        intro main found
        cases slot.symm.trans found
        exact same
      rw [rule.other child mapped other, rule'.other child mapped other]

end Environment

namespace Resolver

variable {resolver : Resolver} {env inner : Environment} {type : TypeId} {shape : MapType}

/-! ### Elements one after the other -/

/-- The nodes of some elements, in their order. -/
def elementNodes (resolver : Resolver) (env : Environment) :
    List LineElement → Run (List Output.Node)
  | [] => return []
  | element :: rest => do
    let expanded ← resolver env element
    return expanded.flatten ++ (← resolver.elementNodes env rest)

theorem elementNodes_eq (elements : List LineElement) :
    resolver.elementNodes env elements =
      (fun expansions => (expansions.map List.flatten).flatten) <$>
        elements.mapM (resolver env) := by
  induction elements with
  | nil => simp [elementNodes]
  | cons element rest ih => simp [elementNodes, ih]

/-- The nodes of lines are those of their elements. -/
theorem lines_flatten (lines : List (List LineElement)) :
    List.flatten <$> resolver.lines env lines = resolver.elementNodes env lines.flatten := by
  rw [lines_flatten_eq, elementNodes_eq]

/-! ### Maps without a main slot -/

theorem all_isMapped_iff {nodes : List Output.Node} :
    (nodes.all fun node => shape.isMapped node.type) = true ↔
      ∀ node ∈ nodes, node.type ∈ shape.mapped := by
  simp [MapType.isMapped]

/-- Elements whose nodes all have a slot are put in front of what comes behind them. -/
theorem slottedElements_append {before rest : List LineElement} {nodes : List Output.Node}
    (resolved : (resolver.elementNodes inner before).outcome = .ok nodes)
    (mapped : ∀ node ∈ nodes, node.type ∈ shape.mapped) :
    (resolver.slottedElements env inner type shape (before ++ rest)).outcome =
      ((nodes ++ ·) <$> resolver.slottedElements env inner type shape rest).outcome := by
  induction before generalizing nodes with
  | nil =>
    cases resolved
    rw [List.nil_append]
    exact congrArg Run.outcome (id_map _).symm
  | cons first more ih =>
    unfold elementNodes at resolved
    obtain ⟨expanded, here, resolved⟩ := Run.outcome_bind_eq_ok.1 resolved
    obtain ⟨later, found, same⟩ := Run.outcome_bind_eq_ok.1 resolved
    cases same
    obtain ⟨fits, mapped⟩ := List.forall_mem_append.1 mapped
    rw [List.cons_append, slottedElements, Run.outcome_bind_of_ok here]
    dsimp only
    rw [if_pos (all_isMapped_iff.2 fits), Run.outcome_bind_eq, ih found mapped,
      ← Run.outcome_bind_eq]
    simp

/-- An element with a node that has no slot is blamed. -/
theorem slottedElements_unmapped {element : LineElement} {rest : List LineElement}
    {expanded : List Line} (here : (resolver inner element).outcome = .ok expanded)
    (unmapped : ∃ node ∈ expanded.flatten, node.type ∉ shape.mapped) :
    (resolver.slottedElements env inner type shape (element :: rest)).outcome =
      .error (.error (.of env (.noMainSlot (env.typeName type)) [element.start])) := by
  rw [slottedElements, Run.outcome_bind_of_ok here]
  dsimp only
  obtain ⟨node, member, stray⟩ := unmapped
  rw [if_neg fun slotted => stray (all_isMapped_iff.1 slotted node member)]
  rfl

/-- Elements can all be put into slots if their nodes all have one. -/
theorem slottedElements_eq_ok {elements : List LineElement} {nodes : List Output.Node} :
    (resolver.slottedElements env inner type shape elements).outcome = .ok nodes ↔
      (resolver.elementNodes inner elements).outcome = .ok nodes ∧
        ∀ node ∈ nodes, node.type ∈ shape.mapped := by
  constructor
  · intro resolved
    induction elements generalizing nodes with
    | nil =>
      cases resolved
      exact ⟨rfl, List.forall_mem_nil _⟩
    | cons element rest ih =>
      unfold slottedElements at resolved
      obtain ⟨expanded, here, resolved⟩ := Run.outcome_bind_eq_ok.1 resolved
      dsimp only at resolved
      split at resolved
      · next slotted =>
        obtain ⟨more, later, same⟩ := Run.outcome_bind_eq_ok.1 resolved
        cases same
        obtain ⟨found, mapped⟩ := ih later
        refine ⟨?_, List.forall_mem_append.2 ⟨all_isMapped_iff.1 slotted, mapped⟩⟩
        rw [elementNodes, Run.outcome_bind_of_ok here, Run.outcome_bind_of_ok found]
        rfl
      · cases resolved
  · rintro ⟨resolved, mapped⟩
    have all : (resolver.slottedElements env inner type shape (elements ++ [])).outcome = _ :=
      slottedElements_append resolved mapped
    rw [List.append_nil] at all
    exact all.trans (congrArg Except.ok (List.append_nil nodes))

/-! ### Maps -/

/-- The nodes for the slots of a map, from the lines of its block. -/
def slotNodes (resolver : Resolver) (env inner : Environment) (type : TypeId) (shape : MapType)
    (lines : List (List LineElement)) : Run (List Output.Node) :=
  match shape.mainSlot with
  | some main => inner.distribute shape main <$> resolver.lines inner lines
  | none => resolver.slottedElements env inner type shape lines.flatten

theorem mapNode_eq (classes : List ClassRef) (block : Option PropertyBlock) (content : Content) :
    resolver.mapNode env type shape classes block content = do
      let inner ← Run.ofExcept (env.applyPreamble content.preamble)
      let nodes ← resolver.slotNodes env inner type shape content.lines
      let properties ← Run.ofExcept (env.nodeProperties type classes block)
      return .map type properties (env.slotsOf shape nodes) := by
  unfold mapNode slotNodes
  cases shape.mainSlot <;> simp

/-- The nodes for the slots of a map follow the rule. -/
theorem slotNodes_distributes {content : List (List LineElement)} {nodes : List Output.Node}
    (fits : ∀ main, shape.mainSlot = some main → main.child ∈ shape.mapped)
    (resolved : (resolver.slotNodes env inner type shape content).outcome = .ok nodes) :
    ∃ lines, (resolver.lines inner content).outcome = .ok lines ∧
      inner.Distributes shape lines fun child => Output.ofType child nodes := by
  unfold slotNodes at resolved
  cases slot : shape.mainSlot with
  | some main =>
    rw [slot] at resolved
    obtain ⟨lines, found, rfl⟩ := Run.outcome_map_eq_ok.1 resolved
    exact ⟨lines, found, Environment.distribute_distributes slot (fits main slot) lines⟩
  | none =>
    rw [slot] at resolved
    obtain ⟨listed, mapped⟩ := slottedElements_eq_ok.1 resolved
    rw [← lines_flatten, Run.outcome_map_eq_ok] at listed
    obtain ⟨lines, found, rfl⟩ := listed
    refine ⟨lines, found, fun _ _ _ => rfl, fun main same => ?_, fun main same => ?_, fun _ => mapped⟩
    · cases slot.symm.trans same
    · cases slot.symm.trans same

/-- There are nodes for the slots of a map if the lines of its block resolve and all their nodes
have a place by the rule. -/
theorem exists_slotNodes {content : List (List LineElement)} {lines : List Line}
    {filled : TypeId → List Output.Node} (found : (resolver.lines inner content).outcome = .ok lines)
    (rule : inner.Distributes shape lines filled) :
    ∃ nodes, (resolver.slotNodes env inner type shape content).outcome = .ok nodes := by
  unfold slotNodes
  cases slot : shape.mainSlot with
  | some main => exact ⟨_, Run.outcome_map_eq_ok.2 ⟨lines, found, rfl⟩⟩
  | none =>
    refine ⟨lines.flatten, slottedElements_eq_ok.2 ⟨?_, rule.unmapped slot⟩⟩
    rw [← lines_flatten]
    exact Run.outcome_map_eq_ok.2 ⟨lines, found, rfl⟩

/-- **The nodes of a map go where its type says.** Over a built registry, resolving a map gives the
slots of its type, filled by the rule of `Distributes` from the lines of its block as they resolve
behind its preamble, and it gives nothing else. Without a main slot the first element with a node
that has no slot is blamed. -/
theorem mapNode_distributes {decls : List NamedDecl} {classes : List ClassRef}
    {block : Option PropertyBlock} {content : Content}
    (built : Registry.ofDeclarations decls = .ok env.registry)
    (map : (env.registry.get type).map? = some shape) :
    (∀ node, (resolver.mapNode env type shape classes block content).outcome = .ok node ↔
      ∃ inner lines properties filled,
        env.applyPreamble content.preamble = .ok inner ∧
        (resolver.lines inner content.lines).outcome = .ok lines ∧
        env.nodeProperties type classes block = .ok properties ∧
        inner.Distributes shape lines filled ∧
        node = .map type properties
          (shape.mapped.map fun child => ⟨(env.registry.get child).name, filled child⟩)) ∧
    (shape.mainSlot = none → ∀ inner before element after nodes expanded,
      env.applyPreamble content.preamble = .ok inner →
      content.lines.flatten = before ++ element :: after →
      (resolver.elementNodes inner before).outcome = .ok nodes →
      (∀ node ∈ nodes, node.type ∈ shape.mapped) →
      (resolver inner element).outcome = .ok expanded →
      (∃ node ∈ expanded.flatten, node.type ∉ shape.mapped) →
      (resolver.mapNode env type shape classes block content).outcome =
        .error (.error (.of env (.noMainSlot (env.typeName type)) [element.start]))) := by
  have fits := (Registry.map_fits built map).mainMapped
  refine ⟨fun node => ⟨fun resolved => ?_, ?_⟩, fun none inner before element after nodes expanded
    applied parts resolved mapped here unmapped => ?_⟩
  · rw [mapNode_eq] at resolved
    obtain ⟨inner, applied, resolved⟩ := Run.outcome_bind_eq_ok.1 resolved
    obtain ⟨nodes, found, resolved⟩ := Run.outcome_bind_eq_ok.1 resolved
    obtain ⟨properties, styled, same⟩ := Run.outcome_bind_eq_ok.1 resolved
    cases same
    rw [Run.outcome_ofExcept_eq_ok] at applied styled
    obtain ⟨lines, found, rule⟩ := slotNodes_distributes fits found
    exact ⟨inner, lines, properties, _, applied, found, styled, rule, rfl⟩
  · rintro ⟨inner, lines, properties, filled, applied, found, styled, rule, rfl⟩
    have made : ∃ nodes, (resolver.slotNodes env inner type shape content.lines).outcome = .ok nodes :=
      exists_slotNodes found rule
    obtain ⟨nodes, resolved⟩ := made
    obtain ⟨lines', found', rule'⟩ := slotNodes_distributes fits resolved
    cases found.symm.trans found'
    have slots : env.slotsOf shape nodes =
        shape.mapped.map fun child => ⟨(env.registry.get child).name, filled child⟩ :=
      List.map_congr_left fun child mapped => congrArg _ (rule'.unique rule mapped)
    rw [mapNode_eq, applied, Run.outcome_bind_of_ok rfl, Run.outcome_bind_of_ok resolved, styled,
      Run.outcome_bind_of_ok rfl, slots]
    rfl
  · rw [mapNode_eq, applied, Run.outcome_bind_of_ok rfl, slotNodes, none, parts]
    dsimp only
    rw [Run.outcome_bind, slottedElements_append resolved mapped, map_eq_pure_bind, Run.outcome_bind,
      slottedElements_unmapped here unmapped]

/-- Menus, with a title and an entry for each line, and boxes, with no main slot. -/
def menuDecls : List NamedDecl :=
  [⟨"menu", .map false none
      [⟨"title", .list false false none []⟩, ⟨"entry", .list true false none []⟩]
      ["title", "entry"] (some ("entry", .perLine))⟩,
    ⟨"box", .map false none [⟨"lid", .list false false none []⟩] ["lid"] none⟩]

/-- The shape of menus. -/
def menuShape : MapType :=
  ⟨false, [("title", ⟨1⟩), ("entry", ⟨2⟩)], [⟨1⟩, ⟨2⟩], some ⟨⟨2⟩, .perLine⟩⟩

/-- The shape of boxes. -/
def boxShape : MapType := ⟨false, [("lid", ⟨4⟩)], [⟨4⟩], none⟩

/-- The registry of `menuDecls`. -/
def menuRegistry : Registry :=
  ⟨[⟨"menu", none, none, .map menuShape⟩,
    ⟨"title", some ⟨0⟩, none, .list ⟨false, false, []⟩⟩,
    ⟨"entry", some ⟨0⟩, none, .list ⟨true, false, []⟩⟩,
    ⟨"box", none, none, .map boxShape⟩,
    ⟨"lid", some ⟨3⟩, none, .list ⟨false, false, []⟩⟩], [("menu", ⟨0⟩), ("box", ⟨3⟩)]⟩

/-- A node of a child type around a text, and a text behind it on the next line. -/
def labelled (child : String) : Content :=
  let here := Position.start
  ⟨[], [[.node (.typed here (.relative [⟨here, ⟨child, here⟩⟩]) [] none (.ofText "name" here))],
    [.plain ⟨"soup", here⟩]]⟩

/-- A menu puts the text into an entry of its own; a box has no place for it. -/
theorem mapNode_distributes_menu :
    let resolver := Resolver.ofDepth Expansion.stock 2
    let env := Environment.ofFile Reader.nothing "" menuRegistry
    (∃ inner lines filled, (resolver.lines inner (labelled "title").lines).outcome = .ok lines ∧
      inner.Distributes menuShape lines filled ∧
      filled ⟨1⟩ = [.list ⟨1⟩ Table.empty [.text ⟨5⟩ Table.empty "name"]] ∧
      filled ⟨2⟩ =
        [.list ⟨2⟩ Table.empty [.list ⟨6⟩ Table.empty [.text ⟨5⟩ Table.empty "soup"]]]) ∧
    (resolver.mapNode (env.within ⟨3⟩) ⟨3⟩ boxShape [] none (labelled "lid")).outcome =
      .error (.error (.of (env.within ⟨3⟩) (.noMainSlot "box") [Position.start])) := by
  intro resolver env
  have built : Registry.ofDeclarations menuDecls = .ok menuRegistry := rfl
  have resolved : (resolver.mapNode (env.within ⟨0⟩) ⟨0⟩ menuShape [] none
      (labelled "title")).outcome = .ok (.map ⟨0⟩ Table.empty
        [⟨"title", [.list ⟨1⟩ Table.empty [.text ⟨5⟩ Table.empty "name"]]⟩,
          ⟨"entry", [.list ⟨2⟩ Table.empty
            [.list ⟨6⟩ Table.empty [.text ⟨5⟩ Table.empty "soup"]]]⟩]) := rfl
  refine ⟨?_, ?_⟩
  · obtain ⟨inner, lines, properties, filled, _, found, _, rule, same⟩ :=
      ((mapNode_distributes built rfl).1 _).1 resolved
    refine ⟨inner, lines, filled, found, rule, ?_⟩
    simp only [menuShape, List.map_cons, List.map_nil] at same
    injection same with _ _ slots
    simp only [List.cons.injEq, Output.Slot.mk.injEq, and_true] at slots
    exact ⟨slots.1.2.symm, slots.2.2.symm⟩
  · have box := @mapNode_distributes resolver (env.within ⟨3⟩) ⟨3⟩ boxShape menuDecls [] none
      (labelled "lid") built rfl
    have name : (env.within ⟨3⟩).typeName ⟨3⟩ = "box" := by
      show menuRegistry.qualifiedName ⟨3⟩ = "box"
      rw [Registry.qualifiedName, Registry.namesTo]
      rfl
    rw [← name]
    refine box.2 rfl (env.within ⟨3⟩) [_] _ [] _ _ rfl rfl rfl ?_ rfl ?_
    · decide
    · exact ⟨_, List.mem_singleton_self _, by decide⟩

end Resolver

end TypedMarkup
