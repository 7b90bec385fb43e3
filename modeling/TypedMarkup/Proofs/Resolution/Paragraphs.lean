/-
**What goes into a paragraph.** On each line, implied paragraphs are put around the longest runs of
nodes that stand in one, and nothing else changes.

* `Group` is a part of a line: a run that gets a paragraph, or a node that stays as it is.
* `Environment.Groups` says of some groups that they are those of a line.
* `Environment.gatherLine_groups`: a line becomes what its groups become, each on a line of its own.
* `Environment.gather_groups`: so do all lines, and doing it again changes nothing.
-/

import Mathlib.Data.List.Chain
import Mathlib.Data.List.Forall2
import TypedMarkup.Proofs.Registry.Built
import TypedMarkup.Resolution.Grouping

namespace TypedMarkup

open Output (Line)

/-! ### Groups -/

/-- A part of a line. -/
inductive Group where
  /-- Nodes that go into one paragraph. -/
  | gathered (nodes : List Output.Node)
  /-- A node that stays as it is. -/
  | alone (node : Output.Node)

namespace Group

variable {env : Environment}

/-- The nodes of a part. -/
def nodes : Group → List Output.Node
  | gathered nodes => nodes
  | alone node => [node]

/-- Whether a part is a node that stays as it is. -/
def isAlone : Group → Bool
  | gathered _ => false
  | alone _ => true

/-- The node that a part becomes. -/
def output (env : Environment) : Group → Output.Node
  | gathered nodes => .list env.registry.paragraph (env.defaults env.registry.paragraph) nodes
  | alone node => node

/-- A paragraph is put around nodes that stand in one, and not around nothing; all others stay as
they are. -/
def InOrder (env : Environment) : Group → Prop
  | gathered nodes => nodes ≠ [] ∧ ∀ node ∈ nodes, env.isGathered node = true
  | alone node => env.isGathered node = false

/-- The type of paragraphs does not stand in one. -/
theorem InOrder.output_outside {group : Group} (order : group.InOrder env) :
    env.isGathered (group.output env) = false := by
  cases group with
  | gathered nodes =>
    show (env.registry.get env.registry.paragraph).inParagraph = false
    rw [env.registry.get_paragraph]
    rfl
  | alone node => exact order

/-- The part that nodes make if they wait for a paragraph. -/
def ofWaiting : List Output.Node → List Group
  | [] => []
  | nodes => [gathered nodes]

theorem nodes_ofWaiting (waiting : List Output.Node) :
    (ofWaiting waiting).flatMap nodes = waiting := by
  cases waiting with
  | nil => rfl
  | cons first rest => exact List.append_nil _

theorem inOrder_ofWaiting {waiting : List Output.Node}
    (waits : ∀ node ∈ waiting, env.isGathered node = true) :
    ∀ group ∈ ofWaiting waiting, group.InOrder env := by
  cases waiting with
  | nil => exact List.forall_mem_nil _
  | cons first rest => exact List.forall_mem_singleton.2 ⟨List.cons_ne_nil _ _, waits⟩

end Group

namespace Environment

/-- How a line falls into groups. -/
structure Groups (env : Environment) (line : Line) (groups : List Group) : Prop where
  /-- No node is lost, doubled or moved. -/
  whole : groups.flatMap Group.nodes = line
  /-- Every node is where it belongs. -/
  order : ∀ group ∈ groups, group.InOrder env
  /-- A node that does not stand in a paragraph stays as it is. -/
  kept : ∀ node ∈ line, env.isGathered node = false → .alone node ∈ groups
  /-- Between two paragraphs there is such a node. -/
  apart : ∀ before first between second after,
    groups = before ++ .gathered first :: (between ++ .gathered second :: after) →
    ∃ node, .alone node ∈ between

variable {env : Environment}

/-- Groups are those of a line if no two with a paragraph stand side by side. -/
theorem Groups.of_chain {line : Line} {groups : List Group}
    (whole : groups.flatMap Group.nodes = line) (order : ∀ group ∈ groups, group.InOrder env)
    (chain : groups.IsChain fun group next => (group.isAlone || next.isAlone) = true) :
    env.Groups line groups := by
  refine ⟨whole, order, fun node member outside => ?_, ?_⟩
  · rw [← whole] at member
    obtain ⟨group, inside, member⟩ := List.mem_flatMap.1 member
    cases group with
    | gathered nodes =>
      rw [(order _ inside).2 node member] at outside
      cases outside
    | alone only =>
      rw [List.mem_singleton.1 member]
      exact inside
  · intro before first between second after same
    rw [same] at chain
    have behind := (List.isChain_split.1 chain).2
    cases between with
    | nil => exact absurd (List.isChain_cons_cons.1 behind).1 Bool.false_ne_true
    | cons next rest =>
      have neighbour := (List.isChain_cons_cons.1 behind).1
      cases next with
      | gathered nodes => exact absurd neighbour Bool.false_ne_true
      | alone node => exact ⟨node, List.mem_cons_self⟩

/-! ### Lines -/

theorem paragraphOf_eq (waiting : List Output.Node) :
    env.paragraphOf waiting = (Group.ofWaiting waiting).map fun group => [group.output env] := by
  cases waiting <;> rfl

/-- The nodes that wait for a paragraph and those behind them fall into groups. -/
theorem gatherLine_waiting {waiting : List Output.Node}
    (waits : ∀ node ∈ waiting, env.isGathered node = true) (line : Line) :
    ∃ groups : List Group, env.Groups (waiting ++ line) groups ∧
      env.gatherLine waiting line = groups.map fun group => [group.output env] := by
  -- The groups are found from the left; the chain is what the run in front of a node is added to.
  have found : ∃ groups : List Group, groups.flatMap Group.nodes = waiting ++ line ∧
      (∀ group ∈ groups, group.InOrder env) ∧
      groups.IsChain (fun group next => (group.isAlone || next.isAlone) = true) ∧
      env.gatherLine waiting line = groups.map fun group => [group.output env] := by
    induction line generalizing waiting with
    | nil =>
      refine ⟨Group.ofWaiting waiting, ?_, Group.inOrder_ofWaiting waits, ?_, paragraphOf_eq waiting⟩
      · rw [Group.nodes_ofWaiting, List.append_nil]
      · cases waiting with
        | nil => exact .nil
        | cons first rest => exact .singleton _
    | cons node rest ih =>
      unfold gatherLine
      split
      · next gathered =>
        obtain ⟨groups, whole, known⟩ :=
          ih (List.forall_mem_append.2 ⟨waits, List.forall_mem_singleton.2 gathered⟩)
        rw [List.append_assoc] at whole
        exact ⟨groups, whole, known⟩
      · next outside =>
        obtain ⟨groups, whole, order, chain, same⟩ := ih (List.forall_mem_nil _)
        refine ⟨Group.ofWaiting waiting ++ .alone node :: groups, ?_, ?_, ?_, ?_⟩
        · rw [List.flatMap_append, Group.nodes_ofWaiting, List.flatMap_cons, whole]
          rfl
        · refine List.forall_mem_append.2 ⟨Group.inOrder_ofWaiting waits, ?_⟩
          exact List.forall_mem_cons.2 ⟨Bool.eq_false_iff.2 outside, order⟩
        · refine List.isChain_split.2 ⟨?_, List.isChain_cons.2 ⟨fun _ _ => rfl, chain⟩⟩
          cases waiting with
          | nil => exact .singleton _
          | cons first more => exact List.isChain_pair.2 rfl
        · rw [paragraphOf_eq, same, List.map_append, List.map_cons]
          rfl
  obtain ⟨groups, whole, order, chain, same⟩ := found
  exact ⟨groups, .of_chain whole order chain, same⟩

/-- **A line becomes what its groups become.** -/
theorem gatherLine_groups (line : Line) :
    ∃ groups : List Group, env.Groups line groups ∧
      env.gatherLine [] line = groups.map fun group => [group.output env] :=
  gatherLine_waiting (List.forall_mem_nil _) line

/-! ### All lines -/

/-- Lines of one node each that does not stand in a paragraph stay as they are. -/
theorem gather_of_alone {lines : List Line}
    (alone : ∀ line ∈ lines, ∃ node, line = [node] ∧ env.isGathered node = false) :
    env.gather lines = lines := by
  induction lines with
  | nil => rfl
  | cons line rest ih =>
    obtain ⟨⟨node, rfl, outside⟩, later⟩ := List.forall_mem_cons.1 alone
    have here : env.gatherLine [] [node] = [[node]] := by
      rw [gatherLine, if_neg (Bool.eq_false_iff.1 outside)]
      rfl
    show env.gatherLine [] [node] ++ env.gather rest = _
    rw [here, ih later]
    rfl

/-- Every line becomes lines of one node each that does not stand in a paragraph. -/
theorem gather_alone (lines : List Line) :
    ∀ line ∈ env.gather lines, ∃ node, line = [node] ∧ env.isGathered node = false := by
  intro line member
  obtain ⟨source, _, member⟩ := List.mem_flatMap.1 member
  obtain ⟨groups, fall, same⟩ := env.gatherLine_groups source
  rw [same] at member
  obtain ⟨group, inside, rfl⟩ := List.mem_map.1 member
  exact ⟨_, rfl, (fall.order group inside).output_outside⟩

theorem gather_append (lines more : List Line) :
    env.gather (lines ++ more) = env.gather lines ++ env.gather more :=
  List.flatMap_append

/-- All lines become what their groups become. -/
theorem gather_of_groups (lines : List Line) :
    ∃ groups : List (List Group), List.Forall₂ env.Groups lines groups ∧
      env.gather lines = groups.flatten.map fun group => [group.output env] := by
  induction lines with
  | nil => exact ⟨[], .nil, rfl⟩
  | cons line rest ih =>
    obtain ⟨here, fall, same⟩ := env.gatherLine_groups line
    obtain ⟨groups, falls, same'⟩ := ih
    refine ⟨here :: groups, .cons fall falls, ?_⟩
    show env.gatherLine [] line ++ env.gather rest = _
    rw [same, same', List.flatten_cons, List.map_append]

/-- The nodes of the groups of lines are those of the lines. -/
theorem nodes_of_groups {lines : List Line} {groups : List (List Group)}
    (falls : List.Forall₂ env.Groups lines groups) :
    groups.flatten.flatMap Group.nodes = lines.flatten := by
  induction falls with
  | nil => rfl
  | cons fall _ ih =>
    rw [List.flatten_cons, List.flatten_cons, List.flatMap_append, fall.whole, ih]

/-- **Implied paragraphs** are put around the groups of each line that stand in one. Every group
becomes one node on a line of its own, and with what is inside of the paragraphs in their place the
nodes are those of the lines. Lines do not depend on each other, and a second time nothing is left
to do. -/
theorem gather_groups (env : Environment) (lines more : List Line) :
    (∃ groups : List (List Group), List.Forall₂ env.Groups lines groups ∧
      env.gather lines = groups.flatten.map (fun group => [group.output env]) ∧
      groups.flatten.flatMap Group.nodes = lines.flatten) ∧
    env.gather (lines ++ more) = env.gather lines ++ env.gather more ∧
    env.gather (env.gather lines) = env.gather lines := by
  obtain ⟨groups, falls, same⟩ := env.gather_of_groups lines
  exact ⟨⟨groups, falls, same, nodes_of_groups falls⟩, gather_append lines more,
    gather_of_alone (gather_alone lines)⟩

/-- Two texts stand in one paragraph, a paragraph in none. -/
example :
    let env := Environment.ofFile Reader.nothing "" Registry.empty
    let paragraph (nodes : List Output.Node) : Output.Node :=
      .list env.registry.paragraph Table.empty nodes
    let text (content : String) := env.textNode content
    env.gather [[text "a", text "b", paragraph [], text "c"], []] =
      [[paragraph [text "a", text "b"]], [paragraph []], [paragraph [text "c"]]] :=
  rfl

end Environment

end TypedMarkup
