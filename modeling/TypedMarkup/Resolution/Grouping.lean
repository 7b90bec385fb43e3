/-
**Grouping.** How the nodes of output lines are put into paragraphs and into the slots of maps.

* `gatherLine` turns one line into lines of one node each: the nodes whose types are gathered into
  paragraphs become paragraphs together with their neighbours, all others stay as they are.
  `gather` does so for all lines.
* `distribute` lists the nodes for the slots of a map in their order. Nodes of a type with a slot go
  there; the others are put into nodes of the main slot's type, one for all lines or one for each
  line. `slotsOf` sorts them into the slots.
-/

import TypedMarkup.Environment
import TypedMarkup.Output

namespace TypedMarkup.Environment

open Output (Line)

/-! ### Paragraphs -/

/-- A text node with the defaults of text. -/
def textNode (env : Environment) (content : String) : Output.Node :=
  .text env.registry.text (env.defaults env.registry.text) content

/-- Whether a node is gathered into paragraphs. -/
def isGathered (env : Environment) (node : Output.Node) : Bool :=
  (env.registry.get node.type).inParagraph

/-- The paragraph around some nodes, on a line of its own; no paragraph around nothing. -/
def paragraphOf (env : Environment) : List Output.Node → List Line
  | [] => []
  | nodes => [[.list env.registry.paragraph (env.defaults env.registry.paragraph) nodes]]

/-- The lines that the rest of a line becomes behind nodes waiting for their paragraph. -/
def gatherLine (env : Environment) (waiting : List Output.Node) : Line → List Line
  | [] => env.paragraphOf waiting
  | node :: rest =>
    if env.isGathered node then env.gatherLine (waiting ++ [node]) rest
    else env.paragraphOf waiting ++ [node] :: env.gatherLine [] rest

/-- Implied paragraphs on all lines. -/
def gather (env : Environment) (lines : List Line) : List Line :=
  lines.flatMap (env.gatherLine [])

/-! ### Slots -/

/-- The node of the main slot around some lines. -/
def mainSlotNode (env : Environment) (child : TypeId) (lines : List Line) : Output.Node :=
  let gathered := match (env.registry.get child).list? with
    | some shape => if shape.containsParagraphs then env.gather lines else lines
    | none => lines
  .list child (env.defaults child) gathered.flatten

/-- The nodes of a line that have a slot. -/
def slotted (shape : MapType) (line : Line) : Line :=
  line.filter fun node => shape.isMapped node.type

/-- The nodes of a line that have none. -/
def leftover (shape : MapType) (line : Line) : Line :=
  line.filter fun node => !shape.isMapped node.type

/-- The main slot's node around what is left over; none around nothing. -/
def mainSlotNodes (env : Environment) (child : TypeId) (lines : List Line) : List Output.Node :=
  let rests := lines.filter fun line => !line.isEmpty
  if rests.isEmpty then [] else [env.mainSlotNode child rests]

/-- The nodes for the slots of a map, in their order. -/
def distribute (env : Environment) (shape : MapType) (main : MainSlot) (lines : List Line) :
    List Output.Node :=
  match main.mode with
  | .wholeBlock =>
    lines.flatMap (slotted shape) ++ env.mainSlotNodes main.child (lines.map (leftover shape))
  | .perLine =>
    lines.flatMap fun line =>
      slotted shape line ++ env.mainSlotNodes main.child [leftover shape line]

/-- The slots of a map with their nodes. -/
def slotsOf (env : Environment) (shape : MapType) (nodes : List Output.Node) :
    List Output.Slot :=
  shape.mapped.map fun child =>
    ⟨(env.registry.get child).name, nodes.filter fun node => node.type == child⟩

end TypedMarkup.Environment
