/-
**Resolution.** Turning a tree into output: bindings, classes and files are looked up, nodes get
their types and properties, maps their slots and blocks their paragraphs.

* A block's preamble makes one environment, which all its lines share unchanged; what nested blocks
  add to it does not come back out.
* An element may give several lines; `joinElements` lets them end and begin the lines around them.
* `Environment.enterInclude` moves into an included file; two checks keep includes from going on
  without end.
* All definitions take the resolution of the elements nested below as given; `resolveWithin` ties
  the knot for a bounded number of levels.
-/

import TypedMarkup.Environment.Preamble
import TypedMarkup.Expansion
import TypedMarkup.Resolution.Grouping
import TypedMarkup.Tree.Parser.Block

namespace TypedMarkup

open Output (Line)

/-! ### Files -/

namespace Environment

/-- Whether a file is the one being read or one of those that include it. Readers without paths
give every text the empty one, which therefore counts as no file. -/
def isBeingIncluded (env : Environment) (path : String) : Bool :=
  !path.isEmpty && (env.path == path || env.includes.any fun frame => frame.path == path)

/-- The environment of a file that is included at a place. -/
def enterInclude (env : Environment) (path : String) (position : Position) :
    Except Error Environment :=
  let depth := env.includeDepth
  if env.limits.maxIncludeDepth ≤ depth then
    .error (.of env (.includeDepthExceeded env.limits.maxIncludeDepth) [position])
  else if env.limits.detectIncludeCycles && env.isBeingIncluded path then
    .error (.of env (.includeCycle path) [position])
  else
    .ok { env with path := path, includes := ⟨env.path, depth + 1⟩ :: env.includes }

/-- Reads a file on behalf of a node. -/
def readFile (env : Environment) (path : String) (position : Position) :
    Except Error FileText :=
  match env.reader env.path path with
  | .ok text => .ok text
  | .error error => .error (.read position error)

end Environment

/-- Resolves an element of a line. -/
abbrev Resolver := Environment → LineElement → Run (List Line)

namespace Resolver

/-! ### Lines and blocks -/

/-- The lines that the rest of a line gives behind the output line begun so far. An element that
gives several lines ends the one begun with its first and begins another with its last. -/
def joinElements (resolver : Resolver) (env : Environment) (begun : Line) :
    List LineElement → Run (List Line)
  | [] => return [begun]
  | element :: rest => do
    match ← resolver env element with
    | [] => resolver.joinElements env begun rest
    | [only] => resolver.joinElements env (begun ++ only) rest
    | first :: second :: more =>
      let last := (second :: more).getLast (List.cons_ne_nil second more)
      let later ← resolver.joinElements env last rest
      return (begun ++ first) :: (second :: more).dropLast ++ later

/-- The output lines of a line. -/
def line (resolver : Resolver) (env : Environment) (elements : List LineElement) :
    Run (List Line) :=
  resolver.joinElements env [] elements

/-- The output lines of some lines. -/
def lines (resolver : Resolver) (env : Environment) :
    List (List LineElement) → Run (List Line)
  | [] => return []
  | first :: rest => do
    let resolved ← resolver.line env first
    return resolved ++ (← resolver.lines env rest)

/-- The output lines of a block. -/
def block (resolver : Resolver) (env : Environment) (content : Content) (implied : Bool) :
    Run (List Line) := do
  let inner ← Run.ofExcept (env.applyPreamble content.preamble)
  let resolved ← resolver.lines inner content.lines
  return if implied then inner.gather resolved else resolved

/-! ### Maps -/

/-- The nodes of some elements in a map without a main slot, where all need a slot; errors carry
`env`, the environment before the block. -/
def slottedElements (resolver : Resolver) (env inner : Environment) (type : TypeId)
    (shape : MapType) : List LineElement → Run (List Output.Node)
  | [] => return []
  | element :: rest => do
    let nodes := (← resolver inner element).flatten
    if nodes.all fun node => shape.isMapped node.type then
      return nodes ++ (← resolver.slottedElements env inner type shape rest)
    else
      Run.blame env (.noMainSlot (env.typeName type)) [element.start]

/-- A map; `env` is its inside. -/
def mapNode (resolver : Resolver) (env : Environment) (type : TypeId) (shape : MapType)
    (classes : List ClassRef) (block : Option PropertyBlock) (content : Content) :
    Run Output.Node := do
  let inner ← Run.ofExcept (env.applyPreamble content.preamble)
  let nodes ← match shape.mainSlot with
    | some main => do
      pure (inner.distribute shape main (← resolver.lines inner content.lines))
    | none => resolver.slottedElements env inner type shape content.lines.flatten
  let properties ← Run.ofExcept (env.nodeProperties type classes block)
  return .map type properties (env.slotsOf shape nodes)

/-! ### Lists -/

/-- A list. Only a paragraph that is written out can hold nodes that have no place in one. -/
def listNode (resolver : Resolver) (env : Environment) (type : TypeId) (shape : ListType)
    (start : Position) (classes : List ClassRef) (block : Option PropertyBlock)
    (content : Content) : Run Output.Node := do
  let inner := env.within type
  let children := (← resolver.block inner content shape.containsParagraphs).flatten
  if type = env.registry.paragraph then
    if let some child := children.find? fun child => !env.isGathered child then
      Run.blame env (.notInParagraph (env.typeName child.type)) [start]
  let properties ← Run.ofExcept (inner.nodeProperties type classes block)
  return .list type properties children

/-! ### Expanders -/

/-- The call of an expander. -/
def invocation (env : Environment) (type : TypeId) (start : Position)
    (classes : List ClassRef) (block : Option PropertyBlock) (content : Content) :
    Run Invocation := do
  let properties ← Run.ofExcept (env.nodeProperties type classes block)
  let invocation : Invocation := ⟨type, properties, content, start⟩
  Run.record ⟨env, invocation⟩
  return invocation

/-- The error of an expander that gives up. -/
def gaveUp (env : Environment) (start : Position) (reason : String) : Error :=
  .of env (.expansion reason) [start]

/-! ### Nodes -/

/-- The output lines of a node of a declared type. -/
def typedNode (expanders : Expanders) (resolver : Resolver) (env : Environment) (type : TypeId)
    (start : Position) (classes : List ClassRef) (block : Option PropertyBlock)
    (content : Content) : Run (List Line) := do
  match (env.registry.get type).kind with
  | .preExpander expander =>
    let invocation ← invocation env type start classes block content
    let markup ← (expanders.pre expander env invocation).run resolver.block (gaveUp env start)
    resolver.block env markup false
  | .postExpander expander =>
    let invocation ← invocation env type start classes block content
    (expanders.post expander env invocation).run resolver.block (gaveUp env start)
  | .list shape => return [[← resolver.listNode env type shape start classes block content]]
  | .map shape =>
    return [[← resolver.mapNode (env.within type) type shape classes block content]]
  | .text | .misc => Run.blame env (.unexpectedNodeType (env.typeName type)) [start]

/-- The output lines of an included file. -/
def inclusion (resolver : Resolver) (env : Environment) (start : Position)
    (classes : List ClassRef) (block : Option PropertyBlock)
    (preamble : List PreambleElement) : Run (List Line) := do
  let properties ← Run.ofExcept (env.nodeProperties env.registry.inclusion classes block)
  let path := (properties.get? "path").getD ""
  if path.isEmpty then
    Run.blame env .missingPath [start]
  else
    let text ← Run.ofExcept (env.readFile path start)
    match Content.parse text.content with
    | .error error => Run.throw (.parse text.path start error)
    | .ok content =>
      let entered ← Run.ofExcept (env.enterInclude text.path start)
      let included ← Run.ofExcept (entered.applyPreamble preamble)
      resolver.block included content false

/-- The output lines of a node. -/
def node (expanders : Expanders) (resolver : Resolver) (env : Environment) :
    Node → Run (List Line)
  | .text _ _ classes block elements => do
    let properties ← Run.ofExcept (env.nodeProperties env.registry.text classes block)
    return [[.text env.registry.text properties (String.join (elements.map TextElement.content))]]
  | .inclusion start classes block preamble =>
    resolver.inclusion env start classes block preamble
  | .read start classes block => do
    let properties ← Run.ofExcept (env.nodeProperties env.registry.read classes block)
    let text ← Run.ofExcept (env.readFile ((properties.get? "path").getD "") start)
    return [[env.textNode text.content]]
  | .block _ content => resolver.block env content false
  | .content _ name preamble => do
    match env.content? name.content with
    | none => Run.blame env (.unboundContent name.content) [name.start]
    | some content =>
      let inner ← Run.ofExcept (env.applyPreamble preamble)
      resolver.block inner content false
  | .value _ name =>
    match env.value? name.content with
    | some value => return [[env.textNode value]]
    | none => Run.blame env (.unboundValue name.content) [name.start]
  | .typed start path classes block content => do
    let type ← Run.ofExcept (env.resolvePath path)
    resolver.typedNode expanders env type start classes block content

/-- The output lines of an element of a line. -/
def element (expanders : Expanders) (resolver : Resolver) : Resolver
  | env, .plain run => return [[env.textNode run.content]]
  | env, .escaped text => return [[env.textNode text.text.content]]
  | env, .node inner => resolver.node expanders env inner

/-! ### Nesting -/

/-- Resolves elements with at most so many levels of nesting. -/
def ofDepth (expanders : Expanders) : Nat → Resolver
  | 0, _, _ => Run.exhausted
  | depth + 1, env, below => element expanders (ofDepth expanders depth) env below

end Resolver

/-! ### Documents -/

/-- Resolves a block with at most so many levels of nesting. -/
def resolveWithin (depth : Nat) (expanders : Expanders) (env : Environment) (content : Content)
    (implied : Bool) : Run (List Line) :=
  (Resolver.ofDepth expanders depth).block env content implied

/-- How deep documents may be nested, their includes, bound contents and expansions counted in. Only
contents and expanders that need themselves come near it. -/
def nestingLimit : Nat := 1000000

/-- Resolves a block; with `implied`, every output line holds one node, and paragraphs are put
around those that need them. -/
def resolve (expanders : Expanders) (env : Environment) (content : Content) (implied : Bool) :
    Run (List Line) :=
  resolveWithin nestingLimit expanders env content implied

/-- Resolves a source as a document of its own. -/
def resolveSource (expanders : Expanders) (env : Environment) (source : String) :
    Run (List Line) :=
  match Content.parse source with
  | .error error => Run.throw (.parse env.path error.position error)
  | .ok content => resolve expanders env content true

end TypedMarkup
