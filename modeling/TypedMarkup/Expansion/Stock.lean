/-
**Stock expanders.** The expanders that come with the library, by name.

* The pre-expanders make markup of a property or of the node's own block; the post-expanders make
  text, lines, or what the block resolves to.
* `capture`, of both kinds, makes nothing: it is for the record that every call leaves.
-/

import TypedMarkup.Expansion
import TypedMarkup.Resolution.Grouping
import TypedMarkup.Text.Split
import TypedMarkup.Tree.Parser.Block

namespace TypedMarkup.Expansion

variable {α : Type}

/-- A property of the node; the empty text if it has none of that name. -/
def textOf (invocation : Invocation) (name : String) : String :=
  (invocation.properties.get? name).getD ""

/-- Gives up with the message of the node, behind its context if it has one. -/
def failing (invocation : Invocation) : Expansion α :=
  let message := (invocation.properties.get? "message").getD "failed"
  match invocation.properties.get? "context" with
  | none => .fail message
  | some context => .fail (context ++ ": " ++ message)

/-! ### Markup -/

/-- The source in a property, read as markup. -/
def parsed (invocation : Invocation) : Expansion Content :=
  match Content.parse (textOf invocation "source") with
  | .ok content => .done content
  | .error error => .fail error.message

/-- The block, if it can be resolved. -/
def checked (env : Environment) (invocation : Invocation) : Expansion Content :=
  .resolve env invocation.content false fun reply =>
    match reply with
    | .ok _ => .done invocation.content
    | .error error => .raise error

/-- The path that a text names, every part of it standing at one place. -/
def pathAt (start : Position) (text : String) : TypePath :=
  let words := (Text.splitOn '\\' text.toList).map fun part => Word.mk (String.ofList part) start
  match words with
  | [] => .relative []
  | root :: rest =>
    let steps := rest.map fun word => ChildStep.mk start word
    if root.content.isEmpty then .relative steps else .absolute root steps

/-- A node of the type in a property, around the block. -/
def retyped (invocation : Invocation) : Content :=
  let path := pathAt invocation.start (textOf invocation "path")
  ⟨[], [[.node (.typed invocation.start path [] none invocation.content)]]⟩

/-- The stock pre-expanders. -/
def stockPre (name : String) (env : Environment) (invocation : Invocation) : Expansion Content :=
  match name with
  | "from_text" => .done (.ofText (textOf invocation "text") invocation.start)
  | "body" => .done invocation.content
  | "parse" => parsed invocation
  | "check" => checked env invocation
  | "typed" => .done (retyped invocation)
  | "capture" => .done Content.empty
  | _ => failing invocation

/-! ### Lines -/

/-- The lines of the block. -/
def resolved (env : Environment) (invocation : Invocation) : Expansion (List Output.Line) :=
  let implied := invocation.properties.get? "imply" == some "true"
  .resolve env invocation.content implied fun reply =>
    match reply with
    | .ok lines => .done lines
    | .error error => .raise error

/-- As many numbered lines as the count has bytes. -/
def numbered (env : Environment) (invocation : Invocation) : List Output.Line :=
  (List.range (textOf invocation "count").utf8ByteSize).map fun index =>
    [env.textNode ("line " ++ toString index)]

/-- The stock post-expanders. -/
def stockPost (name : String) (env : Environment) (invocation : Invocation) :
    Expansion (List Output.Line) :=
  match name with
  | "text" => .done [[env.textNode (textOf invocation "text")]]
  | "resolve" => resolved env invocation
  | "lines" => .done (numbered env invocation)
  | "capture" => .done []
  | _ => failing invocation

/-- The stock expanders. -/
def stock : Expanders := ⟨stockPre, stockPost⟩

end TypedMarkup.Expansion
