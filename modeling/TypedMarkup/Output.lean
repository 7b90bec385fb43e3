/-
**Output trees.** What resolving a document gives: nodes of known types with final properties, in
lines. Nothing in them refers to a binding or a class.
-/

import TypedMarkup.Registry
import TypedMarkup.Table

namespace TypedMarkup.Output

mutual

/-- A node of an output tree. -/
inductive Node where
  | text (type : TypeId) (properties : Properties) (content : String)
  | list (type : TypeId) (properties : Properties) (children : List Node)
  /-- A map has a slot for each type that its own type gives one, even if it is empty. -/
  | map (type : TypeId) (properties : Properties) (slots : List Slot)

/-- A slot of a map. -/
structure Slot where
  /-- The name of the type of its nodes. -/
  name : String
  nodes : List Node

end

/-- A line of output. -/
abbrev Line := List Node

namespace Node

/-- The type of a node. -/
def type : Node → TypeId
  | text type _ _ => type
  | list type _ _ => type
  | map type _ _ => type

/-- The properties of a node. -/
def properties : Node → Properties
  | text _ properties _ => properties
  | list _ properties _ => properties
  | map _ properties _ => properties

end Node

end TypedMarkup.Output
