/-
**Node types.** The shapes that nodes can have, as a registry holds them.

* A list holds nodes one after the other, a map holds them in slots, an expander replaces a node by
  something else, and the types of included and read files carry properties only.
* `NodeType.inParagraph` says whether nodes of a type are gathered into paragraphs.
-/

namespace TypedMarkup

/-- The handle of a type inside its registry. The number is not bounded here; where handles are kept
in 32 bits, this stands for registries of at most `2 ^ 32` types. -/
structure TypeId where
  index : Nat
deriving DecidableEq, Repr, Inhabited

/-- How content without a slot of its own is put into the main slot of a map. -/
inductive SlotMode where
  /-- All of it becomes one node. -/
  | wholeBlock
  /-- That of each line becomes a node. -/
  | perLine
deriving DecidableEq, Repr

/-- The slot of a map for content without a slot of its own. -/
structure MainSlot where
  child : TypeId
  mode : SlotMode
deriving DecidableEq, Repr

/-- The child types of a type, by name, as they were declared. -/
abbrev Children := List (String × TypeId)

/-- What is special to a list type. -/
structure ListType where
  /-- Whether its content is gathered into paragraphs. -/
  containsParagraphs : Bool
  /-- Whether its nodes are gathered into paragraphs. -/
  inParagraph : Bool
  children : Children
deriving DecidableEq, Repr

/-- What is special to a map type. -/
structure MapType where
  /-- Whether its nodes are gathered into paragraphs. -/
  inParagraph : Bool
  children : Children
  /-- The child types with a slot, in the order of the slots. -/
  mapped : List TypeId
  mainSlot : Option MainSlot
deriving DecidableEq, Repr

/-- Whether a type has a slot. -/
def MapType.isMapped (shape : MapType) (id : TypeId) : Bool :=
  shape.mapped.contains id

/-- The kinds of types. -/
inductive TypeKind where
  | text
  | list (shape : ListType)
  | map (shape : MapType)
  /-- Replaces a node by markup; the expander is known by its name. -/
  | preExpander (expander : String)
  /-- Replaces a node by finished lines. -/
  | postExpander (expander : String)
  /-- Carries properties only. -/
  | misc
deriving DecidableEq, Repr

/-- A type of nodes. -/
structure NodeType where
  name : String
  parent : Option TypeId
  /-- The property that a value without a name sets. -/
  mainProperty : Option String
  kind : TypeKind
deriving DecidableEq, Repr

namespace NodeType

/-- Whether nodes of a type are gathered into paragraphs. -/
def inParagraph (type : NodeType) : Bool :=
  match type.kind with
  | .text => true
  | .list shape => shape.inParagraph
  | .map shape => shape.inParagraph
  | .preExpander _ | .postExpander _ | .misc => false

/-- The child types, of lists and maps only. -/
def children? (type : NodeType) : Option Children :=
  match type.kind with
  | .list shape => some shape.children
  | .map shape => some shape.children
  | .text | .preExpander _ | .postExpander _ | .misc => none

/-- What is special to a list type, of lists only. -/
def list? (type : NodeType) : Option ListType :=
  match type.kind with
  | .list shape => some shape
  | _ => none

/-- What is special to a map type, of maps only. -/
def map? (type : NodeType) : Option MapType :=
  match type.kind with
  | .map shape => some shape
  | _ => none

/-- Whether a type is an expander. -/
def isExpander (type : NodeType) : Bool :=
  match type.kind with
  | .preExpander _ | .postExpander _ => true
  | _ => false

end NodeType

end TypedMarkup
