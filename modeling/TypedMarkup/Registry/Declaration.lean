/-
**Type declarations.** How types are declared, and what makes a declaration ill-formed.

* `TypeDecl` nests: a list or a map declares its child types inside it.
* `TypeDecl.flatten` lists the types of a declaration, each before its children, and finds the
  first fault: a child's name before its body, children before slots, slots before the main slot.
-/

import TypedMarkup.Registry.NodeType

namespace TypedMarkup

/-! ### Declarations -/

mutual

/-- The declaration of a type. -/
inductive TypeDecl where
  | list (containsParagraphs inParagraph : Bool) (mainProperty : Option String)
      (children : List NamedDecl)
  | map (inParagraph : Bool) (mainProperty : Option String) (children : List NamedDecl)
      (mapped : List String) (mainSlot : Option (String × SlotMode))
  | preExpander (expander : String) (mainProperty : Option String)
  | postExpander (expander : String) (mainProperty : Option String)

/-- A declaration and the name it declares. -/
structure NamedDecl where
  name : String
  decl : TypeDecl

end

/-- Whether a list is declared. -/
def TypeDecl.isList : TypeDecl → Bool
  | list .. => true
  | map .. | preExpander .. | postExpander .. => false

/-! ### Faults -/

/-- Why declarations make no registry. -/
inductive RegistryError where
  /-- A global type has the name of a built-in one. -/
  | reservedName (name : String)
  | duplicateGlobal (name : String)
  | duplicateChild (parent child : String)
  /-- A slot is no child of its map. -/
  | unknownMappedSlot (map slot : String)
  /-- The main slot is no list among the slots of its map. -/
  | invalidMainSlot (map slot : String)
deriving DecidableEq, Repr

/-- The text of a fault. -/
def RegistryError.message : RegistryError → String
  | reservedName name => "'" ++ name ++ "' is the name of a built-in type"
  | duplicateGlobal name => "global type '" ++ name ++ "' is declared twice"
  | duplicateChild parent child =>
    "type '" ++ parent ++ "' declares child '" ++ child ++ "' twice"
  | unknownMappedSlot map slot =>
    "mapped slot '" ++ slot ++ "' of '" ++ map ++ "' is not a child type"
  | invalidMainSlot map slot =>
    "main slot '" ++ slot ++ "' of '" ++ map ++ "' must be a mapped list type"

/-- The names on the way from a global type, as markup writes them. -/
def joinPath (names : List String) : String :=
  String.intercalate "\\" names

/-! ### Slots -/

/-- The types of the slots of the map at `path`; a slot named again is the same slot. -/
def slotTypes (path : List String) (children : Children) :
    List TypeId → List String → Except RegistryError (List TypeId)
  | slots, [] => .ok slots
  | slots, slot :: rest =>
    match children.lookup slot with
    | none => .error (.unknownMappedSlot (joinPath path) slot)
    | some child =>
      if slots.contains child then slotTypes path children slots rest
      else slotTypes path children (slots ++ [child]) rest

/-- The main slot of the map at `path`, which must be one of its slots and a list. -/
def mainSlotType (path : List String) (decls : List NamedDecl) (children : Children)
    (slots : List TypeId) : Option (String × SlotMode) → Except RegistryError (Option MainSlot)
  | none => .ok none
  | some (slot, mode) =>
    let isList := (decls.find? fun named => named.name == slot).any fun named => named.decl.isList
    match children.lookup slot with
    | none => .error (.invalidMainSlot (joinPath path) slot)
    | some child =>
      if slots.contains child && isList then .ok (some ⟨child, mode⟩)
      else .error (.invalidMainSlot (joinPath path) slot)

/-! ### Flattening -/

mutual

/-- The types of a declaration below the types at `outer`, the first of which gets the id
`next`. -/
def TypeDecl.flatten (outer : List String) (parent : Option TypeId) (next : Nat) (name : String) :
    TypeDecl → Except RegistryError (List NodeType)
  | .list containsParagraphs inParagraph mainProperty decls => do
    let (types, children) ← flattenChildren (outer ++ [name]) ⟨next⟩ (next + 1) [] decls
    return ⟨name, parent, mainProperty, .list ⟨containsParagraphs, inParagraph, children⟩⟩ :: types
  | .map inParagraph mainProperty decls mapped mainSlot => do
    let path := outer ++ [name]
    let (types, children) ← flattenChildren path ⟨next⟩ (next + 1) [] decls
    let slots ← slotTypes path children [] mapped
    let main ← mainSlotType path decls children slots mainSlot
    return ⟨name, parent, mainProperty, .map ⟨inParagraph, children, slots, main⟩⟩ :: types
  | .preExpander expander mainProperty =>
    return [⟨name, parent, mainProperty, .preExpander expander⟩]
  | .postExpander expander mainProperty =>
    return [⟨name, parent, mainProperty, .postExpander expander⟩]

/-- The types of the remaining children of the type at `path`, and all its children by name, given
those already `seen`. -/
def flattenChildren (path : List String) (parent : TypeId) (next : Nat) (seen : Children) :
    List NamedDecl → Except RegistryError (List NodeType × Children)
  | [] => return ([], seen)
  | ⟨name, decl⟩ :: rest => do
    if (seen.lookup name).isSome then
      throw (.duplicateChild (joinPath path) name)
    let types ← decl.flatten path (some parent) next name
    let (more, children) ←
      flattenChildren path parent (next + types.length) (seen ++ [(name, ⟨next⟩)]) rest
    return (types ++ more, children)

end

end TypedMarkup
