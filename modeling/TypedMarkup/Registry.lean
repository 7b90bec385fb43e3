/-
**Registries.** All types a document can use: the declared ones and four built-in ones.

* `Registry.ofDeclarations` numbers the declared types depth first and puts the built-in ones
  behind them.
* `Registry.global?` and `Registry.child?` look types up by name, and `Registry.qualifiedName` is
  the path of a type as markup writes it.
-/

import TypedMarkup.Registry.Declaration

namespace TypedMarkup

/-! ### Built-in types -/

/-- The types every registry has: text, paragraphs, and the properties of included and read
files. -/
def builtinTypes : List NodeType :=
  [⟨"text", none, none, .text⟩,
    ⟨"paragraph", none, none, .list ⟨false, false, []⟩⟩,
    ⟨"include", none, some "path", .misc⟩,
    ⟨"read", none, some "path", .misc⟩]

/-- The names no global type may have. -/
def builtinNames : List String :=
  builtinTypes.map NodeType.name

/-! ### Registries -/

/-- All types a document can use. -/
structure Registry where
  /-- The declared types, each before its children. -/
  declared : List NodeType
  /-- The declared global types by name. -/
  roots : Children
deriving DecidableEq, Repr

namespace Registry

/-- The registry of the built-in types alone. -/
def empty : Registry := ⟨[], []⟩

instance : Inhabited Registry := ⟨empty⟩

/-- The types of the remaining declarations, and all global types by name, given those already
`seen`; the first new type gets the id `next`. -/
def flattenGlobals (next : Nat) (seen : Children) :
    List NamedDecl → Except RegistryError (List NodeType × Children)
  | [] => return ([], seen)
  | ⟨name, decl⟩ :: rest => do
    if builtinNames.contains name then
      throw (.reservedName name)
    if (seen.lookup name).isSome then
      throw (.duplicateGlobal name)
    let types ← decl.flatten [] none next name
    let (more, roots) ← flattenGlobals (next + types.length) (seen ++ [(name, ⟨next⟩)]) rest
    return (types ++ more, roots)

/-- The registry of some declarations. -/
def ofDeclarations (decls : List NamedDecl) : Except RegistryError Registry := do
  let (declared, roots) ← flattenGlobals 0 [] decls
  return ⟨declared, roots⟩

/-! ### Types and ids -/

/-- All types in the order of their ids. -/
def types (registry : Registry) : List NodeType :=
  registry.declared ++ builtinTypes

/-- The number of types. -/
def size (registry : Registry) : Nat :=
  registry.types.length

/-- All ids. -/
def ids (registry : Registry) : List TypeId :=
  (List.range registry.size).map TypeId.mk

/-- Stands for the type of an id that the registry does not have. -/
def unknownType : NodeType := ⟨"", none, none, .misc⟩

/-- The type of an id. -/
def get (registry : Registry) (id : TypeId) : NodeType :=
  registry.types[id.index]?.getD unknownType

/-- The type of text nodes. -/
def text (registry : Registry) : TypeId := ⟨registry.declared.length⟩

/-- The type of paragraphs. -/
def paragraph (registry : Registry) : TypeId := ⟨registry.declared.length + 1⟩

/-- The type of the properties of included files. -/
def inclusion (registry : Registry) : TypeId := ⟨registry.declared.length + 2⟩

/-- The type of the properties of read files. -/
def read (registry : Registry) : TypeId := ⟨registry.declared.length + 3⟩

/-! ### Names -/

/-- The built-in types by name. -/
def builtinRoots (registry : Registry) : Children :=
  builtinNames.zip [registry.text, registry.paragraph, registry.inclusion, registry.read]

/-- The global type of a name. -/
def global? (registry : Registry) (name : String) : Option TypeId :=
  (registry.roots ++ registry.builtinRoots).lookup name

/-- The child type of a name. -/
def child? (registry : Registry) (parent : TypeId) (name : String) : Option TypeId :=
  (registry.get parent).children?.bind fun children => children.lookup name

/-- The names on the way from a global type to a type. Parents come before their children, so
the way up ends; a parent that does not is not followed. -/
def namesTo (registry : Registry) (id : TypeId) : List String :=
  match (registry.get id).parent with
  | none => [(registry.get id).name]
  | some parent =>
    if parent.index < id.index then registry.namesTo parent ++ [(registry.get id).name]
    else [(registry.get id).name]
termination_by id.index

/-- The path of a type as markup writes it. -/
def qualifiedName (registry : Registry) (id : TypeId) : String :=
  joinPath (registry.namesTo id)

/-- The type at the end of a path of names. -/
def ofNames? (registry : Registry) : List String → Option TypeId
  | [] => none
  | root :: steps =>
    steps.foldl (fun id step => id.bind fun id => registry.child? id step) (registry.global? root)

/-- Whether no type is an expander. -/
def withoutExpanders (registry : Registry) : Bool :=
  registry.declared.all fun type => !type.isExpander

end Registry

end TypedMarkup
