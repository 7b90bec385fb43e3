/-
**Environments.** What the names in a block stand for, and what its nodes look like. An environment
is a value: a block that changes one makes a new one.

* Bindings are lists with the newest first, so `Bindings.get?` finds the newest; `Bindings.visible`
  is the table of those that are not hidden, as `get?_visible` says.
* `Styles` are the class bundles and default properties of one type.
* `Environment.debugText` shows what is bound, in the order of the names.
-/

import TypedMarkup.Limits
import TypedMarkup.Reader.FileTable
import TypedMarkup.Registry
import TypedMarkup.Text.Shown
import TypedMarkup.Tree

namespace TypedMarkup

/-! ### Bindings -/

/-- Bindings of names, the newest first. -/
abbrev Bindings (α : Type) := List (String × α)

namespace Bindings

variable {α : Type}

/-- The newest binding of a name. -/
def get? (bindings : Bindings α) (name : String) : Option α :=
  bindings.lookup name

/-- The bindings that no newer one hides. -/
def visible (bindings : Bindings α) : Table α :=
  bindings.foldr (fun binding table => table.insert binding.1 binding.2) Table.empty

/-- The visible bindings are the newest ones. -/
theorem get?_visible (bindings : Bindings α) (name : String) :
    bindings.visible.get? name = bindings.get? name := by
  induction bindings with
  | nil => rfl
  | cons first rest ih =>
    obtain ⟨bound, value⟩ := first
    have step : visible ((bound, value) :: rest) = (visible rest).insert bound value := rfl
    rw [step, Table.get?_insert, ih]
    exact (Table.lookup_entry name bound value rest).symm

end Bindings

/-! ### Environments -/

/-- What nodes of one type look like. -/
structure Styles where
  /-- The properties of each class. -/
  bundles : Table Properties
  /-- The properties of every node. -/
  defaults : Properties

/-- The styles without classes and defaults. -/
def Styles.empty : Styles := ⟨Table.empty, Table.empty⟩

/-- One include on the way to a file. -/
structure IncludeFrame where
  /-- The file that holds the include. -/
  path : String
  /-- How many includes lead to the file that it includes. -/
  depth : Nat
deriving DecidableEq, Repr

/-- What the names in a block stand for. -/
structure Environment where
  reader : Reader
  /-- The file the block stands in. -/
  path : String
  values : Bindings String
  contents : Bindings Content
  registry : Registry
  /-- The styles of each type. -/
  styles : TypeId → Styles
  /-- The type of the list or map around the block. -/
  current : Option TypeId
  /-- The includes that lead to the file, the last one first. -/
  includes : List IncludeFrame
  limits : Limits

namespace Environment

/-- The environment of a file before anything is bound. -/
def ofFile (reader : Reader) (path : String) (registry : Registry) : Environment where
  reader := reader
  path := path
  values := []
  contents := []
  registry := registry
  styles := fun _ => Styles.empty
  current := none
  includes := []
  limits := Limits.standard

instance : Inhabited Environment := ⟨ofFile Reader.nothing "" Registry.empty⟩

/-! ### Looking up -/

/-- The value bound to a name. -/
def value? (env : Environment) (name : String) : Option String :=
  env.values.get? name

/-- The content bound to a name. -/
def content? (env : Environment) (name : String) : Option Content :=
  env.contents.get? name

/-- The properties of a class of a type. -/
def bundle? (env : Environment) (type : TypeId) (name : String) : Option Properties :=
  (env.styles type).bundles.get? name

/-- The default properties of a type. -/
def defaults (env : Environment) (type : TypeId) : Properties :=
  (env.styles type).defaults

/-- The path of a type as markup writes it. -/
def typeName (env : Environment) (type : TypeId) : String :=
  env.registry.qualifiedName type

/-- How many includes lead to the file. -/
def includeDepth (env : Environment) : Nat :=
  match env.includes with
  | [] => 0
  | frame :: _ => frame.depth

/-! ### Changing -/

/-- Binds a value. -/
def withValue (env : Environment) (name value : String) : Environment :=
  { env with values := (name, value) :: env.values }

/-- Binds a content. -/
def withContent (env : Environment) (name : String) (content : Content) : Environment :=
  { env with contents := (name, content) :: env.contents }

/-- Moves into a list or a map. -/
def within (env : Environment) (type : TypeId) : Environment :=
  { env with current := some type }

/-- Moves to a file. -/
def inFile (env : Environment) (path : String) : Environment :=
  { env with path := path }

/-- Sets the limits. -/
def withLimits (env : Environment) (limits : Limits) : Environment :=
  { env with limits := limits }

/-- Sets the styles of one type. -/
def withStyles (env : Environment) (type : TypeId) (styles : Styles) : Environment :=
  { env with styles := fun other => if other = type then styles else env.styles other }

/-- Adds properties to a class of a type, which there is from then on. -/
def extendBundle (env : Environment) (type : TypeId) (name : String) (added : Properties) :
    Environment :=
  let styles := env.styles type
  let bundle := ((styles.bundles.get? name).getD Table.empty).overlay added
  env.withStyles type ⟨styles.bundles.insert name bundle, styles.defaults⟩

/-- Adds properties to the defaults of a type. -/
def extendDefaults (env : Environment) (type : TypeId) (added : Properties) : Environment :=
  let styles := env.styles type
  env.withStyles type ⟨styles.bundles, styles.defaults.overlay added⟩

/-! ### Showing -/

/-- Texts with a comma between each two of them. -/
def commaList (items : List String) : String :=
  String.intercalate ", " items

/-- What an environment binds, where it is, and how deep. -/
def debugText (env : Environment) : String :=
  let values := env.values.visible.entries.map fun entry =>
    Text.quoted entry.1 ++ ": " ++ Text.quoted entry.2
  let contents := env.contents.visible.keys.map Text.quoted
  let current := match env.current with
    | none => "None"
    | some type => "Some(" ++ Text.quoted (env.typeName type) ++ ")"
  "Environment \x7b current_file_path: " ++ Text.quoted env.path ++
    ", values: \x7b" ++ commaList values ++ "\x7d, contents: [" ++ commaList contents ++
    "], current_node_type: " ++ current ++ ", include_depth: " ++ toString env.includeDepth ++
    ", .. \x7d"

end Environment

end TypedMarkup
