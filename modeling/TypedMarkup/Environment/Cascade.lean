/-
**The cascade.** Where the properties of a node come from: the defaults of its type, then its
classes in their order, then its own block.

* `resolvePath` finds the type that a path names.
* `resolveSettings` finds the values of a block; a name set twice is an error.
* `nodeProperties` puts the three sources together.
-/

import TypedMarkup.Error

namespace TypedMarkup.Environment

/-! ### Values and types -/

/-- The text of a value. -/
def resolveValue (env : Environment) : Value → Except Error String
  | .literal word => .ok word.content
  | .escaped text => .ok text.text.content
  | .bound _ name =>
    match env.value? name.content with
    | some value => .ok value
    | none => .error (.of env (.unboundValue name.content) [name.start])

/-- The type where a path starts. -/
def resolveRoot (env : Environment) (path : TypePath) : Except Error TypeId :=
  match path with
  | .absolute root _ =>
    match env.registry.global? root.content with
    | some id => .ok id
    | none => .error (.of env (.unknownType root.content) [root.start])
  | .relative _ =>
    match env.current with
    | some id => .ok id
    | none => .error (.of env .relativePathOutsideNode [path.start])

/-- The type that a step leads to. -/
def resolveStep (env : Environment) (parent : TypeId) (step : ChildStep) :
    Except Error TypeId :=
  match env.registry.child? parent step.name.content with
  | some id => .ok id
  | none =>
    .error (.of env (.unknownType (joinPath [env.typeName parent, step.name.content]))
      [step.start])

/-- The type that a path names. -/
def resolvePath (env : Environment) (path : TypePath) : Except Error TypeId := do
  path.steps.foldlM (env.resolveStep ·) (← env.resolveRoot path)

/-! ### Blocks -/

/-- A name and the text it is set to. -/
structure Assigned where
  name : String
  value : String
  /-- Where the name stands. -/
  position : Position
deriving DecidableEq, Repr

/-- The text that a setting sets. -/
def resolveSetting (env : Environment) : Setting → Except Error String
  | .pair _ value => env.resolveValue value
  | .flag _ => .ok "true"
  | .negated _ _ => .ok "false"

/-- The assignments of the remaining settings of a block, behind those already `done`. -/
def assign (env : Environment) (done : List Assigned) :
    List Setting → Except Error (List Assigned)
  | [] => .ok done
  | setting :: rest =>
    let name := setting.name
    match done.find? fun earlier => earlier.name == name.content with
    | some earlier =>
      .error (.of env (.duplicateProperty name.content) [earlier.position, name.start])
    | none => do
      let value ← env.resolveSetting setting
      env.assign (done ++ [⟨name.content, value, name.start⟩]) rest

/-- What a block sets. -/
structure Settings where
  /-- The value without a name, and where it stands. -/
  main : Option (String × Position)
  other : List Assigned
deriving DecidableEq, Repr

/-- What a block sets in an environment. -/
def resolveSettings (env : Environment) (block : PropertyBlock) : Except Error Settings := do
  let main ← match block.main with
    | none => pure none
    | some value => do pure (some (← env.resolveValue value, value.start))
  return ⟨main, ← env.assign [] block.settings⟩

/-- The entry that a value without a name makes for nodes of a type; errors also name the places
`before` it. -/
def mainEntry (env : Environment) (type : TypeId) (before : List Position)
    (settings : Settings) : Except Error (List (String × String)) :=
  match settings.main with
  | none => .ok []
  | some (value, start) =>
    match (env.registry.get type).mainProperty with
    | none => .error (.of env (.noMainProperty (env.typeName type)) (before ++ [start]))
    | some name =>
      match settings.other.find? fun assigned => assigned.name == name with
      | some assigned =>
        .error (.of env (.duplicateMainProperty name (env.typeName type))
          (before ++ [start, assigned.position]))
      | none => .ok [(name, value)]

/-- The entries of the settings with names. -/
def Settings.entries (settings : Settings) : List (String × String) :=
  settings.other.map fun assigned => (assigned.name, assigned.value)

/-- The properties of a block for nodes of a type, laid over others. -/
def withBlock (env : Environment) (type : TypeId) (before : List Position)
    (properties : Properties) (settings : Settings) : Except Error Properties := do
  let main ← env.mainEntry type before settings
  return properties.insertAll (main ++ settings.entries)

/-! ### Classes -/

/-- The properties of classes of a type, laid over others in their order. The classes are those of
`source`; errors carry `env`. -/
def withClasses (env source : Environment) (type : TypeId) (properties : Properties) :
    List ClassRef → Except Error Properties
  | [] => .ok properties
  | used :: rest =>
    match source.bundle? type used.name.content with
    | some bundle => env.withClasses source type (properties.overlay bundle) rest
    | none =>
      .error (.of env (.noSuchClass used.name.content (env.typeName type)) [used.name.start])

/-! ### Nodes -/

/-- The properties of a node. -/
def nodeProperties (env : Environment) (type : TypeId) (classes : List ClassRef)
    (block : Option PropertyBlock) : Except Error Properties := do
  let styled ← env.withClasses env type (env.defaults type) classes
  match block with
  | none => return styled
  | some block => env.withBlock type [] styled (← env.resolveSettings block)

end TypedMarkup.Environment
