/-
**Preambles.** What the elements of a preamble do to the environment, one after the other.

* A fallback binds only what is not bound yet.
* `declareForPaths` gives a declaration to the types that paths name; a class that it uses may come
  from the declaration itself, for a path before.
* `declareForAll` gives it to every type that has all its classes and can take its main value.
* `applyPreamble` goes through a preamble.
-/

import TypedMarkup.Environment.Cascade

namespace TypedMarkup.Environment

/-- What a declaration changes. -/
inductive Target where
  /-- A class. -/
  | bundle (name : String)
  /-- The default properties. -/
  | defaults
deriving DecidableEq, Repr

/-- Adds properties to the target of a declaration. -/
def extend (env : Environment) (type : TypeId) (added : Properties) : Target → Environment
  | .bundle name => env.extendBundle type name added
  | .defaults => env.extendDefaults type added

/-! ### Declarations for named types -/

/-- Gives a declaration to the type of one path; `env` is the environment before the whole
declaration, and `next` the one so far. -/
def declareForPath (env : Environment) (target : Target) (uses : List ClassRef)
    (settings : Option Settings) (next : Environment) (path : TypePath) :
    Except Error Environment := do
  let type ← env.resolvePath path
  let styled ← env.withClasses next type Table.empty uses
  let added ← match settings with
    | none => pure styled
    | some settings => env.withBlock type [path.start] styled settings
  return next.extend type added target

/-- Gives a declaration to the types of some paths. -/
def declareForPaths (env : Environment) (target : Target) (paths : List TypePath)
    (uses : List ClassRef) (block : Option PropertyBlock) : Except Error Environment := do
  let settings ← block.mapM env.resolveSettings
  paths.foldlM (env.declareForPath target uses settings) env

/-! ### Declarations for all types -/

/-- Whether a type can take the main value of a block. -/
def takesMain (env : Environment) (type : TypeId) (block : PropertyBlock) : Bool :=
  block.main.isNone ||
    match (env.registry.get type).mainProperty with
    | none => false
    | some name => !block.settings.any fun setting => setting.name.content == name

/-- The properties that a declaration for all types adds to one type; nothing if it passes the
type over. -/
def addedTo (env : Environment) (uses : List ClassRef) (block : Option PropertyBlock)
    (type : TypeId) : Except Error (Option Properties) :=
  match env.withClasses env type Table.empty uses with
  | .error _ => .ok none
  | .ok styled =>
    match block with
    | none => .ok (some styled)
    | some block =>
      if env.takesMain type block then do
        let settings ← env.resolveSettings block
        return some (← env.withBlock type [] styled settings)
      else .ok none

/-- Gives a declaration to all types that can take it. -/
def declareForAll (env : Environment) (target : Target) (uses : List ClassRef)
    (block : Option PropertyBlock) : Except Error Environment :=
  env.registry.ids.foldlM (fun next type => do
    match ← env.addedTo uses block type with
    | none => return next
    | some added => return next.extend type added target) env

/-- Gives a declaration to its types. -/
def declare (env : Environment) (target : Target) (paths : List TypePath)
    (uses : List ClassRef) (block : Option PropertyBlock) : Except Error Environment :=
  if paths.isEmpty then env.declareForAll target uses block
  else env.declareForPaths target paths uses block

/-! ### Preamble elements -/

/-- Does what one element says. -/
def applyElement (env : Environment) (element : PreambleElement) : Except Error Environment :=
  let fallback := element.fallback.isSome
  match element.directive with
  | .value name value =>
    if fallback && (env.value? name.content).isSome then .ok env
    else do return env.withValue name.content (← env.resolveValue value)
  | .content name body =>
    if fallback && (env.content? name.content).isSome then .ok env
    else .ok (env.withContent name.content body)
  | .bundle declared targets uses block =>
    env.declare (.bundle declared.name.content) targets uses block
  | .defaults targets uses block => env.declare .defaults targets uses block

/-- Does what all elements of a preamble say. -/
def applyPreamble (env : Environment) (preamble : List PreambleElement) :
    Except Error Environment :=
  preamble.foldlM applyElement env

end TypedMarkup.Environment
