/-
**Errors.** Why a document cannot be resolved: an included file cannot be read or does not parse,
or something in the document has no meaning where it stands.

* `Cause` lists what can be meaningless, and `SemanticError` adds where it stands and the
  environment there.
* `Error.message` is the text of an error, with the first place and the file if they are known.
-/

import TypedMarkup.Environment
import TypedMarkup.ParseError

namespace TypedMarkup

/-- What has no meaning where it stands. -/
inductive Cause where
  | unboundValue (name : String)
  | unboundContent (name : String)
  | unknownType (name : String)
  | relativePathOutsideNode
  | noSuchClass (className typeName : String)
  | duplicateProperty (name : String)
  /-- A value without a name for a type without a main property. -/
  | noMainProperty (typeName : String)
  | duplicateMainProperty (name typeName : String)
  /-- Content without a slot in a map without a main slot. -/
  | noMainSlot (typeName : String)
  | notInParagraph (typeName : String)
  | missingPath
  | includeCycle (path : String)
  | includeDepthExceeded (limit : Nat)
  | unexpectedNodeType (typeName : String)
  /-- An expander gave up. -/
  | expansion (reason : String)
deriving DecidableEq, Repr

/-- The text of a cause. -/
def Cause.message : Cause → String
  | unboundValue name => "no value named '" ++ name ++ "'"
  | unboundContent name => "no content named '" ++ name ++ "'"
  | unknownType name => "no type named '" ++ name ++ "'"
  | relativePathOutsideNode => "relative type path used outside of a typed node"
  | noSuchClass className typeName =>
    "no class '" ++ className ++ "' for type '" ++ typeName ++ "'"
  | duplicateProperty name => "property '" ++ name ++ "' is set more than once"
  | noMainProperty typeName => "type '" ++ typeName ++ "' has no main property"
  | duplicateMainProperty name typeName =>
    "main property '" ++ name ++ "' of type '" ++ typeName ++ "' is set more than once"
  | noMainSlot typeName =>
    "type '" ++ typeName ++ "' has no main slot for content of other types"
  | notInParagraph typeName => "type '" ++ typeName ++ "' cannot appear in a paragraph"
  | missingPath => "include requires a path"
  | includeCycle path => "'" ++ path ++ "' includes itself"
  | includeDepthExceeded limit => "includes nested deeper than " ++ toString limit
  | unexpectedNodeType typeName => "type '" ++ typeName ++ "' cannot be used as a node"
  | expansion reason => "macro failed: " ++ reason

/-- Something without meaning, where it stands. -/
structure SemanticError where
  cause : Cause
  /-- The places involved. -/
  positions : List Position
  /-- What was bound there. -/
  environment : Environment

namespace SemanticError

/-- The first place involved. -/
def position? (error : SemanticError) : Option Position :=
  error.positions.head?

/-- The text of a semantic error. -/
def message (error : SemanticError) : String :=
  let place := match error.position? with
    | none => ""
    | some position => " at " ++ position.label
  let path := error.environment.path
  let file := if path.isEmpty then "" else " in " ++ path
  error.cause.message ++ place ++ file

end SemanticError

/-- Why a document cannot be resolved. -/
inductive Error where
  /-- A file does not parse; `position` is where it is asked for. -/
  | parse (path : String) (position : Position) (error : ParseError)
  /-- A file cannot be read; `position` is where it is asked for. -/
  | read (position : Position) (error : ReadError)
  | semantic (error : SemanticError)

namespace Error

/-- The error of something without meaning. -/
def of (env : Environment) (cause : Cause) (positions : List Position) : Error :=
  semantic ⟨cause, positions, env⟩

/-- The places involved. -/
def positions : Error → List Position
  | parse _ position _ => [position]
  | read position _ => [position]
  | semantic error => error.positions

/-- The text of an error. -/
def message : Error → String
  | parse path _ error => "in " ++ path ++ ": " ++ error.message
  | read position error => error.message ++ " at " ++ position.label
  | semantic error => error.message

/-- The text of the error behind an error. -/
def innerMessage? : Error → Option String
  | parse _ _ error => some error.message
  | read _ error => some error.message
  | semantic _ => none

end Error

end TypedMarkup
