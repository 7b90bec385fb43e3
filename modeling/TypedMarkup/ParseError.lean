/-
**Parse errors.** The one diagnostic that a source which cannot be read gives: where it goes
wrong, what stands there, what could have stood there, and the construct being read.

* `ParseError.message` is its text: the alternatives joined by commas and a last `or`, what was
  found and where, and the construct with its start if both are known.
-/

import TypedMarkup.Source.Position
import TypedMarkup.Text.Shown

namespace TypedMarkup

/-- The constructs of the language that diagnostics name. -/
inductive Construct where
  | file
  | name
  | node
  | nodeType
  | classes
  | classRef
  | properties
  | propertySetting
  | propertyValue
  | propertyName
  | preamble
  | preambleElement
  | classDeclaration
  | defaultDeclaration
  | escapedText
  | escapedTextLinePadding
  | contentBinding
  | boundValue
deriving DecidableEq, Repr

/-- What messages call a construct. -/
def Construct.label : Construct → String
  | file => "file"
  | name => "name"
  | node => "node"
  | nodeType => "node type"
  | classes => "classes"
  | classRef => "class"
  | properties => "properties"
  | propertySetting => "property setting"
  | propertyValue => "property value"
  | propertyName => "property name"
  | preamble => "preamble"
  | preambleElement => "preamble element"
  | classDeclaration => "class declaration"
  | defaultDeclaration => "default declaration"
  | escapedText => "escaped text"
  | escapedTextLinePadding => "escaped text line padding"
  | contentBinding => "bound content"
  | boundValue => "bound value"

/-- What could have stood at a place. -/
inductive Expectation where
  | char (c : Char)
  | keyword (word : String)
  | construct (part : Construct)
  | endOfFile
deriving DecidableEq, Repr

/-- What stands at a place. -/
inductive Found where
  | char (c : Char)
  | word (text : String)
  | endOfFile
deriving DecidableEq, Repr

/-- What stands at a place that has the given character, if any. -/
def Found.ofHead : Option Char → Found
  | some c => char c
  | none => endOfFile

/-- Why a source cannot be read. -/
structure ParseError where
  /-- Where the input that does not fit starts. -/
  position : Position
  found : Found
  expected : List Expectation
  /-- The construct being read, if the error lies inside one. -/
  parsing : Option Construct
  /-- Where that construct starts. -/
  start : Option Position
deriving DecidableEq, Repr

/-! ### Messages -/

/-- A text between single quotes, as it is. -/
def inQuotes (text : String) : String :=
  "'" ++ text ++ "'"

/-- The text of an alternative. -/
def Expectation.label : Expectation → String
  | char c => inQuotes (Text.shown c)
  | keyword word => inQuotes word
  | construct part => part.label
  | endOfFile => "end of file"

/-- The text of what was found. -/
def Found.label : Found → String
  | char c => inQuotes (Text.shown c)
  | word text => inQuotes text
  | endOfFile => "end of file"

/-- Alternatives in words: commas between them, and `or` before the last of several. -/
def alternatives : List String → String
  | [] => ""
  | [only] => only
  | [first, last] => first ++ " or " ++ last
  | first :: rest => first ++ ", " ++ alternatives rest

namespace ParseError

/-- The text that names the construct being read. -/
def context (error : ParseError) : String :=
  match error.parsing, error.start with
  | none, _ => ""
  | some construct, none => " while parsing " ++ construct.label
  | some construct, some start =>
    " while parsing " ++ construct.label ++ " starting at " ++ start.label

/-- The text of a parse error. -/
def message (error : ParseError) : String :=
  "expected " ++ alternatives (error.expected.map Expectation.label) ++ ", got " ++
    error.found.label ++ " at " ++ error.position.label ++ error.context

end ParseError

end TypedMarkup
