/-
**Tokens of classes, type paths and properties.** The parts of nodes and declarations that hold no
blocks.

* `escapedFront` finds the end of escaped text, which is the first backtick that no backslash
  escapes; a display does not look at indentation.
-/

import TypedMarkup.Token.Lexer

namespace TypedMarkup

/-- The rest of an escaped text behind its opening backtick, through its closing one. -/
def escapedFront : List Char → Option (List Char)
  | [] => none
  | ['\\'] => none
  | '\x60' :: _ => some ['\x60']
  | '\\' :: '\x60' :: rest => (escapedFront rest).map fun front => '\\' :: '\x60' :: front
  | '\\' :: '\\' :: rest => (escapedFront rest).map fun front => '\\' :: '\\' :: front
  | c :: rest => (escapedFront rest).map fun front => c :: front

namespace Lexer

/-- Cuts escaped text, at its opening backtick. -/
def escapedText : Lexer Unit := do
  match escapedFront (← rest).tail with
  | none => refuse
  | some front => emit .escapedText ('\x60' :: front)

/-! ### Classes and type paths -/

/-- Cuts a class, at its dot. -/
def classRef : Lexer Unit := do
  single .classStart
  name .bindingName

/-- Cuts all classes. -/
def classes : Lexer Unit :=
  whileGoing do
    if (← head) = some '.' then
      classRef
      skip
      return true
    else
      return false

/-- Cuts all steps to child types. -/
def childSteps : Lexer Unit :=
  whileGoing do
    if (← head) = some '\\' then
      single .childStart
      name .typeName
      return true
    else
      return false

/-- Cuts white space and the type path behind it, if there is one. -/
def typePath : Lexer Bool := do
  skip
  let next ← head
  if next = some '\\' then
    childSteps
    return true
  else if next.any isNameChar then
    name .typeName
    childSteps
    return true
  else
    return false

/-- Cuts all type paths. -/
def typePaths : Lexer Unit :=
  whileGoing typePath

/-! ### Properties -/

/-- Cuts a value bound to a name, at its angle bracket. -/
def boundValue : Lexer Unit := do
  single .preambleOpen
  skip
  let word := (← rest).takeWhile isNameChar
  if String.ofList word ≠ Keyword.value.spelling then
    refuse
  emit .keyword word
  skip
  name .bindingName
  skip
  expect '>' .preambleClose

/-- Cuts the value of a property. -/
def value : Lexer Unit := do
  let next ← head
  if next = some '<' then
    boundValue
  else if next = some '\x60' then
    escapedText
  else if next.any isValueChar then
    emit .valueLiteral ((← rest).takeWhile isValueChar)
  else
    refuse

/-- Cuts an equals sign and the value behind it, if one stands at the cursor. -/
def assignment : Lexer Unit := do
  if (← head) = some '=' then
    single .propertyAssign
    skip
    value

/-- Cuts white space and the setting behind it, if the block goes on. -/
def setting : Lexer Bool := do
  skip
  match ← head with
  | some '\x7d' => return false
  | some '!' =>
    single .propertyNegate
    name .propertyName
    return true
  | next =>
    if next.any isNameChar then
      name .propertyName
      skip
      assignment
      return true
    else
      refuse

/-- Cuts the settings of a block up to its closing brace. -/
def settings : Lexer Unit :=
  whileGoing setting

/-- Cuts a property block, at its opening brace. -/
def propertyBlock : Lexer Unit := do
  single .propertiesOpen
  skip
  assignment
  settings
  single .propertiesClose

/-- Cuts classes and the property block that may follow. -/
def classesAndProperties : Lexer Unit := do
  classes
  if (← head) = some '\x7b' then
    propertyBlock
    skip

end Lexer

end TypedMarkup
