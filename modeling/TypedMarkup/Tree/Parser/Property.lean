/-
**Classes, type paths and properties.** The parts of nodes and declarations that hold no blocks.

* `Parser.classes`, `Parser.typePaths` and `Parser.properties` read the three parts; each error
  says which parts could have stood at its place.
-/

import TypedMarkup.Tree.Parser

namespace TypedMarkup.Parser

/-! ### Classes and type paths -/

/-- A class, at its dot. -/
def classRef : Parser ClassRef := do
  let start ← position
  advance
  return ⟨start, ← name⟩

/-- All classes at the cursor, and what separates them. -/
def classes : Parser (List ClassRef) :=
  many do
    if (← head) = some '.' then
      let read ← classRef
      skip
      return .item read
    else
      return .stop

/-- All steps to child types at the cursor. -/
def childSteps : Parser (List ChildStep) :=
  many do
    if (← head) = some '\\' then
      let start ← position
      advance
      return .item ⟨start, ← name⟩
    else
      return .stop

/-- What separates type paths, and the one behind it if there is one. -/
def typePath : Parser (Round TypePath) := do
  skip
  let next ← head
  if next = some '\\' then
    return .item (.relative (← childSteps))
  else if next.any isNameChar then
    let root ← name
    return .item (.absolute root (← childSteps))
  else
    return .stop

/-- All type paths at the cursor, and what separates them. -/
def typePaths : Parser (List TypePath) :=
  many typePath

/-! ### Values -/

/-- A value bound to a name, at its angle bracket. -/
def boundValue : Parser Value := do
  let start ← position
  advance
  skip
  if !(← head).any isNameChar then
    fail [.keyword Keyword.value.spelling] (some .boundValue) none
  let keyword ← name
  if keyword.content != Keyword.value.spelling then
    failAt keyword [.keyword Keyword.value.spelling] (some .boundValue)
  skip
  let bound ← name
  skip
  expect '>' (some .boundValue) (some start)
  return .bound start bound

/-- The value of a property. -/
def value : Parser Value := do
  let next ← head
  if next = some '<' then
    boundValue
  else if next = some '\x60' then
    return .escaped (← escapedText)
  else if next.any isValueChar then
    return .literal (← word isValueChar)
  else
    fail [.construct .propertyValue] none none

/-! ### Property blocks -/

/-- A setting that sets a name to `false`, at its exclamation mark. -/
def negatedSetting : Parser Setting := do
  let start ← position
  advance
  if !(← head).any isNameChar then
    fail [.construct .propertyName] none none
  return .negated start (← name)

/-- A setting that starts with its name. -/
def namedSetting : Parser Setting := do
  let set ← name
  skip
  let next ← head
  if next = some '=' then
    advance
    skip
    return .pair set (← value)
  else if next = some '\x7d' || next = some '!' || next.any isNameChar then
    return .flag set
  else
    fail [.char '=', .construct .propertySetting, .char '\x7d'] none none

/-- What separates the settings of a block whose opening brace is at `start`, and the one behind
it if the block goes on. -/
def setting (start : Position) : Parser (Round Setting) := do
  skip
  match ← head with
  | none => fail [.char '\x7d'] (some .properties) (some start)
  | some '\x7d' => return .stop
  | some '!' => return .item (← negatedSetting)
  | some c =>
    if isNameChar c then
      return .item (← namedSetting)
    else
      fail [.construct .propertyName, .char '!', .char '\x7d'] none none

/-- The settings of a block whose opening brace is at `start`, up to its closing brace. -/
def settings (start : Position) : Parser (List Setting) :=
  many (setting start)

/-- A property block, at its opening brace. -/
def propertyBlock : Parser PropertyBlock := do
  let start ← position
  advance
  skip
  let main ← if (← head) = some '=' then do
      advance
      skip
      some <$> value
    else
      pure none
  let read ← settings start
  advance
  return ⟨start, main, read⟩

/-- A property block if one stands at the cursor, and what separates it from the next part. -/
def properties : Parser (Option PropertyBlock) := do
  if (← head) = some '\x7b' then
    let block ← propertyBlock
    skip
    return some block
  else
    return none

end TypedMarkup.Parser
