/-
**Tokens of blocks and nodes.** The two constructs that hold each other, and the tokens of a whole
source.

* `Lexer.Nested.ofDepth` ties the knot, once for every level of nesting.
* `tokenize` cuts a source; what follows the last token it can cut is one `unread` token.
-/

import TypedMarkup.Token.Lexer.Property

namespace TypedMarkup

/-- Lexers for the constructs that nest. -/
structure Lexer.Nested where
  /-- A node, at its opening bracket. -/
  node : Lexer Unit
  /-- A block. -/
  content : Lexer Unit

namespace Lexer

/-! ### Preambles -/

/-- Cuts the paths, classes and properties of a declaration. -/
def declaration : Lexer Unit := do
  typePaths
  classes
  if (← head) = some '\x7b' then
    propertyBlock

/-- Cuts the rest of the binding of a content. -/
def contentBinding (nested : Nested) : Lexer Unit := do
  name .bindingName
  skip
  if (← head) ≠ some '[' then
    refuse
  openNode
  skip
  nested.content
  closeNode

/-- Cuts what a preamble element does, at its keyword. -/
def directive (nested : Nested) : Lexer Unit := do
  let word := (← rest).takeWhile isNameChar
  let keyword := (Keyword.ofSpelling? (String.ofList word)).filter Keyword.startsPreambleElement
  if keyword.isSome then
    emit .keyword word
    skip
  match keyword with
  | some .classes =>
    if (← head) ≠ some '.' then
      refuse
    classRef
    declaration
  | some .defaults => declaration
  | some .content => contentBinding nested
  | some _ =>
    name .bindingName
    skip
    value
  | none => refuse

/-- Cuts a preamble element, at its angle bracket. -/
def preambleElement (nested : Nested) : Lexer Unit := do
  single .preambleOpen
  skip
  if (← head) = some '?' then
    single .preambleFallback
    skip
  directive nested
  skip
  expect '>' .preambleClose

/-- Cuts a preamble. -/
def preamble (nested : Nested) : Lexer Unit :=
  whileGoing do
    if (← head) = some '<' then
      preambleElement nested
      skip
      return true
    else
      return false

/-! ### Lines -/

/-- Whether an ignored node stands at the cursor. -/
def atIgnoredNode : Lexer Bool := do
  return (← head) = some '_' && (← second) = some '['

/-- The characters before which a text token ends. -/
def endsTextToken (c : Char) : Bool :=
  c == '\r' || c == '\n' || c == '\x60' || c == '[' || c == ']' || c == '_'

/-- Cuts text. The first character, whatever it is, belongs to it. -/
def text : Lexer Unit := do
  match ← rest with
  | [] => return
  | c :: more => emit .text (c :: more.takeWhile fun next => !endsTextToken next)

/-- Cuts text or an ignored node. -/
def textOrIgnored (nested : Nested) : Lexer Unit := do
  if ← atIgnoredNode then
    collapsed .ignored nested.node
  else
    text

/-- Cuts something of a text node, where other nodes have no meaning, if the text node goes on. -/
def textElement (nested : Nested) : Lexer Bool := do
  match ← head with
  | none | some '\r' | some '\n' | some ']' => return false
  | some '\x60' =>
    escapedText
    return true
  | some _ =>
    textOrIgnored nested
    return true

/-- Cuts the one line of a text node. -/
def textElements (nested : Nested) : Lexer Unit :=
  whileGoing (textElement nested)

/-- Cuts something of a line, if the line goes on. -/
def lineElement (nested : Nested) : Lexer Bool := do
  match ← head with
  | none | some '\r' | some '\n' | some ']' => return false
  | some '[' =>
    nested.node
    return true
  | some '\x60' =>
    escapedText
    return true
  | some _ =>
    textOrIgnored nested
    return true

/-- Cuts a line. -/
def line (nested : Nested) : Lexer Unit :=
  whileGoing (lineElement nested)

/-- Cuts all lines up to a closing bracket or the end of the source. -/
def lines (nested : Nested) : Lexer Unit :=
  whileGoing do
    skip
    match ← head with
    | none | some ']' => return false
    | some _ =>
      line nested
      return true

/-- Cuts a block. -/
def content (nested : Nested) : Lexer Unit := do
  preamble nested
  lines nested

/-! ### Nodes -/

/-- Cuts the rest of a text node. -/
def textNode (nested : Nested) : Lexer Unit := do
  classesAndProperties
  textElements nested

/-- Cuts the rest of a node of a declared type. -/
def typedNode (nested : Nested) : Lexer Unit := do
  childSteps
  skip
  classesAndProperties
  content nested

/-- Cuts the rest of a node that starts with a name. -/
def namedNode (nested : Nested) : Lexer Unit := do
  let word := (← rest).takeWhile isNameChar
  match (Keyword.ofSpelling? (String.ofList word)).filter Keyword.startsNode with
  | none =>
    emit .typeName word
    typedNode nested
  | some keyword =>
    emit .keyword word
    skip
    match keyword with
    | .text => textNode nested
    | .read => classesAndProperties
    | .inclusion =>
      classesAndProperties
      preamble nested
    | .content =>
      name .bindingName
      skip
      preamble nested
    | _ =>
      name .bindingName
      skip

/-- Cuts the inside of a node. -/
def nodeBody (nested : Nested) : Lexer Unit := do
  match ← head with
  | some '<' => content nested
  | some '.' | some '\x7b' => textNode nested
  | some '\\' => typedNode nested
  | next =>
    if next.any isNameChar then
      namedNode nested
    else
      refuse

/-- Cuts a node, at its opening bracket. -/
def node (nested : Nested) : Lexer Unit := do
  openNode
  skip
  nodeBody nested
  closeNode

/-! ### Nesting -/

/-- Lexers for at most so many levels of nesting. -/
def Nested.ofDepth : Nat → Nested
  | 0 => ⟨throw .exhausted, throw .exhausted⟩
  | depth + 1 =>
    let nested := ofDepth depth
    ⟨Lexer.node nested, Lexer.content nested⟩

/-- Cuts a whole source. -/
def file (nested : Nested) : Lexer Unit := do
  skip
  nested.content
  if (← head).isSome then
    refuse

end Lexer

/-! ### Sources -/

/-- What a source gives with at most so many levels of nesting: how cutting ended, and the tokens
cut. -/
def lexWithin (depth : Nat) (source : String) : Except Lexer.Refusal Unit × List Token :=
  let (outcome, state) := (Lexer.file (.ofDepth depth)).run.run ⟨Cursor.ofString source, 0, []⟩
  (outcome, state.tokens.reverse)

/-- The offset behind the last of some tokens. -/
def Token.endOf (tokens : List Token) : Nat :=
  (tokens.getLast?.map Token.stop).getD 0

/-- The text of some tokens. -/
def Token.textOf (tokens : List Token) : List Char :=
  tokens.flatMap fun token => token.text.toList

/-- The tokens of a source. Every level of nesting has a bracket of its own, so there are fewer of
them than characters. -/
def tokenize (source : String) : List Token :=
  match lexWithin (source.length + 1) source with
  | (.ok (), tokens) => tokens
  | (.error _, tokens) =>
    let left := source.toList.drop (Token.textOf tokens).length
    tokens ++ [⟨.unread, Token.endOf tokens, String.ofList left, none⟩]

end TypedMarkup
