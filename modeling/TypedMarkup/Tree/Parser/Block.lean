/-
**Blocks and nodes.** The two constructs that hold each other.

* `Nested` is a pair of parsers for what is nested deeper; all parsers here take it as given.
* `Nested.ofDepth` ties the knot, once for every level of nesting.
-/

import TypedMarkup.Tree.Parser.Property

namespace TypedMarkup

/-- Parsers for the constructs that nest. -/
structure Parser.Nested where
  /-- A node, at its opening bracket. -/
  node : Parser Node
  /-- A block, up to the bracket that closes what it stands in or the end of the source. -/
  content : Parser Content

namespace Parser

/-! ### Preambles -/

/-- A property block, which a declaration without classes needs. -/
def declaredProperties (uses : List ClassRef) (parsing : Construct) :
    Parser (Option PropertyBlock) := do
  if (← head) = some '\x7b' then
    return some (← propertyBlock)
  else if uses.isEmpty then
    fail [.construct .classes, .construct .properties] (some parsing) none
  else
    return none

/-- The rest of the declaration of a class. -/
def classDeclaration : Parser Directive := do
  if (← head) ≠ some '.' then
    fail [.construct .classRef] none none
  let declared ← classRef
  skip
  let targets ← typePaths
  let uses ← classes
  return .bundle declared targets uses (← declaredProperties uses .classDeclaration)

/-- The rest of the declaration of defaults. -/
def defaultDeclaration : Parser Directive := do
  let targets ← typePaths
  let uses ← classes
  return .defaults targets uses (← declaredProperties uses .defaultDeclaration)

/-- The rest of the binding of a content. -/
def contentBinding (nested : Nested) : Parser Directive := do
  let bound ← name
  skip
  expect '[' none none
  let start ← position
  skip
  let body ← nested.content
  expect ']' (some .contentBinding) (some start)
  return .content bound body

/-- The rest of the binding of a value. -/
def valueBinding : Parser Directive := do
  let bound ← name
  skip
  return .value bound (← value)

/-- The words that start a preamble element. -/
def preambleKeywords : List Expectation :=
  [.keyword Keyword.classes.spelling, .keyword Keyword.content.spelling,
    .keyword Keyword.defaults.spelling, .keyword Keyword.value.spelling]

/-- What a preamble element does, at its keyword. -/
def directive (nested : Nested) : Parser Directive := do
  if !(← head).any isNameChar then
    fail preambleKeywords none none
  let keyword ← name
  skip
  match Keyword.ofSpelling? keyword.content with
  | some .classes => classDeclaration
  | some .content => contentBinding nested
  | some .defaults => defaultDeclaration
  | some .value => valueBinding
  | _ => failAt keyword preambleKeywords none

/-- The question mark of a fallback, if it stands at the cursor. -/
def fallbackMark : Parser (Option Position) := do
  if (← head) = some '?' then
    let mark ← position
    advance
    skip
    return some mark
  else
    return none

/-- A preamble element, at its angle bracket. -/
def preambleElement (nested : Nested) : Parser PreambleElement := do
  let start ← position
  advance
  skip
  let fallback ← fallbackMark
  let read ← directive nested
  skip
  expect '>' (some .preambleElement) (some start)
  return ⟨start, fallback, read⟩

/-- All preamble elements at the cursor, and what separates them. -/
def preamble (nested : Nested) : Parser (List PreambleElement) :=
  many do
    if (← head) = some '<' then
      let read ← preambleElement nested
      skip
      return .item read
    else
      return .stop

/-! ### Lines -/

/-- A node whose bracket has an underscore before it, which is read and dropped. -/
def ignoredNode (nested : Nested) : Parser Unit := do
  advance
  let _ ← nested.node

/-- Whether an ignored node stands at the cursor. -/
def atIgnoredNode : Parser Bool := do
  return (← head) = some '_' && (← second) = some '['

/-- The characters that end a run of text. -/
def endsText (c : Char) : Bool :=
  c == '\r' || c == '\n' || c == '\x60' || c == '[' || c == ']'

theorem endsText_eq_false_iff {c : Char} :
    endsText c = false ↔ c ≠ '\r' ∧ c ≠ '\n' ∧ c ≠ '\x60' ∧ c ≠ '[' ∧ c ≠ ']' := by
  simp only [endsText, Bool.or_eq_false_iff, beq_eq_false_iff_ne, and_assoc, ne_eq]

/-- The text up to a character that ends it or an ignored node. -/
def plainText : List Char → List Char
  | [] => []
  | '_' :: '[' :: _ => []
  | c :: rest => if endsText c then [] else c :: plainText rest

/-- A piece of a run of text, or an ignored node, if the run goes on. -/
def textPiece (nested : Nested) : Parser (Round (List Char)) := do
  match ← head with
  | none => return .stop
  | some c =>
    if endsText c then
      return .stop
    else if ← atIgnoredNode then
      ignoredNode nested
      return .pass
    else
      return .item (← take plainText)

/-- A run of text. Its first character, whatever it is, belongs to it; ignored nodes inside do
not. -/
def textRun (nested : Nested) : Parser TextRun := do
  let start ← position
  let first ← take fun rest => rest.take 1
  let pieces ← many (textPiece nested)
  return ⟨String.ofList (first ++ pieces.flatten), start⟩

/-- An element of a line, or an ignored node, if the line goes on. -/
def lineElement (nested : Nested) : Parser (Round LineElement) := do
  match ← head with
  | none | some '\r' | some '\n' | some ']' => return .stop
  | some '[' => return .item (.node (← nested.node))
  | some '\x60' => return .item (.escaped (← escapedText))
  | some _ =>
    if ← atIgnoredNode then
      ignoredNode nested
      return .pass
    else
      return .item (.plain (← textRun nested))

/-- The elements of a line, up to its end. -/
def line (nested : Nested) : Parser (List LineElement) :=
  many (lineElement nested)

/-- All lines up to a closing bracket or the end of the source. -/
def lines (nested : Nested) : Parser (List (List LineElement)) :=
  many do
    skip
    match ← head with
    | none | some ']' => return .stop
    | some _ => return .item (← line nested)

/-- A block. -/
def content (nested : Nested) : Parser Content := do
  let read ← preamble nested
  return ⟨read, ← lines nested⟩

/-! ### Nodes -/

/-- An element of a text node, where other nodes have no meaning, or an ignored node, if the text
node goes on. -/
def textElement (nested : Nested) : Parser (Round TextElement) := do
  match ← head with
  | none | some '\r' | some '\n' | some ']' => return .stop
  | some '\x60' => return .item (.escaped (← escapedText))
  | some _ =>
    if ← atIgnoredNode then
      ignoredNode nested
      return .pass
    else
      return .item (.plain (← textRun nested))

/-- The text of a text node, up to the end of the line or its closing bracket. -/
def textElements (nested : Nested) : Parser (List TextElement) :=
  many (textElement nested)

/-- The rest of a text node. -/
def textNode (nested : Nested) (start : Position) (keyword : Option Word) : Parser Node := do
  let read ← classes
  let block ← properties
  return .text start keyword read block (← textElements nested)

/-- The rest of a node of a declared type. -/
def typedNode (nested : Nested) (start : Position) (path : TypePath) : Parser Node := do
  let read ← classes
  let block ← properties
  return .typed start path read block (← content nested)

/-- The rest of a node that starts with a name. -/
def namedNode (nested : Nested) (start : Position) (first : Word) : Parser Node := do
  match Keyword.ofSpelling? first.content with
  | some .text =>
    skip
    textNode nested start (some first)
  | some .read =>
    skip
    let read ← classes
    return .read start read (← properties)
  | some .inclusion =>
    skip
    let read ← classes
    let block ← properties
    return .inclusion start read block (← preamble nested)
  | some .content =>
    skip
    let used ← name
    skip
    return .content start used (← preamble nested)
  | some .value =>
    skip
    let used ← name
    skip
    return .value start used
  | _ =>
    let steps ← childSteps
    skip
    typedNode nested start (.absolute first steps)

/-- What can stand behind the opening bracket of a node. -/
def nodeStarts : List Expectation :=
  [.keyword Keyword.text.spelling, .keyword Keyword.read.spelling,
    .keyword Keyword.inclusion.spelling, .keyword Keyword.content.spelling,
    .keyword Keyword.value.spelling, .construct .nodeType, .construct .classes,
    .construct .properties, .construct .preamble]

/-- The inside of a node whose bracket is at `start`. -/
def nodeBody (nested : Nested) (start : Position) : Parser Node := do
  match ← head with
  | some '<' => return .block start (← content nested)
  | some '.' | some '\x7b' => textNode nested start none
  | some '\\' =>
    let steps ← childSteps
    skip
    typedNode nested start (.relative steps)
  | next =>
    if next.any isNameChar then
      namedNode nested start (← name)
    else
      fail nodeStarts (some .node) (some start)

/-- A node, at its opening bracket. -/
def node (nested : Nested) : Parser Node := do
  let start ← position
  advance
  skip
  let read ← nodeBody nested start
  expect ']' (some .node) (some start)
  return read

/-! ### Nesting -/

/-- Parsers for at most so many levels of nesting. -/
def Nested.ofDepth : Nat → Nested
  | 0 => ⟨throw .exhausted, throw .exhausted⟩
  | depth + 1 =>
    let nested := ofDepth depth
    ⟨Parser.node nested, Parser.content nested⟩

/-- A whole source. -/
def file (nested : Nested) : Parser Content := do
  skip
  let read ← nested.content
  if (← head).isSome then
    fail [.endOfFile] (some .file) none
  return read

end Parser

namespace Content

/-- Reads a source with at most so many levels of nesting. -/
def parseWithin (depth : Nat) (source : String) : Except Parser.Failure Content :=
  (Parser.file (.ofDepth depth)).run' (Cursor.ofString source)

/-- Reads a source. Every level of nesting has a bracket of its own, so there are fewer of them
than characters; an error that expects nothing stands for the case that this is too few. -/
def parse (source : String) : Except ParseError Content :=
  match parseWithin (source.length + 1) source with
  | .ok content => .ok content
  | .error (.malformed error) => .error error
  | .error .exhausted => .error ⟨Position.start, .endOfFile, [], none, none⟩

end Content

end TypedMarkup
