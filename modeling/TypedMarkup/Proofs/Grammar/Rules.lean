/-
**The grammar.** Which lexemes spell which trees, construct by construct. A gap may stand wherever a
construct allows white space, and a sight wherever it matters what does not follow.

* `Grammar.Nested` are the languages of nodes and blocks for what is nested deeper, and
  `Grammar.ofDepth` ties the knot.
* `Grammar.file` is the language of whole sources.
-/

import TypedMarkup.Proofs.Grammar.Language

namespace TypedMarkup

/-- Languages of the constructs that nest. -/
structure Grammar.Nested where
  node : Language Node
  content : Language Content

namespace Grammar

open TypedMarkup.Language
open TypedMarkup.Parser (Round)

/-! ### Classes and type paths -/

/-- A class. -/
def classRef : Language ClassRef := do
  let start ← sign '.'
  return ⟨start, ← name⟩

/-- Some classes, with a gap behind each. -/
def classes : Language (List ClassRef) :=
  rounds
    ((do
      let read ← classRef
      gap
      return .item read) <|>
    (do
      sight (.avoids ['.'])
      return .stop))

/-- Some steps to child types. -/
def childSteps : Language (List ChildStep) :=
  rounds
    ((do
      let start ← sign '\\'
      return .item ⟨start, ← name⟩) <|>
    (do
      sight (.avoids ['\\'])
      return .stop))

/-- A gap, and a type path behind it or none. -/
def typePath : Language (Round TypePath) := do
  gap
  (do
    sight (.shows ['\\'])
    return .item (.relative (← childSteps))) <|>
  (do
    let root ← name
    return .item (.absolute root (← childSteps))) <|>
  (do
    sight .noPath
    return .stop)

/-- Some type paths. -/
def typePaths : Language (List TypePath) :=
  rounds typePath

/-! ### Properties -/

/-- A value bound to a name. -/
def boundValue : Language Value := do
  let start ← sign '<'
  gap
  let keyword ← name
  guard (keyword.content = Keyword.value.spelling)
  gap
  let bound ← name
  gap
  let _ ← sign '>'
  return .bound start bound

/-- The value of a property. -/
def value : Language Value :=
  boundValue <|>
  (do return .escaped (← escaped)) <|>
  (do return .literal (← literal))

/-- A setting that sets a name to `false`. -/
def negatedSetting : Language Setting := do
  let start ← sign '!'
  return .negated start (← name)

/-- A setting that starts with its name. -/
def namedSetting : Language Setting := do
  let set ← name
  gap
  (do
    let _ ← sign '='
    gap
    return .pair set (← value)) <|>
  (do
    sight .settingNext
    return .flag set)

/-- A gap, and a setting behind it or the end of the block. -/
def setting : Language (Round Setting) := do
  gap
  (do
    sight (.shows ['\x7d'])
    return .stop) <|>
  (do return .item (← negatedSetting)) <|>
  (do return .item (← namedSetting))

/-- The settings of a block. -/
def settings : Language (List Setting) :=
  rounds setting

/-- The main value of a property block, if it has one. -/
def mainValue : Language (Option Value) :=
  (do
    let _ ← sign '='
    gap
    return some (← value)) <|>
  (do
    sight (.avoids ['='])
    return none)

/-- A property block. -/
def propertyBlock : Language PropertyBlock := do
  let start ← sign '\x7b'
  gap
  let main ← mainValue
  let read ← settings
  let _ ← sign '\x7d'
  return ⟨start, main, read⟩

/-- A property block with a gap behind it, or none. -/
def properties : Language (Option PropertyBlock) :=
  (do
    let block ← propertyBlock
    gap
    return some block) <|>
  (do
    sight (.avoids ['\x7b'])
    return none)

/-! ### Preambles -/

/-- The property block of a declaration, which one without classes has. -/
def declaredProperties (uses : List ClassRef) : Language (Option PropertyBlock) :=
  (do return some (← propertyBlock)) <|>
  (do
    sight (.avoids ['\x7b'])
    guard (uses ≠ [])
    return none)

/-- The declaration of a class, behind its keyword. -/
def classDeclaration : Language Directive := do
  let declared ← classRef
  gap
  let targets ← typePaths
  let uses ← classes
  return .bundle declared targets uses (← declaredProperties uses)

/-- The declaration of defaults, behind its keyword. -/
def defaultDeclaration : Language Directive := do
  let targets ← typePaths
  let uses ← classes
  return .defaults targets uses (← declaredProperties uses)

/-- The binding of a content, behind its keyword. -/
def contentBinding (nested : Nested) : Language Directive := do
  let bound ← name
  gap
  let _ ← sign '['
  gap
  let body ← nested.content
  let _ ← sign ']'
  return .content bound body

/-- The binding of a value, behind its keyword. -/
def valueBinding : Language Directive := do
  let bound ← name
  gap
  return .value bound (← value)

/-- What a preamble element does. -/
def directive (nested : Nested) : Language Directive := do
  let keyword ← name
  gap
  match Keyword.ofSpelling? keyword.content with
  | some .classes => classDeclaration
  | some .content => contentBinding nested
  | some .defaults => defaultDeclaration
  | some .value => valueBinding
  | _ => nothing

/-- The mark of a fallback with a gap behind it, or none. -/
def fallbackMark : Language (Option Position) :=
  (do
    let mark ← sign '?'
    gap
    return some mark) <|>
  (do
    sight (.avoids ['?'])
    return none)

/-- A preamble element. -/
def preambleElement (nested : Nested) : Language PreambleElement := do
  let start ← sign '<'
  gap
  let fallback ← fallbackMark
  let read ← directive nested
  gap
  let _ ← sign '>'
  return ⟨start, fallback, read⟩

/-- A preamble, with a gap behind each element. -/
def preamble (nested : Nested) : Language (List PreambleElement) :=
  rounds
    ((do
      let read ← preambleElement nested
      gap
      return .item read) <|>
    (do
      sight (.avoids ['<'])
      return .stop))

/-! ### Lines -/

/-- An ignored node, of which nothing is left. -/
def ignoredNode (nested : Nested) : Language Unit := do
  let _ ← sign '_'
  let _ ← kept nested.node

/-- A piece of a run of text, an ignored node, or the end of the run. -/
def textPiece (nested : Nested) : Language (Round (List Char)) :=
  (do
    sight .textEnd
    return .stop) <|>
  (do
    ignoredNode nested
    return .pass) <|>
  (do return .item (← plain))

/-- A run of text. -/
def textRun (nested : Nested) : Language TextRun := do
  let (first, start) ← anySign
  let pieces ← rounds (textPiece nested)
  return ⟨String.ofList ([first] ++ pieces.flatten), start⟩

/-- An element of a line, an ignored node, or the end of the line. -/
def lineElement (nested : Nested) : Language (Round LineElement) :=
  (do
    sight .lineEnd
    return .stop) <|>
  (do return .item (.node (← nested.node))) <|>
  (do return .item (.escaped (← escaped))) <|>
  (do
    ignoredNode nested
    return .pass) <|>
  (do
    sight .plain
    return .item (.plain (← textRun nested)))

/-- A line. -/
def line (nested : Nested) : Language (List LineElement) :=
  rounds (lineElement nested)

/-- A gap, and a line behind it or the end of the block. -/
def lineRound (nested : Nested) : Language (Round (List LineElement)) := do
  gap
  (do
    sight .blockEnd
    return .stop) <|>
  (do
    sight .line
    return .item (← line nested))

/-- Some lines, with a gap before each and behind the last. -/
def lines (nested : Nested) : Language (List (List LineElement)) :=
  rounds (lineRound nested)

/-- A block. -/
def content (nested : Nested) : Language Content := do
  let read ← preamble nested
  return ⟨read, ← lines nested⟩

/-! ### Nodes -/

/-- An element of a text node, an ignored node, or the end of the text node. -/
def textElement (nested : Nested) : Language (Round TextElement) :=
  (do
    sight .lineEnd
    return .stop) <|>
  (do return .item (.escaped (← escaped))) <|>
  (do
    ignoredNode nested
    return .pass) <|>
  (do
    sight .nodeText
    return .item (.plain (← textRun nested)))

/-- The text of a text node. -/
def textElements (nested : Nested) : Language (List TextElement) :=
  rounds (textElement nested)

/-- A text node, behind its keyword. -/
def textNode (nested : Nested) (start : Position) (keyword : Option Word) : Language Node := do
  let read ← classes
  let block ← properties
  return .text start keyword read block (← textElements nested)

/-- A node of a declared type, behind its path. -/
def typedNode (nested : Nested) (start : Position) (path : TypePath) : Language Node := do
  let read ← classes
  let block ← properties
  return .typed start path read block (← content nested)

/-- A node that starts with a name, behind it. -/
def namedNode (nested : Nested) (start : Position) (first : Word) : Language Node :=
  match Keyword.ofSpelling? first.content with
  | some .text => do
    gap
    textNode nested start (some first)
  | some .read => do
    gap
    let read ← classes
    return .read start read (← properties)
  | some .inclusion => do
    gap
    let read ← classes
    let block ← properties
    return .inclusion start read block (← preamble nested)
  | some .content => do
    gap
    let used ← name
    gap
    return .content start used (← preamble nested)
  | some .value => do
    gap
    let used ← name
    gap
    return .value start used
  | _ => do
    let steps ← childSteps
    gap
    typedNode nested start (.absolute first steps)

/-- A name that starts no other node is the global name of a type. -/
theorem namedNode_of_other {nested : Nested} {start : Position} {first : Word}
    (other : (Keyword.ofSpelling? first.content).filter Keyword.startsNode = none) :
    namedNode nested start first = (do
      let steps ← childSteps
      gap
      typedNode nested start (.absolute first steps)) := by
  unfold namedNode
  cases spelt : Keyword.ofSpelling? first.content with
  | none => rfl
  | some keyword =>
    rw [spelt] at other
    cases keyword with
    | classes | defaults => rfl
    | text | read | inclusion | content | value => cases other

/-- The inside of a node. -/
def nodeBody (nested : Nested) (start : Position) : Language Node :=
  (do
    sight (.shows ['<'])
    return .block start (← content nested)) <|>
  (do
    sight (.shows ['.', '\x7b'])
    textNode nested start none) <|>
  (do
    sight (.shows ['\\'])
    let steps ← childSteps
    gap
    typedNode nested start (.relative steps)) <|>
  (do namedNode nested start (← name))

/-- A node. -/
def node (nested : Nested) : Language Node := do
  let start ← sign '['
  gap
  let read ← nodeBody nested start
  let _ ← sign ']'
  return read

/-! ### Nesting -/

/-- The languages of at most so many levels of nesting. -/
def ofDepth : Nat → Nested
  | 0 => ⟨nothing, nothing⟩
  | depth + 1 => ⟨node (ofDepth depth), content (ofDepth depth)⟩

/-- A whole source. -/
def file (nested : Nested) : Language Content := do
  gap
  let read ← nested.content
  sight .sourceEnd
  return read

end Grammar

end TypedMarkup
