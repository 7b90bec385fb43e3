/-
**The tree of a source.** What reading a source gives: nothing in it is looked up yet. Type paths
are names, values may name bindings, and bound contents are kept as they stand.

* `Content` is a block: a preamble and then lines of `LineElement`s, some of which are `Node`s
  with blocks of their own.
* `Content.ofText` is the block that holds one run of text.
-/

import TypedMarkup.Source.Position

namespace TypedMarkup

/-! ### Leaves -/

/-- A run of characters of one class: a name, a keyword or an unquoted value. -/
structure Word where
  content : String
  start : Position
deriving DecidableEq, Repr, Inhabited

/-- Text as it is shown. -/
structure TextRun where
  content : String
  start : Position
deriving DecidableEq, Repr, Inhabited

/-- Text between backticks. -/
structure EscapedText where
  /-- The opening backtick. -/
  start : Position
  /-- What the text stands for, starting behind the backtick. -/
  text : TextRun
deriving DecidableEq, Repr, Inhabited

/-! ### Properties -/

/-- The value of a property. -/
inductive Value where
  /-- An unquoted value. -/
  | literal (word : Word)
  /-- The value bound to a name; `start` is the angle bracket. -/
  | bound (start : Position) (name : Word)
  /-- Escaped text. -/
  | escaped (text : EscapedText)
deriving DecidableEq, Repr

/-- Where a value starts. -/
def Value.start : Value → Position
  | literal word => word.start
  | bound start _ => start
  | escaped text => text.start

/-- A class behind its dot. -/
structure ClassRef where
  /-- The dot. -/
  start : Position
  name : Word
deriving DecidableEq, Repr

/-- One setting of a property block. -/
inductive Setting where
  /-- A name with its value. -/
  | pair (name : Word) (value : Value)
  /-- A bare name, which sets `true`. -/
  | flag (name : Word)
  /-- A name behind an exclamation mark, which sets `false`; `start` is the mark. -/
  | negated (start : Position) (name : Word)
deriving DecidableEq, Repr

/-- The name a setting sets. -/
def Setting.name : Setting → Word
  | pair name _ => name
  | flag name => name
  | negated _ name => name

/-- Properties between braces. -/
structure PropertyBlock where
  /-- The opening brace. -/
  start : Position
  /-- The value behind a leading equals sign. -/
  main : Option Value
  settings : List Setting
deriving DecidableEq, Repr

/-! ### Type paths -/

/-- One step down to a child type. -/
structure ChildStep where
  /-- The backslash. -/
  start : Position
  name : Word
deriving DecidableEq, Repr

/-- How a source names a type. -/
inductive TypePath where
  /-- From a global type. -/
  | absolute (root : Word) (steps : List ChildStep)
  /-- From the type of the node around; a source always gives at least one step. -/
  | relative (steps : List ChildStep)
deriving DecidableEq, Repr

namespace TypePath

/-- The steps below the first type. -/
def steps : TypePath → List ChildStep
  | absolute _ steps => steps
  | relative steps => steps

/-- Where a path starts; the start of a source for the path without any name. -/
def start : TypePath → Position
  | absolute root _ => root.start
  | relative (step :: _) => step.start
  | relative [] => Position.start

end TypePath

/-! ### Blocks -/

/-- What a text node may hold. -/
inductive TextElement where
  | plain (run : TextRun)
  | escaped (text : EscapedText)
deriving DecidableEq, Repr

/-- The text an element stands for. -/
def TextElement.content : TextElement → String
  | plain run => run.content
  | escaped text => text.text.content

mutual

/-- What a preamble element does. -/
inductive Directive where
  /-- Binds a value. -/
  | value (name : Word) (value : Value)
  /-- Binds a content. -/
  | content (name : Word) (body : Content)
  /-- Declares a class, for the given types or for all that fit. -/
  | bundle (declared : ClassRef) (targets : List TypePath) (uses : List ClassRef)
      (block : Option PropertyBlock)
  /-- Declares default properties, for the given types or for all that fit. -/
  | defaults (targets : List TypePath) (uses : List ClassRef) (block : Option PropertyBlock)

/-- One element of a preamble. -/
structure PreambleElement where
  /-- The opening angle bracket. -/
  start : Position
  /-- The question mark of a fallback. -/
  fallback : Option Position
  directive : Directive

/-- A block. -/
structure Content where
  preamble : List PreambleElement
  lines : List (List LineElement)

/-- A node; `start` is its opening bracket. -/
inductive Node where
  /-- Uses a bound content. -/
  | content (start : Position) (name : Word) (preamble : List PreambleElement)
  /-- A block in brackets. -/
  | block (start : Position) (body : Content)
  /-- Uses a bound value. -/
  | value (start : Position) (name : Word)
  /-- One line of text; without the keyword if it starts with a class or a property block. -/
  | text (start : Position) (keyword : Option Word) (classes : List ClassRef)
      (block : Option PropertyBlock) (elements : List TextElement)
  /-- Reads a file as text. -/
  | read (start : Position) (classes : List ClassRef) (block : Option PropertyBlock)
  /-- Includes a file. -/
  | inclusion (start : Position) (classes : List ClassRef) (block : Option PropertyBlock)
      (preamble : List PreambleElement)
  /-- A node of a declared type. -/
  | typed (start : Position) (path : TypePath) (classes : List ClassRef)
      (block : Option PropertyBlock) (body : Content)

/-- One element of a line. -/
inductive LineElement where
  | plain (run : TextRun)
  | escaped (text : EscapedText)
  | node (inner : Node)

end

/-- The opening bracket of a node. -/
def Node.start : Node → Position
  | content start _ _ => start
  | block start _ => start
  | value start _ => start
  | text start _ _ _ _ => start
  | read start _ _ => start
  | inclusion start _ _ _ => start
  | typed start _ _ _ _ => start

/-- Where an element starts. -/
def LineElement.start : LineElement → Position
  | plain run => run.start
  | escaped text => text.start
  | node inner => inner.start

namespace Content

/-- The block without anything. -/
def empty : Content := ⟨[], []⟩

instance : Inhabited Content := ⟨empty⟩

/-- Whether a block has neither preamble nor lines. -/
def isEmpty (content : Content) : Bool :=
  content.preamble.isEmpty && content.lines.isEmpty

/-- The block of one line that holds one run of text. -/
def ofText (text : String) (start : Position) : Content :=
  ⟨[], [[.plain ⟨text, start⟩]]⟩

end Content

end TypedMarkup
