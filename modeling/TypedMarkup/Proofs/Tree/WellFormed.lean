/-
**Well-formed trees.** Which trees a source can have, apart from the positions in them.

* `Word.IsName` and `Word.IsLiteral` say which characters a word has, and `Word.IsClear` that it
  does not begin like a comment, which matters where white space may stand before it.
* `TextRun.StandsInLine` and `TextRun.StandsInText` say which text is read as one run; whether a run
  may follow another is `LineElement.MayPrecede` and `TextElement.MayPrecede`.
* `Content.WellFormed` says so of a block and of all that is in it, at every depth.
-/

import Mathlib.Data.List.Chain
import TypedMarkup.Name
import TypedMarkup.Source.Trivia
import TypedMarkup.Tree

namespace TypedMarkup

/-! ### Words -/

namespace Word

/-- A word of allowed characters, and at least one. -/
structure ConsistsOf (allowed : Char → Bool) (word : Word) : Prop where
  some : word.content ≠ ""
  each : ∀ c ∈ word.content.toList, allowed c = true

/-- A name. -/
def IsName (word : Word) : Prop :=
  word.ConsistsOf isNameChar

/-- An unquoted value. -/
def IsLiteral (word : Word) : Prop :=
  word.ConsistsOf isValueChar

/-- A word that does not begin like a comment. -/
structure IsClear (word : Word) : Prop where
  line : ¬ [';'] <+: word.content.toList
  block : ¬ ['/', '*'] <+: word.content.toList

end Word

/-- The words that start a node whose type is not declared. -/
def nodeWords : List String :=
  ["text", "read", "include", "con", "val"]

/-! ### Properties and type paths -/

/-- A value that can be written. Escaped text may stand for anything. -/
def Value.WellFormed : Value → Prop
  | literal word => word.IsLiteral ∧ word.IsClear
  | bound _ name => name.IsName ∧ name.IsClear
  | escaped _ => True

/-- A setting whose name and value can be written. Right behind its mark, the name of a negated one
may look like a comment. -/
def Setting.WellFormed : Setting → Prop
  | pair name value => name.IsName ∧ name.IsClear ∧ value.WellFormed
  | flag name => name.IsName ∧ name.IsClear
  | negated _ name => name.IsName

/-- A property block whose values and settings can be written. -/
structure PropertyBlock.WellFormed (block : PropertyBlock) : Prop where
  main : ∀ value ∈ block.main, value.WellFormed
  settings : ∀ setting ∈ block.settings, setting.WellFormed

/-- A type path that can be written: not the one without any name. -/
def TypePath.WellFormed : TypePath → Prop
  | absolute root steps => root.IsName ∧ root.IsClear ∧ ∀ step ∈ steps, step.name.IsName
  | relative steps => steps ≠ [] ∧ ∀ step ∈ steps, step.name.IsName

/-- Whether a node with this path is of a declared type. -/
def TypePath.IsDeclared : TypePath → Prop
  | absolute root _ => root.content ∉ nodeWords
  | relative _ => True

/-- Classes and properties that can be written. -/
structure PartsWellFormed (uses : List ClassRef) (block : Option PropertyBlock) : Prop where
  classes : ∀ used ∈ uses, used.name.IsName
  properties : ∀ read ∈ block, read.WellFormed

/-! ### Text -/

namespace TextRun

/-- A run of text in a line. -/
structure StandsInLine (run : TextRun) : Prop where
  some : run.content ≠ ""
  plain : ∀ c ∈ run.content.toList, c ∉ ['\r', '\n', '\x60', ']', '[']

/-- A run of text in a text node, where it may begin with an opening bracket. -/
structure StandsInText (run : TextRun) : Prop where
  some : run.content ≠ ""
  inside : ∀ c ∈ run.content.toList, c ∉ ['\r', '\n', '\x60', ']']
  behind : '[' ∉ run.content.toList.tail

end TextRun

/-- Two runs of text in a line are one. -/
def LineElement.MayPrecede : LineElement → LineElement → Prop
  | plain _, plain _ => False
  | _, _ => True

/-- In a text node a run may follow another if it begins with an opening bracket. -/
def TextElement.MayPrecede : TextElement → TextElement → Prop
  | plain _, plain run => ['['] <+: run.content.toList
  | _, _ => True

/-- What may stand in a text node. -/
def TextElement.WellFormed : TextElement → Prop
  | plain run => run.StandsInText
  | escaped _ => True

/-! ### Blocks -/

mutual

/-- What a preamble element does, if it can be written. -/
inductive Directive.WellFormed : Directive → Prop where
  | value {name : Word} {value : Value} (isName : name.IsName) (clear : name.IsClear)
    (given : value.WellFormed) : Directive.WellFormed (.value name value)
  | content {name : Word} {body : Content} (isName : name.IsName) (clear : name.IsClear)
    (inside : body.WellFormed) : Directive.WellFormed (.content name body)
  | bundle {declared : ClassRef} {targets : List TypePath} {uses : List ClassRef}
    {block : Option PropertyBlock} (isName : declared.name.IsName)
    (paths : ∀ path ∈ targets, path.WellFormed) (parts : PartsWellFormed uses block)
    (some : uses ≠ [] ∨ block ≠ none) : Directive.WellFormed (.bundle declared targets uses block)
  | defaults {targets : List TypePath} {uses : List ClassRef} {block : Option PropertyBlock}
    (paths : ∀ path ∈ targets, path.WellFormed) (parts : PartsWellFormed uses block)
    (some : uses ≠ [] ∨ block ≠ none) : Directive.WellFormed (.defaults targets uses block)

inductive PreambleElement.WellFormed : PreambleElement → Prop where
  | mk {start : Position} {fallback : Option Position} {directive : Directive}
    (inside : directive.WellFormed) : PreambleElement.WellFormed ⟨start, fallback, directive⟩

/-- A block that can be written. -/
inductive Content.WellFormed : Content → Prop where
  | mk {preamble : List PreambleElement} {lines : List (List LineElement)}
    (elements : ∀ element ∈ preamble, element.WellFormed)
    (inside : ∀ line ∈ lines, ∀ element ∈ line, element.WellFormed)
    (apart : ∀ line ∈ lines, line.IsChain LineElement.MayPrecede) :
    Content.WellFormed ⟨preamble, lines⟩

/-- A node that can be written. -/
inductive Node.WellFormed : Node → Prop where
  | content {start : Position} {name : Word} {preamble : List PreambleElement}
    (isName : name.IsName) (clear : name.IsClear)
    (elements : ∀ element ∈ preamble, element.WellFormed) :
    Node.WellFormed (.content start name preamble)
  | block {start : Position} {body : Content} (some : body.preamble ≠ [])
    (inside : body.WellFormed) : Node.WellFormed (.block start body)
  | value {start : Position} {name : Word} (isName : name.IsName) (clear : name.IsClear) :
    Node.WellFormed (.value start name)
  | text {start : Position} {keyword : Option Word} {classes : List ClassRef}
    {block : Option PropertyBlock} {elements : List TextElement}
    (marked : keyword.map Word.content = some "text" ∨
      keyword = none ∧ (classes ≠ [] ∨ block ≠ none))
    (parts : PartsWellFormed classes block) (inside : ∀ element ∈ elements, element.WellFormed)
    (apart : elements.IsChain TextElement.MayPrecede) :
    Node.WellFormed (.text start keyword classes block elements)
  | read {start : Position} {classes : List ClassRef} {block : Option PropertyBlock}
    (parts : PartsWellFormed classes block) : Node.WellFormed (.read start classes block)
  | inclusion {start : Position} {classes : List ClassRef} {block : Option PropertyBlock}
    {preamble : List PreambleElement} (parts : PartsWellFormed classes block)
    (elements : ∀ element ∈ preamble, element.WellFormed) :
    Node.WellFormed (.inclusion start classes block preamble)
  | typed {start : Position} {path : TypePath} {classes : List ClassRef}
    {block : Option PropertyBlock} {body : Content} (route : path.WellFormed)
    (declared : path.IsDeclared) (parts : PartsWellFormed classes block)
    (inside : body.WellFormed) : Node.WellFormed (.typed start path classes block body)

/-- What may stand in a line. -/
inductive LineElement.WellFormed : LineElement → Prop where
  | plain {run : TextRun} (text : run.StandsInLine) : LineElement.WellFormed (.plain run)
  | escaped {text : EscapedText} : LineElement.WellFormed (.escaped text)
  | node {inner : Node} (inside : inner.WellFormed) : LineElement.WellFormed (.node inner)

end

/-! ### Words in a text -/

section Words

variable {allowed : Char → Bool} {word : Word} {text : List Char}

theorem Word.ConsistsOf.toList_ne_nil (consists : word.ConsistsOf allowed) :
    word.content.toList ≠ [] := by
  intro none
  exact consists.some (String.toList_eq_nil_iff.1 none)

/-- The word at the front of a text, if there is one. -/
theorem Word.consistsOf_takeWhile (taken : word.content.toList = text.takeWhile allowed)
    (some : word.content.toList ≠ []) : word.ConsistsOf allowed := by
  refine ⟨fun none => some (by rw [none]; rfl), fun c member => ?_⟩
  rw [taken] at member
  exact List.all_eq_true.1 List.all_takeWhile c member

/-- Where no trivia begin, no word begins like a comment. -/
theorem Word.isClear_of_front (front : word.content.toList <+: text) (clear : trivia? text = none) :
    word.IsClear := by
  constructor
  · intro line
    obtain ⟨rest, rfl⟩ := line.trans front
    cases clear
  · intro block
    obtain ⟨rest, rfl⟩ := block.trans front
    cases clear

end Words

namespace Keyword

theorem spelling_of_ofSpelling? {word : String} {keyword : Keyword}
    (spelt : ofSpelling? word = some keyword) : word = keyword.spelling := by
  have found := List.find?_some spelt
  exact (beq_iff_eq.1 found).symm

/-- The words that start a node of a declared type are those that spell no keyword of a node. -/
theorem not_mem_nodeWords_iff {word : String} :
    word ∉ nodeWords ↔ (ofSpelling? word).filter startsNode = none := by
  constructor
  · intro other
    cases spelt : ofSpelling? word with
    | none => rfl
    | some keyword =>
      rw [spelling_of_ofSpelling? spelt] at other
      cases keyword with
      | classes | defaults => rfl
      | text | read | inclusion | content | value => exact absurd (by decide) other
  · intro other member
    have spelt : ∀ node ∈ nodeWords, ((ofSpelling? node).filter startsNode).isSome = true := by decide
    exact Option.isSome_iff_ne_none.1 (spelt word member) other

end Keyword

end TypedMarkup
