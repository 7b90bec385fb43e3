/-
**The parts of a tree.** What a tree records, leaf by leaf and in the order of the source.

* `Content.parts` lists the parts of a block at every depth: words, class names, type paths, values,
  settings, texts, and the places of the brackets and marks that the tree keeps.
* `Part.positions` are the positions a part records; `Content.positions` are all of a tree.
* `Part.Stands source` says that what the part records is what stands in the source from that
  cursor on: every position is found there, with the character or the word that belongs to it.
-/

import TypedMarkup.Proofs.Source.Reach
import TypedMarkup.Tree.Parser.Block

namespace TypedMarkup

/-! ### Parts -/

/-- Something a tree records. -/
inductive Part where
  /-- The opening bracket of a node. -/
  | node (start : Position)
  /-- The opening angle bracket of a preamble element. -/
  | element (start : Position)
  /-- The question mark of a fallback. -/
  | fallback (mark : Position)
  /-- A name that is bound or used. -/
  | name (word : Word)
  /-- The word that starts a text node. -/
  | keyword (word : Word)
  | classRef (used : ClassRef)
  | path (path : TypePath)
  /-- The opening brace of a property block. -/
  | block (start : Position)
  | value (value : Value)
  | setting (setting : Setting)
  | run (run : TextRun)
  | escaped (text : EscapedText)

/-- The parts of a property block. -/
def PropertyBlock.parts (block : PropertyBlock) : List Part :=
  .block block.start :: block.main.toList.map Part.value ++ block.settings.map Part.setting

/-- The parts of a property block that may be missing. -/
def blockParts (block : Option PropertyBlock) : List Part :=
  block.toList.flatMap PropertyBlock.parts

@[simp] theorem blockParts_some (block : PropertyBlock) : blockParts (some block) = block.parts := by
  rw [blockParts, Option.toList_some, List.flatMap_singleton]

/-- The parts of what follows the keyword of a declaration. -/
def declarationParts (targets : List TypePath) (uses : List ClassRef)
    (block : Option PropertyBlock) : List Part :=
  targets.map Part.path ++ uses.map Part.classRef ++ blockParts block

/-- The part that an element of a text node is. -/
def TextElement.part : TextElement → Part
  | plain run => .run run
  | escaped text => .escaped text

mutual

/-- The parts of what a preamble element does. -/
def Directive.parts : Directive → List Part
  | .value name value => [.name name, .value value]
  | .content name body => .name name :: body.parts
  | .bundle declared targets uses block => .classRef declared :: declarationParts targets uses block
  | .defaults targets uses block => declarationParts targets uses block

/-- The parts of a preamble element. -/
def PreambleElement.parts : PreambleElement → List Part
  | ⟨start, fallback, directive⟩ =>
    .element start :: fallback.toList.map Part.fallback ++ directive.parts

/-- The parts of a block. -/
def Content.parts : Content → List Part
  | ⟨preamble, lines⟩ => preambleParts preamble ++ linesParts lines

/-- The parts of a node. -/
def Node.parts : Node → List Part
  | .content start name preamble => .node start :: .name name :: preambleParts preamble
  | .block start body => .node start :: body.parts
  | .value start name => [.node start, .name name]
  | .text start keyword classes block elements =>
    .node start :: keyword.toList.map Part.keyword ++ classes.map Part.classRef ++
      blockParts block ++ elements.map TextElement.part
  | .read start classes block => .node start :: classes.map Part.classRef ++ blockParts block
  | .inclusion start classes block preamble =>
    .node start :: classes.map Part.classRef ++ blockParts block ++ preambleParts preamble
  | .typed start path classes block body =>
    .node start :: .path path :: classes.map Part.classRef ++ blockParts block ++ body.parts

/-- The parts of an element of a line. -/
def LineElement.parts : LineElement → List Part
  | .plain run => [.run run]
  | .escaped text => [.escaped text]
  | .node inner => inner.parts

/-- The parts of a preamble. -/
def preambleParts : List PreambleElement → List Part
  | [] => []
  | element :: rest => element.parts ++ preambleParts rest

/-- The parts of a line. -/
def lineParts : List LineElement → List Part
  | [] => []
  | element :: rest => element.parts ++ lineParts rest

/-- The parts of some lines. -/
def linesParts : List (List LineElement) → List Part
  | [] => []
  | line :: rest => lineParts line ++ linesParts rest

end

theorem preambleParts_eq (preamble : List PreambleElement) :
    preambleParts preamble = preamble.flatMap PreambleElement.parts := by
  induction preamble with
  | nil => rfl
  | cons element rest ih => rw [preambleParts, ih, List.flatMap_cons]

theorem lineParts_eq (line : List LineElement) :
    lineParts line = line.flatMap LineElement.parts := by
  induction line with
  | nil => rfl
  | cons element rest ih => rw [lineParts, ih, List.flatMap_cons]

theorem linesParts_eq (lines : List (List LineElement)) :
    linesParts lines = lines.flatMap lineParts := by
  induction lines with
  | nil => rfl
  | cons line rest ih => rw [linesParts, ih, List.flatMap_cons]

/-- What is listed line by line is what is listed element by element. -/
theorem listed_flatten {α β : Type} {ofElement : α → List β} {ofLine : List α → List β}
    {ofLines : List (List α) → List β} (lineNil : ofLine [] = [])
    (lineCons : ∀ element rest, ofLine (element :: rest) = ofElement element ++ ofLine rest)
    (linesNil : ofLines [] = [])
    (linesCons : ∀ line rest, ofLines (line :: rest) = ofLine line ++ ofLines rest)
    (lines : List (List α)) : ofLines lines = ofLine lines.flatten := by
  have append : ∀ line more, ofLine (line ++ more) = ofLine line ++ ofLine more := by
    intro line more
    induction line with
    | nil => rw [lineNil, List.nil_append, List.nil_append]
    | cons element rest ih => rw [List.cons_append, lineCons, lineCons, ih, List.append_assoc]
  induction lines with
  | nil => rw [linesNil, List.flatten_nil, lineNil]
  | cons line rest ih => rw [linesCons, ih, List.flatten_cons, append]

theorem linesParts_flatten (lines : List (List LineElement)) :
    linesParts lines = lineParts lines.flatten :=
  listed_flatten rfl (fun _ _ => rfl) rfl (fun _ _ => rfl) lines

/-! ### Positions -/

/-- The positions that a value records. -/
def Value.positions : Value → List Position
  | literal word => [word.start]
  | bound start name => [start, name.start]
  | escaped text => [text.start, text.text.start]

/-- The positions that a type path records. -/
def TypePath.positions : TypePath → List Position
  | absolute root steps => root.start :: steps.flatMap fun step => [step.start, step.name.start]
  | relative steps => steps.flatMap fun step => [step.start, step.name.start]

/-- The positions that a setting records. -/
def Setting.positions : Setting → List Position
  | pair name value => name.start :: value.positions
  | flag name => [name.start]
  | negated start name => [start, name.start]

/-- The positions that a part records. -/
def Part.positions : Part → List Position
  | node start => [start]
  | element start => [start]
  | fallback mark => [mark]
  | name word => [word.start]
  | keyword word => [word.start]
  | classRef used => [used.start, used.name.start]
  | path route => route.positions
  | block start => [start]
  | value given => given.positions
  | setting set => set.positions
  | run text => [text.start]
  | escaped text => [text.start, text.text.start]

/-- All positions that some parts record. -/
def positionsOf (parts : List Part) : List Position :=
  parts.flatMap Part.positions

/-- All positions that a tree records. -/
def Content.positions (content : Content) : List Position :=
  positionsOf content.parts

/-! ### What stands in the source -/

section Stands

variable (source : Cursor)

/-- A word is the longest text of allowed characters at its place, and not empty. -/
def Word.Stands (allowed : Char → Bool) (word : Word) : Prop :=
  source.Finds word.start fun there =>
    word.content.toList = there.rest.takeWhile allowed ∧ word.content.toList ≠ []

/-- Escaped text starts with its backtick. -/
def EscapedText.Stands (text : EscapedText) : Prop :=
  source.Finds text.start fun there =>
    there.head = some '\x60' ∧ text.text.start = there.position.after '\x60'

/-- A value starts with its own first character. -/
def Value.Stands : Value → Prop
  | literal word => word.Stands source isValueChar
  | bound start name => source.FindsChar start '<' ∧ name.Stands source isNameChar
  | escaped text => text.Stands source

/-- A setting has a name, and what else it has stands in the source. -/
def Setting.Stands : Setting → Prop
  | pair name value => name.Stands source isNameChar ∧ value.Stands source
  | flag name => name.Stands source isNameChar
  | negated start name => source.FindsChar start '!' ∧ name.Stands source isNameChar

/-- A step down is a backslash and a name. -/
def ChildStep.Stands (step : ChildStep) : Prop :=
  source.FindsChar step.start '\\' ∧ step.name.Stands source isNameChar

/-- A type path has a name, and its names stand in the source. -/
def TypePath.Stands : TypePath → Prop
  | absolute root steps =>
    root.Stands source isNameChar ∧ ∀ step ∈ steps, step.Stands source
  | relative steps => steps ≠ [] ∧ ∀ step ∈ steps, step.Stands source

/-- Text as it stands at its place: only its first character may be an opening bracket, and none of
its characters ends it. -/
def TextRun.Stands (run : TextRun) : Prop :=
  source.Finds run.start fun there => ∃ first more,
    run.content.toList = first :: more ∧ there.head = some first ∧
      (first = '[' ∨ Parser.endsText first = false) ∧
      ∀ c ∈ more, Parser.endsText c = false

/-- What a part records stands in the source. -/
def Part.Stands : Part → Prop
  | node start => source.FindsChar start '['
  | element start => source.FindsChar start '<'
  | fallback mark => source.FindsChar mark '?'
  | name word => word.Stands source isNameChar
  | keyword word => word.Stands source isNameChar
  | classRef used => source.FindsChar used.start '.' ∧ used.name.Stands source isNameChar
  | path route => route.Stands source
  | block start => source.FindsChar start '\x7b'
  | value given => given.Stands source
  | setting set => set.Stands source
  | run text => text.Stands source
  | escaped text => text.Stands source

/-- What some parts record stands in the source. -/
def AllStand (parts : List Part) : Prop :=
  ∀ part ∈ parts, part.Stands source

end Stands

namespace AllStand

variable {source : Cursor}

@[simp] theorem nil : AllStand source [] ↔ True := by
  simp [AllStand]

@[simp] theorem cons {part : Part} {parts : List Part} :
    AllStand source (part :: parts) ↔ part.Stands source ∧ AllStand source parts := by
  simp [AllStand]

@[simp] theorem append {parts more : List Part} :
    AllStand source (parts ++ more) ↔ AllStand source parts ∧ AllStand source more := by
  simp only [AllStand, List.mem_append, or_imp, forall_and]

theorem flatMap {α : Type} {view : α → List Part} {items : List α}
    (each : ∀ a ∈ items, AllStand source (view a)) : AllStand source (items.flatMap view) := by
  intro part member
  obtain ⟨a, inside, member⟩ := List.mem_flatMap.1 member
  exact each a inside part member

end AllStand

end TypedMarkup
