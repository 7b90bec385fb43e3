/-
**Trees up to labels.** Two sources may differ in ways that show only in the places that their trees
record, or in how line ends are written inside escaped text.

* `Position.View` is what is looked at of a position: all of it, only line and column, or nothing.
* `Content.relabel view shown` is a tree in which every position is replaced by what is looked at of
  it, and what escaped text stands for is rewritten by `shown`.
-/

import TypedMarkup.Tree

namespace TypedMarkup

/-! ### Positions -/

/-- What is looked at of a position. The place behind a character looks alike if the place of the
character does. -/
structure Position.View where
  of : Position → Position
  after : ∀ {p q : Position} (c : Char), of p = of q → of (p.after c) = of (q.after c)

namespace Position.View

/-- All of a position. -/
def whole : View where
  of := id
  after c same := congrArg (Position.after · c) same

/-- Line and column. -/
def lineAndColumn : View where
  of p := { p with offset := 0 }
  after {p q} c same := by
    simp only [Position.mk.injEq] at same
    obtain ⟨line, col, _⟩ := same
    unfold Position.after
    split <;> simp [line, col]

/-- Nothing of a position. -/
def blind : View where
  of _ := Position.start
  after _ _ := rfl

end Position.View

/-! ### Trees -/

section Leaves

variable (view : Position.View) (shown : String → String)

def Word.relabel (word : Word) : Word :=
  ⟨word.content, view.of word.start⟩

def TextRun.relabel (run : TextRun) : TextRun :=
  ⟨run.content, view.of run.start⟩

def EscapedText.relabel (text : EscapedText) : EscapedText :=
  ⟨view.of text.start, ⟨shown text.text.content, view.of text.text.start⟩⟩

def Value.relabel : Value → Value
  | literal word => literal (word.relabel view)
  | bound start name => bound (view.of start) (name.relabel view)
  | escaped text => escaped (text.relabel view shown)

def ClassRef.relabel (used : ClassRef) : ClassRef :=
  ⟨view.of used.start, used.name.relabel view⟩

def Setting.relabel : Setting → Setting
  | pair name value => pair (name.relabel view) (value.relabel view shown)
  | flag name => flag (name.relabel view)
  | negated start name => negated (view.of start) (name.relabel view)

def PropertyBlock.relabel (block : PropertyBlock) : PropertyBlock :=
  ⟨view.of block.start, block.main.map (Value.relabel view shown),
    block.settings.map (Setting.relabel view shown)⟩

def ChildStep.relabel (step : ChildStep) : ChildStep :=
  ⟨view.of step.start, step.name.relabel view⟩

def TypePath.relabel : TypePath → TypePath
  | absolute root steps => absolute (root.relabel view) (steps.map (ChildStep.relabel view))
  | relative steps => relative (steps.map (ChildStep.relabel view))

def TextElement.relabel : TextElement → TextElement
  | plain run => plain (run.relabel view)
  | escaped text => escaped (text.relabel view shown)

end Leaves

section Blocks

variable (view : Position.View) (shown : String → String)

mutual

def Directive.relabel : Directive → Directive
  | .value name value => .value (name.relabel view) (value.relabel view shown)
  | .content name body => .content (name.relabel view) body.relabel
  | .bundle declared targets uses block =>
    .bundle (declared.relabel view) (targets.map (TypePath.relabel view))
      (uses.map (ClassRef.relabel view)) (block.map (PropertyBlock.relabel view shown))
  | .defaults targets uses block =>
    .defaults (targets.map (TypePath.relabel view)) (uses.map (ClassRef.relabel view))
      (block.map (PropertyBlock.relabel view shown))

def PreambleElement.relabel : PreambleElement → PreambleElement
  | ⟨start, fallback, directive⟩ => ⟨view.of start, fallback.map view.of, directive.relabel⟩

/-- A block in which positions and escaped texts are replaced. -/
def Content.relabel : Content → Content
  | ⟨preamble, lines⟩ => ⟨relabelPreamble preamble, relabelLines lines⟩

def Node.relabel : Node → Node
  | .content start name preamble =>
    .content (view.of start) (name.relabel view) (relabelPreamble preamble)
  | .block start body => .block (view.of start) body.relabel
  | .value start name => .value (view.of start) (name.relabel view)
  | .text start keyword classes block elements =>
    .text (view.of start) (keyword.map (Word.relabel view)) (classes.map (ClassRef.relabel view))
      (block.map (PropertyBlock.relabel view shown))
      (elements.map (TextElement.relabel view shown))
  | .read start classes block =>
    .read (view.of start) (classes.map (ClassRef.relabel view))
      (block.map (PropertyBlock.relabel view shown))
  | .inclusion start classes block preamble =>
    .inclusion (view.of start) (classes.map (ClassRef.relabel view))
      (block.map (PropertyBlock.relabel view shown)) (relabelPreamble preamble)
  | .typed start path classes block body =>
    .typed (view.of start) (path.relabel view) (classes.map (ClassRef.relabel view))
      (block.map (PropertyBlock.relabel view shown)) body.relabel

def LineElement.relabel : LineElement → LineElement
  | .plain run => .plain (run.relabel view)
  | .escaped text => .escaped (text.relabel view shown)
  | .node inner => .node inner.relabel

def relabelPreamble : List PreambleElement → List PreambleElement
  | [] => []
  | element :: rest => element.relabel :: relabelPreamble rest

def relabelLine : List LineElement → List LineElement
  | [] => []
  | element :: rest => element.relabel :: relabelLine rest

def relabelLines : List (List LineElement) → List (List LineElement)
  | [] => []
  | line :: rest => relabelLine line :: relabelLines rest

end

theorem relabelPreamble_eq (preamble : List PreambleElement) :
    relabelPreamble view shown preamble = preamble.map (PreambleElement.relabel view shown) := by
  induction preamble with
  | nil => rfl
  | cons element rest ih => rw [relabelPreamble, ih, List.map_cons]

theorem relabelLine_eq (line : List LineElement) :
    relabelLine view shown line = line.map (LineElement.relabel view shown) := by
  induction line with
  | nil => rfl
  | cons element rest ih => rw [relabelLine, ih, List.map_cons]

theorem relabelLines_eq (lines : List (List LineElement)) :
    relabelLines view shown lines = lines.map (List.map (LineElement.relabel view shown)) := by
  induction lines with
  | nil => rfl
  | cons line rest ih => rw [relabelLines, ih, relabelLine_eq, List.map_cons]

end Blocks

end TypedMarkup
