/-
**What a tree stands for.** The texts that a tree puts into the output, read off the tree alone: no
types, no slots, no paragraphs.

* `valuesAfter` follows the values that are bound through a preamble.
* `Content.leaves` lists the texts of a block in the order of the source: one for each piece of
  text, one for each text node, and one for each use of a bound value.
* `Content.nodes` lists the nodes of a block at every depth, bound contents left out.
-/

import TypedMarkup.Environment
import TypedMarkup.Proofs.Tree.Part

namespace TypedMarkup

/-! ### Values -/

/-- The text of a value; the empty text if it is not bound. -/
def Value.textIn (values : Bindings String) : Value → String
  | literal word => word.content
  | bound _ name => (values.get? name.content).getD ""
  | escaped text => text.text.content

/-- The values that are bound behind a preamble element. -/
def valuesBehind (values : Bindings String) (element : PreambleElement) : Bindings String :=
  match element.directive with
  | .value name value =>
    if element.fallback.isSome && (values.get? name.content).isSome then values
    else (name.content, value.textIn values) :: values
  | .content _ _ | .bundle _ _ _ _ | .defaults _ _ _ => values

/-- The values that are bound after a preamble. -/
def valuesAfter (values : Bindings String) (preamble : List PreambleElement) : Bindings String :=
  preamble.foldl valuesBehind values

/-! ### Leaves -/

mutual

/-- The texts of a block. -/
def Content.leaves (values : Bindings String) : Content → List String
  | ⟨preamble, lines⟩ => linesLeaves (valuesAfter values preamble) lines

/-- The texts of a node. What a node that refers to a content or a file stands for does not show in
the tree. -/
def Node.leaves (values : Bindings String) : Node → List String
  | .block _ body => body.leaves values
  | .value _ name => (values.get? name.content).toList
  | .text _ _ _ _ elements => [String.join (elements.map TextElement.content)]
  | .typed _ _ _ _ body => body.leaves values
  | .content _ _ _ | .inclusion _ _ _ _ | .read _ _ _ => []

/-- The texts of an element of a line. -/
def LineElement.leaves (values : Bindings String) : LineElement → List String
  | .plain run => [run.content]
  | .escaped text => [text.text.content]
  | .node inner => inner.leaves values

/-- The texts of a line. -/
def lineLeaves (values : Bindings String) : List LineElement → List String
  | [] => []
  | element :: rest => element.leaves values ++ lineLeaves values rest

/-- The texts of some lines. -/
def linesLeaves (values : Bindings String) : List (List LineElement) → List String
  | [] => []
  | line :: rest => lineLeaves values line ++ linesLeaves values rest

end

theorem linesLeaves_flatten (values : Bindings String) (lines : List (List LineElement)) :
    linesLeaves values lines = lineLeaves values lines.flatten :=
  listed_flatten rfl (fun _ _ => rfl) rfl (fun _ _ => rfl) lines

/-! ### Nodes -/

mutual

/-- The nodes of a block at every depth. -/
def Content.nodes : Content → List Node
  | ⟨_, lines⟩ => linesNodes lines

/-- A node and those inside it. -/
def Node.nodes : Node → List Node
  | .block start body => .block start body :: body.nodes
  | .typed start path classes block body => .typed start path classes block body :: body.nodes
  | .content start name preamble => [.content start name preamble]
  | .value start name => [.value start name]
  | .text start keyword classes block elements => [.text start keyword classes block elements]
  | .read start classes block => [.read start classes block]
  | .inclusion start classes block preamble => [.inclusion start classes block preamble]

/-- The nodes of an element of a line. -/
def LineElement.nodes : LineElement → List Node
  | .plain _ | .escaped _ => []
  | .node inner => inner.nodes

/-- The nodes of a line. -/
def lineNodes : List LineElement → List Node
  | [] => []
  | element :: rest => element.nodes ++ lineNodes rest

/-- The nodes of some lines. -/
def linesNodes : List (List LineElement) → List Node
  | [] => []
  | line :: rest => lineNodes line ++ linesNodes rest

end

theorem linesNodes_flatten (lines : List (List LineElement)) :
    linesNodes lines = lineNodes lines.flatten :=
  listed_flatten rfl (fun _ _ => rfl) rfl (fun _ _ => rfl) lines

/-- Whether a node stands for itself: it uses no bound content and no file. -/
def Node.isOwn : Node → Bool
  | .block _ _ | .value _ _ | .text _ _ _ _ _ | .typed _ _ _ _ _ => true
  | .content _ _ _ | .inclusion _ _ _ _ | .read _ _ _ => false

/-- All nodes stand for themselves. -/
def AllOwn (nodes : List Node) : Prop :=
  ∀ node ∈ nodes, node.isOwn = true

namespace AllOwn

@[simp] theorem append {nodes more : List Node} :
    AllOwn (nodes ++ more) ↔ AllOwn nodes ∧ AllOwn more := by
  simp only [AllOwn, List.mem_append, or_imp, forall_and]

end AllOwn

end TypedMarkup
