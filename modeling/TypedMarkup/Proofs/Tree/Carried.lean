/-
**What leaves its file.** Two kinds of markup are resolved away from the file they stand in: the
preamble of an include, which is for the included file, and the body of a bound content, which goes
wherever its name is used.

* `Content.carried` lists the parts of a tree inside such markup, at every depth.
* `Content.carried_subset`: they are parts of the tree.
* `AllKnown.self`: what a tree records is all that its parts can be blamed at, as every path of a
  source has a name.
-/

import TypedMarkup.Proofs.Environment.Beside

namespace TypedMarkup

/-- The parts of a preamble element inside a bound content. -/
def PreambleElement.carried (element : PreambleElement) : List Part :=
  match element.directive with
  | .content _ body => body.parts
  | .value _ _ | .bundle _ _ _ _ | .defaults _ _ _ => []

/-- The parts of a preamble inside bound contents. -/
def preambleCarried (preamble : List PreambleElement) : List Part :=
  preamble.flatMap PreambleElement.carried

mutual

/-- The parts of a block that leave its file. -/
def Content.carried : Content → List Part
  | ⟨preamble, lines⟩ => preambleCarried preamble ++ linesCarried lines

/-- The parts of a node that leave its file. -/
def Node.carried : Node → List Part
  | .content _ _ preamble => preambleCarried preamble
  | .block _ body => body.carried
  | .inclusion _ _ _ preamble => preambleParts preamble
  | .typed _ _ _ _ body => body.carried
  | .value _ _ | .text _ _ _ _ _ | .read _ _ _ => []

/-- The parts of an element that leave its file. -/
def LineElement.carried : LineElement → List Part
  | .plain _ | .escaped _ => []
  | .node inner => inner.carried

/-- The parts of a line that leave its file. -/
def lineCarried : List LineElement → List Part
  | [] => []
  | element :: rest => element.carried ++ lineCarried rest

/-- The parts of some lines that leave their file. -/
def linesCarried : List (List LineElement) → List Part
  | [] => []
  | line :: rest => lineCarried line ++ linesCarried rest

end

theorem linesCarried_flatten (lines : List (List LineElement)) :
    linesCarried lines = lineCarried lines.flatten :=
  listed_flatten rfl (fun _ _ => rfl) rfl (fun _ _ => rfl) lines

/-- The positions of a tree that leave its file. -/
def Content.carriedPositions (tree : Content) : List Position :=
  positionsOf tree.carried

/-! ### Inside the tree -/

theorem append_subset_append {first first' rest rest' : List Part} (here : first ⊆ first')
    (later : rest ⊆ rest') : first ++ rest ⊆ first' ++ rest' := by
  refine List.append_subset.2 ⟨?_, ?_⟩
  · exact List.subset_append_of_subset_left rest' here
  · exact List.subset_append_of_subset_right first' later

theorem preambleCarried_subset (preamble : List PreambleElement) :
    preambleCarried preamble ⊆ preambleParts preamble := by
  rw [preambleParts_eq]
  intro part member
  obtain ⟨element, inside, member⟩ := List.mem_flatMap.1 member
  refine List.mem_flatMap.2 ⟨element, inside, ?_⟩
  obtain ⟨start, fallback, directive⟩ := element
  cases directive with
  | content name body =>
    exact List.mem_append_right _ (List.mem_cons_of_mem _ member)
  | value name value => cases member
  | bundle declared targets uses block => cases member
  | defaults targets uses block => cases member

mutual

/-- What leaves the file of a block is part of the block. -/
theorem Content.carried_subset : ∀ content : Content, content.carried ⊆ content.parts
  | ⟨preamble, lines⟩ => by
    rw [Content.carried, Content.parts]
    exact append_subset_append (preambleCarried_subset preamble) (linesCarried_subset lines)

theorem Node.carried_subset : ∀ node : Node, node.carried ⊆ node.parts
  | .content _ _ preamble => fun _ member =>
    List.mem_cons_of_mem _ (List.mem_cons_of_mem _ (preambleCarried_subset preamble member))
  | .block _ body => fun _ member => List.mem_cons_of_mem _ (body.carried_subset member)
  | .inclusion _ _ _ _ => fun _ member => List.mem_append_right _ member
  | .typed _ _ _ _ body => fun _ member => List.mem_append_right _ (body.carried_subset member)
  | .value _ _ | .text _ _ _ _ _ | .read _ _ _ => fun _ member => nomatch member

theorem LineElement.carried_subset : ∀ element : LineElement, element.carried ⊆ element.parts
  | .plain _ | .escaped _ => fun _ member => nomatch member
  | .node inner => inner.carried_subset

theorem lineCarried_subset : ∀ line : List LineElement, lineCarried line ⊆ lineParts line
  | [] => fun _ member => member
  | element :: rest => by
    rw [lineCarried, lineParts]
    exact append_subset_append element.carried_subset (lineCarried_subset rest)

theorem linesCarried_subset : ∀ lines : List (List LineElement),
    linesCarried lines ⊆ linesParts lines
  | [] => fun _ member => member
  | line :: rest => by
    rw [linesCarried, linesParts]
    exact append_subset_append (lineCarried_subset line) (linesCarried_subset rest)

end

/-! ### Known places -/

namespace AllKnown

variable {known known' : Position → Prop} {parts more : List Part}

theorem subset (all : AllKnown known parts) (inside : more ⊆ parts) : AllKnown known more :=
  fun part member => all part (inside member)

theorem mono (all : AllKnown known parts) (weaken : ∀ position, known position → known' position) :
    AllKnown known' parts := by
  intro part member
  have here := all part member
  cases part with
  | path route => exact ⟨weaken _ here.1, fun position inside => weaken _ (here.2 position inside)⟩
  | _ => exact fun position inside => weaken _ (here position inside)

/-- The places of parts that stand in a source are the positions they record. -/
theorem self {source : Cursor} (stand : AllStand source parts) :
    AllKnown (fun position => position ∈ positionsOf parts) parts := by
  intro part member
  have recorded : ∀ position ∈ part.positions, position ∈ positionsOf parts :=
    fun position inside => List.mem_flatMap.2 ⟨part, member, inside⟩
  have here := stand part member
  cases part with
  | path route =>
    refine ⟨recorded _ ?_, recorded⟩
    cases route with
    | absolute root steps => exact List.mem_cons_self
    | relative steps =>
      cases steps with
      | nil => exact absurd rfl here.1
      | cons step rest => exact List.mem_cons_self
  | _ => exact recorded

end AllKnown

/-- An element starts at a place of its parts. -/
theorem LineElement.start_known {known : Position → Prop} {element : LineElement}
    (all : AllKnown known element.parts) : known element.start := by
  cases element with
  | plain run => exact all _ List.mem_cons_self _ List.mem_cons_self
  | escaped text => exact all _ List.mem_cons_self _ List.mem_cons_self
  | node inner =>
    cases inner <;> exact all (.node _) List.mem_cons_self _ List.mem_cons_self

end TypedMarkup
