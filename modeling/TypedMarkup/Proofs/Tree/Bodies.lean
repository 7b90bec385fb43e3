/-
**Bound contents.** The contents that a tree binds, and what they use.

* `Content.bodies` lists the contents that the preambles of a block bind, at every depth: those of
  nested blocks, of includes and of uses, and those that bound contents bind in turn.
* `Throughout` says that all nodes of a tree have a property, and so do those that it binds.
* `Content.Shallow`: nothing in a block uses a bound content, outside the contents that it binds.
* `AllShallow` says so of some contents; if all that a tree binds are shallow, then so is every
  content that is reached from it by a use.
-/

import TypedMarkup.Proofs.Tree.Leaves

namespace TypedMarkup

/-! ### Bodies -/

mutual

/-- The contents that what a preamble element does binds. -/
def Directive.bodies : Directive → List Content
  | .content _ body => body :: body.bodies
  | .value _ _ | .bundle _ _ _ _ | .defaults _ _ _ => []

/-- The contents that a preamble element binds. -/
def PreambleElement.bodies : PreambleElement → List Content
  | ⟨_, _, directive⟩ => directive.bodies

/-- The contents that a block binds. -/
def Content.bodies : Content → List Content
  | ⟨preamble, lines⟩ => preambleBodies preamble ++ linesBodies lines

/-- The contents that a node binds. -/
def Node.bodies : Node → List Content
  | .content _ _ preamble => preambleBodies preamble
  | .block _ body => body.bodies
  | .inclusion _ _ _ preamble => preambleBodies preamble
  | .typed _ _ _ _ body => body.bodies
  | .value _ _ | .text _ _ _ _ _ | .read _ _ _ => []

/-- The contents that an element of a line binds. -/
def LineElement.bodies : LineElement → List Content
  | .plain _ | .escaped _ => []
  | .node inner => inner.bodies

/-- The contents that a preamble binds. -/
def preambleBodies : List PreambleElement → List Content
  | [] => []
  | element :: rest => element.bodies ++ preambleBodies rest

/-- The contents that a line binds. -/
def lineBodies : List LineElement → List Content
  | [] => []
  | element :: rest => element.bodies ++ lineBodies rest

/-- The contents that some lines bind. -/
def linesBodies : List (List LineElement) → List Content
  | [] => []
  | line :: rest => lineBodies line ++ linesBodies rest

end

/-- What a preamble binds, its elements bind. -/
theorem bodies_subset_preambleBodies {element : PreambleElement} {preamble : List PreambleElement}
    (member : element ∈ preamble) : element.bodies ⊆ preambleBodies preamble := by
  induction preamble with
  | nil => cases member
  | cons first rest ih =>
    rw [preambleBodies]
    rcases List.mem_cons.1 member with rfl | later
    · exact List.subset_append_left _ _
    · exact List.subset_append_of_subset_right _ (ih later)

theorem linesBodies_flatten (lines : List (List LineElement)) :
    linesBodies lines = lineBodies lines.flatten :=
  listed_flatten rfl (fun _ _ => rfl) rfl (fun _ _ => rfl) lines

/-! ### Whole trees -/

/-- A property of all nodes of a tree, those of the contents that it binds included. -/
structure Throughout (holds : Node → Prop) (nodes : List Node) (bodies : List Content) : Prop where
  nodes : ∀ node ∈ nodes, holds node
  bodies : ∀ body ∈ bodies, ∀ node ∈ body.nodes, holds node

namespace Throughout

variable {holds holds' : Node → Prop} {nodes more : List Node} {bodies bodies' : List Content}

theorem append : Throughout holds (nodes ++ more) (bodies ++ bodies') ↔
    Throughout holds nodes bodies ∧ Throughout holds more bodies' := by
  constructor
  · intro all
    obtain ⟨here, later⟩ := List.forall_mem_append.1 all.nodes
    obtain ⟨here', later'⟩ := List.forall_mem_append.1 all.bodies
    exact ⟨⟨here, here'⟩, later, later'⟩
  · rintro ⟨first, second⟩
    exact ⟨List.forall_mem_append.2 ⟨first.nodes, second.nodes⟩,
      List.forall_mem_append.2 ⟨first.bodies, second.bodies⟩⟩

theorem mono (all : Throughout holds nodes bodies) (weaken : ∀ node, holds node → holds' node) :
    Throughout holds' nodes bodies := by
  constructor
  · intro node member
    exact weaken node (all.nodes node member)
  · intro body member node inside
    exact weaken node (all.bodies body member node inside)

/-- A property of all nodes at all is one of those of a tree. -/
theorem of_forall (all : ∀ node, holds node) : Throughout holds nodes bodies :=
  ⟨fun node _ => all node, fun _ _ node _ => all node⟩

theorem tail {node : Node} (all : Throughout holds (node :: nodes) bodies) :
    Throughout holds nodes bodies :=
  ⟨fun node member => all.nodes node (List.mem_cons_of_mem _ member), all.bodies⟩

/-- What holds throughout a block holds throughout its preamble and throughout its lines. -/
theorem content {content : Content} (all : Throughout holds content.nodes content.bodies) :
    Throughout holds [] (preambleBodies content.preamble) ∧
      Throughout holds (linesNodes content.lines) (linesBodies content.lines) := by
  obtain ⟨preamble, lines⟩ := content
  rw [Content.nodes, Content.bodies, ← List.nil_append (linesNodes lines)] at all
  exact append.1 all

/-- What holds throughout a preamble holds throughout every content that it binds. -/
theorem bound {preamble : List PreambleElement}
    (all : Throughout holds [] (preambleBodies preamble)) {element : PreambleElement}
    (member : element ∈ preamble) {name : Word} {body : Content}
    (binds : element.directive = .content name body) : Throughout holds body.nodes body.bodies := by
  obtain ⟨start, fallback, directive⟩ := element
  cases binds
  have inside : body :: body.bodies ⊆ preambleBodies preamble := bodies_subset_preambleBodies member
  exact ⟨all.bodies body (inside List.mem_cons_self),
    fun other found => all.bodies other (inside (List.mem_cons_of_mem _ found))⟩

end Throughout

/-! ### Uses -/

/-- Whether a node uses a bound content. -/
def Node.isUse : Node → Bool
  | .content _ _ _ => true
  | .block _ _ | .value _ _ | .text _ _ _ _ _ | .read _ _ _ | .inclusion _ _ _ _
  | .typed _ _ _ _ _ => false

/-- Nothing in a block uses a bound content. The contents that the block binds are not looked into:
they are in `Content.bodies`. -/
def Content.Shallow (content : Content) : Prop :=
  ∀ node ∈ content.nodes, node.isUse = false

/-- Nothing in some contents uses a bound content. -/
def AllShallow (bodies : List Content) : Prop :=
  ∀ body ∈ bodies, body.Shallow

namespace AllShallow

@[simp] theorem nil : AllShallow [] ↔ True := by
  simp [AllShallow]

@[simp] theorem cons {body : Content} {bodies : List Content} :
    AllShallow (body :: bodies) ↔ body.Shallow ∧ AllShallow bodies := by
  simp [AllShallow]

@[simp] theorem append {bodies more : List Content} :
    AllShallow (bodies ++ more) ↔ AllShallow bodies ∧ AllShallow more := by
  simp only [AllShallow, List.mem_append, or_imp, forall_and]

theorem subset {bodies more : List Content} (all : AllShallow bodies) (inside : more ⊆ bodies) :
    AllShallow more :=
  fun body member => all body (inside member)

/-- A content that a preamble binds is shallow, and so is all that it binds. -/
theorem bound {preamble : List PreambleElement} (all : AllShallow (preambleBodies preamble))
    {element : PreambleElement} (member : element ∈ preamble) {name : Word} {body : Content}
    (binds : element.directive = .content name body) : AllShallow (body :: body.bodies) := by
  obtain ⟨start, fallback, directive⟩ := element
  cases binds
  exact all.subset (bodies_subset_preambleBodies member)

end AllShallow

end TypedMarkup
