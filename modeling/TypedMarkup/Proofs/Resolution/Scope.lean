/-
**What a declaration reaches.** A preamble holds for its own block, from where it stands to the end:
nothing that a line declares comes back out of it, neither to other lines nor to the node around it.

* `Resolver.block_append`: a block can be cut, in its preamble and between its lines.
* `Environment.nodeProperties_within`: a node has the properties that the environment around it
  gives.
* `resolveWithin_scopes` puts this together, and says what follows for a line that is replaced.
-/

import TypedMarkup.Expansion.Stock
import TypedMarkup.Proofs.Environment.Cascade
import TypedMarkup.Proofs.Environment.Rebinding
import TypedMarkup.Proofs.Resolution.Paragraphs
import TypedMarkup.Proofs.Resolution.RunEnds
import TypedMarkup.Resolution

namespace TypedMarkup

open Output (Line)

/-! ### Properties -/

namespace Environment

variable {env : Environment} {type : TypeId} {classes : List ClassRef}
  {block : Option PropertyBlock}

theorem takes_within (inside : TypeId) :
    (env.within inside).Takes type classes block ↔ env.Takes type classes block := by
  constructor
  · rintro ⟨eligible, fits⟩
    exact ⟨⟨eligible.classes, eligible.main⟩, fits⟩
  · rintro ⟨eligible, fits⟩
    exact ⟨⟨eligible.classes, eligible.main⟩, fits⟩

/-- Classes, defaults and values are the same inside of a node as around it. Errors are not, since
they tell the environment. -/
theorem nodeProperties_within (inside : TypeId) (properties : Properties) :
    (env.within inside).nodeProperties type classes block = .ok properties ↔
      env.nodeProperties type classes block = .ok properties := by
  rw [(nodeProperties_checks block).eq_ok_iff, (nodeProperties_checks block).eq_ok_iff,
    nodeFaults_eq_nil_iff, nodeFaults_eq_nil_iff, takes_within]
  exact Iff.rfl

end Environment

/-- A node has its type and the properties that an environment gives to it. -/
def Output.Node.StyledBy (env : Environment) (type : TypeId) (classes : List ClassRef)
    (block : Option PropertyBlock) (node : Output.Node) : Prop :=
  node.type = type ∧ env.nodeProperties type classes block = .ok node.properties

/-! ### Blocks -/

namespace Resolver

variable {resolver : Resolver} {env : Environment} {type : TypeId}
  {classes : List ClassRef} {block : Option PropertyBlock}

theorem lines_append (ahead behind : List (List LineElement)) :
    resolver.lines env (ahead ++ behind) = (do
      let first ← resolver.lines env ahead
      let second ← resolver.lines env behind
      return first ++ second) := by
  induction ahead with
  | nil => simp [Resolver.lines]
  | cons line rest ih =>
    simp only [List.cons_append, Resolver.lines, ih, bind_assoc, pure_bind, List.append_assoc]

/-- A block without a preamble. -/
theorem block_nil (lines : List (List LineElement)) (implied : Bool) :
    resolver.block env ⟨[], lines⟩ implied = (do
      let resolved ← resolver.lines env lines
      return if implied then env.gather resolved else resolved) :=
  pure_bind env _

theorem block_lines_append (ahead behind : List (List LineElement)) (implied : Bool) :
    resolver.block env ⟨[], ahead ++ behind⟩ implied = (do
      let first ← resolver.block env ⟨[], ahead⟩ implied
      let second ← resolver.block env ⟨[], behind⟩ implied
      return first ++ second) := by
  rw [block_nil, block_nil, block_nil, lines_append]
  cases implied with
  | false => simp
  | true => simp [Environment.gather_append]

/-- The preamble of a block makes one environment, in which the lines are resolved. -/
theorem block_eq (preamble : List PreambleElement) (lines : List (List LineElement))
    (implied : Bool) :
    resolver.block env ⟨preamble, lines⟩ implied = (do
      let inner ← Run.ofExcept (env.applyPreamble preamble)
      resolver.block inner ⟨[], lines⟩ implied) := by
  simp only [block_nil]
  rfl

/-- **A block can be cut** in its preamble and between its lines. -/
theorem block_append (front back : List PreambleElement) (ahead behind : List (List LineElement))
    (implied : Bool) :
    resolver.block env ⟨front ++ back, ahead ++ behind⟩ implied = (do
      let middle ← Run.ofExcept (env.applyPreamble front)
      let inner ← Run.ofExcept (middle.applyPreamble back)
      let first ← resolver.block inner ⟨[], ahead⟩ implied
      let second ← resolver.block inner ⟨[], behind⟩ implied
      return first ++ second) := by
  rw [block_eq, Environment.applyPreamble_append, Run.ofExcept_bind, bind_assoc]
  simp only [block_lines_append]

/-- A block has a result if its preamble and its lines have one. -/
theorem block_eq_ok {preamble : List PreambleElement} {before after : List (List LineElement)}
    {line : List LineElement} {implied : Bool} {lines : List Line} :
    (resolver.block env ⟨preamble, before ++ line :: after⟩ implied).outcome = .ok lines ↔
      ∃ inner, env.applyPreamble preamble = .ok inner ∧
        ∃ ahead, (resolver.block inner ⟨[], before⟩ implied).outcome = .ok ahead ∧
        ∃ shown, (resolver.block inner ⟨[], [line]⟩ implied).outcome = .ok shown ∧
        ∃ behind, (resolver.block inner ⟨[], after⟩ implied).outcome = .ok behind ∧
          ahead ++ (shown ++ behind) = lines := by
  have cut : before ++ line :: after = before ++ ([line] ++ after) := rfl
  rw [block_eq, cut]
  simp only [block_lines_append, bind_assoc, pure_bind, Run.outcome_bind_eq_ok,
    Run.outcome_ofExcept_eq_ok, Run.outcome_pure_eq_ok]

/-! ### Nodes -/

theorem nodeProperties_styled (env : Environment) (inside type : TypeId) (classes : List ClassRef)
    (block : Option PropertyBlock) (make : Properties → Output.Node)
    (made : ∀ properties, (make properties).type = type ∧ (make properties).properties = properties) :
    (do
      let properties ← Run.ofExcept ((env.within inside).nodeProperties type classes block)
      return make properties : Run Output.Node).Ends (Output.Node.StyledBy env type classes block)
        fun _ => True := by
  refine (Run.Ends.ofExcept (.any _)).bind fun properties found => ?_
  refine ⟨(made properties).1, ?_⟩
  rw [(made properties).2]
  exact (Environment.nodeProperties_within inside properties).1 found

theorem listNode_styled (shape : ListType) (start : Position) (content : Content) :
    (resolver.listNode env type shape start classes block content).Ends
      (Output.Node.StyledBy env type classes block) fun _ => True := by
  unfold listNode
  refine (Run.Ends.any _).bind fun lines _ => ?_
  have finish := nodeProperties_styled env type type classes block
    (fun properties => .list type properties lines.flatten) fun _ => ⟨rfl, rfl⟩
  dsimp only
  split
  · split
    · trivial
    · exact finish
  · exact finish

theorem mapNode_styled (shape : MapType) (content : Content) :
    (resolver.mapNode (env.within type) type shape classes block content).Ends
      (Output.Node.StyledBy env type classes block) fun _ => True := by
  unfold mapNode
  refine (Run.Ends.any _).bind fun inner _ => ?_
  have finish := fun nodes => nodeProperties_styled env type type classes block
    (fun properties => .map type properties ((env.within type).slotsOf shape nodes)) fun _ => ⟨rfl, rfl⟩
  cases shape.mainSlot with
  | none => exact (Run.Ends.any _).bind fun nodes _ => finish nodes
  | some main => exact (Run.Ends.any _).bind fun lines _ => finish _

theorem typedNode_styled {expanders : Expanders}
    (kind : (env.registry.get type).list?.isSome = true ∨ (env.registry.get type).map?.isSome = true)
    (start : Position) (content : Content) :
    (resolver.typedNode expanders env type start classes block content).Ends
      (fun lines => ∃ node : Output.Node, lines = [[node]] ∧ node.StyledBy env type classes block)
      fun _ => True := by
  unfold NodeType.list? NodeType.map? at kind
  unfold typedNode
  cases same : (env.registry.get type).kind with
  | list shape =>
    exact (listNode_styled shape start content).bind fun node styled => ⟨node, rfl, styled⟩
  | map shape => exact (mapNode_styled shape content).bind fun node styled => ⟨node, rfl, styled⟩
  | preExpander _ | postExpander _ | text | misc =>
    rw [same] at kind
    simp at kind

end Resolver

/-! ### Documents -/

/-- **Blocks are scopes.** A block can be cut in its preamble and between its lines: the whole
preamble holds for either part of the lines, their output is put together, and what fails first
counts. So a line that is replaced changes nothing but its own output, and a list or a map has the
properties that the environment around it gives, whatever is declared inside. -/
theorem resolveWithin_scopes (depth : Nat) (expanders : Expanders) (env : Environment) :
    (∀ front back ahead behind implied,
      resolveWithin depth expanders env ⟨front ++ back, ahead ++ behind⟩ implied = (do
        let middle ← Run.ofExcept (env.applyPreamble front)
        let inner ← Run.ofExcept (middle.applyPreamble back)
        let first ← resolveWithin depth expanders inner ⟨[], ahead⟩ implied
        let second ← resolveWithin depth expanders inner ⟨[], behind⟩ implied
        return first ++ second)) ∧
    (∀ preamble before old after implied lines,
      (resolveWithin depth expanders env ⟨preamble, before ++ old :: after⟩ implied).outcome =
        .ok lines →
      ∃ inner ahead shown behind, env.applyPreamble preamble = .ok inner ∧
        (resolveWithin depth expanders inner ⟨[], before⟩ implied).outcome = .ok ahead ∧
        (resolveWithin depth expanders inner ⟨[], [old]⟩ implied).outcome = .ok shown ∧
        (resolveWithin depth expanders inner ⟨[], after⟩ implied).outcome = .ok behind ∧
        lines = ahead ++ (shown ++ behind) ∧
        ∀ new replaced,
          (resolveWithin depth expanders inner ⟨[], [new]⟩ implied).outcome = .ok replaced →
          (resolveWithin depth expanders env ⟨preamble, before ++ new :: after⟩ implied).outcome =
            .ok (ahead ++ (replaced ++ behind))) ∧
    (∀ start path classes block content type lines, env.resolvePath path = .ok type →
      ((env.registry.get type).list?.isSome = true ∨ (env.registry.get type).map?.isSome = true) →
      (Resolver.ofDepth expanders (depth + 1) env
        (.node (.typed start path classes block content))).outcome = .ok lines →
      ∃ node : Output.Node, lines = [[node]] ∧ node.StyledBy env type classes block) := by
  refine ⟨fun _ _ _ _ _ => Resolver.block_append .., fun preamble before old after implied lines
    resolved => ?_, fun start path classes block content type lines leads kind resolved => ?_⟩
  · obtain ⟨inner, applied, ahead, first, shown, here, behind, last, whole⟩ :=
      Resolver.block_eq_ok.1 resolved
    refine ⟨inner, ahead, shown, behind, applied, first, here, last, whole.symm,
      fun new replaced there => ?_⟩
    exact Resolver.block_eq_ok.2 ⟨inner, applied, ahead, first, replaced, there, behind, last, rfl⟩
  · have typed : (Run.ofExcept (env.resolvePath path) >>= fun type =>
        (Resolver.ofDepth expanders depth).typedNode expanders env type start classes block
          content).outcome = .ok lines := resolved
    rw [leads, Run.outcome_bind_of_ok rfl] at typed
    exact (Resolver.typedNode_styled kind start content).of_ok typed

/-- A line that binds a name again changes no other line, and code has no language though its own
preamble gives one to all code. -/
theorem resolveWithin_scopes_code :
    let here := Position.start
    let word (text : String) : Word := ⟨text, here⟩
    let env := Environment.ofFile Reader.nothing "" codeRegistry
    let bind (text : String) : List PreambleElement :=
      [⟨here, none, .value (word "x") (.literal (word text))⟩]
    let use : List LineElement := [.node (.value here (word "x"))]
    let again : List LineElement := [.node (.block here ⟨bind "b", [use]⟩)]
    let code : TypePath := .absolute (word "box") [⟨here, word "code"⟩]
    let rust : PropertyBlock := ⟨here, some (.literal (word "rust")), []⟩
    let inside : Content := ⟨[⟨here, none, .defaults [code] [] (some rust)⟩], []⟩
    (resolveWithin 2 Expansion.stock env ⟨bind "a", [use, again, use]⟩ false).outcome =
      .ok [[env.textNode "a"], [env.textNode "b"], [env.textNode "a"]] ∧
    ∃ node, (Resolver.ofDepth Expansion.stock 3 env
        (.node (.typed here code [] none inside))).outcome = .ok [[node]] ∧
      node.properties = Table.empty := by
  intro here word env bind use again code rust inside
  obtain ⟨-, replaces, styles⟩ := resolveWithin_scopes 2 Expansion.stock env
  constructor
  · obtain ⟨inner, ahead, shown, behind, applied, first, -, last, -, replaced⟩ :=
      replaces (bind "a") [use] [] [use] false [[env.textNode "a"], [], [env.textNode "a"]] rfl
    cases applied
    refine (replaced again [[env.textNode "b"]] rfl).trans ?_
    rw [← Except.ok.inj first, ← Except.ok.inj last]
    rfl
  · obtain ⟨lines, resolved⟩ : ∃ lines, (Resolver.ofDepth Expansion.stock 3 env
        (.node (.typed here code [] none inside))).outcome = .ok lines := ⟨_, rfl⟩
    obtain ⟨node, rfl, -, styled⟩ := styles here code [] none inside ⟨1⟩ lines rfl (.inl rfl) resolved
    exact ⟨node, resolved, (Except.ok.inj styled).symm⟩

end TypedMarkup
