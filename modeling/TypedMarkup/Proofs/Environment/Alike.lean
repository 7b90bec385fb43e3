/-
**Environments that cannot be told apart.** What a block makes of its environment depends on what
names stand for, on the styles, on the types and on the type around it, and on nothing else.

* `Environment.Alike whole env other`: names stand for the same in both, and so on; `whole` says
  whether they also agree in what only files see, the reader, the path, the includes and the limits.
* `Error.Alike` relates errors of the same kind at the same places whose environments are alike.
* Every definition of the cascade and of preambles ends alike in environments that are alike:
  `Alike.nodeProperties` for the properties of nodes, `Alike.applyPreamble` for preambles, and, if
  the environments agree as a whole, `Alike.enterInclude` for includes.
-/

import TypedMarkup.Proofs.EndAlike
import TypedMarkup.Proofs.Environment.Beside

namespace TypedMarkup

/-! ### Alike -/

/-- Environments in which names, styles and types are the same; if `whole`, also the file and all
that it has to do with. -/
structure Environment.Alike (whole : Prop) (env other : Environment) : Prop where
  value : ∀ name, other.value? name = env.value? name
  content : ∀ name, other.content? name = env.content? name
  registry : other.registry = env.registry
  styles : other.styles = env.styles
  current : other.current = env.current
  place : whole → env.Beside other

/-- Errors of the same kind at the same places, in environments that are alike. -/
def Error.Alike (whole : Prop) : Error → Error → Prop
  | semantic error, semantic error' =>
    error.cause = error'.cause ∧ error.positions = error'.positions ∧
      error.environment.Alike whole error'.environment
  | parse path position error, parse path' position' error' =>
    path = path' ∧ position = position' ∧ error = error'
  | read position error, read position' error' => position = position' ∧ error = error'
  | semantic _, parse _ _ _ | semantic _, read _ _ | parse _ _ _, semantic _
  | parse _ _ _, read _ _ | read _ _, semantic _ | read _ _, parse _ _ _ => False

namespace Environment

variable {whole : Prop} {env other : Environment}

namespace Alike

/-- An environment is like itself in another place. -/
theorem elsewhere (env : Environment) (reader : Reader) (path : String)
    (includes : List IncludeFrame) (limits : Limits) : env.Alike False
      { env with reader := reader, path := path, includes := includes, limits := limits } :=
  ⟨fun _ => rfl, fun _ => rfl, rfl, rfl, rfl, False.elim⟩

theorem typeName (near : env.Alike whole other) (type : TypeId) :
    other.typeName type = env.typeName type := by
  unfold Environment.typeName
  rw [near.registry]

theorem defaults (near : env.Alike whole other) (type : TypeId) :
    other.defaults type = env.defaults type := by
  unfold Environment.defaults
  rw [near.styles]

theorem bundle? (near : env.Alike whole other) (type : TypeId) (name : String) :
    other.bundle? type name = env.bundle? type name := by
  unfold Environment.bundle?
  rw [near.styles]

theorem within (near : env.Alike whole other) (type : TypeId) :
    (env.within type).Alike whole (other.within type) :=
  { near with
    current := rfl
    place := fun holds => { near.place holds with current := rfl } }

theorem withValue (near : env.Alike whole other) (name value : String) :
    (env.withValue name value).Alike whole (other.withValue name value) := by
  refine { near with value := fun asked => ?_, place := fun holds => { near.place holds with } }
  have same := near.value asked
  unfold value? Bindings.get? at *
  simp only [Environment.withValue, List.lookup_cons, same]

theorem withContent (near : env.Alike whole other) (name : String) (content : Content) :
    (env.withContent name content).Alike whole (other.withContent name content) := by
  refine { near with content := fun asked => ?_, place := fun holds => { near.place holds with } }
  have same := near.content asked
  unfold content? Bindings.get? at *
  simp only [Environment.withContent, List.lookup_cons, same]

theorem extend (near : env.Alike whole other) (type : TypeId) (added : Properties)
    (target : Target) : (env.extend type added target).Alike whole (other.extend type added target) := by
  have restyled : (other.extend type added target).styles = (env.extend type added target).styles := by
    cases target <;>
      simp only [Environment.extend, extendBundle, extendDefaults, withStyles, near.styles]
  cases target with
  | bundle name => exact { near with
      styles := restyled
      place := fun holds => { near.place holds with } }
  | defaults => exact { near with
      styles := restyled
      place := fun holds => { near.place holds with } }

/-- Blame is alike. -/
theorem blame (near : env.Alike whole other) {cause cause' : Cause} (same : cause' = cause)
    (positions : List Position) :
    (Error.of env cause positions).Alike whole (Error.of other cause' positions) :=
  ⟨same.symm, rfl, near⟩

/-! ### Values and types -/

theorem resolveValue (near : env.Alike whole other) (value : Value) :
    EndAlike (env.resolveValue value) (other.resolveValue value) (· = ·) (Error.Alike whole) := by
  cases value with
  | literal word => exact rfl
  | escaped text => exact rfl
  | bound start name =>
    unfold Environment.resolveValue
    dsimp only
    rw [near.value]
    cases env.value? name.content with
    | some text => exact rfl
    | none => exact near.blame rfl _

theorem resolveSetting (near : env.Alike whole other) (setting : Setting) :
    EndAlike (env.resolveSetting setting) (other.resolveSetting setting) (· = ·)
      (Error.Alike whole) := by
  cases setting with
  | pair name value => exact near.resolveValue value
  | flag name => exact rfl
  | negated start name => exact rfl

theorem resolvePath (near : env.Alike whole other) (path : TypePath) :
    EndAlike (env.resolvePath path) (other.resolvePath path) (· = ·) (Error.Alike whole) := by
  have root : EndAlike (env.resolveRoot path) (other.resolveRoot path) (· = ·)
      (Error.Alike whole) := by
    unfold resolveRoot
    rw [near.registry, near.current]
    cases path with
    | absolute root steps =>
      dsimp only
      cases env.registry.global? root.content with
      | some id => exact rfl
      | none => exact near.blame rfl _
    | relative steps =>
      dsimp only
      cases env.current with
      | some id => exact rfl
      | none => exact near.blame rfl _
  refine root.bind_same fun type => EndAlike.foldlM rfl fun parent parent' same step => ?_
  cases same
  unfold resolveStep
  rw [near.registry, near.typeName]
  cases env.registry.child? parent step.name.content with
  | some id => exact rfl
  | none => exact near.blame rfl _

/-! ### Blocks -/

theorem assign (near : env.Alike whole other) (done : List Assigned) (settings : List Setting) :
    EndAlike (env.assign done settings) (other.assign done settings) (· = ·)
      (Error.Alike whole) := by
  induction settings generalizing done with
  | nil => exact rfl
  | cons setting rest ih =>
    unfold Environment.assign
    dsimp only
    cases done.find? fun earlier => earlier.name == setting.name.content with
    | some earlier => exact near.blame rfl _
    | none => exact (near.resolveSetting setting).bind_same fun value => ih _

theorem resolveSettings (near : env.Alike whole other) (block : PropertyBlock) :
    EndAlike (env.resolveSettings block) (other.resolveSettings block) (· = ·)
      (Error.Alike whole) := by
  obtain ⟨start, main, settings⟩ := block
  cases main with
  | none => exact (near.assign [] settings).bind_same fun assigned => rfl
  | some value =>
    refine (near.resolveValue value).bind_same fun text => ?_
    exact (near.assign [] settings).bind_same fun assigned => rfl

theorem withBlock (near : env.Alike whole other) (type : TypeId) (before : List Position)
    (properties : Properties) (settings : Settings) :
    EndAlike (env.withBlock type before properties settings)
      (other.withBlock type before properties settings) (· = ·) (Error.Alike whole) := by
  have main : EndAlike (env.mainEntry type before settings) (other.mainEntry type before settings)
      (· = ·) (Error.Alike whole) := by
    unfold mainEntry
    rw [near.registry, near.typeName]
    split
    · exact rfl
    · split
      · exact near.blame rfl _
      · split
        · exact near.blame rfl _
        · exact rfl
  exact main.bind_same fun entries => rfl

/-! ### Classes -/

theorem withClasses (near : env.Alike whole other) {source source' : Environment}
    (sources : source.Alike whole source') (type : TypeId) (properties : Properties)
    (classes : List ClassRef) :
    EndAlike (env.withClasses source type properties classes)
      (other.withClasses source' type properties classes) (· = ·) (Error.Alike whole) := by
  induction classes generalizing properties with
  | nil => exact rfl
  | cons used rest ih =>
    unfold Environment.withClasses
    rw [sources.bundle?, near.typeName]
    cases source.bundle? type used.name.content with
    | some bundle => exact ih _
    | none => exact near.blame rfl _

/-- The properties of a node are the same. -/
theorem nodeProperties (near : env.Alike whole other) (type : TypeId) (classes : List ClassRef)
    (block : Option PropertyBlock) :
    EndAlike (env.nodeProperties type classes block) (other.nodeProperties type classes block)
      (· = ·) (Error.Alike whole) := by
  unfold Environment.nodeProperties
  rw [near.defaults]
  refine (near.withClasses near type _ classes).bind_same fun styled => ?_
  cases block with
  | none => exact rfl
  | some block =>
    exact (near.resolveSettings block).bind_same fun settings => near.withBlock type [] styled settings

/-! ### Declarations -/

theorem declareForPaths (near : env.Alike whole other) (target : Target) (paths : List TypePath)
    (uses : List ClassRef) (block : Option PropertyBlock) :
    EndAlike (env.declareForPaths target paths uses block)
      (other.declareForPaths target paths uses block) (Alike whole) (Error.Alike whole) := by
  have resolved : EndAlike (block.mapM env.resolveSettings) (block.mapM other.resolveSettings)
      (· = ·) (Error.Alike whole) := by
    cases block with
    | none => exact rfl
    | some block => exact (near.resolveSettings block).bind_same fun settings => rfl
  refine resolved.bind_same fun settings => EndAlike.foldlM near fun next next' later path => ?_
  refine (near.resolvePath path).bind_same fun type => ?_
  refine (near.withClasses later type Table.empty uses).bind_same fun styled => ?_
  cases settings with
  | none => exact later.extend type styled target
  | some settings =>
    exact EndAlike.bind_same (near.withBlock type [path.start] styled settings) fun added =>
      later.extend type added target

theorem takesMain (near : env.Alike whole other) (type : TypeId) (block : PropertyBlock) :
    other.takesMain type block = env.takesMain type block := by
  unfold Environment.takesMain
  rw [near.registry]

theorem addedTo (near : env.Alike whole other) (uses : List ClassRef)
    (block : Option PropertyBlock) (type : TypeId) :
    EndAlike (env.addedTo uses block type) (other.addedTo uses block type) (· = ·)
      (Error.Alike whole) := by
  unfold Environment.addedTo
  rcases (near.withClasses near type Table.empty uses).results with
    ⟨styled, _, same, same', rfl⟩ | ⟨error, error', same, same', _⟩
  · rw [same, same']
    cases block with
    | none => exact rfl
    | some block =>
      dsimp only
      rw [near.takesMain]
      split
      · refine (near.resolveSettings block).bind_same fun settings => ?_
        exact EndAlike.bind_same (near.withBlock type [] styled settings) fun added => rfl
      · exact rfl
  · rw [same, same']
    exact rfl

theorem declareForAll (near : env.Alike whole other) (target : Target) (uses : List ClassRef)
    (block : Option PropertyBlock) :
    EndAlike (env.declareForAll target uses block) (other.declareForAll target uses block)
      (Alike whole) (Error.Alike whole) := by
  unfold Environment.declareForAll
  rw [near.registry]
  refine EndAlike.foldlM near fun next next' later type => ?_
  refine (near.addedTo uses block type).bind_same fun found => ?_
  cases found with
  | none => exact later
  | some added => exact later.extend type added target

theorem declare (near : env.Alike whole other) (target : Target) (paths : List TypePath)
    (uses : List ClassRef) (block : Option PropertyBlock) :
    EndAlike (env.declare target paths uses block) (other.declare target paths uses block)
      (Alike whole) (Error.Alike whole) := by
  unfold Environment.declare
  split
  · exact near.declareForAll target uses block
  · exact near.declareForPaths target paths uses block

/-! ### Preambles -/

theorem applyElement (near : env.Alike whole other) (element : PreambleElement) :
    EndAlike (env.applyElement element) (other.applyElement element) (Alike whole)
      (Error.Alike whole) := by
  obtain ⟨start, fallback, directive⟩ := element
  cases directive with
  | value name value =>
    unfold Environment.applyElement
    dsimp only
    rw [near.value]
    split
    · exact near
    · exact (near.resolveValue value).bind_same fun text => near.withValue name.content text
  | content name body =>
    unfold Environment.applyElement
    dsimp only
    rw [near.content]
    split
    · exact near
    · exact near.withContent name.content body
  | bundle declared targets uses block =>
    exact near.declare (.bundle declared.name.content) targets uses block
  | defaults targets uses block => exact near.declare .defaults targets uses block

/-- **A preamble** does the same to environments that are alike. -/
theorem applyPreamble (near : env.Alike whole other) (preamble : List PreambleElement) :
    EndAlike (env.applyPreamble preamble) (other.applyPreamble preamble) (Alike whole)
      (Error.Alike whole) := by
  refine EndAlike.foldlM near fun _ _ later element => ?_
  exact later.applyElement element

/-! ### Files -/

theorem readFile (near : env.Alike whole other) (holds : whole) (path : String)
    (position : Position) :
    EndAlike (env.readFile path position) (other.readFile path position) (· = ·)
      (Error.Alike whole) := by
  obtain ⟨reader, here, _, _, _, _⟩ := near.place holds
  unfold Environment.readFile
  rw [reader, here]
  cases env.reader env.path path with
  | ok text => exact rfl
  | error error => exact ⟨rfl, rfl⟩

/-- An include does the same in environments that are alike as a whole. -/
theorem enterInclude (near : env.Alike whole other) (holds : whole) (path : String)
    (position : Position) :
    EndAlike (env.enterInclude path position) (other.enterInclude path position) (Alike whole)
      (Error.Alike whole) := by
  obtain ⟨reader, here, _, _, includes, limits⟩ := near.place holds
  have depth : other.includeDepth = env.includeDepth := by
    unfold includeDepth
    rw [includes]
  have cycle : other.isBeingIncluded path = env.isBeingIncluded path := by
    unfold isBeingIncluded
    rw [here, includes]
  unfold Environment.enterInclude
  rw [depth, cycle, limits]
  dsimp only
  split
  · exact near.blame rfl _
  · split
    · exact near.blame rfl _
    · refine { near with place := fun _ => ⟨reader, rfl, near.registry, near.current, ?_, rfl⟩ }
      rw [here, includes]

end Alike

end Environment

end TypedMarkup
