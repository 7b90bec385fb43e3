/-
**What preambles cannot change.** A preamble binds names and declares styles; the file, the place in
it and the registry stay what they are. Only an include leads into another file.

* `Environment.Beside` relates environments that differ in bindings and styles only.
* `Error.Blames env known` says of an error that it is semantic, that it carries an environment
  beside `env`, that all places it names are `known`, and that what it says of includes is so.
* `Environment.nodeProperties_ends` and `Environment.applyPreamble_ends` say so of the properties
  of a node and of a whole preamble, and the lemmas before them of all the steps.
* `Environment.enterInclude_ends`: an include leads into its file, `Environment.entered`.
-/

import TypedMarkup.Environment.Preamble
import TypedMarkup.Proofs.Ends
import TypedMarkup.Proofs.Tree.Part
import TypedMarkup.Resolution

namespace TypedMarkup

/-! ### Known places -/

section Known

variable (known : Position → Prop)

/-- All places that a part can be blamed at are known. A path without names, which no source gives,
is blamed at the start. -/
def Part.Known : Part → Prop
  | path route => known route.start ∧ ∀ position ∈ route.positions, known position
  | part => ∀ position ∈ part.positions, known position

/-- All places that some parts can be blamed at are known. -/
def AllKnown (parts : List Part) : Prop :=
  ∀ part ∈ parts, part.Known known

end Known

variable {known : Position → Prop}

namespace AllKnown

@[simp] theorem cons {part : Part} {parts : List Part} :
    AllKnown known (part :: parts) ↔ part.Known known ∧ AllKnown known parts := by
  simp [AllKnown]

@[simp] theorem append {parts more : List Part} :
    AllKnown known (parts ++ more) ↔ AllKnown known parts ∧ AllKnown known more := by
  simp only [AllKnown, List.mem_append, or_imp, forall_and]

/-- Where everything counts as known, all parts are. -/
theorem trivial (parts : List Part) : AllKnown (fun _ => True) parts := by
  intro part _
  cases part with
  | path route => exact ⟨True.intro, fun _ _ => True.intro⟩
  | _ => exact fun _ _ => True.intro

end AllKnown

/-! ### Environments of one place -/

namespace Environment

/-- Environments that differ in bindings and styles only. -/
structure Beside (env other : Environment) : Prop where
  reader : other.reader = env.reader
  path : other.path = env.path
  registry : other.registry = env.registry
  current : other.current = env.current
  includes : other.includes = env.includes
  limits : other.limits = env.limits

namespace Beside

variable {env other third : Environment}

theorem refl (env : Environment) : env.Beside env :=
  ⟨rfl, rfl, rfl, rfl, rfl, rfl⟩

theorem trans (first : env.Beside other) (second : other.Beside third) : env.Beside third where
  reader := second.reader.trans first.reader
  path := second.path.trans first.path
  registry := second.registry.trans first.registry
  current := second.current.trans first.current
  includes := second.includes.trans first.includes
  limits := second.limits.trans first.limits

theorem withValue (name value : String) : env.Beside (env.withValue name value) :=
  ⟨rfl, rfl, rfl, rfl, rfl, rfl⟩

theorem withContent (name : String) (content : Content) : env.Beside (env.withContent name content) :=
  ⟨rfl, rfl, rfl, rfl, rfl, rfl⟩

end Beside

end Environment

/-! ### Blame -/

/-- What a cause says of includes is so in an environment. Of other causes nothing is asked. -/
def Cause.Grounded (env : Environment) : Cause → Prop
  | includeDepthExceeded limit =>
    limit = env.limits.maxIncludeDepth ∧ limit ≤ env.includeDepth
  | includeCycle path => env.limits.detectIncludeCycles = true ∧ env.isBeingIncluded path = true
  | _ => True

/-- An error that blames known places, and carries an environment beside the given one in which its
cause is grounded. -/
def Error.Blames (env : Environment) (known : Position → Prop) : Error → Prop
  | semantic failure =>
    env.Beside failure.environment ∧ (∀ position ∈ failure.positions, known position) ∧
      failure.cause.Grounded failure.environment
  | parse _ _ _ | read _ _ => False

namespace Error.Blames

variable {env other : Environment}

theorem of {cause : Cause} {positions : List Position}
    (places : ∀ position ∈ positions, known position)
    (grounded : cause.Grounded env := by trivial) : (Error.of env cause positions).Blames env known :=
  ⟨.refl env, places, grounded⟩

theorem one {cause : Cause} {position : Position} (place : known position)
    (grounded : cause.Grounded env := by trivial) :
    (Error.of env cause [position]).Blames env known :=
  of (List.forall_mem_singleton.2 place) grounded

theorem two {cause : Cause} {first second : Position} (place : known first)
    (place' : known second) (grounded : cause.Grounded env := by trivial) :
    (Error.of env cause [first, second]).Blames env known := by
  refine of (List.forall_mem_cons.2 ⟨place, ?_⟩) grounded
  exact List.forall_mem_singleton.2 place'

theorem beside {error : Error} (near : env.Beside other) (blames : error.Blames other known) :
    error.Blames env known := by
  cases error with
  | semantic failure => exact ⟨near.trans blames.1, blames.2⟩
  | parse _ _ _ => exact blames
  | read _ _ => exact blames

end Error.Blames

namespace Environment

variable (env : Environment)

/-! ### Values and types -/

theorem resolveValue_ends {value : Value} (places : (Part.value value).Known known) :
    Ends (env.resolveValue value) (fun _ => True) (Error.Blames env known) := by
  cases value with
  | literal word => trivial
  | escaped text => trivial
  | bound start name =>
    unfold resolveValue
    dsimp only
    split
    · trivial
    · exact Error.Blames.one (places name.start (by simp [Part.positions, Value.positions]))

/-- A setting is a name and, if it is a pair, a value. -/
theorem setting_known {setting : Setting} (places : (Part.setting setting).Known known) :
    known setting.name.start ∧
      ∀ name value, setting = .pair name value → (Part.value value).Known known := by
  cases setting with
  | pair name value =>
    refine ⟨places name.start List.mem_cons_self, fun _ _ same => ?_⟩
    cases same
    exact fun position member => places position (List.mem_cons_of_mem _ member)
  | flag name => exact ⟨places name.start List.mem_cons_self, fun _ _ same => nomatch same⟩
  | negated start name =>
    exact ⟨places name.start (List.mem_cons_of_mem _ List.mem_cons_self), fun _ _ same => nomatch same⟩

theorem resolveSetting_ends {setting : Setting} (places : (Part.setting setting).Known known) :
    Ends (env.resolveSetting setting) (fun _ => True) (Error.Blames env known) := by
  cases setting with
  | pair name value => exact env.resolveValue_ends ((setting_known places).2 name value rfl)
  | flag name => trivial
  | negated start name => trivial

theorem resolvePath_ends {path : TypePath} (places : (Part.path path).Known known) :
    Ends (env.resolvePath path) (fun _ => True) (Error.Blames env known) := by
  have root : Ends (env.resolveRoot path) (fun _ => True) (Error.Blames env known) := by
    unfold resolveRoot
    split
    · split
      · trivial
      · exact Error.Blames.one (places.2 _ List.mem_cons_self)
    · split
      · trivial
      · exact Error.Blames.one places.1
  refine root.bind fun type _ => Ends.foldlM True.intro fun parent _ step member => ?_
  unfold resolveStep
  split
  · trivial
  · refine Error.Blames.one (places.2 _ ?_)
    cases path with
    | absolute root steps =>
      exact List.mem_cons_of_mem _ (List.mem_flatMap.2 ⟨step, member, List.mem_cons_self⟩)
    | relative steps => exact List.mem_flatMap.2 ⟨step, member, List.mem_cons_self⟩

/-! ### Blocks -/

/-- The names that are set stand at known places. -/
theorem assign_ends {settings : List Setting} {done : List Assigned}
    (places : AllKnown known (settings.map Part.setting))
    (before : ∀ assigned ∈ done, known assigned.position) :
    Ends (env.assign done settings) (fun all => ∀ assigned ∈ all, known assigned.position)
      (Error.Blames env known) := by
  induction settings generalizing done with
  | nil => exact before
  | cons setting rest ih =>
    rw [List.map_cons, AllKnown.cons] at places
    obtain ⟨here, later⟩ := places
    unfold assign
    dsimp only
    split
    · next earlier found =>
      exact Error.Blames.two (before earlier (List.mem_of_find?_eq_some found)) (setting_known here).1
    · refine (env.resolveSetting_ends here).bind fun value _ => ih later ?_
      exact List.forall_mem_append.2 ⟨before, List.forall_mem_singleton.2 (setting_known here).1⟩

/-- What a block sets stands at known places. -/
def Settings.Known (known : Position → Prop) (settings : Settings) : Prop :=
  (∀ value start, settings.main = some (value, start) → known start) ∧
    ∀ assigned ∈ settings.other, known assigned.position

theorem resolveSettings_ends {block : PropertyBlock} (places : AllKnown known block.parts) :
    Ends (env.resolveSettings block) (Settings.Known known) (Error.Blames env known) := by
  obtain ⟨start, main, settings⟩ := block
  simp only [PropertyBlock.parts, List.cons_append, AllKnown.cons, AllKnown.append] at places
  obtain ⟨_, mainPlaces, settingPlaces⟩ := places
  have named := env.assign_ends settingPlaces (List.forall_mem_nil _)
  cases main with
  | none =>
    refine named.bind fun other kept => ?_
    exact ⟨fun _ _ same => (nomatch same), kept⟩
  | some value =>
    have here : (Part.value value).Known known := mainPlaces _ List.mem_cons_self
    refine ((env.resolveValue_ends here).bind fun text _ => ?_)
    refine named.bind fun other kept => ⟨fun _ _ same => ?_, kept⟩
    cases same
    refine here value.start ?_
    cases value <;> exact List.mem_cons_self

theorem withBlock_ends {type : TypeId} {before : List Position} {properties : Properties}
    {settings : Settings} (earlier : ∀ position ∈ before, known position)
    (places : settings.Known known) :
    Ends (env.withBlock type before properties settings) (fun _ => True)
      (Error.Blames env known) := by
  have main : Ends (env.mainEntry type before settings) (fun _ => True)
      (Error.Blames env known) := by
    unfold mainEntry
    split
    · trivial
    · next value start same =>
      have here : known start := places.1 value start same
      split
      · exact Error.Blames.of (List.forall_mem_append.2 ⟨earlier, List.forall_mem_singleton.2 here⟩)
      · split
        · next assigned found =>
          have there := places.2 assigned (List.mem_of_find?_eq_some found)
          refine Error.Blames.of (List.forall_mem_append.2 ⟨earlier, ?_⟩)
          exact List.forall_mem_cons.2 ⟨here, List.forall_mem_singleton.2 there⟩
        · trivial
  exact main.bind fun _ _ => True.intro

/-! ### Classes -/

theorem withClasses_ends {source : Environment} {type : TypeId} {properties : Properties}
    {classes : List ClassRef} (places : AllKnown known (classes.map Part.classRef)) :
    Ends (env.withClasses source type properties classes) (fun _ => True)
      (Error.Blames env known) := by
  induction classes generalizing properties with
  | nil => trivial
  | cons used rest ih =>
    rw [List.map_cons, AllKnown.cons] at places
    unfold withClasses
    split
    · exact ih places.2
    · exact Error.Blames.one (places.1 _ (List.mem_cons_of_mem _ List.mem_cons_self))

/-- **The properties of a node** fail at known places only. -/
theorem nodeProperties_ends {type : TypeId} {classes : List ClassRef}
    {block : Option PropertyBlock} (classPlaces : AllKnown known (classes.map Part.classRef))
    (blockPlaces : AllKnown known (blockParts block)) :
    Ends (env.nodeProperties type classes block) (fun _ => True) (Error.Blames env known) := by
  refine (env.withClasses_ends classPlaces).bind fun styled _ => ?_
  cases block with
  | none => trivial
  | some block =>
    rw [blockParts_some] at blockPlaces
    refine (env.resolveSettings_ends blockPlaces).bind fun settings places => ?_
    exact env.withBlock_ends (List.forall_mem_nil _) places

/-! ### Declarations -/

/-- Environments that differ in styles only. -/
def Restyled (env other : Environment) : Prop :=
  ∃ styles, other = { env with styles := styles }

namespace Restyled

variable {env : Environment} {other third : Environment}

theorem refl (env : Environment) : env.Restyled env :=
  ⟨env.styles, rfl⟩

theorem trans (first : env.Restyled other) (second : other.Restyled third) :
    env.Restyled third := by
  obtain ⟨_, rfl⟩ := first
  obtain ⟨styles, rfl⟩ := second
  exact ⟨styles, rfl⟩

theorem extend (type : TypeId) (added : Properties) (target : Target) :
    env.Restyled (env.extend type added target) := by
  cases target <;> exact ⟨_, rfl⟩

theorem beside (styled : env.Restyled other) : env.Beside other := by
  obtain ⟨styles, rfl⟩ := styled
  exact ⟨rfl, rfl, rfl, rfl, rfl, rfl⟩

end Restyled

theorem declareForPaths_ends {target : Target} {paths : List TypePath} {uses : List ClassRef}
    {block : Option PropertyBlock} (places : AllKnown known (declarationParts paths uses block)) :
    Ends (env.declareForPaths target paths uses block) env.Restyled (Error.Blames env known) := by
  simp only [declarationParts, AllKnown.append] at places
  obtain ⟨⟨pathPlaces, classPlaces⟩, blockPlaces⟩ := places
  have resolved : Ends (block.mapM env.resolveSettings)
      (fun settings => ∀ found, settings = some found → found.Known known)
      (Error.Blames env known) := by
    cases block with
    | none => exact fun _ same => nomatch same
    | some block =>
      rw [blockParts_some] at blockPlaces
      refine (env.resolveSettings_ends blockPlaces).bind fun settings places found same => ?_
      cases same
      exact places
  refine resolved.bind fun settings settled => ?_
  refine Ends.foldlM (Restyled.refl env) fun next styled path member => ?_
  have here : (Part.path path).Known known := pathPlaces _ (List.mem_map_of_mem member)
  refine (env.resolvePath_ends here).bind fun type _ => ?_
  refine (env.withClasses_ends classPlaces).bind fun properties _ => ?_
  cases settings with
  | none => exact styled.trans (.extend type properties target)
  | some settings =>
    have before := List.forall_mem_singleton.2 here.1
    exact Ends.bind (env.withBlock_ends before (settled settings rfl)) fun added _ =>
      styled.trans (.extend type added target)

theorem declareForAll_ends {target : Target} {uses : List ClassRef}
    {block : Option PropertyBlock} (blockPlaces : AllKnown known (blockParts block)) :
    Ends (env.declareForAll target uses block) env.Restyled (Error.Blames env known) := by
  refine Ends.foldlM (Restyled.refl env) fun next styled type _ => ?_
  have added : Ends (env.addedTo uses block type) (fun _ => True) (Error.Blames env known) := by
    unfold addedTo
    split
    · trivial
    · split
      · trivial
      · split
        · rw [blockParts_some] at blockPlaces
          refine (env.resolveSettings_ends blockPlaces).bind fun settings places => ?_
          exact Ends.bind (env.withBlock_ends (List.forall_mem_nil _) places) fun _ _ => True.intro
        · trivial
  refine added.bind fun found _ => ?_
  cases found with
  | none => exact styled
  | some found => exact styled.trans (.extend type found target)

theorem declare_ends {target : Target} {paths : List TypePath} {uses : List ClassRef}
    {block : Option PropertyBlock} (places : AllKnown known (declarationParts paths uses block)) :
    Ends (env.declare target paths uses block) env.Restyled (Error.Blames env known) := by
  unfold declare
  split
  · simp only [declarationParts, AllKnown.append] at places
    exact env.declareForAll_ends places.2
  · exact env.declareForPaths_ends places

/-! ### Preambles -/

theorem applyElement_ends {element : PreambleElement} (places : AllKnown known element.parts) :
    Ends (env.applyElement element) env.Beside (Error.Blames env known) := by
  obtain ⟨start, fallback, directive⟩ := element
  simp only [PreambleElement.parts, List.cons_append, AllKnown.cons, AllKnown.append] at places
  obtain ⟨_, _, places⟩ := places
  cases directive with
  | value name value =>
    simp only [Directive.parts, AllKnown.cons] at places
    unfold applyElement
    dsimp only
    split
    · exact Beside.refl env
    · exact (env.resolveValue_ends places.2.1).bind fun text _ => Beside.withValue name.content text
  | content name body =>
    unfold applyElement
    dsimp only
    split
    · exact Beside.refl env
    · exact Beside.withContent name.content body
  | bundle declared targets uses block =>
    simp only [Directive.parts, AllKnown.cons] at places
    exact (env.declare_ends places.2).mono (fun _ => Restyled.beside) fun _ blames => blames
  | defaults targets uses block =>
    simp only [Directive.parts] at places
    exact (env.declare_ends places).mono (fun _ => Restyled.beside) fun _ blames => blames

/-- **A preamble** stays beside the environment, and fails at known places only. -/
theorem applyPreamble_ends {preamble : List PreambleElement}
    (places : AllKnown known (preambleParts preamble)) :
    Ends (env.applyPreamble preamble) env.Beside (Error.Blames env known) := by
  refine Ends.foldlM (Beside.refl env) fun next near element member => ?_
  have here : AllKnown known element.parts := by
    rw [preambleParts_eq] at places
    exact fun part inside => places part (List.mem_flatMap.2 ⟨element, member, inside⟩)
  refine (next.applyElement_ends here).mono (fun _ => near.trans) fun _ blames => ?_
  exact blames.beside near

theorem applyPreamble_beside (preamble : List PreambleElement) :
    Ends (env.applyPreamble preamble) env.Beside fun _ => True :=
  (env.applyPreamble_ends (AllKnown.trivial _)).mono (fun _ near => near) fun _ _ => trivial

/-! ### Includes -/

/-- The environment of a file that is included, before the preamble of the include. -/
def entered (path : String) : Environment :=
  { env with path := path, includes := ⟨env.path, env.includeDepth + 1⟩ :: env.includes }

/-- An include leads into its file or is itself to blame. -/
theorem enterInclude_ends {position : Position} (path : String) (place : known position) :
    Ends (env.enterInclude path position) (· = env.entered path) (Error.Blames env known) := by
  unfold enterInclude
  dsimp only
  split
  · next reached =>
    have deep : (Cause.includeDepthExceeded env.limits.maxIncludeDepth).Grounded env := ⟨rfl, reached⟩
    exact Error.Blames.one place deep
  · split
    · next found =>
      have cycle : (Cause.includeCycle path).Grounded env := Bool.and_eq_true_iff.1 found
      exact Error.Blames.one place cycle
    · rfl

end Environment

end TypedMarkup
