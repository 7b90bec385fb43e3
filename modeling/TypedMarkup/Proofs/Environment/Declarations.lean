/-
**Declarations.** What a declaration adds to the types that it is for, and which types those are.

* `Environment.addition` is what a declaration adds to a type: its classes in their order, then the
  main value, then the settings with names.
* `Environment.extendEach_eq`: additions to different types do not meet, so their order is of no
  account.
* `Environment.Eligible` says which types a declaration without paths is for.
* `declareForAll_eq_declareForPaths`: a declaration without paths is the one with the paths of all
  eligible types, in whatever order, down to its errors; without any eligible type it does nothing.
-/

import Mathlib.Data.List.Forall2
import TypedMarkup.Environment.Preamble
import TypedMarkup.Proofs.Registry.Paths

namespace TypedMarkup

variable {env next : Environment} {type : TypeId} {types : List TypeId} {uses : List ClassRef}
  {block : Option PropertyBlock} {settings : Option Environment.Settings}

/-! ### Absolute paths -/

/-- The names in an absolute path, from its global type down. -/
def TypePath.names? : TypePath → Option (List String)
  | absolute root steps => some (root.content :: steps.map fun step => step.name.content)
  | relative _ => none

/-- A path is the absolute path of a type. -/
def Registry.IsPathTo (registry : Registry) (type : TypeId) (path : TypePath) : Prop :=
  path.names? = some (registry.namesTo type)

instance (registry : Registry) (type : TypeId) (path : TypePath) :
    Decidable (registry.IsPathTo type path) :=
  inferInstanceAs (Decidable (path.names? = some (registry.namesTo type)))

namespace Environment

/-- Steps lead where their names lead. -/
theorem resolveSteps_of_names {steps : List ChildStep} {root : TypeId}
    (leads : (steps.map fun step => step.name.content).foldl
      (fun id step => id.bind fun id => env.registry.child? id step) (some root) = some type) :
    steps.foldlM (env.resolveStep ·) root = .ok type := by
  induction steps generalizing root with
  | nil =>
    cases leads
    rfl
  | cons step rest ih =>
    rw [List.map_cons, List.foldl_cons, Option.bind_some] at leads
    rw [List.foldlM_cons]
    unfold resolveStep
    cases found : env.registry.child? root step.name.content with
    | some child =>
      rw [found] at leads
      exact ih leads
    | none =>
      rw [found, Registry.foldl_child?_none] at leads
      cases leads

/-- The absolute path of a type of a built registry leads to it. -/
theorem resolvePath_of_isPathTo (fit : env.registry.NamesFit) (member : type ∈ env.registry.ids)
    {path : TypePath} (names : env.registry.IsPathTo type path) :
    env.resolvePath path = .ok type := by
  have leads := Registry.ofNames?_namesTo fit member
  cases path with
  | relative steps => cases names
  | absolute root steps =>
    rw [← Option.some.inj names, Registry.ofNames?] at leads
    unfold resolvePath resolveRoot
    dsimp only
    cases found : env.registry.global? root.content with
    | some id =>
      rw [found] at leads
      exact resolveSteps_of_names leads
    | none =>
      rw [found, Registry.foldl_child?_none] at leads
      cases leads

/-! ### Adding to several types -/

end Environment

/-- The styles of a type after an addition. -/
def Styles.extended (styles : Styles) (added : Properties) : Environment.Target → Styles
  | .bundle name =>
    let bundle := ((styles.bundles.get? name).getD Table.empty).overlay added
    ⟨styles.bundles.insert name bundle, styles.defaults⟩
  | .defaults => ⟨styles.bundles, styles.defaults.overlay added⟩

namespace Environment

theorem extend_eq (type : TypeId) (added : Properties) (target : Target) :
    env.extend type added target = env.withStyles type ((env.styles type).extended added target) := by
  cases target <;> rfl

theorem styles_extend (type : TypeId) (added : Properties) (target : Target) (other : TypeId) :
    (env.extend type added target).styles other =
      if other = type then (env.styles type).extended added target else env.styles other := by
  rw [extend_eq]
  rfl

/-- Adds properties to some types one after the other, to each its own. -/
def extendEach (env : Environment) (types : List TypeId) (added : TypeId → Properties)
    (target : Target) : Environment :=
  types.foldl (fun next type => next.extend type (added type) target) env

/-- Every type gets its own addition, if none is listed twice. -/
theorem extendEach_eq (distinct : types.Nodup) (added : TypeId → Properties) (target : Target) :
    env.extendEach types added target = { env with
      styles := fun type => if type ∈ types then (env.styles type).extended (added type) target
        else env.styles type } := by
  induction types generalizing env with
  | nil => rfl
  | cons first rest ih =>
    obtain ⟨new, distinct⟩ := List.nodup_cons.1 distinct
    have step : env.extendEach (first :: rest) added target =
        (env.extend first (added first) target).extendEach rest added target := rfl
    rw [step, ih distinct]
    simp only [styles_extend]
    rw [extend_eq]
    unfold withStyles
    congr 1
    funext other
    by_cases here : other = first
    · subst here
      simp [new]
    · simp [here]

/-! ### What is added -/

/-- The properties of classes of a type, in their order. A class that the type does not have counts
for nothing. -/
def styled (env : Environment) (type : TypeId) (uses : List ClassRef) (properties : Properties) :
    Properties :=
  uses.foldl (fun properties used =>
    properties.overlay ((env.bundle? type used.name.content).getD Table.empty)) properties

/-- The entry of a main value, for a type with a main property. -/
def mainOf (env : Environment) (type : TypeId) (settings : Settings) : List (String × String) :=
  match settings.main, (env.registry.get type).mainProperty with
  | some (value, _), some name => [(name, value)]
  | _, _ => []

/-- What a declaration adds to a type. -/
def addition (env : Environment) (uses : List ClassRef) (settings : Option Settings)
    (type : TypeId) : Properties :=
  match settings with
  | none => env.styled type uses Table.empty
  | some settings =>
    (env.styled type uses Table.empty).insertAll (env.mainOf type settings ++ settings.entries)

/-- A type has all classes of a list. -/
def HasClasses (env : Environment) (type : TypeId) (uses : List ClassRef) : Prop :=
  ∀ used ∈ uses, ∃ bundle, env.bundle? type used.name.content = some bundle

theorem withClasses_of_hasClasses {properties : Properties} (all : env.HasClasses type uses)
    (same : next.styles type = env.styles type) :
    env.withClasses next type properties uses = .ok (env.styled type uses properties) := by
  induction uses generalizing properties with
  | nil => rfl
  | cons used rest ih =>
    obtain ⟨here, later⟩ := List.forall_mem_cons.1 all
    obtain ⟨bundle, found⟩ := here
    have found' : next.bundle? type used.name.content = some bundle := by
      unfold bundle? at *
      rw [same, found]
    unfold withClasses styled
    rw [found', List.foldl_cons, found]
    exact ih later

theorem withClasses_of_not_hasClasses {properties : Properties}
    (missing : ¬ env.HasClasses type uses) :
    ∃ error, env.withClasses env type properties uses = .error error := by
  induction uses generalizing properties with
  | nil => exact absurd (List.forall_mem_nil _) missing
  | cons used rest ih =>
    unfold withClasses
    cases found : env.bundle? type used.name.content with
    | none => exact ⟨_, rfl⟩
    | some bundle => exact ih fun all => missing (List.forall_mem_cons.2 ⟨⟨bundle, found⟩, all⟩)

/-! ### Main values -/

/-- A type can take a main value beside settings of the given names: it has a main property, which
none of them sets. -/
def TakesMain (env : Environment) (type : TypeId) (names : List String) : Prop :=
  ∃ name, (env.registry.get type).mainProperty = some name ∧ name ∉ names

theorem takesMain_iff {given : PropertyBlock} :
    env.takesMain type given = true ↔ (given.main.isSome = true →
      env.TakesMain type (given.settings.map fun setting => setting.name.content)) := by
  unfold takesMain TakesMain
  cases given.main with
  | none => simp
  | some value => cases (env.registry.get type).mainProperty <;> simp

/-- What a block sets has a main value if the block has one, and its names are those of the
block. -/
theorem resolveSettings_ends_names (given : PropertyBlock) :
    Ends (env.resolveSettings given) (fun settings =>
      settings.main.isSome = given.main.isSome ∧
      settings.other.map Assigned.name = given.settings.map fun setting => setting.name.content)
      fun _ => True := by
  have named : ∀ (rest : List Setting) (done : List Assigned), Ends (env.assign done rest)
      (fun all => all.map Assigned.name =
        done.map Assigned.name ++ rest.map fun setting => setting.name.content) fun _ => True := by
    intro rest
    induction rest with
    | nil => exact fun done => (List.append_nil _).symm
    | cons setting rest ih =>
      intro done
      unfold assign
      dsimp only
      split
      · trivial
      · refine (Ends.any _).bind fun value _ => (ih _).mono (fun all same => ?_) fun _ _ => trivial
        rw [same, List.map_append, List.append_assoc]
        rfl
  unfold resolveSettings
  cases given.main with
  | none => exact (named given.settings []).bind fun other same => ⟨rfl, same⟩
  | some value =>
    refine (Ends.any (env.resolveValue value)).bind fun text _ => ?_
    exact (named given.settings []).bind fun other same => ⟨rfl, same⟩

theorem mainEntry_of_takesMain {before : List Position} {found : Settings}
    (takes : found.main.isSome = true → env.TakesMain type (found.other.map Assigned.name)) :
    env.mainEntry type before found = .ok (env.mainOf type found) := by
  unfold mainEntry mainOf
  obtain ⟨main, other⟩ := found
  cases main with
  | none => rfl
  | some main =>
    obtain ⟨name, property, fresh⟩ := takes rfl
    have unset : other.find? (fun assigned => assigned.name == name) = none := by
      rw [List.find?_eq_none]
      intro assigned member same
      exact fresh (List.mem_map.2 ⟨assigned, member, eq_of_beq same⟩)
    simp only [property, unset]

theorem withBlock_of_resolved {given : PropertyBlock} {found : Settings} {before : List Position}
    {properties : Properties} (resolved : env.resolveSettings given = .ok found)
    (takes : given.main.isSome = true →
      env.TakesMain type (given.settings.map fun setting => setting.name.content)) :
    env.withBlock type before properties found =
      .ok (properties.insertAll (env.mainOf type found ++ found.entries)) := by
  have names := env.resolveSettings_ends_names given
  rw [resolved] at names
  obtain ⟨main, other⟩ := names
  unfold withBlock
  rw [mainEntry_of_takesMain fun given => other ▸ takes (main ▸ given)]
  rfl

/-! ### Eligible types -/

/-- A declaration without paths is for the types that have all its classes and can take its main
value. -/
structure Eligible (env : Environment) (uses : List ClassRef) (block : Option PropertyBlock)
    (type : TypeId) : Prop where
  classes : env.HasClasses type uses
  main : ∀ given, block = some given → given.main.isSome = true →
    env.TakesMain type (given.settings.map fun setting => setting.name.content)

instance (env : Environment) (uses : List ClassRef) (block : Option PropertyBlock) :
    DecidablePred (env.Eligible uses block) := fun type =>
  decidable_of_iff ((∀ used ∈ uses, (env.bundle? type used.name.content).isSome = true) ∧
      block.all (env.takesMain type) = true) <| by
    simp only [Option.all_eq_true, takesMain_iff]
    refine ⟨fun both => ⟨fun used member => ?_, both.2⟩, fun eligible => ⟨?_, eligible.main⟩⟩
    · exact Option.isSome_iff_exists.1 (both.1 used member)
    · exact fun used member => Option.isSome_iff_exists.2 (eligible.classes used member)

/-- The types of the registry that a declaration without paths is for. -/
def eligibleTypes (env : Environment) (uses : List ClassRef) (block : Option PropertyBlock) :
    List TypeId :=
  env.registry.ids.filter fun type => env.Eligible uses block type

theorem mem_eligibleTypes : type ∈ env.eligibleTypes uses block ↔
    type ∈ env.registry.ids ∧ env.Eligible uses block type := by
  unfold eligibleTypes
  rw [List.mem_filter, decide_eq_true_iff]

theorem eligibleTypes_nodup : (env.eligibleTypes uses block).Nodup := by
  refine List.Pairwise.filter _ (List.pairwise_map.2 ?_)
  refine List.nodup_range.imp fun differs same => ?_
  exact differs (TypeId.mk.inj same)

/-! ### Declarations for all types -/

/-- An eligible type gets its addition, or the block is to blame. -/
theorem addedTo_of_eligible (eligible : env.Eligible uses block type) :
    env.addedTo uses block type = (do
      let settings ← block.mapM env.resolveSettings
      return some (env.addition uses settings type)) := by
  unfold addedTo
  rw [withClasses_of_hasClasses eligible.classes rfl]
  cases block with
  | none => rfl
  | some given =>
    have takes := eligible.main given rfl
    dsimp only
    rw [if_pos (takesMain_iff.2 takes)]
    cases resolved : env.resolveSettings given with
    | error error =>
      rw [Option.mapM_some, resolved]
      rfl
    | ok found =>
      rw [Option.mapM_some, resolved]
      dsimp only [bind, Except.bind]
      rw [withBlock_of_resolved resolved takes]
      rfl

/-- Any other type is passed over, whatever the block. -/
theorem addedTo_of_not_eligible (other : ¬ env.Eligible uses block type) :
    env.addedTo uses block type = .ok none := by
  unfold addedTo
  by_cases classes : env.HasClasses type uses
  · rw [withClasses_of_hasClasses classes rfl]
    cases block with
    | none => exact absurd ⟨classes, fun _ same => nomatch same⟩ other
    | some given =>
      dsimp only
      rw [if_neg]
      intro takes
      refine other ⟨classes, fun _ same => ?_⟩
      cases same
      exact takesMain_iff.1 takes
  · obtain ⟨error, failed⟩ := withClasses_of_not_hasClasses classes
    rw [failed]

/-- What a declaration for all types does at one of them. The environment so far changes from type
to type, the one that is looked up in does not. -/
def declareForNext (env : Environment) (target : Target) (uses : List ClassRef)
    (block : Option PropertyBlock) (next : Environment) (type : TypeId) : Except Error Environment := do
  match ← env.addedTo uses block type with
  | none => return next
  | some added => return next.extend type added target

theorem declareForAll_eq_foldlM (target : Target) : env.declareForAll target uses block =
    env.registry.ids.foldlM (env.declareForNext target uses block) env :=
  rfl

theorem declareForNext_of_eligible (eligible : env.Eligible uses block type) (target : Target) :
    env.declareForNext target uses block next type = (do
      let settings ← block.mapM env.resolveSettings
      return next.extend type (env.addition uses settings type) target) := by
  unfold declareForNext
  rw [addedTo_of_eligible eligible]
  cases block.mapM env.resolveSettings <;> rfl

theorem declareForNext_of_not_eligible (other : ¬ env.Eligible uses block type) (target : Target) :
    env.declareForNext target uses block next type = .ok next := by
  unfold declareForNext
  rw [addedTo_of_not_eligible other]
  rfl

/-- Of any types only the eligible ones count. -/
theorem foldlM_declareForNext (target : Target) (types : List TypeId) (next : Environment) :
    types.foldlM (env.declareForNext target uses block) next =
      if (types.filter fun type => env.Eligible uses block type) = [] then .ok next
      else do
        let settings ← block.mapM env.resolveSettings
        return next.extendEach (types.filter fun type => env.Eligible uses block type)
          (env.addition uses settings) target := by
  induction types generalizing next with
  | nil => rfl
  | cons type rest ih =>
    rw [List.foldlM_cons]
    by_cases eligible : env.Eligible uses block type
    · rw [List.filter_cons, if_pos (decide_eq_true eligible), if_neg (List.cons_ne_nil _ _),
        declareForNext_of_eligible eligible]
      cases resolved : block.mapM env.resolveSettings with
      | error error => rfl
      | ok settings =>
        refine (ih (next.extend type (env.addition uses settings type) target)).trans ?_
        rw [resolved]
        split
        · next none =>
          rw [none]
          rfl
        · rfl
    · rw [List.filter_cons, decide_eq_false eligible, if_neg Bool.false_ne_true,
        declareForNext_of_not_eligible eligible]
      exact ih next

/-- A declaration for all types is one for the eligible types, if there are any. -/
theorem declareForAll_eq (target : Target) : env.declareForAll target uses block =
    if env.eligibleTypes uses block = [] then .ok env
    else do
      let settings ← block.mapM env.resolveSettings
      return env.extendEach (env.eligibleTypes uses block) (env.addition uses settings) target := by
  rw [declareForAll_eq_foldlM]
  exact foldlM_declareForNext target env.registry.ids env

/-! ### Declarations for named types -/

/-- The path of an eligible type gives it its addition. -/
theorem declareForPath_of_eligible (fit : env.registry.NamesFit)
    (member : type ∈ env.eligibleTypes uses block)
    (resolved : block.mapM env.resolveSettings = .ok settings) {path : TypePath}
    (names : env.registry.IsPathTo type path) (same : next.styles type = env.styles type)
    (target : Target) :
    env.declareForPath target uses settings next path =
      .ok (next.extend type (env.addition uses settings type) target) := by
  obtain ⟨registered, eligible⟩ := mem_eligibleTypes.1 member
  unfold declareForPath
  rw [resolvePath_of_isPathTo fit registered names]
  dsimp only [bind, Except.bind]
  rw [withClasses_of_hasClasses eligible.classes same]
  cases block with
  | none =>
    cases resolved
    rfl
  | some given =>
    rw [Option.mapM_some] at resolved
    cases found : env.resolveSettings given with
    | error error =>
      rw [found] at resolved
      cases resolved
    | ok settings =>
      rw [found] at resolved
      cases resolved
      dsimp only
      rw [withBlock_of_resolved found (eligible.main given rfl)]
      rfl

/-- The paths of eligible types give each of them its addition, in any order. -/
theorem declareForPaths_of_eligible (fit : env.registry.NamesFit) {paths : List TypePath}
    (named : List.Forall₂ env.registry.IsPathTo types paths)
    (eligible : ∀ type ∈ types, type ∈ env.eligibleTypes uses block) (distinct : types.Nodup)
    (target : Target) :
    env.declareForPaths target paths uses block = (do
      let settings ← block.mapM env.resolveSettings
      return env.extendEach types (env.addition uses settings) target) := by
  unfold declareForPaths
  cases resolved : block.mapM env.resolveSettings with
  | error error => rfl
  | ok settings =>
    -- No type has been declared for before its own path.
    suffices folded : ∀ next : Environment, (∀ type ∈ types, next.styles type = env.styles type) →
        paths.foldlM (env.declareForPath target uses settings) next =
          .ok (next.extendEach types (env.addition uses settings) target) from
      folded env fun _ _ => rfl
    induction named with
    | nil => exact fun next _ => rfl
    | @cons type path types paths names _ ih =>
      intro next same
      obtain ⟨here, later⟩ := List.forall_mem_cons.1 eligible
      obtain ⟨new, distinct⟩ := List.nodup_cons.1 distinct
      rw [List.foldlM_cons, declareForPath_of_eligible fit here resolved names
        (same type List.mem_cons_self)]
      refine ih later distinct _ fun other member => ?_
      have differs : other ≠ type := by
        rintro rfl
        exact new member
      rw [styles_extend, if_neg differs]
      exact same other (List.mem_cons_of_mem _ member)

end Environment

open Environment

/-- **A declaration without paths** is the same as the one with the absolute paths of all eligible
types, in any order: it gives the same environment or the same error. Without any eligible type it
does nothing, even if its block has no meaning. -/
theorem declareForAll_eq_declareForPaths {decls : List NamedDecl}
    (built : Registry.ofDeclarations decls = .ok env.registry) (target : Target)
    (uses : List ClassRef) (block : Option PropertyBlock) :
    (env.eligibleTypes uses block ≠ [] →
      ∀ types paths, types.Perm (env.eligibleTypes uses block) →
        List.Forall₂ env.registry.IsPathTo types paths →
        env.declareForAll target uses block = env.declareForPaths target paths uses block) ∧
    (env.eligibleTypes uses block = [] → env.declareForAll target uses block = .ok env) := by
  refine ⟨fun some types paths reordered named => ?_, fun none => ?_⟩
  · have distinct : types.Nodup := reordered.nodup_iff.2 eligibleTypes_nodup
    rw [declareForAll_eq, if_neg some, declareForPaths_of_eligible (Registry.names_fit built) named
      (fun _ member => reordered.mem_iff.1 member) distinct]
    congr 1
    funext settings
    rw [extendEach_eq distinct, extendEach_eq eligibleTypes_nodup]
    simp only [reordered.mem_iff]
  · rw [declareForAll_eq, if_pos none]

/-- Code with a language, and a box without a main property. -/
def codeDecls : List NamedDecl :=
  [⟨"box", .list false false none [⟨"code", .list false true (some "language") []⟩]⟩]

/-- The registry of `codeDecls`. -/
def codeRegistry : Registry :=
  ⟨[⟨"box", none, none, .list ⟨false, false, [("code", ⟨1⟩)]⟩⟩,
    ⟨"code", some ⟨0⟩, some "language", .list ⟨false, true, []⟩⟩], [("box", ⟨0⟩)]⟩

/-- A language goes to code, to included files and to files that are read, and to nothing else. A
class that no type has goes nowhere, though its value is not bound. -/
theorem declareForAll_eq_declareForPaths_language :
    let env := Environment.ofFile Reader.nothing "" codeRegistry
    let word (text : String) : Word := ⟨text, Position.start⟩
    let rust : PropertyBlock := ⟨Position.start, some (.literal (word "rust")), []⟩
    let unbound : PropertyBlock := ⟨Position.start, some (.bound Position.start (word "x")), []⟩
    let paths : List TypePath := [.absolute (word "read") [],
      .absolute (word "box") [⟨Position.start, word "code"⟩], .absolute (word "include") []]
    (∃ declared, env.declareForAll .defaults [] (some rust) = .ok declared ∧
      env.declareForPaths .defaults paths [] (some rust) = .ok declared ∧
      codeRegistry.ids.map (fun type => (declared.defaults type).entries) =
        [[], [("language", "rust")], [], [], [("path", "rust")], [("path", "rust")]]) ∧
    env.declareForAll .defaults [⟨Position.start, word "ghost"⟩] (some unbound) = .ok env := by
  have built : Registry.ofDeclarations codeDecls = .ok codeRegistry := rfl
  intro env word rust unbound paths
  have leads : List.Forall₂ codeRegistry.IsPathTo [⟨5⟩, ⟨1⟩, ⟨4⟩] paths :=
    .cons (by decide +kernel) (.cons (by decide +kernel) (.cons (by decide +kernel) .nil))
  have same : env.declareForAll .defaults [] (some rust) =
      env.declareForPaths .defaults paths [] (some rust) :=
    (declareForAll_eq_declareForPaths built .defaults [] (some rust)).1 (by decide)
      [⟨5⟩, ⟨1⟩, ⟨4⟩] paths (by decide) leads
  constructor
  · obtain ⟨declared, done⟩ : ∃ declared, env.declareForAll .defaults [] (some rust) = .ok declared :=
      ⟨_, rfl⟩
    refine ⟨declared, done, same ▸ done, ?_⟩
    cases done
    decide +kernel
  · exact (declareForAll_eq_declareForPaths built .defaults _ (some unbound)).2 (by decide)

end TypedMarkup
