/-
**Declarations as overlays.** What a declaration leaves in the classes and the defaults of its
types.

* `Environment.get?_addition`: a declaration adds to a type the texts of its block and, behind them,
  those of the classes that it uses.
* `Environment.extended_again`: to add the same again changes nothing, even if the declaration uses
  the class that it declares and so finds there what it added before.
* `Environment.declared` is an environment in which some types have been declared for;
  `declareForPaths_eq_ok_iff` and `declareForAll_eq_ok_iff` say when declarations lead there.
* `declarations_overlay`: so the order and the number of the paths are of no account, and no
  declaration changes anything the second time.
-/

import TypedMarkup.Proofs.Environment.Bindings
import TypedMarkup.Proofs.Environment.Cascade

namespace TypedMarkup

variable {env next : Environment} {type : TypeId} {types : List TypeId} {uses : List ClassRef}
  {block : Option PropertyBlock} {target : Environment.Target}

/-! ### Additions -/

namespace Environment

/-- What a declaration adds to a type for a property: its settings count before its classes. -/
theorem get?_addition (settings : Option Settings) (key : String) :
    (env.addition uses settings type).get? key =
      (settings.bind fun found => (env.mainOf type found ++ found.entries).reverse.lookup key).or
        (env.classText? type uses key) := by
  unfold addition
  cases settings with
  | none => rw [get?_styled, Table.get?_empty, Option.or_none, Option.bind_none, Option.none_or]
  | some found =>
    rw [Table.get?_insertAll, get?_styled, Table.get?_empty, Option.or_none]
    rfl

/-- What a name of a declaration is set to for a type: by the block or else by the classes. -/
def declaredText? (env : Environment) (type : TypeId) (uses : List ClassRef)
    (block : Option PropertyBlock) (key : String) : Option String :=
  (block.bind fun given => given.textFor env.values (env.registry.get type).mainProperty key).or
    (env.classText? type uses key)

theorem get?_addition_settled (fits : ∀ given, block = some given → given.FitsIn env.values)
    (key : String) :
    (env.addition uses (block.map (settled env.values)) type).get? key =
      env.declaredText? type uses block key := by
  rw [get?_addition]
  unfold declaredText?
  congr 1
  cases block with
  | none => rfl
  | some given => exact lookup_settled (fits given rfl) key

end Environment

/-! ### Adding again -/

/-- If one value takes the place of others that it stands for anyway, the first value found is that
one or the one found before. -/
theorem findSome?_replaced {α β : Type} {before after : α → Option β} {put : Option β}
    {items : List α} {found : β}
    (same : ∀ a, after a = before a ∨ (after a = put ∧ (put = none → before a = none)))
    (here : items.findSome? after = some found) :
    put = some found ∨ items.findSome? before = some found := by
  induction items with
  | nil => cases here
  | cons a rest ih =>
    rw [List.findSome?_cons] at here ⊢
    rcases same a with kept | ⟨replaced, empty⟩
    · rw [kept] at here
      cases first : before a with
      | some value =>
        rw [first] at here
        exact .inr here
      | none =>
        rw [first] at here
        exact ih here
    · rw [replaced] at here
      cases value : put with
      | some value' =>
        rw [value] at here
        exact .inl here
      | none =>
        rw [value] at here ih
        rw [empty value]
        exact ih here

namespace Styles

variable {styles : Styles} {added put : Properties}

/-- What the styles of a type hold for the target of a declaration. -/
def targeted? (styles : Styles) : Environment.Target → Option Properties
  | .bundle name => styles.bundles.get? name
  | .defaults => some styles.defaults

/-- What an addition makes of its target. -/
def overlaid (styles : Styles) (added : Properties) (target : Environment.Target) : Properties :=
  ((styles.targeted? target).getD Table.empty).overlay added

theorem get?_overlaid (key : String) : (styles.overlaid added target).get? key =
    (added.get? key).or ((styles.targeted? target).bind fun held => held.get? key) := by
  unfold overlaid
  rw [Table.get?_overlay]
  cases styles.targeted? target <;> rfl

/-- An addition changes its target and nothing else. -/
theorem targeted?_extended (other : Environment.Target) :
    (styles.extended added target).targeted? other =
      if other = target then some (styles.overlaid added target) else styles.targeted? other := by
  cases target with
  | defaults => cases other <;> rfl
  | bundle name =>
    cases other with
    | defaults => rfl
    | bundle other =>
      simp only [Environment.Target.bundle.injEq]
      exact Table.get?_insert _ _ _ _

/-- Additions take nothing away. -/
theorem targeted?_extended_some {other : Environment.Target} (added : Properties)
    (held : ∃ table, styles.targeted? other = some table) :
    ∃ table, (styles.extended added target).targeted? other = some table := by
  rw [targeted?_extended]
  split
  · exact ⟨_, rfl⟩
  · exact held

/-- Nothing changes where what is added is held already. -/
theorem extended_eq_self (held : styles.targeted? target = some put)
    (covered : put.overlay added = put) : styles.extended added target = styles := by
  cases target with
  | defaults =>
    cases held
    exact congrArg (Styles.mk styles.bundles) covered
  | bundle name =>
    have found : styles.bundles.get? name = some put := held
    have kept : styles.bundles.insert name put = styles.bundles := by
      refine Table.ext_get? fun key => ?_
      rw [Table.get?_insert]
      split
      · next same => rw [same, found]
      · rfl
    unfold extended
    dsimp only
    rw [found, Option.getD_some, covered, kept]

end Styles

namespace Environment

variable {added : Properties}

/-- What classes set a property to after an addition, its target does, or they did so before. -/
theorem classText?_of_extended (styles : next.styles type = (env.styles type).extended added target)
    {key value : String} (found : next.classText? type uses key = some value) :
    ((env.styles type).overlaid added target).get? key = some value ∨
      env.classText? type uses key = some value := by
  refine findSome?_replaced (fun used => ?_) found
  have bundle : next.bundle? type used.name.content =
      if .bundle used.name.content = target then some ((env.styles type).overlaid added target)
      else env.bundle? type used.name.content := by
    unfold bundle?
    rw [styles]
    exact Styles.targeted?_extended (.bundle used.name.content)
  rw [bundle]
  split
  · next own =>
    refine .inr ⟨rfl, fun none => ?_⟩
    rw [Styles.get?_overlaid, Option.or_eq_none_iff, ← own] at none
    exact none.2
  · exact .inl rfl

/-- **To add the same again** changes nothing: what the declaration now finds in its own class, it
has put there itself. -/
theorem extended_again (env : Environment) (settings : Option Settings)
    (registry : next.registry = env.registry)
    (styles : next.styles type =
      (env.styles type).extended (env.addition uses settings type) target) :
    (next.styles type).extended (next.addition uses settings type) target = next.styles type := by
  have held : (next.styles type).targeted? target =
      some ((env.styles type).overlaid (env.addition uses settings type) target) := by
    rw [styles]
    exact (Styles.targeted?_extended target).trans (if_pos rfl)
  have main : ∀ found, next.mainOf type found = env.mainOf type found := by
    intro found
    unfold mainOf
    rw [registry]
  refine Styles.extended_eq_self held (Table.ext_get? fun key => ?_)
  rw [Table.get?_overlay, get?_addition, Styles.get?_overlaid, get?_addition]
  simp only [main]
  cases text : settings.bind fun found =>
      (env.mainOf type found ++ found.entries).reverse.lookup key with
  | some value => rfl
  | none =>
    cases found : next.classText? type uses key with
    | none => rfl
    | some value =>
      rcases classText?_of_extended styles found with here | before
      · rw [Styles.get?_overlaid, get?_addition, text] at here
        exact here.symm
      · rw [before]
        rfl

end Environment

namespace Environment

variable {after : Environment}

/-- An addition depends on the registry and on the classes of its type only. -/
theorem addition_congr (same : next.styles type = env.styles type)
    (registry : next.registry = env.registry) :
    next.addition uses settings type = env.addition uses settings type := by
  refine Table.ext_get? fun key => ?_
  rw [get?_addition, get?_addition]
  unfold classText? bundle? mainOf
  rw [registry, same]

/-! ### Environments after declarations -/

/-- An environment in which some types have been declared for. -/
def declared (env : Environment) (target : Target) (uses : List ClassRef)
    (block : Option PropertyBlock) (types : List TypeId) : Environment :=
  { env with
    styles := fun type =>
      if type ∈ types then
        (env.styles type).extended (env.addition uses (block.map (settled env.values)) type) target
      else env.styles type }

/-- It does not matter in which order and how often the types are listed. -/
theorem declared_congr {types' : List TypeId} (same : ∀ type, type ∈ types ↔ type ∈ types') :
    env.declared target uses block types = env.declared target uses block types' := by
  unfold declared
  simp only [same]

theorem declared_nil : env.declared target uses block [] = env := rfl

theorem styles_declared_of_mem (member : type ∈ types) :
    (env.declared target uses block types).styles type = (env.styles type).extended
      (env.addition uses (block.map (settled env.values)) type) target :=
  if_pos member

theorem styles_declared_of_not_mem (other : type ∉ types) :
    (env.declared target uses block types).styles type = env.styles type :=
  if_neg other

/-- To declare for a type again changes nothing there. -/
theorem extended_declared (member : type ∈ types) :
    ((env.declared target uses block types).styles type).extended
        ((env.declared target uses block types).addition uses (block.map (settled env.values)) type)
        target =
      (env.declared target uses block types).styles type :=
  extended_again env _ rfl (styles_declared_of_mem member)

/-- One more type gets its addition, computed in the environment so far. If it has been declared for
already, that changes nothing. -/
theorem extend_declared (type : TypeId) :
    (env.declared target uses block types).extend type
        ((env.declared target uses block types).addition uses (block.map (settled env.values)) type)
        target =
      env.declared target uses block (types ++ [type]) := by
  rw [extend_eq]
  unfold withStyles
  show Environment.mk .. = Environment.mk ..
  congr 1
  funext other
  by_cases here : other = type
  · subst here
    rw [if_pos rfl, if_pos (List.mem_append_right _ (List.mem_singleton_self _))]
    by_cases before : other ∈ types
    · rw [extended_declared before, styles_declared_of_mem before]
    · have same : (env.declared target uses block types).styles other = env.styles other :=
        styles_declared_of_not_mem before
      rw [same, addition_congr same rfl]
  · rw [if_neg here]
    have kept : other ∈ types ++ [type] ↔ other ∈ types := by simp [here]
    simp only [kept]
    rfl

/-- What has been declared for can be declared for again, and stays the same. -/
theorem declared_declared :
    (env.declared target uses block types).declared target uses block types =
      env.declared target uses block types := by
  show Environment.mk .. = Environment.mk ..
  congr 1
  funext type
  by_cases member : type ∈ types
  · exact (if_pos member).trans (extended_declared member)
  · exact if_neg member

/-- A type that is declared for has all classes that the declaration uses, before and after. -/
theorem hasClasses_declared_iff (all : ∀ type ∈ types, env.HasClasses type uses) :
    (env.declared target uses block types).HasClasses type uses ↔ env.HasClasses type uses := by
  unfold HasClasses bundle?
  by_cases member : type ∈ types
  · refine iff_of_true (fun used inside => ?_) (all type member)
    rw [styles_declared_of_mem member]
    have held : ∃ bundle, (env.styles type).targeted? (.bundle used.name.content) = some bundle :=
      all type member used inside
    exact Styles.targeted?_extended_some _ held
  · rw [styles_declared_of_not_mem member]

theorem eligible_declared_iff (all : ∀ type ∈ types, env.HasClasses type uses) :
    (env.declared target uses block types).Eligible uses block type ↔
      env.Eligible uses block type := by
  constructor
  · intro eligible
    exact ⟨(hasClasses_declared_iff all).1 eligible.classes, eligible.main⟩
  · intro eligible
    exact ⟨(hasClasses_declared_iff all).2 eligible.classes, eligible.main⟩

/-! ### When declarations succeed -/

theorem mapM_resolveSettings_checks (block : Option PropertyBlock) :
    Checks (block.mapM env.resolveSettings) (block.toList.flatMap (PropertyBlock.faults env))
      (· = block.map (settled env.values)) := by
  cases block with
  | none => exact .pure rfl
  | some given =>
    rw [Option.mapM_some, Option.toList_some, List.flatMap_singleton]
    exact (env.resolveSettings_checks given).bind_pure fun settings same => congrArg some same

/-- What a declaration needs of the type of one path: the classes in the environment so far, and a
main property for its main value. -/
theorem declareForPath_checks {path : TypePath} (next : Environment)
    (leads : env.resolvePath path = .ok type) (registry : next.registry = env.registry) :
    Checks (env.declareForPath target uses (block.map (settled env.values)) next path)
      (env.classFaults next type uses ++ block.toList.flatMap (env.mainFaults type [path.start]))
      (· = next.extend type (next.addition uses (block.map (settled env.values)) type) target) := by
  have root : Checks (env.resolvePath path) [] (· = type) := by
    rw [leads]
    exact .pure rfl
  refine root.bind fun found same => ?_
  rw [same]
  refine (env.withClasses_checks next Table.empty uses).bind fun styled same => ?_
  rw [same]
  cases block with
  | none => exact .pure rfl
  | some given =>
    rw [Option.toList_some, List.flatMap_singleton]
    refine (env.withBlock_checks [path.start] _ given).bind_pure fun added same => ?_
    rw [same]
    unfold addition mainOf
    rw [registry]
    rfl

/-- A path is declared for if it leads to an eligible type, whatever was declared for before. -/
theorem declareForPath_eq_ok_iff {path : TypePath}
    (all : ∀ type ∈ types, env.HasClasses type uses) :
    env.declareForPath target uses (block.map (settled env.values))
        (env.declared target uses block types) path = .ok after ↔
      ∃ type, env.resolvePath path = .ok type ∧ env.Eligible uses block type ∧
        after = env.declared target uses block (types ++ [type]) := by
  cases leads : env.resolvePath path with
  | error error =>
    refine iff_of_false (fun done => ?_) fun ⟨_, same, _⟩ => nomatch same
    unfold declareForPath at done
    rw [leads] at done
    cases done
  | ok type =>
    have none : env.classFaults (env.declared target uses block types) type uses ++
        block.toList.flatMap (env.mainFaults type [path.start]) = [] ↔
          env.Eligible uses block type := by
      simp only [List.append_eq_nil_iff, classFaults_eq_nil_iff, List.flatMap_eq_nil_iff,
        mainFaults_eq_nil_iff, Option.mem_toList]
      rw [hasClasses_declared_iff all]
      exact ⟨fun ⟨classes, main⟩ => ⟨classes, main⟩, fun ⟨classes, main⟩ => ⟨classes, main⟩⟩
    rw [(declareForPath_checks (env.declared target uses block types) leads rfl).eq_ok_iff, none,
      extend_declared]
    exact ⟨fun both => ⟨type, rfl, both⟩, fun ⟨_, same, both⟩ => Except.ok.inj same ▸ both⟩

/-- The types that paths lead to. -/
def targets (env : Environment) (paths : List TypePath) : List TypeId :=
  paths.filterMap fun path => env.registry.follow? env.current path

theorem mem_targets_iff {paths : List TypePath} :
    type ∈ env.targets paths ↔ ∃ path ∈ paths, env.resolvePath path = .ok type := by
  simp only [targets, List.mem_filterMap, resolvePath_eq_ok_iff]

theorem targets_cons {path : TypePath} (leads : env.resolvePath path = .ok type)
    (rest : List TypePath) : env.targets (path :: rest) = type :: env.targets rest :=
  List.filterMap_cons_some (env.resolvePath_eq_ok_iff.1 leads)

/-- Paths are declared for, one after the other, if each of them leads to an eligible type. Then
these types have been declared for beside those that were so before. -/
theorem foldlM_declareForPath_eq_ok_iff {paths : List TypePath}
    (all : ∀ type ∈ types, env.HasClasses type uses) :
    paths.foldlM (env.declareForPath target uses (block.map (settled env.values)))
        (env.declared target uses block types) = .ok after ↔
      (∀ path ∈ paths, ∃ type, env.resolvePath path = .ok type ∧ env.Eligible uses block type) ∧
      after = env.declared target uses block (types ++ env.targets paths) := by
  induction paths generalizing types with
  | nil =>
    show Except.ok _ = Except.ok after ↔ _
    simp [targets, eq_comm]
  | cons path rest ih =>
    have all' : ∀ type, env.Eligible uses block type →
        ∀ other ∈ types ++ [type], env.HasClasses other uses := by
      intro type eligible other member
      rcases List.mem_append.1 member with before | same
      · exact all other before
      · exact List.mem_singleton.1 same ▸ eligible.classes
    have regroup : ∀ type, env.resolvePath path = .ok type →
        types ++ env.targets (path :: rest) = types ++ [type] ++ env.targets rest := by
      intro type leads
      rw [targets_cons leads, List.append_assoc]
      rfl
    rw [List.foldlM_cons, Ends.bind_eq_ok_iff, List.forall_mem_cons]
    constructor
    · rintro ⟨middle, here, later⟩
      obtain ⟨type, leads, eligible, rfl⟩ := (declareForPath_eq_ok_iff all).1 here
      obtain ⟨each, rfl⟩ := (ih (all' type eligible)).1 later
      exact ⟨⟨⟨type, leads, eligible⟩, each⟩, by rw [regroup type leads]⟩
    · rintro ⟨⟨⟨type, leads, eligible⟩, each⟩, rfl⟩
      refine ⟨_, (declareForPath_eq_ok_iff all).2 ⟨type, leads, eligible, rfl⟩, ?_⟩
      exact (ih (all' type eligible)).2 ⟨each, by rw [regroup type leads]⟩

/-- The settings of a block have a meaning just if its values are bound and its names distinct. -/
theorem mapM_resolveSettings_eq_ok_iff :
    block.mapM env.resolveSettings = .ok settings ↔
      (∀ given, block = some given → given.FitsIn env.values) ∧
      settings = block.map (settled env.values) := by
  rw [(mapM_resolveSettings_checks block).eq_ok_iff, List.flatMap_eq_nil_iff]
  simp only [PropertyBlock.faults_eq_nil_iff, Option.mem_toList]

/-- **When a declaration with paths succeeds**, and what it leads to: its block fits, and all paths
lead to eligible types. -/
theorem declareForPaths_eq_ok_iff {paths : List TypePath} :
    env.declareForPaths target paths uses block = .ok after ↔
      (∀ given, block = some given → given.FitsIn env.values) ∧
      (∀ path ∈ paths, ∃ type, env.resolvePath path = .ok type ∧ env.Eligible uses block type) ∧
      after = env.declared target uses block (env.targets paths) := by
  unfold declareForPaths
  rw [Ends.bind_eq_ok_iff]
  simp only [mapM_resolveSettings_eq_ok_iff]
  constructor
  · rintro ⟨_, ⟨fits, rfl⟩, folded⟩
    exact ⟨fits, (foldlM_declareForPath_eq_ok_iff (List.forall_mem_nil _)).1 folded⟩
  · rintro ⟨fits, folded⟩
    exact ⟨_, ⟨fits, rfl⟩, (foldlM_declareForPath_eq_ok_iff (List.forall_mem_nil _)).2 folded⟩

/-- When a declaration without paths succeeds, and what it leads to. Without any eligible type its
block does not count. -/
theorem declareForAll_eq_ok_iff :
    env.declareForAll target uses block = .ok after ↔
      (env.eligibleTypes uses block ≠ [] →
        ∀ given, block = some given → given.FitsIn env.values) ∧
      after = env.declared target uses block (env.eligibleTypes uses block) := by
  rw [declareForAll_eq]
  split
  · next none =>
    rw [none, declared_nil, Except.ok.injEq]
    simp [eq_comm]
  · next some =>
    rw [Ends.bind_eq_ok_iff]
    simp only [mapM_resolveSettings_eq_ok_iff, extendEach_eq eligibleTypes_nodup]
    constructor
    · rintro ⟨_, ⟨fits, rfl⟩, same⟩
      exact ⟨fun _ => fits, (Except.ok.inj same).symm⟩
    · rintro ⟨fits, rfl⟩
      exact ⟨_, ⟨fits some, rfl⟩, rfl⟩

/-! ### Declaring again -/

/-- **A declaration that has been made** changes nothing when it is made again. -/
theorem declare_again {paths : List TypePath}
    (done : env.declare target paths uses block = .ok after) :
    after.declare target paths uses block = .ok after := by
  unfold declare at done ⊢
  split at done
  · next none =>
    rw [if_pos none]
    obtain ⟨fits, rfl⟩ := declareForAll_eq_ok_iff.1 done
    have all : ∀ type ∈ env.eligibleTypes uses block, env.HasClasses type uses :=
      fun type member => (mem_eligibleTypes.1 member).2.classes
    have types : (env.declared target uses block (env.eligibleTypes uses block)).eligibleTypes uses
        block = env.eligibleTypes uses block := by
      refine List.filter_congr fun type _ => ?_
      rw [decide_eq_decide]
      exact eligible_declared_iff all
    refine declareForAll_eq_ok_iff.2 ⟨?_, ?_⟩
    · rw [types]
      exact fits
    · rw [types, declared_declared]
  · next some =>
    rw [if_neg some]
    obtain ⟨fits, leads, rfl⟩ := declareForPaths_eq_ok_iff.1 done
    have all : ∀ type ∈ env.targets paths, env.HasClasses type uses := by
      intro type member
      obtain ⟨path, inside, here⟩ := mem_targets_iff.1 member
      obtain ⟨other, there, eligible⟩ := leads path inside
      rw [here] at there
      exact Except.ok.inj there ▸ eligible.classes
    refine declareForPaths_eq_ok_iff.2 ⟨fits, fun path inside => ?_, ?_⟩
    · obtain ⟨type, here, eligible⟩ := leads path inside
      exact ⟨type, (resolvePath_eq_ok_iff _).2 (env.resolvePath_eq_ok_iff.1 here),
        (eligible_declared_iff all).2 eligible⟩
    · exact declared_declared.symm

/-! ### What declarations change -/

/-- What an environment holds for a type and the target of a declaration. -/
def targeted? (env : Environment) (type : TypeId) (target : Target) : Option Properties :=
  (env.styles type).targeted? target

theorem targeted?_declared (type : TypeId) (other : Target) :
    (env.declared target uses block types).targeted? type other =
      if other = target ∧ type ∈ types then
        some ((env.styles type).overlaid
          (env.addition uses (block.map (settled env.values)) type) target)
      else env.targeted? type other := by
  unfold targeted?
  by_cases member : type ∈ types
  · rw [styles_declared_of_mem member, Styles.targeted?_extended]
    simp only [member, and_true]
  · rw [styles_declared_of_not_mem member, if_neg fun both => member both.2]

end Environment

open Environment

/-- **A declaration for paths** succeeds if its block fits and its paths lead to eligible types.
Then it lays what it sets and what its classes hold over its target, for each of these types, and
changes nothing else; in which order and how often the paths name the types is of no account. No
declaration changes anything the second time, whether it has paths or not. -/
theorem declarations_overlay (env : Environment) (target : Target) (uses : List ClassRef)
    (block : Option PropertyBlock) :
    (∀ paths, (∃ after, env.declareForPaths target paths uses block = .ok after) ↔
      (∀ given, block = some given → given.FitsIn env.values) ∧
      ∀ path ∈ paths, ∃ type, env.resolvePath path = .ok type ∧ env.Eligible uses block type) ∧
    (∀ paths after, env.declareForPaths target paths uses block = .ok after →
      env.Restyled after ∧
      (∀ type other, (other = target ∧ ∃ path ∈ paths, env.resolvePath path = .ok type) →
        ∃ table, after.targeted? type other = some table ∧ ∀ key, table.get? key =
          (env.declaredText? type uses block key).or
            ((env.targeted? type other).bind fun held => held.get? key)) ∧
      (∀ type other, ¬ (other = target ∧ ∃ path ∈ paths, env.resolvePath path = .ok type) →
        after.targeted? type other = env.targeted? type other) ∧
      ∀ paths', (∀ path, path ∈ paths' ↔ path ∈ paths) →
        env.declareForPaths target paths' uses block = .ok after) ∧
    ∀ element after, element.directive.isDeclaration = true →
      env.applyElement element = .ok after → after.applyElement element = .ok after := by
  refine ⟨fun paths => ?_, fun paths after done => ?_, fun element after declares done => ?_⟩
  · simp only [declareForPaths_eq_ok_iff, exists_and_left, exists_eq, and_true]
  · obtain ⟨fits, leads, rfl⟩ := declareForPaths_eq_ok_iff.1 done
    refine ⟨⟨_, rfl⟩, fun type other both => ?_, fun type other neither => ?_,
      fun paths' same => ?_⟩
    · rw [← mem_targets_iff] at both
      rw [targeted?_declared, if_pos both]
      refine ⟨_, rfl, fun key => ?_⟩
      rw [Styles.get?_overlaid, get?_addition_settled fits, both.1]
      rfl
    · rw [← mem_targets_iff] at neither
      rw [targeted?_declared, if_neg neither]
    · have leads' := fun path inside => leads path ((same path).1 inside)
      refine declareForPaths_eq_ok_iff.2 ⟨fits, leads', declared_congr fun type => ?_⟩
      simp only [mem_targets_iff, same]
  · obtain ⟨start, fallback, directive⟩ := element
    cases directive with
    | value => cases declares
    | content => cases declares
    | bundle declared paths uses block => exact declare_again done
    | defaults paths uses block => exact declare_again done

/-- A class of code that extends itself, for a path that is given twice, keeps its color and changes
its language, as it does for the path given once. -/
theorem declarations_overlay_fancy :
    let word (text : String) : Word := ⟨text, Position.start⟩
    let env := (Environment.ofFile Reader.nothing "" codeRegistry).extendBundle ⟨1⟩ "fancy"
      (Table.empty.insertAll [("color", "red"), ("language", "c")])
    let fancy : ClassRef := ⟨Position.start, word "fancy"⟩
    let code : TypePath := .absolute (word "box") [⟨Position.start, word "code"⟩]
    let block : PropertyBlock := ⟨Position.start, some (.literal (word "rust")), []⟩
    let element : PreambleElement :=
      ⟨Position.start, none, .bundle fancy [code, code] [fancy] (some block)⟩
    ∃ after, env.applyElement element = .ok after ∧
      (∃ bundle, after.bundle? ⟨1⟩ "fancy" = some bundle ∧ bundle.get? "color" = some "red" ∧
        bundle.get? "language" = some "rust") ∧
      after.defaults ⟨1⟩ = env.defaults ⟨1⟩ ∧
      env.declareForPaths (.bundle "fancy") [code] [fancy] (some block) = .ok after ∧
      after.applyElement element = .ok after := by
  intro word env fancy code block element
  obtain ⟨succeeds, forPaths, again⟩ :=
    declarations_overlay env (.bundle "fancy") [fancy] (some block)
  have fits : ∀ given, some block = some given → given.FitsIn env.values := by
    rintro given ⟨rfl⟩
    exact ⟨fun value member => List.mem_singleton.1 member ▸ trivial, List.nodup_nil⟩
  have leads : ∀ path ∈ [code, code], ∃ type, env.resolvePath path = .ok type ∧
      env.Eligible [fancy] (some block) type := by
    intro path member
    have same : path = code := by simpa using member
    exact same ▸ ⟨⟨1⟩, rfl, by decide⟩
  obtain ⟨after, done⟩ : ∃ after, env.applyElement element = .ok after :=
    (succeeds [code, code]).2 ⟨fits, leads⟩
  obtain ⟨-, changed, kept, regrouped⟩ := forPaths [code, code] after done
  obtain ⟨bundle, found, each⟩ :=
    changed ⟨1⟩ (.bundle "fancy") ⟨rfl, code, List.mem_cons_self, rfl⟩
  have defaults : after.targeted? ⟨1⟩ .defaults = env.targeted? ⟨1⟩ .defaults :=
    kept ⟨1⟩ .defaults fun both => nomatch both.1
  exact ⟨after, done, ⟨bundle, found, (each _).trans rfl, (each _).trans rfl⟩,
    Option.some.inj defaults, regrouped [code] (by simp), again element after rfl done⟩

end TypedMarkup
