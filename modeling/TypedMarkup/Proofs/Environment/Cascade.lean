/-
**The cascade.** Where each property of a node comes from, and what keeps a node from having any.

* `PropertyBlock.textFor` is what a block sets a property to, and `Environment.classText?` what the
  classes of a node do.
* `Environment.nodeFaults` lists all faults of classes and a block, in the order in which they
  count.
* `resolveSettings_checks`, `withClasses_checks` and `mainEntry_checks`: each part of the cascade
  reports its first fault.
* `nodeProperties_cascades`: so do the properties of a node; without faults they are those of the
  block, then those of the classes, the last one first, then the defaults.
-/

import TypedMarkup.Proofs.Checks
import TypedMarkup.Proofs.Environment.Declarations
import TypedMarkup.Proofs.Tree.Leaves

namespace TypedMarkup

variable {env : Environment} {type : TypeId} {uses : List ClassRef} {given : PropertyBlock}

/-! ### What a block sets -/

/-- The text that a setting sets. -/
def Setting.textIn (values : Bindings String) : Setting → String
  | .pair _ value => value.textIn values
  | .flag _ => "true"
  | .negated _ _ => "false"

/-- The value in a setting, of pairs only. -/
def Setting.value? : Setting → Option Value
  | .pair _ value => some value
  | .flag _ | .negated _ _ => none

namespace PropertyBlock

/-- The names that a block sets, in its order. -/
def names (block : PropertyBlock) : List String :=
  block.settings.map fun setting => setting.name.content

/-- The values in a block. -/
def values (block : PropertyBlock) : List Value :=
  block.main.toList ++ block.settings.filterMap Setting.value?

/-- The names that a block sets and their texts. -/
def entries (values : Bindings String) (block : PropertyBlock) : List (String × String) :=
  block.settings.map fun setting => (setting.name.content, setting.textIn values)

/-- What a block sets a property to: by its name, or through the main value if it is the main
property. -/
def textFor (values : Bindings String) (mainProperty : Option String) (block : PropertyBlock)
    (key : String) : Option String :=
  ((block.entries values).lookup key).or
    (if mainProperty = some key then block.main.map (Value.textIn values) else none)

end PropertyBlock

/-! ### What a block needs -/

/-- The name in a value is bound. -/
def Value.IsBoundIn (values : Bindings String) : Value → Prop
  | .bound _ name => (values.get? name.content).isSome = true
  | .literal _ | .escaped _ => True

/-- The values in a block are bound, and it sets no name twice. -/
structure PropertyBlock.FitsIn (values : Bindings String) (block : PropertyBlock) : Prop where
  bound : ∀ value ∈ block.values, value.IsBoundIn values
  distinct : block.names.Nodup

/-- The faults of a value: its name is not bound. -/
def Value.faults (env : Environment) : Value → List Error
  | .bound _ name =>
    if (env.value? name.content).isSome then []
    else [.of env (.unboundValue name.content) [name.start]]
  | .literal _ | .escaped _ => []

/-- The faults of a setting behind others: one of them has its name, or its value is not bound. -/
def Setting.faults (env : Environment) (before : List Setting) (setting : Setting) : List Error :=
  let name := setting.name
  let same := before.find? fun earlier => earlier.name.content == name.content
  (same.toList.map fun earlier =>
      Error.of env (.duplicateProperty name.content) [earlier.name.start, name.start]) ++
    setting.value?.toList.flatMap (Value.faults env)

/-- The faults of settings behind others. -/
def settingsFaults (env : Environment) (before : List Setting) : List Setting → List Error
  | [] => []
  | setting :: rest =>
    setting.faults env before ++ settingsFaults env (before ++ [setting]) rest

/-- The faults of the values and the names in a block. -/
def PropertyBlock.faults (env : Environment) (block : PropertyBlock) : List Error :=
  block.main.toList.flatMap (Value.faults env) ++ settingsFaults env [] block.settings

namespace Environment

/-- The faults of a main value for a type: there is no main property, or a setting has its name.
Errors also name the places `before` the value. -/
def mainFaults (env : Environment) (type : TypeId) (before : List Position)
    (block : PropertyBlock) : List Error :=
  match block.main, (env.registry.get type).mainProperty with
  | none, _ => []
  | some value, none => [.of env (.noMainProperty (env.typeName type)) (before ++ [value.start])]
  | some value, some name =>
    (block.settings.find? fun setting => setting.name.content == name).toList.map fun setting =>
      .of env (.duplicateMainProperty name (env.typeName type))
        (before ++ [value.start, setting.name.start])

/-- The faults of classes of a type: it does not have them in `source`. -/
def classFaults (env source : Environment) (type : TypeId) (uses : List ClassRef) : List Error :=
  uses.flatMap fun used =>
    if (source.bundle? type used.name.content).isSome then []
    else [.of env (.noSuchClass used.name.content (env.typeName type)) [used.name.start]]

/-- The faults of the classes and the block of a node, in the order in which they count. -/
def nodeFaults (env : Environment) (type : TypeId) (uses : List ClassRef)
    (block : Option PropertyBlock) : List Error :=
  env.classFaults env type uses ++
    block.toList.flatMap fun given => given.faults env ++ env.mainFaults type [] given

end Environment

/-! ### Without faults -/

theorem Value.faults_eq_nil_iff (value : Value) :
    value.faults env = [] ↔ value.IsBoundIn env.values := by
  cases value with
  | literal word => exact iff_of_true rfl trivial
  | escaped text => exact iff_of_true rfl trivial
  | bound start name =>
    show (if (env.values.get? name.content).isSome then [] else _) = [] ↔
      (env.values.get? name.content).isSome = true
    split
    · next bound => exact iff_of_true rfl bound
    · next unbound => exact iff_of_false (List.cons_ne_nil _ _) unbound

theorem Setting.faults_eq_nil_iff (before : List Setting) (setting : Setting) :
    setting.faults env before = [] ↔
      setting.name.content ∉ before.map (fun earlier => earlier.name.content) ∧
      ∀ value, setting.value? = some value → value.IsBoundIn env.values := by
  unfold Setting.faults
  dsimp only
  rw [List.append_eq_nil_iff, List.map_eq_nil_iff, Option.toList_eq_nil_iff, List.find?_eq_none,
    List.flatMap_eq_nil_iff]
  simp only [Value.faults_eq_nil_iff, Option.mem_toList, List.mem_map, beq_iff_eq,
    not_exists, not_and]

theorem settingsFaults_eq_nil_iff (before rest : List Setting) :
    settingsFaults env before rest = [] ↔
      (∀ setting ∈ rest, ∀ value, setting.value? = some value → value.IsBoundIn env.values) ∧
      (rest.map fun setting => setting.name.content).Nodup ∧
      ∀ setting ∈ rest, setting.name.content ∉ before.map fun earlier => earlier.name.content := by
  induction rest generalizing before with
  | nil => simp [settingsFaults]
  | cons setting rest ih =>
    -- A later setting meets this one just if this one meets it.
    have behind : (∀ later ∈ rest, later.name.content ∉
        (before ++ [setting]).map fun earlier => earlier.name.content) ↔
        (∀ later ∈ rest, later.name.content ∉ before.map fun earlier => earlier.name.content) ∧
        setting.name.content ∉ rest.map fun later => later.name.content := by
      simp only [List.map_append, List.map_cons, List.map_nil, List.mem_append, List.mem_singleton,
        not_or, forall_and, List.mem_map, not_exists, not_and]
    rw [settingsFaults, List.append_eq_nil_iff, Setting.faults_eq_nil_iff, ih, behind,
      List.map_cons, List.nodup_cons, List.forall_mem_cons, List.forall_mem_cons]
    constructor
    · rintro ⟨⟨new, bound⟩, all, distinct, old, differs⟩
      exact ⟨⟨bound, all⟩, ⟨differs, distinct⟩, new, old⟩
    · rintro ⟨⟨bound, all⟩, ⟨differs, distinct⟩, new, old⟩
      exact ⟨⟨new, bound⟩, all, distinct, old, differs⟩

theorem PropertyBlock.faults_eq_nil_iff : given.faults env = [] ↔ given.FitsIn env.values := by
  have values : (∀ value ∈ given.values, value.IsBoundIn env.values) ↔
      (∀ value ∈ given.main.toList, value.IsBoundIn env.values) ∧
      ∀ setting ∈ given.settings, ∀ value, setting.value? = some value →
        value.IsBoundIn env.values := by
    simp only [PropertyBlock.values, List.mem_append, or_imp, forall_and, List.mem_filterMap,
      forall_exists_index, and_imp]
    refine and_congr_right fun _ => ?_
    exact ⟨fun all setting member value => all value setting member,
      fun all value setting member => all setting member value⟩
  unfold PropertyBlock.faults
  rw [List.append_eq_nil_iff, settingsFaults_eq_nil_iff, List.flatMap_eq_nil_iff]
  simp only [Value.faults_eq_nil_iff, List.map_nil, List.not_mem_nil, not_false_eq_true,
    implies_true, and_true]
  constructor
  · rintro ⟨main, bound, distinct⟩
    exact ⟨values.2 ⟨main, bound⟩, distinct⟩
  · rintro ⟨bound, distinct⟩
    exact ⟨(values.1 bound).1, (values.1 bound).2, distinct⟩

namespace Environment

theorem mainFaults_eq_nil_iff (before : List Position) :
    env.mainFaults type before given = [] ↔
      (given.main.isSome = true → env.TakesMain type given.names) := by
  unfold mainFaults TakesMain PropertyBlock.names
  cases given.main with
  | none => simp
  | some value =>
    cases (env.registry.get type).mainProperty with
    | none => simp
    | some name => simp

theorem classFaults_eq_nil_iff {source : Environment} :
    env.classFaults source type uses = [] ↔ source.HasClasses type uses := by
  unfold classFaults HasClasses
  rw [List.flatMap_eq_nil_iff]
  refine forall₂_congr fun used _ => ?_
  rw [← Option.isSome_iff_exists]
  split
  · next found => exact iff_of_true rfl found
  · next missing => exact iff_of_false (List.cons_ne_nil _ _) missing

/-- A node has all its classes, and its block has a meaning for its type. -/
def Takes (env : Environment) (type : TypeId) (uses : List ClassRef)
    (block : Option PropertyBlock) : Prop :=
  env.Eligible uses block type ∧ ∀ given, block = some given → given.FitsIn env.values

theorem nodeFaults_eq_nil_iff {block : Option PropertyBlock} :
    env.nodeFaults type uses block = [] ↔ env.Takes type uses block := by
  unfold nodeFaults
  rw [List.append_eq_nil_iff, classFaults_eq_nil_iff, List.flatMap_eq_nil_iff]
  simp only [List.append_eq_nil_iff, PropertyBlock.faults_eq_nil_iff, mainFaults_eq_nil_iff,
    Option.mem_toList]
  exact ⟨fun ⟨classes, rest⟩ => ⟨⟨classes, fun given same => (rest given same).2⟩,
      fun given same => (rest given same).1⟩,
    fun ⟨⟨classes, main⟩, fits⟩ => ⟨classes, fun given same => ⟨fits given same, main given same⟩⟩⟩

/-! ### First faults -/

theorem resolveValue_checks (value : Value) :
    Checks (env.resolveValue value) (value.faults env) (· = value.textIn env.values) := by
  cases value with
  | literal word => exact .pure rfl
  | escaped text => exact .pure rfl
  | bound start name =>
    unfold resolveValue Value.faults Value.textIn value?
    dsimp only
    cases env.values.get? name.content with
    | some text => exact .pure rfl
    | none => exact .blame _ _

theorem resolveSetting_checks (setting : Setting) :
    Checks (env.resolveSetting setting) (setting.value?.toList.flatMap (Value.faults env))
      (· = setting.textIn env.values) := by
  cases setting with
  | pair name value =>
    rw [Setting.value?, Option.toList_some, List.flatMap_singleton]
    exact resolveValue_checks value
  | flag name => exact .pure rfl
  | negated start name => exact .pure rfl

/-- What a setting sets, and where its name stands. -/
def assigned (values : Bindings String) (setting : Setting) : Assigned :=
  ⟨setting.name.content, setting.textIn values, setting.name.start⟩

theorem assign_checks (before rest : List Setting) :
    Checks (env.assign (before.map (assigned env.values)) rest) (settingsFaults env before rest)
      (· = (before ++ rest).map (assigned env.values)) := by
  induction rest generalizing before with
  | nil =>
    rw [List.append_nil]
    exact .pure rfl
  | cons setting rest ih =>
    have earlier : (before.map (assigned env.values)).find?
          (fun earlier => earlier.name == setting.name.content) =
        (before.find? fun earlier => earlier.name.content == setting.name.content).map
          (assigned env.values) :=
      List.find?_map ..
    unfold assign settingsFaults Setting.faults
    dsimp only
    rw [earlier]
    cases before.find? fun earlier => earlier.name.content == setting.name.content with
    | some earlier => exact .blame _ _
    | none =>
      refine (resolveSetting_checks setting).bind fun text same => ?_
      have behind := ih (before ++ [setting])
      rw [List.map_append, List.append_assoc] at behind
      rw [same]
      exact behind

/-- What a block sets. -/
def settled (values : Bindings String) (block : PropertyBlock) : Settings :=
  ⟨block.main.map fun value => (value.textIn values, value.start),
    block.settings.map (assigned values)⟩

theorem resolveSettings_checks (given : PropertyBlock) :
    Checks (env.resolveSettings given) (given.faults env) (· = settled env.values given) := by
  obtain ⟨start, main, settings⟩ := given
  have named := env.assign_checks [] settings
  unfold PropertyBlock.faults
  cases main with
  | none =>
    refine named.bind_pure fun other same => ?_
    rw [same]
    rfl
  | some value =>
    rw [Option.toList_some, List.flatMap_singleton]
    refine (env.resolveValue_checks value).bind fun text same => ?_
    refine named.bind_pure fun other same' => ?_
    rw [same, same']
    rfl

theorem mainEntry_checks (before : List Position) (given : PropertyBlock) :
    Checks (env.mainEntry type before (settled env.values given))
      (env.mainFaults type before given)
      (· = env.mainOf type (settled env.values given)) := by
  obtain ⟨start, main, settings⟩ := given
  unfold mainEntry mainFaults mainOf settled
  cases main with
  | none => exact .pure rfl
  | some value =>
    cases (env.registry.get type).mainProperty with
    | none => exact .blame _ _
    | some name =>
      have named :
          (settings.map (assigned env.values)).find? (fun assigned => assigned.name == name) =
          (settings.find? fun setting => setting.name.content == name).map (assigned env.values) :=
        List.find?_map ..
      dsimp only [Option.map_some]
      rw [named]
      cases settings.find? fun setting => setting.name.content == name with
      | none => exact .pure rfl
      | some setting => exact .blame _ _

theorem withBlock_checks (before : List Position) (properties : Properties)
    (given : PropertyBlock) :
    Checks (env.withBlock type before properties (settled env.values given))
      (env.mainFaults type before given)
      (· = properties.insertAll (env.mainOf type (settled env.values given) ++
        (settled env.values given).entries)) := by
  refine (env.mainEntry_checks before given).bind_pure fun entries same => ?_
  rw [same]

theorem withClasses_checks (source : Environment) (properties : Properties) (uses : List ClassRef) :
    Checks (env.withClasses source type properties uses) (env.classFaults source type uses)
      (· = source.styled type uses properties) := by
  induction uses generalizing properties with
  | nil => exact .pure rfl
  | cons used rest ih =>
    unfold withClasses classFaults styled
    rw [List.flatMap_cons, List.foldl_cons]
    cases source.bundle? type used.name.content with
    | some bundle => exact ih _
    | none => exact .blame _ _

/-- The properties of a node are its styles with the entries of its block over them. -/
theorem nodeProperties_checks (block : Option PropertyBlock) :
    Checks (env.nodeProperties type uses block) (env.nodeFaults type uses block) (· =
      (env.styled type uses (env.defaults type)).insertAll (block.toList.flatMap fun given =>
        env.mainOf type (settled env.values given) ++ (settled env.values given).entries)) := by
  unfold nodeProperties nodeFaults
  refine (env.withClasses_checks env _ uses).bind fun styled same => ?_
  rw [same]
  cases block with
  | none => exact .pure rfl
  | some given =>
    simp only [Option.toList_some, List.flatMap_singleton]
    refine (env.resolveSettings_checks given).bind fun settings same => ?_
    rw [same]
    exact env.withBlock_checks [] _ given

/-! ### Properties -/

/-- What the classes of a node set a property to: the last class that does so counts. -/
def classText? (env : Environment) (type : TypeId) (uses : List ClassRef) (key : String) :
    Option String :=
  uses.reverse.findSome? fun used =>
    (env.bundle? type used.name.content).bind fun bundle => bundle.get? key

theorem get?_styled (properties : Properties) (uses : List ClassRef) (key : String) :
    (env.styled type uses properties).get? key =
      (env.classText? type uses key).or (properties.get? key) := by
  induction uses generalizing properties with
  | nil => rfl
  | cons used rest ih =>
    unfold styled classText?
    rw [List.foldl_cons, List.reverse_cons, List.findSome?_append]
    refine (ih _).trans ?_
    rw [Table.get?_overlay, ← Option.or_assoc, List.findSome?_singleton]
    unfold classText?
    cases env.bundle? type used.name.content <;> rfl

/-- Among the entries of a block the named ones count before the main one. -/
theorem lookup_settled (fits : given.FitsIn env.values) (key : String) :
    (env.mainOf type (settled env.values given) ++
        (settled env.values given).entries).reverse.lookup key =
      given.textFor env.values (env.registry.get type).mainProperty key := by
  have named : (settled env.values given).entries = given.entries env.values := by
    unfold settled Settings.entries PropertyBlock.entries
    rw [List.map_map]
    rfl
  have distinct : ((given.entries env.values).map Prod.fst).Nodup := by
    unfold PropertyBlock.entries
    rw [List.map_map]
    exact fits.distinct
  rw [named, List.reverse_append, List.lookup_append, Table.lookup_reverse distinct]
  unfold PropertyBlock.textFor mainOf settled
  congr 1
  cases given.main with
  | none => simp
  | some value =>
    cases (env.registry.get type).mainProperty with
    | none => rfl
    | some name =>
      show [(name, value.textIn env.values)].lookup key =
        if some name = some key then some (value.textIn env.values) else none
      rw [Table.lookup_entry, List.lookup_nil]
      simp only [Option.some.injEq, eq_comm]

end Environment

open Environment

/-- **The properties of a node.** There are any just if the node has all its classes, the values in
its block are bound, no name is set twice and a main value can be taken. Then the block counts
first, the classes from the last one on after it, and the defaults at the end; otherwise the first
fault is reported. -/
theorem nodeProperties_cascades (env : Environment) (type : TypeId) (classes : List ClassRef)
    (block : Option PropertyBlock) :
    ((∃ properties, env.nodeProperties type classes block = .ok properties) ↔
      env.Takes type classes block) ∧
    (∀ properties, env.nodeProperties type classes block = .ok properties → ∀ key,
      properties.get? key =
        (block.bind fun given =>
            given.textFor env.values (env.registry.get type).mainProperty key).or
          ((env.classText? type classes key).or ((env.defaults type).get? key))) ∧
    ∀ error, env.nodeProperties type classes block = .error error →
      (env.nodeFaults type classes block).head? = some error := by
  have checks : Checks (env.nodeProperties type classes block) (env.nodeFaults type classes block)
      _ := nodeProperties_checks block
  refine ⟨checks.succeeds_iff.trans nodeFaults_eq_nil_iff, fun properties found key => ?_,
    fun error failed => ?_⟩
  · obtain ⟨none, rfl⟩ := (checks.eq_ok_iff properties).1 found
    rw [Table.get?_insertAll, get?_styled]
    congr 1
    cases block with
    | none => rfl
    | some given =>
      rw [Option.toList_some, List.flatMap_singleton]
      exact lookup_settled ((nodeFaults_eq_nil_iff.1 none).2 given rfl) key
  · rw [failed] at checks
    exact checks

/-- Code that is fancy is written in a language and without numbers; to set its language twice is an
error. -/
theorem nodeProperties_cascades_code :
    let word (text : String) : Word := ⟨text, Position.start⟩
    let bound := (Environment.ofFile Reader.nothing "" codeRegistry).withValue "x" "rust"
    let env := bound.extendBundle ⟨1⟩ "fancy"
      (Table.empty.insertAll [("color", "red"), ("numbers", "true")])
    let fancy : List ClassRef := [⟨Position.start, word "fancy"⟩]
    let main : Value := .bound Position.start (word "x")
    let block : PropertyBlock :=
      ⟨Position.start, some main, [.negated Position.start (word "numbers")]⟩
    let twice : PropertyBlock := ⟨Position.start, some main, [.flag (word "language")]⟩
    env.Takes ⟨1⟩ fancy (some block) ∧
    (∃ properties, env.nodeProperties ⟨1⟩ fancy (some block) = .ok properties ∧
      properties.get? "language" = some "rust" ∧ properties.get? "numbers" = some "false" ∧
      properties.get? "color" = some "red") ∧
    (env.nodeFaults ⟨1⟩ fancy (some twice)).head? = some (.of env
      (.duplicateMainProperty "language" (env.typeName ⟨1⟩)) [Position.start, Position.start]) := by
  intro word bound env fancy main block twice
  have both := nodeProperties_cascades env ⟨1⟩ fancy (some block)
  have found : ∃ properties, env.nodeProperties ⟨1⟩ fancy (some block) = .ok properties := ⟨_, rfl⟩
  refine ⟨both.1.1 found, ?_, ?_⟩
  · obtain ⟨properties, found⟩ := found
    have each := both.2.1 properties found
    exact ⟨properties, found, (each _).trans rfl, (each _).trans rfl, (each _).trans rfl⟩
  · exact (nodeProperties_cascades env ⟨1⟩ fancy (some twice)).2.2 _ rfl

end TypedMarkup
