/-
**Forests of types.** A built registry is a forest in the order of its declarations, and the paths
of type names lead to one type each.

* `Registry.child?_eq_some_iff` and `Registry.global?_eq_some_iff`: the tables of children and of
  global types say nothing else than the types themselves do with their parents and names.
* `Registry.slots_fit`: the slots of a map are its own children.
* `Environment.resolvePath_absolute_eq_ok_iff`: an absolute path leads to the type whose names it
  lists. `Environment.resolvePath_relative`: a relative path goes on where the absolute path of the
  type around it ends, and `Environment.resolvePath_relative_ends` says where that leads.
* `joinPath_injective`: a path tells its names, if they contain no backslash.
* `Registry.ofDeclarations_forest`: all of this holds of every built registry.
-/

import TypedMarkup.Proofs.Environment.Declarations
import TypedMarkup.Proofs.Registry.Outline

namespace TypedMarkup

variable {id parent : TypeId} {type : NodeType} {name : String}

/-! ### Joined names -/

/-- Names without backslashes are told by the path that they make. -/
theorem joinPath_injective {names others : List String}
    (clean : ∀ name ∈ names, '\\' ∉ name.toList) (clean' : ∀ name ∈ others, '\\' ∉ name.toList)
    (some : names ≠ []) (some' : others ≠ []) (same : joinPath names = joinPath others) :
    names = others := by
  have split : ∀ {names : List String}, (∀ name ∈ names, '\\' ∉ name.toList) → names ≠ [] →
      (joinPath names).toList.splitOn '\\' = names.map String.toList := by
    intro names clean some
    have parts : ∀ part ∈ names.map String.toList, '\\' ∉ part := by
      intro part member
      obtain ⟨name, inside, rfl⟩ := List.mem_map.1 member
      exact clean name inside
    unfold joinPath
    rw [String.toList_intercalate]
    exact List.splitOn_intercalate '\\' parts (mt List.map_eq_nil_iff.1 some)
  have texts : names.map String.toList = others.map String.toList := by
    rw [← split clean some, ← split clean' some', same]
  exact List.map_injective_iff.2 (fun _ _ => String.toList_injective) texts

namespace Registry

variable {decls : List NamedDecl} {registry : Registry}

/-! ### Declared and built-in types -/

theorem get_builtin {place : Nat} (found : builtinTypes[place]? = some type) :
    registry.get ⟨registry.declared.length + place⟩ = type := by
  unfold get types
  rw [List.getElem?_append_right (Nat.le_add_right _ _), Nat.add_sub_cancel_left, found]
  rfl

/-- A type that is neither built in nor unknown is a declared one. -/
theorem typeAt_declared (other : registry.get id ∉ unknownType :: builtinTypes) :
    typeAt 0 registry.declared id = some (registry.get id) := by
  rw [List.mem_cons, not_or] at other
  by_cases member : id ∈ registry.ids
  · rcases declared_or_builtin member with declared | ⟨place, _, builtin⟩
    · exact declared
    · exact absurd (List.mem_of_getElem? builtin) other.2
  · refine absurd ?_ other.1
    have outside : registry.types.length ≤ id.index := Nat.le_of_not_lt (mt mem_ids.2 member)
    unfold get
    rw [List.getElem?_eq_none outside]
    rfl

theorem mem_ids_of_typeAt (found : typeAt 0 registry.declared id = some type) :
    id ∈ registry.ids := by
  unfold typeAt at found
  rw [if_pos (Nat.zero_le _), Nat.sub_zero] at found
  have inside := (List.getElem?_eq_some_iff.1 found).1
  rw [mem_ids]
  unfold size types
  rw [List.length_append]
  exact Nat.lt_add_right _ inside

theorem mem_ids_of_builtin {place : Nat} (found : builtinTypes[place]? = some type) :
    (⟨registry.declared.length + place⟩ : TypeId) ∈ registry.ids := by
  have inside := (List.getElem?_eq_some_iff.1 found).1
  rw [mem_ids]
  unfold size types
  rw [List.length_append]
  exact Nat.add_lt_add_left inside _

/-- A name of a built-in type leads to that type. -/
theorem exists_of_builtinRoots_lookup (lookup : registry.builtinRoots.lookup name = some id) :
    ∃ place type, builtinTypes[place]? = some type ∧ type.name = name ∧ type.parent = none ∧
      id = ⟨registry.declared.length + place⟩ := by
  unfold builtinRoots builtinNames builtinTypes at lookup
  simp only [List.map_cons, List.map_nil, List.zip_cons_cons, List.zip_nil_left,
    Table.lookup_entry] at lookup
  split_ifs at lookup with text paragraph inclusion read
  · exact ⟨0, _, rfl, text.symm, rfl, (Option.some.inj lookup).symm⟩
  · exact ⟨1, _, rfl, paragraph.symm, rfl, (Option.some.inj lookup).symm⟩
  · exact ⟨2, _, rfl, inclusion.symm, rfl, (Option.some.inj lookup).symm⟩
  · exact ⟨3, _, rfl, read.symm, rfl, (Option.some.inj lookup).symm⟩
  · cases lookup

/-! ### Children and global types -/

/-- **The children of a type** are the types with that parent, by their names. -/
theorem child?_eq_some_iff (built : ofDeclarations decls = .ok registry) :
    registry.child? parent name = some id ↔
      id ∈ registry.ids ∧ (registry.get id).parent = some parent ∧
        (registry.get id).name = name := by
  constructor
  · intro child
    obtain ⟨children, kind, lookup⟩ := Option.bind_eq_some_iff.1 child
    have declared : typeAt 0 registry.declared parent = some (registry.get parent) := by
      refine typeAt_declared fun other => ?_
      have none : ∀ type ∈ unknownType :: builtinTypes, type.children?.getD [] = [] := by decide
      have empty := none _ other
      rw [kind, Option.getD_some] at empty
      rw [empty] at lookup
      cases lookup
    obtain ⟨held, numbered, named, above⟩ :=
      (outlined built).outlined.held parent _ children declared kind name id lookup
    rw [get_declared numbered]
    exact ⟨mem_ids_of_typeAt numbered, above, named⟩
  · rintro ⟨member, below, rfl⟩
    exact (child?_name (names_fit built) member below).2.2

/-- **The global types** are the types without parents, by their names. -/
theorem global?_eq_some_iff (built : ofDeclarations decls = .ok registry) :
    registry.global? name = some id ↔
      id ∈ registry.ids ∧ (registry.get id).parent = none ∧ (registry.get id).name = name := by
  constructor
  · intro global
    unfold global? at global
    rw [List.lookup_append, Option.or_eq_some_iff] at global
    rcases global with root | ⟨_, builtin⟩
    · obtain ⟨type, numbered, named, top⟩ := (outlined built).own root
      rw [get_declared numbered]
      exact ⟨mem_ids_of_typeAt numbered, top, named⟩
    · obtain ⟨place, type, found, named, top, rfl⟩ := exists_of_builtinRoots_lookup builtin
      rw [get_builtin found]
      exact ⟨mem_ids_of_builtin found, top, named⟩
  · rintro ⟨member, top, rfl⟩
    exact global?_name (names_fit built) member top

/-! ### Names on the way -/

theorem namesTo_of_child? (built : ofDeclarations decls = .ok registry)
    (child : registry.child? parent name = some id) :
    registry.namesTo id = registry.namesTo parent ++ [name] := by
  obtain ⟨member, below, rfl⟩ := (child?_eq_some_iff built).1 child
  obtain ⟨before, _, _⟩ := child?_name (names_fit built) member below
  rw [namesTo, below]
  dsimp only
  rw [if_pos before]

theorem namesTo_of_global? (built : ofDeclarations decls = .ok registry)
    (global : registry.global? name = some id) : registry.namesTo id = [name] := by
  obtain ⟨_, top, rfl⟩ := (global?_eq_some_iff built).1 global
  rw [namesTo, top]

/-! ### Slots -/

/-- A slot of a declared map has a name that the map gives to a child. -/
theorem exists_of_mem_mapped {declared : Declared} {shape : MapType}
    (describes : declared.Describes type) (map : type.map? = some shape) {slot : TypeId}
    (member : slot ∈ shape.mapped) : ∃ name, shape.children.lookup name = some slot := by
  obtain ⟨outer, name, decl⟩ := declared
  obtain ⟨_, describes⟩ := describes
  unfold NodeType.map? at map
  cases decl with
  | list containsParagraphs inParagraph mainProperty decls =>
    obtain ⟨_, _, kind, _⟩ := describes
    rw [kind] at map
    cases map
  | map inParagraph mainProperty decls mapped mainSlot =>
    obtain ⟨_, children, slots, main, kind, _, slotted, _⟩ := describes
    rw [kind] at map
    cases map
    have inside : some slot ∈ slots.map some := List.mem_map_of_mem member
    rw [slotted] at inside
    obtain ⟨name, _, lookup⟩ := List.mem_map.1 inside
    exact ⟨name, lookup⟩
  | preExpander expander mainProperty =>
    rw [describes.2] at map
    cases map
  | postExpander expander mainProperty =>
    rw [describes.2] at map
    cases map

/-- The types of the outline are described by it. -/
theorem describes (built : ofDeclarations decls = .ok registry) {place : Nat} {declared : Declared}
    (listed : (outlineAll [] decls)[place]? = some declared) :
    declared.Describes (registry.get ⟨place⟩) := by
  obtain ⟨inside, same⟩ := List.getElem?_eq_some_iff.1 listed
  obtain ⟨lengths, each⟩ := List.forall₂_iff_get.1 (outlined built).outlined.described
  have numbered : registry.get ⟨place⟩ = registry.declared[place] := by
    refine get_declared ?_
    unfold typeAt
    rw [if_pos (Nat.zero_le _), Nat.sub_zero, List.getElem?_eq_getElem (lengths ▸ inside)]
  rw [numbered, ← same]
  exact each place inside (lengths ▸ inside)

/-- A declared type is described by some declaration. -/
theorem exists_describes (built : ofDeclarations decls = .ok registry)
    (numbered : typeAt 0 registry.declared id = some type) :
    ∃ declared ∈ outlineAll [] decls, declared.Describes type := by
  have here := get_declared numbered
  unfold typeAt at numbered
  rw [if_pos (Nat.zero_le _), Nat.sub_zero] at numbered
  have inside : id.index < (outlineAll [] decls).length := by
    rw [(outlined built).outlined.described.length_eq]
    exact (List.getElem?_eq_some_iff.1 numbered).1
  have described := describes built (List.getElem?_eq_getElem inside)
  exact ⟨_, List.getElem_mem inside, here ▸ described⟩

/-- **The slots of a map** are its own children, and its main slot is a list among them. -/
theorem slots_fit (built : ofDeclarations decls = .ok registry) {shape : MapType}
    (map : (registry.get id).map? = some shape) :
    shape.mapped.Nodup ∧ (∀ slot ∈ shape.mapped, (registry.get slot).parent = some id) ∧
      ∀ main, shape.mainSlot = some main →
        main.child ∈ shape.mapped ∧ (registry.get main.child).list?.isSome = true := by
  have fits := map_fits built map
  refine ⟨fits.distinct, fun slot member => ?_, fun main same => ⟨fits.mainMapped main same, ?_⟩⟩
  · have numbered : typeAt 0 registry.declared id = some (registry.get id) := by
      refine typeAt_declared fun other => ?_
      have none : ∀ type ∈ unknownType :: builtinTypes, type.map? = none := by decide
      rw [none _ other] at map
      cases map
    have children : (registry.get id).children? = some shape.children := by
      unfold NodeType.map? at map
      unfold NodeType.children?
      split at map
      · next kind =>
        cases map
        rw [kind]
      · cases map
    obtain ⟨declared, _, described⟩ := exists_describes built numbered
    obtain ⟨name, lookup⟩ := exists_of_mem_mapped described map member
    obtain ⟨held, found, _, above⟩ :=
      (outlined built).outlined.held id _ shape.children numbered children name slot lookup
    rw [get_declared found]
    exact above
  · obtain ⟨type, found, list⟩ := fits.mainList main same
    rw [get_declared found]
    exact list

/-! ### Ids and ways -/

/-- **The ids** are those of the outline in its order, and the built-in types come behind them. -/
theorem ids_eq (built : ofDeclarations decls = .ok registry) :
    registry.ids = (List.range (outlineAll [] decls).length).map TypeId.mk ++
      [registry.text, registry.paragraph, registry.inclusion, registry.read] := by
  rw [(outlined built).outlined.described.length_eq]
  unfold ids size types
  rw [List.length_append, List.range_add, List.map_append]
  rfl

/-- A built-in type is a global one. -/
theorem namesTo_builtin {place : Nat} (found : builtinTypes[place]? = some type)
    (top : type.parent = none) :
    registry.namesTo ⟨registry.declared.length + place⟩ = [type.name] := by
  have here : registry.get ⟨registry.declared.length + place⟩ = type := get_builtin found
  rw [namesTo, here, top]

/-- **The ways to the types** are those of the outline, and the built-in types are global ones. -/
theorem ids_namesTo (built : ofDeclarations decls = .ok registry) :
    registry.ids.map registry.namesTo =
      (outlineAll [] decls).map Declared.names ++ builtinNames.map fun name => [name] := by
  have ways := (outlined built).outlined.ways registry (fun _ _ => get_declared) rfl
  have behind : registry.waysFrom registry.declared.length 4 =
      builtinNames.map fun name => [name] := by
    show [registry.namesTo ⟨registry.declared.length + 0⟩,
      registry.namesTo ⟨registry.declared.length + 1⟩,
      registry.namesTo ⟨registry.declared.length + 2⟩,
      registry.namesTo ⟨registry.declared.length + 3⟩] = _
    rw [namesTo_builtin rfl rfl, namesTo_builtin rfl rfl, namesTo_builtin rfl rfl,
      namesTo_builtin rfl rfl]
    rfl
  unfold ids size types
  rw [List.length_append, List.map_map, List.range_eq_range', ← ways, ← behind]
  have whole := registry.waysFrom_append 0 registry.declared.length 4
  rw [Nat.zero_add] at whole
  exact whole

/-- Names on the way to a type are names of types. -/
theorem exists_of_mem_namesTo (built : ofDeclarations decls = .ok registry)
    (member : id ∈ registry.ids) (inside : name ∈ registry.namesTo id) :
    ∃ other ∈ registry.ids, (registry.get other).name = name := by
  induction index : id.index using Nat.strongRecOn generalizing id with
  | ind index ih =>
    rw [namesTo] at inside
    split at inside
    · exact ⟨id, member, (List.mem_singleton.1 inside).symm⟩
    · next above below =>
      obtain ⟨before, registered, _⟩ := child?_name (names_fit built) member below
      rw [if_pos before, List.mem_append, List.mem_singleton] at inside
      rcases inside with inside | own
      · exact ih above.index (index ▸ before) registered inside rfl
      · exact ⟨id, member, own.symm⟩

/-- **Qualified names** are names of one type each, if no name contains a backslash. -/
theorem qualifiedName_injective (built : ofDeclarations decls = .ok registry)
    (clean : ∀ declared ∈ outlineAll [] decls, '\\' ∉ declared.name.toList) {other : TypeId}
    (member : id ∈ registry.ids) (member' : other ∈ registry.ids)
    (same : registry.qualifiedName id = registry.qualifiedName other) : id = other := by
  have cleanWay : ∀ {id : TypeId}, id ∈ registry.ids →
      ∀ name ∈ registry.namesTo id, '\\' ∉ name.toList := by
    intro id member name inside
    obtain ⟨found, registered, rfl⟩ := exists_of_mem_namesTo built member inside
    rcases declared_or_builtin registered with numbered | ⟨place, _, builtin⟩
    · obtain ⟨declared, listed, described⟩ := exists_describes built numbered
      rw [described.1]
      exact clean declared listed
    · have plain : ∀ type ∈ builtinTypes, '\\' ∉ type.name.toList := by decide
      exact plain _ (List.mem_of_getElem? builtin)
  have way : registry.namesTo id = registry.namesTo other :=
    joinPath_injective (cleanWay member) (cleanWay member') (namesTo_ne_nil id)
      (namesTo_ne_nil other) same
  have found := ofNames?_namesTo (names_fit built) member
  rw [way, ofNames?_namesTo (names_fit built) member'] at found
  exact (Option.some.inj found).symm

end Registry

/-! ### Paths -/

namespace Environment

variable {env : Environment} {decls : List NamedDecl}

/-- Steps from a type lead to one whose names are those of the first and of the steps. -/
theorem namesTo_of_resolveSteps (built : Registry.ofDeclarations decls = .ok env.registry)
    {steps : List ChildStep} (leads : steps.foldlM (env.resolveStep ·) parent = .ok id)
    (member : parent ∈ env.registry.ids) :
    id ∈ env.registry.ids ∧ env.registry.namesTo id =
      env.registry.namesTo parent ++ steps.map fun step => step.name.content := by
  induction steps generalizing parent with
  | nil =>
    cases leads
    exact ⟨member, (List.append_nil _).symm⟩
  | cons step rest ih =>
    rw [List.foldlM_cons] at leads
    obtain ⟨child, went, leads⟩ := Ends.bind_eq_ok_iff.1 leads
    unfold resolveStep at went
    cases found : env.registry.child? parent step.name.content with
    | none =>
      rw [found] at went
      cases went
    | some other =>
      rw [found] at went
      cases went
      obtain ⟨registered, names⟩ := ih leads ((Registry.child?_eq_some_iff built).1 found).1
      refine ⟨registered, ?_⟩
      rw [names, Registry.namesTo_of_child? built found, List.append_assoc]
      rfl

/-- **An absolute path** leads to the type whose names it lists, if there is one, and nowhere
else. -/
theorem resolvePath_absolute_eq_ok_iff (built : Registry.ofDeclarations decls = .ok env.registry)
    {root : Word} {steps : List ChildStep} :
    env.resolvePath (.absolute root steps) = .ok id ↔
      id ∈ env.registry.ids ∧ env.registry.IsPathTo id (.absolute root steps) := by
  constructor
  · intro leads
    obtain ⟨global, found, leads⟩ := Ends.bind_eq_ok_iff.1 leads
    unfold resolveRoot at found
    dsimp only at found
    cases lookup : env.registry.global? root.content with
    | none =>
      rw [lookup] at found
      cases found
    | some other =>
      rw [lookup] at found
      cases found
      have top := ((Registry.global?_eq_some_iff built).1 lookup).1
      obtain ⟨member, names⟩ := namesTo_of_resolveSteps built leads top
      refine ⟨member, ?_⟩
      unfold Registry.IsPathTo
      rw [names, Registry.namesTo_of_global? built lookup]
      rfl
  · rintro ⟨member, names⟩
    exact resolvePath_of_isPathTo (Registry.names_fit built) member names

/-- A path is followed from where its first names lead. -/
theorem resolvePath_append {root : Word} {above steps : List ChildStep}
    (leads : env.resolvePath (.absolute root above) = .ok id) :
    env.resolvePath (.absolute root (above ++ steps)) = steps.foldlM (env.resolveStep ·) id := by
  have first : env.resolveRoot (.absolute root (above ++ steps)) =
      env.resolveRoot (.absolute root above) := rfl
  unfold resolvePath at *
  rw [first]
  cases found : env.resolveRoot (.absolute root above) with
  | error error =>
    rw [found] at leads
    cases leads
  | ok global =>
    rw [found] at leads
    show (above ++ steps).foldlM (env.resolveStep ·) global = _
    have up : above.foldlM (env.resolveStep ·) global = .ok id := leads
    rw [List.foldlM_append, up]
    rfl

theorem resolvePath_of_current (around : env.current = some id) (steps : List ChildStep) :
    env.resolvePath (.relative steps) = steps.foldlM (env.resolveStep ·) id := by
  unfold resolvePath resolveRoot
  rw [around]
  rfl

/-- **A relative path** goes on where the absolute path of the type around it ends. -/
theorem resolvePath_relative (fit : env.registry.NamesFit) (member : id ∈ env.registry.ids)
    (around : env.current = some id) {root : Word} {above : List ChildStep}
    (names : env.registry.IsPathTo id (.absolute root above)) (steps : List ChildStep) :
    env.resolvePath (.relative steps) = env.resolvePath (.absolute root (above ++ steps)) := by
  rw [resolvePath_of_current around, resolvePath_append (resolvePath_of_isPathTo fit member names)]

/-- A relative path is lost at its first step to a child that is not there. -/
def LostAt (env : Environment) (steps : List ChildStep) (error : Error) : Prop :=
  ∃ before step later parent, steps = before ++ step :: later ∧
    env.resolvePath (.relative before) = .ok parent ∧
    env.registry.child? parent step.name.content = none ∧
    error = .of env (.unknownType (env.typeName parent ++ "\\" ++ step.name.content)) [step.start]

theorem resolvePath_relative_lost (around : env.current = some id) (steps : List ChildStep) :
    Ends (env.resolvePath (.relative steps)) (fun _ => True) (env.LostAt steps) := by
  -- The steps that have been gone are kept, as the error is told from where they lead.
  suffices walk : ∀ (rest gone : List ChildStep) (here : TypeId),
      gone.foldlM (env.resolveStep ·) id = .ok here →
      Ends (rest.foldlM (env.resolveStep ·) here) (fun _ => True) (env.LostAt (gone ++ rest)) by
    rw [resolvePath_of_current around]
    exact walk steps [] id rfl
  intro rest
  induction rest with
  | nil => exact fun gone here _ => True.intro
  | cons step rest ih =>
    intro gone here reached
    rw [List.foldlM_cons]
    cases found : env.registry.child? here step.name.content with
    | none =>
      have lost : env.resolveStep here step = .error (.of env (.unknownType
          (env.typeName here ++ "\\" ++ step.name.content)) [step.start]) := by
        unfold resolveStep joinPath
        rw [found]
        simp
      rw [lost]
      exact ⟨gone, step, rest, here, rfl, (resolvePath_of_current around gone).trans reached,
        found, rfl⟩
    | some child =>
      have went : env.resolveStep here step = .ok child := by
        unfold resolveStep
        rw [found]
      rw [went, List.append_cons]
      refine ih (gone ++ [step]) child ?_
      rw [List.foldlM_append, reached]
      show [step].foldlM (env.resolveStep ·) here = _
      rw [List.foldlM_cons, went]
      rfl

/-- A relative path leads to the type whose names are those of the type around it and of its steps,
or is lost. -/
theorem resolvePath_relative_ends (built : Registry.ofDeclarations decls = .ok env.registry)
    (member : id ∈ env.registry.ids) (around : env.current = some id) {root : Word}
    {above : List ChildStep} (names : env.registry.IsPathTo id (.absolute root above))
    (steps : List ChildStep) :
    Ends (env.resolvePath (.relative steps))
      (fun found => found ∈ env.registry.ids ∧
        env.registry.IsPathTo found (.absolute root (above ++ steps)))
      (env.LostAt steps) := by
  have lost := resolvePath_relative_lost around steps
  have same := resolvePath_relative (Registry.names_fit built) member around names steps
  cases leads : env.resolvePath (.relative steps) with
  | ok found =>
    rw [same] at leads
    exact (resolvePath_absolute_eq_ok_iff built).1 leads
  | error error =>
    rw [leads] at lost
    exact lost

end Environment

/-! ### Forests -/

/-- A registry is the forest of some declarations. -/
structure Registry.Forest (registry : Registry) (decls : List NamedDecl) : Prop where
  /-- The declared types come first and the built-in ones last. -/
  ids : registry.ids = (List.range (outlineAll [] decls).length).map TypeId.mk ++
    [registry.text, registry.paragraph, registry.inclusion, registry.read]
  /-- Each type stands before its children, and they stand in their order. -/
  ways : registry.ids.map registry.namesTo =
    (outlineAll [] decls).map Declared.names ++ [["text"], ["paragraph"], ["include"], ["read"]]
  described : ∀ (place : Nat) (declared : Declared), (outlineAll [] decls)[place]? = some declared →
    declared.Describes (registry.get ⟨place⟩)
  child : ∀ parent name id, registry.child? parent name = some id ↔
    id ∈ registry.ids ∧ (registry.get id).parent = some parent ∧ (registry.get id).name = name
  parent : ∀ id ∈ registry.ids, ∀ parent, (registry.get id).parent = some parent →
    parent ∈ registry.ids ∧ parent.index < id.index
  global : ∀ name id, registry.global? name = some id ↔
    id ∈ registry.ids ∧ (registry.get id).parent = none ∧ (registry.get id).name = name
  slots : ∀ id shape, (registry.get id).map? = some shape →
    shape.mapped.Nodup ∧ (∀ slot ∈ shape.mapped, (registry.get slot).parent = some id) ∧
      ∀ main, shape.mainSlot = some main →
        main.child ∈ shape.mapped ∧ (registry.get main.child).list?.isSome = true
  /-- The names on the way to a type lead to it. -/
  led : ∀ id ∈ registry.ids, registry.ofNames? (registry.namesTo id) = some id
  /-- An absolute path leads to the type whose names it lists. -/
  absolute : ∀ (env : Environment) (id : TypeId) (root : Word) (steps : List ChildStep),
    env.registry = registry →
      (env.resolvePath (.absolute root steps) = .ok id ↔
        id ∈ registry.ids ∧ registry.IsPathTo id (.absolute root steps))
  /-- A relative path is the absolute path of the type around it and the same steps. -/
  relative : ∀ (env : Environment) (id : TypeId) (root : Word) (above steps : List ChildStep),
    env.registry = registry → id ∈ registry.ids → env.current = some id →
    registry.IsPathTo id (.absolute root above) →
      env.resolvePath (.relative steps) = env.resolvePath (.absolute root (above ++ steps)) ∧
      Ends (env.resolvePath (.relative steps))
        (fun found => found ∈ registry.ids ∧
          registry.IsPathTo found (.absolute root (above ++ steps)))
        (env.LostAt steps)
  distinct : (∀ declared ∈ outlineAll [] decls, '\\' ∉ declared.name.toList) →
    ∀ id ∈ registry.ids, ∀ other ∈ registry.ids,
      registry.qualifiedName id = registry.qualifiedName other → id = other

/-- **A built registry** is the forest of its declarations. -/
theorem Registry.ofDeclarations_forest {decls : List NamedDecl} {registry : Registry}
    (built : ofDeclarations decls = .ok registry) : registry.Forest decls where
  ids := ids_eq built
  ways := ids_namesTo built
  described := fun _ _ listed => describes built listed
  child := fun _ _ _ => child?_eq_some_iff built
  parent := fun _ member _ below =>
    have known := child?_name (names_fit built) member below
    ⟨known.2.1, known.1⟩
  global := fun _ _ => global?_eq_some_iff built
  slots := fun _ _ map => slots_fit built map
  led := fun _ member => ofNames?_namesTo (names_fit built) member
  absolute := by
    rintro env id root steps rfl
    exact Environment.resolvePath_absolute_eq_ok_iff built
  relative := by
    rintro env id root above steps rfl member around names
    exact ⟨Environment.resolvePath_relative (names_fit built) member around names steps,
      Environment.resolvePath_relative_ends built member around names steps⟩
  distinct := fun clean _ member _ member' same =>
    qualifiedName_injective built clean member member' same

/-- Titles, and books with a title of their own, pages and notes on them. -/
def bookDecls : List NamedDecl :=
  [⟨"title", .list false true none []⟩,
    ⟨"book", .map false (some "isbn") [⟨"title", .list false false none []⟩,
      ⟨"pages", .list true false none [⟨"note", .preExpander "quote" none⟩]⟩]
      ["pages", "title", "pages"] (some ("pages", .perLine))⟩]

/-- The registry of `bookDecls`. -/
def bookRegistry : Registry :=
  ⟨[⟨"title", none, none, .list ⟨false, true, []⟩⟩,
    ⟨"book", none, some "isbn",
      .map ⟨false, [("title", ⟨2⟩), ("pages", ⟨3⟩)], [⟨3⟩, ⟨2⟩], some ⟨⟨3⟩, .perLine⟩⟩⟩,
    ⟨"title", some ⟨1⟩, none, .list ⟨false, false, []⟩⟩,
    ⟨"pages", some ⟨1⟩, none, .list ⟨true, false, [("note", ⟨4⟩)]⟩⟩,
    ⟨"note", some ⟨3⟩, none, .preExpander "quote"⟩], [("title", ⟨0⟩), ("book", ⟨1⟩)]⟩

/-- The two titles have names of their own, and inside a book a path to notes leads where the path
from the book does. -/
theorem Registry.ofDeclarations_forest_book :
    let env := (Environment.ofFile Reader.nothing "" bookRegistry).within ⟨1⟩
    let step (text : String) : ChildStep := ⟨Position.start, ⟨text, Position.start⟩⟩
    ofDeclarations bookDecls = .ok bookRegistry ∧ bookRegistry.Forest bookDecls ∧
      (∀ id ∈ bookRegistry.ids, ∀ other ∈ bookRegistry.ids,
        bookRegistry.qualifiedName id = bookRegistry.qualifiedName other → id = other) ∧
      env.resolvePath (.relative [step "pages", step "note"]) =
        env.resolvePath (.absolute ⟨"book", Position.start⟩ [step "pages", step "note"]) ∧
      env.resolvePath (.relative [step "pages", step "note"]) = .ok ⟨4⟩ := by
  have built : ofDeclarations bookDecls = .ok bookRegistry := rfl
  intro env step
  have forest := ofDeclarations_forest built
  have same := (forest.relative env ⟨1⟩ ⟨"book", Position.start⟩ []
    [step "pages", step "note"] rfl (by decide) rfl (by decide +kernel)).1
  refine ⟨built, forest, forest.distinct (by decide), same, ?_⟩
  rw [same]
  exact (forest.absolute env ⟨4⟩ _ _ rfl).2 ⟨by decide, by decide +kernel⟩

end TypedMarkup
