/-
**Registries from a growing table.** Types can be numbered by a table that grows: an entry that
knows its name and its parent is put at the end, its children are put behind it, and then its body
is filled in. An error reads its names off the table as it stands, going from parent to parent, and
a main slot looks there whether its type is a list.

* `TypeDecl.allocate` and `Registry.allocate` build a registry in that way.
* `namesTo_arena_append`: a table that grows keeps the names on the way to its types, so that
  `namesTo_placeholder` gives those of an entry before its body is filled in.
* `Registry.allocate_eq`: the result is the registry of the declarations, and so is the error.

The shape of the proof: both ways to list types recur alike on the declarations, so one lemma for
each of the two functions says that what is put behind a table is what is listed. The names that the
one hands down are those that the other reads off.
-/

import TypedMarkup.Proofs.Registry.Outline

namespace TypedMarkup

variable {types more : List NodeType} {id : TypeId} {parent : Option TypeId} {outer : List String}
  {name : String}

/-! ### Tables that grow -/

/-- The types of a table, to look them up. -/
def Registry.arena (types : List NodeType) : Registry :=
  ⟨types, []⟩

/-- The entry of a type before its body is known. -/
def NodeType.placeholder (name : String) (parent : Option TypeId) : NodeType :=
  ⟨name, parent, none, .misc⟩

/-- Fills in the body of an entry. -/
def fillIn (types : List NodeType) (id : TypeId) (mainProperty : Option String) (kind : TypeKind) :
    List NodeType :=
  types.modify id.index fun type => { type with mainProperty := mainProperty, kind := kind }

/-- The main slot of a map, which must be one of its slots and a list in the table. -/
def allocateMainSlot (types : List NodeType) (map : TypeId) (children : Children)
    (slots : List TypeId) : Option (String × SlotMode) → Except RegistryError (Option MainSlot)
  | none => .ok none
  | some (slot, mode) =>
    let isList (child : TypeId) : Bool := ((Registry.arena types).get child).list?.isSome
    match ((children.lookup slot).filter slots.contains).filter isList with
    | some child => .ok (some ⟨child, mode⟩)
    | none => .error (.invalidMainSlot ((Registry.arena types).qualifiedName map) slot)

mutual

/-- The table with the types of a declaration at its end. -/
def TypeDecl.allocate (types : List NodeType) (parent : Option TypeId) (name : String) :
    TypeDecl → Except RegistryError (List NodeType)
  | .list containsParagraphs inParagraph mainProperty decls => do
    let id : TypeId := ⟨types.length⟩
    let (filled, children) ← allocateChildren (types ++ [.placeholder name parent]) id [] decls
    return fillIn filled id mainProperty (.list ⟨containsParagraphs, inParagraph, children⟩)
  | .map inParagraph mainProperty decls mapped mainSlot => do
    let id : TypeId := ⟨types.length⟩
    let (filled, children) ← allocateChildren (types ++ [.placeholder name parent]) id [] decls
    let slots ← slotTypes ((Registry.arena filled).namesTo id) children [] mapped
    let main ← allocateMainSlot filled id children slots mainSlot
    return fillIn filled id mainProperty (.map ⟨inParagraph, children, slots, main⟩)
  | .preExpander expander mainProperty =>
    return fillIn (types ++ [.placeholder name parent]) ⟨types.length⟩ mainProperty
      (.preExpander expander)
  | .postExpander expander mainProperty =>
    return fillIn (types ++ [.placeholder name parent]) ⟨types.length⟩ mainProperty
      (.postExpander expander)

/-- The table with the types of the remaining children of a type at its end, and all its children by
name, given those already `seen`. -/
def allocateChildren (types : List NodeType) (parent : TypeId) (seen : Children) :
    List NamedDecl → Except RegistryError (List NodeType × Children)
  | [] => return (types, seen)
  | ⟨name, decl⟩ :: rest => do
    if (seen.lookup name).isSome then
      throw (.duplicateChild ((Registry.arena types).qualifiedName parent) name)
    let filled ← decl.allocate types (some parent) name
    allocateChildren filled parent (seen ++ [(name, ⟨types.length⟩)]) rest

end

namespace Registry

/-- The table with the types of the remaining declarations at its end, and all global types by name,
given those already `seen`. -/
def allocateGlobals (types : List NodeType) (seen : Children) :
    List NamedDecl → Except RegistryError (List NodeType × Children)
  | [] => return (types, seen)
  | ⟨name, decl⟩ :: rest => do
    if builtinNames.contains name then
      throw (.reservedName name)
    if (seen.lookup name).isSome then
      throw (.duplicateGlobal name)
    let filled ← decl.allocate types none name
    allocateGlobals filled (seen ++ [(name, ⟨types.length⟩)]) rest

/-- The registry of some declarations, from an empty table. -/
def allocate (decls : List NamedDecl) : Except RegistryError Registry := do
  let (declared, roots) ← allocateGlobals [] [] decls
  return ⟨declared, roots⟩

/-! ### What is kept -/

theorem get_arena_append (inside : id.index < types.length) :
    (arena (types ++ more)).get id = (arena types).get id := by
  have longer : id.index < (types ++ more).length := by
    rw [List.length_append]
    exact Nat.lt_add_right _ inside
  unfold arena get Registry.types
  rw [List.getElem?_append_left longer, List.getElem?_append_left inside,
    List.getElem?_append_left inside]

/-- **A table that grows** keeps the names on the way to its types. -/
theorem namesTo_arena_append (inside : id.index < types.length) :
    (arena (types ++ more)).namesTo id = (arena types).namesTo id := by
  induction index : id.index using Nat.strongRecOn generalizing id with
  | ind index ih =>
    rw [namesTo, namesTo, get_arena_append inside]
    split
    · rfl
    · next above _ =>
      split
      · next before => rw [ih above.index (index ▸ before) (Nat.lt_trans before inside) rfl]
      · rfl

theorem Leads.arena_append (leads : (arena types).Leads parent types.length outer) :
    (arena (types ++ more)).Leads parent types.length outer := by
  cases parent with
  | none => exact leads
  | some above =>
    obtain ⟨inside, way⟩ := leads
    exact ⟨inside, (namesTo_arena_append inside).trans way⟩

theorem get_arena_length (first : NodeType) :
    (arena (types ++ first :: more)).get ⟨types.length⟩ = first := by
  unfold arena get Registry.types
  dsimp only
  rw [List.append_assoc, List.getElem?_append_right (Nat.le_refl _), Nat.sub_self]
  rfl

/-- The names on the way to an entry are there before its body is. -/
theorem namesTo_placeholder (leads : (arena types).Leads parent types.length outer) :
    (arena (types ++ .placeholder name parent :: more)).namesTo ⟨types.length⟩ =
      outer ++ [name] := by
  have here : (arena (types ++ .placeholder name parent :: more)).get ⟨types.length⟩ =
      .placeholder name parent := get_arena_length _
  have up : (arena (types ++ .placeholder name parent :: more)).Leads
      ((arena (types ++ .placeholder name parent :: more)).get ⟨types.length⟩).parent
      types.length outer := by
    rw [here]
    exact leads.arena_append
  rw [namesTo_of_leads up, here]
  rfl

/-- A type of a declaration is found in the table behind which it stands. -/
theorem get_arena_of_typeAt {type : NodeType} (found : typeAt types.length more id = some type) :
    (arena (types ++ more)).get id = type := by
  unfold typeAt at found
  split at found
  · next behind =>
    have inside := (List.getElem?_eq_some_iff.1 found).1
    unfold arena get Registry.types
    dsimp only
    rw [List.append_assoc, List.getElem?_append_right behind, List.getElem?_append_left inside,
      found]
    rfl
  · cases found

end Registry

/-- The body of an entry is filled in at its place. -/
theorem fillIn_placeholder (mainProperty : Option String) (kind : TypeKind) :
    fillIn (types ++ .placeholder name parent :: more) ⟨types.length⟩ mainProperty kind =
      types ++ ⟨name, parent, mainProperty, kind⟩ :: more := by
  unfold fillIn
  induction types with
  | nil => rfl
  | cons first rest ih =>
    rw [List.cons_append, List.length_cons, List.modify_succ_cons, ih]
    rfl

/-- The main slot of a map is the same, whether its type is looked up in the table or among the
declarations. -/
theorem allocateMainSlot_eq {map : TypeId} {path : List String} {decls : List NamedDecl}
    {listed : List NodeType × Children}
    (way : (Registry.arena (types ++ listed.1)).namesTo map = path)
    (known : ChildrenListed types.length [] decls listed) (slots : List TypeId)
    (mainSlot : Option (String × SlotMode)) :
    allocateMainSlot (types ++ listed.1) map listed.2 slots mainSlot =
      mainSlotType path decls listed.2 slots mainSlot := by
  cases mainSlot with
  | none => rfl
  | some main =>
    obtain ⟨slot, mode⟩ := main
    unfold allocateMainSlot mainSlotType Registry.qualifiedName
    rw [way]
    dsimp only
    cases lookup : listed.2.lookup slot with
    | none => rfl
    | some child =>
      rcases known.named slot child lookup with none | ⟨_, named, type, declared, numbered, kind⟩
      · cases none
      · have list : ((Registry.arena (types ++ listed.1)).get child).list?.isSome =
            named.decl.isList := by
          rw [Registry.get_arena_of_typeAt numbered, kind]
        rw [declared]
        cases slotted : slots.contains child <;> cases isList : named.decl.isList <;>
          simp [Option.filter, slotted, isList, list, -List.contains_eq_mem]

/-! ### Allocating is listing -/

mutual

/-- What is put behind a table for a declaration is what is listed of it. -/
theorem TypeDecl.allocate_eq (outer : List String) (types : List NodeType)
    (parent : Option TypeId) (name : String)
    (leads : (Registry.arena types).Leads parent types.length outer) : ∀ decl : TypeDecl,
    decl.allocate types parent name =
      (decl.flatten outer parent types.length name).map (types ++ ·)
  | .list containsParagraphs inParagraph mainProperty decls => by
    have way : (Registry.arena (types ++ [.placeholder name parent])).namesTo ⟨types.length⟩ =
        outer ++ [name] := Registry.namesTo_placeholder leads
    unfold TypeDecl.allocate TypeDecl.flatten
    dsimp only
    rw [allocateChildren_eq (outer ++ [name]) _ ⟨types.length⟩ [] (by simp) way decls,
      List.length_append, List.length_singleton]
    cases flattenChildren (outer ++ [name]) ⟨types.length⟩ (types.length + 1) [] decls with
    | error fault => rfl
    | ok listed =>
      show Except.ok (fillIn (types ++ [.placeholder name parent] ++ listed.1) _ _ _) = _
      rw [List.append_assoc, List.singleton_append, fillIn_placeholder]
      rfl
  | .map inParagraph mainProperty decls mapped mainSlot => by
    have way : (Registry.arena (types ++ [.placeholder name parent])).namesTo ⟨types.length⟩ =
        outer ++ [name] := Registry.namesTo_placeholder leads
    unfold TypeDecl.allocate TypeDecl.flatten
    dsimp only
    rw [allocateChildren_eq (outer ++ [name]) _ ⟨types.length⟩ [] (by simp) way decls,
      List.length_append, List.length_singleton]
    have fitting := Numbering.fitting.flattenChildren (outer ++ [name]) ⟨types.length⟩
      (types.length + 1) [] decls
    cases found : flattenChildren (outer ++ [name]) ⟨types.length⟩ (types.length + 1) [] decls with
    | error fault => rfl
    | ok listed =>
      have known : ChildrenListed (types ++ [NodeType.placeholder name parent]).length [] decls
          listed := by
        rw [List.length_append]
        exact fitting.of_eq_ok found
      have later : (Registry.arena (types ++ [.placeholder name parent] ++ listed.1)).namesTo
          ⟨types.length⟩ = outer ++ [name] := by
        rw [List.append_assoc, List.singleton_append, Registry.namesTo_placeholder leads]
      show (slotTypes _ listed.2 [] mapped >>= fun slots => _) = _
      rw [later]
      dsimp only [bind, Except.bind]
      cases slotTypes (outer ++ [name]) listed.2 [] mapped with
      | error fault => rfl
      | ok slots =>
        dsimp only
        rw [allocateMainSlot_eq later known]
        cases mainSlotType (outer ++ [name]) decls listed.2 slots mainSlot with
        | error fault => rfl
        | ok main =>
          dsimp only
          rw [List.append_assoc, List.singleton_append, fillIn_placeholder]
          rfl
  | .preExpander expander mainProperty => by
    unfold TypeDecl.allocate TypeDecl.flatten
    rw [fillIn_placeholder]
    rfl
  | .postExpander expander mainProperty => by
    unfold TypeDecl.allocate TypeDecl.flatten
    rw [fillIn_placeholder]
    rfl

/-- What is put behind a table for some children is what is listed of them. -/
theorem allocateChildren_eq (path : List String) (types : List NodeType) (parent : TypeId)
    (seen : Children) (inside : parent.index < types.length)
    (way : (Registry.arena types).namesTo parent = path) : ∀ decls : List NamedDecl,
    allocateChildren types parent seen decls =
      (flattenChildren path parent types.length seen decls).map
        fun listed => (types ++ listed.1, listed.2)
  | [] => by
    unfold allocateChildren flattenChildren
    show Except.ok (types, seen) = Except.ok (types ++ [], seen)
    rw [List.append_nil]
  | ⟨name, decl⟩ :: rest => by
    unfold allocateChildren flattenChildren Registry.qualifiedName
    rw [way, TypeDecl.allocate_eq path types (some parent) name ⟨inside, way⟩ decl]
    split
    · rfl
    · cases decl.flatten path (some parent) types.length name with
      | error fault => rfl
      | ok fresh =>
        have within : parent.index < (types ++ fresh).length := by
          rw [List.length_append]
          exact Nat.lt_add_right _ inside
        have later : (Registry.arena (types ++ fresh)).namesTo parent = path := by
          rw [Registry.namesTo_arena_append inside, way]
        show allocateChildren (types ++ fresh) parent _ rest = _
        rw [allocateChildren_eq path (types ++ fresh) parent _ within later rest,
          List.length_append]
        dsimp only [bind, Except.bind]
        cases flattenChildren path parent (types.length + fresh.length)
          (seen ++ [(name, ⟨types.length⟩)]) rest with
        | error fault => rfl
        | ok listed =>
          show Except.ok (types ++ fresh ++ listed.1, _) =
            Except.ok (types ++ (fresh ++ listed.1), _)
          rw [List.append_assoc]

end

namespace Registry

theorem allocateGlobals_eq (types : List NodeType) (seen : Children) (decls : List NamedDecl) :
    allocateGlobals types seen decls = (flattenGlobals types.length seen decls).map
      fun listed => (types ++ listed.1, listed.2) := by
  induction decls generalizing types seen with
  | nil =>
    show Except.ok (types, seen) = Except.ok (types ++ [], seen)
    rw [List.append_nil]
  | cons first rest ih =>
    obtain ⟨name, decl⟩ := first
    unfold allocateGlobals flattenGlobals
    rw [decl.allocate_eq [] types none name rfl]
    dsimp only
    split
    · rfl
    · split
      · rfl
      · cases decl.flatten [] none types.length name with
        | error fault => rfl
        | ok fresh =>
          show allocateGlobals (types ++ fresh) _ rest = _
          rw [ih, List.length_append]
          dsimp only [bind, Except.bind]
          cases flattenGlobals (types.length + fresh.length) (seen ++ [(name, ⟨types.length⟩)])
            rest with
          | error fault => rfl
          | ok listed =>
            show Except.ok (types ++ fresh ++ listed.1, _) =
              Except.ok (types ++ (fresh ++ listed.1), _)
            rw [List.append_assoc]

/-- **A growing table** comes to the registry of the declarations, or stops with the same error. -/
theorem allocate_eq (decls : List NamedDecl) : allocate decls = ofDeclarations decls := by
  unfold allocate ofDeclarations
  rw [allocateGlobals_eq, List.length_nil]
  cases flattenGlobals 0 [] decls <;> rfl

end Registry

end TypedMarkup
