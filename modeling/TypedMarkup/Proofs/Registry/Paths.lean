/-
**Paths to types.** In a built registry the names on the way to a type lead to it.

* `Named` says of a type among numbered ones that its parent comes before it and has it as a child
  under its name; `Numbering.named` says so of all declared types but the global ones.
* `Registry.global?_name` and `Registry.child?_name`: every type of a built registry is found by its
  name, the global ones at once and the others from their parents.
* `Registry.ofNames?_namesTo`: so the names on the way to a type lead to it.
-/

import TypedMarkup.Proofs.Registry.Built

namespace TypedMarkup

variable {next : Nat} {types more : List NodeType} {id : TypeId} {type : NodeType}

/-! ### Named types -/

/-- A type has its parent before it, of which it is a child under its name. -/
def Named (next : Nat) (types : List NodeType) (id : TypeId) (type : NodeType) : Prop :=
  ∃ parent holder children, type.parent = some parent ∧ parent.index < id.index ∧
    typeAt next types parent = some holder ∧ holder.children? = some children ∧
    children.lookup type.name = some id

theorem Named.mono {next' : Nat} {types' : List NodeType} (named : Named next types id type)
    (known : ∀ id type, typeAt next types id = some type → typeAt next' types' id = some type) :
    Named next' types' id type := by
  obtain ⟨parent, holder, children, above, before, found, kind, lookup⟩ := named
  exact ⟨parent, holder, children, above, before, known _ _ found, kind, lookup⟩

/-- Among the types of a declaration the first has the given parent and name, and all others are
named below it. -/
def TypeDecl.Rooted (next : Nat) (parent : Option TypeId) (name : String)
    (types : List NodeType) : Prop :=
  ∀ id type, typeAt next types id = some type →
    (id = ⟨next⟩ ∧ type.name = name ∧ type.parent = parent) ∨ Named next types id type

/-- The types of some declarations with one parent are found under their names, in the table of the
declarations or below one of them; the table keeps what was `seen` before. -/
structure ChildrenNamed (next : Nat) (parent : Option TypeId) (seen : Children)
    (listed : List NodeType × Children) : Prop where
  kept : ∀ name id, seen.lookup name = some id → listed.2.lookup name = some id
  named : ∀ id type, typeAt next listed.1 id = some type →
    (type.parent = parent ∧ listed.2.lookup type.name = some id) ∨ Named next listed.1 id type

namespace ChildrenNamed

variable {parent : Option TypeId} {seen : Children}

theorem nil : ChildrenNamed next parent seen ([], seen) := by
  refine ⟨fun _ _ found => found, fun id type found => ?_⟩
  rw [typeAt_nil] at found
  cases found

/-- The types of a declaration and then those of the declarations behind it. -/
theorem cons {name : String} {listed : List NodeType × Children} (fresh : seen.lookup name = none)
    (head : TypeDecl.Rooted next parent name types)
    (tail : ChildrenNamed (next + types.length) parent (seen ++ [(name, ⟨next⟩)]) listed) :
    ChildrenNamed next parent seen (types ++ listed.1, listed.2) := by
  refine ⟨fun other id found => tail.kept other id ?_, fun id type found => ?_⟩
  · rw [List.lookup_append, found, Option.some_or]
  · rcases typeAt_append found with here | behind
    · rcases head id type here with ⟨rfl, rfl, above⟩ | below
      · refine .inl ⟨above, tail.kept _ _ ?_⟩
        rw [List.lookup_append, fresh, Option.none_or, Table.lookup_entry, if_pos rfl]
      · exact .inr (below.mono fun _ _ => typeAt_append_left)
    · exact (tail.named id type behind).imp_right fun below =>
        below.mono fun _ _ => typeAt_append_right

end ChildrenNamed

/-- A type in front of its children. -/
theorem TypeDecl.Rooted.of_children {first : NodeType} {listed : List NodeType × Children}
    (holds : first.children? = some listed.2)
    (known : ChildrenNamed (next + 1) (some ⟨next⟩) [] listed) :
    TypeDecl.Rooted next first.parent first.name (first :: listed.1) := by
  intro id type found
  rcases typeAt_of_cons found with ⟨rfl, rfl⟩ | inside
  · exact .inl ⟨rfl, rfl, rfl⟩
  · refine .inr ?_
    rcases known.named id type inside with ⟨above, lookup⟩ | below
    · exact ⟨⟨next⟩, first, _, above, le_of_typeAt inside, typeAt_first first, holds, lookup⟩
    · exact below.mono fun _ _ => typeAt_cons

theorem TypeDecl.Rooted.single (first : NodeType) :
    TypeDecl.Rooted next first.parent first.name [first] := by
  intro id type found
  rcases typeAt_of_cons found with ⟨rfl, rfl⟩ | inside
  · exact .inl ⟨rfl, rfl, rfl⟩
  · rw [typeAt_nil] at inside
    cases inside

/-- Declared types are found by their names. -/
def Numbering.named : Numbering where
  one next parent _ name _ types := TypeDecl.Rooted next parent name types
  all next parent _ seen _ listed := ChildrenNamed next parent seen listed
  nil := .nil
  cons := .cons
  list known := TypeDecl.Rooted.of_children rfl known
  map known _ _ := TypeDecl.Rooted.of_children rfl known
  preExpander := TypeDecl.Rooted.single _
  postExpander := TypeDecl.Rooted.single _

namespace Registry

/-! ### Names in a registry -/

/-- No declared global type has the name of a built-in one. -/
theorem flattenGlobals_unreserved (next : Nat) (seen : Children) (decls : List NamedDecl)
    (before : ∀ name ∈ builtinNames, seen.lookup name = none) :
    Ends (flattenGlobals next seen decls)
      (fun listed => ∀ name ∈ builtinNames, listed.2.lookup name = none) fun _ => True := by
  induction decls generalizing next seen with
  | nil => exact before
  | cons first rest ih =>
    obtain ⟨name, decl⟩ := first
    unfold flattenGlobals
    dsimp only
    split
    · trivial
    · next unreserved =>
      split
      · trivial
      · refine (Ends.any _).bind fun types _ => ?_
        refine (ih (next + types.length) _ fun other member => ?_).bind fun listed known => known
        have differs : other ≠ name := by
          rintro rfl
          exact unreserved (List.contains_iff_mem.2 member)
        rw [List.lookup_append, before other member, Option.none_or, Table.lookup_entry,
          if_neg differs]
        rfl

variable {decls : List NamedDecl} {registry : Registry}

/-- What is known of the names in a built registry. -/
structure NamesFit (registry : Registry) : Prop where
  named : ChildrenNamed 0 none [] (registry.declared, registry.roots)
  unreserved : ∀ name ∈ builtinNames, registry.roots.lookup name = none

theorem names_fit (built : ofDeclarations decls = .ok registry) : registry.NamesFit := by
  have unreserved : Ends (ofDeclarations decls) (fun registry =>
      ∀ name ∈ builtinNames, registry.roots.lookup name = none) fun _ => True :=
    (flattenGlobals_unreserved 0 [] decls fun _ _ => rfl).bind fun _ known => known
  exact ⟨Numbering.named.ofDeclarations built, unreserved.of_eq_ok built⟩

theorem mem_ids : id ∈ registry.ids ↔ id.index < registry.size := by
  unfold ids
  rw [List.mem_map]
  refine ⟨?_, fun inside => ⟨id.index, List.mem_range.2 inside, rfl⟩⟩
  rintro ⟨index, inside, rfl⟩
  exact List.mem_range.1 inside

/-- A type is a declared one or one of the four behind them. -/
theorem declared_or_builtin (member : id ∈ registry.ids) :
    typeAt 0 registry.declared id = some (registry.get id) ∨
      ∃ place, id = ⟨registry.declared.length + place⟩ ∧
        builtinTypes[place]? = some (registry.get id) := by
  have inside := mem_ids.1 member
  unfold size types at inside
  have found : registry.types[id.index]? = some (registry.get id) := by
    unfold get types
    rw [List.getElem?_eq_getElem inside, Option.getD_some]
  unfold types at found
  by_cases declared : id.index < registry.declared.length
  · refine .inl ?_
    unfold typeAt
    rwa [if_pos (Nat.zero_le _), Nat.sub_zero, ← List.getElem?_append_left declared]
  · refine .inr ⟨id.index - registry.declared.length, ?_, ?_⟩
    · rw [Nat.add_sub_cancel' (Nat.le_of_not_lt declared)]
    · rwa [← List.getElem?_append_right (Nat.le_of_not_lt declared)]

/-- The built-in types are found by their names. -/
theorem builtinRoots_lookup (registry : Registry) {place : Nat}
    (found : builtinTypes[place]? = some type) :
    type.name ∈ builtinNames ∧ type.parent = none ∧
      registry.builtinRoots.lookup type.name = some ⟨registry.declared.length + place⟩ := by
  have inside := (List.getElem?_eq_some_iff.1 found).1
  match place, inside with
  | 0, _ | 1, _ | 2, _ | 3, _ =>
    cases found
    exact ⟨by decide, rfl, rfl⟩

/-- A type without a parent is the global type of its name. -/
theorem global?_name (fit : registry.NamesFit) (member : id ∈ registry.ids)
    (top : (registry.get id).parent = none) :
    registry.global? (registry.get id).name = some id := by
  unfold global?
  rw [List.lookup_append]
  rcases declared_or_builtin member with declared | ⟨place, rfl, builtin⟩
  · rcases fit.named.named id _ declared with ⟨_, root⟩ | ⟨_, _, _, above, _⟩
    · rw [root, Option.some_or]
    · rw [top] at above
      cases above
  · obtain ⟨reserved, _, lookup⟩ := builtinRoots_lookup registry builtin
    rw [fit.unreserved _ reserved, Option.none_or, lookup]

/-- A type with a parent is the child of its name there, and comes behind it. -/
theorem child?_name (fit : registry.NamesFit) (member : id ∈ registry.ids) {parent : TypeId}
    (below : (registry.get id).parent = some parent) :
    parent.index < id.index ∧ parent ∈ registry.ids ∧
      registry.child? parent (registry.get id).name = some id := by
  rcases declared_or_builtin member with declared | ⟨place, rfl, builtin⟩
  · rcases fit.named.named id _ declared with ⟨above, _⟩ | ⟨_, holder, children, above, before,
      found, kind, lookup⟩
    · rw [below] at above
      cases above
    · obtain rfl : parent = _ := Option.some.inj (below.symm.trans above)
      refine ⟨before, mem_ids.2 (Nat.lt_trans before (mem_ids.1 member)), ?_⟩
      unfold child?
      rw [get_declared found, kind]
      exact lookup
  · rw [(builtinRoots_lookup registry builtin).2.1] at below
    cases below

/-! ### Following names -/

/-- A path that is lost stays lost. -/
theorem foldl_child?_none (registry : Registry) (names : List String) :
    names.foldl (fun id step => id.bind fun id => registry.child? id step) none = none := by
  induction names with
  | nil => rfl
  | cons name names ih => exact ih

theorem ofNames?_append_one {names : List String} (some : names ≠ []) (name : String) :
    registry.ofNames? (names ++ [name]) =
      (registry.ofNames? names).bind fun parent => registry.child? parent name := by
  cases names with
  | nil => exact absurd rfl some
  | cons root steps =>
    rw [List.cons_append, ofNames?, List.foldl_append]
    rfl

theorem namesTo_ne_nil (id : TypeId) : registry.namesTo id ≠ [] := by
  rw [namesTo]
  split
  · exact List.cons_ne_nil _ _
  · split
    · exact List.append_ne_nil_of_right_ne_nil _ (List.cons_ne_nil _ _)
    · exact List.cons_ne_nil _ _

/-- **The names on the way to a type** of a built registry lead to it. -/
theorem ofNames?_namesTo (fit : registry.NamesFit) (member : id ∈ registry.ids) :
    registry.ofNames? (registry.namesTo id) = some id := by
  induction index : id.index using Nat.strongRecOn generalizing id with
  | ind index ih =>
    rw [namesTo]
    split
    · next top =>
      rw [ofNames?, List.foldl_nil]
      exact global?_name fit member top
    · next parent below =>
      obtain ⟨before, inside, child⟩ := child?_name fit member below
      rw [if_pos before, ofNames?_append_one (namesTo_ne_nil parent),
        ih parent.index (index ▸ before) inside rfl]
      exact child

end Registry

end TypedMarkup
