/-
**Built registries.** What the types of a registry made of declarations are known to be.

* `MapType.Fits` is what a map type needs of the types around it: no slot twice, and a main slot
  that is one of its slots and a list.
* `Numbering.fitting`: the types of a declaration only refer to types among themselves, so that all
  maps among them fit.
* `Registry.map_fits`: every map type of a built registry fits. `Registry.get_paragraph` is the type
  of the lists that text is gathered in.
-/

import TypedMarkup.Proofs.Registry.Numbering
import TypedMarkup.Table

namespace TypedMarkup

variable {next : Nat} {types more : List NodeType} {id : TypeId} {type : NodeType}

/-! ### Fitting maps -/

/-- What a map type needs of the types around it. -/
structure MapType.Fits (shape : MapType) (typeOf : TypeId → Option NodeType) : Prop where
  distinct : shape.mapped.Nodup
  mainMapped : ∀ main, shape.mainSlot = some main → main.child ∈ shape.mapped
  mainList : ∀ main, shape.mainSlot = some main →
    ∃ type, typeOf main.child = some type ∧ type.list?.isSome = true

/-- All map types among some types fit. -/
def AllFit (next : Nat) (types : List NodeType) : Prop :=
  ∀ type ∈ types, ∀ shape, type.map? = some shape → shape.Fits (typeAt next types)

theorem MapType.Fits.mono {shape : MapType} {typeOf typeOf' : TypeId → Option NodeType}
    (fits : shape.Fits typeOf) (known : ∀ id type, typeOf id = some type → typeOf' id = some type) :
    shape.Fits typeOf' := by
  refine ⟨fits.distinct, fits.mainMapped, fun main same => ?_⟩
  obtain ⟨type, found, list⟩ := fits.mainList main same
  exact ⟨type, known _ _ found, list⟩

theorem AllFit.append (fit : AllFit next types) (fit' : AllFit (next + types.length) more) :
    AllFit next (types ++ more) := by
  intro type member shape same
  rcases List.mem_append.1 member with member | member
  · exact (fit type member shape same).mono fun _ _ => typeAt_append_left
  · exact (fit' type member shape same).mono fun _ _ => typeAt_append_right

/-- A type in front of others that fit fits if it does so itself, as a map. -/
theorem AllFit.cons {first : NodeType} (fit : AllFit (next + 1) types)
    (alone : ∀ shape, first.map? = some shape → shape.Fits (typeAt next (first :: types))) :
    AllFit next (first :: types) := by
  intro type member shape same
  rcases List.mem_cons.1 member with rfl | member
  · exact alone shape same
  · exact (fit type member shape same).mono fun _ _ => typeAt_cons

theorem AllFit.single {first : NodeType} (other : first.map? = none) : AllFit next [first] := by
  refine AllFit.cons (fun type member => ?_) fun shape same => ?_
  · cases member
  · rw [other] at same
    cases same

/-! ### Slots -/

/-- A slot that is named again is no second slot. -/
theorem slotTypes_ends (path : List String) (children : Children) (slots : List TypeId)
    (mapped : List String) (distinct : slots.Nodup) :
    Ends (slotTypes path children slots mapped) List.Nodup fun _ => True := by
  induction mapped generalizing slots with
  | nil => exact distinct
  | cons slot rest ih =>
    unfold slotTypes
    split
    · trivial
    · next child _ =>
      split
      · exact ih slots distinct
      · next missing =>
        refine ih _ ?_
        rw [List.nodup_append]
        refine ⟨distinct, List.nodup_cons.2 ⟨List.not_mem_nil, List.nodup_nil⟩, ?_⟩
        intro a member b single
        rw [List.mem_singleton.1 single]
        rintro rfl
        exact missing (List.contains_iff_mem.2 member)

/-- A main slot is a slot, and its name is that of a child that is declared as a list. -/
theorem mainSlotType_ends (path : List String) (decls : List NamedDecl) (children : Children)
    (slots : List TypeId) (mainSlot : Option (String × SlotMode)) :
    Ends (mainSlotType path decls children slots mainSlot)
      (fun found => ∀ main, found = some main → main.child ∈ slots ∧ ∃ name named,
        children.lookup name = some main.child ∧
        decls.find? (fun named => named.name == name) = some named ∧ named.decl.isList = true)
      fun _ => True := by
  unfold mainSlotType
  split
  · intro main none
    cases none
  · next slot mode =>
    dsimp only
    split
    · trivial
    · next child lookup =>
      split
      · next both =>
        rw [Bool.and_eq_true, Option.any_eq_true] at both
        obtain ⟨slotted, named, found, list⟩ := both
        intro main same
        cases same
        exact ⟨List.contains_iff_mem.1 slotted, slot, named, lookup, found, list⟩
      · trivial

/-! ### Numbering -/

/-- What the types of a declaration are: its own comes first. -/
structure TypeDecl.Listed (next : Nat) (decl : TypeDecl) (types : List NodeType) : Prop where
  fit : AllFit next types
  first : ∃ type, typeAt next types ⟨next⟩ = some type ∧ type.list?.isSome = decl.isList

/-- What the types of some children are, and their names behind those `seen`: a name is that of the
first declaration that has it. -/
structure ChildrenListed (next : Nat) (seen : Children) (decls : List NamedDecl)
    (listed : List NodeType × Children) : Prop where
  fit : AllFit next listed.1
  named : ∀ name id, listed.2.lookup name = some id → seen.lookup name = some id ∨
    (seen.lookup name = none ∧ ∃ named type,
      decls.find? (fun named => named.name == name) = some named ∧
      typeAt next listed.1 id = some type ∧ type.list?.isSome = named.decl.isList)

theorem ChildrenListed.nil (seen : Children) : ChildrenListed next seen [] ([], seen) := by
  refine ⟨List.forall_mem_nil _, fun _ _ found => ?_⟩
  exact .inl found

/-- The children of a declaration and then those of the declarations behind it. -/
theorem ChildrenListed.cons {seen : Children} {name : String} {decl : TypeDecl}
    {rest : List NamedDecl} {listed : List NodeType × Children} (fresh : seen.lookup name = none)
    (head : decl.Listed next types)
    (tail : ChildrenListed (next + types.length) (seen ++ [(name, ⟨next⟩)]) rest listed) :
    ChildrenListed next seen (⟨name, decl⟩ :: rest) (types ++ listed.1, listed.2) := by
  refine ⟨head.fit.append tail.fit, fun other id found => ?_⟩
  rcases tail.named other id found with before | ⟨missing, named, type, behind, numbered, kind⟩
  · rw [List.lookup_append, Option.or_eq_some_iff] at before
    rcases before with before | ⟨missing, same⟩
    · exact .inl before
    · refine .inr ⟨missing, ⟨name, decl⟩, ?_⟩
      by_cases hit : other = name
      · subst hit
        obtain ⟨type, numbered, kind⟩ := head.first
        have here : (⟨next⟩ : TypeId) = id := by
          rw [Table.lookup_entry, if_pos rfl] at same
          exact Option.some.inj same
        exact ⟨type, List.find?_cons_of_pos (beq_self_eq_true _),
          here ▸ typeAt_append_left numbered, kind⟩
      · rw [Table.lookup_entry, if_neg hit] at same
        cases same
  · rw [List.lookup_append, Option.or_eq_none_iff, Table.lookup_entry] at missing
    obtain ⟨unseen, other'⟩ := missing
    have differs : ¬ ((⟨name, decl⟩ : NamedDecl).name == other) = true := by
      intro same
      rw [if_pos (eq_of_beq same).symm] at other'
      cases other'
    refine .inr ⟨unseen, named, type, ?_, typeAt_append_right numbered, kind⟩
    rw [List.find?_cons, Bool.eq_false_iff.2 differs]
    exact behind

/-- A type that is no map, in front of its children. -/
theorem TypeDecl.Listed.of_list {decl : TypeDecl} {first : NodeType} (fit : AllFit (next + 1) types)
    (other : first.map? = none) (kind : first.list?.isSome = decl.isList) :
    decl.Listed next (first :: types) := by
  refine ⟨fit.cons fun shape same => ?_, first, typeAt_first first, kind⟩
  rw [other] at same
  cases same

/-- All maps among declared types fit. -/
def Numbering.fitting : Numbering where
  one next _ _ _ decl types := decl.Listed next types
  all next _ _ seen decls listed := ChildrenListed next seen decls listed
  nil := .nil _
  cons := .cons
  list known := .of_list known.fit rfl rfl
  map := by
    intro next _ _ _ _ _ _ _ _ listed slots main known slotted placed
    have distinct := (slotTypes_ends _ _ _ _ List.nodup_nil).of_eq_ok slotted
    have place := (mainSlotType_ends _ _ _ _ _).of_eq_ok placed
    refine ⟨known.fit.cons fun shape same => ?_, _, typeAt_first _, rfl⟩
    cases same
    refine ⟨distinct, fun found same => (place found same).1, fun found same => ?_⟩
    obtain ⟨_, slot, named, lookup, declared, list⟩ := place found same
    rcases known.named slot _ lookup with none | ⟨_, named', type, declared', numbered, kind⟩
    · cases none
    · obtain rfl : named = named' := Option.some.inj (declared.symm.trans declared')
      exact ⟨type, typeAt_cons numbered, kind.trans list⟩
  preExpander := ⟨AllFit.single rfl, _, typeAt_first _, rfl⟩
  postExpander := ⟨AllFit.single rfl, _, typeAt_first _, rfl⟩

/-! ### Registries -/

namespace Registry

/-- A declared type is what its id stands for. -/
theorem get_declared {registry : Registry} (found : typeAt 0 registry.declared id = some type) :
    registry.get id = type := by
  unfold typeAt at found
  rw [if_pos (Nat.zero_le _), Nat.sub_zero] at found
  have inside := (List.getElem?_eq_some_iff.1 found).1
  unfold get types
  rw [List.getElem?_append_left inside, found]
  rfl

/-- A declared type is not the built-in one of paragraphs. -/
theorem ne_paragraph {registry : Registry} (found : typeAt 0 registry.declared id = some type) :
    id ≠ registry.paragraph := by
  rintro rfl
  unfold typeAt paragraph at found
  rw [if_pos (Nat.zero_le _), Nat.sub_zero] at found
  have inside := (List.getElem?_eq_some_iff.1 found).1
  exact Nat.lt_irrefl _ (Nat.lt_of_succ_lt inside)

/-- A type that is a map is a declared one. -/
theorem mem_declared_of_map {registry : Registry} {shape : MapType}
    (map : (registry.get id).map? = some shape) : registry.get id ∈ registry.declared := by
  unfold get at *
  cases found : registry.types[id.index]? with
  | none =>
    rw [found] at map
    cases map
  | some type =>
    rw [found, Option.getD_some] at map
    rcases List.mem_append.1 (List.mem_of_getElem? found) with declared | builtin
    · exact declared
    · have other : ∀ type ∈ builtinTypes, type.map? = none := by decide
      rw [other type builtin] at map
      cases map

/-- In a registry without expanders no id stands for one. -/
theorem not_isExpander {registry : Registry} (without : registry.withoutExpanders = true)
    (id : TypeId) : (registry.get id).isExpander = false := by
  have builtin : ∀ type ∈ builtinTypes, type.isExpander = false := by decide
  unfold get
  cases found : registry.types[id.index]? with
  | none => rfl
  | some type =>
    rw [Option.getD_some]
    rcases List.mem_append.1 (List.mem_of_getElem? found) with declared | member
    · exact Bool.not_eq_true' _ ▸ List.all_eq_true.1 without type declared
    · exact builtin type member

theorem kind_ne_preExpander {registry : Registry} (without : registry.withoutExpanders = true)
    (id : TypeId) (name : String) : (registry.get id).kind ≠ .preExpander name := by
  intro kind
  have plain := not_isExpander without id
  rw [NodeType.isExpander, kind] at plain
  cases plain

theorem kind_ne_postExpander {registry : Registry} (without : registry.withoutExpanders = true)
    (id : TypeId) (name : String) : (registry.get id).kind ≠ .postExpander name := by
  intro kind
  have plain := not_isExpander without id
  rw [NodeType.isExpander, kind] at plain
  cases plain

/-- Every map type of a built registry fits. -/
theorem map_fits {decls : List NamedDecl} {registry : Registry} {shape : MapType}
    (built : ofDeclarations decls = .ok registry) (map : (registry.get id).map? = some shape) :
    shape.Fits (typeAt 0 registry.declared) := by
  exact (Numbering.fitting.ofDeclarations built).fit _ (mem_declared_of_map map) shape map

/-- The type of paragraphs is a list that neither contains paragraphs nor stands in one. -/
theorem get_paragraph (registry : Registry) :
    registry.get registry.paragraph = ⟨"paragraph", none, none, .list ⟨false, false, []⟩⟩ := by
  unfold get types paragraph
  rw [List.getElem?_append_right (Nat.le_add_right _ _), Nat.add_sub_cancel_left]
  rfl

end Registry

end TypedMarkup
