/-
**Outlines.** The types of a built registry are the declared ones, in the order of the declarations.

* `TypeDecl.outline` lists the declarations inside a declaration, each before its children and with
  the names on the way to it, and `TypeDecl.Describes` says what a declaration tells of its type.
* `Held` says that what a type has as a child under a name is a type of that name below it.
* `Numbering.outlined`: declared types are the outline, type by type, and the names on the way to
  them are those of the outline; `Registry.outlined` says so of a whole registry.
-/

import Mathlib.Data.List.Forall2
import TypedMarkup.Proofs.Registry.Paths

namespace TypedMarkup

variable {next : Nat} {types more : List NodeType} {id : TypeId} {type : NodeType}
  {outer : List String} {parent : Option TypeId}

/-! ### Outlines -/

/-- A declaration and the names of those around it, the global one first. -/
structure Declared where
  outer : List String
  name : String
  decl : TypeDecl

/-- The names on the way to a declared type, its own last. -/
def Declared.names (declared : Declared) : List String :=
  declared.outer ++ [declared.name]

mutual

/-- A declaration and those inside it, each before its children. -/
def TypeDecl.outline (outer : List String) (name : String) : TypeDecl → List Declared
  | .list containsParagraphs inParagraph mainProperty decls =>
    ⟨outer, name, .list containsParagraphs inParagraph mainProperty decls⟩ ::
      outlineAll (outer ++ [name]) decls
  | .map inParagraph mainProperty decls mapped mainSlot =>
    ⟨outer, name, .map inParagraph mainProperty decls mapped mainSlot⟩ ::
      outlineAll (outer ++ [name]) decls
  | .preExpander expander mainProperty => [⟨outer, name, .preExpander expander mainProperty⟩]
  | .postExpander expander mainProperty => [⟨outer, name, .postExpander expander mainProperty⟩]

/-- Some declarations and those inside them. -/
def outlineAll (outer : List String) : List NamedDecl → List Declared
  | [] => []
  | ⟨name, decl⟩ :: rest => decl.outline outer name ++ outlineAll outer rest

end

/-- What a declaration tells of its type: the children are named as declared, and the slots are the
children that the declaration names as such, in the order in which it first does. -/
def TypeDecl.Describes (type : NodeType) : TypeDecl → Prop
  | .list containsParagraphs inParagraph mainProperty decls =>
    type.mainProperty = mainProperty ∧ ∃ children,
      type.kind = .list ⟨containsParagraphs, inParagraph, children⟩ ∧
      children.map Prod.fst = decls.map NamedDecl.name
  | .map inParagraph mainProperty decls mapped mainSlot =>
    type.mainProperty = mainProperty ∧ ∃ children slots main,
      type.kind = .map ⟨inParagraph, children, slots, main⟩ ∧
      children.map Prod.fst = decls.map NamedDecl.name ∧
      slots.map some = mapped.eraseDups.map (fun slot => children.lookup slot) ∧
      main.map (fun main => (some main.child, main.mode)) =
        mainSlot.map fun main => (children.lookup main.1, main.2)
  | .preExpander expander mainProperty =>
    type.mainProperty = mainProperty ∧ type.kind = .preExpander expander
  | .postExpander expander mainProperty =>
    type.mainProperty = mainProperty ∧ type.kind = .postExpander expander

/-- A type is that of a declaration. -/
def Declared.Describes (declared : Declared) (type : NodeType) : Prop :=
  type.name = declared.name ∧ declared.decl.Describes type

/-! ### Children -/

/-- What a type has as a child under a name is a type of that name below it. -/
def Held (next : Nat) (types : List NodeType) : Prop :=
  ∀ id type children, typeAt next types id = some type → type.children? = some children →
    ∀ name child, children.lookup name = some child →
      ∃ held, typeAt next types child = some held ∧ held.name = name ∧ held.parent = some id

namespace Held

theorem nil : Held next [] := by
  intro id type children found
  rw [typeAt_nil] at found
  cases found

theorem append (held : Held next types) (held' : Held (next + types.length) more) :
    Held next (types ++ more) := by
  intro id type children found kind name child lookup
  rcases typeAt_append found with here | behind
  · obtain ⟨below, numbered, same, above⟩ := held id type children here kind name child lookup
    exact ⟨below, typeAt_append_left numbered, same, above⟩
  · obtain ⟨below, numbered, same, above⟩ := held' id type children behind kind name child lookup
    exact ⟨below, typeAt_append_right numbered, same, above⟩

/-- A type in front of others, some of which are its children. -/
theorem cons {first : NodeType} (held : Held (next + 1) types)
    (own : ∀ children, first.children? = some children → ∀ name child,
      children.lookup name = some child →
        ∃ below, typeAt (next + 1) types child = some below ∧ below.name = name ∧
          below.parent = some ⟨next⟩) :
    Held next (first :: types) := by
  intro id type children found kind name child lookup
  rcases typeAt_of_cons found with ⟨rfl, rfl⟩ | inside
  · obtain ⟨below, numbered, same, above⟩ := own children kind name child lookup
    exact ⟨below, typeAt_cons numbered, same, above⟩
  · obtain ⟨below, numbered, same, above⟩ := held id type children inside kind name child lookup
    exact ⟨below, typeAt_cons numbered, same, above⟩

end Held

/-! ### Slots -/

/-- The slots of a map are the children named as such, in the order in which they are first
named. -/
theorem slotTypes_ends_named (path : List String) {children : Children}
    (distinct : ∀ name other child, children.lookup name = some child →
      children.lookup other = some child → name = other)
    (slots : List TypeId) (mapped : List String) :
    Ends (slotTypes path children slots mapped) (fun found => found.map some = slots.map some ++
      (mapped.filter fun slot => children.lookup slot ∉ slots.map some).eraseDups.map
        fun slot => children.lookup slot) fun _ => True := by
  induction mapped generalizing slots with
  | nil => exact (List.append_nil _).symm
  | cons slot rest ih =>
    unfold slotTypes
    cases lookup : children.lookup slot with
    | none => trivial
    | some child =>
      dsimp only
      by_cases known : slots.contains child = true
      · rw [if_pos known, List.filter_cons_of_neg]
        · exact ih slots
        · simpa [lookup] using known
      · rw [if_neg known, List.filter_cons_of_pos (by simpa [lookup] using known),
          List.eraseDups_cons, List.filter_filter]
        refine (ih (slots ++ [child])).mono (fun found same => ?_) fun _ _ => trivial
        -- A later name is another slot just if it is another name.
        have others : (fun other => decide (children.lookup other ∉ (slots ++ [child]).map some)) =
            fun other => !other == slot && decide (children.lookup other ∉ slots.map some) := by
          funext other
          have differs : children.lookup other = some child ↔ other = slot :=
            ⟨fun here => distinct other slot child here lookup, fun same => same ▸ lookup⟩
          rw [Bool.eq_iff_iff]
          simp [not_or, and_comm, differs]
        rw [same, others]
        simp [lookup]

/-- A main slot is the child of its name. -/
theorem mainSlotType_ends_named (path : List String) (decls : List NamedDecl) (children : Children)
    (slots : List TypeId) (mainSlot : Option (String × SlotMode)) :
    Ends (mainSlotType path decls children slots mainSlot)
      (fun main => main.map (fun main => (some main.child, main.mode)) =
        mainSlot.map fun main => (children.lookup main.1, main.2)) fun _ => True := by
  unfold mainSlotType
  split
  · rfl
  · dsimp only
    split
    · trivial
    · next child lookup =>
      split
      · show some (some child, _) = some (children.lookup _, _)
        rw [lookup]
      · trivial

/-! ### Ways to types -/

namespace Registry

/-- The types of a registry with ids from `next` on. -/
def Holds (registry : Registry) (next : Nat) (types : List NodeType) : Prop :=
  ∀ id type, typeAt next types id = some type → registry.get id = type

/-- The names on the way to a parent; there are none without one. -/
def Leads (registry : Registry) (parent : Option TypeId) (next : Nat) (outer : List String) :
    Prop :=
  match parent with
  | none => outer = []
  | some above => above.index < next ∧ registry.namesTo above = outer

/-- The names on the way to the types with ids from `next` on. -/
def waysFrom (registry : Registry) (next count : Nat) : List (List String) :=
  (List.range' next count).map fun index => registry.namesTo ⟨index⟩

variable {registry : Registry}

theorem namesTo_of_leads (leads : registry.Leads (registry.get id).parent id.index outer) :
    registry.namesTo id = outer ++ [(registry.get id).name] := by
  rw [namesTo]
  cases up : (registry.get id).parent with
  | none =>
    rw [up] at leads
    rw [show outer = [] from leads]
    rfl
  | some above =>
    rw [up] at leads
    obtain ⟨below, same⟩ := leads
    dsimp only
    rw [if_pos below, same]

theorem Leads.mono {later : Nat} (leads : registry.Leads parent next outer) (le : next ≤ later) :
    registry.Leads parent later outer := by
  cases parent with
  | none => exact leads
  | some above => exact ⟨Nat.lt_of_lt_of_le leads.1 le, leads.2⟩

theorem waysFrom_append (next count later : Nat) : registry.waysFrom next (count + later) =
    registry.waysFrom next count ++ registry.waysFrom (next + count) later := by
  unfold waysFrom
  rw [← List.map_append, List.range'_append_1]

theorem waysFrom_cons (next count : Nat) : registry.waysFrom next (count + 1) =
    registry.namesTo ⟨next⟩ :: registry.waysFrom (next + 1) count := by
  unfold waysFrom
  rw [List.range'_succ, List.map_cons]

end Registry

/-! ### Numbering -/

/-- What numbered types have to do with an outline: they are described by it one by one, children
are held under their names, and the ways to the types are those of the outline. -/
structure Outlined (next : Nat) (parent : Option TypeId) (outer : List String)
    (outline : List Declared) (types : List NodeType) : Prop where
  described : List.Forall₂ Declared.Describes outline types
  held : Held next types
  ways : ∀ registry : Registry, registry.Holds next types → registry.Leads parent next outer →
    registry.waysFrom next types.length = outline.map Declared.names

/-- The types of some declarations, their outline, and their names behind those `seen`. -/
structure ChildrenOutlined (next : Nat) (parent : Option TypeId) (outer : List String)
    (seen : Children) (decls : List NamedDecl) (listed : List NodeType × Children) : Prop where
  outlined : Outlined next parent outer (outlineAll outer decls) listed.1
  keys : listed.2.map Prod.fst = seen.map Prod.fst ++ decls.map NamedDecl.name
  entries : ∀ name id, listed.2.lookup name = some id → seen.lookup name = some id ∨
    ∃ type, typeAt next listed.1 id = some type ∧ type.name = name ∧ type.parent = parent

/-- Among the types of a declaration the first has the given name and parent. -/
structure TypeDecl.Outlined (next : Nat) (parent : Option TypeId) (outer : List String)
    (name : String) (decl : TypeDecl) (types : List NodeType) : Prop where
  outlined : TypedMarkup.Outlined next parent outer (decl.outline outer name) types
  first : ∃ type, typeAt next types ⟨next⟩ = some type ∧ type.name = name ∧ type.parent = parent

namespace Outlined

variable {outline rest : List Declared}

theorem append (head : Outlined next parent outer outline types)
    (tail : Outlined (next + types.length) parent outer rest more) :
    Outlined next parent outer (outline ++ rest) (types ++ more) := by
  refine ⟨List.rel_append head.described tail.described, head.held.append tail.held, ?_⟩
  intro registry holds leads
  rw [List.length_append, Registry.waysFrom_append, List.map_append,
    head.ways registry (fun id type found => holds id type (typeAt_append_left found)) leads,
    tail.ways registry (fun id type found => holds id type (typeAt_append_right found))
      (leads.mono (Nat.le_add_right _ _))]

/-- A type in front of its children. -/
theorem cons {declared : Declared} {first : NodeType} (describes : declared.Describes first)
    (place : declared.outer = outer) (above : first.parent = parent)
    (inside : Outlined (next + 1) (some ⟨next⟩) declared.names rest types)
    (own : ∀ children, first.children? = some children → ∀ name child,
      children.lookup name = some child →
        ∃ below, typeAt (next + 1) types child = some below ∧ below.name = name ∧
          below.parent = some ⟨next⟩) :
    Outlined next parent outer (declared :: rest) (first :: types) := by
  refine ⟨.cons describes inside.described, inside.held.cons own, fun registry holds leads => ?_⟩
  have here : registry.get ⟨next⟩ = first := holds _ _ (typeAt_first first)
  have up : registry.Leads (registry.get ⟨next⟩).parent next outer := by rwa [here, above]
  have way : registry.namesTo ⟨next⟩ = declared.names := by
    rw [Registry.namesTo_of_leads up, here, describes.1, ← place]
    rfl
  rw [List.length_cons, Registry.waysFrom_cons, List.map_cons, way,
    inside.ways registry (fun id type found => holds id type (typeAt_cons found))
      ⟨Nat.lt_succ_self next, way⟩]

theorem nil : Outlined next parent outer [] [] :=
  ⟨.nil, Held.nil, fun _ _ _ => rfl⟩

end Outlined

/-- The children of a declaration and then those of the declarations behind it. -/
theorem ChildrenOutlined.cons {seen : Children} {name : String} {decl : TypeDecl}
    {rest : List NamedDecl} {listed : List NodeType × Children}
    (head : decl.Outlined next parent outer name types)
    (tail : ChildrenOutlined (next + types.length) parent outer (seen ++ [(name, ⟨next⟩)]) rest
      listed) :
    ChildrenOutlined next parent outer seen (⟨name, decl⟩ :: rest)
      (types ++ listed.1, listed.2) := by
  refine ⟨?_, ?_, fun other id found => ?_⟩
  · unfold outlineAll
    exact head.outlined.append tail.outlined
  · rw [tail.keys, List.map_append, List.append_assoc]
    rfl
  · rcases tail.entries other id found with before | ⟨type, behind, named⟩
    · rw [List.lookup_append, Option.or_eq_some_iff] at before
      rcases before with before | ⟨_, same⟩
      · exact .inl before
      · obtain ⟨type, numbered, named⟩ := head.first
        rw [Table.lookup_entry] at same
        split at same
        · next hit =>
          cases same
          exact .inr ⟨type, typeAt_append_left numbered, hit ▸ named⟩
        · cases same
    · exact .inr ⟨type, typeAt_append_right behind, named⟩

namespace ChildrenOutlined

variable {decls : List NamedDecl} {listed : List NodeType × Children}

/-- The entries of a table that starts empty are children of the type in front. -/
theorem own (known : ChildrenOutlined next parent outer [] decls listed) {name : String}
    (lookup : listed.2.lookup name = some id) :
    ∃ type, typeAt next listed.1 id = some type ∧ type.name = name ∧ type.parent = parent := by
  rcases known.entries name id lookup with none | own
  · cases none
  · exact own

/-- Different names are names of different children. -/
theorem distinct (known : ChildrenOutlined next parent outer [] decls listed) (name other : String)
    (child : TypeId) (lookup : listed.2.lookup name = some child)
    (lookup' : listed.2.lookup other = some child) : name = other := by
  obtain ⟨type, numbered, named, _⟩ := known.own lookup
  obtain ⟨type', numbered', named', _⟩ := known.own lookup'
  rw [numbered] at numbered'
  cases numbered'
  exact named.symm.trans named'

end ChildrenOutlined

/-- A type in front of its children, as they are declared. -/
theorem TypeDecl.Outlined.of_children {name : String} {decl : TypeDecl} {first : NodeType}
    {decls : List NamedDecl} {listed : List NodeType × Children}
    (outline : decl.outline outer name = ⟨outer, name, decl⟩ :: outlineAll (outer ++ [name]) decls)
    (holds : first.children? = some listed.2) (named : first.name = name)
    (above : first.parent = parent) (describes : decl.Describes first)
    (known : ChildrenOutlined (next + 1) (some ⟨next⟩) (outer ++ [name]) [] decls listed) :
    decl.Outlined next parent outer name (first :: listed.1) := by
  refine ⟨?_, first, typeAt_first first, named, above⟩
  rw [outline]
  refine .cons ⟨named, describes⟩ rfl above known.outlined ?_
  intro children same other child lookup
  rw [holds] at same
  cases same
  exact known.own lookup

/-- A type without children. -/
theorem TypeDecl.Outlined.single {name : String} {decl : TypeDecl} {first : NodeType}
    (outline : decl.outline outer name = [⟨outer, name, decl⟩]) (holds : first.children? = none)
    (named : first.name = name) (above : first.parent = parent) (describes : decl.Describes first) :
    decl.Outlined next parent outer name [first] := by
  refine ⟨?_, first, typeAt_first first, named, above⟩
  rw [outline]
  refine .cons ⟨named, describes⟩ rfl above .nil fun children same => ?_
  rw [holds] at same
  cases same

/-- Declared types are their outline. -/
def Numbering.outlined : Numbering where
  one next parent outer name decl types := decl.Outlined next parent outer name types
  all := ChildrenOutlined
  nil := ⟨.nil, (List.append_nil _).symm, fun _ _ found => .inl found⟩
  cons _ head tail := .cons head tail
  list known := .of_children rfl rfl rfl rfl ⟨rfl, _, rfl, known.keys⟩ known
  map := by
    intro next _ _ _ _ _ _ mapped _ listed slots main known slotted placed
    have named := (slotTypes_ends_named _ known.distinct [] mapped).of_eq_ok slotted
    have place := (mainSlotType_ends_named _ _ _ _ _).of_eq_ok placed
    refine .of_children rfl rfl rfl rfl ?_ known
    refine ⟨rfl, listed.2, slots, main, rfl, known.keys, ?_, place⟩
    rw [named]
    simp
  preExpander := .single rfl rfl rfl rfl ⟨rfl, rfl⟩
  postExpander := .single rfl rfl rfl rfl ⟨rfl, rfl⟩

namespace Registry

variable {decls : List NamedDecl} {registry : Registry}

/-- **The declared types** of a built registry are those of the outline. -/
theorem outlined (built : ofDeclarations decls = .ok registry) :
    ChildrenOutlined 0 none [] [] decls (registry.declared, registry.roots) :=
  Numbering.outlined.ofDeclarations built

end Registry

end TypedMarkup
