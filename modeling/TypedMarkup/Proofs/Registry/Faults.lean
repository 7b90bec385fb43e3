/-
**Faults of declarations.** Declarations make a registry unless one of them is ill-formed, and then
the first fault is reported.

* `RegistryError.In decls fault` says what is wrong with some declarations, wherever it is.
* `declarationFaults` lists all faults of some declarations, depth first and in their order: the
  name of a declaration before its body, and in the body the children before the slots and these
  before the main slot. `mem_declarationFaults` says that the list is complete.
* `Registry.ofDeclarations_eq_error_iff`: what is reported is the first fault of that list, also if
  the types are put into a table that grows.
-/

import Mathlib.Data.List.Nodup
import TypedMarkup.Proofs.Checks
import TypedMarkup.Proofs.Registry.Arena

namespace TypedMarkup

/-! ### What is wrong -/

namespace TypeDecl

/-- The children that are declared. -/
def children : TypeDecl → List NamedDecl
  | list _ _ _ decls | map _ _ decls _ _ => decls
  | preExpander _ _ | postExpander _ _ => []

/-- The names of the slots. -/
def slotNames : TypeDecl → List String
  | map _ _ _ mapped _ => mapped
  | list _ _ _ _ | preExpander _ _ | postExpander _ _ => []

/-- The name of the main slot. -/
def mainSlotName : TypeDecl → Option String
  | map _ _ _ _ mainSlot => mainSlot.map Prod.fst
  | list _ _ _ _ | preExpander _ _ | postExpander _ _ => none

end TypeDecl

/-- A declaration has a fault in itself: two children of one name, a slot that is no child, or a
main slot that is no list among the children with a slot. -/
def Declared.Has (declared : Declared) : RegistryError → Prop
  | .reservedName _ | .duplicateGlobal _ => False
  | .duplicateChild parent child => parent = joinPath declared.names ∧
    2 ≤ (declared.decl.children.map NamedDecl.name).count child
  | .unknownMappedSlot map slot => map = joinPath declared.names ∧
    slot ∈ declared.decl.slotNames ∧ slot ∉ declared.decl.children.map NamedDecl.name
  | .invalidMainSlot map slot => map = joinPath declared.names ∧
    declared.decl.mainSlotName = some slot ∧ ¬ (slot ∈ declared.decl.slotNames ∧
      ∃ child ∈ declared.decl.children, child.name = slot ∧ child.decl.isList = true)

/-- Something is wrong with declarations: a global type has the name of a built-in one or of another
global one, or one of the declarations inside has a fault. -/
def RegistryError.In (decls : List NamedDecl) (fault : RegistryError) : Prop :=
  (∃ name ∈ decls.map NamedDecl.name, name ∈ builtinNames ∧ fault = .reservedName name) ∨
  (∃ name, 2 ≤ (decls.map NamedDecl.name).count name ∧ fault = .duplicateGlobal name) ∨
  ∃ declared ∈ outlineAll [] decls, declared.Has fault

/-! ### Faults in order -/

/-- The faults of the slots of the map at `path`. -/
def slotFaults (path : List String) (decls : List NamedDecl) (mapped : List String) :
    List RegistryError :=
  (mapped.filter fun slot => slot ∉ decls.map NamedDecl.name).map
    (.unknownMappedSlot (joinPath path))

/-- The fault of the main slot of the map at `path`, if it has one. -/
def mainSlotFaults (path : List String) (decls : List NamedDecl) (mapped : List String) :
    Option (String × SlotMode) → List RegistryError
  | none => []
  | some (slot, _) =>
    if slot ∈ mapped ∧ ∃ child ∈ decls, child.name = slot ∧ child.decl.isList = true then []
    else [.invalidMainSlot (joinPath path) slot]

mutual

/-- The faults of a declaration and of those inside it. -/
def TypeDecl.faults (outer : List String) (name : String) : TypeDecl → List RegistryError
  | .list _ _ _ decls => childFaults (outer ++ [name]) [] decls
  | .map _ _ decls mapped mainSlot =>
    childFaults (outer ++ [name]) [] decls ++ (slotFaults (outer ++ [name]) decls mapped ++
      mainSlotFaults (outer ++ [name]) decls mapped mainSlot)
  | .preExpander _ _ | .postExpander _ _ => []

/-- The faults of the remaining children of the type at `path`, behind those of the names
`before`. -/
def childFaults (path before : List String) : List NamedDecl → List RegistryError
  | [] => []
  | ⟨name, decl⟩ :: rest =>
    (if name ∈ before then [.duplicateChild (joinPath path) name] else []) ++
      (decl.faults path name ++ childFaults path (before ++ [name]) rest)

end

/-- The faults of the remaining global declarations, behind those of the names `before`. -/
def globalFaults (before : List String) : List NamedDecl → List RegistryError
  | [] => []
  | ⟨name, decl⟩ :: rest =>
    (if name ∈ builtinNames then [.reservedName name] else []) ++
      ((if name ∈ before then [.duplicateGlobal name] else []) ++
        (decl.faults [] name ++ globalFaults (before ++ [name]) rest))

/-- All faults of some declarations. -/
def declarationFaults (decls : List NamedDecl) : List RegistryError :=
  globalFaults [] decls

/-! ### All faults are listed -/

variable {fault : RegistryError} {outer path before : List String} {decls : List NamedDecl}

/-- A name stands twice behind others if it stands there and among them, or twice later on. -/
theorem repeats_cons (child name : String) (before names : List String) :
    (child ∈ name :: names ∧ 2 ≤ (before ++ name :: names).count child) ↔
      (child = name ∧ name ∈ before) ∨
        (child ∈ names ∧ 2 ≤ (before ++ [name] ++ names).count child) := by
  have split : before ++ name :: names = before ++ [name] ++ names := by simp
  rw [split]
  by_cases later : child ∈ names
  · have earlier : child = name ∧ name ∈ before →
        2 ≤ (before ++ [name] ++ names).count child := by
      rintro ⟨rfl, member⟩
      have one := List.count_pos_iff.2 member
      have two := List.count_pos_iff.2 later
      simp only [List.count_append]
      omega
    simp only [List.mem_cons, later, or_true, true_and]
    exact ⟨.inr, fun either => either.elim earlier id⟩
  · have none := List.count_eq_zero.2 later
    simp only [List.mem_cons, later, or_false, false_and, List.count_append, none]
    refine and_congr_right fun same => ?_
    subst same
    rw [List.count_singleton_self, ← List.count_pos_iff]
    omega

/-- The three faults of a declaration. -/
theorem Declared.has_iff {declared : Declared} : declared.Has fault ↔
    (∃ child, 2 ≤ (declared.decl.children.map NamedDecl.name).count child ∧
      fault = .duplicateChild (joinPath declared.names) child) ∨
    (∃ slot ∈ declared.decl.slotNames, slot ∉ declared.decl.children.map NamedDecl.name ∧
      fault = .unknownMappedSlot (joinPath declared.names) slot) ∨
    ∃ slot, declared.decl.mainSlotName = some slot ∧ ¬ (slot ∈ declared.decl.slotNames ∧
      ∃ child ∈ declared.decl.children, child.name = slot ∧ child.decl.isList = true) ∧
      fault = .invalidMainSlot (joinPath declared.names) slot := by
  cases fault with
  | reservedName | duplicateGlobal => simp [Declared.Has]
  | duplicateChild parent child =>
    constructor
    · rintro ⟨rfl, twice⟩
      exact .inl ⟨child, twice, rfl⟩
    · rintro (⟨_, twice, ⟨⟩⟩ | ⟨_, _, _, ⟨⟩⟩ | ⟨_, _, _, ⟨⟩⟩)
      exact ⟨rfl, twice⟩
  | unknownMappedSlot map slot =>
    constructor
    · rintro ⟨rfl, mapped, missing⟩
      exact .inr (.inl ⟨slot, mapped, missing, rfl⟩)
    · rintro (⟨_, _, ⟨⟩⟩ | ⟨_, mapped, missing, ⟨⟩⟩ | ⟨_, _, _, ⟨⟩⟩)
      exact ⟨rfl, mapped, missing⟩
  | invalidMainSlot map slot =>
    constructor
    · rintro ⟨rfl, main, unfit⟩
      exact .inr (.inr ⟨slot, main, unfit, rfl⟩)
    · rintro (⟨_, _, ⟨⟩⟩ | ⟨_, _, _, ⟨⟩⟩ | ⟨_, main, unfit, ⟨⟩⟩)
      exact ⟨rfl, main, unfit⟩

theorem mem_slotFaults {mapped : List String} : fault ∈ slotFaults path decls mapped ↔
    ∃ slot ∈ mapped, slot ∉ decls.map NamedDecl.name ∧
      fault = .unknownMappedSlot (joinPath path) slot := by
  simp only [slotFaults, List.mem_map, List.mem_filter, decide_eq_true_eq, and_assoc]
  exact exists_congr fun slot => and_congr_right fun _ => and_congr_right fun _ => eq_comm

theorem mem_mainSlotFaults {mapped : List String} {mainSlot : Option (String × SlotMode)} :
    fault ∈ mainSlotFaults path decls mapped mainSlot ↔ ∃ slot, mainSlot.map Prod.fst = some slot ∧
      ¬ (slot ∈ mapped ∧ ∃ child ∈ decls, child.name = slot ∧ child.decl.isList = true) ∧
      fault = .invalidMainSlot (joinPath path) slot := by
  cases mainSlot with
  | none => simp [mainSlotFaults]
  | some main =>
    simp only [mainSlotFaults, List.mem_ite_nil_left, List.mem_singleton, Option.map_some,
      Option.some.injEq, exists_eq_left']

/-- The faults of children with no names before them. -/
theorem repeats_nil {names : List String} {made : String → RegistryError} :
    (∃ child, (child ∈ names ∧ 2 ≤ ([] ++ names).count child) ∧ fault = made child) ↔
      ∃ child, 2 ≤ names.count child ∧ fault = made child := by
  refine exists_congr fun child => and_congr_left fun _ => ?_
  rw [List.nil_append]
  exact and_iff_right_of_imp fun twice => List.count_pos_iff.1 (by omega)

mutual

/-- The faults of a declaration are those that it and the ones inside it have. -/
theorem TypeDecl.mem_faults (outer : List String) (name : String) :
    ∀ decl : TypeDecl, fault ∈ decl.faults outer name ↔
      ∃ declared ∈ decl.outline outer name, declared.Has fault
  | .list containsParagraphs inParagraph mainProperty decls => by
    unfold TypeDecl.faults TypeDecl.outline
    rw [List.exists_mem_cons_iff, mem_childFaults (outer ++ [name]) [] decls, repeats_nil,
      Declared.has_iff]
    simp [TypeDecl.children, TypeDecl.slotNames, TypeDecl.mainSlotName, Declared.names]
  | .map inParagraph mainProperty decls mapped mainSlot => by
    unfold TypeDecl.faults TypeDecl.outline
    rw [List.mem_append, List.mem_append, mem_childFaults (outer ++ [name]) [] decls, repeats_nil,
      mem_slotFaults, mem_mainSlotFaults, List.exists_mem_cons_iff, Declared.has_iff]
    -- The faults inside the children are listed between the two kinds of faults of the map.
    exact or_right_comm
  | .preExpander _ _ | .postExpander _ _ => by
    unfold TypeDecl.faults TypeDecl.outline
    simp [Declared.has_iff, TypeDecl.children, TypeDecl.slotNames, TypeDecl.mainSlotName]

/-- The faults of some children are that a name is repeated, and those inside the children. -/
theorem mem_childFaults (path before : List String) :
    ∀ decls : List NamedDecl, fault ∈ childFaults path before decls ↔
      (∃ child, (child ∈ decls.map NamedDecl.name ∧
        2 ≤ (before ++ decls.map NamedDecl.name).count child) ∧
        fault = .duplicateChild (joinPath path) child) ∨
      ∃ declared ∈ outlineAll path decls, declared.Has fault
  | [] => by simp [childFaults, outlineAll]
  | ⟨name, decl⟩ :: rest => by
    unfold childFaults outlineAll
    rw [List.mem_append, List.mem_append, TypeDecl.mem_faults path name decl,
      mem_childFaults path (before ++ [name]) rest]
    simp only [List.map_cons, repeats_cons, List.mem_append, List.mem_ite_nil_right,
      List.mem_singleton, or_and_right, exists_or, and_assoc, exists_eq_left]
    exact (or_congr_right or_left_comm).trans or_assoc.symm

end

/-- **All faults are listed**, and nothing else. -/
theorem mem_declarationFaults : fault ∈ declarationFaults decls ↔ fault.In decls := by
  have behind (before : List String) : fault ∈ globalFaults before decls ↔
      (∃ name ∈ decls.map NamedDecl.name, name ∈ builtinNames ∧ fault = .reservedName name) ∨
      (∃ name, (name ∈ decls.map NamedDecl.name ∧
        2 ≤ (before ++ decls.map NamedDecl.name).count name) ∧ fault = .duplicateGlobal name) ∨
      ∃ declared ∈ outlineAll [] decls, declared.Has fault := by
    induction decls generalizing before with
    | nil => simp [globalFaults, outlineAll]
    | cons first rest ih =>
      obtain ⟨name, decl⟩ := first
      unfold globalFaults outlineAll
      rw [List.mem_append, List.mem_append, List.mem_append, decl.mem_faults [] name, ih]
      simp only [List.map_cons, repeats_cons, List.mem_ite_nil_right, List.mem_singleton]
      simp only [List.mem_cons, List.mem_append, or_and_right, exists_or, and_assoc, exists_eq_left]
      refine iff_of_eq ?_
      ac_rfl
  rw [declarationFaults, behind [], repeats_nil, RegistryError.In]

/-! ### The first fault is reported -/

variable {next : Nat} {seen children : Children} {slots : List TypeId}

/-- The names in a table of children are those it lists. -/
theorem lookup_isSome_iff (children : Children) (name : String) :
    (children.lookup name).isSome = true ↔ name ∈ children.map Prod.fst := by
  induction children with
  | nil => simp
  | cons entry rest ih =>
    obtain ⟨key, child⟩ := entry
    rw [Table.lookup_entry, List.map_cons, List.mem_cons]
    by_cases same : name = key
    · simp [same]
    · rw [if_neg same, ih]
      simp [same]

/-- The slots of a map are checked one after the other. -/
theorem checks_slotTypes (keys : children.map Prod.fst = decls.map NamedDecl.name)
    (slots : List TypeId) (mapped : List String) :
    Checks (slotTypes path children slots mapped) (slotFaults path decls mapped) fun _ => True := by
  induction mapped generalizing slots with
  | nil => exact .pure trivial
  | cons slot rest ih =>
    have known := lookup_isSome_iff children slot
    rw [keys] at known
    unfold slotTypes slotFaults
    cases found : children.lookup slot with
    | none =>
      have missing : slot ∉ decls.map NamedDecl.name := by simpa [found] using known
      rw [List.filter_cons_of_pos (by simpa using missing), List.map_cons]
      exact .blame _ _
    | some child =>
      have member : slot ∈ decls.map NamedDecl.name := by simpa [found] using known
      rw [List.filter_cons_of_neg (by simpa using member)]
      dsimp only
      split
      · exact ih slots
      · exact ih (slots ++ [child])

/-- Among declarations of different names the first of a name is the one of that name. -/
theorem find?_isList (once : (decls.map NamedDecl.name).Nodup) (name : String) :
    ((decls.find? fun named => named.name == name).any fun named => named.decl.isList) = true ↔
      ∃ child ∈ decls, child.name = name ∧ child.decl.isList = true := by
  induction decls with
  | nil => simp
  | cons first rest ih =>
    obtain ⟨fresh, once⟩ := List.nodup_cons.1 once
    rw [List.exists_mem_cons_iff]
    by_cases same : first.name = name
    · have others : ¬ ∃ child ∈ rest, child.name = name ∧ child.decl.isList = true := by
        rintro ⟨child, member, rfl, _⟩
        exact fresh (same ▸ List.mem_map_of_mem member)
      rw [List.find?_cons_of_pos (by simpa using same), or_iff_left others]
      simp [same]
    · rw [List.find?_cons_of_neg (by simpa using same), ih once]
      simp [same]

/-- A child is a slot just if its name is that of one. -/
theorem mem_slots_iff {mapped : List String} {slot : String} {child : TypeId}
    (distinct : ∀ name other child, children.lookup name = some child →
      children.lookup other = some child → name = other)
    (named : slots.map some = mapped.eraseDups.map fun slot => children.lookup slot)
    (lookup : children.lookup slot = some child) : child ∈ slots ↔ slot ∈ mapped := by
  rw [← List.mem_map_of_injective fun _ _ => Option.some.inj, named, List.mem_map]
  constructor
  · rintro ⟨other, member, lookup'⟩
    rw [distinct slot other child lookup lookup']
    exact List.mem_eraseDups.1 member
  · exact fun member => ⟨slot, List.mem_eraseDups.2 member, lookup⟩

/-- The main slot of a map is checked. -/
theorem checks_mainSlotType {mapped : List String}
    (keys : children.map Prod.fst = decls.map NamedDecl.name)
    (distinct : ∀ name other child, children.lookup name = some child →
      children.lookup other = some child → name = other)
    (named : slots.map some = mapped.eraseDups.map fun slot => children.lookup slot)
    (once : (decls.map NamedDecl.name).Nodup) (mainSlot : Option (String × SlotMode)) :
    Checks (mainSlotType path decls children slots mainSlot)
      (mainSlotFaults path decls mapped mainSlot) fun _ => True := by
  cases mainSlot with
  | none => exact .pure trivial
  | some main =>
    obtain ⟨slot, mode⟩ := main
    have known := lookup_isSome_iff children slot
    have list := find?_isList once slot
    rw [keys] at known
    rw [mainSlotType, mainSlotFaults]
    cases found : children.lookup slot with
    | none =>
      have missing : slot ∉ decls.map NamedDecl.name := by simpa [found] using known
      rw [if_neg]
      · exact .blame _ _
      · rintro ⟨_, child, member, rfl, _⟩
        exact missing (List.mem_map_of_mem member)
    | some child =>
      have slotted := mem_slots_iff distinct named found
      simp only [← slotted, ← list, ← List.contains_iff_mem, ← Bool.and_eq_true]
      split
      · exact .pure trivial
      · exact .blame _ _

/-- Without faults all children have different names. -/
theorem nodup_of_childFaults (none : childFaults path [] decls = []) :
    (decls.map NamedDecl.name).Nodup := by
  rw [List.nodup_iff_count_le_one]
  intro name
  refine Nat.le_of_not_lt fun twice => ?_
  have listed : RegistryError.duplicateChild (joinPath path) name ∈ childFaults path [] decls :=
    (mem_childFaults path [] decls).2 (.inl (repeats_nil.2 ⟨name, twice, rfl⟩))
  rw [none] at listed
  cases listed

mutual

/-- The types of a declaration are listed, or its first fault is reported. -/
theorem TypeDecl.checks_flatten (outer : List String) (parent : Option TypeId) (next : Nat)
    (name : String) : ∀ decl : TypeDecl,
    Checks (decl.flatten outer parent next name) (decl.faults outer name) fun _ => True
  | .list containsParagraphs inParagraph mainProperty decls => by
    unfold TypeDecl.flatten TypeDecl.faults
    exact (checks_flattenChildren _ _ _ [] decls).bind_pure fun _ _ => trivial
  | .map inParagraph mainProperty decls mapped mainSlot => by
    unfold TypeDecl.flatten TypeDecl.faults
    have children := (checks_flattenChildren (outer ++ [name]) ⟨next⟩ (next + 1) [] decls).and_ends
      (Numbering.outlined.flattenChildren _ _ _ _ decls)
    refine children.bind fun listed known => ?_
    obtain ⟨known, none⟩ := known
    have slots := (checks_slotTypes known.keys [] mapped).and_ends
      (slotTypes_ends_named (outer ++ [name]) known.distinct [] mapped)
    refine slots.bind fun slots slotted => ?_
    refine (checks_mainSlotType known.keys known.distinct ?_ (nodup_of_childFaults none)
      mainSlot).bind_pure fun _ _ => trivial
    simpa using slotted.1
  | .preExpander _ _ | .postExpander _ _ => .pure trivial

/-- The types of some children are listed, or their first fault is reported. -/
theorem checks_flattenChildren (path : List String) (parent : TypeId) (next : Nat)
    (seen : Children) : ∀ decls : List NamedDecl,
    Checks (flattenChildren path parent next seen decls)
      (childFaults path (seen.map Prod.fst) decls) fun _ => True
  | [] => .pure trivial
  | ⟨name, decl⟩ :: rest => by
    unfold flattenChildren childFaults
    simp only [← lookup_isSome_iff]
    refine .guard rfl fun _ => ?_
    refine (decl.checks_flatten path (some parent) next name).bind fun types _ => ?_
    have later := checks_flattenChildren path parent (next + types.length)
      (seen ++ [(name, ⟨next⟩)]) rest
    rw [List.map_append] at later
    exact later.bind_pure fun _ _ => trivial

end

namespace Registry

theorem checks_flattenGlobals (next : Nat) (seen : Children) (decls : List NamedDecl) :
    Checks (flattenGlobals next seen decls) (globalFaults (seen.map Prod.fst) decls)
      fun _ => True := by
  induction decls generalizing next seen with
  | nil => exact .pure trivial
  | cons first rest ih =>
    obtain ⟨name, decl⟩ := first
    unfold flattenGlobals globalFaults
    simp only [← lookup_isSome_iff]
    simp only [← List.contains_iff_mem]
    refine .guard rfl fun _ => .guard rfl fun _ => ?_
    refine (decl.checks_flatten [] none next name).bind fun types _ => ?_
    have later := ih (next + types.length) (seen ++ [(name, ⟨next⟩)])
    rw [List.map_append] at later
    exact later.bind_pure fun _ _ => trivial

/-- A registry is built, or the first fault of its declarations is reported. -/
theorem checks_ofDeclarations (decls : List NamedDecl) :
    Checks (ofDeclarations decls) (declarationFaults decls) fun _ => True :=
  (checks_flattenGlobals 0 [] decls).bind_pure fun _ _ => trivial

/-- **Exactly the ill-formed declarations are rejected**, with the first fault in their order. The
names in it are those on the way through the declarations, and just as well those that are read off a
growing table of types from parent to parent. -/
theorem ofDeclarations_eq_error_iff (decls : List NamedDecl) :
    ((∃ fault, ofDeclarations decls = .error fault) ↔ ∃ fault : RegistryError, fault.In decls) ∧
    (∀ fault, ofDeclarations decls = .error fault ↔
      (declarationFaults decls).head? = some fault) ∧
    (∀ fault, fault ∈ declarationFaults decls ↔ fault.In decls) ∧
    allocate decls = ofDeclarations decls := by
  have first (fault : RegistryError) : ofDeclarations decls = .error fault ↔
      (declarationFaults decls).head? = some fault := by
    have checks := checks_ofDeclarations decls
    cases built : ofDeclarations decls with
    | ok registry =>
      rw [built] at checks
      simp [checks.1]
    | error other =>
      rw [built] at checks
      rw [show (declarationFaults decls).head? = some other from checks]
      simp
  refine ⟨?_, first, fun _ => mem_declarationFaults, allocate_eq decls⟩
  simp only [first, ← mem_declarationFaults]
  cases declarationFaults decls <;> simp

/-- A child declared twice inside a child comes before the unknown slot of the map around it. -/
example : declarationFaults [⟨"map", .map false none [⟨"outer", .list false true none
    [⟨"item", .list false true none []⟩, ⟨"item", .list false true none []⟩]⟩] ["none"] none⟩] =
    [.duplicateChild "map\\outer" "item", .unknownMappedSlot "map" "none"] := by
  with_unfolding_all rfl

end Registry

end TypedMarkup
