/-
**Numbering.** Declared types are numbered in the order of their declarations, each before its
children.

* `typeAt` is the type with an id among types that are numbered from some id on.
* `Numbering` is a property of declarations and their types that holds of each declaration if it
  holds of those inside it.
* `Numbering.flatten` and `Numbering.flattenChildren`: so it holds of all declarations whose types
  can be listed, and `Numbering.ofDeclarations` says so of those of a registry.
-/

import TypedMarkup.Proofs.Ends
import TypedMarkup.Registry

namespace TypedMarkup

variable {next : Nat} {types more : List NodeType} {id : TypeId} {type : NodeType}

/-! ### Numbered types -/

/-- The type with an id among types that are numbered from `next` on. -/
def typeAt (next : Nat) (types : List NodeType) (id : TypeId) : Option NodeType :=
  if next ≤ id.index then types[id.index - next]? else none

theorem typeAt_append_left (found : typeAt next types id = some type) :
    typeAt next (types ++ more) id = some type := by
  unfold typeAt at *
  split at found
  · next behind =>
    rw [if_pos behind, List.getElem?_append_left (List.getElem?_eq_some_iff.1 found).1]
    exact found
  · cases found

theorem typeAt_append_right (found : typeAt (next + types.length) more id = some type) :
    typeAt next (types ++ more) id = some type := by
  unfold typeAt at *
  split at found
  · next behind =>
    rw [if_pos (by omega), List.getElem?_append_right (by omega)]
    rwa [Nat.sub_sub]
  · cases found

theorem typeAt_cons {first : NodeType} (found : typeAt (next + 1) types id = some type) :
    typeAt next (first :: types) id = some type := by
  have appended : typeAt next ([first] ++ types) id = some type := typeAt_append_right found
  exact appended

theorem typeAt_first (first : NodeType) : typeAt next (first :: types) ⟨next⟩ = some first := by
  unfold typeAt
  rw [if_pos (Nat.le_refl next), Nat.sub_self]
  rfl

theorem typeAt_nil (next : Nat) (id : TypeId) : typeAt next [] id = none := by
  unfold typeAt
  split <;> rfl

theorem typeAt_append (found : typeAt next (types ++ more) id = some type) :
    typeAt next types id = some type ∨ typeAt (next + types.length) more id = some type := by
  unfold typeAt at *
  split at found
  · next behind =>
    rw [if_pos behind]
    by_cases inside : id.index - next < types.length
    · rw [List.getElem?_append_left inside] at found
      exact .inl found
    · rw [List.getElem?_append_right (by omega), Nat.sub_sub] at found
      exact .inr (by rwa [if_pos (by omega)])
  · cases found

theorem typeAt_of_cons {first : NodeType} (found : typeAt next (first :: types) id = some type) :
    (id = ⟨next⟩ ∧ type = first) ∨ typeAt (next + 1) types id = some type := by
  have split : typeAt next ([first] ++ types) id = some type := found
  refine (typeAt_append split).imp_left fun here => ?_
  unfold typeAt at here
  split at here
  · next behind =>
    obtain ⟨inside, same⟩ := List.getElem?_eq_some_iff.1 here
    rw [List.length_singleton] at inside
    have index : id.index = next := by omega
    refine ⟨by rw [← index], ?_⟩
    rw [← same]
    exact List.getElem_singleton _
  · cases here

theorem le_of_typeAt (found : typeAt next types id = some type) : next ≤ id.index := by
  unfold typeAt at found
  split at found
  · assumption
  · cases found

/-! ### Numberings -/

/-- What `one` says of a declaration and its types, and `all` of some declarations with one parent,
their types and the table of their names behind those seen before. -/
structure Numbering where
  one : Nat → Option TypeId → List String → String → TypeDecl → List NodeType → Prop
  all : Nat → Option TypeId → List String → Children → List NamedDecl →
    List NodeType × Children → Prop
  nil : ∀ {next : Nat} {parent : Option TypeId} {outer : List String} {seen : Children},
    all next parent outer seen [] ([], seen)
  cons : ∀ {next : Nat} {parent : Option TypeId} {outer : List String} {seen : Children}
    {name : String} {decl : TypeDecl} {rest : List NamedDecl} {types : List NodeType}
    {listed : List NodeType × Children},
    seen.lookup name = none → one next parent outer name decl types →
    all (next + types.length) parent outer (seen ++ [(name, ⟨next⟩)]) rest listed →
    all next parent outer seen (⟨name, decl⟩ :: rest) (types ++ listed.1, listed.2)
  list : ∀ {next : Nat} {parent : Option TypeId} {outer : List String} {name : String}
    {containsParagraphs inParagraph : Bool} {mainProperty : Option String}
    {decls : List NamedDecl} {listed : List NodeType × Children},
    all (next + 1) (some ⟨next⟩) (outer ++ [name]) [] decls listed →
    one next parent outer name (.list containsParagraphs inParagraph mainProperty decls)
      (⟨name, parent, mainProperty, .list ⟨containsParagraphs, inParagraph, listed.2⟩⟩ :: listed.1)
  map : ∀ {next : Nat} {parent : Option TypeId} {outer : List String} {name : String}
    {inParagraph : Bool} {mainProperty : Option String} {decls : List NamedDecl}
    {mapped : List String} {mainSlot : Option (String × SlotMode)}
    {listed : List NodeType × Children} {slots : List TypeId} {main : Option MainSlot},
    all (next + 1) (some ⟨next⟩) (outer ++ [name]) [] decls listed →
    slotTypes (outer ++ [name]) listed.2 [] mapped = .ok slots →
    mainSlotType (outer ++ [name]) decls listed.2 slots mainSlot = .ok main →
    one next parent outer name (.map inParagraph mainProperty decls mapped mainSlot)
      (⟨name, parent, mainProperty, .map ⟨inParagraph, listed.2, slots, main⟩⟩ :: listed.1)
  preExpander : ∀ {next : Nat} {parent : Option TypeId} {outer : List String} {name : String}
    {expander : String} {mainProperty : Option String},
    one next parent outer name (.preExpander expander mainProperty)
      [⟨name, parent, mainProperty, .preExpander expander⟩]
  postExpander : ∀ {next : Nat} {parent : Option TypeId} {outer : List String} {name : String}
    {expander : String} {mainProperty : Option String},
    one next parent outer name (.postExpander expander mainProperty)
      [⟨name, parent, mainProperty, .postExpander expander⟩]

namespace Numbering

variable (numbering : Numbering)

mutual

/-- A numbering holds of the types of a declaration. -/
theorem flatten (outer : List String) (parent : Option TypeId) (next : Nat) (name : String) :
    ∀ decl : TypeDecl, Ends (decl.flatten outer parent next name)
      (numbering.one next parent outer name decl) fun _ => True
  | .list containsParagraphs inParagraph mainProperty decls => by
    unfold TypeDecl.flatten
    refine (flattenChildren _ ⟨next⟩ _ _ decls).bind fun listed known => ?_
    exact numbering.list known
  | .map inParagraph mainProperty decls mapped mainSlot => by
    unfold TypeDecl.flatten
    refine (flattenChildren _ ⟨next⟩ _ _ decls).bind fun listed known => ?_
    refine (Ends.any _).bind fun slots slotted => (Ends.any _).bind fun main placed => ?_
    exact numbering.map known slotted placed
  | .preExpander expander mainProperty => numbering.preExpander
  | .postExpander expander mainProperty => numbering.postExpander

/-- A numbering holds of the types of the children of a declaration. -/
theorem flattenChildren (path : List String) (parent : TypeId) (next : Nat) (seen : Children) :
    ∀ decls : List NamedDecl, Ends (TypedMarkup.flattenChildren path parent next seen decls)
      (numbering.all next (some parent) path seen decls) fun _ => True
  | [] => numbering.nil
  | ⟨name, decl⟩ :: rest => by
    unfold TypedMarkup.flattenChildren
    split
    · trivial
    · next fresh =>
      refine (flatten path _ next name decl).bind fun types head => ?_
      refine (flattenChildren path parent _ _ rest).bind fun listed tail => ?_
      exact numbering.cons (Option.not_isSome_iff_eq_none.1 fresh) head tail

end

/-- A numbering holds of the types of some global declarations. -/
theorem flattenGlobals (next : Nat) (seen : Children) (decls : List NamedDecl) :
    Ends (Registry.flattenGlobals next seen decls) (numbering.all next none [] seen decls)
      fun _ => True := by
  induction decls generalizing next seen with
  | nil => exact numbering.nil
  | cons first rest ih =>
    obtain ⟨name, decl⟩ := first
    unfold Registry.flattenGlobals
    dsimp only
    split
    · trivial
    · split
      · trivial
      · next fresh =>
        refine (numbering.flatten [] none next name decl).bind fun types head => ?_
        refine (ih (next + types.length) _).bind fun listed tail => ?_
        exact numbering.cons (Option.not_isSome_iff_eq_none.1 fresh) head tail

/-- **A numbering holds of every built registry.** -/
theorem ofDeclarations {decls : List NamedDecl} {registry : Registry}
    (built : Registry.ofDeclarations decls = .ok registry) :
    numbering.all 0 none [] [] decls (registry.declared, registry.roots) := by
  have ends : Ends (Registry.ofDeclarations decls) (fun registry =>
      numbering.all 0 none [] [] decls (registry.declared, registry.roots)) fun _ => True :=
    (numbering.flattenGlobals 0 [] decls).bind fun _ known => known
  exact ends.of_eq_ok built

end Numbering

end TypedMarkup
