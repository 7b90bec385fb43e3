/-
**The nearest settings file.** Which settings file counts for a document.

* `FolderTree.upwards_split`: going upwards from a folder, the ones further down come first.
* `FolderTree.load_of_nearest`: of the settings files in the folders above a document the nearest
  one counts; `FolderTree.load_of_none`: without one the limits are the standard ones.
* `FolderTree.find?_write`: a file that is written is found at its path, and so
  `FolderTree.load_write`: limits that are written to the nearest settings file count.
-/

import Mathlib.Data.List.Induction
import TypedMarkup.Limits.Search
import TypedMarkup.Proofs.Limits.Settings

namespace TypedMarkup

namespace FolderTree

variable {tree : FolderTree} {folder near : List String} {before after : List (List String)}
  {path : String}

/-! ### The nearest settings file -/

/-- Whether there is a settings file in a folder. -/
def HasSettings (tree : FolderTree) (folder : List String) : Prop :=
  tree.isFile (folder ++ [settingsName]) = true

/-- Folders without a settings file are passed over. -/
theorem nearest_append (without : ∀ folder ∈ before, ¬ tree.HasSettings folder) :
    tree.nearest (before ++ after) = tree.nearest after := by
  induction before with
  | nil => rfl
  | cons first rest ih =>
    obtain ⟨here, later⟩ := List.forall_mem_cons.1 without
    rw [List.cons_append, nearest]
    exact (if_neg here).trans (ih later)

theorem nearest_of_hasSettings (there : tree.HasSettings near) :
    tree.nearest (near :: after) = tree.limitsAt (near ++ [settingsName]) :=
  if_pos there

/-- Upwards from a folder lies what lies upwards from the one above it. -/
theorem upwards_concat (folder : List String) (name : String) :
    upwards (folder ++ [name]) = (folder ++ [name]) :: upwards folder := by
  unfold upwards
  rw [List.length_append, List.length_singleton, List.range_succ, List.reverse_append,
    List.reverse_singleton, List.singleton_append, List.map_cons]
  have all : (folder ++ [name]).take (folder.length + 1) = folder ++ [name] :=
    List.take_of_length_le (Nat.le_of_eq (by rw [List.length_append, List.length_singleton]))
  rw [all]
  congr 1
  refine List.map_congr_left fun count member => ?_
  have inside := List.mem_range.1 (List.mem_reverse.1 member)
  exact List.take_append_of_le_length (Nat.le_of_lt_succ inside)

theorem exists_upwards_eq (folder : List String) : ∃ after, upwards folder = folder :: after := by
  rcases List.eq_nil_or_concat folder with rfl | ⟨init, name, rfl⟩
  · exact ⟨[], rfl⟩
  · rw [List.concat_eq_append]
    exact ⟨upwards init, upwards_concat init name⟩

/-- Going upwards a folder is met behind those that are further down. -/
theorem upwards_split (above : near <+: folder) : ∃ before after,
    upwards folder = before ++ near :: after ∧
      ∀ other ∈ before, other <+: folder ∧ near.length < other.length := by
  obtain ⟨more, rfl⟩ := above
  induction more using List.reverseRecOn with
  | nil =>
    obtain ⟨after, same⟩ := exists_upwards_eq near
    exact ⟨[], after, by rw [List.append_nil, same]; rfl, List.forall_mem_nil _⟩
  | append_singleton more name ih =>
    obtain ⟨before, after, split, further⟩ := ih
    refine ⟨(near ++ more ++ [name]) :: before, after, ?_, List.forall_mem_cons.2 ⟨?_, ?_⟩⟩
    · rw [← List.append_assoc, upwards_concat, split]
      rfl
    · rw [← List.append_assoc]
      refine ⟨List.prefix_rfl, ?_⟩
      simp only [List.length_append, List.length_singleton]
      omega
    · intro other member
      obtain ⟨inside, longer⟩ := further other member
      refine ⟨?_, longer⟩
      rw [← List.append_assoc]
      exact inside.trans (List.prefix_append _ _)

/-- **The nearest settings file** counts: that of the longest path upwards from the folder of a
document. -/
theorem load_of_nearest (found : tree.find? (segments path) = some (.folder folder))
    (above : near <+: folder) (there : tree.HasSettings near)
    (nearest : ∀ other, other <+: folder → near.length < other.length → ¬ tree.HasSettings other) :
    tree.load path = tree.limitsAt (near ++ [settingsName]) := by
  obtain ⟨before, after, split, further⟩ := upwards_split above
  unfold load
  dsimp only
  rw [found]
  dsimp only
  rw [split, nearest_append fun other member => nearest other (further other member).1
    (further other member).2, nearest_of_hasSettings there]

/-- Without a settings file upwards the limits are the standard ones. -/
theorem load_of_none (found : tree.find? (segments path) = some (.folder folder))
    (without : ∀ other, other <+: folder → ¬ tree.HasSettings other) :
    tree.load path = .ok Limits.standard := by
  have none : ∀ other ∈ upwards folder, ¬ tree.HasSettings other := by
    intro other member
    obtain ⟨count, _, rfl⟩ := List.mem_map.1 member
    exact without _ (List.take_prefix count folder)
  have passed : tree.nearest (upwards folder ++ []) = tree.nearest [] := nearest_append none
  rw [List.append_nil] at passed
  unfold load
  dsimp only
  rw [found]
  exact passed

/-! ### Writing a settings file -/

/-- A segment is the name of a folder or file. -/
def IsName (segment : String) : Prop :=
  staysPut segment = false ∧ (segment == "..") = false

theorem step_of_isName {segment : String} (name : IsName segment) (way : List String) :
    step way segment = way ++ [segment] := by
  unfold step
  rw [name.1, name.2]
  rfl

theorem foldl_step {names : List String} (named : ∀ segment ∈ names, IsName segment)
    (way : List String) : names.foldl step way = way ++ names := by
  induction names generalizing way with
  | nil => exact (List.append_nil way).symm
  | cons first rest ih =>
    obtain ⟨here, later⟩ := List.forall_mem_cons.1 named
    rw [List.foldl_cons, step_of_isName here, ih later, List.append_assoc]
    rfl

/-- Names lead through all folders on their way. -/
theorem mem_trail {names front : List String} (named : ∀ segment ∈ names, IsName segment)
    (inside : front <+: names) (way : List String) : way ++ front ∈ trail way names := by
  induction names generalizing way front with
  | nil =>
    rw [List.prefix_nil.1 inside, List.append_nil]
    exact List.mem_singleton_self way
  | cons first rest ih =>
    obtain ⟨here, later⟩ := List.forall_mem_cons.1 named
    unfold trail
    rw [step_of_isName here]
    cases front with
    | nil =>
      rw [List.append_nil]
      exact List.mem_cons_self
    | cons segment front =>
      obtain ⟨rfl, further⟩ := List.cons_prefix_cons.1 inside
      have behind := ih later further (way ++ [segment])
      rw [List.append_assoc, List.singleton_append] at behind
      exact List.mem_cons_of_mem _ behind

/-- A folder on the way to a file that is written is a folder of the tree, unless there is a file at
its place. -/
theorem at?_write {name text : String} {front : List String}
    (named : ∀ segment ∈ folder ++ [name], IsName segment) (inside : front <+: folder)
    (free : tree.files.lookup front = none) :
    (tree.write (folder ++ [name]) text).at? front = some (.folder front) := by
  have differs : front ≠ folder ++ [name] := by
    rintro rfl
    have short := inside.length_le
    rw [List.length_append, List.length_singleton] at short
    omega
  have made : front ∈ trail [] folder := by
    have through := mem_trail (fun segment member => named segment (List.mem_append_left _ member))
      inside []
    rwa [List.nil_append] at through
  unfold write makeFolders at?
  dsimp only
  rw [foldl_step named, List.nil_append, List.dropLast_concat, List.lookup_cons,
    beq_false_of_ne differs]
  dsimp only
  rw [free]
  exact if_pos (List.contains_iff_mem.2 (List.mem_append_left _ made))

theorem follow?_folder {segment : String} (name : IsName segment) (way : List String) :
    tree.follow? (.folder way) segment = tree.at? (way ++ [segment]) := by
  unfold follow?
  dsimp only
  rw [name.1, name.2]
  rfl

/-- Names lead from folder to folder, as long as there are folders on the way. -/
theorem foldlM_follow? {names : List String} (named : ∀ segment ∈ names, IsName segment)
    (way : List String) (folders : ∀ front, front <+: names →
      tree.at? (way ++ front) = some (.folder (way ++ front))) :
    names.foldlM tree.follow? (.folder way) = some (.folder (way ++ names)) := by
  induction names generalizing way with
  | nil =>
    rw [List.append_nil]
    rfl
  | cons first rest ih =>
    obtain ⟨here, later⟩ := List.forall_mem_cons.1 named
    rw [List.foldlM_cons, follow?_folder here, folders [first] (List.prefix_append [first] rest)]
    have behind := ih later (way ++ [first]) fun front inside => by
      have through := folders (first :: front) (List.cons_prefix_cons.2 ⟨rfl, inside⟩)
      rwa [← List.append_cons]
    rwa [List.append_assoc] at behind

/-- **A file that is written** is found at its path, if there is no file in place of one of the
folders on the way. -/
theorem find?_write {name : String} (named : ∀ segment ∈ folder ++ [name], IsName segment)
    (free : ∀ front, front <+: folder → tree.files.lookup front = none) (text : String) :
    (tree.write (folder ++ [name]) text).find? (folder ++ [name]) =
      some (.file (folder ++ [name]) text) := by
  have way : folder.foldlM (tree.write (folder ++ [name]) text).follow? (.folder []) =
      some (.folder folder) := by
    have names : ∀ segment ∈ folder, IsName segment := fun segment member =>
      named segment (List.mem_append_left _ member)
    exact foldlM_follow? names [] fun front inside => at?_write named inside (free front inside)
  have own := named name (List.mem_append_right _ (List.mem_singleton_self name))
  unfold find?
  rw [List.foldlM_append, way]
  show [name].foldlM (tree.write (folder ++ [name]) text).follow? (.folder folder) = _
  rw [List.foldlM_cons, follow?_folder own]
  unfold write at?
  dsimp only
  rw [foldl_step named, List.nil_append, List.lookup_cons, beq_self_eq_true]
  rfl

/-- **Limits that are written to the nearest settings file** are those of a document. -/
theorem load_write {limits : Limits} (bounded : limits.maxIncludeDepth ≤ Settings.largest)
    (named : ∀ segment ∈ near ++ [settingsName], IsName segment)
    (free : ∀ front, front <+: near → tree.files.lookup front = none)
    (found : (tree.write (near ++ [settingsName]) limits.written).find? (segments path) =
      some (.folder folder)) (above : near <+: folder)
    (nearest : ∀ other, other <+: folder → near.length < other.length →
      ¬ (tree.write (near ++ [settingsName]) limits.written).HasSettings other) :
    (tree.write (near ++ [settingsName]) limits.written).load path = .ok limits := by
  have file := find?_write named free limits.written
  have there : (tree.write (near ++ [settingsName]) limits.written).HasSettings near := by
    unfold HasSettings isFile
    rw [file]
  rw [load_of_nearest found above there nearest]
  unfold limitsAt
  rw [file]
  dsimp only
  rw [Limits.ofSettings?_written bounded]

end FolderTree

end TypedMarkup
