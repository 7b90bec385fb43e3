/-
**Bindings are finite maps.** What is bound to a name is what was bound to it last, by hand or by a
preamble, and the text of an environment lists just that.

* `Bindings.IsNewest` is said of the newest binding of a name; `Bindings.get?_eq_some_iff`: it is the
  one that is found.
* `Made` holds the bindings that have been made, and `Made.after` those behind a `Change`;
  `changeAll_ends_made` says that environments carry the bindings that were made on the way to them.
* `Environment.Lists` is said of a text with an entry for each name that is bound, in the order of the
  names; `Environment.debugText_lists`: the text of an environment is such a text.
* `Environment.Alike.debugText`: environments in which names stand for the same have the same text.
-/

import TypedMarkup.Proofs.Environment.Alike
import TypedMarkup.Proofs.Environment.Bindings

namespace TypedMarkup

/-! ### Newest bindings -/

namespace Bindings

variable {α : Type} {bindings other : Bindings α} {name : String} {value : α}

/-- The newest binding of a name. -/
def IsNewest (bindings : Bindings α) (name : String) (value : α) : Prop :=
  ∃ newer older, bindings = newer ++ (name, value) :: older ∧
    ∀ binding ∈ newer, binding.1 ≠ name

theorem get?_eq_some_iff : bindings.get? name = some value ↔ bindings.IsNewest name value := by
  unfold get? IsNewest
  simp only [List.lookup_eq_some_iff, bne_iff_ne, ne_comm]

/-- Bindings in which names stand for the same show the same. -/
theorem visible_eq (same : ∀ name, other.get? name = bindings.get? name) :
    other.visible = bindings.visible := by
  refine Table.ext_get? fun name => ?_
  rw [get?_visible, get?_visible, same]

end Bindings

/-! ### Changes -/

/-- What is done to an environment: a name is bound by hand, or a preamble is gone through. -/
inductive Change where
  | value (name text : String)
  | content (name : String) (body : Content)
  | preamble (elements : List PreambleElement)

/-- The bindings that have been made, the newest first. -/
structure Made where
  values : Bindings String
  contents : Bindings Content

namespace Made

/-- The bindings behind a preamble element. -/
def behind (made : Made) (element : PreambleElement) : Made :=
  ⟨valuesBehind made.values element, contentsBehind made.contents element⟩

/-- The bindings after a change. -/
def after (made : Made) : Change → Made
  | .value name text => { made with values := (name, text) :: made.values }
  | .content name body => { made with contents := (name, body) :: made.contents }
  | .preamble elements => elements.foldl behind made

end Made

namespace Environment

/-- The bindings of an environment. -/
def made (env : Environment) : Made :=
  ⟨env.values, env.contents⟩

/-- Makes a change. -/
def change (env : Environment) : Change → Except Error Environment
  | .value name text => .ok (env.withValue name text)
  | .content name body => .ok (env.withContent name body)
  | .preamble elements => env.applyPreamble elements

/-- Makes changes one after the other. -/
def changeAll (env : Environment) (changes : List Change) : Except Error Environment :=
  changes.foldlM change env

variable (env : Environment)

theorem applyElement_ends_made (element : PreambleElement) :
    Ends (env.applyElement element) (fun next => next.made = env.made.behind element)
      fun _ => True := by
  refine (env.applyElement_ends_bindings element).mono (fun next same => ?_) fun _ _ => trivial
  unfold made Made.behind
  rw [same.1, same.2]

theorem change_ends_made (change : Change) :
    Ends (env.change change) (fun next => next.made = env.made.after change) fun _ => True := by
  cases change with
  | value name text => exact rfl
  | content name body => exact rfl
  | preamble elements =>
    exact Ends.foldlM_view (fun next element => next.applyElement_ends_made element) elements env

/-- **Environments carry the bindings that were made** on the way to them. -/
theorem changeAll_ends_made (changes : List Change) :
    Ends (env.changeAll changes) (fun last => last.made = changes.foldl Made.after env.made)
      fun _ => True :=
  Ends.foldlM_view (fun next change => next.change_ends_made change) changes env

/-! ### Texts of environments -/

/-- The text of an environment with values and names of contents. -/
def textWith (values : List (String × String)) (contents : List String) : String :=
  let entry (binding : String × String) :=
    Text.quoted binding.1 ++ ": " ++ Text.quoted binding.2
  let current := match env.current with
    | none => "None"
    | some type => "Some(" ++ Text.quoted (env.typeName type) ++ ")"
  "Environment \x7b current_file_path: " ++ Text.quoted env.path ++
    ", values: \x7b" ++ String.intercalate ", " (values.map entry) ++ "\x7d, contents: [" ++
    String.intercalate ", " (contents.map Text.quoted) ++ "], current_node_type: " ++ current ++
    ", include_depth: " ++ toString env.includeDepth ++ ", .. \x7d"

/-- A text that lists what is bound in an environment: each name that is bound once, the values with
what they stand for, in increasing order. -/
structure Lists (text : String) (values : List (String × String)) (contents : List String) :
    Prop where
  value : ∀ name found, (name, found) ∈ values ↔ env.value? name = some found
  content : ∀ name, name ∈ contents ↔ (env.content? name).isSome = true
  valuesIncrease : values.Pairwise fun a b => a.1 < b.1
  contentsIncrease : contents.Pairwise (· < ·)
  text_eq : text = env.textWith values contents

/-- **The text of an environment** lists what is bound. -/
theorem debugText_lists :
    env.Lists env.debugText env.values.visible.entries env.contents.visible.keys where
  value name found := by
    rw [Table.mem_entries_iff, Bindings.get?_visible]
    rfl
  content name := by
    rw [Table.mem_keys_iff, Bindings.get?_visible]
    rfl
  valuesIncrease := env.values.visible.increasing
  contentsIncrease := env.contents.visible.keys_increasing
  text_eq := rfl

/-- Environments that agree in all that names stand for have the same text. -/
theorem Alike.debugText {env other : Environment} (near : env.Alike True other) :
    other.debugText = env.debugText := by
  obtain ⟨_, path, _, _, includes, _⟩ := near.place trivial
  have depth : other.includeDepth = env.includeDepth := by
    unfold includeDepth
    rw [includes]
  have type : other.typeName = env.typeName := funext near.typeName
  unfold Environment.debugText
  rw [Bindings.visible_eq near.value, Bindings.visible_eq near.content, near.current, type, path,
    depth]

end Environment

end TypedMarkup
