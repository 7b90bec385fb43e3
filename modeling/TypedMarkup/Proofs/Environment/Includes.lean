/-
**Includes.** When an include goes on, and where it leads.

* `Environment.visited` lists the files on the way to an environment, those without a path left out;
  `isBeingIncluded_iff` says that a file is being included if it is one of them.
* `Environment.enterInclude_eq_ok`: an include goes on if there is room for it and, where cycles are
  watched for, its file has not been visited; `enterInclude_of_visited`: otherwise it is a cycle.
-/

import TypedMarkup.Proofs.Environment.Beside

namespace TypedMarkup.Environment

variable {env included : Environment} {path : String}

/-- What is read comes from the reader, and nothing else fails. -/
theorem readFile_ends_text (env : Environment) (path : String) (position : Position) :
    Ends (env.readFile path position) (fun text => env.reader env.path path = .ok text)
      fun error => ∃ reason, error = .read position reason := by
  unfold readFile
  split
  · next text found => exact found
  · next reason _ => exact ⟨reason, rfl⟩

/-- The files with a path on the way to an environment, its own first. -/
def visited (env : Environment) : List String :=
  (env.path :: env.includes.map IncludeFrame.path).filter fun path => !path.isEmpty

theorem visited_entered (env : Environment) (path : String) :
    (env.entered path).visited = if path.isEmpty then env.visited else path :: env.visited := by
  have step : (env.entered path).visited =
      (path :: env.path :: env.includes.map IncludeFrame.path).filter fun path => !path.isEmpty := rfl
  rw [step, List.filter_cons]
  cases path.isEmpty <;> rfl

/-- A file is being included if it has a path that has been visited. -/
theorem isBeingIncluded_iff : env.isBeingIncluded path = true ↔ path ∈ env.visited := by
  unfold isBeingIncluded visited
  rw [List.mem_filter, List.mem_cons, List.mem_map, Bool.and_eq_true, Bool.or_eq_true,
    List.any_eq_true, And.comm]
  simp only [beq_iff_eq, eq_comm (a := path)]

/-- **An include** goes on if there is room for it and, where cycles are watched for, its file has
not been visited. -/
theorem enterInclude_eq_ok {position : Position} :
    env.enterInclude path position = .ok included ↔
      env.includeDepth < env.limits.maxIncludeDepth ∧
      (env.limits.detectIncludeCycles = true → path ∉ env.visited) ∧
      included = env.entered path := by
  unfold enterInclude
  dsimp only
  by_cases room : env.limits.maxIncludeDepth ≤ env.includeDepth
  · rw [if_pos room]
    exact ⟨fun same => (nomatch same), fun led => absurd led.1 (Nat.not_lt.2 room)⟩
  · rw [if_neg room]
    by_cases cycle : (env.limits.detectIncludeCycles && env.isBeingIncluded path) = true
    · rw [if_pos cycle]
      obtain ⟨watched, found⟩ := Bool.and_eq_true_iff.1 cycle
      exact ⟨fun same => (nomatch same),
        fun led => absurd (isBeingIncluded_iff.1 found) (led.2.1 watched)⟩
    · rw [if_neg cycle]
      have fresh : env.limits.detectIncludeCycles = true → path ∉ env.visited := fun watched found =>
        cycle (Bool.and_eq_true_iff.2 ⟨watched, isBeingIncluded_iff.2 found⟩)
      refine ⟨fun same => ⟨Nat.lt_of_not_le room, fresh, ?_⟩, fun led => ?_⟩
      · cases same
        rfl
      · rw [led.2.2]
        rfl

/-- Where there is room and cycles are watched for, a file that has been visited is a cycle. -/
theorem enterInclude_of_visited (room : env.includeDepth < env.limits.maxIncludeDepth)
    (watched : env.limits.detectIncludeCycles = true) (found : path ∈ env.visited)
    (position : Position) :
    env.enterInclude path position = .error (.of env (.includeCycle path) [position]) := by
  unfold enterInclude
  dsimp only
  rw [if_neg (Nat.not_le.2 room), if_pos]
  exact Bool.and_eq_true_iff.2 ⟨watched, isBeingIncluded_iff.2 found⟩

end TypedMarkup.Environment
