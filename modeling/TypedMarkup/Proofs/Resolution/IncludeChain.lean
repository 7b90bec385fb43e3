/-
**The chain of includes.** Every environment that a run lets out knows how it was reached: one frame
for each include on the way, numbered from the start file on.

* `Environment.LedFrom` is what is known of the chain of an environment: how deep it is, how its
  frames are numbered, where it starts, and that no file comes twice while cycles are watched for.
* `resolveWithin_ledFrom`: this holds of all environments that a run lets out, whatever the reader,
  and a run asks expanders for nothing but what it lists.
-/

import TypedMarkup.Proofs.Environment.Includes
import TypedMarkup.Proofs.Resolution.Calls

namespace TypedMarkup

variable {env included : Environment} {start path : String} {limits : Limits}

namespace Environment

/-! ### Chains -/

/-- What is known of the includes that lead to an environment out of the file `start`, which none
leads to, under some limits. -/
structure LedFrom (start : String) (limits : Limits) (env : Environment) : Prop where
  limited : env.limits = limits
  depth : env.includeDepth = env.includes.length
  bounded : env.includes.length ≤ limits.maxIncludeDepth
  countdown : ∀ index frame, env.includes[index]? = some frame →
    frame.depth = env.includes.length - index
  outermost : env.includes = [] → env.path = start
  oldest : ∀ frame, env.includes.getLast? = some frame → frame.path = start
  distinct : limits.detectIncludeCycles = true → env.visited.Nodup

namespace LedFrom

/-- An environment without includes. -/
theorem of_outermost (none : env.includes = []) : env.LedFrom env.path env.limits where
  limited := rfl
  depth := by unfold includeDepth; rw [none]; rfl
  bounded := by rw [none]; exact Nat.zero_le _
  countdown := by rw [none]; exact fun _ _ found => nomatch found
  outermost _ := rfl
  oldest := by rw [none]; exact fun _ found => nomatch found
  distinct _ := by
    unfold visited
    rw [none, List.map_nil]
    exact (List.pairwise_singleton _ _).sublist List.filter_sublist

theorem beside {other : Environment} (led : env.LedFrom start limits) (near : env.Beside other) :
    other.LedFrom start limits where
  limited := near.limits.trans led.limited
  depth := by
    have depth := led.depth
    unfold includeDepth at *
    rwa [near.includes]
  bounded := near.includes ▸ led.bounded
  countdown := near.includes ▸ led.countdown
  outermost none := near.path.trans (led.outermost (near.includes ▸ none))
  oldest := near.includes ▸ led.oldest
  distinct watched := by
    have distinct := led.distinct watched
    unfold visited at *
    rwa [near.includes, near.path]

theorem within (led : env.LedFrom start limits) {type : TypeId} :
    (env.within type).LedFrom start limits := by
  obtain ⟨limited, depth, bounded, countdown, outermost, oldest, distinct⟩ := led
  exact ⟨limited, depth, bounded, countdown, outermost, oldest, distinct⟩

/-- One include more. -/
theorem enter (led : env.LedFrom start limits) {position : Position}
    (entered : env.enterInclude path position = .ok included) : included.LedFrom start limits := by
  obtain ⟨room, fresh, rfl⟩ := enterInclude_eq_ok.1 entered
  rw [led.limited] at room fresh
  rw [led.depth] at room
  refine ⟨led.limited, congrArg (· + 1) led.depth, room, ?_, fun none => (nomatch none), ?_, ?_⟩
  · intro index frame found
    show frame.depth = env.includes.length + 1 - index
    cases index with
    | zero =>
      cases found
      exact congrArg (· + 1) led.depth
    | succ index =>
      rw [Nat.add_sub_add_right]
      exact led.countdown index frame found
  · intro frame last
    have step : (env.entered path).includes = ⟨env.path, env.includeDepth + 1⟩ :: env.includes := rfl
    rw [step] at last
    cases older : env.includes with
    | nil =>
      rw [older] at last
      cases last
      exact led.outermost older
    | cons next rest =>
      rw [older, List.getLast?_cons_cons, ← older] at last
      exact led.oldest frame last
  · intro watched
    rw [visited_entered]
    split
    · exact led.distinct watched
    · exact List.nodup_cons.2 ⟨fresh watched, led.distinct watched⟩

/-- Resolving keeps what is known of the chain. -/
theorem kept (start : String) (limits : Limits) :
    Kept (LedFrom start limits) (Error.Carries (LedFrom start limits)) where
  beside near led := led.beside near
  within _ led := led.within
  enter _ entered led := led.enter entered
  parse _ _ _ := trivial
  read _ _ := trivial
  semantic _ led _ := led

end LedFrom

end Environment

/-- **Chains of includes are in order.** Started in an environment without includes, a run hands to
expanders and puts into its error only environments that know how they were reached: the depth is
the number of frames, the frames count down to one at the start file, the limit is kept, and no file
with a path comes twice while cycles are watched for. The calls it lists are all it makes: expanders
that answer these in the same way give the same run. -/
theorem resolveWithin_ledFrom {expanders : Expanders} (stay : expanders.Stay)
    (outermost : env.includes = []) (depth : Nat) (content : Content) (implied : Bool) :
    (∀ call ∈ (resolveWithin depth expanders env content implied).calls,
      call.environment.LedFrom env.path env.limits) ∧
    (∀ failure, (resolveWithin depth expanders env content implied).outcome =
        .error (.error (.semantic failure)) →
      failure.environment.LedFrom env.path env.limits) ∧
    ∀ expanders' : Expanders,
      (∀ call ∈ (resolveWithin depth expanders env content implied).calls,
        expanders.AgreeAt expanders' call) →
      resolveWithin depth expanders env content implied =
        resolveWithin depth expanders' env content implied := by
  have started : env.LedFrom env.path env.limits := .of_outermost outermost
  have kept := Environment.LedFrom.kept env.path env.limits
  have shown := resolveWithin_shows kept stay started depth content implied
  refine ⟨shown.calls, fun failure failed => ?_, fun expanders' alike => ?_⟩
  · exact shown.ends.of_error failed
  · exact resolveWithin_eq_of_agreeAt alike

/-- The environment of a file among files with one note, which a post-expander resolves and in which
a value is missing. -/
def amongNotes : Environment :=
  .ofFile (fun _ path => .ok ⟨path, "[note [val y]]"⟩) "a"
    ⟨[⟨"note", none, none, .postExpander "resolve"⟩], [("note", ⟨0⟩)]⟩

/-- A block that includes a file. -/
def noteInclude : Content :=
  let here := Position.start
  ⟨[], [[.node (.inclusion here [] (some ⟨here, some (.literal ⟨"b", here⟩), []⟩) [])]]⟩

/-- The expander of an included note is called, and fails, in an environment with the one include
that leads to it. No other expander has a part in that. -/
theorem resolveWithin_ledFrom_note : ∃ call failure,
    amongNotes.includes = [] ∧
    (resolveWithin 4 Expansion.stock amongNotes noteInclude false).calls = [call] ∧
    call.environment.includes = [⟨"a", 1⟩] ∧
    call.environment.LedFrom "a" Limits.standard ∧
    (resolveWithin 4 Expansion.stock amongNotes noteInclude false).outcome =
      .error (.error (.semantic failure)) ∧
    failure.environment.includes = [⟨"a", 1⟩] ∧
    failure.environment.LedFrom "a" Limits.standard ∧
    ∀ expanders : Expanders, expanders.post "resolve" = Expansion.stock.post "resolve" →
      resolveWithin 4 Expansion.stock amongNotes noteInclude false =
        resolveWithin 4 expanders amongNotes noteInclude false := by
  let use : Content := ⟨[], [[.node (.value ⟨1, 7, 6⟩ ⟨"y", ⟨1, 12, 11⟩⟩)]]⟩
  let call : Call := ⟨amongNotes.entered "b", ⟨⟨0⟩, Table.empty, use, Position.start⟩⟩
  let failure : SemanticError := ⟨.unboundValue "y", [⟨1, 12, 11⟩], amongNotes.entered "b"⟩
  have ran : resolveWithin 4 Expansion.stock amongNotes noteInclude false =
      ⟨[call], .error (.error (.semantic failure))⟩ := by
    with_unfolding_all rfl
  have outermost : amongNotes.includes = [] := rfl
  have made : (resolveWithin 4 Expansion.stock amongNotes noteInclude false).calls = [call] := by
    rw [ran]
  have failed : (resolveWithin 4 Expansion.stock amongNotes noteInclude false).outcome =
      .error (.error (.semantic failure)) := by
    rw [ran]
  obtain ⟨handed, blamed, others⟩ :=
    resolveWithin_ledFrom Expansion.stock_stay outermost 4 noteInclude false
  have recorded := handed call (by rw [made]; exact List.mem_singleton_self call)
  refine ⟨call, failure, outermost, made, rfl, recorded, failed, rfl, blamed failure failed, ?_⟩
  intro expanders same
  refine others expanders fun asked known => ?_
  rw [made, List.mem_singleton] at known
  subst known
  refine ⟨fun name kind => ?_, fun name kind => ?_⟩
  · cases kind
  · cases kind
    exact congrFun (congrFun same.symm call.environment) call.invocation

end TypedMarkup
