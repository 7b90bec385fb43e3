/-
**How deep includes go.** Where cycles are watched for, no file is opened twice on the way to an
environment. So among some files in memory there are never more includes in each other than files,
and a limit above their number is for nothing: what would run into it is a cycle, and told so.

* `Environment.LeadsTo`: the environments that resolving may come to from another one.
* `Environment.opened` lists the files that the includes on the way have opened, and
  `Environment.InTable` says that all of them are files of a table.
* `Environment.InTable.length_le`: there are no more includes than files.
* `resolveWithin_finds_cycles`: the limit is never met, and every cycle is found.
-/

import Mathlib.Data.List.Perm.Subperm
import TypedMarkup.Proofs.Reader.FileTable
import TypedMarkup.Proofs.Resolution.IncludeChain

namespace TypedMarkup

/-! ### Files -/

namespace FileTable

/-- A file that is read is one of the table, at a path. -/
theorem read_ends (table : FileTable) (current asked : String) :
    Ends (table.read current asked)
      (fun text => text.path ∈ table.files.keys ∧ text.path.isEmpty = false) fun _ => True := by
  refine (Ends.any _).mono (fun text found => ?_) fun _ _ => trivial
  obtain ⟨carried, held⟩ := read_eq_ok_iff.1 found
  obtain ⟨segments, form, _⟩ := resolve_isAbsolute current asked
  rw [carried]
  refine ⟨Table.mem_keys_iff.2 (Option.isSome_of_eq_some held), ?_⟩
  rw [form]
  unfold pathOf
  simp

end FileTable

namespace Environment

variable {env inner : Environment} {table : FileTable}

/-! ### Where resolving leads -/

/-- The environments that resolving may come to, whatever is bound and declared on the way. -/
inductive LeadsTo (env : Environment) : Environment → Prop where
  | refl : env.LeadsTo env
  | beside {inner other : Environment} (led : env.LeadsTo inner) (near : inner.Beside other) :
    env.LeadsTo other
  | within {inner : Environment} (led : env.LeadsTo inner) (type : TypeId) :
    env.LeadsTo (inner.within type)
  | enter {inner included : Environment} {asked : String} {text : FileText} {position : Position}
    (led : env.LeadsTo inner) (read : inner.reader inner.path asked = .ok text)
    (entered : inner.enterInclude text.path position = .ok included) : env.LeadsTo included

namespace LeadsTo

/-- What resolving keeps holds wherever it leads. -/
theorem keeps {seen : Environment → Prop} {fails : Error → Prop} (led : env.LeadsTo inner)
    (kept : Kept seen fails) (here : seen env) : seen inner := by
  induction led with
  | refl => exact here
  | beside _ near ih => exact kept.beside near ih
  | within _ type ih => exact kept.within type ih
  | enter _ read entered ih => exact kept.enter read entered ih

theorem registry (led : env.LeadsTo inner) : inner.registry = env.registry := by
  induction led with
  | refl => rfl
  | beside _ near ih => exact near.registry.trans ih
  | within _ _ ih => exact ih
  | enter _ _ entered ih =>
    obtain ⟨-, -, rfl⟩ := enterInclude_eq_ok.1 entered
    exact ih

/-- Errors that come from where resolving leads. -/
def Fails (env : Environment) : Error → Prop
  | .semantic failure =>
    env.LeadsTo failure.environment ∧ failure.cause.Grounded failure.environment
  | .parse _ _ _ | .read _ _ => True

/-- Resolving goes where it leads. -/
theorem kept (env : Environment) : Kept env.LeadsTo (Fails env) where
  beside near led := led.beside near
  within type led := led.within type
  enter read entered led := led.enter read entered
  parse _ _ _ := trivial
  read _ _ := trivial
  semantic _ led grounded := ⟨led, grounded⟩

end LeadsTo

/-! ### Opened files -/

/-- The files that the includes on the way to an environment have opened, the last one first. -/
def opened (env : Environment) : List String :=
  (env.path :: env.includes.map IncludeFrame.path).dropLast

theorem opened_entered (env : Environment) (path : String) :
    (env.entered path).opened = path :: env.opened :=
  rfl

theorem opened_length (env : Environment) : env.opened.length = env.includes.length := by
  simp [opened]

/-- Files are read from a table, and all that have been opened are some of it. -/
structure InTable (table : FileTable) (env : Environment) : Prop where
  reads : env.reader = table.read
  opened : ∀ path ∈ env.opened, path ∈ table.files.keys ∧ path.isEmpty = false

namespace InTable

/-- Whatever is opened is one of the table. -/
theorem kept (table : FileTable) : Kept (InTable table) fun _ => True where
  beside near here := by
    refine ⟨near.reader.trans here.reads, ?_⟩
    unfold Environment.opened
    rw [near.path, near.includes]
    exact here.opened
  within _ here := ⟨here.reads, here.opened⟩
  enter {env included asked text position} read entered here := by
    obtain ⟨-, -, rfl⟩ := enterInclude_eq_ok.1 entered
    rw [here.reads] at read
    refine ⟨here.reads, ?_⟩
    rw [opened_entered]
    exact List.forall_mem_cons.2 ⟨(table.read_ends env.path asked).of_eq_ok read, here.opened⟩
  parse _ _ _ := trivial
  read _ _ := trivial
  semantic _ _ _ := trivial

/-- **There are no more includes than files**, as none of the files has been opened twice. -/
theorem length_le (here : env.InTable table) {start : String} {limits : Limits}
    (led : env.LedFrom start limits) (watched : limits.detectIncludeCycles = true) :
    env.includes.length ≤ table.files.keys.length := by
  have named : env.opened.filter (fun path => !path.isEmpty) = env.opened := by
    refine List.filter_eq_self.2 fun path member => ?_
    rw [(here.opened path member).2]
    rfl
  have among : env.opened.Sublist env.visited := by
    rw [← named]
    exact (List.dropLast_sublist _).filter _
  have distinct : env.opened.Nodup := (led.distinct watched).sublist among
  calc env.includes.length = env.opened.length := env.opened_length.symm
    _ ≤ table.files.keys.length :=
      (List.subperm_of_subset distinct fun path member => (here.opened path member).1).length_le

end InTable

end Environment

/-! ### Documents -/

section Documents

variable {env inner : Environment} {table : FileTable}

/-- Where resolving leads from a file outside of all includes, there is room for another one. -/
theorem Environment.LeadsTo.room (led : env.LeadsTo inner) (reads : env.reader = table.read)
    (watched : env.limits.detectIncludeCycles = true)
    (enough : table.files.keys.length < env.limits.maxIncludeDepth) (outermost : env.includes = []) :
    inner.limits = env.limits ∧ inner.includeDepth < inner.limits.maxIncludeDepth := by
  have chain : inner.LedFrom env.path env.limits :=
    led.keeps (LedFrom.kept env.path env.limits) (.of_outermost outermost)
  have started : env.InTable table := by
    refine ⟨reads, ?_⟩
    unfold Environment.opened
    rw [outermost]
    exact List.forall_mem_nil _
  have few := (led.keeps (InTable.kept table) started).length_le chain watched
  refine ⟨chain.limited, ?_⟩
  rw [chain.depth, chain.limited]
  exact Nat.lt_of_le_of_lt few enough

/-- An include of a file that can be read and parsed. -/
theorem Resolver.inclusion_eq {classes : List ClassRef} {block : Option PropertyBlock}
    {properties : Properties} {asked : String} {text : FileText} {content : Content}
    {start : Position} (named : env.nodeProperties env.registry.inclusion classes block = .ok properties)
    (path : properties.get? "path" = some asked) (given : asked.isEmpty = false)
    (read : env.reader env.path asked = .ok text) (parsed : Content.parse text.content = .ok content)
    (resolver : Resolver) (preamble : List PreambleElement) :
    resolver.inclusion env start classes block preamble = (do
      let entered ← Run.ofExcept (env.enterInclude text.path start)
      let included ← Run.ofExcept (entered.applyPreamble preamble)
      resolver.block included content false) := by
  have opened : env.readFile asked start = .ok text := by
    unfold Environment.readFile
    rw [read]
  unfold inclusion
  simp only [named, Run.ofExcept_ok, pure_bind, path, Option.getD_some, given, Bool.false_eq_true,
    if_false, opened, parsed]

/-- **Cycles are found before the limit.** Among fewer files than includes may be nested, no run
fails because they are nested too deep; wherever resolving leads, an include of a file that is being
included is a cycle. -/
theorem resolveWithin_finds_cycles (expanders : Expanders) (table : FileTable) (env : Environment)
    (reads : env.reader = table.read)
    (watched : env.limits.detectIncludeCycles = true)
    (enough : table.files.keys.length < env.limits.maxIncludeDepth)
    (plain : env.registry.withoutExpanders = true) (outermost : env.includes = []) :
    (∀ depth content implied failure,
      (resolveWithin depth expanders env content implied).outcome =
        .error (.error (.semantic failure)) →
      env.LeadsTo failure.environment ∧
        ∀ limit, failure.cause ≠ .includeDepthExceeded limit) ∧
    (∀ inner, env.LeadsTo inner → ∀ depth start classes block preamble properties asked text content,
      inner.nodeProperties inner.registry.inclusion classes block = .ok properties →
      properties.get? "path" = some asked → asked.isEmpty = false →
      inner.reader inner.path asked = .ok text → Content.parse text.content = .ok content →
      text.path ∈ inner.visited →
      (Resolver.ofDepth expanders (depth + 1) inner
        (.node (.inclusion start classes block preamble))).outcome =
          .error (.error (.of inner (.includeCycle text.path) [start]))) := by
  refine ⟨fun depth content implied failure failed => ?_, ?_⟩
  · have without : ∀ inner, env.LeadsTo inner → inner.registry.withoutExpanders = true :=
      fun inner led => led.registry ▸ plain
    have shown := resolveWithin_lets_out (Environment.LeadsTo.kept env)
      (.of_without without : expanders.StayAmong env.LeadsTo) .refl depth content implied
    obtain ⟨led, grounded⟩ := shown.ends.of_error failed
    refine ⟨led, fun limit same => ?_⟩
    rw [same] at grounded
    obtain ⟨rfl, reached⟩ := grounded
    exact absurd (led.room reads watched enough outermost).2 (Nat.not_lt.2 reached)
  · intro inner led depth start classes block preamble properties asked text content named path given
      read parsed found
    obtain ⟨limits, room⟩ := led.room reads watched enough outermost
    have cycle := inner.enterInclude_of_visited room (limits ▸ watched) found start
    show (Resolver.inclusion _ inner start classes block preamble).outcome = _
    rw [Resolver.inclusion_eq named path given read parsed, cycle]
    rfl

end Documents

/-! ### Two files -/

/-- The cause of the error that a run ends with, if it is a semantic one. -/
def Run.cause? {α : Type} (run : Run α) : Option Cause :=
  match run.outcome with
  | .error (.error (.semantic failure)) => some failure.cause
  | _ => none

theorem Run.of_cause {α : Type} {run : Run α} {cause : Cause} (told : run.cause? = some cause) :
    ∃ failure, run.outcome = .error (.error (.semantic failure)) ∧ failure.cause = cause := by
  unfold Run.cause? at told
  split at told
  · next failure same => exact ⟨failure, same, Option.some.inj told⟩
  · cases told

/-- Two files that include each other. -/
def mutualIncludes : FileTable :=
  FileTable.ofList [("a", "[include {=b}]"), ("b", "[include {=a}]")]

/-- From the first file through the second one, the first one is a cycle. -/
theorem resolveWithin_finds_cycles_mutual :
    let here := Position.start
    let env := (Environment.ofFile mutualIncludes.read "/a" Registry.empty).withLimits ⟨3, true⟩
    let inclusion (path : String) : Node :=
      .inclusion here [] (some ⟨here, some (.literal ⟨path, here⟩), []⟩) []
    mutualIncludes.files.keys.length < env.limits.maxIncludeDepth ∧
    (Resolver.ofDepth Expansion.stock 1 (env.entered "/b") (.node (inclusion "a"))).outcome =
      .error (.error (.of (env.entered "/b") (.includeCycle "/a") [here])) ∧
    ∃ failure, (resolveWithin 2 Expansion.stock env ⟨[], [[.node (inclusion "b")]]⟩ false).outcome =
        .error (.error (.semantic failure)) ∧
      failure.cause = .includeCycle "/a" ∧ env.LeadsTo failure.environment := by
  intro here env inclusion
  have enough : mutualIncludes.files.keys.length < env.limits.maxIncludeDepth := by decide +kernel
  obtain ⟨never, found⟩ :=
    resolveWithin_finds_cycles Expansion.stock mutualIncludes env rfl rfl enough rfl rfl
  refine ⟨enough, ?_, ?_⟩
  · have read : env.reader env.path "b" = .ok ⟨"/b", "[include {=a}]"⟩ := by decide +kernel
    have led : env.LeadsTo (env.entered "/b") :=
      .enter .refl read (rfl : env.enterInclude "/b" here = .ok _)
    have back : (env.entered "/b").reader "/b" "a" = .ok ⟨"/a", "[include {=b}]"⟩ := by decide +kernel
    have fits : (Content.parse "[include {=b}]").isOk = true := by decide +kernel
    cases parsed : Content.parse "[include {=b}]" with
    | ok content =>
      exact found _ led 0 here [] _ [] _ "a" ⟨"/a", _⟩ content rfl rfl rfl back parsed (by decide +kernel)
    | error error =>
      rw [parsed] at fits
      cases fits
  · have told : (resolveWithin 2 Expansion.stock env ⟨[], [[.node (inclusion "b")]]⟩ false).cause? =
        some (.includeCycle "/a") := by decide +kernel
    obtain ⟨failure, failed, cause⟩ := Run.of_cause told
    exact ⟨failure, failed, cause, (never 2 _ false failure failed).1⟩

end TypedMarkup
