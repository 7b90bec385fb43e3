/-
**The recursion of lexers.** Lexers of nested constructs that simply call themselves, without levels
of nesting, come to an end, and levels of nesting only ever get in their way.

* `Nested.Unbounded`: a node and a block are each read by what reads one in terms of the two.
* `Nested.restrict` gives up at some calls. From that it shows which calls a lexer makes
  (`Nested.Makes`): it cannot do without them.
* `Nested.Unbounded.calls_lower`, `Nested.Unbounded.makes_lower`: all calls are for constructs
  inside of which fewer characters are left. The logic of `Lexer.Cuts` says where lexers give up that
  call some which give up with so many characters left, and so it says which calls are missed.
* `answer_ofDepth`: more levels of nesting than characters inside give the answers of unbounded
  lexers, of which there are some (`exists_unbounded`).
* `Nested.Unbounded.terminates` collects it all.
-/

import TypedMarkup.Proofs.Source.Calls
import TypedMarkup.Proofs.Token.Deeper

namespace TypedMarkup.Lexer

variable {bound depth : Nat} {state : State} {nested nested' : Nested} {call : NestedCall State}

/-! ### Answers -/

/-- Whether a construct can stand where a call for it is made. -/
abbrev Fits (call : NestedCall State) : Prop :=
  (call.map State.cursor).Fits

/-- The number of characters left where the inside of the construct starts. -/
abbrev inside (call : NestedCall State) : Nat :=
  (call.map State.cursor).inside

/-- What a call comes to. -/
def Nested.answer (nested : Nested) : NestedCall State → Except Refusal Unit × State
  | .node here => nested.node.run.run here
  | .content here => nested.content.run.run here

/-- Lexers that answer all calls alike are the same. -/
theorem Nested.ext_answer (alike : ∀ call, nested.answer call = nested'.answer call) :
    nested = nested' := by
  have node : nested.node = nested'.node := funext fun here => alike (.node here)
  have content : nested.content = nested'.content := funext fun here => alike (.content here)
  exact congrArg₂ Nested.mk node content

/-- The lexers that answer like this. -/
def Nested.ofAnswers (answers : NestedCall State → Except Refusal Unit × State) : Nested where
  node := ExceptT.mk fun here => answers (.node here)
  content := ExceptT.mk fun here => answers (.content here)

theorem Nested.answer_ofAnswers (answers : NestedCall State → Except Refusal Unit × State)
    (call : NestedCall State) : (ofAnswers answers).answer call = answers call := by
  cases call <;> rfl

/-- Lexers of nested constructs that call the given ones. -/
def Nested.deeper (nested : Nested) : Nested :=
  ⟨Lexer.node nested, Lexer.content nested⟩

/-- Lexers of nested constructs that call themselves. -/
def Nested.Unbounded (nested : Nested) : Prop :=
  ∀ {call : NestedCall State}, Fits call → nested.answer call = nested.deeper.answer call

namespace Cuts

variable {α : Type} {lexer : Lexer α} {holds : α → State → Prop}

/-- A lexer that is exhausted at once. -/
theorem exhausted (ran : lexer.run.run state = (.error .exhausted, state))
    (many : bound ≤ state.cursor.rest.length) : Cuts bound lexer state holds :=
  of_refusal ran ⟨state, .refl, rfl⟩ fun _ => many

/-- Where too few characters are left, the bound does not matter. -/
theorem of_few {more : Nat} (cuts : Cuts bound lexer state holds)
    (few : state.cursor.rest.length < bound) : Cuts more lexer state holds := by
  have ends := cuts.not_exhausted few
  rcases ran : lexer.run.run state with ⟨refusal | a, after⟩
  · rw [ran] at ends
    refine of_refusal ran (cuts.of_error ran).1 fun stop => ?_
    exact absurd (congrArg Except.error stop) ends
  · obtain ⟨steps, depth, result⟩ := cuts.of_ok ran
    exact of_run ran steps depth result

end Cuts

/-- Calls with too few characters left inside are answered. -/
theorem Nested.Cut.answers (cut : nested.Cut bound) (fits : Fits call) (few : inside call < bound) :
    (nested.answer call).1 ≠ .error .exhausted := by
  cases call with
  | node here =>
    refine (cut.node fits).not_exhausted ?_
    rw [← NestedCall.inside_node fits]
    exact Nat.succ_lt_succ few
  | content here => exact cut.content.not_exhausted few

theorem Nested.Cut.deeper (cut : nested.Cut bound) : nested.deeper.Cut (bound + 1) :=
  ⟨Cuts.node cut, Cuts.content cut⟩

namespace Nested.Approximates

/-- Answers that are given stay. -/
theorem answer (approximates : nested.Approximates nested')
    (answered : (nested.answer call).1 ≠ .error .exhausted) :
    nested.answer call = nested'.answer call := by
  cases call with
  | node here => exact (approximates.node here).resolve_left answered
  | content here => exact (approximates.content here).resolve_left answered

end Nested.Approximates

/-! ### Giving up calls -/

section Restriction

variable {allowed : NestedCall State → Prop} [DecidablePred allowed]

/-- The lexers, giving up at all calls but the allowed ones. -/
def Nested.restrict (nested : Nested) (allowed : NestedCall State → Prop) [DecidablePred allowed] :
    Nested :=
  ofAnswers fun call =>
    if allowed call then nested.answer call else (.error .exhausted, call.here)

theorem Nested.answer_restrict (nested : Nested) (call : NestedCall State) :
    (nested.restrict allowed).answer call =
      if allowed call then nested.answer call else (.error .exhausted, call.here) :=
  answer_ofAnswers _ call

theorem Nested.restrict_approximates (nested : Nested) :
    (nested.restrict allowed).Approximates nested := by
  have each (call : NestedCall State) :
      ((nested.restrict allowed).answer call).1 = .error .exhausted ∨
        (nested.restrict allowed).answer call = nested.answer call := by
    rw [nested.answer_restrict]
    split
    · exact .inr rfl
    · exact .inl rfl
  exact ⟨fun here => each (.node here), fun here => each (.content here)⟩

/-- Lexers that answer all allowed calls alike are alike where they give up the others. -/
theorem Nested.restrict_congr
    (alike : ∀ call, allowed call → nested.answer call = nested'.answer call) :
    nested.restrict allowed = nested'.restrict allowed := by
  have each (call : NestedCall State) :
      (nested.restrict allowed).answer call = (nested'.restrict allowed).answer call := by
    rw [nested.answer_restrict, nested'.answer_restrict]
    split
    · next fits => exact alike call fits
    · rfl
  exact Nested.ext_answer each

/-- Giving up calls inside of which so many characters are left does no harm to fewer. -/
theorem Nested.Cut.restrict (cut : nested.Cut bound)
    (many : ∀ call, Fits call → ¬ allowed call → bound ≤ inside call) :
    (nested.restrict allowed).Cut bound := by
  refine ⟨fun {state} found => ?_, fun {state} => ?_⟩
  · by_cases kept : allowed (.node state)
    · exact (cut.node found).congr ((nested.answer_restrict _).trans (if_pos kept))
    · refine .exhausted ((nested.answer_restrict _).trans (if_neg kept)) ?_
      rw [← NestedCall.inside_node found]
      exact Nat.succ_le_succ (many (.node state) found kept)
  · by_cases kept : allowed (.content state)
    · exact cut.content.congr ((nested.answer_restrict _).trans (if_pos kept))
    · exact .exhausted ((nested.answer_restrict _).trans (if_neg kept))
        (many (.content state) trivial kept)

end Restriction

/-! ### Levels of nesting -/

/-- A call that so many levels of nesting are enough for. -/
def Within (depth : Nat) (call : NestedCall State) : Prop :=
  Fits call ∧ inside call < depth

instance decidableWithin (depth : Nat) : DecidablePred (Within depth) :=
  fun _ => inferInstanceAs (Decidable (_ ∧ _))

/-- Lexers that answer alike where so many levels are enough make a body run alike, if it is not
exhausted by any that have those levels. -/
theorem run_alike (body : Nested → Lexer Unit)
    (monotone : ∀ {nested nested' : Nested}, nested.Approximates nested' →
      Approximates (body nested) (body nested'))
    (enough : ∀ {nested : Nested}, nested.Cut depth →
      ((body nested).run.run state).1 ≠ .error .exhausted)
    (cut : nested.Cut depth)
    (alike : ∀ call, Within depth call → nested.answer call = nested'.answer call) :
    (body nested).run.run state = (body nested').run.run state := by
  have same : nested.restrict (Within depth) = nested'.restrict (Within depth) :=
    Nested.restrict_congr alike
  have restricted : (nested.restrict (Within depth)).Cut depth :=
    cut.restrict fun call fits outside => Nat.le_of_not_lt fun few => outside ⟨fits, few⟩
  have first := (monotone nested.restrict_approximates state).resolve_left (enough restricted)
  rw [same] at restricted first
  exact first.symm.trans
    ((monotone nested'.restrict_approximates state).resolve_left (enough restricted))

/-- One level of nesting on top of so many. -/
theorem answer_deeper (cut : nested.Cut depth)
    (alike : ∀ call, Within depth call → nested.answer call = nested'.answer call)
    (within : Within (depth + 1) call) :
    nested.deeper.answer call = nested'.deeper.answer call := by
  cases call with
  | node here =>
    exact run_alike Lexer.node Approximates.node
      (fun cut => cut.deeper.answers within.1 within.2) cut alike
  | content here =>
    exact run_alike Lexer.content Approximates.content
      (fun cut => cut.deeper.answers within.1 within.2) cut alike

/-- **Levels of nesting** that are enough for a call do not show in its answer. -/
theorem answer_ofDepth (unbounded : nested.Unbounded) (within : Within depth call) :
    (Nested.ofDepth depth).answer call = nested.answer call := by
  induction depth generalizing call with
  | zero => exact absurd within.2 (Nat.not_lt_zero _)
  | succ depth ih =>
    rw [unbounded within.1]
    exact answer_deeper (cut_ofDepth depth) (fun _ => ih) within

/-- More levels of nesting than are enough give the same answer. -/
theorem answer_ofDepth_of_le {more : Nat} (within : Within depth call) (fewer : depth ≤ more) :
    (Nested.ofDepth depth).answer call = (Nested.ofDepth more).answer call := by
  have answers := (cut_ofDepth depth).answers within.1 within.2
  exact (approximates_ofDepth fewer).answer answers

/-- At each state, the lexers with a level of nesting more than there are characters left. -/
def Nested.limit : Nested :=
  ofAnswers fun call => (Nested.ofDepth (call.here.cursor.rest.length + 1)).answer call

theorem answer_limit (within : Within depth call) :
    Nested.limit.answer call = (Nested.ofDepth depth).answer call := by
  have fits : Within (call.here.cursor.rest.length + 1) call := by
    refine ⟨within.1, ?_⟩
    cases call with
    | node here => exact Nat.lt_succ_of_le (Nat.sub_le _ _)
    | content here => exact Nat.lt_succ_self _
  rw [Nested.limit, Nested.answer_ofAnswers]
  rcases Nat.le_total depth (call.here.cursor.rest.length + 1) with fewer | fewer
  · exact (answer_ofDepth_of_le within fewer).symm
  · exact answer_ofDepth_of_le fits fewer

/-- **There are unbounded lexers.** -/
theorem exists_unbounded : ∃ nested : Nested, nested.Unbounded := by
  refine ⟨Nested.limit, fun {call} fits => ?_⟩
  have within : Within (inside call + 1) call := ⟨fits, Nat.lt_succ_self _⟩
  rw [answer_limit within]
  refine answer_deeper (cut_ofDepth (inside call)) (fun _ few => ?_) within
  exact (answer_limit few).symm

/-- Unbounded lexers are never exhausted. -/
theorem Nested.Unbounded.cut (unbounded : nested.Unbounded) (bound : Nat) : nested.Cut bound := by
  refine ⟨fun {state} found => ?_, fun {state} => ?_⟩
  · have within : Within state.cursor.rest.length (.node state) :=
      ⟨found, by rw [← NestedCall.inside_node found]; exact Nat.lt_succ_self _⟩
    refine (Cuts.of_few ?_ (Nat.lt_succ_self _)).congr (answer_ofDepth unbounded within).symm
    exact (cut_ofDepth state.cursor.rest.length).node found
  · have within : Within (state.cursor.rest.length + 1) (.content state) :=
      ⟨trivial, Nat.lt_succ_self _⟩
    refine (Cuts.of_few ?_ (Nat.lt_succ_self _)).congr (answer_ofDepth unbounded within).symm
    exact (cut_ofDepth (state.cursor.rest.length + 1)).content

/-! ### Calls -/

/-- The calls that a body makes at a state: those it cannot do without. -/
def Nested.Makes (nested : Nested) (body : Nested → Lexer Unit) (state : State)
    (call : NestedCall State) : Prop :=
  ((body (nested.restrict (· ≠ call))).run.run state).1 = .error .exhausted

/-- The calls that the answer to a call needs. -/
def Nested.Calls (nested : Nested) (call made : NestedCall State) : Prop :=
  Fits call ∧ ((nested.restrict (· ≠ made)).deeper.answer call).1 = .error .exhausted

/-- A call that is missed only where more than so many characters are left is one inside of which
fewer are left. -/
theorem Nested.Unbounded.lowers (unbounded : nested.Unbounded) {left : Nat}
    (missed : ∀ {bound : Nat}, (nested.restrict (· ≠ call)).Cut bound → bound < left) :
    Fits call ∧ inside call < left := by
  have without {bound : Nat} (many : Fits call → bound ≤ inside call) : bound < left := by
    refine missed ((unbounded.cut bound).restrict fun other fits gone => ?_)
    obtain rfl : other = call := Decidable.not_not.1 gone
    exact many fits
  refine ⟨Decidable.byContradiction fun misfit => ?_, without fun _ => Nat.le_refl _⟩
  exact Nat.lt_irrefl left (without fun fits => absurd fits misfit)

/-- **The answer to a call** needs only calls inside of which fewer characters are left. -/
theorem Nested.Unbounded.calls_lower (unbounded : nested.Unbounded) {made : NestedCall State}
    (calls : nested.Calls call made) : inside made < inside call := by
  obtain ⟨fits, misses⟩ := calls
  refine (unbounded.lowers fun cut => Nat.lt_of_not_le fun few => ?_).2
  exact cut.deeper.answers fits (Nat.lt_succ_of_le few) misses

theorem Nested.Unbounded.chain_lowers (unbounded : nested.Unbounded) {last : NestedCall State}
    (chain : Relation.TransGen nested.Calls call last) : inside last < inside call := by
  have lowers : ∀ {call made}, nested.Calls call made → inside made < inside call :=
    unbounded.calls_lower
  exact NestedCall.lt_of_chain inside lowers chain

/-- The lexers that make calls, where they are run. -/
inductive Caller : (Nested → Lexer Unit) → State → Prop
  | contentBinding {state : State} : Caller contentBinding state
  | directive {state : State} : Caller directive state
  | preambleElement {state : State} (found : state.cursor.head = some '<') :
    Caller preambleElement state
  | preamble {state : State} : Caller preamble state
  | textOrIgnored {state : State} {c : Char} (found : state.cursor.head = some c)
    (plain : c ∉ ['\r', '\n', '\x60', ']']) : Caller textOrIgnored state
  | textElements {state : State} : Caller textElements state
  | line {state : State} : Caller line state
  | lines {state : State} : Caller lines state
  | content {state : State} : Caller content state
  | textNode {state : State} : Caller textNode state
  | typedNode {state : State} : Caller typedNode state
  | namedNode {state : State} (found : state.cursor.head.any isNameChar = true) :
    Caller namedNode state
  | nodeBody {state : State} : Caller nodeBody state

theorem Caller.cuts {body : Nested → Lexer Unit} (caller : Caller body state)
    (cut : nested.Cut bound) : Cuts (bound + 1) (body nested) state fun _ _ => True := by
  have any {lexer : Lexer Unit} {holds : Unit → State → Prop}
      (cuts : Cuts (bound + 1) lexer state holds) : Cuts (bound + 1) lexer state fun _ _ => True :=
    cuts.mono fun _ _ _ _ => trivial
  cases caller with
  | contentBinding => exact .contentBinding cut
  | directive => exact .directive cut
  | preambleElement found => exact any (.preambleElement cut found)
  | preamble => exact .preamble cut
  | textOrIgnored found plain => exact any (.textOrIgnored cut found plain)
  | textElements => exact .textElements cut
  | line => exact any (.line cut)
  | lines => exact .lines cut
  | content => exact .content cut
  | textNode => exact .textNode cut
  | typedNode => exact .typedNode cut
  | namedNode found => exact .namedNode cut found
  | nodeBody => exact .nodeBody cut

/-- **A lexer that makes calls** makes only those inside of which fewer characters are left than
where it is run. -/
theorem Nested.Unbounded.makes_lower (unbounded : nested.Unbounded) {body : Nested → Lexer Unit}
    (caller : Caller body state) (makes : nested.Makes body state call) :
    inside call < state.cursor.rest.length := by
  refine (unbounded.lowers fun cut => Nat.lt_of_not_le fun few => ?_).2
  exact (caller.cuts cut).not_exhausted (Nat.lt_succ_of_le few) makes

/-- A line calls for the node that it starts with. -/
example (nested : Nested) :
    nested.Makes line (.ofString "[a]") (.node (.ofString "[a]")) := by
  rfl

/-! ### Sources -/

/-- How lexers cut a source: the end of it, and the tokens cut. -/
def Nested.lex (nested : Nested) (source : String) : Except Refusal Unit × List Token :=
  let (outcome, state) := (Lexer.file nested).run.run (.ofString source)
  (outcome, state.tokens.reverse)

/-- The tokens of a source that the lexers cut, with one for all that they do not. -/
def Nested.tokenize (nested : Nested) (source : String) : List Token :=
  match nested.lex source with
  | (.ok (), tokens) => tokens
  | (.error _, tokens) =>
    let left := source.toList.drop (Token.textOf tokens).length
    tokens ++ [⟨.unread, Token.endOf tokens, String.ofList left, none⟩]

/-- **More levels of nesting than characters** are enough for a source. -/
theorem lexWithin_of_unbounded (unbounded : nested.Unbounded) {source : String}
    (enough : source.length < depth) : lexWithin depth source = nested.lex source := by
  have few : (State.ofString source).cursor.rest.length < depth := by
    rw [← String.length_toList] at enough
    exact enough
  have same : (Lexer.file (.ofDepth depth)).run.run (.ofString source) =
      (Lexer.file nested).run.run (.ofString source) :=
    run_alike Lexer.file Approximates.file (fun cut => (Cuts.file cut).not_exhausted few)
      (cut_ofDepth depth) fun _ within => answer_ofDepth unbounded within
  show ((Nested.ofDepth depth).lex source) = nested.lex source
  unfold Nested.lex
  rw [same]

theorem tokenize_of_unbounded (unbounded : nested.Unbounded) (source : String) :
    TypedMarkup.tokenize source = nested.tokenize source := by
  unfold TypedMarkup.tokenize
  rw [lexWithin_of_unbounded unbounded (Nat.lt_succ_self _)]
  rfl

/-! ### Termination -/

/-- What makes reading with lexers of nested constructs terminate. -/
structure Nested.Terminates (nested : Nested) : Prop where
  /-- A round of a loop refuses, ends the loop, or leaves fewer characters. -/
  progresses : ∀ {loop : Lexer Unit} {step : Lexer Bool}, IsLoop nested loop step →
    Progresses step
  /-- So the bound on the rounds of a loop is none. -/
  loops : ∀ {loop : Lexer Unit} {step : Lexer Bool} {state : State}
    {result : Except Refusal Unit × State}, IsLoop nested loop step →
      (Loops step state result ↔ loop.run.run state = result)
  /-- A node that reading a node leads to starts with fewer characters left. -/
  node : ∀ {here there : State}, Relation.TransGen nested.Calls (.node here) (.node there) →
    there.cursor.rest.length < here.cursor.rest.length
  /-- A block that reading a block leads to starts with fewer characters left. -/
  content : ∀ {here there : State},
    Relation.TransGen nested.Calls (.content here) (.content there) →
      there.cursor.rest.length < here.cursor.rest.length
  /-- Whatever else makes calls, inside of all that they lead to there are fewer characters left
  than where it was run. -/
  caller : ∀ {body : Nested → Lexer Unit} {here : State} {first last : NestedCall State},
    Caller body here → nested.Makes body here first →
      Relation.ReflTransGen nested.Calls first last → inside last < here.cursor.rest.length
  /-- More levels of nesting than there are characters inside give the answer to a call. -/
  levels : ∀ {depth : Nat} {call : NestedCall State}, Fits call → inside call < depth →
    (Nested.ofDepth depth).answer call = nested.answer call
  /-- No call is exhausted. -/
  answers : ∀ {call : NestedCall State}, Fits call → (nested.answer call).1 ≠ .error .exhausted
  /-- Nor is the reading of a source. -/
  ends : ∀ {source : String}, (nested.lex source).1 ≠ .error .exhausted
  /-- More levels of nesting than characters give what the lexers give. -/
  depth : ∀ {depth : Nat} {source : String}, source.length < depth →
    lexWithin depth source = nested.lex source
  /-- In particular, the tokens of a source are those that the lexers cut. -/
  tokens : ∀ source, TypedMarkup.tokenize source = nested.tokenize source

theorem IsLoop.progresses (unbounded : nested.Unbounded) {loop : Lexer Unit} {step : Lexer Bool}
    (isLoop : IsLoop nested loop step) : Progresses step := by
  have goes {stops : State → Prop}
      (cuts : ∀ here, Cuts 1 step here (Cuts.Goes stops here)) : Progresses step := by
    intro here after ran
    exact ((cuts here).of_ok ran).2.2
  have cut := unbounded.cut 0
  cases isLoop with
  | skip => exact progresses_skipRound
  | classes => exact goes fun _ => .classRound
  | childSteps => exact goes fun _ => Cuts.childStepRound.mono fun _ _ _ went => went.1
  | typePaths => exact goes fun _ => .typePath
  | settings => exact goes fun _ => .setting
  | preamble => exact goes fun _ => .preambleRound cut
  | textElements => exact goes fun _ => .textElement cut
  | line => exact goes fun _ => (Cuts.lineElement cut).mono fun _ _ _ went => went.1
  | lines => exact goes fun _ => .lineRound cut

/-- **Reading with unbounded lexers terminates.** -/
theorem Nested.Unbounded.terminates (unbounded : nested.Unbounded) : nested.Terminates where
  progresses isLoop := isLoop.progresses unbounded
  loops isLoop := isLoop.loops_iff (isLoop.progresses unbounded)
  node {here there} chain := by
    have fewer : there.cursor.rest.length - 1 < here.cursor.rest.length - 1 :=
      unbounded.chain_lowers chain
    omega
  content chain := unbounded.chain_lowers chain
  caller isCaller makes chain := by
    have first := unbounded.makes_lower isCaller makes
    rcases Relation.reflTransGen_iff_eq_or_transGen.1 chain with rfl | chain
    · exact first
    · exact Nat.lt_trans (unbounded.chain_lowers chain) first
  levels fits few := answer_ofDepth unbounded ⟨fits, few⟩
  answers {call} fits := (unbounded.cut (inside call + 1)).answers fits (Nat.lt_succ_self _)
  ends {source} := by
    have few : (State.ofString source).cursor.rest.length < source.toList.length + 1 :=
      Nat.lt_succ_self _
    exact (Cuts.file (unbounded.cut _)).not_exhausted few
  depth := lexWithin_of_unbounded unbounded
  tokens := tokenize_of_unbounded unbounded

end TypedMarkup.Lexer
