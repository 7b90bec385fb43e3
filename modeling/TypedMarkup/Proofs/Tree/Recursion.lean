/-
**The recursion of parsers.** Parsers of nested constructs that simply call themselves, without
levels of nesting, come to an end, and levels of nesting only ever get in their way. What is said of
lexers in their recursion is said here of parsers.

* `Nested.Unbounded`: a node and a block are each read by what reads one in terms of the two.
* `Nested.restrict` gives up at some calls. From that it shows which calls a parser makes
  (`Nested.Makes`): it cannot do without them.
* `answer_ofDepth`: more levels of nesting than characters inside give the answers of unbounded
  parsers, of which there are some (`exists_unbounded`).
* `Nested.Unbounded.terminates` collects it all.
-/

import TypedMarkup.Proofs.Source.Calls
import TypedMarkup.Proofs.Tree.Deeper

namespace TypedMarkup.Parser

variable {source c : Cursor} {bound depth : Nat} {nested nested' : Nested}
  {call : NestedCall Cursor}

/-! ### Answers -/

/-- What a call reads. -/
def Read : NestedCall Cursor → Type
  | .node _ => Node
  | .content _ => Content

/-- What a call comes to. -/
def Nested.answer (nested : Nested) :
    (call : NestedCall Cursor) → Except Failure (Read call × Cursor)
  | .node here => nested.node here
  | .content here => nested.content here

/-- Parsers that answer all calls alike are the same. -/
theorem Nested.ext_answer (alike : ∀ call, nested.answer call = nested'.answer call) :
    nested = nested' := by
  have node : nested.node = nested'.node := funext fun here => alike (.node here)
  have content : nested.content = nested'.content := funext fun here => alike (.content here)
  exact congrArg₂ Nested.mk node content

/-- The parsers that answer like this. -/
def Nested.ofAnswers (answers : (call : NestedCall Cursor) → Except Failure (Read call × Cursor)) :
    Nested where
  node := fun here => answers (.node here)
  content := fun here => answers (.content here)

theorem Nested.answer_ofAnswers
    (answers : (call : NestedCall Cursor) → Except Failure (Read call × Cursor))
    (call : NestedCall Cursor) : (ofAnswers answers).answer call = answers call := by
  cases call <;> rfl

/-- Parsers of nested constructs that call the given ones. -/
def Nested.deeper (nested : Nested) : Nested :=
  ⟨Parser.node nested, Parser.content nested⟩

/-- Parsers of nested constructs that call themselves. -/
def Nested.Unbounded (nested : Nested) : Prop :=
  ∀ {call : NestedCall Cursor}, call.Fits → nested.answer call = nested.deeper.answer call

namespace Reads

variable {α : Type} {parser parser' : Parser α} {holds : α → Cursor → Prop}

/-- Where too few characters are left, a parser is not exhausted. -/
theorem not_exhausted (reads : Reads source bound parser c holds) (reaches : source.Reaches c)
    (few : c.rest.length < bound) : parser c ≠ .error .exhausted := by
  intro exhausted
  have ran := reads reaches
  rw [exhausted] at ran
  exact absurd ran (Nat.not_le.2 few)

/-- A parser that is exhausted at once. -/
theorem exhausted (ran : parser c = .error .exhausted) (many : bound ≤ c.rest.length) :
    Reads source bound parser c holds := by
  intro _
  rw [ran]
  exact many

/-- A parser that runs like another. -/
theorem congr (reads : Reads source bound parser c holds) (same : parser' c = parser c) :
    Reads source bound parser' c holds := by
  intro reaches
  rw [same]
  exact reads reaches

/-- Where too few characters are left, the bound does not matter. -/
theorem of_few {more : Nat} (reads : Reads source bound parser c holds)
    (few : c.rest.length < bound) : Reads source more parser c holds := by
  intro reaches
  have ends := reads.not_exhausted reaches few
  have ran := reads reaches
  cases same : parser c with
  | ok result =>
    rw [same] at ran
    exact ran
  | error failure =>
    rw [same] at ran
    cases failure with
    | malformed error => exact ran
    | exhausted => exact absurd same ends

end Reads

/-- Calls with too few characters left inside are answered. -/
theorem Nested.Sound.answers (sound : nested.Sound bound) (fits : call.Fits)
    (few : call.inside < bound) : nested.answer call ≠ .error .exhausted := by
  cases call with
  | node here =>
    refine (sound.node fits).not_exhausted (.refl here) ?_
    rw [← NestedCall.inside_node fits]
    exact Nat.succ_lt_succ few
  | content here => exact sound.content.not_exhausted (.refl here) few

theorem Nested.Sound.deeper (sound : nested.Sound bound) : nested.deeper.Sound (bound + 1) :=
  ⟨Reads.node sound, Reads.content sound⟩

namespace Nested.Approximates

/-- Answers that are given stay. -/
theorem answer (approximates : nested.Approximates nested')
    (answered : nested.answer call ≠ .error .exhausted) :
    nested.answer call = nested'.answer call := by
  cases call with
  | node here => exact (approximates.node here).resolve_left answered
  | content here => exact (approximates.content here).resolve_left answered

end Nested.Approximates

/-! ### Giving up calls -/

section Restriction

variable {allowed : NestedCall Cursor → Prop} [DecidablePred allowed]

/-- The parsers, giving up at all calls but the allowed ones. -/
def Nested.restrict (nested : Nested) (allowed : NestedCall Cursor → Prop) [DecidablePred allowed] :
    Nested :=
  ofAnswers fun call => if allowed call then nested.answer call else .error .exhausted

theorem Nested.answer_restrict (nested : Nested) (call : NestedCall Cursor) :
    (nested.restrict allowed).answer call =
      if allowed call then nested.answer call else .error .exhausted :=
  answer_ofAnswers _ call

theorem Nested.restrict_approximates (nested : Nested) :
    (nested.restrict allowed).Approximates nested := by
  have each (call : NestedCall Cursor) : (nested.restrict allowed).answer call = .error .exhausted ∨
      (nested.restrict allowed).answer call = nested.answer call := by
    rw [nested.answer_restrict]
    split
    · exact .inr rfl
    · exact .inl rfl
  exact ⟨fun here => each (.node here), fun here => each (.content here)⟩

/-- Parsers that answer all allowed calls alike are alike where they give up the others. -/
theorem Nested.restrict_congr
    (alike : ∀ call, allowed call → nested.answer call = nested'.answer call) :
    nested.restrict allowed = nested'.restrict allowed := by
  have each (call : NestedCall Cursor) :
      (nested.restrict allowed).answer call = (nested'.restrict allowed).answer call := by
    rw [nested.answer_restrict, nested'.answer_restrict]
    split
    · next fits => exact alike call fits
    · rfl
  exact Nested.ext_answer each

/-- Giving up calls inside of which so many characters are left does no harm to fewer. -/
theorem Nested.Sound.restrict (sound : nested.Sound bound)
    (many : ∀ call : NestedCall Cursor, call.Fits → ¬ allowed call → bound ≤ call.inside) :
    (nested.restrict allowed).Sound bound := by
  refine ⟨fun {source c} found => ?_, fun {source c} => ?_⟩
  · by_cases kept : allowed (.node c)
    · exact (sound.node found).congr ((nested.answer_restrict _).trans (if_pos kept))
    · refine .exhausted ((nested.answer_restrict _).trans (if_neg kept)) ?_
      rw [← NestedCall.inside_node found]
      exact Nat.succ_le_succ (many (.node c) found kept)
  · by_cases kept : allowed (.content c)
    · exact sound.content.congr ((nested.answer_restrict _).trans (if_pos kept))
    · exact .exhausted ((nested.answer_restrict _).trans (if_neg kept))
        (many (.content c) trivial kept)

end Restriction

/-! ### Levels of nesting -/

/-- A call that so many levels of nesting are enough for. -/
def Within (depth : Nat) (call : NestedCall Cursor) : Prop :=
  call.Fits ∧ call.inside < depth

instance decidableWithin (depth : Nat) : DecidablePred (Within depth) :=
  fun _ => inferInstanceAs (Decidable (_ ∧ _))

/-- Parsers that answer alike where so many levels are enough make a body run alike, if it is not
exhausted by any that have those levels. -/
theorem run_alike {α : Type} (body : Nested → Parser α)
    (monotone : ∀ {nested nested' : Nested}, nested.Approximates nested' →
      (body nested).Approximates (body nested'))
    (enough : ∀ {nested : Nested}, nested.Sound depth → body nested c ≠ .error .exhausted)
    (sound : nested.Sound depth)
    (alike : ∀ call, Within depth call → nested.answer call = nested'.answer call) :
    body nested c = body nested' c := by
  have same : nested.restrict (Within depth) = nested'.restrict (Within depth) :=
    Nested.restrict_congr alike
  have restricted : (nested.restrict (Within depth)).Sound depth :=
    sound.restrict fun call fits outside => Nat.le_of_not_lt fun few => outside ⟨fits, few⟩
  have first := (monotone nested.restrict_approximates c).resolve_left (enough restricted)
  rw [same] at restricted first
  exact first.symm.trans
    ((monotone nested'.restrict_approximates c).resolve_left (enough restricted))

/-- One level of nesting on top of so many. -/
theorem answer_deeper (sound : nested.Sound depth)
    (alike : ∀ call, Within depth call → nested.answer call = nested'.answer call)
    (within : Within (depth + 1) call) :
    nested.deeper.answer call = nested'.deeper.answer call := by
  cases call with
  | node here =>
    exact run_alike Parser.node Approximates.node
      (fun sound => sound.deeper.answers within.1 within.2) sound alike
  | content here =>
    exact run_alike Parser.content Approximates.content
      (fun sound => sound.deeper.answers within.1 within.2) sound alike

/-- **Levels of nesting** that are enough for a call do not show in its answer. -/
theorem answer_ofDepth (unbounded : nested.Unbounded) (within : Within depth call) :
    (Nested.ofDepth depth).answer call = nested.answer call := by
  induction depth generalizing call with
  | zero => exact absurd within.2 (Nat.not_lt_zero _)
  | succ depth ih =>
    rw [unbounded within.1]
    exact answer_deeper (sound_ofDepth depth) (fun _ => ih) within

/-- More levels of nesting than are enough give the same answer. -/
theorem answer_ofDepth_of_le {more : Nat} (within : Within depth call) (fewer : depth ≤ more) :
    (Nested.ofDepth depth).answer call = (Nested.ofDepth more).answer call := by
  have answers := (sound_ofDepth depth).answers within.1 within.2
  exact (approximates_ofDepth fewer).answer answers

/-- At each cursor, the parsers with a level of nesting more than there are characters left. -/
def Nested.limit : Nested :=
  ofAnswers fun call => (Nested.ofDepth (call.here.rest.length + 1)).answer call

theorem answer_limit (within : Within depth call) :
    Nested.limit.answer call = (Nested.ofDepth depth).answer call := by
  have fits : Within (call.here.rest.length + 1) call := by
    refine ⟨within.1, ?_⟩
    cases call with
    | node here => exact Nat.lt_succ_of_le (Nat.sub_le _ _)
    | content here => exact Nat.lt_succ_self _
  rw [Nested.limit, Nested.answer_ofAnswers]
  rcases Nat.le_total depth (call.here.rest.length + 1) with fewer | fewer
  · exact (answer_ofDepth_of_le within fewer).symm
  · exact answer_ofDepth_of_le fits fewer

/-- **There are unbounded parsers.** -/
theorem exists_unbounded : ∃ nested : Nested, nested.Unbounded := by
  refine ⟨Nested.limit, fun {call} fits => ?_⟩
  have within : Within (call.inside + 1) call := ⟨fits, Nat.lt_succ_self _⟩
  rw [answer_limit within]
  refine answer_deeper (sound_ofDepth call.inside) (fun _ few => ?_) within
  exact (answer_limit few).symm

/-- Unbounded parsers are never exhausted. -/
theorem Nested.Unbounded.sound (unbounded : nested.Unbounded) (bound : Nat) :
    nested.Sound bound := by
  refine ⟨fun {source c} found => ?_, fun {source c} => ?_⟩
  · have within : Within c.rest.length (.node c) :=
      ⟨found, by rw [← NestedCall.inside_node found]; exact Nat.lt_succ_self _⟩
    have same : nested.node c = (Nested.ofDepth c.rest.length).node c :=
      (answer_ofDepth unbounded within).symm
    refine (Reads.of_few ?_ (Nat.lt_succ_self _)).congr same
    exact (sound_ofDepth c.rest.length).node found
  · have within : Within (c.rest.length + 1) (.content c) := ⟨trivial, Nat.lt_succ_self _⟩
    have same : nested.content c = (Nested.ofDepth (c.rest.length + 1)).content c :=
      (answer_ofDepth unbounded within).symm
    refine (Reads.of_few ?_ (Nat.lt_succ_self _)).congr same
    exact (sound_ofDepth (c.rest.length + 1)).content

/-! ### Calls -/

section Calls

variable {α : Type} {body : Nested → Parser α}

/-- The calls that a body makes at a cursor: those it cannot do without. -/
def Nested.Makes (nested : Nested) (body : Nested → Parser α) (c : Cursor)
    (call : NestedCall Cursor) : Prop :=
  body (nested.restrict (· ≠ call)) c = .error .exhausted

/-- The calls that the answer to a call needs. -/
def Nested.Calls (nested : Nested) (call made : NestedCall Cursor) : Prop :=
  call.Fits ∧ (nested.restrict (· ≠ made)).deeper.answer call = .error .exhausted

/-- A call that is missed only where more than so many characters are left is one inside of which
fewer are left. -/
theorem Nested.Unbounded.lowers (unbounded : nested.Unbounded) {left : Nat}
    (missed : ∀ {bound : Nat}, (nested.restrict (· ≠ call)).Sound bound → bound < left) :
    call.Fits ∧ call.inside < left := by
  have without {bound : Nat} (many : call.Fits → bound ≤ call.inside) : bound < left := by
    refine missed ((unbounded.sound bound).restrict fun other fits gone => ?_)
    obtain rfl : other = call := Decidable.not_not.1 gone
    exact many fits
  refine ⟨Decidable.byContradiction fun misfit => ?_, without fun _ => Nat.le_refl _⟩
  exact Nat.lt_irrefl left (without fun fits => absurd fits misfit)

/-- **The answer to a call** needs only calls inside of which fewer characters are left. -/
theorem Nested.Unbounded.calls_lower (unbounded : nested.Unbounded) {made : NestedCall Cursor}
    (calls : nested.Calls call made) : made.inside < call.inside := by
  obtain ⟨fits, misses⟩ := calls
  refine (unbounded.lowers fun sound => Nat.lt_of_not_le fun few => ?_).2
  exact sound.deeper.answers fits (Nat.lt_succ_of_le few) misses

theorem Nested.Unbounded.chain_lowers (unbounded : nested.Unbounded) {last : NestedCall Cursor}
    (chain : Relation.TransGen nested.Calls call last) : last.inside < call.inside := by
  have lowers : ∀ {call made}, nested.Calls call made → made.inside < call.inside :=
    unbounded.calls_lower
  exact NestedCall.lt_of_chain NestedCall.inside lowers chain

/-- The parsers that make calls, where they are run. Those for the parts of a node are run behind
its bracket, which they record. -/
inductive Caller : {α : Type} → (Nested → Parser α) → Cursor → Prop
  | contentBinding {c : Cursor} : Caller contentBinding c
  | directive {c : Cursor} : Caller directive c
  | preambleElement {c : Cursor} (found : c.head = some '<') : Caller preambleElement c
  | preamble {c : Cursor} : Caller preamble c
  | ignoredNode {c : Cursor} (first : c.head = some '_') (second : c.second = some '[') :
    Caller ignoredNode c
  | textRun {c : Cursor} {x : Char} (found : c.head = some x)
    (fits : x = '[' ∨ endsText x = false) : Caller textRun c
  | textElements {c : Cursor} : Caller textElements c
  | line {c : Cursor} : Caller line c
  | lines {c : Cursor} : Caller lines c
  | content {c : Cursor} : Caller content c
  | textNode {source c : Cursor} {start : Position} {keyword : Option Word}
    (reaches : source.Reaches c) (open_ : source.FindsChar start '[')
    (word : AllStand source (keyword.toList.map Part.keyword)) :
    Caller (textNode · start keyword) c
  | typedNode {source c : Cursor} {start : Position} {path : TypePath}
    (reaches : source.Reaches c) (open_ : source.FindsChar start '[')
    (stands : path.Stands source) : Caller (typedNode · start path) c
  | namedNode {source c : Cursor} {start : Position} {first : Word}
    (reaches : source.Reaches c) (open_ : source.FindsChar start '[')
    (stands : first.Stands source isNameChar) : Caller (namedNode · start first) c
  | nodeBody {source c : Cursor} {start : Position}
    (reaches : source.Reaches c) (open_ : source.FindsChar start '[')
    (started : Reads.Started source c (some start)) : Caller (nodeBody · start) c

theorem Caller.not_exhausted (caller : Caller body c) (sound : nested.Sound bound)
    (few : c.rest.length ≤ bound) : body nested c ≠ .error .exhausted := by
  have ends {source : Cursor} {parser : Parser α} {holds : α → Cursor → Prop}
      (reads : Reads source (bound + 1) parser c holds) (reaches : source.Reaches c) :
      parser c ≠ .error .exhausted :=
    reads.not_exhausted reaches (Nat.lt_succ_of_le few)
  cases caller with
  | contentBinding => exact ends (.contentBinding sound) (.refl c)
  | directive => exact ends (.directive sound) (.refl c)
  | preambleElement found => exact ends (.preambleElement sound found) (.refl c)
  | preamble => exact ends (.preamble sound) (.refl c)
  | ignoredNode first second => exact ends (.ignoredNode sound first second) (.refl c)
  | textRun found fits => exact ends (.textRun sound found fits) (.refl c)
  | textElements => exact ends (.textElements sound) (.refl c)
  | line => exact ends (.line sound) (.refl c)
  | lines => exact ends (.lines sound) (.refl c)
  | content => exact ends (.content sound) (.refl c)
  | textNode reaches open_ word => exact ends (.textNode sound open_ word) reaches
  | typedNode reaches open_ stands => exact ends (.typedNode sound open_ stands) reaches
  | namedNode reaches open_ stands => exact ends (.namedNode sound open_ stands) reaches
  | nodeBody reaches open_ started => exact ends (.nodeBody sound started open_) reaches

/-- **A parser that makes calls** makes only those inside of which fewer characters are left than
where it is run. -/
theorem Nested.Unbounded.makes_lower (unbounded : nested.Unbounded) (caller : Caller body c)
    (makes : nested.Makes body c call) : call.inside < c.rest.length := by
  refine (unbounded.lowers fun sound => Nat.lt_of_not_le fun few => ?_).2
  exact caller.not_exhausted sound few makes

end Calls

/-! ### Sources -/

/-- How parsers read a source. -/
def Nested.parse (nested : Nested) (source : String) : Except Failure Content :=
  (Parser.file nested).run' (Cursor.ofString source)

/-- **More levels of nesting than characters** are enough for a source. -/
theorem parseWithin_of_unbounded (unbounded : nested.Unbounded) {source : String}
    (enough : source.length < depth) : Content.parseWithin depth source = nested.parse source := by
  have few : (Cursor.ofString source).rest.length < depth := by
    rw [← String.length_toList] at enough
    exact enough
  have same : Parser.file (.ofDepth depth) (Cursor.ofString source) =
      Parser.file nested (Cursor.ofString source) :=
    run_alike Parser.file Approximates.file
      (fun sound => (Reads.file sound).not_exhausted (.refl _) few) (sound_ofDepth depth)
      fun _ within => answer_ofDepth unbounded within
  simp only [Content.parseWithin, Nested.parse, StateT.run', same]

/-- Reading a source is never exhausted. -/
theorem Nested.Unbounded.parse_ends (unbounded : nested.Unbounded) (source : String) :
    nested.parse source ≠ .error .exhausted := by
  have few : (Cursor.ofString source).rest.length < source.toList.length + 1 := Nat.lt_succ_self _
  have ends := (Reads.file (unbounded.sound _)).not_exhausted (.refl (Cursor.ofString source)) few
  unfold Nested.parse StateT.run'
  cases ran : Parser.file nested (Cursor.ofString source) with
  | ok result => exact nofun
  | error failure =>
    rintro ⟨⟩
    exact ends ran

theorem parse_of_unbounded (unbounded : nested.Unbounded) (source : String) :
    (Content.parse source).mapError Failure.malformed = nested.parse source := by
  have ends := unbounded.parse_ends source
  unfold Content.parse
  rw [parseWithin_of_unbounded unbounded (Nat.lt_succ_self _)]
  cases result : nested.parse source with
  | ok content => rfl
  | error failure =>
    cases failure with
    | malformed error => rfl
    | exhausted => exact absurd result ends

/-! ### Termination -/

/-- What makes reading with parsers of nested constructs terminate. -/
structure Nested.Terminates (nested : Nested) : Prop where
  /-- A round of a loop fails, ends the loop, or leaves fewer characters. -/
  progresses : ∀ {α : Type} {loop : Parser (List α)} {step : Parser (Round α)},
    IsLoop nested loop step → Progresses step
  /-- So the bound on the rounds of a loop is none. -/
  loops : ∀ {α : Type} {loop : Parser (List α)} {step : Parser (Round α)} {c : Cursor}
    {result : Except Failure (List α × Cursor)}, IsLoop nested loop step →
      (Loops step c result ↔ loop c = result)
  /-- A node that reading a node leads to starts with fewer characters left. -/
  node : ∀ {here there : Cursor}, Relation.TransGen nested.Calls (.node here) (.node there) →
    there.rest.length < here.rest.length
  /-- A block that reading a block leads to starts with fewer characters left. -/
  content : ∀ {here there : Cursor},
    Relation.TransGen nested.Calls (.content here) (.content there) →
      there.rest.length < here.rest.length
  /-- Whatever else makes calls, inside of all that they lead to there are fewer characters left
  than where it was run. -/
  caller : ∀ {α : Type} {body : Nested → Parser α} {here : Cursor} {first last : NestedCall Cursor},
    Caller body here → nested.Makes body here first →
      Relation.ReflTransGen nested.Calls first last → last.inside < here.rest.length
  /-- More levels of nesting than there are characters inside give the answer to a call. -/
  levels : ∀ {depth : Nat} {call : NestedCall Cursor}, call.Fits → call.inside < depth →
    (Nested.ofDepth depth).answer call = nested.answer call
  /-- No call is exhausted. -/
  answers : ∀ {call : NestedCall Cursor}, call.Fits → nested.answer call ≠ .error .exhausted
  /-- Nor is the reading of a source. -/
  ends : ∀ {source : String}, nested.parse source ≠ .error .exhausted
  /-- More levels of nesting than characters give what the parsers give. -/
  depth : ∀ {depth : Nat} {source : String}, source.length < depth →
    Content.parseWithin depth source = nested.parse source
  /-- In particular, a source is read as the parsers read it. -/
  parse : ∀ source, (Content.parse source).mapError Failure.malformed = nested.parse source

/-- A round that goes on has moved. -/
theorem Reads.moves {α : Type} {step : Parser (Round α)} {round : Round α} {after : Cursor}
    {keeps : α → Prop} {stops : Cursor → Prop}
    (reads : Reads c 1 step c (Reads.Goes keeps stops c)) (ran : step c = .ok (round, after))
    (goesOn : round ≠ .stop) : after.rest.length < c.rest.length := by
  have went := reads (.refl c)
  rw [ran] at went
  cases round with
  | stop => exact absurd rfl goesOn
  | pass => exact went.2
  | item a => exact went.2.1

/-- So has a setting, wherever the brace of its block is. -/
theorem progresses_setting (start : Position) : Progresses (setting start) := by
  intro c round after ran goesOn
  refine (Reads.setting fun ends => ?_).moves ran goesOn
  have run (next : Option Char → Parser (Round Setting)) :
      (skip >>= fun _ => head >>= next) c =
        next (c.behind (triviaText c.rest)).head (c.behind (triviaText c.rest)) := rfl
  unfold setting at ran
  rw [run, ends] at ran
  cases ran

theorem IsLoop.progresses (unbounded : nested.Unbounded) {α : Type} {loop : Parser (List α)}
    {step : Parser (Round α)} (isLoop : IsLoop nested loop step) : Progresses step := by
  have sound := unbounded.sound 0
  cases isLoop with
  | skip => exact progresses_skipRound
  | classes => exact fun _ _ _ => Reads.classRound.moves
  | childSteps => exact fun _ _ _ => (Reads.childStepRound.mono fun _ _ _ went => went.1).moves
  | typePaths => exact fun _ _ _ => Reads.typePath.moves
  | settings => exact progresses_setting _
  | preamble => exact fun _ _ _ => (Reads.preambleRound sound).moves
  | textPieces => exact fun _ _ _ => (Reads.textPiece sound).moves
  | textElements => exact fun _ _ _ => (Reads.textElement sound).moves
  | line => exact fun _ _ _ => (Reads.lineElement sound).moves
  | lines => exact fun _ _ _ => (Reads.lineRound sound).moves

/-- **Reading with unbounded parsers terminates.** -/
theorem Nested.Unbounded.terminates (unbounded : nested.Unbounded) : nested.Terminates where
  progresses isLoop := isLoop.progresses unbounded
  loops isLoop := isLoop.loops_iff (isLoop.progresses unbounded)
  node {here there} chain := by
    have fewer : there.rest.length - 1 < here.rest.length - 1 := unbounded.chain_lowers chain
    omega
  content chain := unbounded.chain_lowers chain
  caller isCaller makes chain := by
    have first := unbounded.makes_lower isCaller makes
    rcases Relation.reflTransGen_iff_eq_or_transGen.1 chain with rfl | chain
    · exact first
    · exact Nat.lt_trans (unbounded.chain_lowers chain) first
  levels fits few := answer_ofDepth unbounded ⟨fits, few⟩
  answers {call} fits := (unbounded.sound (call.inside + 1)).answers fits (Nat.lt_succ_self _)
  ends {source} := unbounded.parse_ends source
  depth := parseWithin_of_unbounded unbounded
  parse := parse_of_unbounded unbounded

end TypedMarkup.Parser
