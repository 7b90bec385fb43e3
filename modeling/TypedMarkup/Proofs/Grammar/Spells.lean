/-
**Parsers and languages.** A logic for parsers that read a language, one rule for each way to build
one.

* `Parser.Spells parser c language`: the parser has a result at the cursor just if lexemes that
  spell the result in the language flow from there to where it stops.
* `Spells.bind` chains parsers, `Spells.left` and `Spells.right` decide between languages by what
  stands at the cursor, and `Spells.many` repeats a step that moves whenever it goes on.
-/

import TypedMarkup.Proofs.Grammar.Rules
import TypedMarkup.Proofs.Token.AgreesProperty

namespace TypedMarkup.Parser

variable {α β : Type} {parser : Parser α} {c : Cursor} {language second : Language α}

/-- A parser reads a language at a cursor. -/
def Spells (parser : Parser α) (c : Cursor) (language : Language α) : Prop :=
  ∀ a d, parser c = .ok (a, d) ↔ ∃ lexemes, language a lexemes ∧ c.Flows lexemes d

/-- A sequence has a result if both of its parts have. -/
theorem bind_eq_ok {next : α → Parser β} {b : β} {d : Cursor} :
    (parser >>= next) c = .ok (b, d) ↔
      ∃ a middle, parser c = .ok (a, middle) ∧ next a middle = .ok (b, d) := by
  have unfolded : (parser >>= next) c = (parser c >>= fun result => next result.1 result.2) := rfl
  rw [unfolded]
  cases parser c with
  | error failure =>
    constructor
    · intro failed
      cases failed
    · rintro ⟨_, _, failed, _⟩
      cases failed
  | ok result =>
    constructor
    · exact fun later => ⟨result.1, result.2, rfl, later⟩
    · rintro ⟨a, middle, same, later⟩
      cases same
      exact later

namespace Spells

/-- A run that does not fail, and the only lexemes that fit. -/
theorem of_run {a : α} {d : Cursor} {lexemes : List Lexeme} (run : parser c = .ok (a, d))
    (spelled : language a lexemes) (flows : c.Flows lexemes d)
    (only : ∀ b e others, language b others → c.Flows others e → b = a ∧ e = d) :
    Spells parser c language := by
  intro b e
  rw [run]
  constructor
  · intro same
    cases same
    exact ⟨lexemes, spelled, flows⟩
  · rintro ⟨others, spelled', flows'⟩
    obtain ⟨rfl, rfl⟩ := only b e others spelled' flows'
    rfl

/-- A run that fails, where nothing that is spelled flows. -/
theorem of_failed {failure : Failure} (failed : parser c = .error failure)
    (never : language.Opens (· ≠ c)) : Spells parser c language := by
  intro a d
  rw [failed]
  constructor
  · intro same
    cases same
  · rintro ⟨lexemes, spelled, flows⟩
    exact absurd rfl (never a lexemes c d spelled flows)

theorem pure (a : α) : Spells (Pure.pure a) c (Pure.pure a) := by
  refine of_run rfl ⟨rfl, rfl⟩ (rfl : c.Flows [] c) ?_
  rintro b e others ⟨rfl, rfl⟩ rfl
  exact ⟨rfl, rfl⟩

/-- **One parser after another.** -/
theorem bind {next : α → Parser β} {next' : α → Language β} (first : Spells parser c language)
    (rest : ∀ a middle before, language a before → c.Flows before middle →
      Spells (next a) middle (next' a)) :
    Spells (parser >>= next) c (language >>= next') := by
  intro b d
  rw [bind_eq_ok]
  constructor
  · rintro ⟨a, middle, ran, later⟩
    obtain ⟨before, spelled, flows⟩ := (first a middle).1 ran
    obtain ⟨after, spelled', flows'⟩ := (rest a middle before spelled flows b d).1 later
    exact ⟨_, ⟨a, before, after, spelled, spelled', rfl⟩, flows.append flows'⟩
  · rintro ⟨_, ⟨a, before, after, spelled, spelled', rfl⟩, flows⟩
    obtain ⟨middle, flows, flows'⟩ := Cursor.flows_append.1 flows
    exact ⟨a, middle, (first a middle).2 ⟨before, spelled, flows⟩,
      (rest a middle before spelled flows b d).2 ⟨after, spelled', flows'⟩⟩

/-- The result of a parser put into another. -/
theorem map {f : α → β} (first : Spells parser c language) :
    Spells (parser >>= fun a => Pure.pure (f a)) c (language >>= fun a => Pure.pure (f a)) :=
  first.bind fun a _ _ _ _ => pure (f a)

/-! ### Deciding -/

/-- What the second language spells does not stand here. -/
theorem left (first : Spells parser c language) (never : second.Opens (· ≠ c)) :
    Spells parser c (language <|> second) := by
  intro a d
  rw [first a d]
  constructor
  · rintro ⟨lexemes, spelled, flows⟩
    exact ⟨lexemes, .inl spelled, flows⟩
  · rintro ⟨lexemes, spelled | spelled, flows⟩
    · exact ⟨lexemes, spelled, flows⟩
    · exact absurd rfl (never a lexemes c d spelled flows)

/-- What the first language spells does not stand here. -/
theorem right (never : language.Opens (· ≠ c)) (later : Spells parser c second) :
    Spells parser c (language <|> second) := by
  intro a d
  rw [later a d]
  constructor
  · rintro ⟨lexemes, spelled, flows⟩
    exact ⟨lexemes, .inr spelled, flows⟩
  · rintro ⟨lexemes, spelled | spelled, flows⟩
    · exact absurd rfl (never a lexemes c d spelled flows)
    · exact ⟨lexemes, spelled, flows⟩

/-! ### Looking and moving -/

theorem head_bind {next : Option Char → Parser α} (spells : Spells (next c.head) c language) :
    Spells (head >>= next) c language :=
  spells

theorem position_bind {next : Position → Parser α}
    (spells : Spells (next c.position) c language) : Spells (position >>= next) c language :=
  spells

/-- Seeing something before going on. -/
theorem sight_bind {seen : Sight} (sees : seen.sees c.head c.second = true)
    (spells : Spells parser c language) :
    Spells parser c (Language.sight seen >>= fun _ => language) := by
  intro a d
  rw [spells a d]
  constructor
  · rintro ⟨lexemes, spelled, flows⟩
    refine ⟨_, ⟨(), [⟨.sight seen, c.position, []⟩], lexemes, ⟨_, rfl⟩, spelled, rfl⟩, ?_⟩
    exact ⟨⟨rfl, rfl, sees⟩, flows⟩
  · rintro ⟨_, ⟨_, _, lexemes, ⟨start, rfl⟩, spelled, rfl⟩, _, flows⟩
    exact ⟨lexemes, spelled, flows⟩

/-- Something that holds anyway. -/
theorem guard_bind {holds : Prop} (here : holds) (spells : Spells parser c language) :
    Spells parser c (Language.guard holds >>= fun _ => language) := by
  intro a d
  rw [spells a d]
  constructor
  · rintro ⟨lexemes, spelled, flows⟩
    exact ⟨_, ⟨(), [], lexemes, ⟨here, rfl⟩, spelled, rfl⟩, flows⟩
  · rintro ⟨_, ⟨_, _, lexemes, ⟨_, none⟩, spelled, whole⟩, flows⟩
    rw [whole, none] at flows
    exact ⟨lexemes, spelled, flows⟩

theorem skip : Spells skip c Language.gap := by
  have spelled : Language.gap () [⟨.gap false, c.position, triviaText c.rest⟩] := ⟨_, _, rfl⟩
  have flows : c.Flows [⟨.gap false, c.position, triviaText c.rest⟩] _ := ⟨⟨rfl, rfl⟩, rfl⟩
  refine of_run rfl spelled flows ?_
  rintro _ e _ ⟨start, text, rfl⟩ ⟨⟨_, same⟩, rfl⟩
  exact ⟨rfl, congrArg c.behind same⟩

/-- Passing over the character that stands at the cursor. -/
theorem advance_bind {x : Char} {next : Unit → Parser α} {next' : Position → Language α}
    (found : c.head = some x) (inLine : x ≠ '\r' ∧ x ≠ '\n')
    (rest : Spells (next ()) (c.behind [x]) (next' c.position)) :
    Spells (advance >>= next) c (Language.sign x >>= next') := by
  intro b d
  have ran : (advance >>= next) c = next () (c.behind [x]) := by
    show next () (c.behind (c.rest.take 1)) = _
    rw [Cursor.take_one_of_head found]
  rw [ran, rest b d]
  constructor
  · rintro ⟨lexemes, spelled, flows⟩
    refine ⟨_, ⟨c.position, [⟨.sign, c.position, [x]⟩], lexemes, rfl, spelled, rfl⟩, ?_⟩
    exact ⟨⟨rfl, x, rfl, found, inLine⟩, flows⟩
  · rintro ⟨_, ⟨start, _, lexemes, rfl, spelled, rfl⟩, ⟨same, _⟩, flows⟩
    obtain rfl : start = c.position := same
    exact ⟨lexemes, spelled, flows⟩

/-- Taking the character that stands at the cursor, whatever it is. -/
theorem anySign_bind {x : Char} {next : List Char → Parser α}
    {next' : Char × Position → Language α} (found : c.head = some x)
    (inLine : x ≠ '\r' ∧ x ≠ '\n')
    (rest : Spells (next [x]) (c.behind [x]) (next' (x, c.position))) :
    Spells ((take fun rest => rest.take 1) >>= next) c (Language.anySign >>= next') := by
  intro b d
  have ran : ((take fun rest => rest.take 1) >>= next) c = next [x] (c.behind [x]) := by
    show next (c.rest.take 1) (c.behind (c.rest.take 1)) = _
    rw [Cursor.take_one_of_head found]
  rw [ran, rest b d]
  constructor
  · rintro ⟨lexemes, spelled, flows⟩
    refine ⟨_, ⟨(x, c.position), [⟨.sign, c.position, [x]⟩], lexemes, rfl, spelled, rfl⟩, ?_⟩
    exact ⟨⟨rfl, x, rfl, found, inLine⟩, flows⟩
  · rintro ⟨_, ⟨⟨y, place⟩, _, lexemes, rfl, spelled, rfl⟩, ⟨same, z, text, head, _⟩, flows⟩
    obtain rfl : place = c.position := same
    obtain rfl : y = x := by
      cases text
      simpa [found] using head.symm
    exact ⟨lexemes, spelled, flows⟩

/-- A character that has to stand at the cursor. -/
theorem expect_bind {x : Char} {parsing : Option Construct} {start : Option Position}
    {next : Unit → Parser α} {next' : Position → Language α} (inLine : x ≠ '\r' ∧ x ≠ '\n')
    (rest : c.head = some x → Spells (next ()) (c.behind [x]) (next' c.position)) :
    Spells (expect x parsing start >>= next) c (Language.sign x >>= next') := by
  by_cases found : c.head = some x
  · have ran : (expect x parsing start >>= next) c = (advance >>= next) c := by
      show ((if c.head = some x then advance else fail [.char x] parsing start) >>= next) c = _
      rw [if_pos found]
    intro b d
    rw [ran]
    exact advance_bind found inLine (rest found) b d
  · have failed : (expect x parsing start >>= next) c = .error (.malformed
        ⟨c.position, .ofHead c.head, [.char x], parsing, start⟩) := by
      show ((if c.head = some x then advance else fail [.char x] parsing start) >>= next) c = _
      rw [if_neg found]
      rfl
    exact of_failed failed (((Language.opens_sign x).bind next').ne found)

/-! ### Failing -/

theorem fail {expected : List Expectation} {parsing : Option Construct} {start : Option Position}
    (never : language.Opens (· ≠ c)) : Spells (Parser.fail expected parsing start) c language :=
  of_failed rfl never

theorem fail_bind {expected : List Expectation} {parsing : Option Construct}
    {start : Option Position} {next : β → Parser α} (never : language.Opens (· ≠ c)) :
    Spells (Parser.fail expected parsing start >>= next) c language :=
  of_failed rfl never

theorem failAt_bind {word : Word} {expected : List Expectation} {parsing : Option Construct}
    {next : β → Parser α} (never : language.Opens (· ≠ c)) :
    Spells (Parser.failAt word expected parsing >>= next) c language :=
  of_failed rfl never

theorem failAt {word : Word} {expected : List Expectation} {parsing : Option Construct} :
    Spells (failAt word expected parsing : Parser α) c Language.nothing :=
  of_failed rfl fun _ _ _ _ spelled => spelled.elim

/-! ### Words -/

theorem word {allowed : Char → Bool} {kind : LexemeKind} (found : c.head.any allowed = true)
    (fits : ∀ {start text}, Lexeme.Fits c ⟨kind, start, text⟩ ↔
      text = c.rest.takeWhile allowed ∧ text ≠ []) :
    Spells (word allowed) c fun word lexemes =>
      lexemes = [⟨kind, word.start, word.content.toList⟩] := by
  have run : Parser.word allowed c = .ok (⟨String.ofList (c.rest.takeWhile allowed), c.position⟩,
      c.behind (c.rest.takeWhile allowed)) := rfl
  have stands : Lexeme.Fits c ⟨kind, c.position, c.rest.takeWhile allowed⟩ :=
    fits.2 ⟨rfl, Cursor.takeWhile_ne_nil found⟩
  have flows : c.Flows [⟨kind, c.position, c.rest.takeWhile allowed⟩] _ := ⟨⟨rfl, stands⟩, rfl⟩
  refine of_run run (by rw [String.toList_ofList]) flows ?_
  rintro ⟨content, start⟩ e _ rfl ⟨⟨position, stands'⟩, rfl⟩
  have same : content.toList = c.rest.takeWhile allowed := (fits.1 stands').1
  obtain rfl : start = c.position := position
  exact ⟨by rw [← same, String.ofList_toList], congrArg c.behind same⟩

theorem name : Spells name c Language.name := by
  refine head_bind ?_
  split
  · next found => exact word found Iff.rfl
  · next missing =>
    exact fail (Language.opens_name.mono fun d found same => missing (same ▸ found))

theorem literal (found : c.head.any isValueChar = true) :
    Spells (Parser.word isValueChar) c Language.literal :=
  word found Iff.rfl

/-! ### Escaped text -/

/-- Escaped text is one lexeme if its scan closes, and otherwise there is none. -/
theorem escapedText (found : c.head = some '\x60') :
    Spells escapedText c Language.escaped := by
  have ran := Agrees.run_escapedText c
  dsimp only at ran
  rw [Cursor.take_one_of_head found, c.behind_one_rest '\x60'] at ran
  cases scan : scanEscaped c.position.col 0 c.rest.tail with
  | mk content passed ending =>
    rw [scan] at ran
    have closed {text : EscapedText} {others : List Lexeme} {e : Cursor}
        (spelled : Language.escaped text others) (flows : c.Flows others e) :
        text.start = c.position ∧ text.text.start = c.position.after '\x60' ∧
          e = c.behind ('\x60' :: passed) ∧
          EscapedScan.mk content passed ending = ⟨text.text.content.toList, passed, .closed⟩ := by
      obtain ⟨written, rfl, inside⟩ := spelled
      obtain ⟨⟨start, front, shown, _, scan'⟩, rfl⟩ := flows
      rw [scan] at scan'
      cases scan'
      have start : text.start = c.position := start
      exact ⟨start, start ▸ inside, congrArg c.behind shown, rfl⟩
    cases ending with
    | closed =>
      have spelled : Language.escaped
          ⟨c.position, ⟨String.ofList content, c.position.after '\x60'⟩⟩
          [⟨.escaped content, c.position, '\x60' :: passed⟩] :=
        ⟨_, by rw [String.toList_ofList], rfl⟩
      have flows : c.Flows [⟨.escaped content, c.position, '\x60' :: passed⟩]
          ((c.behind ['\x60']).behind passed) :=
        ⟨⟨rfl, passed, rfl, found, scan⟩, (Cursor.behind_append ['\x60'] passed c).symm⟩
      refine of_run ran spelled flows fun text e others spelled' flows' => ?_
      obtain ⟨start, inside, rfl, same⟩ := closed spelled' flows'
      have shown : content = text.text.content.toList := congrArg EscapedScan.content same
      refine ⟨?_, Cursor.behind_append ['\x60'] passed c⟩
      obtain ⟨first, run, inner⟩ := text
      dsimp only at start inside shown
      rw [shown, String.ofList_toList, start, inside]
      rfl
    | unclosed =>
      refine of_failed ran fun text others _ e spelled flows same => ?_
      subst same
      cases (closed spelled flows).2.2.2
    | unpadded =>
      refine of_failed ran fun text others _ e spelled flows same => ?_
      subst same
      cases (closed spelled flows).2.2.2

/-! ### Repeating -/

section Repetition

variable {step : Parser (Round α)} {round : Language (Round α)}

/-- What rounds read is spelled. -/
theorem spelled_of_rounds (spells : ∀ here, Spells step here round) {left : Nat} {items : List α}
    {d : Cursor} (ran : rounds step left c = .ok (items, d)) :
    ∃ lexemes, Language.rounds round items lexemes ∧ c.Flows lexemes d := by
  induction left generalizing c items with
  | zero => cases ran
  | succ left ih =>
    obtain ⟨result, middle, first, later⟩ := bind_eq_ok.1 ran
    obtain ⟨lexemes, spelled, flows⟩ := (spells c result middle).1 first
    cases result with
    | stop =>
      cases later
      exact ⟨lexemes, .stop spelled, flows⟩
    | pass =>
      obtain ⟨more, spelled', flows'⟩ := ih later
      exact ⟨_, .pass spelled spelled', flows.append flows'⟩
    | item a =>
      obtain ⟨others, last, later, same⟩ := bind_eq_ok.1 later
      cases same
      obtain ⟨more, spelled', flows'⟩ := ih later
      exact ⟨_, .item spelled spelled', flows.append flows'⟩

/-- What is spelled is read by enough rounds, since a step that goes on has moved. -/
theorem rounds_of_spelled (spells : ∀ here, Spells step here round)
    (goes : ∀ here, round.Goes here) {left : Nat} {items : List α}
    {lexemes : List Lexeme} {d : Cursor} (spelled : Language.rounds round items lexemes)
    (flows : c.Flows lexemes d) (enough : c.rest.length < left) :
    rounds step left c = .ok (items, d) := by
  induction spelled generalizing c left with
  | stop last =>
    obtain ⟨left, rfl⟩ := Nat.exists_eq_add_of_lt (Nat.zero_lt_of_lt enough)
    exact bind_eq_ok.2 ⟨_, _, (spells c _ _).2 ⟨_, last, flows⟩, rfl⟩
  | pass first later ih =>
    obtain ⟨left, rfl⟩ := Nat.exists_eq_add_of_lt (Nat.zero_lt_of_lt enough)
    obtain ⟨middle, flows, flows'⟩ := Cursor.flows_append.1 flows
    have shorter := (goes _ _ _ _ first flows).resolve_left (by simp)
    refine bind_eq_ok.2 ⟨_, _, (spells c _ _).2 ⟨_, first, flows⟩, ?_⟩
    exact ih flows' (by omega)
  | item first later ih =>
    obtain ⟨left, rfl⟩ := Nat.exists_eq_add_of_lt (Nat.zero_lt_of_lt enough)
    obtain ⟨middle, flows, flows'⟩ := Cursor.flows_append.1 flows
    have shorter := (goes _ _ _ _ first flows).resolve_left (by simp)
    refine bind_eq_ok.2 ⟨_, _, (spells c _ _).2 ⟨_, first, flows⟩, ?_⟩
    exact bind_eq_ok.2 ⟨_, _, ih flows' (by omega), rfl⟩

/-- **A repetition.** -/
theorem many (spells : ∀ here, Spells step here round)
    (goes : ∀ here, round.Goes here) :
    Spells (many step) c (Language.rounds round) := by
  intro _ _
  constructor
  · exact spelled_of_rounds spells
  · rintro ⟨_, spelled, flows⟩
    exact rounds_of_spelled spells goes spelled flows (Nat.lt_succ_self _)

/-- A repetition that goes on wherever a sign stands. -/
theorem whileAt {x : Char} {taken : Parser (Round α)} {items : Language (Round α)}
    (clear : beginsTrivia x = false) (opens : items.Opens fun here => here.head = some x)
    (moves : ∀ here, items.Moves here)
    (spells : ∀ here, here.head = some x → Spells taken here items) :
    Spells (Parser.many do
      if (← head) = some x then
        taken
      else
        return .stop) c (Language.rounds (items <|> (do
      Language.sight (.avoids [x])
      return .stop))) := by
  refine many (fun here => head_bind ?_) ?_
  · by_cases found : here.head = some x
    · rw [if_pos found]
      refine left (spells here found) (((Language.opens_sight _).bind _).ne ?_)
      simp [Sight.sees, found]
    · rw [if_neg found]
      exact right (opens.ne found) (sight_bind (Sight.sees_avoids clear found) (pure _))
  · exact fun here => (moves here).goes.orElse (Language.goes_stop _)

end Repetition

end Spells

end TypedMarkup.Parser
