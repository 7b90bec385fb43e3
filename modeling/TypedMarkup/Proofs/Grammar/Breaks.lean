/-
**Where parsers break off.** A parser that fails has passed over a text that can be completed: other
characters could have stood where the error is, and then it would have gone on.

* `Language.Viable language follow p text`: something can be written behind the text, from the place
  on and before whatever shows one of `follow`, so that all of it is in the language.
* `Parser.Breaks least parser c language follow`: where the parser fails at a cursor, the text up to
  the error is viable, or there is none; and it has at least so many characters.
* `Breaks.bind` chains parsers. It takes the text of the first on with what the second has passed
  over, or finishes both if the second has passed over nothing.
-/

import TypedMarkup.Proofs.Grammar.Finishes

namespace TypedMarkup

open Lexeme (Writes Kept textOf)
open Text (Shows)

/-- Something can be written behind a text, so that it is in the language and can be followed. -/
def Language.Viable {α : Type} (language : Language α) (follow : List (Option Char)) (p : Position)
    (text : List Char) : Prop :=
  ∃ more a lexemes, language a lexemes ∧ ∀ rest, Shows follow rest →
    isQuiet (more ++ rest).head? = true ∧ Writes lexemes (text ++ more) p rest

namespace Parser

variable {α β : Type} {parser : Parser α} {c : Cursor} {language second : Language α}
  {least : Nat} {middle follow : List (Option Char)}

/-- What a parser reads at a cursor is spelled in a language. -/
def Yields (parser : Parser α) (c : Cursor) (language : Language α) : Prop :=
  ∀ a d, parser c = .ok (a, d) → ∃ lexemes, language a lexemes ∧ c.Flows lexemes d

theorem Spells.yields (spells : Spells parser c language) : Yields parser c language :=
  fun a d ran => (spells a d).1 ran

theorem Yields.bind {next : α → Parser β} {next' : α → Language β}
    (first : Yields parser c language) (rest : ∀ a middle, Yields (next a) middle (next' a)) :
    Yields (parser >>= next) c (language >>= next') := by
  intro b d ran
  obtain ⟨a, middle, ran, later⟩ := bind_eq_ok.1 ran
  obtain ⟨before, spelled, flows⟩ := first a middle ran
  obtain ⟨after, spelled', flows'⟩ := rest a middle b d later
  exact ⟨before ++ after, ⟨a, before, after, spelled, spelled', rfl⟩, flows.append flows'⟩

/-- What a parser reads, a deeper one reads. -/
theorem Approximates.yields {deeper : Parser α} (approximates : parser.Approximates deeper)
    (spells : Spells deeper c language) : Yields parser c language := by
  intro a d ran
  rcases approximates c with exhausted | same
  · rw [exhausted] at ran
    cases ran
  · exact (spells a d).1 (same ▸ ran)

/-- Where a parser fails at a cursor, it has passed over a viable text of at least so many characters,
or over nothing. -/
def Breaks (least : Nat) (parser : Parser α) (c : Cursor) (language : Language α)
    (follow : List (Option Char)) : Prop :=
  ∀ error, parser c = .error (.malformed error) → ∃ text, least ≤ text.length ∧
    text <+: c.rest ∧ error.position = c.position.past text ∧
      (text ≠ [] → language.Viable follow c.position text)

namespace Breaks

/-- A parser that fails at its cursor, or not at all. -/
theorem of_here (here : ∀ error, parser c = .error (.malformed error) →
    error.position = c.position) : Breaks 0 parser c language follow := by
  intro error failed
  exact ⟨[], Nat.zero_le _, List.nil_prefix, here error failed, fun some => absurd rfl some⟩

/-- A parser that does not fail. -/
theorem of_ok {a : α} {d : Cursor} (ran : parser c = .ok (a, d)) :
    Breaks least parser c language follow := by
  intro error failed
  rw [ran] at failed
  cases failed

theorem pure (a : α) : Breaks least (Pure.pure a) c language follow :=
  of_ok rfl

theorem fail {expected : List Expectation} {parsing : Option Construct} {start : Option Position} :
    Breaks 0 (Parser.fail expected parsing start) c language follow := by
  refine of_here fun error failed => ?_
  cases failed
  rfl

theorem fail_bind {expected : List Expectation} {parsing : Option Construct}
    {start : Option Position} {next : β → Parser α} :
    Breaks 0 (Parser.fail expected parsing start >>= next) c language follow := by
  refine of_here fun error failed => ?_
  cases failed
  rfl

theorem mono {fewer : Nat} (breaks : Breaks least parser c language follow)
    (less : fewer ≤ least) : Breaks fewer parser c language follow := by
  intro error failed
  obtain ⟨text, long, stands⟩ := breaks error failed
  exact ⟨text, Nat.le_trans less long, stands⟩

theorem congr {parser' : Parser α} (breaks : Breaks least parser c language follow)
    (same : parser' c = parser c) : Breaks least parser' c language follow := by
  intro error failed
  exact breaks error (same ▸ failed)

/-- What can be followed in more ways can be followed in fewer. -/
theorem before {less : List (Option Char)} (breaks : Breaks least parser c language follow)
    (sub : less ⊆ follow) : Breaks least parser c language less := by
  intro error failed
  obtain ⟨text, long, stands, position, viable⟩ := breaks error failed
  refine ⟨text, long, stands, position, fun some => ?_⟩
  obtain ⟨more, a, lexemes, spelled, writes⟩ := viable some
  exact ⟨more, a, lexemes, spelled, fun rest shows' => writes rest (shows'.mono sub)⟩

/-- What is viable in a language is viable in a larger one. -/
theorem weaken (breaks : Breaks least parser c language follow)
    (sub : ∀ a lexemes, language a lexemes → second a lexemes) :
    Breaks least parser c second follow := by
  intro error failed
  obtain ⟨text, long, stands, position, viable⟩ := breaks error failed
  refine ⟨text, long, stands, position, fun some => ?_⟩
  obtain ⟨more, a, lexemes, spelled, writes⟩ := viable some
  exact ⟨more, a, lexemes, sub a lexemes spelled, writes⟩

theorem left (breaks : Breaks least parser c language follow) :
    Breaks least parser c (language <|> second) follow :=
  breaks.weaken fun _ _ => .inl

theorem right (breaks : Breaks least parser c second follow) :
    Breaks least parser c (language <|> second) follow :=
  breaks.weaken fun _ _ => .inr

/-! ### Sequences -/

/-- Behind a parser that has read something. -/
theorem ok_bind {next : α → Parser β} {next' : α → Language β} {a : α} {there : Cursor}
    {before : List Lexeme} (ran : parser c = .ok (a, there)) (spelled : language a before)
    (flows : c.Flows before there) (kept : 2 ≤ least ∨ Kept c before there middle)
    (finishes : least = 0 → (next' a).Finishes middle follow)
    (rest : Breaks least (next a) there (next' a) follow) :
    Breaks (least + (textOf before).length) (parser >>= next) c (language >>= next') follow := by
  intro error failed
  have later : next a there = .error (.malformed error) := by
    have unfolded : (parser >>= next) c = (parser c >>= fun result => next result.1 result.2) := rfl
    rw [unfolded, ran] at failed
    exact failed
  obtain ⟨text, long, ⟨tail, split⟩, position, viable⟩ := rest error later
  obtain ⟨whole, place⟩ := flows.rest_eq
  refine ⟨textOf before ++ text, ?_, ⟨tail, ?_⟩, ?_, fun some => ?_⟩
  · rw [List.length_append]
    omega
  · rw [List.append_assoc, split, whole]
  · rw [position, place, Position.past_append]
  by_cases none : text = []
  · -- Nothing has been passed over behind what was read, so both are finished.
    subst none
    rw [List.append_nil] at some ⊢
    have kept : Kept c before there middle := kept.resolve_left fun two => by
      rw [List.length_nil] at long
      omega
    obtain ⟨closing, first⟩ := kept.closed some
    obtain ⟨b, lexemes, more, spelled', second⟩ := finishes (Nat.le_zero.1 long)
    refine ⟨closing ++ more, b, before ++ lexemes, ⟨a, before, lexemes, spelled, spelled', rfl⟩,
      fun rest shows' => ?_⟩
    obtain ⟨quiet, writes⟩ := first (more ++ rest) (second Position.start rest shows').2
    rw [List.append_assoc, ← List.append_assoc (textOf before)]
    exact ⟨quiet, writes.append (second _ rest shows').1⟩
  · obtain ⟨more, b, lexemes, spelled', second⟩ := viable none
    refine ⟨more, b, before ++ lexemes, ⟨a, before, lexemes, spelled, spelled', rfl⟩,
      fun rest shows' => ?_⟩
    obtain ⟨quiet, writes⟩ := second rest shows'
    refine ⟨quiet, ?_⟩
    rw [List.append_assoc]
    refine Writes.append ?_ (place ▸ writes)
    rw [List.append_assoc]
    rcases kept with two | kept
    · refine Lexeme.writes_of_beginsSame flows (split ▸ Text.beginsSame_of_front ?_ _ _)
      exact Nat.le_trans two long
    · exact kept.like _ (split ▸ Text.beginsLike_of_front none quiet)

/-- **One parser after another.** -/
theorem bind {next : α → Parser β} {next' : α → Language β} (yields : Yields parser c language)
    (kept : 2 ≤ least ∨ language.Keeps c middle) (first : Breaks least parser c language middle)
    (finishes : ∀ a, (next' a).Finishes middle follow)
    (rest : ∀ a there before, language a before → c.Flows before there →
      Breaks least (next a) there (next' a) follow) :
    Breaks least (parser >>= next) c (language >>= next') follow := by
  cases ran : parser c with
  | ok result =>
    obtain ⟨a, there⟩ := result
    obtain ⟨before, spelled, flows⟩ := yields a there ran
    refine mono (ok_bind ran spelled flows ?_ (fun _ => finishes a) ?_) (Nat.le_add_right _ _)
    · exact kept.imp_right fun keeps => keeps a before there spelled flows
    · exact rest a there before spelled flows
  | error failure =>
    intro error failed
    have unfolded : (parser >>= next) c = (parser c >>= fun result => next result.1 result.2) := rfl
    rw [unfolded, ran] at failed
    cases failed
    obtain ⟨text, long, stands, position, viable⟩ := first error ran
    refine ⟨text, long, stands, position, fun some => ?_⟩
    obtain ⟨more, a, lexemes, spelled, writes⟩ := viable some
    obtain ⟨b, lexemes', more', spelled', later⟩ := finishes a
    refine ⟨more ++ more', b, lexemes ++ lexemes', ⟨a, lexemes, lexemes', spelled, spelled', rfl⟩,
      fun rest shows' => ?_⟩
    obtain ⟨quiet, first⟩ := writes (more' ++ rest) (later Position.start rest shows').2
    rw [List.append_assoc, ← List.append_assoc text]
    exact ⟨quiet, first.append (later _ rest shows').1⟩

/-- The result of a parser put into another. -/
theorem map {f : α → β} (breaks : Breaks least parser c language follow) :
    Breaks least (parser >>= fun a => Pure.pure (f a)) c (language >>= fun a => Pure.pure (f a))
      follow := by
  intro error failed
  have failed' : parser c = .error (.malformed error) := by
    have unfolded : (parser >>= fun a => Pure.pure (f a)) c =
      (parser c >>= fun result => Except.ok (f result.1, result.2)) := rfl
    rw [unfolded] at failed
    cases ran : parser c with
    | ok result =>
      rw [ran] at failed
      cases failed
    | error failure =>
      rw [ran] at failed
      cases failed
      rfl
  obtain ⟨text, long, stands, position, viable⟩ := breaks error failed'
  refine ⟨text, long, stands, position, fun some => ?_⟩
  obtain ⟨more, a, lexemes, spelled, writes⟩ := viable some
  exact ⟨more, f a, lexemes, Language.map_iff.2 ⟨a, spelled, rfl⟩, writes⟩

/-! ### Looking and moving -/

theorem head_bind {next : Option Char → Parser α}
    (breaks : Breaks least (next c.head) c language follow) :
    Breaks least (head >>= next) c language follow :=
  breaks

theorem position_bind {next : Position → Parser α}
    (breaks : Breaks least (next c.position) c language follow) :
    Breaks least (position >>= next) c language follow :=
  breaks

/-- What is seen at a cursor is seen where more is written behind what has been passed over. -/
theorem sight_bind {seen : Sight} (sees : seen.sees c.head c.second = true)
    (breaks : Breaks least parser c language follow) :
    Breaks least parser c (Language.sight seen >>= fun _ => language) follow := by
  intro error failed
  obtain ⟨text, long, ⟨tail, split⟩, position, viable⟩ := breaks error failed
  refine ⟨text, long, ⟨tail, split⟩, position, fun some => ?_⟩
  obtain ⟨more, a, lexemes, spelled, writes⟩ := viable some
  refine ⟨more, a, ⟨.sight seen, c.position, []⟩ :: lexemes, ⟨(), [_], lexemes, ⟨_, rfl⟩, spelled, rfl⟩,
    fun rest shows' => ?_⟩
  obtain ⟨quiet, later⟩ := writes rest shows'
  have like : Text.BeginsLike c.rest (text ++ (more ++ rest)) :=
    split ▸ Text.beginsLike_of_front some quiet
  have first : Writes [⟨.sight seen, c.position, []⟩] [] c.position (text ++ more ++ rest) := by
    rw [List.append_assoc]
    exact .single ⟨rfl, like.sees sees⟩ rfl
  exact ⟨quiet, first.append later⟩

theorem guard_bind {holds : Prop} (here : holds)
    (breaks : Breaks least parser c language follow) :
    Breaks least parser c (Language.guard holds >>= fun _ => language) follow := by
  refine breaks.weaken fun _ lexemes spelled => ?_
  exact ⟨(), [], lexemes, ⟨here, rfl⟩, spelled, rfl⟩

/-- Skipping never fails. -/
theorem skip_bind {next : Unit → Parser α} {next' : Unit → Language α}
    (finishes : (next' ()).Finishes middle follow) (ends : (LexemeKind.gap false).Ends middle)
    (rest : ∀ there, trivia? there.rest = none → Breaks 0 (next ()) there (next' ()) follow) :
    Breaks 0 (skip >>= next) c (Language.gap >>= next') follow := by
  refine bind Spells.skip.yields (.inr (.gap ends)) (of_ok rfl) (fun _ => finishes)
    fun _ there _ spelled flows => ?_
  exact rest there (Language.gap_ends spelled flows)

/-- A parser that passes over the one character that stands at the cursor: what comes behind it has
passed over one more. -/
theorem sign_bind {γ : Type} {x : Char} {u : γ} {a : β} {mover : Parser γ} {signs : Language β}
    {next : γ → Parser α} {next' : β → Language α} (found : c.head = some x)
    (inLine : x ≠ '\r' ∧ x ≠ '\n') (moved : mover c = .ok (u, c.behind [x]))
    (spelled : signs a [⟨.sign, c.position, [x]⟩]) (ends : LexemeKind.sign.Ends middle)
    (finishes : least = 0 → (next' a).Finishes middle follow)
    (rest : Breaks least (next u) (c.behind [x]) (next' a) follow) :
    Breaks (least + 1) (mover >>= next) c (signs >>= next') follow := by
  have stands : Lexeme.Stands c ⟨.sign, c.position, [x]⟩ := ⟨rfl, x, rfl, found, inLine⟩
  have flows : c.Flows [⟨.sign, c.position, [x]⟩] (c.behind [x]) := ⟨stands, rfl⟩
  have kept := Kept.single stands ends fun same => LexemeKind.noConfusion same
  -- The language may keep what the parser drops.
  have placed : (mover >>= fun _ => Pure.pure a : Parser β) c = .ok (a, c.behind [x]) :=
    bind_eq_ok.2 ⟨u, _, moved, rfl⟩
  have breaks : Breaks (least + 1) ((mover >>= fun _ => Pure.pure a : Parser β) >>= fun _ => next u)
      c (signs >>= next') follow :=
    ok_bind placed spelled flows (.inr kept) finishes rest
  refine breaks.congr ?_
  show (mover c >>= fun result => next result.1 result.2) =
    ((mover >>= fun _ => Pure.pure a : Parser β) c >>= fun result => next u result.2)
  rw [moved, placed]
  rfl

theorem advance_of_head {x : Char} (found : c.head = some x) :
    advance c = .ok ((), c.behind [x]) := by
  show Except.ok ((), c.behind (c.rest.take 1)) = _
  rw [Cursor.take_one_of_head found]

/-- Passing over the character that stands at the cursor. -/
theorem advance_bind {x : Char} {next : Unit → Parser α} {next' : Position → Language α}
    (found : c.head = some x) (inLine : x ≠ '\r' ∧ x ≠ '\n')
    (finishes : (next' c.position).Finishes middle follow) (ends : LexemeKind.sign.Ends middle)
    (rest : Breaks 0 (next ()) (c.behind [x]) (next' c.position) follow) :
    Breaks 0 (advance >>= next) c (Language.sign x >>= next') follow := by
  have spelled : Language.sign x c.position [⟨.sign, c.position, [x]⟩] := rfl
  exact (sign_bind found inLine (advance_of_head found) spelled ends (fun _ => finishes) rest).mono
    (Nat.zero_le _)

/-- Taking the character that stands at the cursor, whatever it is. -/
theorem anySign_bind {x : Char} {next : List Char → Parser α}
    {next' : Char × Position → Language α} (found : c.head = some x) (inLine : x ≠ '\r' ∧ x ≠ '\n')
    (finishes : (next' (x, c.position)).Finishes middle follow) (ends : LexemeKind.sign.Ends middle)
    (rest : Breaks 0 (next [x]) (c.behind [x]) (next' (x, c.position)) follow) :
    Breaks 0 ((take fun rest => rest.take 1) >>= next) c (Language.anySign >>= next') follow := by
  have moved : (take fun rest => rest.take 1) c = .ok ([x], c.behind [x]) := by
    show Except.ok (c.rest.take 1, c.behind (c.rest.take 1)) = _
    rw [Cursor.take_one_of_head found]
  have spelled : Language.anySign (x, c.position) [⟨.sign, c.position, [x]⟩] := rfl
  exact (sign_bind found inLine moved spelled ends (fun _ => finishes) rest).mono (Nat.zero_le _)

/-- A character that has to stand at the cursor. -/
theorem expect_bind {x : Char} {parsing : Option Construct} {start : Option Position}
    {next : Unit → Parser α} {next' : Position → Language α} (inLine : x ≠ '\r' ∧ x ≠ '\n')
    (finishes : ∀ p, (next' p).Finishes middle follow) (ends : LexemeKind.sign.Ends middle)
    (rest : Breaks 0 (next ()) (c.behind [x]) (next' c.position) follow) :
    Breaks 0 (expect x parsing start >>= next) c (Language.sign x >>= next') follow := by
  by_cases found : c.head = some x
  · have breaks := advance_bind found inLine (finishes _) ends rest
    refine breaks.congr ?_
    show ((if c.head = some x then advance else Parser.fail [.char x] parsing start) >>= next) c = _
    rw [if_pos found]
  · refine of_here fun error failed => ?_
    have stopped : (expect x parsing start >>= next) c =
        .error (.malformed ⟨c.position, .ofHead c.head, [.char x], parsing, start⟩) := by
      show ((if c.head = some x then advance else Parser.fail [.char x] parsing start) >>= next) c = _
      rw [if_neg found]
      rfl
    rw [stopped] at failed
    cases failed
    rfl

/-- Inside an ignored node. -/
theorem kept (breaks : Breaks least parser c language follow) :
    Breaks least parser c (Language.kept language) follow := by
  intro error failed
  obtain ⟨text, long, stands, position, viable⟩ := breaks error failed
  refine ⟨text, long, stands, position, fun some => ?_⟩
  obtain ⟨more, a, lexemes, spelled, writes⟩ := viable some
  exact ⟨more, a, lexemes.map Lexeme.keep, ⟨lexemes, spelled, rfl⟩, fun rest shows' =>
    (writes rest shows').imp_right (·.keep)⟩

/-! ### Words -/

theorem name : Breaks 0 name c Language.name follow := by
  refine head_bind ?_
  split
  · exact of_ok rfl
  · exact fail

theorem name_bind {next : Word → Parser α} {next' : Word → Language α}
    (finishes : ∀ word, (next' word).Finishes middle follow) (ends : LexemeKind.name.Ends middle)
    (rest : ∀ word there, Breaks 0 (next word) there (next' word) follow) :
    Breaks 0 (Parser.name >>= next) c (Language.name >>= next') follow := by
  refine bind Spells.name.yields (.inr (.name ends)) name finishes fun word there _ _ _ => ?_
  exact rest word there

/-- A word at the cursor that it depends on how to go on. -/
theorem word_bind {next : Word → Parser α} {next' : Word → Language α}
    (found : c.head.any isNameChar = true) (ends : LexemeKind.name.Ends middle)
    (rest : ∀ word there,
      (∀ error, next word there = .error (.malformed error) → error.position = word.start) ∨
      (next' word).Finishes middle follow ∧ Breaks 0 (next word) there (next' word) follow) :
    Breaks 0 (Parser.name >>= next) c (Language.name >>= next') follow := by
  obtain ⟨word, there, place, ran⟩ : ∃ word there, word.start = c.position ∧
      Parser.name c = .ok (word, there) := by
    refine ⟨⟨String.ofList (c.rest.takeWhile isNameChar), c.position⟩,
      c.behind (c.rest.takeWhile isNameChar), rfl, ?_⟩
    show (if c.head.any isNameChar then Parser.word isNameChar else
      Parser.fail [.construct .name] none none) c = _
    rw [if_pos found]
    rfl
  obtain ⟨before, spelled, flows⟩ := Spells.name.yields _ _ ran
  obtain here | ⟨finishes, later⟩ := rest word there
  · refine of_here fun error failed => place ▸ here error ?_
    have unfolded : (Parser.name >>= next) c =
      (Parser.name c >>= fun result => next result.1 result.2) := rfl
    rw [unfolded, ran] at failed
    exact failed
  · have kept := Language.Keeps.name ends _ before _ spelled flows
    exact (ok_bind ran spelled flows (.inr kept) (fun _ => finishes) later).mono (Nat.zero_le _)

/-! ### Repeating -/

section Repetition

variable {step : Parser (Round α)} {round : Language (Round α)}

/-- What follows a round of a repetition. -/
def goingOn (round : Language (Round α)) : Round α → Language (List α)
  | .stop => Pure.pure []
  | .pass => Language.rounds round
  | .item a => Language.rounds round >>= fun items => Pure.pure (a :: items)

/-- **A repetition.** -/
theorem many (yields : ∀ here, Yields step here round)
    (kept : 2 ≤ least ∨ ∀ here, round.Keeps here follow)
    (finishes : (Language.rounds round).Finishes follow follow)
    (each : ∀ here, Breaks least step here round follow) :
    Breaks least (Parser.many step) c (Language.rounds round) follow := by
  suffices some : ∀ left here, Breaks least (rounds step left) here (Language.rounds round) follow from
    some _ c
  intro left
  induction left with
  | zero =>
    intro here error failed
    cases failed
  | succ left ih =>
    intro here
    -- One round, and the others if it goes on.
    have breaks : Breaks least (rounds step (left + 1)) here (round >>= goingOn round) follow := by
      refine bind (yields here) (kept.imp_right fun keeps => keeps here) (each here) ?_ ?_
      · rintro (_ | _ | a)
        · exact .pure []
        · exact finishes
        · exact finishes.map
      · rintro (_ | _ | a) there _ _ _
        · exact pure []
        · exact ih there
        · exact (ih there).map
    refine breaks.weaken ?_
    rintro items _ ⟨(_ | _ | a), before, after, first, later, rfl⟩
    · obtain ⟨rfl, rfl⟩ := later
      exact (List.append_nil before).symm ▸ .stop first
    · exact .pass first later
    · obtain ⟨items', later', rfl⟩ := Language.map_iff.1 later
      exact .item first later'

/-- A repetition that goes on wherever a sign stands. -/
theorem whileAt {x : Char} {taken : Parser (Round α)} {items : Language (Round α)}
    (clear : beginsTrivia x = false)
    (yields : ∀ here, here.head = some x → Yields taken here items)
    (keeps : ∀ here, items.Keeps here follow) (ends : (LexemeKind.sight (.avoids [x])).Ends follow)
    (each : ∀ here, here.head = some x → Breaks 0 taken here items follow) :
    Breaks 0 (Parser.many do
      if (← head) = some x then
        taken
      else
        return .stop) c (Language.rounds (items <|> (do
      Language.sight (.avoids [x])
      return .stop))) follow := by
  refine many (fun here => ?_) (.inr fun here => (keeps here).orElse (.map (.sight ends)))
    (.items ends) fun here => head_bind ?_
  · intro result d ran
    have ran : (if here.head = some x then taken else return .stop) here = .ok (result, d) := ran
    split at ran
    · next found =>
      obtain ⟨lexemes, spelled, flows⟩ := yields here found result d ran
      exact ⟨lexemes, .inl spelled, flows⟩
    · next other =>
      obtain ⟨lexemes, spelled, flows⟩ :=
        (Spells.sight_bind (Sight.sees_avoids clear other) (Spells.pure _)).yields result d ran
      exact ⟨lexemes, .inr spelled, flows⟩
  · split
    · next found => exact left (each here found)
    · exact pure _

end Repetition

end Breaks

end Parser

end TypedMarkup
