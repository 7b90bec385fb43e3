/-
**Languages of lexemes.** A language relates results to the lexemes that spell them. Languages are
put together like parsers, but nothing in them runs: they only say what belongs together.

* `Language.sign`, `Language.gap` and the other lexemes are the smallest languages; sequences
  concatenate, `orElse` is either of two, and `Language.rounds` repeats.
* `Language.Opens language first` says that nothing spelled in it stands where `first` fails.
* `Language.Moves language here` says that what is spelled in it at a cursor is never empty.
-/

import TypedMarkup.Proofs.Grammar.Lexeme

namespace TypedMarkup

/-- Which lexemes spell which results. -/
def Language (α : Type) : Type :=
  α → List Lexeme → Prop

namespace Language

variable {α β : Type}

/-- Nothing. -/
def nothing : Language α :=
  fun _ _ => False

/-- Either of two languages. -/
instance : OrElse (Language α) :=
  ⟨fun first second a lexemes => first a lexemes ∨ second () a lexemes⟩

/-- One language after the other. -/
instance : Monad Language where
  pure a := fun b lexemes => b = a ∧ lexemes = []
  bind first next := fun b lexemes => ∃ a before after,
    first a before ∧ next a b after ∧ lexemes = before ++ after

/-- Sequences are the same however they are grouped. -/
theorem bind_bind {γ : Type} (first : Language α) (next : α → Language β) (last : β → Language γ) :
    (first >>= next) >>= last = first >>= fun a => next a >>= last := by
  funext c lexemes
  refine propext ⟨?_, ?_⟩
  · rintro ⟨b, _, third, ⟨a, one, two, first, second, rfl⟩, third', rfl⟩
    exact ⟨a, one, two ++ third, first, ⟨b, two, third, second, third', rfl⟩, List.append_assoc ..⟩
  · rintro ⟨a, one, _, first, ⟨b, two, third, second, third', rfl⟩, rfl⟩
    exact ⟨b, one ++ two, third, ⟨a, one, two, first, second, rfl⟩, third',
      (List.append_assoc ..).symm⟩

theorem pure_then (a : α) (next : α → Language β) : (pure a >>= next) = next a := by
  funext b lexemes
  refine propext ⟨?_, fun spelled => ⟨a, [], lexemes, ⟨rfl, rfl⟩, spelled, rfl⟩⟩
  rintro ⟨_, _, after, ⟨rfl, rfl⟩, spelled, rfl⟩
  exact spelled

theorem map_iff {language : Language α} {f : α → β} {b : β} {lexemes : List Lexeme} :
    (language >>= fun a => pure (f a)) b lexemes ↔ ∃ a, language a lexemes ∧ b = f a := by
  constructor
  · rintro ⟨a, before, _, spelled, ⟨rfl, rfl⟩, rfl⟩
    exact ⟨a, by rwa [List.append_nil], rfl⟩
  · rintro ⟨a, spelled, rfl⟩
    exact ⟨a, lexemes, [], spelled, ⟨rfl, rfl⟩, (List.append_nil _).symm⟩

/-! ### Lexemes -/

/-- Trivia, or none. -/
def gap : Language Unit :=
  fun _ lexemes => ∃ start text, lexemes = [⟨.gap false, start, text⟩]

/-- The given character, and its place. -/
def sign (c : Char) : Language Position :=
  fun start lexemes => lexemes = [⟨.sign, start, [c]⟩]

/-- Any character that does not end a line, and its place. -/
def anySign : Language (Char × Position) :=
  fun (c, start) lexemes => lexemes = [⟨.sign, start, [c]⟩]

/-- A name. -/
def name : Language Word :=
  fun word lexemes => lexemes = [⟨.name, word.start, word.content.toList⟩]

/-- An unquoted value. -/
def literal : Language Word :=
  fun word lexemes => lexemes = [⟨.literal, word.start, word.content.toList⟩]

/-- Escaped text. -/
def escaped : Language EscapedText :=
  fun text lexemes => ∃ passed,
    lexemes = [⟨.escaped text.text.content.toList, text.start, passed⟩] ∧
    text.text.start = text.start.after '\x60'

/-- Text behind the first character of a run. -/
def plain : Language (List Char) :=
  fun text lexemes => ∃ start, lexemes = [⟨.plain, start, text⟩]

/-- A place where something is seen. -/
def sight (seen : Sight) : Language Unit :=
  fun _ lexemes => ∃ start, lexemes = [⟨.sight seen, start, []⟩]

/-- No lexemes, if something holds. -/
def guard (holds : Prop) : Language Unit :=
  fun _ lexemes => holds ∧ lexemes = []

/-- A language inside an ignored node. -/
def kept (language : Language α) : Language α :=
  fun a lexemes => ∃ inside, language a inside ∧ lexemes = inside.map Lexeme.keep

/-- Behind a gap there are no trivia. -/
theorem gap_ends {lexemes : List Lexeme} {c d : Cursor} (spelled : gap () lexemes)
    (flows : c.Flows lexemes d) : trivia? d.rest = none := by
  obtain ⟨start, text, rfl⟩ := spelled
  obtain ⟨⟨_, same⟩, rfl⟩ := flows
  obtain rfl : text = triviaText c.rest := same
  exact trivia?_drop_triviaText c.rest

/-- A name is the word at the cursor. -/
theorem content_of_name {word : Word} {lexemes : List Lexeme} {c d : Cursor}
    (spelled : name word lexemes) (flows : c.Flows lexemes d) :
    word.content = String.ofList (c.rest.takeWhile isNameChar) := by
  obtain rfl : lexemes = _ := spelled
  have taken : word.content.toList = c.rest.takeWhile isNameChar := flows.1.2.1
  rw [← taken, String.ofList_toList]

/-! ### Repetitions -/

open TypedMarkup.Parser (Round)

/-- Rounds up to one that stops, and the items of them. -/
inductive rounds (round : Language (Round α)) : Language (List α)
  | stop {lexemes : List Lexeme} (last : round .stop lexemes) : rounds round [] lexemes
  | pass {items : List α} {lexemes more : List Lexeme} (first : round .pass lexemes)
    (later : rounds round items more) : rounds round items (lexemes ++ more)
  | item {a : α} {items : List α} {lexemes more : List Lexeme} (first : round (.item a) lexemes)
    (later : rounds round items more) : rounds round (a :: items) (lexemes ++ more)

/-- Rounds begin with one of them. -/
theorem rounds_first {round : Language (Round α)} {items : List α} {lexemes : List Lexeme}
    (spelled : rounds round items lexemes) :
    ∃ result first more, round result first ∧ lexemes = first ++ more := by
  cases spelled with
  | stop last => exact ⟨_, _, [], last, (List.append_nil _).symm⟩
  | pass first later => exact ⟨_, _, _, first, rfl⟩
  | item first later => exact ⟨_, _, _, first, rfl⟩

/-- Where rounds end, the last of them has stopped. -/
theorem rounds_ends {round : Language (Round α)} {last : Cursor → Prop}
    (stops : ∀ lexemes c d, round .stop lexemes → Cursor.Flows c lexemes d → last d)
    {items : List α} {lexemes : List Lexeme} {c d : Cursor}
    (spelled : rounds round items lexemes) (flows : c.Flows lexemes d) : last d := by
  induction spelled generalizing c with
  | stop final => exact stops _ c d final flows
  | pass first later ih =>
    obtain ⟨middle, _, flows'⟩ := Cursor.flows_append.1 flows
    exact ih flows'
  | item first later ih =>
    obtain ⟨middle, _, flows'⟩ := Cursor.flows_append.1 flows
    exact ih flows'

/-! ### How a language opens -/

/-- What is spelled in a language stands only where something holds. -/
def Opens (language : Language α) (first : Cursor → Prop) : Prop :=
  ∀ a lexemes c d, language a lexemes → Cursor.Flows c lexemes d → first c

section Opens

variable {first other : Cursor → Prop}

theorem Opens.bind {language : Language α} (opens : language.Opens first)
    (next : α → Language β) : (language >>= next).Opens first := by
  rintro b _ c d ⟨a, before, after, spelled, _, rfl⟩ flows
  obtain ⟨middle, flows, _⟩ := Cursor.flows_append.1 flows
  exact opens a before c middle spelled flows

theorem Opens.mono {language : Language α} (opens : language.Opens first)
    (weaken : ∀ c, first c → other c) : language.Opens other := by
  intro a lexemes c d spelled flows
  exact weaken c (opens a lexemes c d spelled flows)

/-- Where `first` fails, nothing is spelled. -/
theorem Opens.ne {language : Language α} {c : Cursor} (opens : language.Opens first)
    (never : ¬ first c) : language.Opens (· ≠ c) :=
  opens.mono fun _ holds same => never (same ▸ holds)

theorem Opens.orElse {language second : Language α} (opens : language.Opens first)
    (opens' : second.Opens first) : (language <|> second).Opens first := by
  rintro a lexemes c d (spelled | spelled) flows
  · exact opens a lexemes c d spelled flows
  · exact opens' a lexemes c d spelled flows

theorem opens_sign (x : Char) : (sign x).Opens fun c => c.head = some x := by
  rintro start _ c d rfl ⟨⟨_, sign, text, head, _⟩, _⟩
  cases text
  exact head

theorem opens_name : name.Opens fun c => c.head.any isNameChar = true := by
  rintro word _ c d rfl ⟨⟨_, text, some⟩, _⟩
  have same := c.takeWhile_isEmpty isNameChar
  have nonempty : (c.rest.takeWhile isNameChar).isEmpty = false := by
    rw [← text]
    simpa using some
  rw [nonempty] at same
  simpa using same.symm

theorem opens_literal : literal.Opens fun c => c.head.any isValueChar = true := by
  rintro word _ c d rfl ⟨⟨_, text, some⟩, _⟩
  have same := c.takeWhile_isEmpty isValueChar
  have nonempty : (c.rest.takeWhile isValueChar).isEmpty = false := by
    rw [← text]
    simpa using some
  rw [nonempty] at same
  simpa using same.symm

theorem opens_escaped : escaped.Opens fun c => c.head = some '\x60' := by
  rintro text _ c d ⟨passed, rfl, _⟩ ⟨⟨_, _, _, head, _⟩, _⟩
  exact head

theorem opens_sight (seen : Sight) :
    (sight seen).Opens fun c => seen.sees c.head c.second = true := by
  rintro _ _ c d ⟨start, rfl⟩ ⟨⟨_, _, sees⟩, _⟩
  exact sees

theorem opens_guard {holds : Prop} (fails : ¬ holds) : (guard holds).Opens fun _ => False := by
  rintro _ _ c d ⟨here, _⟩ _
  exact fails here

theorem opens_nothing : (nothing : Language α).Opens first :=
  fun _ _ _ _ spelled _ => spelled.elim

/-- Nothing is spelled before something that is never spelled. -/
theorem Opens.never {language : Language α} {next : α → Language β}
    (never : ∀ a, (next a).Opens fun _ => False) : (language >>= next).Opens fun _ => False := by
  rintro b _ c d ⟨a, before, after, _, spelled, rfl⟩ flows
  obtain ⟨middle, _, flows⟩ := Cursor.flows_append.1 flows
  exact never a b after middle d spelled flows

/-- A word whose spelling does not matter is not spelled. -/
theorem opens_word {next : Word → Language β} {p : String → Prop}
    (never : ∀ word, ¬ p word.content → (next word).Opens fun _ => False) :
    (name >>= next).Opens fun c => p (String.ofList (c.rest.takeWhile isNameChar)) := by
  rintro b _ c d ⟨word, _, after, spelled, later, rfl⟩ flows
  obtain ⟨middle, flows, flows'⟩ := Cursor.flows_append.1 flows
  rw [← content_of_name spelled flows]
  exact Classical.byContradiction fun other => never word other b after middle d later flows'

theorem opens_kept {language : Language α} (opens : language.Opens first) :
    (kept language).Opens first := by
  rintro a _ c d ⟨inside, spelled, rfl⟩ flows
  exact opens a inside c d spelled (Cursor.flows_keep.1 flows)

end Opens

/-! ### Languages that move -/

section Moves

variable {here : Cursor}

/-- What is spelled from a cursor on has characters. -/
def Moves (language : Language α) (here : Cursor) : Prop :=
  ∀ a lexemes d, language a lexemes → here.Flows lexemes d → d.rest.length < here.rest.length

/-- What is spelled from a cursor on has characters, unless it ends a repetition. -/
def Goes (round : Language (Round α)) (here : Cursor) : Prop :=
  ∀ result lexemes d, round result lexemes → here.Flows lexemes d →
    result = .stop ∨ d.rest.length < here.rest.length

theorem moves_sign (x : Char) : (sign x).Moves here := by
  rintro start _ d rfl flows
  exact flows.shorter ⟨_, List.mem_singleton_self _, rfl⟩

theorem moves_anySign : anySign.Moves here := by
  rintro start _ d rfl flows
  exact flows.shorter ⟨_, List.mem_singleton_self _, rfl⟩

theorem moves_name : name.Moves here := by
  rintro word _ d rfl flows
  exact flows.shorter ⟨_, List.mem_singleton_self _, rfl⟩

theorem moves_escaped : escaped.Moves here := by
  rintro text _ d ⟨passed, rfl, _⟩ flows
  exact flows.shorter ⟨_, List.mem_singleton_self _, rfl⟩

theorem moves_plain : plain.Moves here := by
  rintro text _ d ⟨start, rfl⟩ flows
  exact flows.shorter ⟨_, List.mem_singleton_self _, rfl⟩

/-- Nothing is spelled where the language does not open. -/
theorem Opens.moves {language : Language α} {first : Cursor → Prop} (opens : language.Opens first)
    (never : ¬ first here) : language.Moves here := by
  intro a lexemes d spelled flows
  exact absurd (opens a lexemes here d spelled flows) never

theorem Moves.bind {language : Language α} (moves : language.Moves here)
    (next : α → Language β) : (language >>= next).Moves here := by
  rintro b _ d ⟨a, before, after, spelled, _, rfl⟩ flows
  obtain ⟨middle, flows, flows'⟩ := Cursor.flows_append.1 flows
  exact Nat.lt_of_le_of_lt flows'.reaches.length_le (moves a before middle spelled flows)

theorem Moves.after {first : Language α} {next : α → Language β}
    (moves : ∀ a there, (next a).Moves there) : (first >>= next).Moves here := by
  rintro b _ d ⟨a, before, after, _, spelled, rfl⟩ flows
  obtain ⟨middle, flows, flows'⟩ := Cursor.flows_append.1 flows
  exact Nat.lt_of_lt_of_le (moves a middle b after d spelled flows') flows.reaches.length_le

/-- What comes later has characters if it has none before it. -/
theorem Moves.later {first : Language α} {next : α → Language β}
    (moves : ∀ a, (next a).Moves here) : (first >>= next).Moves here := by
  rintro b _ d ⟨a, before, after, _, spelled, rfl⟩ flows
  obtain ⟨middle, flows, flows'⟩ := Cursor.flows_append.1 flows
  by_cases shorter : middle.rest.length < here.rest.length
  · exact Nat.lt_of_le_of_lt flows'.reaches.length_le shorter
  · obtain rfl := flows.reaches.eq_of_length_le (Nat.le_of_not_lt shorter)
    exact moves a b after d spelled flows'

theorem Moves.orElse {first second : Language α} (moves : first.Moves here)
    (moves' : second.Moves here) : (first <|> second).Moves here := by
  rintro a lexemes d (spelled | spelled) flows
  · exact moves a lexemes d spelled flows
  · exact moves' a lexemes d spelled flows

theorem Moves.rounds {round : Language (Round α)} (moves : round.Moves here) :
    (rounds round).Moves here := by
  intro items lexemes d spelled flows
  obtain ⟨result, first, more, begins, rfl⟩ := rounds_first spelled
  obtain ⟨middle, flows, flows'⟩ := Cursor.flows_append.1 flows
  exact Nat.lt_of_le_of_lt flows'.reaches.length_le (moves result first middle begins flows)

theorem Moves.goes {round : Language (Round α)} (moves : round.Moves here) : round.Goes here := by
  intro result lexemes d spelled flows
  exact .inr (moves result lexemes d spelled flows)

/-- What ends a repetition may be empty. -/
theorem goes_stop (language : Language β) :
    (language >>= fun _ => pure (Round.stop : Round α)).Goes here := by
  rintro result _ d ⟨_, _, _, _, ⟨rfl, _⟩, _⟩ _
  exact .inl rfl

theorem Goes.orElse {first second : Language (Round α)} (goes : first.Goes here)
    (goes' : second.Goes here) : (first <|> second).Goes here := by
  rintro result lexemes d (spelled | spelled) flows
  · exact goes result lexemes d spelled flows
  · exact goes' result lexemes d spelled flows

/-- Behind a gap the trivia of the source have ended. -/
theorem Goes.gap {next : Unit → Language (Round α)}
    (goes : ∀ there, trivia? there.rest = none → (next ()).Goes there) :
    (gap >>= next).Goes here := by
  rintro result _ d ⟨_, _, after, ⟨start, text, rfl⟩, spelled, rfl⟩ ⟨⟨_, same⟩, flows⟩
  obtain rfl : text = triviaText here.rest := same
  have front := (triviaText_stands here.rest).length_le
  refine (goes _ (trivia?_drop_triviaText here.rest) result after d spelled flows).imp_right ?_
  intro shorter
  have fewer := (Cursor.reaches_behind (triviaText_stands here.rest)).length_le
  exact Nat.lt_of_lt_of_le shorter fewer

/-- What is seen holds of what follows. -/
theorem Goes.sight {seen : Sight} {next : Unit → Language (Round α)}
    (goes : seen.sees here.head here.second = true → (next ()).Goes here) :
    (sight seen >>= next).Goes here := by
  rintro result _ d ⟨_, _, after, ⟨start, rfl⟩, spelled, rfl⟩ ⟨⟨_, _, sees⟩, flows⟩
  exact goes sees result after d spelled flows

end Moves

end Language

end TypedMarkup
