/-
**How a result can be written.** For a given result, a text is found that is read as something that
looks like it, wherever it is written.

* `Text.StartsWith`, `Text.Sees` and `Text.Clear` are what is known of a text: how it begins, what is
  seen there, and that no trivia stand there.
* `Lexeme.Writable lexemes ahead follow`: lexemes can be written from every place on, before whatever
  satisfies `follow`, and together they satisfy `ahead`.
* `Language.Renders language look a ahead follow`: so can lexemes of something that looks like `a`. It
  chains like `Language.Finishes`, but says which result is written.
* A gap is written without trivia where none begin behind it (`Renders.gap`), and otherwise as a line
  feed (`Renders.gap_feed`). What begins with a gap can be written either way (`Renders.feed`).
-/

import TypedMarkup.Proofs.Grammar.Finishes
import TypedMarkup.Proofs.Token.Escaping
import TypedMarkup.Proofs.Tree.WellFormed

namespace TypedMarkup

/-! ### What stands ahead -/

namespace Text

/-- A text that begins with some characters, behind which something holds. -/
def StartsWith (front : List Char) (follow : List Char → Prop) (text : List Char) : Prop :=
  ∃ rest, text = front ++ rest ∧ follow rest

/-- What items show that each begin with a sign, before what may follow them. -/
def aheadOf {α : Type} (list : List α) (sign : Char) (follow : List (Option Char)) :
    List (Option Char) :=
  match list with
  | [] => follow
  | _ :: _ => [some sign]

/-- A text at whose beginning something is seen. -/
def Sees (seen : Sight) (text : List Char) : Prop :=
  seen.sees text.head? text.tail.head? = true

/-- A text at whose beginning no trivia stand. -/
def Clear (text : List Char) : Prop :=
  trivia? text = none

variable {ahead : List (Option Char)} {follow : List Char → Prop} {text : List Char}

theorem StartsWith.shows {c : Char} {front : List Char} (starts : StartsWith (c :: front) follow text) :
    Shows [some c] text := by
  obtain ⟨rest, rfl, _⟩ := starts
  exact List.mem_singleton_self _

theorem aheadOf_subset {α : Type} {list : List α} {sign : Char} {more : List (Option Char)}
    (first : some sign ∈ more) (sub : ahead ⊆ more) : aheadOf list sign ahead ⊆ more := by
  cases list with
  | nil => exact sub
  | cons => exact List.cons_subset.2 ⟨first, List.nil_subset _⟩

/-- Items show their sign, or what follows them. -/
theorem Shows.of_aheadOf {α : Type} {list : List α} {sign : Char}
    (shows' : Shows (aheadOf list sign ahead) text) : Shows (some sign :: ahead) text := by
  have first : some sign ∈ some sign :: ahead := List.mem_cons_self
  exact shows'.mono (aheadOf_subset first (List.subset_cons_self _ _))

theorem Shows.clear (ends : (LexemeKind.gap false).Ends ahead) (shows' : Shows ahead text) :
    Clear text :=
  trivia?_of_head (by simpa [LexemeKind.endsAt] using ends _ shows')

theorem Shows.sees {seen : Sight} (ends : (LexemeKind.sight seen).Ends ahead)
    (shows' : Shows ahead text) : Sees seen text := by
  have before : Lexeme.EndsBefore [] text ⟨.sight seen, Position.start, []⟩ :=
    Lexeme.endsBefore_of_shows ends (fun _ same => LexemeKind.noConfusion same) shows'
  exact before

/-- No name goes on before characters that stand in none. -/
theorem Shows.endsName (ends : LexemeKind.name.Ends ahead) (shows' : Shows ahead text) :
    text.head?.any isNameChar = false := by
  have before : Lexeme.EndsBefore [] text ⟨.name, Position.start, []⟩ :=
    Lexeme.endsBefore_of_shows ends (fun _ same => LexemeKind.noConfusion same) shows'
  exact before

end Text

open Text (Clear Sees Shows StartsWith aheadOf)

/-- Text without a character that ends it is plain. -/
theorem Parser.plainText_of_forall {text : List Char} (inside : ∀ c ∈ text, endsText c = false) :
    plainText text = text := by
  induction text with
  | nil => rfl
  | cons c text ih =>
    obtain ⟨first, later⟩ := List.forall_mem_cons.1 inside
    have noBracket : text.head? ≠ some '[' := fun found => by
      cases later '[' (List.mem_of_head? found)
    rw [plainText_cons, first, ih later]
    simp [noBracket]

/-! ### Words -/

namespace Word

variable {allowed : Char → Bool} {word : Word} {rest : List Char}

/-- Before something else, a word of allowed characters is the longest one. -/
theorem ConsistsOf.takeWhile (consists : word.ConsistsOf allowed)
    (ends : rest.head?.any allowed = false) :
    word.content.toList = (word.content.toList ++ rest).takeWhile allowed := by
  have whole : (word.content.toList ++ []).takeWhile allowed = word.content.toList := by
    rw [List.takeWhile_append_of_pos consists.each, List.takeWhile_nil, List.append_nil]
  exact (takeWhile_front whole ends).symm

theorem IsName.isLiteral (isName : word.IsName) : word.IsLiteral :=
  ⟨isName.some, fun c member => isValueChar_of_isNameChar (isName.each c member)⟩

/-- A word that does not begin like a comment begins no trivia. -/
theorem IsClear.clear (isClear : word.IsClear) (isLiteral : word.IsLiteral)
    (ends : rest.head? ≠ some '*') : Clear (word.content.toList ++ rest) := by
  obtain ⟨c, more, split⟩ := List.exists_cons_of_ne_nil isLiteral.toList_ne_nil
  have allowed : isValueChar c = true := isLiteral.each c (split ▸ List.mem_cons_self ..)
  rw [split, List.cons_append]
  refine trivia?_other ?_ ?_ ?_
  · refine Bool.eq_false_iff.2 fun space => ?_
    simp only [isSpace, Bool.or_eq_true, beq_iff_eq] at space
    rcases space with ((rfl | rfl) | rfl) | rfl <;> cases allowed
  · rintro rfl
    exact isClear.line ⟨more, split.symm⟩
  · refine Bool.eq_false_iff.2 fun opens => ?_
    simp only [opensComment, Bool.and_eq_true, decide_eq_true_eq] at opens
    obtain ⟨rfl, star⟩ := opens
    cases more with
    | nil => exact ends star
    | cons d more =>
      obtain rfl : d = '*' := Option.some.inj star
      exact isClear.block ⟨more, split.symm⟩

end Word

/-! ### Writing lexemes -/

namespace Lexeme

variable {lexemes more : List Lexeme} {text rest : List Char} {p : Position}
  {ahead middle follow : List Char → Prop}

/-- Lexemes that begin with a gap without trivia can be written with a line feed in it. -/
theorem Writes.feed {start : Position} {trivia : List Char}
    (writes : Writes (⟨.gap false, start, trivia⟩ :: lexemes) text (p.past ['\n']) rest)
    (clear : Clear (text ++ rest)) :
    Writes (⟨.gap false, start, trivia⟩ :: lexemes) ('\n' :: text) p rest := by
  obtain ⟨_, same, flows⟩ := writes
  obtain ⟨x, more, rfl, first, later⟩ := List.map_eq_cons_iff.1 same
  obtain ⟨⟨place, fits⟩, flows⟩ := flows
  obtain ⟨kind, _, text'⟩ := x
  cases kind <;> simp only [relabel, mk.injEq, reduceCtorEq, false_and] at first
  obtain ⟨same, _⟩ := first
  cases same
  obtain rfl : text' = [] := fits.trans (triviaText_of_none clear)
  refine ⟨⟨.gap false, p, ['\n']⟩ :: more, ?_, ⟨rfl, ?_⟩, flows⟩
  · unfold Resemble
    rw [List.map_cons, List.map_cons, later]
    rfl
  · show ['\n'] = triviaText ('\n' :: (text ++ rest))
    rw [triviaText_space rfl, triviaText_of_none clear]

/-- Lexemes that can be written from every place on, before whatever may follow them. What is written
may depend on the place, but not on what follows. -/
def Writable (lexemes : List Lexeme) (ahead follow : List Char → Prop) : Prop :=
  ∀ p, ∃ text, ∀ rest, follow rest → Writes lexemes text p rest ∧ ahead (text ++ rest)

namespace Writable

theorem mono {ahead' follow' : List Char → Prop} (writable : Writable lexemes ahead follow)
    (weaken : ∀ text, ahead text → ahead' text) (strengthen : ∀ text, follow' text → follow text) :
    Writable lexemes ahead' follow' := by
  intro p
  obtain ⟨text, written⟩ := writable p
  refine ⟨text, fun rest follows => ?_⟩
  exact (written rest (strengthen rest follows)).imp_right (weaken _)

theorem nil : Writable [] follow follow :=
  fun _ => ⟨[], fun _ follows => ⟨.nil, follows⟩⟩

theorem append (first : Writable lexemes ahead middle) (second : Writable more middle follow) :
    Writable (lexemes ++ more) ahead follow := by
  intro p
  obtain ⟨text, written⟩ := first p
  obtain ⟨text', written'⟩ := second (p.past text)
  refine ⟨text ++ text', fun rest follows => ?_⟩
  obtain ⟨later, shown⟩ := written' rest follows
  obtain ⟨now, shown⟩ := written (text' ++ rest) shown
  exact ⟨now.append later, by rwa [List.append_assoc]⟩

theorem keep (writable : Writable lexemes ahead follow) :
    Writable (lexemes.map Lexeme.keep) ahead follow := by
  intro p
  obtain ⟨text, written⟩ := writable p
  exact ⟨text, fun rest follows => (written rest follows).imp_left Writes.keep⟩

/-- One lexeme, whose text is the same at every place. -/
theorem single {kind : LexemeKind} {text : List Char}
    (fits : ∀ p rest, follow rest →
      Fits ⟨text ++ rest, p⟩ ⟨kind, Position.start, text⟩) :
    Writable [⟨kind, Position.start, text⟩] (StartsWith text follow) follow := by
  intro p
  exact ⟨text, fun rest follows => ⟨.single (fits p rest follows) rfl, rest, rfl, follows⟩⟩

/-- One lexeme without characters. -/
theorem empty {kind : LexemeKind}
    (fits : ∀ p rest, follow rest → Fits ⟨rest, p⟩ ⟨kind, Position.start, []⟩) :
    Writable [⟨kind, Position.start, []⟩] follow follow :=
  (single fits).mono (fun _ ⟨_, same, follows⟩ => same ▸ follows) fun _ => id

end Writable

end Lexeme

/-! ### Rendering -/

namespace Language

open Lexeme (Writable)

variable {α β γ δ : Type} {language second : Language α} {look : α → γ} {a : α}
  {ahead middle follow : List Char → Prop}

/-- Something that looks like `a` can be written before what may follow it. -/
def Renders (language : Language α) (look : α → γ) (a : α) (ahead follow : List Char → Prop) : Prop :=
  ∃ a' lexemes, language a' lexemes ∧ look a' = look a ∧ Writable lexemes ahead follow

namespace Renders

theorem mono {ahead' follow' : List Char → Prop} (renders : language.Renders look a ahead follow)
    (weaken : ∀ text, ahead text → ahead' text) (strengthen : ∀ text, follow' text → follow text) :
    language.Renders look a ahead' follow' := by
  obtain ⟨a', lexemes, spelled, same, writable⟩ := renders
  exact ⟨a', lexemes, spelled, same, writable.mono weaken strengthen⟩

theorem weaken {ahead' : List Char → Prop} (renders : language.Renders look a ahead follow)
    (weaken : ∀ text, ahead text → ahead' text) : language.Renders look a ahead' follow :=
  renders.mono weaken fun _ => id

/-- What can be finished, whatever it looks like. -/
theorem of_finishes {shown shown' : List (Option Char)} (finishes : language.Finishes shown shown') :
    language.Renders (fun _ => ()) a (Shows shown) (Shows shown') := by
  obtain ⟨a', lexemes, text, spelled, writes⟩ := finishes
  exact ⟨a', lexemes, spelled, rfl, fun p => ⟨text, writes p⟩⟩

theorem pure {a' : α} (same : look a' = look a) :
    (Pure.pure a' : Language α).Renders look a follow follow :=
  ⟨a', [], ⟨rfl, rfl⟩, same, .nil⟩

/-- **One after the other.** -/
theorem bind {next : α → Language β} {last : β → δ} {b : β}
    (first : language.Renders look a ahead middle)
    (rest : ∀ a', look a' = look a → (next a').Renders last b middle follow) :
    (language >>= next).Renders last b ahead follow := by
  obtain ⟨a', lexemes, spelled, same, writable⟩ := first
  obtain ⟨b', more, spelled', same', writable'⟩ := rest a' same
  exact ⟨b', lexemes ++ more, ⟨a', lexemes, more, spelled, spelled', rfl⟩, same',
    writable.append writable'⟩

theorem map {f : α → β} {last : β → δ} {b : β} (first : language.Renders look a ahead follow)
    (turns : ∀ a', look a' = look a → last (f a') = last b) :
    (language >>= fun a => Pure.pure (f a)).Renders last b ahead follow :=
  first.bind fun a' same => pure (turns a' same)

theorem left (first : language.Renders look a ahead follow) :
    (language <|> second).Renders look a ahead follow := by
  obtain ⟨a', lexemes, spelled, writable⟩ := first
  exact ⟨a', lexemes, .inl spelled, writable⟩

theorem right (later : second.Renders look a ahead follow) :
    (language <|> second).Renders look a ahead follow := by
  obtain ⟨a', lexemes, spelled, writable⟩ := later
  exact ⟨a', lexemes, .inr spelled, writable⟩

theorem guard_bind {condition : Prop} (now : condition)
    (rest : language.Renders look a ahead follow) :
    (guard condition >>= fun _ => language).Renders look a ahead follow := by
  obtain ⟨a', lexemes, spelled, writable⟩ := rest
  exact ⟨a', lexemes, ⟨(), [], lexemes, ⟨now, rfl⟩, spelled, rfl⟩, writable⟩

theorem kept (inside : language.Renders look a ahead follow) :
    (kept language).Renders look a ahead follow := by
  obtain ⟨a', lexemes, spelled, same, writable⟩ := inside
  exact ⟨a', _, ⟨lexemes, spelled, rfl⟩, same, writable.keep⟩

/-! ### Lexemes -/

/-- A gap without trivia. -/
theorem gap (clear : ∀ text, follow text → Clear text) : gap.Renders id () follow follow := by
  refine ⟨(), _, ⟨_, _, rfl⟩, rfl, .empty fun _ rest follows => ?_⟩
  exact (triviaText_of_none (clear rest follows)).symm

/-- A gap of one line feed. -/
theorem gap_feed (clear : ∀ text, follow text → Clear text) :
    Language.gap.Renders id () (Shows [some '\n']) follow := by
  have writable : Writable [⟨.gap false, Position.start, ['\n']⟩] (StartsWith ['\n'] follow) follow := by
    refine .single fun _ rest follows => ?_
    show ['\n'] = triviaText ('\n' :: rest)
    rw [triviaText_space rfl, triviaText_of_none (clear rest follows)]
  exact ⟨(), _, ⟨_, _, rfl⟩, rfl, writable.mono (fun _ => StartsWith.shows) fun _ => id⟩

theorem gap_shows {follow : List (Option Char)} (ends : (LexemeKind.gap false).Ends follow) :
    Language.gap.Renders id () (Shows follow) (Shows follow) :=
  gap fun _ => Shows.clear ends

theorem feed_shows {follow : List (Option Char)} (ends : (LexemeKind.gap false).Ends follow) :
    Language.gap.Renders id () (Shows [some '\n']) (Shows follow) :=
  gap_feed fun _ => Shows.clear ends

/-- **What begins with a gap** can be written with a line feed first. -/
theorem feed (begins : ∀ a lexemes, language a lexemes → ∃ start text more,
    lexemes = ⟨.gap false, start, text⟩ :: more)
    (renders : language.Renders look a ahead follow) (clear : ∀ text, ahead text → Clear text) :
    language.Renders look a (Shows [some '\n']) follow := by
  obtain ⟨a', lexemes, spelled, same, writable⟩ := renders
  obtain ⟨start, trivia, more, rfl⟩ := begins a' lexemes spelled
  refine ⟨a', _, spelled, same, fun p => ?_⟩
  obtain ⟨text, written⟩ := writable (p.past ['\n'])
  refine ⟨'\n' :: text, fun rest follows => ⟨?_, List.mem_singleton_self _⟩⟩
  obtain ⟨now, shown⟩ := written rest follows
  exact now.feed (clear _ shown)

theorem sign {x : Char} (inLine : x ≠ '\r' ∧ x ≠ '\n') (start : Position) :
    (sign x).Renders Position.View.blind.of start (StartsWith [x] follow) follow :=
  ⟨Position.start, _, rfl, rfl, .single fun _ _ _ => ⟨x, rfl, rfl, inLine⟩⟩

/-- A sign of which only the character matters. -/
theorem sign_shows {x : Char} (inLine : x ≠ '\r' ∧ x ≠ '\n') (start : Position) :
    (Language.sign x).Renders Position.View.blind.of start (Shows [some x]) follow :=
  (sign inLine start).weaken fun _ => StartsWith.shows

theorem anySign {x : Char} (inLine : x ≠ '\r' ∧ x ≠ '\n') (start : Position) :
    anySign.Renders (Prod.map id Position.View.blind.of) (x, start) (StartsWith [x] follow) follow :=
  ⟨(x, Position.start), _, rfl, rfl, .single fun _ _ _ => ⟨x, rfl, rfl, inLine⟩⟩

theorem name {word : Word} (isName : word.IsName)
    (ends : ∀ text, follow text → text.head?.any isNameChar = false) :
    name.Renders (Word.relabel .blind) word (StartsWith word.content.toList follow) follow := by
  refine ⟨⟨word.content, Position.start⟩, _, rfl, rfl, .single fun _ rest follows => ?_⟩
  exact ⟨isName.takeWhile (ends rest follows), isName.toList_ne_nil⟩

/-- A name before something that stands in none. -/
theorem name_shows {word : Word} {follow : List (Option Char)} (isName : word.IsName)
    (ends : LexemeKind.name.Ends follow) :
    Language.name.Renders (Word.relabel .blind) word
      (StartsWith word.content.toList (Shows follow)) (Shows follow) :=
  name isName fun _ => Shows.endsName ends

theorem literal {word : Word} (isLiteral : word.IsLiteral)
    (ends : ∀ text, follow text → text.head?.any isValueChar = false) :
    literal.Renders (Word.relabel .blind) word (StartsWith word.content.toList follow) follow := by
  refine ⟨⟨word.content, Position.start⟩, _, rfl, rfl, .single fun _ rest follows => ?_⟩
  exact ⟨isLiteral.takeWhile (ends rest follows), isLiteral.toList_ne_nil⟩

/-- Escaped text, indented as its place asks for. -/
theorem escaped (text : EscapedText) :
    escaped.Renders (EscapedText.relabel .blind id) text (Shows [some '\x60']) follow := by
  let content := text.text.content
  refine ⟨⟨Position.start, ⟨content, Position.start.after '\x60'⟩⟩,
    [⟨.escaped content.toList, Position.start, []⟩], ⟨[], rfl, rfl⟩, rfl, fun p => ?_⟩
  refine ⟨'\x60' :: (escape p.col content.toList ++ ['\x60']), fun rest _ =>
    ⟨.single ⟨_, rfl, rfl, ?_⟩ rfl, List.mem_singleton_self _⟩⟩
  show scanEscaped p.col 0 ((escape p.col content.toList ++ ['\x60']) ++ rest) = _
  rw [List.append_assoc, List.singleton_append, scanEscaped_escape]

theorem plain {text : List Char} (some : text ≠ []) (inside : ∀ c ∈ text, Parser.endsText c = false)
    (ends : ∀ rest, follow rest → Parser.plainText rest = [] ∧ rest.head? ≠ .some '[') :
    plain.Renders id text (StartsWith text follow) follow := by
  refine ⟨text, _, ⟨_, rfl⟩, rfl, .single fun _ rest follows => ⟨?_, some⟩⟩
  obtain ⟨ended, bracket⟩ := ends rest follows
  have whole : Parser.plainText (text ++ []) = text := by
    rw [List.append_nil, Parser.plainText_of_forall inside]
  exact (Parser.plainText_front whole ended fun found => absurd found bracket).symm

theorem sight {seen : Sight} (sees : ∀ text, follow text → Sees seen text) :
    (sight seen).Renders id () follow follow := by
  refine ⟨(), _, ⟨_, rfl⟩, rfl, .empty fun _ rest follows => ?_⟩
  exact ⟨rfl, sees rest follows⟩

theorem sight_shows {seen : Sight} {follow : List (Option Char)}
    (ends : (LexemeKind.sight seen).Ends follow) :
    (Language.sight seen).Renders id () (Shows follow) (Shows follow) :=
  sight fun _ => Shows.sees ends

/-! ### Repetitions -/

open TypedMarkup.Parser (Round)

variable {round item : Language (Round α)} {list : List α}

theorem rounds_nil (stop : round.Renders (Round.map look) .stop ahead follow) :
    (rounds round).Renders (List.map look) [] ahead follow := by
  obtain ⟨result, lexemes, spelled, same, writable⟩ := stop
  cases result with
  | stop => exact ⟨[], lexemes, .stop spelled, rfl, writable⟩
  | pass | item => cases same

theorem rounds_pass (first : round.Renders (Round.map look) .pass ahead middle)
    (later : (rounds round).Renders (List.map look) list middle follow) :
    (rounds round).Renders (List.map look) list ahead follow := by
  obtain ⟨result, lexemes, spelled, same, writable⟩ := first
  obtain ⟨items', more, spelled', same', writable'⟩ := later
  cases result with
  | pass => exact ⟨items', _, .pass spelled spelled', same', writable.append writable'⟩
  | stop | item => cases same

theorem rounds_cons (first : round.Renders (Round.map look) (.item a) ahead middle)
    (later : (rounds round).Renders (List.map look) list middle follow) :
    (rounds round).Renders (List.map look) (a :: list) ahead follow := by
  obtain ⟨result, lexemes, spelled, same, writable⟩ := first
  obtain ⟨items', more, spelled', same', writable'⟩ := later
  cases result with
  | item a' =>
    refine ⟨a' :: items', _, .item spelled spelled', ?_, writable.append writable'⟩
    rw [List.map_cons, List.map_cons, Round.item.inj same, same']
  | stop | pass => cases same

/-- Rounds that each begin with a gap do so together. -/
theorem rounds_feed {next : Unit → Language (Round α)} {look : List α → γ}
    (renders : (rounds (Language.gap >>= next)).Renders look list ahead follow)
    (clear : ∀ text, ahead text → Clear text) :
    (rounds (Language.gap >>= next)).Renders look list (Shows [some '\n']) follow := by
  refine feed (fun items lexemes spelled => ?_) renders clear
  obtain ⟨_, _, more, ⟨_, _, after, ⟨start, text, rfl⟩, _, rfl⟩, rfl⟩ := rounds_first spelled
  exact ⟨start, text, after ++ more, rfl⟩

/-- Items up to a place where their sign is missing. -/
theorem items {c : Char} {follow : List (Option Char)}
    (each : ∀ a ∈ list, item.Renders (Round.map look) (.item a) (Shows [some c])
      (Shows (some c :: follow)))
    (ends : (LexemeKind.sight (.avoids [c])).Ends follow) :
    (rounds (item <|> (do
      Language.sight (.avoids [c])
      return .stop))).Renders (List.map look) list (Shows (aheadOf list c follow))
        (Shows follow) := by
  induction list with
  | nil => exact rounds_nil (right ((sight_shows ends).map fun _ _ => rfl))
  | cons a list ih =>
    obtain ⟨first, later⟩ := List.forall_mem_cons.1 each
    exact rounds_cons (left first) ((ih later).weaken fun _ => Shows.of_aheadOf)

end Renders

end Language

end TypedMarkup
