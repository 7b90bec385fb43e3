/-
**Writing lexemes.** Lexemes that flow from a cursor can be written again before something else, as
long as they end there where they ended.

* `Text.BeginsSame`, `Text.BeginsLike` and `Text.Shows` are what is asked of the text behind: to begin
  like the one that stood there, or with one of some characters.
* `Lexeme.Writes lexemes text p rest`: written from `p` on and before `rest`, the text is cut into
  these lexemes, up to their places and the trivia in their gaps.
* `Lexeme.Kept c lexemes d follow`: lexemes from `c` to `d` can be written before whatever begins
  like what is left at `d`; and, after something that closes their last gap, before whatever shows
  one of `follow`.
-/

import TypedMarkup.Proofs.Grammar.Transfers
import TypedMarkup.Proofs.Source.Closing

namespace TypedMarkup

/-! ### What stands ahead -/

/-- Whether a character changes nothing of what is seen in the one before it. -/
def isQuiet (next : Option Char) : Bool :=
  next != some '[' && next != some '*'

/-- What is seen before some character is seen before a quiet one. -/
theorem Sight.sees_quiet {head second second' : Option Char} {seen : Sight}
    (quiet : isQuiet second' = true) (sees : seen.sees head second = true) :
    seen.sees head second' = true := by
  simp only [isQuiet, Bool.and_eq_true, bne_iff_ne] at quiet
  have ignored : isIgnored head second' = false := by simp [isIgnored, quiet.1]
  cases seen with
  | settingNext =>
    simp only [Sight.sees, Bool.and_eq_true, Bool.not_eq_true', isComment, Bool.or_eq_false_iff] at *
    simp [sees, quiet.2]
  | plain | nodeText =>
    simp only [Sight.sees, ignored, Bool.and_eq_true] at *
    exact ⟨sees.1, rfl⟩
  | avoids | shows | noPath | lineEnd | blockEnd | line | textEnd | sourceEnd => exact sees

namespace Text

/-- A text begins like another: with the same character, and behind it the same or a quiet one. -/
structure BeginsLike (text text' : List Char) : Prop where
  head : text'.head? = text.head?
  second : text'.tail.head? = text.tail.head? ∨ isQuiet text'.tail.head? = true

/-- A text begins with the same two characters as another. -/
structure BeginsSame (text text' : List Char) : Prop where
  head : text'.head? = text.head?
  second : text'.tail.head? = text.tail.head?

/-- A text shows one of some characters, or nothing if that is one of them. -/
def Shows (ahead : List (Option Char)) (text : List Char) : Prop :=
  text.head? ∈ ahead

variable {text text' front : List Char}

theorem Shows.mono {ahead more : List (Option Char)} (shows' : Shows ahead text)
    (sub : ahead ⊆ more) : Shows more text :=
  sub shows'

/-- Behind the same text. -/
theorem BeginsLike.append (like : BeginsLike text text') (front : List Char) :
    BeginsLike (front ++ text) (front ++ text') := by
  rcases front with _ | ⟨c, _ | ⟨d, front⟩⟩
  · exact like
  · exact ⟨rfl, .inl like.head⟩
  · exact ⟨rfl, .inl rfl⟩

theorem BeginsSame.append (same : BeginsSame text text') (front : List Char) :
    BeginsSame (front ++ text) (front ++ text') := by
  rcases front with _ | ⟨c, _ | ⟨d, front⟩⟩
  · exact same
  · exact ⟨rfl, same.head⟩
  · exact ⟨rfl, rfl⟩

/-- Behind two characters it does not matter what follows. -/
theorem beginsSame_of_front (long : 2 ≤ front.length) (text text' : List Char) :
    BeginsSame (front ++ text) (front ++ text') := by
  rcases front with _ | ⟨c, _ | ⟨d, front⟩⟩
  · cases long
  · cases long with
    | step less => cases less
  · exact ⟨rfl, rfl⟩

/-- Behind a text it only matters that something quiet follows. -/
theorem beginsLike_of_front (some : front ≠ []) (quiet : isQuiet text'.head? = true) :
    BeginsLike (front ++ text) (front ++ text') := by
  rcases front with _ | ⟨c, _ | ⟨d, front⟩⟩
  · exact absurd rfl some
  · exact ⟨rfl, .inr quiet⟩
  · exact ⟨rfl, .inl rfl⟩

theorem BeginsLike.sees (like : BeginsLike text text') {seen : Sight}
    (sees : seen.sees text.head? text.tail.head? = true) :
    seen.sees text'.head? text'.tail.head? = true := by
  rw [like.head]
  rcases like.second with same | quiet
  · rw [same, sees]
  · exact Sight.sees_quiet quiet sees

theorem BeginsLike.trivia?_eq_none (like : BeginsLike text text') (clear : trivia? text = none) :
    trivia? text' = none := by
  cases text' with
  | nil => rfl
  | cons c text' =>
    obtain ⟨text, rfl⟩ := List.head?_eq_some_iff.1 like.head.symm
    refine trivia?_other (isSpace_of_trivia?_eq_none clear) ?_ ?_
    · rintro rfl
      cases clear
    · refine Bool.eq_false_iff.2 fun opens => ?_
      simp only [opensComment, Bool.and_eq_true, decide_eq_true_eq] at opens
      obtain ⟨rfl, star⟩ := opens
      rcases like.second with same | quiet
      · obtain ⟨rest, rfl⟩ := List.head?_eq_some_iff.1 (same.symm.trans star)
        cases clear
      · rw [List.tail_cons, star] at quiet
        cases quiet

theorem BeginsLike.eq_nil (like : BeginsLike text text') (none : text = []) : text' = [] := by
  subst none
  exact List.head?_eq_none_iff.1 like.head

/-- No trivia begin where none of their characters stands. -/
theorem trivia?_of_head (clear : text.head?.any beginsTrivia = false) : trivia? text = none := by
  cases text with
  | nil => rfl
  | cons c text =>
    have other : beginsTrivia c = false := clear
    simp only [beginsTrivia, List.contains_eq_mem, List.mem_cons, List.not_mem_nil, or_false,
      decide_eq_false_iff_not, not_or] at other
    exact trivia?_other (by simp [isSpace, other]) other.2.2.2.2.1 (by simp [opensComment, other])

end Text

open Text (BeginsLike BeginsSame Shows)

/-! ### Ends of lexemes -/

namespace LexemeKind

/-- Whether a lexeme may be written before a character. -/
def endsAt (next : Option Char) : LexemeKind → Bool
  | gap _ => !next.any beginsTrivia
  | sign | escaped _ => isQuiet next
  | name => !next.any isNameChar && isQuiet next
  | literal => !next.any isValueChar && isQuiet next
  | plain => next.all Parser.endsText && isQuiet next
  | sight seen => [none, some '[', some '*'].all fun second => seen.sees next second

/-- Whether a lexeme may be written before all of some characters. -/
def Ends (follow : List (Option Char)) (kind : LexemeKind) : Prop :=
  ∀ next ∈ follow, kind.endsAt next = true

instance (follow : List (Option Char)) (kind : LexemeKind) : Decidable (kind.Ends follow) :=
  inferInstanceAs (Decidable (∀ next ∈ follow, kind.endsAt next = true))

end LexemeKind

namespace Lexeme

variable {c d : Cursor} {x : Lexeme} {lexemes more : List Lexeme} {p : Position}
  {text text' rest rest' : List Char} {follow : List (Option Char)}

/-- A lexeme ends where it ended if what follows begins alike. Plain text may have ended before an
ignored node, which does not have to stand there then. -/
theorem Fits.endsBefore_of_beginsLike (fits : x.Fits c)
    (plain : x.kind = .plain → (c.behind x.text).head.all Parser.endsText = true)
    (like : BeginsLike (c.behind x.text).rest rest') : x.EndsBefore (c.behind x.text).rest rest' := by
  obtain ⟨kind, start, text⟩ := x
  cases kind with
  | gap kept =>
    obtain rfl : text = triviaText c.rest := fits
    exact ⟨like.trivia?_eq_none (trivia?_drop_triviaText c.rest), like.eq_nil⟩
  | sign | escaped => trivial
  | name =>
    show rest'.head?.any isNameChar = false
    rw [like.head]
    exact fits.1.symm ▸ takeWhile_ends isNameChar c.rest
  | literal =>
    show rest'.head?.any isValueChar = false
    rw [like.head]
    exact fits.1.symm ▸ takeWhile_ends isValueChar c.rest
  | plain =>
    refine ⟨Parser.plainText_eq_nil.2 (.inl ?_), fun bracket => like.head ▸ bracket⟩
    rw [like.head]
    exact plain rfl
  | sight seen =>
    obtain ⟨rfl, sees⟩ := fits
    exact like.sees sees

/-- A lexeme ends where it ended if two characters stay the same. -/
theorem Fits.endsBefore_of_beginsSame (fits : x.Fits c)
    (same : BeginsSame (c.behind x.text).rest rest') :
    x.EndsBefore (c.behind x.text).rest rest' := by
  by_cases plain : x.kind = .plain
  · obtain ⟨kind, start, text⟩ := x
    cases plain
    have ends := Parser.plainText_eq_nil.1 (fits.1 ▸ Parser.plainText_ends c.rest)
    refine ⟨Parser.plainText_eq_nil.2 ?_, fun bracket => same.head ▸ bracket⟩
    rw [same.head, same.second]
    exact fits.1.symm ▸ ends
  · exact fits.endsBefore_of_beginsLike (fun same => absurd same plain)
      ⟨same.head, .inl same.second⟩

/-- Lexemes other than gaps end before what they may be written before. -/
theorem endsBefore_of_shows (ends : x.kind.Ends follow) (notGap : ∀ kept, x.kind ≠ .gap kept)
    (shows' : Shows follow rest') : x.EndsBefore rest rest' := by
  have ends := ends _ shows'
  obtain ⟨kind, start, text⟩ := x
  cases kind with
  | gap kept => exact absurd rfl (notGap kept)
  | sign | escaped => trivial
  | name | literal =>
    simp only [LexemeKind.endsAt, Bool.and_eq_true, Bool.not_eq_true'] at ends
    exact ends.1
  | plain =>
    simp only [LexemeKind.endsAt, isQuiet, Bool.and_eq_true, bne_iff_ne] at ends
    exact ⟨Parser.plainText_eq_nil.2 (.inl ends.1), fun bracket => absurd bracket ends.2.1⟩
  | sight seen =>
    simp only [LexemeKind.endsAt, List.all_cons, List.all_nil, Bool.and_eq_true] at ends
    show seen.sees rest'.head? rest'.tail.head? = true
    by_cases bracket : rest'.tail.head? = some '['
    · rw [bracket, ends.2.1]
    by_cases star : rest'.tail.head? = some '*'
    · rw [star, ends.2.2.1]
    · refine Sight.sees_quiet ?_ ends.1
      simp only [isQuiet, Bool.and_eq_true, bne_iff_ne]
      exact ⟨bracket, star⟩

/-! ### Writing -/

/-- Lexemes that are the same up to their places and the trivia in their gaps. -/
def Resemble (lexemes lexemes' : List Lexeme) : Prop :=
  lexemes'.map (relabel .blind id) = lexemes.map (relabel .blind id)

/-- Written from a place on and before some text, a text is cut into given lexemes, up to their places
and the trivia in their gaps. -/
def Writes (lexemes : List Lexeme) (text : List Char) (p : Position) (rest : List Char) : Prop :=
  ∃ lexemes', Resemble lexemes lexemes' ∧
    Cursor.Flows ⟨text ++ rest, p⟩ lexemes' ⟨rest, p.past text⟩

namespace Writes

theorem nil : Writes [] [] p rest :=
  ⟨[], rfl, Cursor.flows_nil.2 rfl⟩

theorem append (first : Writes lexemes text p (text' ++ rest))
    (second : Writes more text' (p.past text) rest) :
    Writes (lexemes ++ more) (text ++ text') p rest := by
  obtain ⟨lexemes', same, flows⟩ := first
  obtain ⟨more', same', flows'⟩ := second
  refine ⟨lexemes' ++ more', ?_, ?_⟩
  · unfold Resemble
    rw [List.map_append, List.map_append, same, same']
  · rw [List.append_assoc, Position.past_append]
    exact flows.append flows'

/-- One lexeme, of which only the text of a gap and the place may differ. -/
theorem single {kind : LexemeKind} {start : Position}
    (fits : Fits ⟨text ++ rest, p⟩ ⟨kind, start, text⟩)
    (same : relabel .blind id ⟨kind, start, text⟩ = relabel .blind id ⟨kind, start, text'⟩) :
    Writes [⟨kind, start, text'⟩] text p rest := by
  refine ⟨[⟨kind, p, text⟩], ?_, ⟨rfl, fits⟩, ?_⟩
  · have place : relabel .blind id ⟨kind, p, text⟩ = relabel .blind id ⟨kind, start, text⟩ := by
      cases kind <;> rfl
    exact congrArg (fun x => [x]) (place.trans same)
  · simp [Cursor.behind]

theorem keep (writes : Writes lexemes text p rest) :
    Writes (lexemes.map Lexeme.keep) text p rest := by
  obtain ⟨lexemes', same, flows⟩ := writes
  refine ⟨lexemes'.map Lexeme.keep, ?_, Cursor.flows_keep.2 flows⟩
  have inside (x : Lexeme) : relabel .blind id x.keep = (relabel .blind id x).keep := by
    obtain ⟨kind, start, text⟩ := x
    cases kind <;> rfl
  have each (lexemes : List Lexeme) : (lexemes.map Lexeme.keep).map (relabel .blind id) =
      (lexemes.map (relabel .blind id)).map Lexeme.keep := by
    simp only [List.map_map, Function.comp_def, inside]
  unfold Resemble
  rw [each, each, same]

end Writes

theorem textOf_singleton (x : Lexeme) : textOf [x] = x.text :=
  List.append_nil x.text

/-- **Any lexemes** can be written before two characters that stay the same. -/
theorem writes_of_beginsSame (flows : c.Flows lexemes d) (same : BeginsSame d.rest rest') :
    Writes lexemes (textOf lexemes) c.position rest' := by
  induction lexemes generalizing c with
  | nil => exact .nil
  | cons x lexemes ih =>
    obtain ⟨⟨_, fits⟩, later⟩ := flows
    have ends := fits.endsBefore_of_beginsSame (later.rest_eq.1 ▸ same.append (textOf lexemes))
    have first : Writes [x] x.text c.position (textOf lexemes ++ rest') :=
      .single (fits.before rfl rfl ends) rfl
    exact first.append (ih later)

/-! ### Keeping -/

/-- Lexemes from one cursor to another can be written before something else. -/
structure Kept (c : Cursor) (lexemes : List Lexeme) (d : Cursor)
    (follow : List (Option Char)) : Prop where
  /-- As they are, before whatever begins like what is left. -/
  like : ∀ rest', BeginsLike d.rest rest' → Writes lexemes (textOf lexemes) c.position rest'
  /-- Before what may follow, if something closes them. -/
  closed : textOf lexemes ≠ [] → ∃ closing, ∀ rest', Shows follow rest' →
    isQuiet (closing ++ rest').head? = true ∧
      Writes lexemes (textOf lexemes ++ closing) c.position rest'
  /-- From any place on before what may follow, if they have no characters. -/
  bare : textOf lexemes = [] → ∀ p rest', Shows follow rest' → Writes lexemes [] p rest'

/-- **One lexeme.** A gap is closed by what ends its trivia. -/
theorem Kept.single (stands : x.Stands c) (ends : x.kind.Ends follow)
    (plain : x.kind = .plain → (c.behind x.text).head.all Parser.endsText = true) :
    Kept c [x] (c.behind x.text) follow := by
  obtain ⟨place, fits⟩ := stands
  have before (rest' : List Char) (ends : x.EndsBefore (c.behind x.text).rest rest') :
      Writes [x] x.text c.position rest' :=
    Writes.single (fits.before rfl rfl ends) rfl
  refine ⟨fun rest' like => ?_, fun some => ?_, fun none p rest' shows' => ?_⟩
  · rw [textOf_singleton]
    exact before rest' (fits.endsBefore_of_beginsLike plain like)
  · rw [textOf_singleton] at some ⊢
    by_cases gap : ∃ kept, x.kind = .gap kept
    · obtain ⟨kept, gap⟩ := gap
      obtain ⟨kind, start, text⟩ := x
      obtain rfl : kind = .gap kept := gap
      obtain rfl : text = triviaText c.rest := fits
      obtain ⟨closing, feed, closes⟩ := triviaText_closes c.rest
      obtain ⟨more, rfl⟩ := List.head?_eq_some_iff.1 feed
      refine ⟨'\n' :: more, fun rest' shows' => ⟨rfl, Writes.single ?_ rfl⟩⟩
      have clear := Text.trivia?_of_head (by simpa [LexemeKind.endsAt] using ends _ shows')
      show triviaText c.rest ++ '\n' :: more = triviaText (triviaText c.rest ++ '\n' :: more ++ rest')
      rw [List.append_assoc, closes rest' clear]
    · refine ⟨[], fun rest' shows' => ⟨?_, ?_⟩⟩
      · have quiet := ends _ shows'
        obtain ⟨kind, start, text⟩ := x
        cases kind with
        | gap kept => exact absurd ⟨kept, rfl⟩ gap
        | sign | escaped => exact quiet
        | name | literal | plain => exact (Bool.and_eq_true_iff.1 quiet).2
        | sight seen => exact absurd fits.1 some
      · rw [List.append_nil]
        exact before rest' (endsBefore_of_shows ends (fun kept same => gap ⟨kept, same⟩) shows')
  · rw [textOf_singleton] at none
    have solid : x.isSolid ≠ true := fun solid => fits.ne_nil solid none
    obtain ⟨kind, start, text⟩ := x
    obtain rfl : text = [] := none
    refine Writes.single ?_ rfl
    cases kind with
    | gap kept =>
      have clear := Text.trivia?_of_head (by simpa [LexemeKind.endsAt] using ends _ shows')
      exact (triviaText_of_none clear).symm
    | sight seen =>
      have sees : EndsBefore [] rest' ⟨.sight seen, start, []⟩ :=
        endsBefore_of_shows ends (fun _ same => LexemeKind.noConfusion same) shows'
      exact ⟨rfl, sees⟩
    | sign | name | literal | escaped | plain => exact absurd rfl solid

namespace Kept

variable {middle : Cursor}

theorem nil : Kept c [] c follow :=
  ⟨fun _ _ => .nil, fun some => absurd rfl some, fun _ _ _ _ => .nil⟩

theorem mono {less : List (Option Char)} (kept : Kept c lexemes d follow) (sub : less ⊆ follow) :
    Kept c lexemes d less where
  like := kept.like
  closed some := by
    obtain ⟨closing, writes⟩ := kept.closed some
    exact ⟨closing, fun rest' shows' => writes rest' (shows'.mono sub)⟩
  bare none p _ shows' := kept.bare none p _ (shows'.mono sub)

/-- Lexemes before others. What may follow only matters to the first if the second have no
characters. -/
theorem append' (flows : c.Flows lexemes middle) (second : Kept middle more d follow)
    (like : ∀ rest', BeginsLike (textOf more ++ d.rest) (textOf more ++ rest') →
      Writes lexemes (textOf lexemes) c.position (textOf more ++ rest'))
    (first : textOf more = [] → Kept c lexemes middle follow) :
    Kept c (lexemes ++ more) d follow := by
  have place := flows.rest_eq.2
  refine ⟨fun rest' alike => ?_, fun some => ?_, fun none p rest' shows' => ?_⟩
  · rw [textOf_append]
    exact (like rest' (alike.append _)).append (place ▸ second.like rest' alike)
  · rw [textOf_append] at some ⊢
    by_cases none : textOf more = []
    · rw [none, List.append_nil] at some ⊢
      obtain ⟨closing, writes⟩ := (first none).closed some
      refine ⟨closing, fun rest' shows' => ⟨(writes rest' shows').1, ?_⟩⟩
      have whole := (writes rest' shows').2.append (second.bare none _ rest' shows')
      rwa [List.append_nil] at whole
    · obtain ⟨closing, writes⟩ := second.closed none
      refine ⟨closing, fun rest' shows' => ⟨(writes rest' shows').1, ?_⟩⟩
      have begins := like _ (Text.beginsLike_of_front none (writes rest' shows').1)
      rw [List.append_assoc]
      refine Writes.append ?_ (place ▸ (writes rest' shows').2)
      rwa [List.append_assoc]
  · rw [textOf_append, List.append_eq_nil_iff] at none
    have begins : Writes lexemes [] p ([] ++ rest') := (first none.2).bare none.1 p rest' shows'
    exact begins.append (second.bare none.2 p rest' shows')

theorem append (flows : c.Flows lexemes middle) (flows' : middle.Flows more d)
    (first : Kept c lexemes middle follow) (second : Kept middle more d follow) :
    Kept c (lexemes ++ more) d follow := by
  refine append' flows second (fun _ like => ?_) fun _ => first
  exact first.like _ (flows'.rest_eq.1 ▸ like)

theorem keep (kept : Kept c lexemes d follow) : Kept c (lexemes.map Lexeme.keep) d follow where
  like rest' like := by
    rw [textOf_keep]
    exact (kept.like rest' like).keep
  closed some := by
    rw [textOf_keep] at some ⊢
    obtain ⟨closing, writes⟩ := kept.closed some
    exact ⟨closing, fun rest' shows' => ⟨(writes rest' shows').1, (writes rest' shows').2.keep⟩⟩
  bare none p rest' shows' := by
    rw [textOf_keep] at none
    exact (kept.bare none p rest' shows').keep

end Kept

end Lexeme

end TypedMarkup
