/-
**Line ends do not matter.** A source whose line feeds become carriage returns with line feeds is
read like before.

* `Text.returned` puts a carriage return before every line feed.
* `Cursor.Returned c c'`: the second cursor is at the same place of the source with carriage returns.
  What stands at the one stands at the other (`Returned.stands`, `Returned.stands_of_returned`), so
  lexemes that flow from the one flow from the other.
* `Content.parse_returned`: both sources have trees or neither has, and the trees are alike but for
  the line ends inside escaped text.
-/

import TypedMarkup.Proofs.Grammar.SpellsBlock
import TypedMarkup.Proofs.Source.Fronts
import TypedMarkup.Proofs.Grammar.Transfers

namespace TypedMarkup

namespace Text

/-- The text with a carriage return before every line feed. -/
def returned : List Char → List Char
  | [] => []
  | c :: text => if c = '\n' then '\r' :: '\n' :: returned text else c :: returned text

@[simp] theorem returned_nil : returned [] = [] := rfl

@[simp] theorem returned_feed (text : List Char) :
    returned ('\n' :: text) = '\r' :: '\n' :: returned text := rfl

theorem returned_cons {c : Char} (other : c ≠ '\n') (text : List Char) :
    returned (c :: text) = c :: returned text :=
  if_neg other

theorem returned_append (text more : List Char) :
    returned (text ++ more) = returned text ++ returned more := by
  induction text with
  | nil => rfl
  | cons c text ih =>
    by_cases feed : c = '\n'
    · subst feed
      simp [ih]
    · simp [returned_cons feed, ih]

/-- Text without line feeds stays as it is. -/
theorem returned_of_inLine {text : List Char} (line : ∀ c ∈ text, c ≠ '\n') :
    returned text = text := by
  induction text with
  | nil => rfl
  | cons c text ih =>
    rw [returned_cons (line c (List.mem_cons_self ..)), ih fun x member =>
      line x (List.mem_cons_of_mem _ member)]

/-- Characters of a class without line ends are as many as before. -/
theorem takeWhile_returned {allowed : Char → Bool} (feed : allowed '\n' = false)
    (ret : allowed '\r' = false) (text : List Char) :
    (returned text).takeWhile allowed = text.takeWhile allowed := by
  induction text with
  | nil => rfl
  | cons c text ih =>
    by_cases same : c = '\n'
    · subst same
      simp [feed, ret]
    · rw [returned_cons same, List.takeWhile_cons, List.takeWhile_cons, ih]

/-- The first character of a text, where a carriage return takes the place of a line feed. -/
theorem head?_returned (text : List Char) :
    (returned text).head? = text.head?.map fun c => if c = '\n' then '\r' else c := by
  cases text with
  | nil => rfl
  | cons c text =>
    by_cases same : c = '\n'
    · simp [same]
    · simp [returned_cons same, same]

theorem head?_returned_eq_some {text : List Char} {x : Char} (line : x ≠ '\n' ∧ x ≠ '\r') :
    (returned text).head? = some x ↔ text.head? = some x := by
  rw [head?_returned]
  cases text.head? with
  | none => simp
  | some c =>
    by_cases same : c = '\n'
    · simp [same, line.1.symm, line.2.symm]
    · simp [same]

theorem plainText_returned (text : List Char) :
    Parser.plainText (returned text) = Parser.plainText text := by
  induction text with
  | nil => rfl
  | cons c text ih =>
    by_cases same : c = '\n'
    · subst same
      rfl
    · rw [returned_cons same, Parser.plainText_cons, Parser.plainText_cons, ih]
      simp only [head?_returned_eq_some (x := '[') (by decide)]

theorem commentTail_returned (inner : Nat) (text : List Char) :
    commentTail inner (returned text) = returned (commentTail inner text) := by
  induction inner, text using commentTail_induction with
  | nil inner => cases inner <;> rfl
  | opens inner text ih => simpa [returned_cons, commentTail] using ih
  | ends text => simp [returned_cons, commentTail]
  | closes inner text ih => simpa [returned_cons, commentTail] using ih
  | other inner c text notOpen notClose ih =>
    rw [commentTail_cons notOpen notClose]
    by_cases same : c = '\n'
    · subst same
      rw [returned_feed, returned_feed, commentTail_cons rfl rfl, commentTail_cons rfl rfl, ih]
    · rw [returned_cons same, returned_cons same, ← ih]
      refine commentTail_cons ?_ ?_
      · simpa only [opensComment, head?_returned_eq_some (x := '*') (by decide)] using notOpen
      · simpa only [closesComment, head?_returned_eq_some (x := '/') (by decide)] using notClose

/-- What is left behind a text that stands at the front. -/
theorem drop_returned {text front : List Char} (stands : front <+: text) :
    (returned text).drop (returned front).length = returned (text.drop front.length) := by
  obtain ⟨rest, rfl⟩ := stands
  rw [returned_append, List.drop_left, List.drop_left]

/-- A comment to the end of the line takes in the carriage return, which is white space before. -/
theorem lineComment_returned (text : List Char) :
    (returned text).takeWhile (fun c => c != '\n') ++
        triviaText ((returned text).dropWhile fun c => c != '\n') =
      text.takeWhile (fun c => c != '\n') ++
        triviaText (returned (text.dropWhile fun c => c != '\n')) := by
  induction text with
  | nil => rfl
  | cons c text ih =>
    by_cases same : c = '\n'
    · subst same
      have space : triviaText ('\r' :: '\n' :: returned text) =
          '\r' :: triviaText ('\n' :: returned text) := triviaText_space rfl
      simpa using space.symm
    · have other : (c != '\n') = true := by simpa using same
      simpa [returned_cons same, other] using ih

theorem triviaText_returned (text : List Char) :
    triviaText (returned text) = returned (triviaText text) := by
  induction text using triviaText_induction with
  | nil => rw [returned_nil, triviaText_nil, returned_nil]
  | space c text space ih =>
    rw [triviaText_space space]
    by_cases same : c = '\n'
    · subst same
      rw [returned_feed, triviaText_space rfl, triviaText_space rfl, ih, returned_feed]
    · rw [returned_cons same, triviaText_space space, ih, returned_cons same]
  | lineComment text ih =>
    have line : ∀ c ∈ text.takeWhile (fun c => c != '\n'), c ≠ '\n' := fun c member => by
      simpa using List.all_eq_true.1 List.all_takeWhile c member
    rw [triviaText_lineComment, returned_append, ← ih, returned_cons (by decide),
      returned_cons (by decide), returned_of_inLine line, triviaText_lineComment, List.cons_append,
      List.cons_append, lineComment_returned]
  | blockComment text ih =>
    rw [triviaText_blockComment, returned_append, returned_cons (by decide),
      returned_cons (by decide), returned_cons (by decide), returned_cons (by decide),
      triviaText_blockComment, commentTail_returned, drop_returned (commentTail_stands 0 text), ih]
  | other c text notSpace notLine notBlock =>
    have same : c ≠ '\n' := by
      rintro rfl
      cases notSpace
    rw [returned_cons same, triviaText_other notSpace notLine notBlock]
    refine triviaText_other notSpace notLine ?_
    simpa only [opensComment, head?_returned_eq_some (x := '*') (by decide)] using notBlock

theorem scanEscaped_returned (col due : Nat) (text : List Char) :
    scanEscaped col due (returned text) = ⟨returned (scanEscaped col due text).content,
      returned (scanEscaped col due text).passed, (scanEscaped col due text).ending⟩ := by
  fun_induction scanEscaped col due text with
  | case1 due rest ih => simp [returned_cons, scanEscaped, ih, EscapedScan.after]
  | case2 text due notSpace =>
    have other : ∀ rest, returned text ≠ ' ' :: rest := by
      intro rest same
      obtain ⟨more, rfl⟩ := List.head?_eq_some_iff.1
        ((head?_returned_eq_some (x := ' ') (by decide)).1 (List.head?_eq_some_iff.2 ⟨rest, same⟩))
      exact notSpace more rfl
    rw [scanEscaped]
    · rfl
    · exact other
  | case3 => rfl
  | case4 => rfl
  | case5 rest => simp [returned_cons, scanEscaped]
  | case6 rest ih => simp [returned_cons, scanEscaped, ih, EscapedScan.after]
  | case7 rest ih => simp [returned_cons, scanEscaped, ih, EscapedScan.after]
  | case8 rest ih =>
    rw [returned_feed, scanEscaped_cons (by decide) (by decide) (fun same => absurd same (by decide)),
      scanEscaped, ih]
    rfl
  | case9 c rest notLast notQuote notQuoted notDoubled notFeed ih =>
    have other : c ≠ '\n' := notFeed
    rw [returned_cons other, scanEscaped_cons notQuote other, ih]
    · simp [EscapedScan.after, returned_cons other]
    · rintro rfl
      cases rest with
      | nil => exact (notLast rfl rfl).elim
      | cons d rest =>
        rw [head?_returned]
        refine ⟨if d = '\n' then '\r' else d, rfl, ?_⟩
        have quote : d ≠ '\x60' := fun same => notQuoted rest rfl (same ▸ rfl)
        have double : d ≠ '\\' := fun same => notDoubled rest rfl (same ▸ rfl)
        split
        · decide
        · exact ⟨quote, double⟩

end Text

/-! ### Cursors -/

open Text (returned)

/-- Where a source with carriage returns is at the same place. -/
structure Cursor.Returned (c c' : Cursor) : Prop where
  rest : c'.rest = returned c.rest
  clean : '\r' ∉ c.rest
  place : Position.View.lineAndColumn.of c'.position = Position.View.lineAndColumn.of c.position

/-- A carriage return before a line feed changes neither line nor column behind it. -/
theorem Position.View.past_returned {p q : Position} {text : List Char}
    (same : lineAndColumn.of q = lineAndColumn.of p) :
    lineAndColumn.of (q.past (returned text)) = lineAndColumn.of (p.past text) := by
  induction text generalizing p q with
  | nil => exact same
  | cons c text ih =>
    by_cases feed : c = '\n'
    · subst feed
      refine ih ?_
      simp only [lineAndColumn, Position.mk.injEq] at same
      simp [lineAndColumn, Position.after, same.1]
    · rw [Text.returned_cons feed, past_cons, past_cons]
      exact ih (lineAndColumn.after c same)

namespace Cursor.Returned

variable {c c' : Cursor}

/-- Behind a text and the same text with carriage returns. -/
theorem behind (alike : c.Returned c') {text : List Char} (stands : text <+: c.rest) :
    (c.behind text).Returned (c'.behind (returned text)) where
  rest := by
    show c'.rest.drop (returned text).length = returned (c.rest.drop text.length)
    rw [alike.rest, Text.drop_returned stands]
  clean member := alike.clean (List.mem_of_mem_drop member)
  place := Position.View.past_returned alike.place

theorem head_eq_some (alike : c.Returned c') {x : Char} (line : x ≠ '\n' ∧ x ≠ '\r') :
    c'.head = some x ↔ c.head = some x := by
  rw [Cursor.head, Cursor.head, alike.rest]
  exact Text.head?_returned_eq_some line

theorem col (alike : c.Returned c') : c'.position.col = c.position.col := by
  have place := alike.place
  simp only [Position.View.lineAndColumn, Position.mk.injEq] at place
  exact place.2.1

/-- Behind the first character, if it ends no line. -/
theorem tail (alike : c.Returned c') {x : Char} (head : c.head = some x) (line : x ≠ '\n') :
    c'.rest.tail = returned c.rest.tail := by
  rw [alike.rest, Cursor.rest_of_head head, Text.returned_cons line, List.tail_cons, List.tail_cons]

theorem head_eq (alike : c.Returned c') :
    c'.head = c.head.map fun x => if x = '\n' then '\r' else x := by
  rw [Cursor.head, Cursor.head, alike.rest, Text.head?_returned]

/-- What is seen at the one place is seen at the other. -/
theorem sees_eq (alike : c.Returned c') (seen : Sight) :
    seen.sees c'.head c'.second = seen.sees c.head c.second := by
  have head := alike.head_eq
  cases found : c.head with
  | none =>
    have rest : c.rest = [] := List.head?_eq_none_iff.1 found
    have rest' : c'.rest = [] := by rw [alike.rest, rest, Text.returned_nil]
    rw [Cursor.head, Cursor.second, rest', Cursor.second, rest]
    rfl
  | some x =>
    rw [found, Option.map_some] at head
    by_cases feed : x = '\n'
    · -- Only a line feed looks different, and no sight tells it from a carriage return.
      rw [if_pos feed] at head
      rw [head, feed]
      cases seen with
      | avoids signs | shows signs =>
        cases clear : apart signs with
        | false => simp [Sight.sees, clear]
        | true =>
          have ret := not_contains_of_apart clear (c := '\r') rfl
          have new := not_contains_of_apart clear (c := '\n') rfl
          simp only [Sight.sees, Option.any_some, ret, new]
      | noPath | settingNext | lineEnd | blockEnd | line | textEnd | sourceEnd | plain | nodeText =>
        rfl
    · rw [if_neg feed] at head
      rw [head, Cursor.second, alike.tail found feed]
      exact Sight.sees_congr (Text.head?_returned_eq_some (by decide))
        (Text.head?_returned_eq_some (by decide)) seen

/-- Words of one class of characters are the same. -/
theorem takeWhile_eq (alike : c.Returned c') {allowed : Char → Bool} (feed : allowed '\n' = false)
    (ret : allowed '\r' = false) : c'.rest.takeWhile allowed = c.rest.takeWhile allowed := by
  rw [alike.rest, Text.takeWhile_returned feed ret]

theorem plainText_eq (alike : c.Returned c') :
    Parser.plainText c'.rest = Parser.plainText c.rest := by
  rw [alike.rest, Text.plainText_returned]

end Cursor.Returned

/-! ### Lexemes -/

/-- The kind of a lexeme in the source with carriage returns. -/
def LexemeKind.returned : LexemeKind → LexemeKind
  | escaped content => escaped (Text.returned content)
  | kind => kind

/-- The lexeme in the source with carriage returns, where it starts at the given place. -/
def Lexeme.returnedAt (start : Position) (x : Lexeme) : Lexeme :=
  ⟨x.kind.returned, start, returned x.text⟩

/-- Text with a carriage return before every line feed. -/
def Text.withReturns (text : String) : String :=
  String.ofList (returned text.toList)

namespace Lexeme

variable {c c' : Cursor} {x : Lexeme}

/-- A run of characters of a class without line ends is on one line. -/
theorem returned_takeWhile {allowed : Char → Bool} (feed : allowed '\n' = false)
    (text : List Char) : returned (text.takeWhile allowed) = text.takeWhile allowed := by
  refine Text.returned_of_inLine fun c member same => ?_
  have holds := List.all_eq_true.1 List.all_takeWhile c member
  rw [same, feed] at holds
  cases holds

theorem returned_plainText (text : List Char) :
    returned (Parser.plainText text) = Parser.plainText text := by
  refine Text.returned_of_inLine fun c member same => ?_
  have goesOn := Parser.endsText_of_mem_plainText c member
  rw [same] at goesOn
  cases goesOn

/-- Whether a lexeme is always on one line. -/
def isOnLine (x : Lexeme) : Bool :=
  match x.kind with
  | .sign | .name | .literal | .plain => true
  | .gap _ | .escaped _ | .sight _ => false

/-- Signs, words and text stay as they are. -/
theorem Fits.returned_text (fits : x.Fits c) (onLine : x.isOnLine = true) :
    returned x.text = x.text := by
  obtain ⟨kind, start, text⟩ := x
  cases kind with
  | gap kept => cases onLine
  | sign =>
    obtain ⟨sign, same, _, line⟩ := fits
    exact same.symm ▸ Text.returned_cons line.2 []
  | name => exact fits.1.symm ▸ returned_takeWhile rfl c.rest
  | literal => exact fits.1.symm ▸ returned_takeWhile rfl c.rest
  | escaped content => cases onLine
  | plain => exact fits.1.symm ▸ returned_plainText c.rest
  | sight seen => cases onLine

/-- **What stands at a cursor stands at the same place of the source with carriage returns.** -/
theorem Stands.returned (alike : c.Returned c') (stands : x.Stands c) :
    (x.returnedAt c'.position).Stands c' := by
  refine ⟨rfl, ?_⟩
  have line := stands.2.returned_text
  obtain ⟨kind, start, text⟩ := x
  obtain ⟨_, fits⟩ := stands
  cases kind with
  | gap kept =>
    obtain rfl : text = triviaText c.rest := fits
    show Text.returned (triviaText c.rest) = triviaText c'.rest
    rw [alike.rest, Text.triviaText_returned]
  | sign =>
    obtain ⟨sign, same, head, ends⟩ := fits
    exact ⟨sign, (line rfl).trans same, (alike.head_eq_some ends.symm).2 head, ends⟩
  | name =>
    exact ⟨(line rfl).trans (fits.1.trans (alike.takeWhile_eq rfl rfl).symm), fun none =>
      fits.2 ((line rfl).symm.trans none)⟩
  | literal =>
    exact ⟨(line rfl).trans (fits.1.trans (alike.takeWhile_eq rfl rfl).symm), fun none =>
      fits.2 ((line rfl).symm.trans none)⟩
  | escaped content =>
    obtain ⟨passed, same, head, scan⟩ := fits
    obtain rfl : text = '\x60' :: passed := same
    have quoted : Text.returned ('\x60' :: passed) = '\x60' :: Text.returned passed :=
      Text.returned_cons (by decide) passed
    refine ⟨Text.returned passed, quoted, (alike.head_eq_some (by decide)).2 head, ?_⟩
    rw [alike.tail head (by decide), alike.col, Text.scanEscaped_returned, scan]
  | plain =>
    exact ⟨(line rfl).trans (fits.1.trans alike.plainText_eq.symm), fun none =>
      fits.2 ((line rfl).symm.trans none)⟩
  | sight seen =>
    obtain ⟨same, sees⟩ := fits
    obtain rfl : text = [] := same
    exact ⟨rfl, (alike.sees_eq seen).trans sees⟩

/-- **What stands at a place of the source with carriage returns comes from what stands there
without them.** -/
theorem Stands.of_returned (alike : c.Returned c') (stands : x.Stands c') :
    ∃ y : Lexeme, y.Stands c ∧ x = y.returnedAt c'.position := by
  obtain ⟨kind, start, text⟩ := x
  obtain ⟨place, fits⟩ := stands
  obtain rfl : start = c'.position := place
  -- Each kind of lexeme can be only one at a cursor.
  cases kind with
  | gap kept =>
    have same : text = triviaText c'.rest := fits
    refine ⟨⟨.gap kept, c.position, triviaText c.rest⟩, ⟨rfl, rfl⟩, ?_⟩
    rw [same, alike.rest, Text.triviaText_returned]
    rfl
  | sign =>
    obtain ⟨sign, same, head, line⟩ := fits
    obtain rfl : text = [sign] := same
    refine ⟨⟨.sign, c.position, [sign]⟩, ⟨rfl, sign, rfl, (alike.head_eq_some line.symm).1 head,
      line⟩, ?_⟩
    rw [returnedAt, Text.returned_cons line.2]
    rfl
  | name =>
    obtain ⟨same, some⟩ := fits
    have same : text = c.rest.takeWhile isNameChar := same.trans (alike.takeWhile_eq rfl rfl)
    refine ⟨⟨.name, c.position, text⟩, ⟨rfl, same, some⟩, ?_⟩
    rw [returnedAt, same, returned_takeWhile rfl]
    rfl
  | literal =>
    obtain ⟨same, some⟩ := fits
    have same : text = c.rest.takeWhile isValueChar := same.trans (alike.takeWhile_eq rfl rfl)
    refine ⟨⟨.literal, c.position, text⟩, ⟨rfl, same, some⟩, ?_⟩
    rw [returnedAt, same, returned_takeWhile rfl]
    rfl
  | escaped content =>
    obtain ⟨passed, same, head, scan⟩ := fits
    obtain rfl : text = '\x60' :: passed := same
    have head := (alike.head_eq_some (by decide)).1 head
    rw [alike.tail head (by decide), alike.col, Text.scanEscaped_returned] at scan
    simp only [EscapedScan.mk.injEq] at scan
    obtain ⟨rfl, rfl, ending⟩ := scan
    generalize found : scanEscaped c.position.col 0 c.rest.tail = scan at ending
    obtain ⟨content, passed, _⟩ := scan
    obtain rfl := ending
    refine ⟨⟨.escaped content, c.position, '\x60' :: passed⟩, ⟨rfl, passed, rfl, head, found⟩, ?_⟩
    rw [returnedAt, Text.returned_cons (by decide)]
    rfl
  | plain =>
    obtain ⟨same, some⟩ := fits
    have same : text = Parser.plainText c.rest := same.trans alike.plainText_eq
    refine ⟨⟨.plain, c.position, text⟩, ⟨rfl, same, some⟩, ?_⟩
    rw [returnedAt, same, returned_plainText]
    rfl
  | sight seen =>
    obtain ⟨same, sees⟩ := fits
    obtain rfl : text = [] := same
    exact ⟨⟨.sight seen, c.position, []⟩, ⟨rfl, rfl, (alike.sees_eq seen).symm.trans sees⟩, rfl⟩

/-- A lexeme looks like the one with carriage returns, but for the line ends in escaped text. -/
theorem relabel_returnedAt (alike : c.Returned c') (stands : x.Stands c) :
    (x.returnedAt c'.position).relabel .lineAndColumn id =
      x.relabel .lineAndColumn Text.withReturns := by
  have place := alike.place
  obtain ⟨kind, start, text⟩ := x
  obtain ⟨same, fits⟩ := stands
  obtain rfl : start = c.position := same
  have line := fits.returned_text
  cases kind with
  | gap kept => rfl
  | sight seen =>
    obtain ⟨same, _⟩ := fits
    obtain rfl : text = [] := same
    rfl
  | escaped content =>
    simp only [relabel, returnedAt, LexemeKind.returned, place, Text.withReturns,
      String.toList_ofList, id]
  | sign | name | literal | plain =>
    simp only [relabel, returnedAt, LexemeKind.returned, place, line rfl]

end Lexeme

/-! ### Sources -/

namespace Cursor.Flows

variable {c c' d : Cursor} {lexemes lexemes' : List Lexeme}

/-- The source with carriage returns is cut into lexemes that look alike. -/
theorem returned (alike : c.Returned c') (flows : c.Flows lexemes d) :
    ∃ (lexemes' : List Lexeme) (d' : Cursor), c'.Flows lexemes' d' ∧
      lexemes'.map (Lexeme.relabel .lineAndColumn id) =
        lexemes.map (Lexeme.relabel .lineAndColumn Text.withReturns) := by
  induction lexemes generalizing c c' with
  | nil => exact ⟨[], c', flows_nil.2 rfl, by simp⟩
  | cons x lexemes ih =>
    obtain ⟨stands, later⟩ := flows
    obtain ⟨lexemes', d', later', same⟩ := ih (alike.behind stands.2.front) later
    refine ⟨x.returnedAt c'.position :: lexemes', d', ⟨stands.returned alike, later'⟩, ?_⟩
    rw [List.map_cons, List.map_cons, same, Lexeme.relabel_returnedAt alike stands]

/-- The source without carriage returns is cut into lexemes that look alike. -/
theorem of_returned (alike : c.Returned c') (flows : c'.Flows lexemes' d) :
    ∃ (lexemes : List Lexeme) (e : Cursor), c.Flows lexemes e ∧
      lexemes.map (Lexeme.relabel .lineAndColumn Text.withReturns) =
        lexemes'.map (Lexeme.relabel .lineAndColumn id) := by
  induction lexemes' generalizing c c' with
  | nil => exact ⟨[], c, flows_nil.2 rfl, by simp⟩
  | cons x lexemes' ih =>
    obtain ⟨stands, later⟩ := flows
    obtain ⟨y, stands', rfl⟩ := stands.of_returned alike
    obtain ⟨lexemes, e, flows, same⟩ := ih (alike.behind stands'.2.front) later
    refine ⟨y :: lexemes, e, ⟨stands', flows⟩, ?_⟩
    rw [List.map_cons, List.map_cons, same, Lexeme.relabel_returnedAt alike stands']

end Cursor.Flows

namespace Content

/-- **Line ends do not matter.** Carriage returns before the line feeds of a source leave it as
readable as it is, and its tree the same but for offsets and the line ends in escaped text. -/
theorem parse_withReturns {source : String} (clean : '\r' ∉ source.toList) :
    ((∃ content, parse (Text.withReturns source) = .ok content) ↔
        ∃ content, parse source = .ok content) ∧
      ∀ content content', parse source = .ok content →
        parse (Text.withReturns source) = .ok content' →
        content'.relabel .lineAndColumn id = content.relabel .lineAndColumn Text.withReturns := by
  have alike : (Cursor.ofString source).Returned (Cursor.ofString (Text.withReturns source)) :=
    ⟨String.toList_ofList, clean, rfl⟩
  have onward (content : Content) (parsed : parse source = .ok content) :
      ∃ content', parse (Text.withReturns source) = .ok content' ∧
        content'.relabel .lineAndColumn id = content.relabel .lineAndColumn Text.withReturns := by
    obtain ⟨depth, lexemes, last, spelled, flows⟩ := parse_eq_ok_iff.1 parsed
    obtain ⟨lexemes', last', flows', same⟩ := flows.returned alike
    obtain ⟨content', spelled', same'⟩ := Grammar.transfers_file
      (Grammar.transfers_ofDepth (Nat.le_refl depth)) content lexemes lexemes' spelled same
    exact ⟨content', parse_eq_ok_iff.2 ⟨depth, lexemes', last', spelled', flows'⟩, same'⟩
  refine ⟨⟨?_, fun ⟨content, parsed⟩ => ?_⟩, fun content content' parsed parsed' => ?_⟩
  · rintro ⟨content', parsed⟩
    obtain ⟨depth, lexemes', last, spelled, flows⟩ := parse_eq_ok_iff.1 parsed
    obtain ⟨lexemes, last', flows', same⟩ := flows.of_returned alike
    obtain ⟨content, spelled', _⟩ := Grammar.transfers_file
      (Grammar.transfers_ofDepth (Nat.le_refl depth)) content' lexemes' lexemes spelled same
    exact ⟨content, parse_eq_ok_iff.2 ⟨depth, lexemes, last', spelled', flows'⟩⟩
  · obtain ⟨content', parsed', _⟩ := onward content parsed
    exact ⟨content', parsed'⟩
  · obtain ⟨other, parsed'', same⟩ := onward content parsed
    obtain rfl : other = content' := by simpa [parsed'] using parsed''.symm
    exact same

/-- A line of text, and escaped text over two lines whose backtick is at the given offset. -/
def twoLines (offset : Nat) (text : String) : Content :=
  ⟨[], [[.plain ⟨"a", ⟨1, 1, 0⟩⟩],
    [.escaped ⟨⟨2, 1, offset⟩, ⟨text, ⟨2, 2, offset + 1⟩⟩⟩]]⟩

/-- The line end between the lines of text shifts only offsets, and the one in escaped text is
kept. -/
theorem parse_withReturns_twoLines : '\r' ∉ "a\n\x60b\n c\x60".toList ∧
    parse "a\n\x60b\n c\x60" = .ok (twoLines 2 "b\nc") ∧
    parse (Text.withReturns "a\n\x60b\n c\x60") = .ok (twoLines 3 "b\r\nc") ∧
    (twoLines 3 "b\r\nc").relabel .lineAndColumn id =
      (twoLines 2 "b\nc").relabel .lineAndColumn Text.withReturns := by
  have clean : '\r' ∉ "a\n\x60b\n c\x60".toList := by decide
  have fits : parse "a\n\x60b\n c\x60" = .ok (twoLines 2 "b\nc") := by
    with_unfolding_all rfl
  have fits' : parse (Text.withReturns "a\n\x60b\n c\x60") = .ok (twoLines 3 "b\r\nc") := by
    with_unfolding_all rfl
  have alike := (@parse_withReturns "a\n\x60b\n c\x60" clean).2 _ _ fits fits'
  exact ⟨clean, fits, fits', alike⟩

end Content

end TypedMarkup
