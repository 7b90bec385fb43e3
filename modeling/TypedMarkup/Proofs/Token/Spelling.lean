/-
**How tokens are spelt.** What the text of a token is like, by its kind, and what may follow it.

* `TokenKind.Spells kind text behind` says so of a token with that text and what is behind it. For
  comments that nest, `commentUnits` cuts the text into delimiters and other characters, and
  `NestedComment` counts them; for escaped text, `backslashes` counts those before a backtick.
* `Piece.spells`: every piece that a lexer may cut is spelt as its kind requires. There is one lemma
  for each scan before it.
* `tokenize_spells`: so is every token of a source.
-/

import TypedMarkup.Proofs.Source.Fronts
import TypedMarkup.Proofs.Token.Partition

namespace TypedMarkup

/-! ### Comments -/

/-- The delimiters of comments in a text and the characters between them, from left to right. -/
def commentUnits : List Char → List (List Char)
  | [] => []
  | '/' :: '*' :: rest => ['/', '*'] :: commentUnits rest
  | '*' :: '/' :: rest => ['*', '/'] :: commentUnits rest
  | c :: rest => [c] :: commentUnits rest

/-- The number of comments that units open. -/
def commentsOpened (units : List (List Char)) : Nat :=
  units.count ['/', '*']

/-- The number of comments that units close. -/
def commentsClosed (units : List (List Char)) : Nat :=
  units.count ['*', '/']

/-- A comment that may hold others. Before its end it has opened more than it has closed, and there
it has closed them all, unless nothing is behind it. -/
structure NestedComment (text behind : List Char) : Prop where
  opening : ['/', '*'] <+: text
  inside : ∀ front, front <+: commentUnits text → front ≠ [] → front ≠ commentUnits text →
    commentsClosed front < commentsOpened front
  ends : commentsClosed (commentUnits text) = commentsOpened (commentUnits text) ∨
    behind = [] ∧ commentsClosed (commentUnits text) < commentsOpened (commentUnits text)

/-- Units behind the opening of a comment, with so many inner ones open. Before their end they do not
close it, and there they do, unless nothing is behind them. -/
structure ClosesLast (inner : Nat) (units : List (List Char)) (behind : List Char) : Prop where
  inside : ∀ front, front <+: units → front ≠ units →
    commentsClosed front ≤ commentsOpened front + inner
  ends : commentsClosed units = commentsOpened units + inner + 1 ∨
    behind = [] ∧ commentsClosed units ≤ commentsOpened units + inner

theorem commentsOpened_cons (unit : List Char) (units : List (List Char)) :
    commentsOpened (unit :: units) = commentsOpened [unit] + commentsOpened units := by
  rw [← List.singleton_append]
  exact List.count_append

theorem commentsClosed_cons (unit : List Char) (units : List (List Char)) :
    commentsClosed (unit :: units) = commentsClosed [unit] + commentsClosed units := by
  rw [← List.singleton_append]
  exact List.count_append

/-- A unit before others, with the inner comments that are open behind it. -/
theorem ClosesLast.cons {inner inner' : Nat} {unit : List Char} {units : List (List Char)}
    {behind : List Char} (weight : commentsClosed [unit] + inner' = commentsOpened [unit] + inner)
    (closes : ClosesLast inner' units behind) : ClosesLast inner (unit :: units) behind where
  inside front stands shorter := by
    rcases List.prefix_cons_iff.1 stands with rfl | ⟨later, rfl, behind⟩
    · exact Nat.zero_le _
    · have later := closes.inside later behind fun same => shorter (same ▸ rfl)
      rw [commentsOpened_cons, commentsClosed_cons]
      omega
  ends := by
    rw [commentsOpened_cons, commentsClosed_cons]
    refine closes.ends.imp (fun same => ?_) (And.imp_right fun fewer => ?_)
    · omega
    · omega

theorem commentUnits_cons {c : Char} {text : List Char}
    (notOpen : opensComment c text.head? = false) (notClose : closesComment c text.head? = false) :
    commentUnits (c :: text) = [c] :: commentUnits text := by
  rw [commentUnits.eq_def]
  split
  · next none => cases none
  · next rest same =>
    cases same
    cases notOpen
  · next rest same =>
    cases same
    cases notClose
  · next same =>
    cases same
    rfl

/-- A character alone opens and closes no comment. -/
theorem comments_single (c : Char) : commentsOpened [[c]] = 0 ∧ commentsClosed [[c]] = 0 := by
  simp [commentsOpened, commentsClosed]

/-- **A scan of a comment** ends where the comment is closed, if it is. -/
theorem commentTail_closesLast (inner : Nat) (text : List Char) :
    ClosesLast inner (commentUnits (commentTail inner text))
      (text.drop (commentTail inner text).length) := by
  induction inner, text using commentTail_induction with
  | nil inner =>
    have none : commentTail inner [] = [] := by cases inner <;> rfl
    rw [none]
    refine ⟨fun front stands shorter => absurd (List.prefix_nil.1 stands) shorter, .inr ⟨rfl, ?_⟩⟩
    exact Nat.zero_le _
  | opens inner text ih =>
    have weight : commentsClosed [['/', '*']] + (inner + 1) = commentsOpened [['/', '*']] + inner := by
      show 0 + (inner + 1) = 1 + inner
      omega
    exact ih.cons weight
  | ends text =>
    refine ⟨fun front stands shorter => ?_, .inl rfl⟩
    rcases List.prefix_cons_iff.1 stands with rfl | ⟨later, rfl, behind⟩
    · exact Nat.zero_le _
    · exact absurd (List.prefix_nil.1 behind ▸ rfl) shorter
  | closes inner text ih =>
    have weight : commentsClosed [['*', '/']] + inner = commentsOpened [['*', '/']] + (inner + 1) := by
      show 1 + inner = 0 + (inner + 1)
      omega
    exact ih.cons weight
  | other inner c text notOpen notClose ih =>
    have next := head?_commentTail inner text
    rw [commentTail_cons notOpen notClose,
      commentUnits_cons (next.symm ▸ notOpen) (next.symm ▸ notClose)]
    refine ClosesLast.cons ?_ ih
    rw [(comments_single c).1, (comments_single c).2]

/-- The comment at the front of a text. -/
theorem nestedComment_commentTail (rest : List Char) :
    NestedComment ('/' :: '*' :: commentTail 0 rest) (rest.drop (commentTail 0 rest).length) := by
  have closes := commentTail_closesLast 0 rest
  have units : commentUnits ('/' :: '*' :: commentTail 0 rest) =
      ['/', '*'] :: commentUnits (commentTail 0 rest) := rfl
  have opened : commentsOpened [['/', '*']] = 1 := rfl
  have closed : commentsClosed [['/', '*']] = 0 := rfl
  refine ⟨⟨commentTail 0 rest, rfl⟩, fun front stands some shorter => ?_, ?_⟩
  · rw [units] at stands shorter
    rcases List.prefix_cons_iff.1 stands with rfl | ⟨later, rfl, behind⟩
    · exact absurd rfl some
    · have later := closes.inside later behind fun same => shorter (same ▸ rfl)
      rw [commentsOpened_cons, commentsClosed_cons]
      omega
  · rw [units, commentsOpened_cons, commentsClosed_cons]
    refine closes.ends.imp (fun same => ?_) (And.imp_right fun fewer => ?_)
    · omega
    · omega

/-! ### Escaped text -/

/-- The number of backslashes that a text ends in. -/
def backslashes (text : List Char) : Nat :=
  (text.reverse.takeWhile fun c => c == '\\').length

/-- What is before another character does not count. -/
theorem backslashes_append_cons {c : Char} (other : c ≠ '\\') (text more : List Char) :
    backslashes (text ++ c :: more) = backslashes more := by
  unfold backslashes
  rw [List.reverse_append, List.reverse_cons, List.append_assoc, List.takeWhile_append]
  split
  · next whole => simp [other, whole]
  · rfl

/-- Two backslashes more are two more or none. -/
theorem backslashes_pair (text : List Char) :
    backslashes ('\\' :: '\\' :: text) % 2 = backslashes text % 2 := by
  unfold backslashes
  rw [List.reverse_cons, List.reverse_cons, List.append_assoc, List.takeWhile_append]
  split
  · next whole => simp [whole]
  · rfl

/-- A backtick behind another character. -/
theorem exists_before_backtick {c : Char} {inner before after : List Char} (other : c ≠ '\x60')
    (split : c :: inner = before ++ '\x60' :: after) :
    ∃ later, before = c :: later ∧ inner = later ++ '\x60' :: after := by
  rcases List.cons_eq_append_iff.1 split with ⟨_, same⟩ | found
  · exact absurd (List.cons.inj same).1.symm other
  · exact found

/-- **A scan of escaped text** ends with the first backtick that is not escaped: the backslashes
before it are even in number, and those before all others are odd. -/
theorem escapedFront_escapes {text front : List Char} (closed : escapedFront text = some front) :
    front.getLast? = some '\x60' ∧ ∀ before after, front = before ++ '\x60' :: after →
      (backslashes before % 2 = 1 ↔ after ≠ []) := by
  fun_induction escapedFront text generalizing front with
  | case1 => cases closed
  | case2 => cases closed
  | case3 rest =>
    cases closed
    refine ⟨rfl, fun before after split => ?_⟩
    obtain ⟨rfl, same⟩ | ⟨more, rfl, none⟩ := List.singleton_eq_append_iff.1 split
    cases same
    exact iff_of_false (by decide) fun some => some rfl
  | case4 rest ih =>
    obtain ⟨inner, same, rfl⟩ := Option.map_eq_some_iff.1 closed
    obtain ⟨last, escapes⟩ := ih same
    have some : inner ≠ [] := fun none => by simp [none] at last
    refine ⟨by simp [List.getLast?_cons, last], fun before after split => ?_⟩
    obtain ⟨later, rfl, behind⟩ := exists_before_backtick (by decide) split
    rcases List.cons_eq_append_iff.1 behind with ⟨rfl, first⟩ | ⟨last, rfl, rest⟩
    · cases first
      exact iff_of_true rfl some
    · have counts := backslashes_append_cons (c := '\x60') (by decide) ['\\'] last
      rw [List.singleton_append] at counts
      rw [counts]
      exact escapes last after rest
  | case5 rest ih =>
    obtain ⟨inner, same, rfl⟩ := Option.map_eq_some_iff.1 closed
    obtain ⟨last, escapes⟩ := ih same
    refine ⟨by simp [List.getLast?_cons, last], fun before after split => ?_⟩
    obtain ⟨later, rfl, behind⟩ := exists_before_backtick (by decide) split
    obtain ⟨last, rfl, rest⟩ := exists_before_backtick (by decide) behind
    rw [backslashes_pair]
    exact escapes last after rest
  | case6 c rest notLast notQuote notQuoted notDoubled ih =>
    obtain ⟨inner, same, rfl⟩ := Option.map_eq_some_iff.1 closed
    obtain ⟨last, escapes⟩ := ih same
    refine ⟨by simp [List.getLast?_cons, last], fun before after split => ?_⟩
    obtain ⟨later, rfl, behind⟩ := exists_before_backtick notQuote split
    have counts : backslashes (c :: later) = backslashes later := by
      by_cases slash : c = '\\'
      · -- A backslash that escapes nothing has another character behind it.
        obtain ⟨left, stands⟩ := escapedFront_stands same
        subst slash behind
        cases later with
        | nil => exact (notQuoted _ rfl stands.symm).elim
        | cons x more =>
          have other : x ≠ '\\' := by
            rintro rfl
            exact notDoubled _ rfl stands.symm
          exact (backslashes_append_cons other ['\\'] more).trans
            (backslashes_append_cons other [] more).symm
      · exact backslashes_append_cons slash [] later
    rw [counts]
    exact escapes later after behind

/-! ### Words and white space -/

/-- A text of allowed characters, behind which none stands. -/
structure Longest (allowed : Char → Bool) (text behind : List Char) : Prop where
  inside : ∀ c ∈ text, allowed c = true
  ends : behind.head?.any allowed = false

theorem longest_takeWhile (allowed : Char → Bool) (text : List Char) :
    Longest allowed (text.takeWhile allowed) (text.drop (text.takeWhile allowed).length) where
  inside := List.all_eq_true.1 List.all_takeWhile
  ends := takeWhile_ends allowed text

/-! ### Kinds -/

/-- What the text of a token of a kind is like, and what may be behind it. -/
def TokenKind.Spells (kind : TokenKind) (text behind : List Char) : Prop :=
  match kind with
  | .space => Longest isSpace text behind
  | .comment =>
    if text.head? = some ';' then '\n' ∉ text ∧ (behind = [] ∨ behind.head? = some '\n')
    else NestedComment text behind
  | .keyword | .typeName | .bindingName | .propertyName => Longest isNameChar text behind
  | .valueLiteral => Longest isValueChar text behind
  | .escapedText => ∃ front, text = '\x60' :: front ∧ front.getLast? = some '\x60' ∧
      ∀ before after, front = before ++ '\x60' :: after →
        (backslashes before % 2 = 1 ↔ after ≠ [])
  | .text => ∀ c ∈ text, c ∉ ['\r', '\n', '\x60', ']']
  | .ignored => ['_', '['] <+: text ∧ text.getLast? = some ']'
  | _ => True

/-- A piece of trivia is spelt as its kind requires. -/
theorem trivia?_spells {left : List Char} {piece : Trivia} (found : trivia? left = some piece) :
    (Lexer.triviaToken piece.kind).Spells piece.text (left.drop piece.text.length) := by
  unfold trivia? at found
  split at found
  · cases found
  · next rest =>
    cases found
    have line := longest_takeWhile (fun c => c != '\n') rest
    have ends := line.ends
    simp only [Lexer.triviaToken, TokenKind.Spells, List.head?_cons, if_true]
    refine ⟨fun feed => ?_, ?_⟩
    · rcases List.mem_cons.1 feed with same | feed
      · cases same
      · simpa using line.inside '\n' feed
    · rw [List.length_cons, List.drop_succ_cons]
      cases behind : rest.drop (rest.takeWhile fun c => c != '\n').length with
      | nil => exact .inl rfl
      | cons c more =>
        rw [behind] at ends
        exact .inr (by simpa using ends)
  · next rest =>
    cases found
    have other : ('/' :: '*' :: commentTail 0 rest).head? ≠ some ';' := by simp
    simp only [Lexer.triviaToken, TokenKind.Spells, if_neg other]
    exact nestedComment_commentTail rest
  · next c rest _ _ =>
    split at found
    · next space =>
      cases found
      have run := longest_takeWhile isSpace (c :: rest)
      rwa [List.takeWhile_cons, if_pos space] at run
    · cases found

/-- **Every piece** is spelt as its kind requires. -/
theorem Piece.spells {left text : List Char} {kind : TokenKind} (piece : Piece left kind text) :
    kind.Spells text (left.drop text.length) := by
  cases piece with
  | trivia found => exact trivia?_spells found
  | sign sign found => cases kind <;> trivial
  | word word found =>
    have run := longest_takeWhile isNameChar left
    cases kind with
    | keyword | typeName | bindingName | propertyName => exact run
    | _ => cases word
  | literal found => exact longest_takeWhile isValueChar left
  | escaped found closed =>
    obtain ⟨last, escapes⟩ := escapedFront_escapes closed
    exact ⟨_, rfl, last, escapes⟩
  | @text c rest found plain =>
    intro x member
    rcases List.mem_cons.1 member with rfl | member
    · exact plain
    · have inside := (longest_takeWhile (fun next => !Lexer.endsTextToken next) rest).inside x member
      intro other
      simp only [List.mem_cons, List.not_mem_nil, or_false] at other
      rcases other with rfl | rfl | rfl | rfl <;> cases inside
  | @ignored inside behind found =>
    exact ⟨⟨inside ++ [']'], rfl⟩, List.getLast?_concat⟩

/-! ### Sources -/

/-- A token stands in a source behind others, and is spelt as its kind requires. -/
def Token.SpeltIn (source : String) (before : List Token) (token : Token) : Prop :=
  ∃ behind, source.toList = Token.textOf before ++ token.text.toList ++ behind ∧
    token.kind.Spells token.text.toList behind

namespace Lexer.State

variable {source : String} {state after : State}

/-- **Every step** spells its token as its kind requires. -/
theorem Step.spells (covers : state.Covers source) (step : state.Step after) :
    ∃ token, after.tokens = token :: state.tokens ∧
      token.SpeltIn source state.tokens.reverse := by
  have stands {text behind : List Char} (split : state.cursor.rest = text ++ behind) :
      source.toList =
        Token.textOf state.tokens.reverse ++ (String.ofList text).toList ++ behind := by
    rw [String.toList_ofList, List.append_assoc, ← split, covers.text]
  cases step with
  | cut piece =>
    obtain ⟨behind, split⟩ := piece.stands
    refine ⟨_, rfl, behind, stands split.symm, ?_⟩
    have spells := piece.spells
    rw [← split, List.drop_left] at spells
    exact String.toList_ofList ▸ spells
  | opened found => exact ⟨_, rfl, _, stands (Cursor.rest_of_head found), trivial⟩
  | closed found _ => exact ⟨_, rfl, _, stands (Cursor.rest_of_head found), trivial⟩

/-- The tokens cut so far cover the source and are spelt as their kinds require. -/
structure Spelt (source : String) (state : State) : Prop where
  covers : state.Covers source
  each : ∀ before token after, state.tokens.reverse = before ++ token :: after →
    token.SpeltIn source before

theorem spelt_ofString (source : String) : (ofString source).Spelt source where
  covers := covers_ofString source
  each before token after split := absurd split (by simp [ofString])

theorem Spelt.steps (spelt : state.Spelt source) (steps : state.Steps after) :
    after.Spelt source := by
  refine Steps.preserves steps spelt fun {before next} step spelt => ⟨spelt.covers.step step, ?_⟩
  obtain ⟨token, more, here⟩ := step.spells spelt.covers
  rw [more, List.reverse_cons]
  exact Token.split_concat spelt.each here

end Lexer.State

/-- **Texts match kinds.** Every token stands in the source at its offset, and its text and what is
behind it are as its kind requires. -/
theorem tokenize_spells (source : String) : ∀ token ∈ tokenize source, ∃ before behind,
    source.toList = before ++ token.text.toList ++ behind ∧ token.start = bytesOf before ∧
    token.kind.Spells token.text.toList behind := by
  obtain ⟨last, steps, ends⟩ := tokenize_steps source
  have spelt := (Lexer.State.spelt_ofString source).steps steps
  have read : ∀ token ∈ last.tokens.reverse, ∃ before behind,
      source.toList = before ++ token.text.toList ++ behind ∧ token.start = bytesOf before ∧
      token.kind.Spells token.text.toList behind := by
    intro token member
    obtain ⟨before, after, split⟩ := List.append_of_mem member
    obtain ⟨behind, stands, spells⟩ := spelt.each before token after split
    exact ⟨_, behind, stands, spelt.covers.placed before token after split, spells⟩
  intro token member
  rcases ends with ⟨same, _⟩ | same
  · exact read token (same ▸ member)
  · rcases List.mem_append.1 (same ▸ member) with earlier | here
    · exact read token earlier
    · obtain rfl := List.mem_singleton.1 here
      refine ⟨_, [], ?_, spelt.covers.offset, trivial⟩
      rw [List.append_nil, ← spelt.covers.text]
      exact congrArg _ String.toList_ofList.symm

/-- A comment in which another one opens before its first asterisk could close it. -/
theorem tokenize_spells_comment : ∃ token ∈ tokenize "; a\n/*/**/*/`\\\\\\``",
    token.text = "/*/**/*/" ∧ ∃ before behind,
      "; a\n/*/**/*/`\\\\\\``".toList = before ++ token.text.toList ++ behind ∧
      token.start = bytesOf before ∧ NestedComment token.text.toList behind := by
  let token : Token := ⟨.comment, 4, "/*/**/*/", none⟩
  have member : token ∈ tokenize "; a\n/*/**/*/`\\\\\\``" := by decide +kernel
  obtain ⟨before, behind, stands, start, spells⟩ := tokenize_spells _ token member
  have other : "/*/**/*/".toList.head? ≠ some ';' := by decide
  refine ⟨token, member, rfl, before, behind, stands, start, ?_⟩
  exact (if_neg other).mp spells

end TypedMarkup
