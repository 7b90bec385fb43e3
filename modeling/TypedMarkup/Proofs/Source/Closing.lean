/-
**Closing what is open.** A source may end inside a comment or inside escaped text. What is read of
it goes on to be read if something that closes it is written behind.

* `triviaText_closes`: behind trivia something can be written, a line feed first, that ends them,
  whatever follows.
* `scanEscaped_closes`: escaped text that does not end, or not where it should, can be written on
  from the last character that is read of it.
-/

import TypedMarkup.Proofs.Source.Fronts

namespace TypedMarkup

/-! ### Trivia -/

/-- What closes so many comments. -/
def commentEnds : Nat → List Char
  | 0 => []
  | open' + 1 => '*' :: '/' :: commentEnds open'

theorem commentTail_commentEnds (inner : Nat) (other : List Char) :
    commentTail inner (commentEnds (inner + 1) ++ other) = commentEnds (inner + 1) := by
  induction inner with
  | zero => rfl
  | succ inner ih => exact congrArg (fun tail => '*' :: '/' :: tail) ih

/-- A comment is closed, or can be. -/
theorem commentTail_closes (inner : Nat) (text : List Char) : ∃ closing : List Char,
    (closing = [] ∧ text ≠ [] ∨
      closing.head? = some '\n' ∧ text.drop (commentTail inner text).length = []) ∧
    ∀ other, commentTail inner (commentTail inner text ++ (closing ++ other)) =
      commentTail inner text ++ closing := by
  induction inner, text using commentTail_induction with
  | nil inner =>
    refine ⟨'\n' :: commentEnds (inner + 1), .inr ⟨rfl, List.drop_nil⟩, fun other => ?_⟩
    have none : commentTail inner [] = [] := by cases inner <;> rfl
    rw [none, List.nil_append, List.nil_append, List.cons_append, commentTail_cons rfl rfl,
      commentTail_commentEnds]
  | opens inner text ih =>
    obtain ⟨closing, kind, closes⟩ := ih
    refine ⟨closing, kind.imp (And.imp_right fun _ => List.cons_ne_nil _ _) id, fun other => ?_⟩
    simp only [commentTail, List.cons_append, closes]
  | ends text => exact ⟨[], .inl ⟨rfl, List.cons_ne_nil _ _⟩, fun other => rfl⟩
  | closes inner text ih =>
    obtain ⟨closing, kind, closes⟩ := ih
    refine ⟨closing, kind.imp (And.imp_right fun _ => List.cons_ne_nil _ _) id, fun other => ?_⟩
    simp only [commentTail, List.cons_append, closes]
  | other inner c text notOpen notClose ih =>
    obtain ⟨closing, kind, closes⟩ := ih
    rw [commentTail_cons notOpen notClose]
    refine ⟨closing, kind.imp (And.imp_right fun _ => List.cons_ne_nil _ _) id, fun other => ?_⟩
    -- A line feed opens and closes nothing together with the character before it.
    have head : (commentTail inner text ++ (closing ++ other)).head? = text.head? ∨
        (commentTail inner text ++ (closing ++ other)).head? = some '\n' := by
      rw [List.head?_append, head?_commentTail]
      cases text with
      | cons d text => exact .inl rfl
      | nil =>
        obtain ⟨_, some⟩ | ⟨feed, _⟩ := kind
        · exact absurd rfl some
        · obtain ⟨more, rfl⟩ := List.head?_eq_some_iff.1 feed
          exact .inr rfl
    have notOpen' : opensComment c (commentTail inner text ++ (closing ++ other)).head? = false := by
      rcases head with same | feed
      · rw [same, notOpen]
      · simp [opensComment, feed]
    have notClose' : closesComment c (commentTail inner text ++ (closing ++ other)).head? = false := by
      rcases head with same | feed
      · rw [same, notClose]
      · simp [closesComment, feed]
    rw [List.cons_append, commentTail_cons notOpen' notClose', closes, List.cons_append]

/-- **Trivia can be ended** before whatever begins no trivia, with a line feed first. -/
theorem triviaText_closes (text : List Char) : ∃ closing : List Char,
    closing.head? = some '\n' ∧ ∀ other, trivia? other = none →
      triviaText (triviaText text ++ (closing ++ other)) = triviaText text ++ closing := by
  induction text using triviaText_induction with
  | nil =>
    refine ⟨['\n'], rfl, fun other clear => ?_⟩
    rw [triviaText_nil, List.nil_append, List.cons_append, triviaText_space rfl, List.nil_append,
      triviaText_of_none clear, List.nil_append]
  | space c text space ih =>
    obtain ⟨closing, feed, closes⟩ := ih
    refine ⟨closing, feed, fun other clear => ?_⟩
    rw [triviaText_space space, List.cons_append, triviaText_space space, closes other clear,
      List.cons_append]
  | lineComment text ih =>
    obtain ⟨line, rest, rfl, inLine, ends, behind⟩ := exists_line text
    rw [behind] at ih
    obtain ⟨closing, feed, closes⟩ := ih
    obtain ⟨more, rfl⟩ := List.head?_eq_some_iff.1 feed
    refine ⟨'\n' :: more, rfl, fun other clear => ?_⟩
    have ended : (triviaText rest ++ ('\n' :: more ++ other)).head?.any
        (fun c => c != '\n') = false := by
      cases rest with
      | nil => rw [triviaText_nil]; rfl
      | cons c rest =>
        obtain rfl : c = '\n' := by simpa using ends
        rw [triviaText_space rfl]
        rfl
    rw [triviaText_line inLine ends, List.append_assoc, List.cons_append,
      triviaText_line inLine ended, closes other clear, List.append_assoc, List.cons_append]
  | blockComment text ih =>
    obtain ⟨closing, feed, closes⟩ := ih
    obtain ⟨ending, kind, ended⟩ := commentTail_closes 0 text
    rw [triviaText_blockComment]
    obtain ⟨rfl, _⟩ | ⟨feed', last⟩ := kind
    · refine ⟨closing, feed, fun other clear => ?_⟩
      have taken (other : List Char) :
          commentTail 0 (commentTail 0 text ++ other) = commentTail 0 text := by
        simpa using ended other
      rw [List.append_assoc, List.cons_append, List.cons_append, triviaText_blockComment, taken,
        List.drop_left, closes other clear, ← List.append_assoc]
    · refine ⟨ending, feed', fun other clear => ?_⟩
      rw [last, triviaText_nil, List.append_nil, List.cons_append, List.cons_append,
        triviaText_blockComment, ended, ← List.append_assoc, List.drop_left,
        triviaText_of_none clear, List.append_nil]
      rfl
  | other c text notSpace notLine notBlock =>
    refine ⟨['\n'], rfl, fun other clear => ?_⟩
    rw [triviaText_other notSpace notLine notBlock, List.nil_append, List.cons_append,
      triviaText_space rfl, List.nil_append, triviaText_of_none clear, List.nil_append]

/-! ### Escaped text -/

/-- Escaped text begins like what it is scanned in, unless it ends in a backslash at once. -/
theorem head?_scanEscaped_cons {col : Nat} {c : Char} {text : List Char} (notEscape : c ≠ '\\')
    (other : List Char) :
    ((scanEscaped col 0 (c :: text)).passed ++ other).head? = some c := by
  by_cases quote : c = '\x60'
  · subst quote
    rfl
  by_cases feed : c = '\n'
  · subst feed
    rfl
  rw [scanEscaped_cons quote feed fun same => absurd same notEscape]
  rfl

theorem scanEscaped_spaces (col due : Nat) (other : List Char) :
    scanEscaped col due (List.replicate due ' ' ++ '\x60' :: other) =
      ⟨[], List.replicate due ' ' ++ ['\x60'], .closed⟩ := by
  induction due with
  | zero => rfl
  | succ due ih =>
    rw [List.replicate_succ, List.cons_append, scanEscaped, ih]
    rfl

/-- **Escaped text can be closed** where it fails to be, by spaces and a backtick. -/
theorem scanEscaped_closes {col due : Nat} {text : List Char}
    (failed : (scanEscaped col due text).ending ≠ .closed) : ∃ content closing : List Char,
    (closing.head? = some ' ' ∨ closing.head? = some '\x60') ∧
    ∀ other, scanEscaped col due ((scanEscaped col due text).passed ++ (closing ++ other)) =
      ⟨content, (scanEscaped col due text).passed ++ closing, .closed⟩ := by
  have quoted (col : Nat) : ∃ content closing : List Char,
      (closing.head? = some ' ' ∨ closing.head? = some '\x60') ∧
      ∀ other, scanEscaped col 0 ([] ++ (closing ++ other)) = ⟨content, [] ++ closing, .closed⟩ :=
    ⟨[], ['\x60'], .inr rfl, fun _ => rfl⟩
  fun_induction scanEscaped col due text with
  | case1 due rest ih =>
    obtain ⟨content, closing, front, closes⟩ := ih failed
    exact ⟨content, closing, front, fun other => by
      simp [EscapedScan.after, scanEscaped, closes other]⟩
  | case2 text due =>
    refine ⟨[], List.replicate (due + 1) ' ' ++ ['\x60'], .inl rfl, fun other => ?_⟩
    rw [List.nil_append, List.append_assoc]
    exact scanEscaped_spaces _ _ other
  | case3 => exact quoted _
  | case4 => exact quoted _
  | case5 => exact absurd rfl failed
  | case6 rest ih =>
    obtain ⟨content, closing, front, closes⟩ := ih failed
    exact ⟨'\x60' :: content, closing, front, fun other => by
      simp [EscapedScan.after, scanEscaped, closes other]⟩
  | case7 rest ih =>
    obtain ⟨content, closing, front, closes⟩ := ih failed
    exact ⟨'\\' :: content, closing, front, fun other => by
      simp [EscapedScan.after, scanEscaped, closes other]⟩
  | case8 rest ih =>
    obtain ⟨content, closing, front, closes⟩ := ih failed
    exact ⟨'\n' :: content, closing, front, fun other => by
      simp [EscapedScan.after, scanEscaped, closes other]⟩
  | case9 c rest notLast notQuote notQuoted notDoubled notFeed ih =>
    obtain ⟨content, closing, front, closes⟩ := ih failed
    refine ⟨c :: content, closing, front, fun other => ?_⟩
    show scanEscaped col 0
      (c :: ((scanEscaped col 0 rest).passed ++ (closing ++ other))) = _
    rw [scanEscaped_cons notQuote notFeed, closes]
    · rfl
    rintro rfl
    cases rest with
    | nil => exact (notLast rfl rfl).elim
    | cons d rest =>
      have double : d ≠ '\\' := fun same => notDoubled rest rfl (same ▸ rfl)
      exact ⟨d, head?_scanEscaped_cons double _, fun same => notQuoted rest rfl (same ▸ rfl),
        double⟩

end TypedMarkup
