/-
**Fronts of texts.** Trivia, words and texts are taken from the front of what is left, and what they
are depends only a little on what follows them.

* Each of `triviaText_front`, `takeWhile_front`, `Parser.plainText_front` and `scanEscaped_front`
  says when the front that is taken before one text is taken before another as well.
-/

import TypedMarkup.Proofs.Source.Gaps
import TypedMarkup.Proofs.Tree.ReadsBlock

namespace TypedMarkup

variable {front text other : List Char}

/-! ### Words -/

/-- A word ends where no character of its class follows. -/
theorem takeWhile_front {allowed : Char → Bool} (taken : (front ++ text).takeWhile allowed = front)
    (ends : other.head?.any allowed = false) : (front ++ other).takeWhile allowed = front := by
  have holds : ∀ c ∈ front, allowed c = true := fun c member =>
    List.all_eq_true.1 List.all_takeWhile c (taken.symm ▸ member)
  rw [List.takeWhile_append_of_pos holds]
  cases other with
  | nil => simp
  | cons c other =>
    have stops : allowed c = false := by simpa using ends
    simp [stops]

/-- Behind a word no character of its class stands. -/
theorem takeWhile_ends (allowed : Char → Bool) (text : List Char) :
    (text.drop (text.takeWhile allowed).length).head?.any allowed = false := by
  induction text with
  | nil => rfl
  | cons c text ih =>
    cases goesOn : allowed c with
    | true => simpa [goesOn] using ih
    | false => simp [goesOn]

/-! ### Trivia -/

theorem head?_commentTail (inner : Nat) (text : List Char) :
    (commentTail inner text).head? = text.head? := by
  fun_induction commentTail inner text <;> rfl

/-- A comment that is closed, or before nothing else. -/
theorem commentTail_front {inner : Nat}
    (ends : text.drop (commentTail inner text).length = [] → other = []) :
    commentTail inner (commentTail inner text ++ other) = commentTail inner text := by
  induction inner, text using commentTail_induction with
  | nil inner =>
    obtain rfl := ends (by simp)
    cases inner <;> rfl
  | opens inner text ih =>
    simp only [commentTail, List.length_cons, List.drop_succ_cons] at ends
    simp [commentTail, ih ends]
  | ends text => simp [commentTail]
  | closes inner text ih =>
    simp only [commentTail, List.length_cons, List.drop_succ_cons] at ends
    simp [commentTail, ih ends]
  | other inner c text notOpen notClose ih =>
    rw [commentTail_cons notOpen notClose] at ends ⊢
    simp only [List.length_cons, List.drop_succ_cons] at ends
    have head : (commentTail inner text ++ other).head? = text.head? := by
      rw [List.head?_append, head?_commentTail]
      cases text with
      | nil => simp [ends (by simp)]
      | cons => rfl
    rw [List.cons_append, commentTail_cons (head ▸ notOpen) (head ▸ notClose), ih ends]

/-- A text, as its first line and what is behind it. -/
theorem exists_line (text : List Char) : ∃ line rest, text = line ++ rest ∧
    (∀ c ∈ line, (c != '\n') = true) ∧ rest.head?.any (fun c => c != '\n') = false ∧
    text.dropWhile (fun c => c != '\n') = rest := by
  refine ⟨text.takeWhile fun c => c != '\n', text.dropWhile fun c => c != '\n', ?_, ?_, ?_, rfl⟩
  · exact List.takeWhile_append_dropWhile.symm
  · exact fun c member => List.all_eq_true.1 List.all_takeWhile c member
  · have first := List.head?_dropWhile_not (fun c => c != '\n') text
    cases rest : text.dropWhile fun c => c != '\n' with
    | nil => rfl
    | cons c more =>
      rw [rest] at first
      simpa using first

/-- A comment to the end of the line is trivia, and so may be what is behind it. -/
theorem triviaText_line {line rest : List Char} (inLine : ∀ c ∈ line, (c != '\n') = true)
    (feed : rest.head?.any (fun c => c != '\n') = false) :
    triviaText (';' :: (line ++ rest)) = ';' :: line ++ triviaText rest := by
  have whole : (line ++ []).takeWhile (fun c => c != '\n') = line := by
    rw [List.takeWhile_append_of_pos inLine, List.takeWhile_nil, List.append_nil]
  have taken : (line ++ rest).takeWhile (fun c => c != '\n') = line := takeWhile_front whole feed
  have left := List.takeWhile_append_dropWhile (p := fun c => c != '\n') (l := line ++ rest)
  rw [taken] at left
  rw [triviaText_lineComment, taken, List.append_cancel_left left]

/-- Trivia before something that begins no trivia. A comment that is not closed is followed by
nothing. -/
theorem triviaText_front (clear : trivia? other = none)
    (ends : text.drop (triviaText text).length = [] → other = []) :
    triviaText (triviaText text ++ other) = triviaText text := by
  induction text using triviaText_induction with
  | nil => rw [triviaText_nil, List.nil_append, triviaText_of_none clear]
  | space c text space ih =>
    rw [triviaText_space space] at ends ⊢
    rw [List.cons_append, triviaText_space space, ih ends]
  | lineComment text ih =>
    obtain ⟨line, rest, rfl, inLine, feed, behind⟩ := exists_line text
    rw [behind] at ih
    rw [triviaText_line inLine feed] at ends ⊢
    have ended : (triviaText rest ++ other).head?.any (fun c => c != '\n') = false := by
      cases rest with
      | nil => simp [triviaText_nil, ends (by simp [triviaText_nil])]
      | cons c rest =>
        obtain rfl : c = '\n' := by simpa using feed
        rw [triviaText_space rfl]
        rfl
    have left : (';' :: (line ++ rest)).drop (';' :: line ++ triviaText rest).length =
        rest.drop (triviaText rest).length := by
      simp [← List.drop_drop]
    rw [List.append_assoc, List.cons_append, triviaText_line inLine ended, ih (left ▸ ends),
      List.cons_append]
  | blockComment text ih =>
    rw [triviaText_blockComment] at ends ⊢
    have behind : ('/' :: '*' :: text).drop ('/' :: '*' :: commentTail 0 text ++
        triviaText (text.drop (commentTail 0 text).length)).length =
        (text.drop (commentTail 0 text).length).drop
          (triviaText (text.drop (commentTail 0 text).length)).length := by
      simp [← List.drop_drop]
    rw [behind] at ends
    have taken : commentTail 0 (commentTail 0 text ++
        (triviaText (text.drop (commentTail 0 text).length) ++ other)) = commentTail 0 text := by
      refine commentTail_front fun last => ?_
      rw [last, triviaText_nil] at ends ⊢
      exact ends rfl
    rw [List.append_assoc, List.cons_append, List.cons_append, triviaText_blockComment, taken,
      List.drop_left, ih ends]
  | other c text notSpace notLine notBlock =>
    rw [triviaText_other notSpace notLine notBlock, List.nil_append, triviaText_of_none clear]

/-- White space goes on before what follows. -/
theorem triviaText_spaces (spaces : ∀ c ∈ front, isSpace c = true) (text : List Char) :
    triviaText (front ++ text) = front ++ triviaText text := by
  induction front with
  | nil => rfl
  | cons c front ih =>
    rw [List.cons_append, triviaText_space (spaces c (List.mem_cons_self ..)),
      ih fun x member => spaces x (List.mem_cons_of_mem _ member), List.cons_append]

/-! ### Text -/

namespace Parser

/-- Plain text goes on over a character that neither ends it nor begins an ignored node. -/
theorem plainText_cons (c : Char) (text : List Char) :
    plainText (c :: text) =
      if endsText c || (c = '_' && text.head? = some '[') then [] else c :: plainText text := by
  rw [plainText.eq_def]
  split
  · next none => cases none
  · next same =>
    obtain ⟨rfl, rfl⟩ := List.cons.inj same
    rfl
  · next notNode same =>
    obtain ⟨rfl, rfl⟩ := List.cons.inj same
    cases endsText c with
    | true => rfl
    | false =>
      have other : (c = '_' && text.head? = some '[') = false := by
        refine Bool.eq_false_iff.2 fun node => ?_
        simp only [Bool.and_eq_true, decide_eq_true_eq] at node
        obtain ⟨rest, same⟩ := List.head?_eq_some_iff.1 node.2
        exact notNode rest node.1 same
      simp [other]

/-- There is no plain text where text ends or an ignored node stands. -/
theorem plainText_eq_nil {text : List Char} : plainText text = [] ↔
    text.head?.all endsText = true ∨ text.head? = some '_' ∧ text.tail.head? = some '[' := by
  cases text with
  | nil => simp [plainText]
  | cons c text =>
    rw [plainText_cons]
    cases ends : endsText c <;> simp [ends]

/-- Behind plain text no plain text stands. -/
theorem plainText_ends (text : List Char) :
    plainText (text.drop (plainText text).length) = [] := by
  induction text with
  | nil => rfl
  | cons c text ih =>
    rw [plainText_cons]
    split
    · next stops => rw [List.length_nil, List.drop_zero, plainText_cons, if_pos stops]
    · exact ih

/-- Plain text before something that ends it, where no bracket makes an ignored node of its last
character. -/
theorem plainText_front (taken : plainText (front ++ text) = front) (ends : plainText other = [])
    (bracket : other.head? = some '[' → text.head? = some '[') :
    plainText (front ++ other) = front := by
  induction front with
  | nil => exact ends
  | cons c front ih =>
    rw [List.cons_append, plainText_cons] at taken ⊢
    split at taken
    · cases taken
    · next goesOn =>
      rw [ih (List.cons.inj taken).2, if_neg]
      intro stops
      refine goesOn ?_
      simp only [Bool.or_eq_true, Bool.and_eq_true, decide_eq_true_eq] at stops ⊢
      refine stops.imp_right (And.imp_right fun head => ?_)
      cases front with
      | nil => exact bracket head
      | cons => exact head

end Parser

/-! ### Escaped text -/

/-- Escaped text goes on over a character that means nothing there. -/
theorem scanEscaped_cons {col : Nat} {c : Char} {text : List Char} (notQuote : c ≠ '\x60')
    (notFeed : c ≠ '\n')
    (notEscape : c = '\\' → ∃ d, text.head? = some d ∧ d ≠ '\x60' ∧ d ≠ '\\') :
    scanEscaped col 0 (c :: text) = (scanEscaped col 0 text).after [c] [c] := by
  by_cases escape : c = '\\'
  · obtain ⟨d, head, quote, double⟩ := notEscape escape
    obtain ⟨rest, rfl⟩ := List.head?_eq_some_iff.1 head
    subst escape
    rw [scanEscaped]
    all_goals simp_all
  · rw [scanEscaped]
    all_goals simp_all

/-- Closed escaped text begins like what it is scanned in. -/
theorem head?_scanEscaped {col due : Nat} (closed : (scanEscaped col due text).ending = .closed)
    (other : List Char) : ((scanEscaped col due text).passed ++ other).head? = text.head? := by
  revert closed
  fun_cases scanEscaped col due text
  case case2 => exact fun closed => nomatch closed
  case case3 => exact fun closed => nomatch closed
  case case4 => exact fun closed => nomatch closed
  all_goals exact fun _ => rfl

/-- Closed escaped text does not look at what follows. -/
theorem scanEscaped_front {col due : Nat}
    (closed : (scanEscaped col due text).ending = .closed) (other : List Char) :
    scanEscaped col due ((scanEscaped col due text).passed ++ other) =
      scanEscaped col due text := by
  fun_induction scanEscaped col due text with
  | case1 due rest ih => simp [EscapedScan.after, scanEscaped, ih closed]
  | case2 => cases closed
  | case3 => cases closed
  | case4 => cases closed
  | case5 rest => rfl
  | case6 rest ih => simp [EscapedScan.after, scanEscaped, ih closed]
  | case7 rest ih => simp [EscapedScan.after, scanEscaped, ih closed]
  | case8 rest ih => simp [EscapedScan.after, scanEscaped, ih closed]
  | case9 c rest notLast notQuote notQuoted notDoubled notFeed ih =>
    show scanEscaped col 0 (c :: ((scanEscaped col 0 rest).passed ++ other)) = _
    rw [scanEscaped_cons notQuote notFeed, ih closed]
    rintro rfl
    rw [head?_scanEscaped closed other]
    cases rest with
    | nil => exact (notLast rfl rfl).elim
    | cons d rest =>
      exact ⟨d, rfl, fun same => notQuoted rest rfl (same ▸ rfl),
        fun same => notDoubled rest rfl (same ▸ rfl)⟩

end TypedMarkup
