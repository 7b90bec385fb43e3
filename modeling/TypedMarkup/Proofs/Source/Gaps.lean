/-
**The trivia between two parts, piece by piece.** `triviaText` as its characters give it.

* `triviaText_space`, `triviaText_lineComment` and `triviaText_blockComment` say how the trivia of a
  text go on behind its first piece; `triviaText_other` says where there are none.
* `triviaText_induction` goes through the trivia of a text in that way.
-/

import TypedMarkup.Proofs.Source.Reach

namespace TypedMarkup

/-! ### Comments -/

/-- Whether two characters open a comment inside another. -/
def opensComment (c : Char) (next : Option Char) : Bool :=
  c = '/' && next = some '*'

/-- Whether two characters close a comment. -/
def closesComment (c : Char) (next : Option Char) : Bool :=
  c = '*' && next = some '/'

/-- A comment goes on over a character that neither opens nor closes one. -/
theorem commentTail_cons {inner : Nat} {c : Char} {text : List Char}
    (notOpen : opensComment c text.head? = false) (notClose : closesComment c text.head? = false) :
    commentTail inner (c :: text) = c :: commentTail inner text := by
  have other (rest : List Char) : ¬ (c = '/' ∧ text = '*' :: rest) := by
    rintro ⟨rfl, rfl⟩
    cases notOpen
  have other' (rest : List Char) : ¬ (c = '*' ∧ text = '/' :: rest) := by
    rintro ⟨rfl, rfl⟩
    cases notClose
  rw [commentTail.eq_def]
  split
  · next none => cases none
  · next rest same => exact absurd (List.cons.inj same) (other rest)
  · next rest same => exact absurd (List.cons.inj same) (other' rest)
  · next rest same => exact absurd (List.cons.inj same) (other' rest)
  · next same =>
    obtain ⟨rfl, rfl⟩ := List.cons.inj same
    rfl

/-- What goes through a comment. -/
theorem commentTail_induction {motive : Nat → List Char → Prop} (nil : ∀ inner, motive inner [])
    (opens : ∀ inner text, motive (inner + 1) text → motive inner ('/' :: '*' :: text))
    (ends : ∀ text, motive 0 ('*' :: '/' :: text))
    (closes : ∀ inner text, motive inner text → motive (inner + 1) ('*' :: '/' :: text))
    (other : ∀ inner c text, opensComment c text.head? = false →
      closesComment c text.head? = false → motive inner text → motive inner (c :: text))
    (inner : Nat) (text : List Char) : motive inner text := by
  fun_induction commentTail inner text with
  | case1 inner => exact nil inner
  | case2 inner text ih => exact opens inner text ih
  | case3 text => exact ends text
  | case4 inner text ih => exact closes inner text ih
  | case5 inner c text notOpen notEnd notClose ih =>
    refine other inner c text (Bool.eq_false_iff.2 fun holds => ?_)
      (Bool.eq_false_iff.2 fun holds => ?_) ih
    · simp only [opensComment, Bool.and_eq_true, decide_eq_true_eq] at holds
      obtain ⟨rest, same⟩ := List.head?_eq_some_iff.1 holds.2
      exact notOpen rest holds.1 same
    · simp only [closesComment, Bool.and_eq_true, decide_eq_true_eq] at holds
      obtain ⟨rest, same⟩ := List.head?_eq_some_iff.1 holds.2
      cases inner with
      | zero => exact notEnd rest rfl holds.1 same
      | succ inner => exact notClose inner rest rfl holds.1 same

/-! ### Pieces -/

theorem triviaText_of_none {text : List Char} (missing : trivia? text = none) :
    triviaText text = [] := by
  rw [triviaText, leadingTrivia_of_trivia?_eq_none missing]
  rfl

theorem triviaText_of_some {text : List Char} {piece : Trivia}
    (found : trivia? text = some piece) :
    triviaText text = piece.text ++ triviaText (text.drop piece.text.length) := by
  rw [triviaText, leadingTrivia_of_trivia?_eq_some found]
  rfl

theorem triviaText_nil : triviaText [] = [] :=
  triviaText_of_none rfl

theorem trivia?_space {c : Char} {text : List Char} (space : isSpace c = true) :
    trivia? (c :: text) = some ⟨.space, c :: text.takeWhile isSpace⟩ := by
  unfold trivia?
  split
  · next none => cases none
  · next same => 
    cases same
    cases space
  · next same =>
    cases same
    cases space
  · next same =>
    obtain ⟨rfl, rfl⟩ := List.cons.inj same
    rw [if_pos space]

/-- White space is trivia. -/
theorem triviaText_space {c : Char} {text : List Char} (space : isSpace c = true) :
    triviaText (c :: text) = c :: triviaText text := by
  rw [triviaText_of_some (trivia?_space space), List.cons_append, List.length_cons,
    List.drop_succ_cons]
  cases text with
  | nil => rfl
  | cons d text =>
    cases spaces : isSpace d with
    | false => simp [spaces]
    | true =>
      rw [triviaText_of_some (trivia?_space spaces)]
      simp [spaces]

/-- A comment to the end of the line is trivia. -/
theorem triviaText_lineComment (text : List Char) :
    triviaText (';' :: text) = ';' :: text.takeWhile (fun c => c != '\n') ++
      triviaText (text.dropWhile fun c => c != '\n') := by
  have found : trivia? (';' :: text) =
      some ⟨.comment, ';' :: text.takeWhile fun c => c != '\n'⟩ := rfl
  have behind := congrArg (List.drop (text.takeWhile fun c => c != '\n').length)
    (List.takeWhile_append_dropWhile (p := fun c => c != '\n') (l := text))
  rw [List.drop_left] at behind
  rw [triviaText_of_some found, List.length_cons, List.drop_succ_cons, behind]

/-- A comment that nests is trivia. -/
theorem triviaText_blockComment (text : List Char) :
    triviaText ('/' :: '*' :: text) = '/' :: '*' :: commentTail 0 text ++
      triviaText (text.drop (commentTail 0 text).length) := by
  have found : trivia? ('/' :: '*' :: text) = some ⟨.comment, '/' :: '*' :: commentTail 0 text⟩ :=
    rfl
  rw [triviaText_of_some found]
  rfl

/-- Nothing else is trivia. -/
theorem trivia?_other {c : Char} {text : List Char} (notSpace : isSpace c = false)
    (notLine : c ≠ ';') (notBlock : opensComment c text.head? = false) :
    trivia? (c :: text) = none := by
  unfold trivia?
  split
  · rfl
  · next same => exact absurd (List.cons.inj same).1 notLine
  · next same =>
    obtain ⟨rfl, rfl⟩ := List.cons.inj same
    cases notBlock
  · next same =>
    obtain ⟨rfl, rfl⟩ := List.cons.inj same
    rw [if_neg (by simp [notSpace])]

theorem triviaText_other {c : Char} {text : List Char} (notSpace : isSpace c = false)
    (notLine : c ≠ ';') (notBlock : opensComment c text.head? = false) :
    triviaText (c :: text) = [] :=
  triviaText_of_none (trivia?_other notSpace notLine notBlock)

/-- What goes through the pieces of trivia at the front of a text. -/
theorem triviaText_induction {motive : List Char → Prop} (nil : motive [])
    (space : ∀ c text, isSpace c = true → motive text → motive (c :: text))
    (lineComment : ∀ text, motive (text.dropWhile fun c => c != '\n') → motive (';' :: text))
    (blockComment : ∀ text, motive (text.drop (commentTail 0 text).length) →
      motive ('/' :: '*' :: text))
    (other : ∀ c text, isSpace c = false → c ≠ ';' → opensComment c text.head? = false →
      motive (c :: text)) (text : List Char) : motive text := by
  induction size : text.length using Nat.strongRecOn generalizing text with
  | _ size ih =>
    subst size
    cases text with
    | nil => exact nil
    | cons c text =>
      by_cases spaces : isSpace c = true
      · exact space c text spaces (ih _ (Nat.lt_succ_self _) text rfl)
      by_cases line : c = ';'
      · subst line
        have fewer := (List.dropWhile_suffix (fun c => c != '\n') (l := text)).length_le
        exact lineComment text (ih _ (Nat.lt_succ_of_le fewer) _ rfl)
      cases opens : opensComment c text.head? with
      | false => exact other c text (by simpa using spaces) line opens
      | true =>
        simp only [opensComment, Bool.and_eq_true, decide_eq_true_eq] at opens
        obtain ⟨rfl, star⟩ := opens
        obtain ⟨text, rfl⟩ := List.head?_eq_some_iff.1 star
        refine blockComment text (ih _ ?_ _ rfl)
        simp only [List.length_drop, List.length_cons]
        omega

end TypedMarkup
