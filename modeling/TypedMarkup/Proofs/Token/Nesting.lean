/-
**Depths of brackets.** A bracket says how deep it is nested: an opening one counts itself and the
brackets that are open before it, and a closing one has the depth of the one it closes.

* `Token.opens` and `Token.closes` count brackets. `Token.Balanced` tokens close all that they open
  and nothing else, so an opening bracket with such tokens behind it is the one to be closed next
  (`Token.Innermost`). There is one as long as a bracket is open (`Token.exists_innermost`).
* `Lexer.State.Levels` is what every step of a lexer keeps: as many brackets are open as the lexer
  counts, and no token has another depth than its place gives it (`Token.Nests`).
* `tokenize_nests` is the result.
-/

import TypedMarkup.Proofs.Token.Partition

namespace TypedMarkup

namespace Token

variable {tokens more before between : List Token} {token opening closing : Token}

/-! ### Counting brackets -/

/-- The number of opening brackets among some tokens. -/
def opens (tokens : List Token) : Nat :=
  tokens.countP fun token => token.kind == .nodeOpen

/-- The number of closing brackets among some tokens. -/
def closes (tokens : List Token) : Nat :=
  tokens.countP fun token => token.kind == .nodeClose

@[simp] theorem opens_append : opens (tokens ++ more) = opens tokens + opens more :=
  List.countP_append

@[simp] theorem closes_append : closes (tokens ++ more) = closes tokens + closes more :=
  List.countP_append

theorem opens_cons (opened : token.kind = .nodeOpen) : opens (token :: tokens) = opens tokens + 1 :=
  List.countP_cons_of_pos (by rw [opened]; rfl)

theorem opens_cons_of_ne (other : token.kind ≠ .nodeOpen) : opens (token :: tokens) = opens tokens :=
  List.countP_cons_of_neg (by simpa using other)

theorem closes_cons (closed : token.kind = .nodeClose) :
    closes (token :: tokens) = closes tokens + 1 :=
  List.countP_cons_of_pos (by rw [closed]; rfl)

theorem closes_cons_of_ne (other : token.kind ≠ .nodeClose) :
    closes (token :: tokens) = closes tokens :=
  List.countP_cons_of_neg (by simpa using other)

/-- Behind an opening bracket one more is open. -/
theorem counts_opening (opened : token.kind = .nodeOpen) :
    opens (tokens ++ [token]) = opens tokens + 1 ∧ closes (tokens ++ [token]) = closes tokens := by
  rw [opens_append, closes_append, opens_cons opened,
    closes_cons_of_ne (by rw [opened]; exact nofun)]
  exact ⟨rfl, rfl⟩

/-- Behind a closing bracket one more is closed. -/
theorem counts_closing (closed : token.kind = .nodeClose) :
    opens (tokens ++ [token]) = opens tokens ∧ closes (tokens ++ [token]) = closes tokens + 1 := by
  rw [opens_append, closes_append, closes_cons closed,
    opens_cons_of_ne (by rw [closed]; exact nofun)]
  exact ⟨rfl, rfl⟩

/-- Another token opens and closes nothing. -/
theorem counts_other (other : token.kind ≠ .nodeOpen ∧ token.kind ≠ .nodeClose) :
    opens (tokens ++ [token]) = opens tokens ∧ closes (tokens ++ [token]) = closes tokens := by
  rw [opens_append, closes_append, opens_cons_of_ne other.1, closes_cons_of_ne other.2]
  exact ⟨rfl, rfl⟩

/-! ### Matching brackets -/

/-- Some tokens close the brackets that they open, and no others. -/
structure Balanced (tokens : List Token) : Prop where
  front : ∀ front, front <+: tokens → closes front ≤ opens front
  whole : opens tokens = closes tokens

/-- The opening bracket that the next closing one behind some tokens belongs to. -/
def Innermost (before : List Token) (opening : Token) : Prop :=
  opening.kind = .nodeOpen ∧
    ∃ earlier between, before = earlier ++ opening :: between ∧ Balanced between

theorem Balanced.nil : Balanced [] where
  front front stands := by rw [List.prefix_nil.1 stands]; exact Nat.le_refl _
  whole := rfl

theorem Balanced.append (first : Balanced tokens) (second : Balanced more) :
    Balanced (tokens ++ more) where
  front front stands := by
    rcases List.prefix_or_prefix_of_prefix stands (List.prefix_append tokens more) with
      inside | ⟨rest, rfl⟩
    · exact first.front front inside
    · have later := second.front rest ((List.prefix_append_right_inj tokens).1 stands)
      rw [opens_append, closes_append, first.whole]
      exact Nat.add_le_add_left later _
  whole := by rw [opens_append, closes_append, first.whole, second.whole]

/-- A token that is no bracket. -/
theorem Balanced.single (other : token.kind ≠ .nodeOpen ∧ token.kind ≠ .nodeClose) :
    Balanced [token] where
  front front stands := by
    rcases List.prefix_cons_iff.1 stands with rfl | ⟨rest, rfl, inside⟩
    · exact Nat.le_refl _
    · rw [List.prefix_nil.1 inside, closes_cons_of_ne other.2]
      exact Nat.zero_le _
  whole := by rw [opens_cons_of_ne other.1, closes_cons_of_ne other.2]; rfl

/-- Two brackets with balanced tokens between them. -/
theorem Balanced.bracketed (opened : opening.kind = .nodeOpen) (closed : closing.kind = .nodeClose)
    (inside : Balanced between) : Balanced (opening :: (between ++ [closing])) where
  front front stands := by
    rcases List.prefix_cons_iff.1 stands with rfl | ⟨rest, rfl, behind⟩
    · exact Nat.le_refl _
    · rw [opens_cons opened, closes_cons_of_ne (by rw [opened]; exact nofun)]
      rcases List.prefix_concat_iff.1 behind with rfl | shorter
      · rw [(counts_closing closed).1, (counts_closing closed).2, inside.whole]
      · exact Nat.le_succ_of_le (inside.front rest shorter)
  whole := by
    rw [opens_cons opened, closes_cons_of_ne (by rw [opened]; exact nofun),
      (counts_closing closed).1, (counts_closing closed).2, inside.whole]

/-- **Where a bracket is open there is one to be closed next.** -/
theorem exists_innermost (open_ : closes before < opens before) :
    ∃ opening, Innermost before opening := by
  induction length : before.length using Nat.strongRecOn generalizing before with
  | ind size ih =>
    rcases List.eq_nil_or_concat before with rfl | ⟨init, last, rfl⟩
    · exact absurd open_ (Nat.lt_irrefl 0)
    rw [List.concat_eq_append] at *
    have shorter : init.length < size := by
      rw [← length, List.length_append]
      exact Nat.lt_succ_self _
    by_cases opened : last.kind = .nodeOpen
    · exact ⟨last, opened, init, [], rfl, .nil⟩
    by_cases closed : last.kind = .nodeClose
    · rw [(counts_closing closed).1, (counts_closing closed).2] at open_
      -- The last token closes the innermost bracket before it, so the one around that is left.
      obtain ⟨inner, opened', earlier, between, rfl, inside⟩ := ih _ shorter (by omega) rfl
      have counts : closes earlier < opens earlier := by
        rw [opens_append, closes_append, opens_cons opened', inside.whole,
          closes_cons_of_ne (by rw [opened']; exact nofun)] at open_
        omega
      have fewer : earlier.length < size := by
        rw [List.length_append] at shorter
        omega
      obtain ⟨opening, opened'', first, before, rfl, balanced⟩ := ih _ fewer counts rfl
      refine ⟨opening, opened'', first, before ++ inner :: (between ++ [last]), ?_, ?_⟩
      · simp
      · exact balanced.append (.bracketed opened' closed inside)
    · rw [(counts_other ⟨opened, closed⟩).1, (counts_other ⟨opened, closed⟩).2] at open_
      obtain ⟨opening, opened', earlier, between, rfl, inside⟩ := ih _ shorter open_ rfl
      refine ⟨opening, opened', earlier, between ++ [last], ?_, ?_⟩
      · simp
      · exact inside.append (.single ⟨opened, closed⟩)

/-! ### Depths -/

/-- The depth of a token behind others is that of its place. -/
structure Nests (before : List Token) (token : Token) : Prop where
  opening : token.kind = .nodeOpen →
    ∃ depth, token.depth = some depth ∧ depth + closes before = opens before + 1
  closing : token.kind = .nodeClose →
    ∃ depth, token.depth = some depth ∧ 1 ≤ depth ∧ depth + closes before = opens before
  other : token.kind ≠ .nodeOpen → token.kind ≠ .nodeClose → token.depth = none

/-- Two brackets that belong together have the same depth. -/
theorem Nests.depth_eq {earlier : List Token} (closed : closing.kind = .nodeClose)
    (opened : opening.kind = .nodeOpen) (inside : Balanced between)
    (nests : Nests (earlier ++ opening :: between) closing) (nests' : Nests earlier opening) :
    opening.depth = closing.depth := by
  obtain ⟨depth, same, _, counts⟩ := nests.closing closed
  obtain ⟨depth', same', counts'⟩ := nests'.opening opened
  rw [opens_append, closes_append, opens_cons opened, inside.whole,
    closes_cons_of_ne (by rw [opened]; exact nofun)] at counts
  obtain rfl : depth = depth' := by omega
  rw [same, same']

end Token

namespace Lexer.State

variable {state after : State}

/-- As many brackets are open as a lexer counts, and all tokens have the depths of their places. -/
structure Levels (state : State) : Prop where
  count : Token.opens state.tokens.reverse = Token.closes state.tokens.reverse + state.depth
  nests : ∀ before token after, state.tokens.reverse = before ++ token :: after →
    Token.Nests before token

theorem levels_ofString (source : String) : (ofString source).Levels where
  count := rfl
  nests before token after split := absurd split (by simp [ofString])

/-- One token more, with the depth of its place. -/
theorem Levels.concat {token : Token} (levels : state.Levels)
    (more : after.tokens = token :: state.tokens) (nests : Token.Nests state.tokens.reverse token)
    (count : Token.opens (state.tokens.reverse ++ [token]) =
      Token.closes (state.tokens.reverse ++ [token]) + after.depth) : after.Levels where
  count := by rwa [more, List.reverse_cons]
  nests := by
    rw [more, List.reverse_cons]
    exact Token.split_concat levels.nests nests

/-- **Every step** keeps the depths. -/
theorem Levels.step (levels : state.Levels) (step : state.Step after) : after.Levels := by
  have count := levels.count
  cases step with
  | cut piece =>
    refine levels.concat rfl ⟨?_, ?_, fun _ _ => rfl⟩ ?_
    · exact fun opened => absurd opened piece.noBracket.1
    · exact fun closed => absurd closed piece.noBracket.2
    · rw [(Token.counts_other piece.noBracket).1, (Token.counts_other piece.noBracket).2]
      exact count
  | opened found =>
    refine levels.concat rfl ⟨fun _ => ⟨state.depth + 1, rfl, by omega⟩, nofun, ?_⟩ ?_
    · exact fun other => absurd rfl other
    · rw [(Token.counts_opening rfl).1, (Token.counts_opening rfl).2, count]
      rfl
  | closed found inside =>
    refine levels.concat rfl ⟨nofun, fun _ => ⟨state.depth, rfl, inside, by omega⟩, ?_⟩ ?_
    · exact fun _ other => absurd rfl other
    · rw [(Token.counts_closing rfl).1, (Token.counts_closing rfl).2, count]
      show _ = _ + 1 + (state.depth - 1)
      omega

theorem Levels.steps (levels : state.Levels) (steps : state.Steps after) : after.Levels :=
  Steps.preserves steps levels fun step levels => levels.step step

end Lexer.State

/-! ### Sources -/

/-- The tokens of a source have the depths of their places. -/
theorem tokenize_levels (source : String) :
    (∀ before token after, tokenize source = before ++ token :: after → Token.Nests before token) ∧
    ((∀ token ∈ tokenize source, token.kind ≠ .unread) →
      Token.opens (tokenize source) = Token.closes (tokenize source)) := by
  obtain ⟨last, steps, ends⟩ := tokenize_steps source
  have levels := (Lexer.State.levels_ofString source).steps steps
  rcases ends with ⟨same, _, closed⟩ | same
  · rw [same]
    refine ⟨levels.nests, fun _ => ?_⟩
    rw [levels.count, closed, Nat.add_zero]
  · rw [same]
    refine ⟨Token.split_concat levels.nests ⟨nofun, nofun, fun _ _ => rfl⟩, fun read => ?_⟩
    exact absurd rfl (read last.unread (by simp))

/-- **Depths match brackets.** An opening bracket has one more than there are brackets open before
it. A closing one has as many as are open, at least one, and so the depth of the one it closes.
No other token has a depth. Unless a source is given up, it closes all that it opens. -/
theorem tokenize_nests (source : String) :
    (∀ before token after, tokenize source = before ++ token :: after →
      Token.Nests before token ∧
      (token.kind = .nodeClose →
        (∃ opening, Token.Innermost before opening) ∧
        ∀ opening, Token.Innermost before opening → opening.depth = token.depth)) ∧
    ((∀ token ∈ tokenize source, token.kind ≠ .unread) →
      Token.opens (tokenize source) = Token.closes (tokenize source)) := by
  obtain ⟨nests, closed⟩ := tokenize_levels source
  refine ⟨fun before token after split => ?_, closed⟩
  have here := nests before token after split
  refine ⟨here, fun closing => ⟨?_, ?_⟩⟩
  · obtain ⟨depth, _, positive, counts⟩ := here.closing closing
    exact Token.exists_innermost (by omega)
  · rintro opening ⟨opened, earlier, between, rfl, inside⟩
    have there := nests earlier opening (between ++ token :: after) (by rw [split]; simp)
    exact here.depth_eq closing opened inside there

/-- The bracket that closes an inner node, behind the binding of a content and before an ignored
node. -/
theorem tokenize_nests_binding : ∃ before token after,
    tokenize "<con x [y]>[a [b] _[c]]" = before ++ token :: after ∧ token.kind = .nodeClose ∧
    token.depth = some 2 ∧ 2 + Token.closes before = Token.opens before ∧
    (∃ opening, Token.Innermost before opening ∧ opening.depth = some 2) ∧
    Token.opens (tokenize "<con x [y]>[a [b] _[c]]") =
      Token.closes (tokenize "<con x [y]>[a [b] _[c]]") := by
  let before := (tokenize "<con x [y]>[a [b] _[c]]").take 14
  let token : Token := ⟨.nodeClose, 16, "]", some 2⟩
  let after := (tokenize "<con x [y]>[a [b] _[c]]").drop 15
  have split : tokenize "<con x [y]>[a [b] _[c]]" = before ++ token :: after := by decide +kernel
  have read : ∀ token ∈ tokenize "<con x [y]>[a [b] _[c]]", token.kind ≠ .unread := by
    decide +kernel
  obtain ⟨each, closed⟩ := tokenize_nests "<con x [y]>[a [b] _[c]]"
  obtain ⟨nests, innermost⟩ := each before token after split
  obtain ⟨depth, same, _, counts⟩ := nests.closing rfl
  obtain ⟨⟨opening, found⟩, same'⟩ := innermost rfl
  cases same
  exact ⟨before, token, after, split, rfl, rfl, counts, ⟨opening, found, same' opening found⟩,
    closed read⟩

end TypedMarkup
