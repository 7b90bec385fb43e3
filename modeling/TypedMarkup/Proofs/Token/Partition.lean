/-
**Tokens divide their source.** The tokens of a source stand one behind the other from its first
byte to its last, and each has the text that stands there.

* `Token.Placed`: every token starts where the text of those before it ends. With the texts together
  being those of the source, all else about places follows (`Token.Partition.of_placed`).
* `Lexer.State.Covers` is what every step of a lexer keeps: the tokens cut so far are placed and
  have the text up to the cursor.
* `tokenize_steps`: the tokens of a source are those of some steps; a source that is given up has
  one unread token more, for what is left.
* `tokenize_partition` is the result.
-/

import TypedMarkup.Proofs.Source.Places
import TypedMarkup.Proofs.Token.CutsBlock

namespace TypedMarkup

/-! ### Places -/

namespace Token

variable {source : String} {tokens before after : List Token} {token : Token}

theorem textOf_append (tokens more : List Token) : textOf (tokens ++ more) = textOf tokens ++ textOf more :=
  List.flatMap_append

theorem textOf_cons (token : Token) (tokens : List Token) :
    textOf (token :: tokens) = token.text.toList ++ textOf tokens :=
  List.flatMap_cons

/-- What holds of every token behind those before it, with one token more. -/
theorem split_concat {holds : List Token → Token → Prop}
    (each : ∀ before token after, tokens = before ++ token :: after → holds before token)
    (here : holds tokens token) :
    ∀ before other after, tokens ++ [token] = before ++ other :: after → holds before other := by
  intro before other after split
  rcases List.eq_nil_or_concat after with rfl | ⟨later, last, rfl⟩
  · obtain ⟨rfl, same⟩ := List.append_inj' split rfl
    cases same
    exact here
  · rw [List.concat_eq_append, ← List.cons_append, ← List.append_assoc] at split
    exact each before other later (List.append_inj' split rfl).1

/-- Every token starts where the text of those before it ends. -/
def Placed (tokens : List Token) : Prop :=
  ∀ before token after, tokens = before ++ token :: after → token.start = bytesOf (textOf before)

/-- One token more. -/
theorem Placed.concat (placed : Placed tokens) (here : token.start = bytesOf (textOf tokens)) :
    Placed (tokens ++ [token]) :=
  split_concat placed here

/-- A placed token ends where its text does. -/
theorem Placed.stop (placed : Placed tokens) (split : tokens = before ++ token :: after) :
    token.stop = bytesOf (textOf (before ++ [token])) := by
  unfold Token.stop size
  rw [placed before token after split, textOf_append, bytesOf_append, textOf_cons, ← bytesOf_toList]
  simp [textOf]

/-- Placed tokens stand one behind the other. -/
theorem Placed.pairwise (placed : Placed tokens) :
    tokens.Pairwise fun first second => first.stop ≤ second.start := by
  rw [List.pairwise_iff_forall_sublist]
  intro first second both
  obtain ⟨front, rest, rfl, inFront, inRest⟩ := List.cons_sublist_iff.1 both
  obtain ⟨before, between, rfl⟩ := List.append_of_mem inFront
  obtain ⟨between', after, rfl⟩ := List.append_of_mem (List.singleton_sublist.1 inRest)
  have split : before ++ first :: between ++ (between' ++ second :: after) =
      before ++ first :: (between ++ (between' ++ second :: after)) := by simp
  have stop := placed.stop split
  have start := placed (before ++ [first] ++ between ++ between') second after (by simp)
  rw [stop, start, textOf_append _ between', textOf_append _ between, bytesOf_append,
    bytesOf_append]
  omega

/-- The end of placed tokens is that of their text. -/
theorem Placed.endOf (placed : Placed tokens) : Token.endOf tokens = bytesOf (textOf tokens) := by
  rcases List.eq_nil_or_concat tokens with rfl | ⟨earlier, last, rfl⟩
  · rfl
  · rw [List.concat_eq_append] at *
    unfold Token.endOf
    rw [List.getLast?_concat]
    exact placed.stop rfl

/-! ### Partitions -/

/-- Tokens that divide a source. -/
structure Partition (source : String) (tokens : List Token) : Prop where
  /-- Only the empty source has no tokens. -/
  nil_iff : tokens = [] ↔ source = ""
  first : ∀ token, tokens.head? = some token → token.start = 0
  next : ∀ before token next after, tokens = before ++ token :: next :: after →
    token.stop = next.start
  last : ∀ token, tokens.getLast? = some token → token.stop = source.utf8ByteSize
  startBoundary : ∀ token ∈ tokens, String.Pos.Raw.IsValid source ⟨token.start⟩
  stopBoundary : ∀ token ∈ tokens, String.Pos.Raw.IsValid source ⟨token.stop⟩
  slice : ∀ token ∈ tokens,
    String.Pos.Raw.extract source ⟨token.start⟩ ⟨token.stop⟩ = token.text
  nonempty : ∀ token ∈ tokens, token.kind ≠ .unread → token.isEmpty = false
  /-- There is no unread token before another one. -/
  unread : ∀ token ∈ tokens.dropLast, token.kind ≠ .unread

/-- **Placed tokens with the text of the source** divide it. -/
theorem Partition.of_placed (placed : Placed tokens) (text : textOf tokens = source.toList)
    (nil_iff : tokens = [] ↔ source = "")
    (nonempty : ∀ token ∈ tokens, token.kind ≠ .unread → token.isEmpty = false)
    (unread : ∀ token ∈ tokens.dropLast, token.kind ≠ .unread) : Partition source tokens := by
  have stands {before after : List Token} {token : Token}
      (split : tokens = before ++ token :: after) :
      source.toList = textOf before ++ token.text.toList ++ textOf after := by
    rw [← text, split, textOf_append, textOf_cons, List.append_assoc]
  have behind (before : List Token) (token : Token) :
      textOf (before ++ [token]) = textOf before ++ token.text.toList := by
    rw [textOf_append, textOf_cons]
    simp [textOf]
  refine ⟨nil_iff, ?_, ?_, ?_, ?_, ?_, ?_, nonempty, unread⟩
  · intro token first
    obtain ⟨rest, split⟩ := List.head?_eq_some_iff.1 first
    exact placed [] token rest split
  · intro before token next after split
    rw [placed.stop split]
    exact (placed (before ++ [token]) next after (by rw [split]; simp)).symm
  · intro token last
    obtain ⟨earlier, split⟩ := List.getLast?_eq_some_iff.1 last
    rw [placed.stop split, ← split, text, bytesOf_toList]
  · intro token member
    obtain ⟨before, after, split⟩ := List.append_of_mem member
    rw [placed before token after split]
    exact isValid_bytesOf ((stands split).trans (List.append_assoc _ _ _))
  · intro token member
    obtain ⟨before, after, split⟩ := List.append_of_mem member
    rw [placed.stop split, behind]
    exact isValid_bytesOf (stands split)
  · intro token member
    obtain ⟨before, after, split⟩ := List.append_of_mem member
    rw [placed before token after split, placed.stop split, behind, extract_bytesOf (stands split),
      String.ofList_toList]

end Token

/-! ### Steps -/

namespace Lexer.State

variable {source : String} {state after : State}

/-- The tokens cut so far have the text of the source up to the cursor, and are placed in it. All of
them are read, and none is empty. -/
structure Covers (source : String) (state : State) : Prop where
  text : Token.textOf state.tokens.reverse ++ state.cursor.rest = source.toList
  offset : state.cursor.position.offset = bytesOf (Token.textOf state.tokens.reverse)
  placed : Token.Placed state.tokens.reverse
  read : ∀ token ∈ state.tokens, token.kind ≠ .unread ∧ token.isEmpty = false

theorem covers_ofString (source : String) : (ofString source).Covers source where
  text := rfl
  offset := rfl
  placed before token after split := absurd split (by simp [ofString])
  read _ none := absurd none List.not_mem_nil

/-- **Every step** covers what the cursor passes over. -/
theorem Covers.step (covers : state.Covers source) (step : state.Step after) :
    after.Covers source := by
  obtain ⟨kind, depth, text, ⟨rest, split⟩, positive, read, moved, more⟩ := step.cuts
  have left : after.cursor.rest = rest := by
    rw [moved]
    exact Cursor.behind_rest split.symm
  have tokens : after.tokens.reverse = state.tokens.reverse ++
      [⟨kind, state.cursor.position.offset, String.ofList text, depth⟩] := by
    rw [more, List.reverse_cons]
  have covered : Token.textOf after.tokens.reverse =
      Token.textOf state.tokens.reverse ++ text := by
    rw [tokens, Token.textOf_append]
    simp [Token.textOf]
  refine ⟨?_, ?_, ?_, ?_⟩
  · rw [covered, left, List.append_assoc, split, covers.text]
  · rw [covered, bytesOf_append, moved, ← covers.offset]
    exact Position.past_offset _ text
  · rw [tokens]
    exact covers.placed.concat covers.offset
  · rw [more]
    refine List.forall_mem_cons.2 ⟨⟨read, ?_⟩, covers.read⟩
    have size : (String.ofList text).utf8ByteSize ≠ 0 := fun zero =>
      positive (String.ofList_eq_empty_iff.1 (String.utf8ByteSize_eq_zero_iff.1 zero))
    simpa [Token.isEmpty, Token.size] using size

theorem Covers.steps (covers : state.Covers source) (steps : state.Steps after) :
    after.Covers source :=
  Steps.preserves steps covers fun step covers => covers.step step

/-- The token of all that is left. -/
def unread (state : State) : Token :=
  ⟨.unread, state.cursor.position.offset, String.ofList state.cursor.rest, none⟩

/-- Tokens that cover a source to its end divide it. -/
theorem Covers.partition (covers : state.Covers source) (ends : state.cursor.rest = [])
    (nil_iff : state.tokens.reverse = [] ↔ source = "") :
    Token.Partition source state.tokens.reverse := by
  refine .of_placed covers.placed ?_ nil_iff ?_ ?_
  · rw [← covers.text, ends, List.append_nil]
  · exact fun token member _ => (covers.read token (List.mem_reverse.1 member)).2
  · intro token member
    exact (covers.read token (List.mem_reverse.1 (List.dropLast_subset _ member))).1

/-- Tokens that cover a source so far divide it together with the token of what is left. -/
theorem Covers.partition_unread (covers : state.Covers source)
    (nil_iff : state.tokens.reverse ++ [state.unread] = [] ↔ source = "") :
    Token.Partition source (state.tokens.reverse ++ [state.unread]) := by
  refine .of_placed (covers.placed.concat covers.offset) ?_ nil_iff ?_ ?_
  · rw [Token.textOf_append, ← covers.text]
    simp [Token.textOf, unread]
  · intro token member read
    rcases List.mem_append.1 member with earlier | here
    · exact (covers.read token (List.mem_reverse.1 earlier)).2
    · obtain rfl := List.mem_singleton.1 here
      exact absurd rfl read
  · rw [List.dropLast_concat]
    exact fun token member => (covers.read token (List.mem_reverse.1 member)).1

end Lexer.State

/-! ### Sources -/

theorem cuts_file (source : String) :
    Lexer.Cuts (source.length + 1) (Lexer.file (.ofDepth (source.length + 1))) (.ofString source)
      fun _ after => after.cursor.rest = [] :=
  .file (Lexer.cut_ofDepth (source.length + 1))

/-- Cutting a source never runs out of levels of nesting. -/
theorem lexWithin_ne_exhausted (source : String) :
    (lexWithin (source.length + 1) source).1 ≠ .error .exhausted := by
  rw [lexWithin_of_run rfl]
  refine (cuts_file source).not_exhausted ?_
  show source.toList.length < source.length + 1
  rw [String.length_toList]
  exact Nat.lt_succ_self _

/-- **The tokens of a source** are those of some steps. Where the source is given up, there is one
more for what is left. -/
theorem tokenize_steps (source : String) : ∃ last, (Lexer.State.ofString source).Steps last ∧
    (tokenize source = last.tokens.reverse ∧ last.cursor.rest = [] ∧ last.depth = 0 ∨
      tokenize source = last.tokens.reverse ++ [last.unread]) := by
  have cuts := cuts_file source
  rcases run : (Lexer.file (.ofDepth (source.length + 1))).run.run (.ofString source) with
    ⟨refusal | done, after⟩
  · obtain ⟨⟨last, steps, same⟩, _⟩ := cuts.of_error run
    have covers := (Lexer.State.covers_ofString source).steps steps
    have left : source.toList.drop (Token.textOf last.tokens.reverse).length = last.cursor.rest := by
      rw [← covers.text, List.drop_left]
    refine ⟨last, steps, .inr ?_⟩
    rw [tokenize, lexWithin_of_run run, same]
    dsimp only
    rw [left, covers.placed.endOf, ← covers.offset]
    rfl
  · obtain ⟨steps, depth, ends⟩ := cuts.of_ok run
    exact ⟨after, steps, .inl ⟨tokenize_of_run run, ends, depth⟩⟩

/-- The tokens of a source are placed and have its text. -/
theorem tokenize_placed (source : String) :
    Token.Placed (tokenize source) ∧ Token.textOf (tokenize source) = source.toList := by
  obtain ⟨last, steps, ends⟩ := tokenize_steps source
  have covers := (Lexer.State.covers_ofString source).steps steps
  rcases ends with ⟨same, ended, _⟩ | same
  · rw [same, ← covers.text, ended, List.append_nil]
    exact ⟨covers.placed, rfl⟩
  · rw [same, Token.textOf_append, ← covers.text]
    refine ⟨covers.placed.concat covers.offset, congrArg _ ?_⟩
    simp [Token.textOf, Lexer.State.unread]

theorem tokenize_empty : tokenize "" = [] := by
  decide +kernel

/-- **The tokens of a source divide it.** -/
theorem tokenize_partition (source : String) : Token.Partition source (tokenize source) := by
  obtain ⟨last, steps, ends⟩ := tokenize_steps source
  have covers := (Lexer.State.covers_ofString source).steps steps
  have nil_iff : tokenize source = [] ↔ source = "" := by
    refine ⟨fun none => ?_, fun empty => empty ▸ tokenize_empty⟩
    rcases ends with ⟨same, ended, _⟩ | same
    · have text := covers.text
      rw [← same, none, ended] at text
      exact String.toList_eq_nil_iff.1 text.symm
    · rw [none] at same
      simp at same
  rcases ends with ⟨same, ended, _⟩ | same
  · rw [same] at nil_iff ⊢
    exact covers.partition ended nil_iff
  · rw [same] at nil_iff ⊢
    exact covers.partition_unread nil_iff

end TypedMarkup
