/-
**Lines of tokens.** Cutting tokens into lines loses the line feeds and nothing else.

* `Text.splitOn_append`: the parts of two texts, one behind the other, are the parts of both, but the
  two that meet become one (`Text.glue`). So the texts of the lines are the lines of the text
  (`Token.map_textOf_lines`).
* `Token.Fragment source token fragment`: the fragment is a part of that token, and its place in the
  source is that of its text.
* `Token.flatten_lines` lists the fragments of all lines, in order.
* `lines_tokenize` is the result, for tokens of a source that follow each other.
-/

import TypedMarkup.Proofs.Token.Partition
import TypedMarkup.Token.Lines

namespace TypedMarkup

/-! ### Texts -/

namespace Text

/-- Parts before other parts. The last of the first ones and the first of the others become one. -/
def glue : List (List Char) → List (List Char) → List (List Char)
  | [], parts => parts
  | [last], [] => [last]
  | [last], part :: more => (last ++ part) :: more
  | part :: next :: more, parts => part :: glue (next :: more) parts

/-- The parts of two texts, one behind the other. -/
theorem splitOn_append (separator : Char) (text other : List Char) :
    splitOn separator (text ++ other) = glue (splitOn separator text) (splitOn separator other) := by
  induction text with
  | nil =>
    obtain ⟨part, more, parts⟩ := List.exists_cons_of_ne_nil (splitOn_ne_nil separator other)
    simp [splitOn, glue, parts]
  | cons c text ih =>
    by_cases same : c = separator
    · subst same
      obtain ⟨part, more, parts⟩ := List.exists_cons_of_ne_nil (splitOn_ne_nil c text)
      rw [List.cons_append, splitOn_separator, splitOn_separator, ih, parts]
      rfl
    · obtain ⟨part, more, parts, split⟩ := splitOn_cons_of_ne same text
      obtain ⟨first, rest, parts', split'⟩ := splitOn_cons_of_ne same (text ++ other)
      rw [List.cons_append, split, split']
      rw [ih, parts] at parts'
      cases more with
      | nil =>
        obtain ⟨_, _, others⟩ := List.exists_cons_of_ne_nil (splitOn_ne_nil separator other)
        rw [others] at parts' ⊢
        cases parts'
        rfl
      | cons next more =>
        cases parts'
        rfl

end Text

namespace Token

variable {token fragment : Token} {tokens : List Token}

/-! ### Fragments -/

/-- The fragments of a token have the texts they are made of. -/
theorem map_text_fragmentsFrom (token : Token) (start : Nat) (parts : List (List Char)) :
    (fragmentsFrom token start parts).map (fun fragment => fragment.text.toList) = parts := by
  induction parts generalizing start with
  | nil => rfl
  | cons line more ih =>
    rw [fragmentsFrom, List.map_cons, ih]
    exact congrArg (· :: more) String.toList_ofList

/-- Where a fragment stands among others: behind some text of theirs, which moves its start. -/
theorem exists_of_mem_fragmentsFrom {start : Nat} {parts : List (List Char)}
    (member : fragment ∈ fragmentsFrom token start parts) :
    (fragment.kind = token.kind ∧ fragment.depth = token.depth) ∧ fragment.text.toList ∈ parts ∧
    ∃ before after, Text.joinWith '\n' parts = before ++ fragment.text.toList ++ after ∧
      fragment.start = start + bytesOf before := by
  induction parts generalizing start with
  | nil => cases member
  | cons line more ih =>
    rcases List.mem_cons.1 member with rfl | later
    · refine ⟨⟨rfl, rfl⟩, ?_, [], ?_⟩
      · rw [String.toList_ofList]
        exact List.mem_cons_self
      · rw [String.toList_ofList]
        cases more with
        | nil => exact ⟨[], by simp [Text.joinWith], rfl⟩
        | cons next more => exact ⟨_, rfl, rfl⟩
    · obtain ⟨same, inside, before, after, split, start'⟩ := ih later
      refine ⟨same, List.mem_cons_of_mem _ inside, line ++ '\n' :: before, after, ?_, ?_⟩
      · cases more with
        | nil => cases later
        | cons next more => simp [Text.joinWith, split]
      · have feed : bytesOf ('\n' :: before) = 1 + bytesOf before := bytesOf_append ['\n'] before
        have stop : (⟨token.kind, start, String.ofList line, token.depth⟩ : Token).stop =
            start + bytesOf line := rfl
        rw [start', bytesOf_append, feed]
        show (⟨token.kind, start, String.ofList line, token.depth⟩ : Token).stop + 1 + _ = _
        rw [stop]
        omega

/-- The fragments of a token stand one behind the other. -/
theorem pairwise_fragmentsFrom (token : Token) (start : Nat) (parts : List (List Char)) :
    (fragmentsFrom token start parts).Pairwise fun first second => first.stop ≤ second.start := by
  induction parts generalizing start with
  | nil => exact .nil
  | cons line more ih =>
    refine List.Pairwise.cons (fun later member => ?_) (ih _)
    obtain ⟨_, _, before, _, _, start'⟩ := exists_of_mem_fragmentsFrom member
    rw [start']
    omega

/-- A part of a token in a source: it keeps kind and depth, has some text and no line feed, and
stands inside the token where its text does. -/
structure Fragment (source : String) (token fragment : Token) : Prop where
  kind : fragment.kind = token.kind
  depth : fragment.depth = token.depth
  nonempty : fragment.text ≠ ""
  noFeed : '\n' ∉ fragment.text.toList
  start_le : token.start ≤ fragment.start
  stop_le : fragment.stop ≤ token.stop
  slice : String.Pos.Raw.extract source ⟨fragment.start⟩ ⟨fragment.stop⟩ = fragment.text

theorem isEmpty_iff {token : Token} : token.isEmpty = true ↔ token.text = "" := by
  unfold isEmpty size
  rw [beq_iff_eq, String.utf8ByteSize_eq_zero_iff]

theorem stop_eq (token : Token) : token.stop = token.start + bytesOf token.text.toList := by
  rw [bytesOf_toList]
  rfl

/-- A fragment stands inside its token. -/
theorem inside_of_mem (member : fragment ∈ token.fragments) :
    token.start ≤ fragment.start ∧ fragment.stop ≤ token.stop := by
  obtain ⟨_, _, front, rest, split, place⟩ := exists_of_mem_fragmentsFrom member
  rw [Text.joinWith_splitOn] at split
  rw [stop_eq, stop_eq, split, place, bytesOf_append, bytesOf_append]
  omega

/-- **The fragments of a token** that stands in a source, the empty ones apart, are parts of it. -/
theorem fragment_of_mem {source : String} {before after : List Char}
    (stands : source.toList = before ++ token.text.toList ++ after)
    (start : token.start = bytesOf before) (member : fragment ∈ token.fragments)
    (some : fragment.isEmpty = false) : Fragment source token fragment := by
  obtain ⟨⟨kind, depth⟩, inside, front, rest, split, place⟩ :=
    exists_of_mem_fragmentsFrom member
  rw [Text.joinWith_splitOn] at split
  have stop : fragment.stop = bytesOf (before ++ front ++ fragment.text.toList) := by
    rw [stop_eq, place, start, bytesOf_append, bytesOf_append]
  have whole : source.toList = before ++ front ++ fragment.text.toList ++ (rest ++ after) := by
    rw [stands, split]
    simp
  obtain ⟨start_le, stop_le⟩ := inside_of_mem member
  refine ⟨kind, depth, fun none => ?_, Text.notMem_of_mem_splitOn _ inside, start_le, stop_le, ?_⟩
  · rw [isEmpty_iff.2 none] at some
    cases some
  · have cut := extract_bytesOf whole
    rw [String.ofList_toList] at cut
    rwa [stop, place, start, ← bytesOf_append]

/-! ### Lines -/

theorem textOf_kept (token : Token) : textOf token.kept = token.text.toList := by
  unfold kept
  split
  · next none =>
    rw [isEmpty_iff.1 none]
    rfl
  · simp [textOf]

/-- Putting fragments at the front of lines glues their texts. -/
theorem map_textOf_go (lines : List (List Token)) (fragments : List Token) :
    (prepend.go lines fragments).map textOf =
      Text.glue (fragments.map fun fragment => fragment.text.toList) (lines.map textOf) := by
  induction fragments with
  | nil => rfl
  | cons fragment more ih =>
    cases more with
    | nil =>
      cases lines with
      | nil => simp [prepend.go, Text.glue, textOf_kept]
      | cons line lines => simp [prepend.go, Text.glue, textOf_append, textOf_kept]
    | cons next more =>
      rw [prepend.go, List.map_cons, ih, textOf_kept]
      · rfl
      · exact nofun

/-- **The texts of the lines** are the lines of the text. -/
theorem map_textOf_lines (tokens : List Token) :
    (lines tokens).map textOf = Text.splitOn '\n' (textOf tokens) := by
  induction tokens with
  | nil => rfl
  | cons token tokens ih =>
    have made : (fragments token).map (fun fragment => fragment.text.toList) =
        Text.splitOn '\n' token.text.toList := map_text_fragmentsFrom token _ _
    show (prepend token (lines tokens)).map textOf = _
    rw [prepend, map_textOf_go, ih, made, textOf_cons, Text.splitOn_append]

/-- Putting fragments at the front of lines puts those with some text before the others. -/
theorem flatten_go (lines : List (List Token)) (fragments : List Token) :
    (prepend.go lines fragments).flatten =
      fragments.filter (fun fragment => !fragment.isEmpty) ++ lines.flatten := by
  have kept_eq (fragment : Token) :
      fragment.kept = [fragment].filter fun fragment => !fragment.isEmpty := by
    cases none : fragment.isEmpty <;> simp [kept, none]
  induction fragments with
  | nil => rfl
  | cons fragment more ih =>
    rw [← List.singleton_append, List.filter_append, ← kept_eq]
    cases more with
    | nil => cases lines <;> simp [prepend.go]
    | cons next more =>
      rw [List.singleton_append, prepend.go, List.flatten_cons, ih, List.append_assoc]
      exact nofun

/-- **The fragments of all lines** are those of the tokens with some text, in order. -/
theorem flatten_lines (tokens : List Token) :
    (lines tokens).flatten =
      (tokens.flatMap fragments).filter fun fragment => !fragment.isEmpty := by
  induction tokens with
  | nil => rfl
  | cons token tokens ih =>
    show (prepend token (lines tokens)).flatten = _
    rw [prepend, flatten_go, ih, List.flatMap_cons, List.filter_append]

/-- The fragments of tokens that stand one behind the other do so too. -/
theorem pairwise_fragments
    (inOrder : tokens.Pairwise fun first second => first.stop ≤ second.start) :
    (tokens.flatMap fragments).Pairwise fun first second => first.stop ≤ second.start := by
  refine List.pairwise_flatMap.2 ⟨fun token _ => pairwise_fragmentsFrom token _ _, ?_⟩
  refine inOrder.imp fun {first second} apart fragment member other member' => ?_
  exact (inside_of_mem member).2.trans (apart.trans (inside_of_mem member').1)

end Token

/-! ### Sources -/

/-- **Cutting tokens into lines loses only the line feeds.** Of tokens of a source that follow each
other there is one line more than their text has line feeds, and the texts of the lines, joined by
line feeds, are that text. The lines are made of parts of the tokens, which stand one behind the
other. -/
theorem lines_tokenize {source : String} {tokens : List Token} (slice : tokens <:+: tokenize source) :
    (Token.lines tokens).length = (Token.textOf tokens).count '\n' + 1 ∧
    Text.joinWith '\n' ((Token.lines tokens).map Token.textOf) = Token.textOf tokens ∧
    (∀ line ∈ Token.lines tokens, ∀ fragment ∈ line,
      ∃ token ∈ tokens, Token.Fragment source token fragment) ∧
    (Token.lines tokens).flatten.Pairwise fun first second => first.stop ≤ second.start := by
  obtain ⟨placed, text⟩ := tokenize_placed source
  have texts := Token.map_textOf_lines tokens
  have listed := Token.flatten_lines tokens
  refine ⟨?_, ?_, fun line member fragment inside => ?_, ?_⟩
  · rw [← List.length_map Token.textOf, texts, Text.length_splitOn]
  · rw [texts, Text.joinWith_splitOn]
  · have found : fragment ∈ (Token.lines tokens).flatten := List.mem_flatten.2 ⟨line, member, inside⟩
    rw [listed, List.mem_filter, List.mem_flatMap] at found
    obtain ⟨⟨token, here, made⟩, some⟩ := found
    obtain ⟨before, after, split⟩ := List.append_of_mem (slice.subset here)
    have stands : source.toList =
        Token.textOf before ++ token.text.toList ++ Token.textOf after := by
      rw [← text, split, Token.textOf_append, Token.textOf_cons, List.append_assoc]
    exact ⟨token, here, Token.fragment_of_mem stands (placed before token after split) made
      (by simpa using some)⟩
  · rw [listed]
    exact (Token.pairwise_fragments (placed.pairwise.sublist slice.sublist)).filter _

/-- A comment over two lines, without the space before it, and the line feed behind it. -/
theorem lines_tokenize_comment :
    let tokens : List Token := [⟨.comment, 1, "/*é\n\n*/", none⟩, ⟨.space, 9, "\n", none⟩]
    (Token.lines tokens).length = 4 ∧
    Text.joinWith '\n' ((Token.lines tokens).map Token.textOf) = "/*é\n\n*/\n".toList ∧
    (∀ line ∈ Token.lines tokens, ∀ fragment ∈ line,
      ∃ token ∈ tokens, Token.Fragment " /*é\n\n*/\nb" token fragment) ∧
    (Token.lines tokens).flatten.Pairwise fun first second => first.stop ≤ second.start := by
  intro tokens
  have slice : tokens <:+: tokenize " /*é\n\n*/\nb" :=
    ⟨[⟨.space, 0, " ", none⟩], [⟨.text, 10, "b", none⟩], by decide +kernel⟩
  exact lines_tokenize slice

end TypedMarkup
