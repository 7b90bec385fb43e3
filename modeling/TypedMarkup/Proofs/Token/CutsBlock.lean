/-
**Cutting blocks and nodes.** What `Lexer.Cuts` says of the lexers whose constructs nest, and of
that of a whole source.

* `Nested.Cut` is what is assumed of the lexers of nested constructs.
* `cut_ofDepth` ties the knot, once for every level of nesting: so many levels are enough for so
  many characters.
-/

import TypedMarkup.Proofs.Token.CutsProperty

namespace TypedMarkup.Lexer

variable {bound : Nat} {state : State} {nested : Nested}

/-- What the lexers of nested constructs do. The levels of nesting that they stand for are enough
while at most `bound` characters are left. -/
structure Nested.Cut (nested : Nested) (bound : Nat) : Prop where
  node : ∀ {state : State}, state.cursor.head = some '[' →
    Cuts (bound + 1) nested.node state fun _ after => state.Brackets after
  content : ∀ {state : State}, Cuts bound nested.content state fun _ _ => True

namespace Cuts

/-! ### Preambles -/

theorem declaration : Cuts bound declaration state fun _ _ => True := by
  unfold Lexer.declaration
  refine typePaths.bind fun _ _ _ _ => classes.bind fun _ _ _ _ => head_bind ?_
  split
  · next found => exact propertyBlock found
  · exact pure trivial

theorem contentBinding (cut : nested.Cut bound) :
    Cuts (bound + 1) (contentBinding nested) state fun _ _ => True := by
  unfold Lexer.contentBinding
  refine (name rfl).bind fun _ _ _ _ => skip.bind fun _ there _ _ => head_bind ?_
  split
  · exact refuse_bind
  · next found =>
    have inside : Cuts bound (do
        Lexer.skip
        nested.content) there.opened fun _ _ => True :=
      skip.bind fun _ _ _ _ => cut.content
    have grouped := bracketed (Decidable.not_not.1 found) inside
    simp only [bind_assoc] at grouped
    exact grouped.mono fun _ _ _ _ => trivial

/-- What a preamble element does, by its keyword. -/
theorem directive (cut : nested.Cut bound) :
    Cuts (bound + 1) (directive nested) state fun _ _ => True := by
  unfold Lexer.directive
  refine rest_bind ?_
  dsimp only
  cases spelt : (Keyword.ofSpelling? (String.ofList (state.cursor.rest.takeWhile
    isNameChar))).filter Keyword.startsPreambleElement with
  | none => exact refuse
  | some keyword =>
    have found : state.cursor.rest.takeWhile isNameChar ≠ [] := by
      intro none
      rw [none] at spelt
      cases spelt
    refine (emit (.word rfl found)).bind fun _ _ _ _ => skip.bind fun _ _ _ _ => ?_
    cases keyword with
    | classes =>
      refine head_bind ?_
      split
      · exact refuse_bind
      · next found => exact (classRef (Decidable.not_not.1 found)).bind fun _ _ _ _ => declaration
    | defaults => exact declaration
    | content => exact contentBinding cut
    | value | text | read | inclusion =>
      exact (name rfl).bind fun _ _ _ _ => skip.bind fun _ _ _ _ => value

theorem preambleElement (cut : nested.Cut bound) (found : state.cursor.head = some '<') :
    Cuts (bound + 1) (preambleElement nested) state fun _ after => state.MovesTo after := by
  have rest (there : State) : Cuts (bound + 1) (do
      Lexer.directive nested
      Lexer.skip
      Lexer.expect '>' .preambleClose) there fun _ _ => True :=
    (directive cut).bind fun _ _ _ _ => skip.bind fun _ _ _ _ => expect rfl
  unfold Lexer.preambleElement
  refine (single found rfl).bind fun _ inside _ moves => ?_
  refine mono (?_ : Cuts _ _ _ fun _ _ => True) fun _ _ more _ => moves.steps more
  refine skip.bind fun _ _ _ _ => head_bind ?_
  split
  · next mark => exact (single mark rfl).bind fun _ _ _ _ => skip.bind fun _ _ _ _ => rest _
  · exact rest _

theorem preambleRound (cut : nested.Cut bound) :
    Cuts (bound + 1) (preambleRound nested) state (Goes (fun _ => True) state) := by
  refine head_bind ?_
  split
  · next found =>
    exact (preambleElement cut found).bind fun _ _ _ moves => skip.bind fun _ _ more _ =>
      pure (moves.steps more)
  · exact pure trivial

theorem preamble (cut : nested.Cut bound) :
    Cuts (bound + 1) (preamble nested) state fun _ _ => True :=
  whileGoing (fun _ => True) fun _ => preambleRound cut

/-! ### Lines -/

theorem atIgnoredNode_bind {α : Type} {next : Bool → Lexer α} {holds : α → State → Prop}
    (cuts : Cuts bound (next (state.cursor.head = some '_' && state.cursor.second = some '['))
      state holds) : Cuts bound (atIgnoredNode >>= next) state holds :=
  cuts.congr (run_bind atIgnoredNode next state)

/-- Text or an ignored node, where none of the characters stands that have a meaning in all
lines. -/
theorem textOrIgnored (cut : nested.Cut bound) {c : Char} (found : state.cursor.head = some c)
    (plain : c ∉ ['\r', '\n', '\x60', ']']) :
    Cuts (bound + 1) (textOrIgnored nested) state fun _ after => state.MovesTo after := by
  unfold Lexer.textOrIgnored
  refine atIgnoredNode_bind ?_
  split
  · next both =>
    simp only [Bool.and_eq_true, decide_eq_true_eq] at both
    obtain ⟨first, second⟩ := both
    refine ignoredNode first (cut.node ?_)
    show (state.cursor.behind ['_']).rest.head? = some '['
    rw [Cursor.behind_one_rest]
    exact second
  · unfold Lexer.text
    refine rest_bind ?_
    split
    · next empty => simp [Cursor.head, empty] at found
    · next x more split =>
      obtain rfl : x = c := by simpa [Cursor.head, split] using found
      exact (emit (.text split plain)).mono fun _ _ _ cut => cut.2

theorem textElement (cut : nested.Cut bound) : Cuts (bound + 1) (textElement nested) state
    (Goes (fun _ => True) state) := by
  unfold Lexer.textElement
  refine head_bind ?_
  split
  · exact pure trivial
  · exact pure trivial
  · exact pure trivial
  · exact pure trivial
  · next found => exact (escapedText found).bind fun _ _ _ moves => pure moves
  · next c _ _ _ _ found =>
    have plain : c ∉ ['\r', '\n', '\x60', ']'] := by simp_all
    exact (textOrIgnored cut found plain).bind fun _ _ _ moves => pure moves

theorem textElements (cut : nested.Cut bound) :
    Cuts (bound + 1) (textElements nested) state fun _ _ => True :=
  whileGoing (fun _ => True) fun _ => textElement cut

/-- A line has begun. -/
def InLine (state : State) : Prop :=
  ∃ c, state.cursor.head = some c ∧ c ∉ ['\r', '\n', ']']

theorem lineElement (cut : nested.Cut bound) : Cuts (bound + 1) (lineElement nested) state
    fun goesOn after => Goes (fun _ => True) state goesOn after ∧ (InLine state → goesOn = true) := by
  unfold Lexer.lineElement
  refine head_bind ?_
  split
  · next none => exact pure ⟨trivial, fun ⟨_, found, _⟩ => nomatch none.symm.trans found⟩
  · next ends => exact pure ⟨trivial, fun ⟨c, found, other⟩ => by simp_all⟩
  · next ends => exact pure ⟨trivial, fun ⟨c, found, other⟩ => by simp_all⟩
  · next ends => exact pure ⟨trivial, fun ⟨c, found, other⟩ => by simp_all⟩
  · next found =>
    exact (cut.node found).bind fun _ _ _ brackets => pure ⟨brackets.movesTo, fun _ => rfl⟩
  · next found =>
    exact (escapedText found).bind fun _ _ _ moves => pure ⟨moves, fun _ => rfl⟩
  · next c _ _ _ _ _ found =>
    have plain : c ∉ ['\r', '\n', '\x60', ']'] := by simp_all
    exact (textOrIgnored cut found plain).bind fun _ _ _ moves => pure ⟨moves, fun _ => rfl⟩

theorem line (cut : nested.Cut bound) : Cuts (bound + 1) (line nested) state fun _ after =>
    InLine state → state.MovesTo after := by
  refine (whileGoing_starting (fun _ => True) InLine fun _ => ?_).mono fun _ _ _ went => went.2
  exact lineElement cut

/-- Behind white space a line has begun, unless the block ends. -/
theorem lineRound (cut : nested.Cut bound) :
    Cuts (bound + 1) (lineRound nested) state (Goes (fun _ => True) state) := by
  refine skip.bind fun _ there before missing => head_bind ?_
  split
  · exact pure trivial
  · exact pure trivial
  · next c other found =>
    rw [Cursor.rest_of_head found] at missing
    have visible := isSpace_of_trivia?_eq_none missing
    have begun : InLine there := ⟨c, found, by simp_all [isSpace]⟩
    exact (line cut).bind fun _ _ _ moves => pure (before.movesTo (moves begun))

theorem lines (cut : nested.Cut bound) :
    Cuts (bound + 1) (lines nested) state fun _ _ => True :=
  whileGoing (fun _ => True) fun _ => lineRound cut

theorem content (cut : nested.Cut bound) :
    Cuts (bound + 1) (content nested) state fun _ _ => True := by
  refine (preamble cut).bind fun _ _ _ _ => ?_
  exact lines cut

/-! ### Nodes -/

theorem textNode (cut : nested.Cut bound) :
    Cuts (bound + 1) (textNode nested) state fun _ _ => True := by
  refine classesAndProperties.bind fun _ _ _ _ => ?_
  exact textElements cut

theorem typedNode (cut : nested.Cut bound) :
    Cuts (bound + 1) (typedNode nested) state fun _ _ => True := by
  refine childSteps.bind fun _ _ _ _ => ?_
  refine skip.bind fun _ _ _ _ => ?_
  refine classesAndProperties.bind fun _ _ _ _ => ?_
  exact content cut

theorem namedNode (cut : nested.Cut bound) (found : state.cursor.head.any isNameChar = true) :
    Cuts (bound + 1) (namedNode nested) state fun _ _ => True := by
  have some := Cursor.takeWhile_ne_nil found
  unfold Lexer.namedNode
  refine rest_bind ?_
  dsimp only
  split
  · exact (emit (.word rfl some)).bind fun _ _ _ _ => typedNode cut
  · refine (emit (.word rfl some)).bind fun _ _ _ _ => skip.bind fun _ _ _ _ => ?_
    split
    · exact textNode cut
    · exact classesAndProperties
    · exact classesAndProperties.bind fun _ _ _ _ => preamble cut
    · exact (name rfl).bind fun _ _ _ _ => skip.bind fun _ _ _ _ => preamble cut
    · exact (name rfl).bind fun _ _ _ _ => skip.mono fun _ _ _ _ => trivial

theorem nodeBody (cut : nested.Cut bound) :
    Cuts (bound + 1) (nodeBody nested) state fun _ _ => True := by
  unfold Lexer.nodeBody
  refine head_bind ?_
  split
  · exact content cut
  · exact textNode cut
  · exact textNode cut
  · exact typedNode cut
  · split
    · next found => exact namedNode cut found
    · exact refuse

/-- Behind the bracket of a node there is less left than before it, so one level fewer is enough. -/
theorem node (cut : nested.Cut bound) (found : state.cursor.head = some '[') :
    Cuts (bound + 2) (node nested) state fun _ after => state.Brackets after := by
  have inside : Cuts (bound + 1) (do
      Lexer.skip
      Lexer.nodeBody nested) state.opened fun _ _ => True :=
    skip.bind fun _ _ _ _ => nodeBody cut
  have grouped := bracketed found inside
  simp only [bind_assoc] at grouped
  exact grouped

end Cuts

/-! ### Nesting -/

/-- So many levels of nesting are enough for so many characters. -/
theorem cut_ofDepth (depth : Nat) : (Nested.ofDepth depth).Cut depth := by
  induction depth with
  | zero =>
    refine ⟨fun {state} found => ⟨⟨state, .refl, rfl⟩, fun _ => ?_⟩,
      fun {state} => ⟨⟨state, .refl, rfl⟩, fun _ => Nat.zero_le _⟩⟩
    rw [Cursor.rest_of_head found]
    exact Nat.succ_le_succ (Nat.zero_le _)
  | succ depth ih => exact ⟨Cuts.node ih, Cuts.content ih⟩

/-- A whole source is cut to its end. -/
theorem Cuts.file (cut : nested.Cut bound) :
    Cuts bound (file nested) state fun _ after => after.cursor.rest = [] := by
  unfold Lexer.file
  refine skip.bind fun _ _ _ _ => cut.content.bind fun _ last _ _ => head_bind ?_
  split
  · exact refuse
  · next none =>
    refine pure ?_
    simpa [Cursor.head] using none

end TypedMarkup.Lexer
