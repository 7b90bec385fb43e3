/-
**Writing text.** What `Language.Renders` says of lines and text nodes, where text may run together
with what stands around it.

* `Grammar.Nested.Renders nested bound` is what is taken from the languages of what is nested deeper:
  they can write trees that are small enough, and some node that is ignored.
* Ignored nodes separate what would run together: one stands before each line and behind each run of
  text. So a line may be empty or begin with a blank, and a run may end in an underscore.
* Runs of text have to end where the next element begins (`Renders.rounds_isChain`), which they do as
  none is followed by one that it could go on with.
-/

import TypedMarkup.Proofs.Grammar.RendersProperty

namespace TypedMarkup

open Text (Sees Shows StartsWith aheadOf)

namespace Grammar.Follow

/-- What ends a run of text. -/
def textEnd : List (Option Char) := [some '[', some '\x60', some '\n', some ']']

/-- What may follow a preamble. -/
def preamble : List (Option Char) := [some '_', some ']', none]

end Grammar.Follow

/-- What is nested deeper can be written, if it is small enough, and so can some node that is ignored. -/
structure Grammar.Nested.Renders (nested : Grammar.Nested) (bound : Nat) : Prop where
  ignored : ∀ inner follow, nested.node.Renders (fun _ => ()) inner (Shows [some '[']) follow
  node : ∀ inner follow, inner.WellFormed → sizeOf inner < bound →
    nested.node.Renders (Node.relabel .blind id) inner (Shows [some '[']) follow
  content : ∀ body, body.WellFormed → sizeOf body < bound →
    nested.content.Renders (Content.relabel .blind id) body
      (Shows (aheadOf body.preamble '<' Follow.preamble)) (Shows Follow.block)

namespace Language.Renders

open Grammar (Follow.textEnd)
open TypedMarkup.Parser (Round endsText)

/-! ### Runs of text -/

/-- What a run of text is written as: its first character, which is seen, and plain text. -/
structure IsWrittenAs (run : TextRun) (seen : Sight) (first : Char) (text : List Char) : Prop where
  split : run.content.toList = first :: text
  inLine : first ≠ '\r' ∧ first ≠ '\n'
  inside : ∀ c ∈ text, endsText c = false
  sees : ∀ rest, StartsWith [first] (fun text => text.head? ≠ some '[') rest → Sees seen rest

/-- No ignored node stands at a character with no bracket behind it. -/
theorem isIgnored_eq_false {first : Char} {text : List Char}
    (starts : StartsWith [first] (fun text => text.head? ≠ some '[') text) :
    text.head? = some first ∧ Sight.isIgnored text.head? text.tail.head? = false := by
  obtain ⟨rest, rfl, noBracket⟩ := starts
  exact ⟨rfl, by simp [Sight.isIgnored, noBracket]⟩

theorem isWrittenAs_of_standsInLine {run : TextRun} (stands : run.StandsInLine) :
    ∃ first text, IsWrittenAs run .plain first text := by
  have plain (c : Char) (member : c ∈ run.content.toList) : endsText c = false := by
    have other := stands.plain c member
    simp only [List.mem_cons, List.not_mem_nil, or_false, not_or] at other
    simp [endsText, other]
  obtain ⟨first, text, split⟩ :=
    List.exists_cons_of_ne_nil fun none => stands.some (String.toList_eq_nil_iff.1 none)
  rw [split] at plain
  obtain ⟨here, inside⟩ := List.forall_mem_cons.1 plain
  refine ⟨first, text, split, ⟨?_, ?_⟩, inside, fun rest starts => ?_⟩
  · rintro rfl
    cases here
  · rintro rfl
    cases here
  · obtain ⟨head, notIgnored⟩ := isIgnored_eq_false starts
    rw [Sees, Sight.sees, notIgnored, head]
    simp [here]

theorem isWrittenAs_of_standsInText {run : TextRun} (stands : run.StandsInText) :
    ∃ first text, IsWrittenAs run .nodeText first text := by
  have inside := stands.inside
  have behind := stands.behind
  obtain ⟨first, text, split⟩ :=
    List.exists_cons_of_ne_nil fun none => stands.some (String.toList_eq_nil_iff.1 none)
  rw [split] at inside behind
  obtain ⟨here, inside⟩ := List.forall_mem_cons.1 inside
  refine ⟨first, text, split, ⟨?_, ?_⟩, fun c member => ?_, fun rest starts => ?_⟩
  · rintro rfl
    exact here (by decide)
  · rintro rfl
    exact here (by decide)
  · have other := inside c member
    have noBracket : c ≠ '[' := fun same => behind (same ▸ member)
    simp only [List.mem_cons, List.not_mem_nil, or_false, not_or] at other
    simp [endsText, other, noBracket]
  · obtain ⟨head, notIgnored⟩ := isIgnored_eq_false starts
    rw [Sees, Sight.sees, notIgnored, head]
    simpa using here

/-! ### Elements of lines and of text nodes -/

section Elements

variable {α γ : Type} {round : Language (Round α)} {look : α → γ} {list : List α}
  {isRun : α → Prop} {goes : α → α → Prop}

/-- What is known before some elements: if the first may follow a run of text, a run ends there. -/
def BeforeElements (isRun : α → Prop) (goes : α → α → Prop) (list : List α) (text : List Char) : Prop :=
  ∀ run, isRun run → (∀ a ∈ list.head?, goes run a) → Shows Follow.textEnd text

/-- **Elements that go together** can be written if each can before what ends a run of text, and all
but runs before anything. -/
theorem rounds_isChain {c : Char} (chain : list.IsChain goes)
    (each : ∀ a ∈ list, ∀ follow : List Char → Prop,
      (isRun a → ∀ text, follow text → Shows Follow.textEnd text) →
      round.Renders (Round.map look) (.item a)
        (fun text => ∀ run, isRun run → goes run a → Shows Follow.textEnd text) follow)
    (stop : round.Renders (Round.map look) .stop (Shows [some c]) (Shows [some c]))
    (ends : some c ∈ Follow.textEnd) :
    (rounds round).Renders (List.map look) list (BeforeElements isRun goes list) (Shows [some c]) := by
  induction list with
  | nil =>
    exact (rounds_nil stop).weaken fun _ shows' _ _ _ =>
      shows'.mono (List.cons_subset.2 ⟨ends, List.nil_subset _⟩)
  | cons a list ih =>
    obtain ⟨next, chain⟩ := List.isChain_cons.1 chain
    obtain ⟨first, later⟩ := List.forall_mem_cons.1 each
    refine rounds_cons ((first _ fun run text before => ?_).weaken ?_) (ih chain later)
    · exact before a run next
    · exact fun _ before run isRun goes => before run isRun (goes a rfl)

end Elements

variable {nested : Grammar.Nested} {bound : Nat} {follow : List Char → Prop}

/-- Some node. -/
theorem anyNode (nested : Grammar.Nested) (inner : Node) :
    (Grammar.node nested).Renders (fun _ => ()) inner (Shows [some '[']) follow := by
  have body (start : Position) : (Grammar.nodeBody nested start).Renders (fun _ => ()) inner
      (Shows [some 'v']) (Shows [some ']']) :=
    (of_finishes (Finishes.nodeBody nested start)).mono (fun _ => id) fun _ shows' =>
      shows'.mono (by decide)
  exact (sign_shows (by decide) Position.start).bind fun start _ => (gap_shows (by decide)).bind
    fun _ _ => (body start).bind fun _ _ => (sign_shows (by decide) start).map fun _ _ => rfl

variable (deeper : nested.Renders bound)

include deeper

/-! ### Text -/

theorem ignoredNode : (Grammar.ignoredNode nested).Renders id ()
    (StartsWith ['_'] (Shows [some '['])) follow :=
  (sign (by decide) Position.start).bind fun _ _ =>
    (deeper.ignored (.block Position.start .empty) follow).kept.map fun _ _ => rfl

/-- Text behind the first character of a run, up to an ignored node. -/
theorem textPieces {text : List Char} (inside : ∀ c ∈ text, endsText c = false) :
    ∃ pieces : List (List Char), pieces.flatten = text ∧
      (rounds (Grammar.textPiece nested)).Renders (List.map id) pieces
        (fun text => text.head? ≠ some '[') (Shows Follow.textEnd) := by
  have last : (rounds (Grammar.textPiece nested)).Renders (List.map id) []
      (StartsWith ['_'] (Shows [some '['])) (Shows Follow.textEnd) :=
    rounds_pass (right (left ((ignoredNode deeper).map fun _ _ => rfl)))
      (rounds_nil (left ((sight_shows (by decide)).map fun _ _ => rfl)))
  cases text with
  | nil =>
    refine ⟨[], rfl, last.weaken ?_⟩
    rintro _ ⟨rest, rfl, _⟩ bracket
    cases bracket
  | cons c text =>
    have item : (do return .item (← Language.plain) : Language (Round (List Char))).Renders
        (Round.map id) (.item (c :: text))
        (StartsWith (c :: text) (StartsWith ['_'] (Shows [some '['])))
        (StartsWith ['_'] (Shows [some '['])) := by
      refine (plain (List.cons_ne_nil _ _) inside ?_).map fun _ => congrArg Round.item
      rintro _ ⟨rest, rfl, bracket⟩
      exact ⟨Parser.plainText_eq_nil.2 (.inr ⟨rfl, List.mem_singleton.1 bracket⟩), nofun⟩
    refine ⟨[c :: text], List.append_nil _, (rounds_cons (right (right item)) last).weaken ?_⟩
    rintro _ ⟨rest, rfl, _⟩ bracket
    obtain rfl : c = '[' := Option.some.inj bracket
    cases inside '[' (List.mem_cons_self ..)

/-- A run of text, with an ignored node behind it. -/
theorem textRun {run : TextRun} {seen : Sight} {first : Char} {text : List Char}
    (written : IsWrittenAs run seen first text) :
    (Grammar.textRun nested).Renders (TextRun.relabel .blind) run
      (StartsWith [first] fun text => text.head? ≠ some '[') (Shows Follow.textEnd) := by
  obtain ⟨pieces, flatten, later⟩ := textPieces deeper written.inside
  refine (anySign written.inLine run.start).bind fun read same => later.map fun pieces' same' => ?_
  simp only [Prod.map, id, Prod.mk.injEq] at same
  simp only [List.map_id_fun, id] at same'
  simp only [TextRun.relabel, same, same', flatten, List.singleton_append, ← written.split,
    String.ofList_toList]

/-! ### Lines -/

theorem line {line : List LineElement} (each : ∀ element ∈ line, element.WellFormed)
    (apart : line.IsChain LineElement.MayPrecede) (small : sizeOf line ≤ bound) :
    (Grammar.line nested).Renders (relabelLine .blind id) line (Shows [some '_'])
      (Shows [some '\n']) := by
  have item (element : LineElement) (member : element ∈ line) (follow : List Char → Prop)
      (ends : (∃ run, element = .plain run) → ∀ text, follow text → Shows Follow.textEnd text) :
      (Grammar.lineElement nested).Renders (Round.map (LineElement.relabel .blind id))
        (.item element) (fun text => ∀ run, (∃ inner, run = LineElement.plain inner) →
          run.MayPrecede element → Shows Follow.textEnd text) follow := by
    have smaller := List.sizeOf_lt_of_mem member
    cases each element member with
    | node inside =>
      rename_i inner
      have small : sizeOf inner < bound := by
        rw [LineElement.node.sizeOf_spec] at smaller
        omega
      refine right (left (weaken ((deeper.node inner follow inside small).map fun _ same => ?_) ?_))
      · simp only [Round.map, LineElement.relabel, same]
      · exact fun _ shows' _ _ _ => shows'.mono (by decide)
    | escaped =>
      rename_i text
      refine right (right (left (weaken ((escaped text).map fun _ same => ?_) ?_)))
      · simp only [Round.map, LineElement.relabel, same]
      · exact fun _ shows' _ _ _ => shows'.mono (by decide)
    | plain stands =>
      rename_i run
      obtain ⟨first, text, as⟩ := isWrittenAs_of_standsInLine stands
      have written := (textRun deeper as).mono (fun _ => id) (ends ⟨run, rfl⟩)
      refine right (right (right (right (weaken ((sight as.sees).bind fun _ _ => written.map
        fun _ same => ?_) ?_))))
      · simp only [Round.map, LineElement.relabel, same]
      · rintro _ _ _ ⟨_, rfl⟩ goes
        exact goes.elim
  have stop : (Grammar.lineElement nested).Renders (Round.map (LineElement.relabel .blind id)) .stop
      (Shows [some '\n']) (Shows [some '\n']) :=
    left ((sight_shows (by decide)).map fun _ _ => rfl)
  have pass {follow : List Char → Prop} : (Grammar.lineElement nested).Renders
      (Round.map (LineElement.relabel .blind id)) .pass (Shows [some '_']) follow :=
    right (right (right (left (((ignoredNode deeper).weaken fun _ => StartsWith.shows).map
      fun _ _ => rfl))))
  rw [funext (relabelLine_eq .blind id)]
  exact rounds_pass pass (rounds_isChain apart item stop (by decide))

theorem textElements {elements : List TextElement} (each : ∀ element ∈ elements, element.WellFormed)
    (apart : elements.IsChain TextElement.MayPrecede) :
    (Grammar.textElements nested).Renders (List.map (TextElement.relabel .blind id)) elements
      (Shows [some '_']) (Shows [some ']']) := by
  have item (element : TextElement) (member : element ∈ elements) (follow : List Char → Prop)
      (ends : (∃ run, element = .plain run) → ∀ text, follow text → Shows Follow.textEnd text) :
      (Grammar.textElement nested).Renders (Round.map (TextElement.relabel .blind id))
        (.item element) (fun text => ∀ run, (∃ inner, run = TextElement.plain inner) →
          run.MayPrecede element → Shows Follow.textEnd text) follow := by
    have stands := each element member
    cases element with
    | escaped text =>
      refine right (left (weaken ((escaped text).map fun _ same => ?_) ?_))
      · simp only [Round.map, TextElement.relabel, same]
      · exact fun _ shows' _ _ _ => shows'.mono (by decide)
    | plain run =>
      obtain ⟨first, text, as⟩ := isWrittenAs_of_standsInText stands
      have written := (textRun deeper as).mono (fun _ => id) (ends ⟨run, rfl⟩)
      refine right (right (right (weaken ((sight as.sees).bind fun _ _ => written.map
        fun _ same => ?_) ?_)))
      · simp only [Round.map, TextElement.relabel, same]
      · rintro _ starts _ ⟨_, rfl⟩ (bracket : ['['] <+: run.content.toList)
        rw [as.split] at bracket
        obtain rfl : '[' = first := (List.cons_prefix_cons.1 bracket).1
        exact starts.shows.mono (by decide)
  have stop : (Grammar.textElement nested).Renders (Round.map (TextElement.relabel .blind id)) .stop
      (Shows [some ']']) (Shows [some ']']) :=
    left ((sight_shows (by decide)).map fun _ _ => rfl)
  have pass {follow : List Char → Prop} : (Grammar.textElement nested).Renders
      (Round.map (TextElement.relabel .blind id)) .pass (Shows [some '_']) follow :=
    right (right (left (((ignoredNode deeper).weaken fun _ => StartsWith.shows).map
      fun _ _ => rfl)))
  exact rounds_pass pass (rounds_isChain apart item stop (by decide))

end Language.Renders

end TypedMarkup
