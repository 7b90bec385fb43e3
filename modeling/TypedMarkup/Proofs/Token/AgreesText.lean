/-
**Ignored nodes and text in step.** The two sides cut text at different places. The parser passes
over all of a run up to an ignored node at once, and the lexer begins a new token at every
underscore and collapses an ignored node into one.

* `Nested.Agree` is what is assumed of the parsers and lexers of nested constructs.
* `Lexer.cut_pieces`, `Lexer.cut_plainText`: in so many rounds the lexer cuts what the parser takes
  as one piece.
* `Agrees.textRun`: a run of text against the rounds of a lexer that cuts text.
-/

import TypedMarkup.Proofs.Token.AgreesProperty
import TypedMarkup.Proofs.Tree.ReadsBlock

namespace TypedMarkup

/-! ### Plain text -/

namespace Parser

/-- Plain text goes on behind the characters that end no text token. -/
theorem plainText_eq_append (text : List Char) :
    plainText text = (text.takeWhile fun c => !Lexer.endsTextToken c) ++
      plainText (text.dropWhile fun c => !Lexer.endsTextToken c) := by
  induction text with
  | nil => rfl
  | cons c text ih =>
    cases ends : Lexer.endsTextToken c with
    | true => simp [ends]
    | false =>
      have goesOn : endsText c = false ∧ c ≠ '_' := by
        simpa [Lexer.endsTextToken, endsText] using ends
      have plain : plainText (c :: text) = c :: plainText text := by
        rw [plainText, if_neg (by simp [goesOn.1])]
        rintro _ rfl
        exact (goesOn.2 rfl).elim
      rw [plain, ih]
      simp [ends]

/-- Where plain text begins. -/
theorem plainText_eq_cons {c : Cursor} {x : Char} {text : List Char}
    (plain : plainText c.rest = x :: text) :
    c.head = some x ∧ endsText x = false ∧
      ¬ (c.head = some '_' && c.second = some '[') = true ∧ text = plainText c.rest.tail := by
  unfold plainText at plain
  split at plain
  · cases plain
  · cases plain
  · next y rest notNode split =>
    cases ends : endsText y with
    | true => simp [ends] at plain
    | false =>
      rw [if_neg (by simp [ends])] at plain
      obtain ⟨rfl, rfl⟩ := List.cons.inj plain
      refine ⟨by rw [Cursor.head, split, List.head?_cons], ends, ?_, by rw [split, List.tail_cons]⟩
      intro node
      simp only [Cursor.head, Cursor.second, split, List.head?_cons, List.tail_cons,
        Bool.and_eq_true, decide_eq_true_eq, Option.some.injEq] at node
      obtain ⟨more, same⟩ := List.head?_eq_some_iff.1 node.2
      exact notNode more node.1 same

/-- A round that reads an item, with the rounds that come after it. -/
theorem run_rounds_item {α β : Type} {step : Parser (Round α)} {c after : Cursor} {a : α}
    (run : step c = .ok (.item a, after)) (left : Nat) (next : List α → Parser β) :
    (rounds step (left + 1) >>= next) c =
      (rounds step left >>= fun items => next (a :: items)) after := by
  rw [rounds, bind_assoc]
  show (step c >>= fun result => _) = _
  rw [run]
  show ((rounds step left >>= fun items => Pure.pure (a :: items)) >>= next) after = _
  rw [bind_assoc]
  rfl

/-- Where plain text begins, all of it is one piece. -/
theorem run_textPiece {nested : Nested} {c : Cursor} {x : Char} {text : List Char}
    (plain : plainText c.rest = x :: text) :
    textPiece nested c = .ok (.item (plainText c.rest), c.behind (plainText c.rest)) := by
  obtain ⟨found, endless, notNode, _⟩ := plainText_eq_cons plain
  have looked : ∀ next : Option Char → Parser (Round (List Char)),
      (head >>= next) c = next c.head c := fun _ => rfl
  unfold textPiece
  rw [looked, found]
  dsimp only
  rw [if_neg (by simp [endless])]
  show (if (c.head = some '_' && c.second = some '[') = true then _
    else (do return .item (← take plainText)) : Parser (Round (List Char))) c = _
  rw [if_neg notNode]
  rfl

end Parser

/-! ### Nested constructs -/

/-- The parsers and lexers of nested constructs stay together. -/
structure Nested.Agree (nested : Parser.Nested) (nested' : Lexer.Nested) : Prop where
  node : ∀ {state}, state.cursor.head = some '[' →
    Agrees nested.node nested'.node state fun node _ after => state.Says (marksOf node.parts) after
  content : ∀ {state}, Agrees nested.content nested'.content state fun content _ after =>
    state.Says (marksOf content.parts) after

namespace Lexer

variable {state : State} {nested : Nested}

/-- Cutting text that is no ignored node. -/
theorem run_textOrIgnored {x : Char} (found : state.cursor.head = some x)
    (notNode : ¬ (state.cursor.head = some '_' && state.cursor.second = some '[') = true) :
    (textOrIgnored nested).run.run state = (.ok (), state.cut .text none
      (x :: state.cursor.rest.tail.takeWhile fun c => !endsTextToken c)) := by
  have looked : atIgnoredNode.run.run state =
      (.ok (state.cursor.head = some '_' && state.cursor.second = some '['), state) := rfl
  have cut : text.run.run state = (.ok (), state.cut .text none
      (x :: state.cursor.rest.tail.takeWhile fun c => !endsTextToken c)) := by
    unfold text
    rw [run_rest_bind, Cursor.rest_of_head found]
    rfl
  refine (run_bind atIgnoredNode _ state).trans ?_
  rw [looked]
  dsimp only
  rw [if_neg notNode, cut]

/-! ### Rounds that cut text -/

/-- A step of a repetition that cuts text and ignored nodes wherever no character has another
meaning. -/
def CutsText (nested : Nested) (step : Lexer Bool) : Prop :=
  ∀ {state : State} {x : Char}, state.cursor.head = some x → Parser.endsText x = false →
    step.run.run state = (do
      textOrIgnored nested
      return true : Lexer Bool).run.run state

theorem CutsText.run {step : Lexer Bool} {x : Char} (cuts : CutsText nested step)
    (found : state.cursor.head = some x) (plain : Parser.endsText x = false)
    (notNode : ¬ (state.cursor.head = some '_' && state.cursor.second = some '[') = true) :
    step.run.run state = (.ok true, state.cut .text none
      (x :: state.cursor.rest.tail.takeWhile fun c => !endsTextToken c)) := by
  refine (cuts found plain).trans ((run_bind _ _ _).trans ?_)
  rw [run_textOrIgnored found notNode]
  rfl

theorem run_rounds_of_step {step : Lexer Bool} {after : State} {left : Nat}
    (run : step.run.run state = (.ok true, after)) :
    (rounds step (left + 1)).run.run state = (rounds step left).run.run after := by
  refine (run_bind step _ state).trans ?_
  rw [run]
  rfl

/-- The state behind some texts, each of which has become a token. -/
def State.cutAll (state : State) (pieces : List (List Char)) : State :=
  pieces.foldl (fun state piece => state.cut .text none piece) state

namespace State

theorem cutAll_cursor (state : State) (pieces : List (List Char)) :
    (state.cutAll pieces).cursor = state.cursor.behind pieces.flatten := by
  induction pieces generalizing state with
  | nil => rfl
  | cons piece pieces ih =>
    rw [List.flatten_cons, Cursor.behind_append]
    exact ih (state.cut .text none piece)

theorem Tidy.cutAll (tidy : state.Tidy) (pieces : List (List Char)) :
    (state.cutAll pieces).Tidy := by
  induction pieces generalizing state with
  | nil => exact tidy
  | cons piece pieces ih => exact ih (tidy.cut (by decide) none piece)

theorem says_cutAll (state : State) (pieces : List (List Char)) :
    state.Says (pieces.flatten.map Mark.char) (state.cutAll pieces) := by
  induction pieces generalizing state with
  | nil => exact .refl state
  | cons piece pieces ih =>
    have cut := State.Says.cut state .text none piece
    have marks : Token.marks ⟨.text, state.cursor.position.offset, String.ofList piece, none⟩ =
        piece.map Mark.char := by
      show (String.ofList piece).toList.map Mark.char = _
      rw [String.toList_ofList]
    rw [marks] at cut
    rw [List.flatten_cons, List.map_append]
    exact cut.trans (ih (state.cut .text none piece))

end State

/-- Rounds of a step lead from one state to another. Of enough rounds before, enough are left. -/
def Runs (step : Lexer Bool) (state after : State) : Prop :=
  ∀ left, state.cursor.rest.length < left → ∃ left', after.cursor.rest.length < left' ∧
    (rounds step left).run.run state = (rounds step left').run.run after

namespace Runs

variable {step : Lexer Bool} {middle after : State}

theorem refl (state : State) : Runs step state state :=
  fun left enough => ⟨left, enough, rfl⟩

theorem trans (first : Runs step state middle) (second : Runs step middle after) :
    Runs step state after := by
  intro left enough
  obtain ⟨left', enough', same⟩ := first left enough
  obtain ⟨left'', enough'', same'⟩ := second left' enough'
  exact ⟨left'', enough'', same.trans same'⟩

/-- One round. -/
theorem of_step (run : step.run.run state = (.ok true, after))
    (shorter : after.cursor.rest.length < state.cursor.rest.length) : Runs step state after := by
  intro left enough
  obtain ⟨left, rfl⟩ : ∃ more, left = more + 1 := ⟨left - 1, by omega⟩
  exact ⟨left, by omega, run_rounds_of_step run⟩

end Runs

/-- Every round that begins at an underscore cuts a token of its own, and together they cut all of
the plain text. -/
theorem cut_pieces {step : Lexer Bool} (cuts : CutsText nested step) {x : Char}
    (found : state.cursor.head = some x)
    (first : step.run.run state = (.ok true, state.cut .text none
      (x :: state.cursor.rest.tail.takeWhile fun c => !endsTextToken c))) :
    ∃ pieces, pieces.flatten = x :: Parser.plainText state.cursor.rest.tail ∧
      Runs step state (state.cutAll pieces) := by
  induction size : state.cursor.rest.length using Nat.strongRecOn generalizing state x with
  | _ size ih =>
    subst size
    have split := Cursor.rest_of_head found
    have plain := Parser.plainText_eq_append state.cursor.rest.tail
    generalize piece : (state.cursor.rest.tail.takeWhile fun c => !endsTextToken c) = text at *
    generalize others :
      (state.cursor.rest.tail.dropWhile fun c => !endsTextToken c) = more at *
    have whole : state.cursor.rest = (x :: text) ++ more := by
      rw [split, ← piece, ← others, List.cons_append, List.takeWhile_append_dropWhile]
    have behind : (state.cut .text none (x :: text)).cursor.rest = more :=
      Cursor.behind_rest whole
    have shorter : (state.cut .text none (x :: text)).cursor.rest.length <
        state.cursor.rest.length := by
      rw [behind, whole, List.length_append, List.length_cons]
      omega
    rw [plain]
    cases rest : Parser.plainText more with
    | nil => exact ⟨[x :: text], by simp, .of_step first shorter⟩
    | cons y tail =>
      rw [← behind] at rest
      obtain ⟨found', plain', notNode, same⟩ := Parser.plainText_eq_cons rest
      obtain ⟨pieces, flat, runs⟩ := ih _ shorter found' (cuts.run found' plain' notNode) rfl
      refine ⟨(x :: text) :: pieces, ?_, (Runs.of_step first shorter).trans runs⟩
      rw [List.flatten_cons, flat, same, List.cons_append]

/-- All of the plain text is cut, and nothing else is said. -/
theorem cut_plainText {step : Lexer Bool} (cuts : CutsText nested step) {x : Char} {left : Nat}
    (enough : state.cursor.rest.length < left) (found : state.cursor.head = some x)
    (first : step.run.run state = (.ok true, state.cut .text none
      (x :: state.cursor.rest.tail.takeWhile fun c => !endsTextToken c))) :
    ∃ left' after, (rounds step left).run.run state = (rounds step left').run.run after ∧
      after.cursor.rest.length < left' ∧
      after.cursor = state.cursor.behind (x :: Parser.plainText state.cursor.rest.tail) ∧
      (state.Tidy → after.Tidy) ∧
      state.Says ((x :: Parser.plainText state.cursor.rest.tail).map Mark.char) after := by
  obtain ⟨pieces, flat, runs⟩ := cut_pieces cuts found first
  obtain ⟨left', enough', run⟩ := runs left enough
  rw [← flat]
  exact ⟨left', _, run, enough', state.cutAll_cursor pieces, fun tidy => tidy.cutAll pieces,
    state.says_cutAll pieces⟩

end Lexer

namespace Agrees

open Lexer (CutsText)

variable {α β : Type} {state : Lexer.State} {bound : Nat} {nested : Parser.Nested}
  {nested' : Lexer.Nested} {holds : α → β → Lexer.State → Prop}

/-! ### Ignored nodes -/

/-- An ignored node is dropped on both sides. If it cannot be read, the lexer drops the tokens
inside as well, and gives up at the underscore. -/
theorem ignoredNode (agree : Nested.Agree nested nested') (sound : nested.Sound bound)
    (first : state.cursor.head = some '_') (second : state.cursor.second = some '[') :
    Agrees (Parser.ignoredNode nested) (Lexer.collapsed .ignored nested'.node) state
      fun _ _ after => state.Says [] after := by
  intro tidy
  have one := Cursor.take_one_of_head first
  have stands : state.cursor.Reaches (state.cursor.behind ['_']) :=
    Cursor.reaches_behind (one ▸ Cursor.take_one_stands state.cursor)
  -- The run inside, whose tokens do not matter in the end.
  let inside : Lexer.State := { state with cursor := state.cursor.behind ['_'] }
  have tidyInside : inside.Tidy := ⟨tidy.read, Nat.le_trans tidy.behind stands.offset_le⟩
  have bracket : inside.cursor.head = some '[' := by
    rw [Cursor.behind_head, ← second]
    simp [Cursor.second]
  have agrees := agree.node bracket tidyInside
  have reads := sound.node bracket (.refl inside.cursor)
  have parsed : Parser.ignoredNode nested state.cursor =
      (nested.node inside.cursor >>= fun result => .ok ((), result.2)) := by
    show (nested.node (state.cursor.behind (state.cursor.rest.take 1)) >>=
      fun result => Except.ok ((), result.2)) = _
    rw [one]
  have collapsed := Lexer.run_collapsed .ignored nested'.node state
  rw [one] at collapsed
  rw [parsed]
  cases run : nested.node inside.cursor with
  | ok result =>
    obtain ⟨node, cursor⟩ := result
    rw [run] at agrees reads
    obtain ⟨_, after, run', rfl, _, _⟩ := agrees
    rw [run'] at collapsed
    have back : ({ after with cursor := state.cursor, tokens := state.tokens } :
        Lexer.State).Tidy := ⟨tidy.read, tidy.behind⟩
    refine ⟨(), _, collapsed, ?_, back.cut (by decide) none _, .cut _ _ _ _⟩
    exact Cursor.behind_textTo (stands.trans reads.1)
  | error failure =>
    rw [run] at agrees reads
    cases failure with
    | exhausted => trivial
    | malformed error =>
      refine agrees.imp_right ?_
      rintro ⟨refusal, after, run', _⟩
      rw [run'] at collapsed
      obtain ⟨there, leads, position, _⟩ := reads.found
      refine ⟨refusal, _, collapsed, ?_⟩
      rw [← position]
      exact Nat.le_trans tidy.behind (stands.trans leads).offset_le

/-- A round of the lexer that collapses an ignored node. -/
theorem pass_ignoredNode {step : Lexer Bool} {left : Nat} {next : Parser α}
    {later : α → Unit → Lexer.State → Prop}
    (agree : Nested.Agree nested nested') (sound : nested.Sound bound)
    (cuts : step.run.run state = (do
      Lexer.textOrIgnored nested'
      return true : Lexer Bool).run.run state)
    (atNode : (state.cursor.head = some '_' && state.cursor.second = some '[') = true)
    (rest : ∀ after : Lexer.State, after.cursor.rest.length < state.cursor.rest.length →
      state.Says [] after → Agrees next (Lexer.rounds step left) after later) :
    Agrees (do
      Parser.ignoredNode nested
      next) (Lexer.rounds step (left + 1)) state later := by
  have looked : (Lexer.textOrIgnored nested').run.run state =
      (Lexer.collapsed .ignored nested'.node).run.run state := by
    refine (Lexer.run_bind Lexer.atIgnoredNode _ state).trans ?_
    show (if (state.cursor.head = some '_' && state.cursor.second = some '[') = true then _
      else Lexer.text : Lexer Unit).run.run state = _
    rw [if_pos atNode]
  have run : step.run.run state = (do
      Lexer.collapsed .ignored nested'.node
      return true : Lexer Bool).run.run state := by
    rw [cuts, Lexer.run_bind, looked, Lexer.run_bind]
  simp only [Bool.and_eq_true, decide_eq_true_eq] at atNode
  have together := (ignoredNode agree sound atNode.1 atNode.2).reads
    (Parser.Reads.ignoredNode sound atNode.1 atNode.2)
  exact first_round run together fun _ _ after result => rest after (by omega) result.1

theorem atIgnoredNode_parser_bind {next : Bool → Parser α} {lexer : Lexer β}
    (agrees : Agrees (next (state.cursor.head = some '_' && state.cursor.second = some '[')) lexer
      state holds) :
    Agrees (Parser.atIgnoredNode >>= next) lexer state holds :=
  agrees

/-! ### Runs of text -/

section Runs

variable {step : Lexer Bool} {later : α → Unit → Lexer.State → Prop}

/-- A piece of a run, with what comes after it. -/
theorem textPiece (agree : Nested.Agree nested nested') (sound : nested.Sound bound)
    (cuts : CutsText nested' step) {left : Nat}
    {next : Parser.Round (List Char) → Parser α}
    (enough : state.cursor.rest.length < left)
    (stop : Agrees (next .stop) (Lexer.rounds step left) state later)
    (pass : ∀ after left', after.cursor.rest.length < left' → state.Says [] after →
      Agrees (next .pass) (Lexer.rounds step left') after later)
    (item : ∀ piece after left', after.cursor.rest.length < left' →
      state.Says (piece.map Mark.char) after →
      Agrees (next (.item piece)) (Lexer.rounds step left') after later) :
    Agrees (Parser.textPiece nested >>= next) (Lexer.rounds step left) state later := by
  unfold Parser.textPiece
  rw [bind_assoc]
  apply head_parser_bind
  split
  · exact stop
  · next x head =>
    split
    · exact stop
    · next plain =>
      have found : state.cursor.head = some x := head
      rw [bind_assoc]
      apply atIgnoredNode_parser_bind
      split
      · next node =>
        obtain ⟨left, rfl⟩ : ∃ more, left = more + 1 := ⟨left - 1, by omega⟩
        rw [bind_assoc]
        exact pass_ignoredNode agree sound (cuts found (by simpa using plain)) node
          fun after shorter said => pass after left (by omega) said
      · next notNode =>
        have endless : Parser.endsText x = false := by simpa using plain
        have piece : Parser.plainText state.cursor.rest =
            x :: Parser.plainText state.cursor.rest.tail := by
          have nonempty := Parser.plainText_ne_nil found plain notNode
          cases text : Parser.plainText state.cursor.rest with
          | nil => exact absurd text nonempty
          | cons y more =>
            obtain ⟨found', _, _, same⟩ := Parser.plainText_eq_cons text
            obtain rfl : x = y := by simpa [found] using found'
            rw [same]
        obtain ⟨left', after, run, enough', moved, tidy, said⟩ :=
          Lexer.cut_plainText cuts enough found (cuts.run found endless notNode)
        rw [← piece] at moved said
        have agrees := item (Parser.plainText state.cursor.rest) after left' enough' said
        refine agrees.catch_up ?_ run tidy
        rw [moved]
        rfl

/-- The pieces of a run against the rounds of the lexer, whose number they do not fix. -/
theorem textPieces (agree : Nested.Agree nested nested') (sound : nested.Sound bound)
    (cuts : CutsText nested' step) {left left' : Nat} {next : List (List Char) → Parser α}
    (enough : state.cursor.rest.length < left')
    (rest : ∀ pieces after left'', after.cursor.rest.length < left'' →
      state.Says (pieces.flatten.map Mark.char) after →
      Agrees (next pieces) (Lexer.rounds step left'') after later) :
    Agrees (Parser.rounds (Parser.textPiece nested) left >>= next) (Lexer.rounds step left') state
      later := by
  induction left generalizing state left' next with
  | zero => exact fun _ => trivial
  | succ left ih =>
    unfold Parser.rounds
    rw [bind_assoc]
    refine textPiece agree sound cuts enough ?_ ?_ ?_
    · exact rest [] state left' enough (.refl state)
    · intro after left'' enough' said
      exact ih enough' fun pieces last more enough'' said' =>
        rest pieces last more enough'' (said.trans said')
    · intro piece after left'' enough' said
      dsimp only
      rw [bind_assoc]
      refine ih enough' fun pieces last more enough'' said' => ?_
      refine rest (piece :: pieces) last more enough'' ?_
      rw [List.flatten_cons, List.map_append]
      exact said.trans said'

/-- **A run of text.** The first token goes on to where the first piece of the run ends, or an
underscore. -/
theorem textRun (agree : Nested.Agree nested nested') (sound : nested.Sound bound)
    (cuts : CutsText nested' step) {x : Char} {left : Nat} {next : TextRun → Parser α}
    (enough : state.cursor.rest.length < left) (found : state.cursor.head = some x)
    (first : step.run.run state = (.ok true, state.cut .text none
      (x :: state.cursor.rest.tail.takeWhile fun c => !Lexer.endsTextToken c)))
    (rest : ∀ run after left', after.cursor.rest.length < left' →
      state.Says (run.content.toList.map Mark.char) after →
      Agrees (next run) (Lexer.rounds step left') after later) :
    Agrees (Parser.textRun nested >>= next) (Lexer.rounds step left) state later := by
  obtain ⟨left', after, run, enough', moved, tidy, said⟩ :=
    Lexer.cut_plainText cuts enough found first
  -- The parser behind the first character, and what it does with the pieces.
  let inside := state.cursor.behind [x]
  let made (pieces : List (List Char)) : TextRun :=
    ⟨String.ofList ([x] ++ pieces.flatten), state.cursor.position⟩
  have parsed : (Parser.textRun nested >>= next) state.cursor =
      (Parser.rounds (Parser.textPiece nested) (inside.rest.length + 1) >>=
        fun pieces => next (made pieces)) inside := by
    have one := Cursor.take_one_of_head found
    unfold Parser.textRun
    simp only [bind_assoc, pure_bind]
    show (Parser.rounds (Parser.textPiece nested)
        ((state.cursor.behind (state.cursor.rest.take 1)).rest.length + 1) >>= fun pieces =>
      next ⟨String.ofList (state.cursor.rest.take 1 ++ pieces.flatten), state.cursor.position⟩)
        (state.cursor.behind (state.cursor.rest.take 1)) = _
    rw [one]
  have insideRest : inside.rest = state.cursor.rest.tail :=
    Cursor.behind_rest (Cursor.rest_of_head found)
  rw [← insideRest] at moved said
  -- What is left of the run once both sides are together.
  have together (earlier : List (List Char))
      (same : Parser.plainText inside.rest = earlier.flatten) (more : Nat) :
      Agrees (Parser.rounds (Parser.textPiece nested) more >>=
        fun pieces => next (made (earlier ++ pieces))) (Lexer.rounds step left') after later := by
    refine textPieces agree sound cuts enough' fun pieces last left'' enough'' said' => ?_
    refine rest (made (earlier ++ pieces)) last left'' enough'' ?_
    rw [String.toList_ofList, List.flatten_append, ← same, ← List.append_assoc, List.map_append]
    exact said.trans said'
  cases plain : Parser.plainText inside.rest with
  | nil =>
    rw [plain] at moved
    refine (together [] plain (inside.rest.length + 1)).catch_up (parsed.trans ?_) run tidy
    rw [moved]
    rfl
  | cons y text =>
    rw [plain] at moved
    have flat : Parser.plainText inside.rest = [y :: text].flatten := by simpa using plain
    refine (together [y :: text] flat inside.rest.length).catch_up (parsed.trans ?_) run tidy
    have piece : Parser.textPiece nested inside =
        .ok (.item (y :: text), inside.behind (y :: text)) :=
      plain ▸ Parser.run_textPiece plain
    have further : after.cursor = inside.behind (y :: text) :=
      moved.trans (Cursor.behind_append [x] (y :: text) state.cursor)
    rw [Parser.run_rounds_item piece, further]
    rfl

/-- A round that reads escaped text. -/
theorem escaped_round {γ : Type} {escaped : EscapedText → γ} {left : Nat}
    {next : Parser.Round γ → Parser α} (enough : state.cursor.rest.length < left + 1)
    (found : state.cursor.head = some '\x60')
    (run : step.run.run state = (do
      Lexer.escapedText
      return true : Lexer Bool).run.run state)
    (item : ∀ text after left', after.cursor.rest.length < left' →
      state.Says [text.mark] after →
      Agrees (next (.item (escaped text))) (Lexer.rounds step left') after later) :
    Agrees ((do return .item (escaped (← Parser.escapedText))) >>= next)
      (Lexer.rounds step (left + 1)) state later := by
  rw [bind_assoc]
  have moves : Parser.Reads state.cursor 0 Parser.escapedText state.cursor _ :=
    Parser.Reads.escapedText found
  exact first_round run ((escapedText found).reads moves) fun text _ after result =>
    item text after left (by omega) result.1

/-- A round of a line or a text node where none of its own signs stands. -/
theorem text_round (agree : Nested.Agree nested nested') (sound : nested.Sound bound)
    (cuts : CutsText nested' step) {γ : Type} {plain : TextRun → γ} {x : Char} {left : Nat}
    {next : Parser.Round γ → Parser α} (enough : state.cursor.rest.length < left + 1)
    (found : state.cursor.head = some x)
    (here : step.run.run state = (do
      Lexer.textOrIgnored nested'
      return true : Lexer Bool).run.run state)
    (pass : ∀ after left', after.cursor.rest.length < left' → state.Says [] after →
      Agrees (next .pass) (Lexer.rounds step left') after later)
    (item : ∀ run after left', after.cursor.rest.length < left' →
      state.Says (run.content.toList.map Mark.char) after →
      Agrees (next (.item (plain run))) (Lexer.rounds step left') after later) :
    Agrees ((do
      if ← Parser.atIgnoredNode then
        Parser.ignoredNode nested
        return .pass
      else
        return .item (plain (← Parser.textRun nested))) >>= next)
      (Lexer.rounds step (left + 1)) state later := by
  rw [bind_assoc]
  apply atIgnoredNode_parser_bind
  split
  · next node =>
    rw [bind_assoc]
    exact pass_ignoredNode agree sound here node
      fun after shorter said => pass after left (by omega) said
  · next notNode =>
    rw [bind_assoc]
    have first : step.run.run state = (.ok true, state.cut .text none
        (x :: state.cursor.rest.tail.takeWhile fun c => !Lexer.endsTextToken c)) := by
      rw [here, Lexer.run_bind, Lexer.run_textOrIgnored found notNode]
      rfl
    exact textRun agree sound cuts enough found first item

end Runs

end Agrees

end TypedMarkup
