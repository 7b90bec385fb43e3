/-
**Classes, type paths and properties in step.** What `Agrees` says of the parsers and lexers whose
constructs hold no blocks.

* `escapedFront_scanEscaped`: both sides find the same end of an escaped text. Only the parser looks
  at its indentation.
* `Agrees.settings`: where a name is followed by what cannot follow it, the parser stops at once and
  the lexer in its next round; `Lexer.rounds_setting` is about that round.
-/

import TypedMarkup.Proofs.Token.Agrees
import TypedMarkup.Proofs.Tree.ReadsProperty

namespace TypedMarkup

/-! ### Escaped text -/

/-- Unless a line is not indented far enough, both sides agree on the end of an escaped text. -/
theorem escapedFront_scanEscaped (col due : Nat) (text : List Char) :
    match (scanEscaped col due text).ending with
    | .closed => escapedFront text = some (scanEscaped col due text).passed
    | .unclosed => escapedFront text = none
    | .unpadded => True := by
  fun_induction scanEscaped col due text with
  | case1 due rest ih =>
    have front : escapedFront (' ' :: rest) = (escapedFront rest).map (' ' :: ·) := by
      rw [escapedFront] <;> simp
    rw [front]
    unfold EscapedScan.after
    split <;> simp_all
  | case2 => trivial
  | case3 => rfl
  | case4 => rfl
  | case5 rest => rfl
  | case6 rest ih =>
    unfold EscapedScan.after
    split <;> simp_all [escapedFront]
  | case7 rest ih =>
    unfold EscapedScan.after
    split <;> simp_all [escapedFront]
  | case8 rest ih =>
    have front : escapedFront ('\n' :: rest) = (escapedFront rest).map ('\n' :: ·) := by
      rw [escapedFront] <;> simp
    rw [front]
    unfold EscapedScan.after
    split <;> simp_all
  | case9 c rest notLast notQuote notEscaped notEscape notFeed ih =>
    have front : escapedFront (c :: rest) = (escapedFront rest).map (c :: ·) := by
      rw [escapedFront] <;> assumption
    rw [front]
    unfold EscapedScan.after
    split <;> simp_all

namespace Agrees

open Lexer.State (Says)
open TypedMarkup.Parser (Round)

variable {α β : Type} {state : Lexer.State} {start : Position}
  {holds : α → β → Lexer.State → Prop}

/-- The parser scans the text behind the backtick and then acts on how the scan ended. -/
theorem run_escapedText (c : Cursor) :
    let inside := c.behind (c.rest.take 1)
    let scan := scanEscaped c.position.col 0 inside.rest
    Parser.escapedText c =
      (match scan.ending with
        | .closed => Pure.pure ⟨c.position, ⟨String.ofList scan.content, inside.position⟩⟩
        | .unclosed => Parser.fail [.char '\x60'] (some .escapedText) (some c.position)
        | .unpadded => Parser.fail [.construct .escapedTextLinePadding] none none :
        Parser EscapedText) (inside.behind scan.passed) := rfl

theorem run_lexer_escapedText (state : Lexer.State) :
    Lexer.escapedText.run.run state =
      match escapedFront state.cursor.rest.tail with
      | none => (.error .unreadable, state)
      | some front => (.ok (), state.cut .escapedText none ('\x60' :: front)) := by
  refine (Lexer.run_bind _ _ _).trans ?_
  show (match escapedFront state.cursor.rest.tail with
    | none => Lexer.refuse
    | some front => Lexer.emit .escapedText ('\x60' :: front) : Lexer Unit).run.run state = _
  cases escapedFront state.cursor.rest.tail <;> rfl

theorem escapedText (found : state.cursor.head = some '\x60') :
    Agrees Parser.escapedText Lexer.escapedText state fun text _ after =>
      state.Says [text.mark] after := by
  intro tidy
  have one := Cursor.take_one_of_head found
  have inside : (state.cursor.behind ['\x60']).rest = state.cursor.rest.tail :=
    Cursor.behind_rest (Cursor.rest_of_head found)
  have ends := escapedFront_scanEscaped state.cursor.position.col 0 state.cursor.rest.tail
  have scanned := run_escapedText state.cursor
  dsimp only at scanned
  rw [one, inside] at scanned
  have cut := run_lexer_escapedText state
  rw [scanned]
  cases ending : (scanEscaped state.cursor.position.col 0 state.cursor.rest.tail).ending with
  | closed =>
    rw [ending] at ends
    rw [ends] at cut
    refine ⟨(), _, cut, ?_, tidy.cut (by decide) _ _, .cut _ _ _ _⟩
    exact Cursor.behind_append ['\x60'] _ _
  | unclosed =>
    rw [ending] at ends
    rw [ends] at cut
    refine .inr ⟨_, state, cut, Nat.le_trans tidy.behind ?_⟩
    show state.cursor.position.offset ≤ ((state.cursor.position.past ['\x60']).past _).offset
    rw [Position.past_offset, Position.past_offset]
    omega
  | unpadded => exact .inl (.inl rfl)

/-! ### Classes and type paths -/

theorem classRef : Agrees Parser.classRef Lexer.classRef state fun used _ after =>
    state.Says used.marks after := by
  unfold Parser.classRef Lexer.classRef
  refine position_bind ((advance (by decide)).bind fun _ _ _ dot => ?_)
  exact (name (by decide)).map fun _ _ _ word => dot.trans word

theorem classes : Agrees Parser.classes Lexer.classes state fun uses _ after =>
    state.Says (uses.flatMap ClassRef.marks) after := by
  refine many ClassRef.marks fun state => ?_
  apply head_bind
  split
  · refine classRef.bind fun used _ _ said => skip.bind fun _ _ _ skipped => pure ⟨rfl, ?_⟩
    exact said.quiet skipped.2
  · exact pure ⟨rfl, .refl state⟩

theorem childSteps : Agrees Parser.childSteps Lexer.childSteps state fun steps _ after =>
    state.Says (steps.flatMap ChildStep.marks) after := by
  refine many ChildStep.marks fun state => ?_
  apply head_bind
  split
  · refine position_bind ((advance (by decide)).bind fun _ _ _ slash => ?_)
    exact (name (by decide)).bind fun word _ _ said => pure ⟨rfl, slash.trans said⟩
  · exact pure ⟨rfl, .refl state⟩

/-- A round of type paths behind what separates them. -/
theorem typePath : Agrees Parser.typePath Lexer.typePath state (Goes TypePath.marks state) := by
  refine skip.bind fun _ _ _ skipped => ?_
  apply head_bind
  split
  · refine childSteps.bind fun steps _ _ said => pure ⟨rfl, ?_⟩
    exact skipped.2.trans said
  · split
    · refine (name (by decide)).bind fun root _ _ word => childSteps.bind fun steps _ _ said => ?_
      exact pure ⟨rfl, skipped.2.trans (word.trans said)⟩
    · exact pure ⟨rfl, skipped.2⟩

theorem typePaths : Agrees Parser.typePaths Lexer.typePaths state fun paths _ after =>
    state.Says (paths.flatMap TypePath.marks) after :=
  many TypePath.marks fun _ => typePath

/-! ### Values -/

/-- Both sides want the same word behind the bracket, and the parser blames any other where it
starts. -/
theorem boundValue : Agrees Parser.boundValue Lexer.boundValue state fun value _ after =>
    state.Says value.marks after := by
  unfold Parser.boundValue Lexer.boundValue
  refine position_bind ((advance (by decide)).bind fun _ _ _ opened => ?_)
  refine skip.bind fun _ _ there skipped => head_parser_bind (rest_bind ?_)
  have empty := there.cursor.takeWhile_isEmpty isNameChar
  dsimp only
  by_cases found : there.cursor.head.any isNameChar = true
  · rw [found] at empty
    rw [if_neg (by simp [found])]
    by_cases spelt : String.ofList (there.cursor.rest.takeWhile isNameChar) =
        Keyword.value.spelling
    · rw [if_neg (by simpa using spelt)]
      refine (name_emit (by decide) found).bind fun word _ _ cut => ?_
      rw [if_neg (by simp [cut.1, spelt])]
      refine skip.bind fun _ _ _ skipped' => (name (by decide)).bind fun bound _ _ said => ?_
      refine skip.bind fun _ _ _ skipped'' => (expect (by decide)).map fun _ _ _ closed => ?_
      exact ((((opened.trans skipped.2).trans cut.2).trans skipped'.2).trans said).trans
        (skipped''.2.trans closed)
    · rw [if_pos spelt]
      refine name_refuse found fun word c same => ?_
      rw [if_pos (by simpa [same] using spelt)]
      exact ⟨_, rfl, rfl⟩
  · rw [if_pos (by simpa using found)]
    have none : there.cursor.rest.takeWhile isNameChar = [] := by
      simpa [found] using empty
    rw [none, if_pos (by decide)]
    exact refuse_bind

theorem value : Agrees Parser.value Lexer.value state fun value _ after =>
    state.Says value.marks after := by
  unfold Parser.value Lexer.value
  apply head_bind
  split
  · exact boundValue
  · split
    · next found => exact (escapedText found).map fun _ _ _ said => said
    · split
      · refine rest_bind ((word (by decide)).map fun literal _ _ said => ?_)
        exact said.2
      · exact refuse

/-! ### Property blocks -/

/-- A cursor where a property block neither ends nor goes on. -/
structure Stuck (c : Cursor) : Prop where
  noTrivia : trivia? c.rest = none
  notBrace : c.head ≠ some '\x7d'
  notMark : c.head ≠ some '!'
  noName : c.head.any isNameChar = false

/-- Whichever round is the next, the lexer stops where it is stuck. -/
theorem rounds_of_stuck (tidy : state.Tidy) (stuck : Stuck state.cursor) (left : Nat) :
    (Lexer.rounds Lexer.setting left).GivesUp state state.cursor.position.offset := by
  cases left with
  | zero => exact ⟨.exhausted, state, rfl, tidy.behind⟩
  | succ left =>
    have skipped : Lexer.skip.run.run state = (.ok (), state) := by
      refine (Lexer.run_bind _ _ _).trans ?_
      show (List.forM (leadingTrivia state.cursor.rest) _ : Lexer Unit).run.run state = _
      rw [leadingTrivia_of_trivia?_eq_none stuck.noTrivia]
      rfl
    have refused : Lexer.setting.run.run state = (.error .unreadable, state) := by
      unfold Lexer.setting
      rw [Lexer.run_bind, skipped]
      dsimp only
      rw [Lexer.run_head_bind]
      split
      · next found => exact absurd found stuck.notBrace
      · next found => exact absurd found stuck.notMark
      · rw [stuck.noName]
        rfl
    refine ⟨.unreadable, state, ?_, tidy.behind⟩
    exact (Lexer.run_bind Lexer.setting _ state).trans (by rw [refused])

theorem negatedSetting : Agrees Parser.negatedSetting (do
    Lexer.single .propertyNegate
    Lexer.name .propertyName) state fun setting _ after => state.Says setting.marks after := by
  unfold Parser.negatedSetting
  refine position_bind ((advance (by decide)).bind fun _ _ there mark => head_parser_bind ?_)
  by_cases found : there.cursor.head.any isNameChar = true
  · rw [if_neg (by simp [found])]
    exact (name (by decide)).map fun _ _ _ word => mark.trans word
  · rw [if_pos (by simpa using found)]
    refine rest_bind ?_
    have empty := there.cursor.takeWhile_isEmpty isNameChar
    dsimp only
    rw [if_pos (by simpa [found] using empty)]
    exact refuse_bind

/-- A setting that starts with its name. The parser looks at what follows it, the lexer only does so
in its next round, which is part of `rest`. -/
theorem namedSetting {next : Setting → Parser α} {rest : Lexer β}
    (stuck : ∀ after : Lexer.State, after.Tidy → Stuck after.cursor →
      rest.GivesUp after after.cursor.position.offset)
    (later : ∀ setting after, state.Says setting.marks after →
      Agrees (next setting) rest after holds) :
    Agrees (Parser.namedSetting >>= next) (do
      Lexer.name .propertyName
      Lexer.skip
      Lexer.assignment
      rest) state holds := by
  unfold Parser.namedSetting Lexer.assignment
  simp only [bind_assoc]
  refine (name (by decide)).bind fun set _ middle said => ?_
  refine skip.bind fun _ _ there skipped => head_bind ?_
  have named := said.trans skipped.2
  by_cases equals : there.cursor.head = some '='
  · rw [if_pos equals, if_pos equals]
    simp only [bind_assoc, pure_bind]
    refine (advance (by decide)).bind fun _ _ _ sign => skip.bind fun _ _ _ skipped' => ?_
    refine value.bind fun given _ after said' => later (.pair set given) after ?_
    exact named.trans ((sign.trans skipped'.2).trans said')
  · rw [if_neg equals, if_neg equals]
    by_cases goesOn : (there.cursor.head = some '\x7d' || there.cursor.head = some '!' ||
        there.cursor.head.any isNameChar) = true
    · rw [if_pos goesOn]
      exact later (.flag set) there named
    · rw [if_neg goesOn]
      simp only [Bool.or_eq_true, decide_eq_true_eq, not_or] at goesOn
      have noTrivia : trivia? there.cursor.rest = none := by
        rw [skipped.1]
        exact trivia?_drop_triviaText middle.cursor.rest
      refine of_failed rfl fun tidy => stuck there tidy ?_
      exact ⟨noTrivia, goesOn.1.1, goesOn.1.2, by simpa using goesOn.2⟩

/-- A round of settings, with what comes after it. -/
theorem setting {next : Round Setting → Parser α} {next' : Bool → Lexer β}
    (stuck : ∀ after : Lexer.State, after.Tidy → Stuck after.cursor →
      (next' true).GivesUp after after.cursor.position.offset)
    (later : ∀ round going after, Goes Setting.marks state round going after →
      Agrees (next round) (next' going) after holds) :
    Agrees (Parser.setting start >>= next) (Lexer.setting >>= next') state holds := by
  unfold Parser.setting Lexer.setting
  simp only [bind_assoc]
  refine skip.bind fun _ _ there skipped => head_bind ?_
  split
  · next found =>
    rw [found]
    exact refuse_bind
  · next found =>
    rw [found]
    exact later .stop false there ⟨rfl, skipped.2⟩
  · next found =>
    rw [found]
    have negated := negatedSetting.bind fun setting _ after said =>
      later (.item setting) true after ⟨rfl, skipped.2.trans said⟩
    simpa only [bind_assoc, pure_bind] using negated
  · next c notBrace notMark found =>
    by_cases name : isNameChar c = true
    · rw [if_pos name]
      split
      · next brace => exact (notBrace (by simpa [found] using brace)).elim
      · next mark => exact (notMark (by simpa [found] using mark)).elim
      · rw [if_pos (by simpa [found] using name)]
        simp only [bind_assoc, pure_bind]
        exact namedSetting stuck fun setting after said =>
          later (.item setting) true after ⟨rfl, skipped.2.trans said⟩
    · rw [if_neg name]
      split
      · next brace => exact (notBrace (by simpa [found] using brace)).elim
      · next mark => exact (notMark (by simpa [found] using mark)).elim
      · rw [if_neg (by simpa [found] using name)]
        exact refuse_bind

theorem settings : Agrees (Parser.settings start) Lexer.settings state fun settings _ after =>
    state.Says (settings.flatMap Setting.marks) after := by
  refine rest_bind (rounds_together (fun _ _ later => ?_) (Nat.le_refl _))
  exact setting (fun _ tidy stuck => rounds_of_stuck tidy stuck _) later

theorem propertyBlock : Agrees Parser.propertyBlock Lexer.propertyBlock state fun block _ after =>
    state.Says (marksOf block.parts) after := by
  unfold Parser.propertyBlock Lexer.propertyBlock Lexer.assignment
  simp only [bind_assoc]
  refine position_bind ((advance (by decide)).bind fun _ _ _ opened => ?_)
  refine skip.bind fun _ _ there skipped => head_bind ?_
  -- The rest of the block, whatever its main value is.
  have rest (main : Option Value) (before : Lexer.State)
      (said : state.Says (.place .propertiesOpen state.cursor.position.offset ::
        main.toList.flatMap Value.marks) before) :
      Agrees (do
        let read ← Parser.settings state.cursor.position
        Parser.advance
        return (⟨state.cursor.position, main, read⟩ : PropertyBlock)) (do
        Lexer.settings
        Lexer.single .propertiesClose) before fun block _ after =>
          state.Says (marksOf block.parts) after := by
    refine settings.bind fun read _ _ said' => (advance (by decide)).map fun _ _ after closed => ?_
    rw [PropertyBlock.parts, marksOf_append, marksOf_cons, marksOf_map, marksOf_map]
    exact (said.trans said').quiet closed
  by_cases equals : there.cursor.head = some '='
  · rw [if_pos equals, if_pos equals]
    simp only [bind_assoc, map_eq_pure_bind, pure_bind]
    refine (advance (by decide)).bind fun _ _ _ sign => skip.bind fun _ _ _ skipped' => ?_
    refine value.bind fun given _ before said => rest (some given) before ?_
    rw [Option.toList_some, List.flatMap_singleton]
    exact (opened.trans skipped.2).trans ((sign.trans skipped'.2).trans said)
  · rw [if_neg equals, if_neg equals, pure_bind]
    exact rest none there (opened.trans skipped.2)

/-- Classes and the property block that may follow. -/
theorem classesAndProperties {next : List ClassRef → Option PropertyBlock → Parser α}
    {next' : Lexer β}
    (later : ∀ uses block after,
      state.Says (marksOf (uses.map Part.classRef ++ blockParts block)) after →
      Agrees (next uses block) next' after holds) :
    Agrees (do
      let uses ← Parser.classes
      let block ← Parser.properties
      next uses block) (do
      Lexer.classesAndProperties
      next') state holds := by
  unfold Parser.properties Lexer.classesAndProperties
  simp only [bind_assoc]
  refine classes.bind fun uses _ there said => head_bind ?_
  by_cases brace : there.cursor.head = some '\x7b'
  · rw [if_pos brace, if_pos brace]
    simp only [bind_assoc, pure_bind]
    refine propertyBlock.bind fun block _ _ said' => skip.bind fun _ _ after skipped => ?_
    refine later uses (some block) after ?_
    rw [marksOf_append, marksOf_map, blockParts_some]
    exact said.trans (said'.quiet skipped.2)
  · rw [if_neg brace, if_neg brace, pure_bind]
    refine later uses none there ?_
    rw [marksOf_append, marksOf_map]
    exact said.trans (.refl there)

end Agrees

end TypedMarkup
