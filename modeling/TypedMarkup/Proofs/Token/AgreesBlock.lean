/-
**Blocks and nodes in step.** What `Agrees` says of the parsers and lexers whose constructs nest,
and of those of a whole source.

* Preambles, text nodes and lines are repetitions of their own; only a line and a text node take
  another number of rounds on both sides.
* `agree_ofDepth` ties the knot, once for every level of nesting.
-/

import TypedMarkup.Proofs.Token.AgreesText

namespace TypedMarkup

namespace Parser

/-- Skipping twice is skipping once. -/
theorem skip_bind_skip : (skip >>= fun _ => skip) = skip := by
  funext c
  show Except.ok ((), (c.behind (triviaText c.rest)).behind
    (triviaText (c.behind (triviaText c.rest)).rest)) = .ok ((), c.behind (triviaText c.rest))
  have missing : trivia? (c.behind (triviaText c.rest)).rest = none :=
    trivia?_drop_triviaText c.rest
  have none : triviaText (c.behind (triviaText c.rest)).rest = [] := by
    rw [triviaText, leadingTrivia_of_trivia?_eq_none missing]
    rfl
  rw [none, Cursor.behind_nil]

/-- Skipping before rounds of type paths, which skip themselves. -/
theorem skip_bind_rounds_typePath (left : Nat) :
    (skip >>= fun _ => rounds typePath (left + 1)) = rounds typePath (left + 1) := by
  rw [rounds]
  unfold typePath
  rw [bind_assoc, ← bind_assoc skip (fun _ => skip), skip_bind_skip]

end Parser

namespace Agrees

open TypedMarkup.Parser (Round)

variable {α β : Type} {state : Lexer.State} {bound : Nat} {nested : Parser.Nested}
  {nested' : Lexer.Nested} {holds : α → β → Lexer.State → Prop} {start : Position}

/-! ### Declarations -/

/-- What a declaration declares. That it declares something only the parser checks. -/
theorem declaredProperties {uses : List ClassRef} {parsing : Construct}
    (own : parsing = .classDeclaration ∨ parsing = .defaultDeclaration) :
    Agrees (Parser.declaredProperties uses parsing) (do
      if (← Lexer.head) = some '\x7b' then
        Lexer.propertyBlock) state fun block _ after =>
          state.Says (marksOf (blockParts block)) after := by
  unfold Parser.declaredProperties
  apply head_bind
  split
  · refine propertyBlock.map fun block _ after said => ?_
    rwa [blockParts_some]
  · split
    · intro _
      refine .inl (.inr ?_)
      rcases own with rfl | rfl
      · exact .inl rfl
      · exact .inr rfl
    · exact pure (.refl state)

/-- A declaration behind the paths of its types. -/
theorem defaultDeclaration : Agrees Parser.defaultDeclaration Lexer.declaration state
    fun directive _ after => state.Says (marksOf directive.parts) after := by
  unfold Parser.defaultDeclaration Lexer.declaration
  refine typePaths.bind fun targets _ _ said => classes.bind fun uses _ _ said' => ?_
  refine (declaredProperties (.inr rfl)).map fun block _ _ said'' => ?_
  rw [Directive.parts, declarationParts, marksOf_append, marksOf_append, marksOf_map, marksOf_map]
  exact (said.trans said').trans said''

/-- White space before the paths, which the lexer skips as part of the first round. -/
theorem skip_typePaths : Agrees (do
    Parser.skip
    Parser.typePaths) Lexer.typePaths state fun paths _ after =>
      state.Says (paths.flatMap TypePath.marks) after := by
  let fewer := (state.cursor.behind (triviaText state.cursor.rest)).rest.length
  have run : (do
      Parser.skip
      Parser.typePaths) state.cursor =
        Parser.rounds Parser.typePath (fewer + 1) state.cursor := by
    rw [← Parser.skip_bind_rounds_typePath]
    rfl
  have enough : fewer + 1 ≤ state.cursor.rest.length + 1 :=
    Nat.succ_le_succ (Cursor.reaches_behind (triviaText_stands state.cursor.rest)).length_le
  refine catch_up (rest_bind ?_) run rfl id
  exact rounds_together (fun _ _ later => typePath.bind later) enough

theorem classDeclaration : Agrees Parser.classDeclaration (do
    if (← Lexer.head) ≠ some '.' then
      Lexer.refuse
    Lexer.classRef
    Lexer.declaration) state fun directive _ after =>
      state.Says (marksOf directive.parts) after := by
  unfold Parser.classDeclaration Lexer.declaration
  apply head_bind
  split
  · exact refuse_bind
  · refine classRef.bind fun declared _ _ said => ?_
    rw [← bind_assoc]
    refine skip_typePaths.bind fun targets _ _ said' => classes.bind fun uses _ _ said'' => ?_
    refine (declaredProperties (.inl rfl)).map fun block _ _ said₃ => ?_
    rw [Directive.parts, declarationParts, marksOf_cons, marksOf_append, marksOf_append,
      marksOf_map, marksOf_map]
    exact said.trans ((said'.trans said'').trans said₃)

theorem valueBinding : Agrees Parser.valueBinding (do
    Lexer.name .bindingName
    Lexer.skip
    Lexer.value) state fun directive _ after => state.Says (marksOf directive.parts) after := by
  unfold Parser.valueBinding
  refine (name (by decide)).bind fun bound _ _ said => skip.bind fun _ _ _ skipped => ?_
  refine value.map fun given _ _ said' => ?_
  rw [Directive.parts, marksOf_cons, marksOf_cons, marksOf_nil, List.append_nil]
  exact (said.quiet skipped.2).trans said'

/-! ### Brackets -/

/-- An opening bracket also counts the nesting. -/
theorem openNode : Agrees Parser.advance Lexer.openNode state fun _ _ after =>
    state.Says [] after := by
  have run : Lexer.openNode.run.run state = (.ok (),
      ({ state with depth := state.depth + 1 } : Lexer.State).cut .nodeOpen
        (some (state.depth + 1)) (state.cursor.rest.take 1)) := rfl
  refine of_run (by rfl) run rfl (fun tidy => ?_) (.cut _ _ _ _)
  have deeper : ({ state with depth := state.depth + 1 } : Lexer.State).Tidy :=
    ⟨tidy.read, tidy.behind⟩
  exact deeper.cut (by decide) _ _

theorem closeNode {parsing : Option Construct} {start : Option Position} :
    Agrees (Parser.expect ']' parsing start) Lexer.closeNode state fun _ _ after =>
      state.Says [] after := by
  unfold Parser.expect Lexer.closeNode
  apply head_bind
  split
  · let cut := state.cut .nodeClose (some state.depth) (state.cursor.rest.take 1)
    have run : (do
        let depth := (← get).depth
        Lexer.emitAt .nodeClose (some depth) ((← Lexer.rest).take 1)
        modify fun state => { state with depth := depth - 1 } : Lexer Unit).run.run state =
          (.ok (), { cut with depth := state.depth - 1 }) := rfl
    have parsed : Parser.advance state.cursor = .ok ((), cut.cursor) := rfl
    refine of_run parsed run rfl (fun tidy => ?_) ?_
    · have tidyCut : cut.Tidy := tidy.cut (by decide) _ _
      exact ⟨tidyCut.read, tidyCut.behind⟩
    · exact Lexer.State.Says.cut state .nodeClose (some state.depth) _
  · exact refuse

/-! ### Preambles -/

theorem contentBinding (agree : Nested.Agree nested nested') :
    Agrees (Parser.contentBinding nested) (Lexer.contentBinding nested') state
      fun directive _ after => state.Says (marksOf directive.parts) after := by
  unfold Parser.contentBinding Lexer.contentBinding
  refine (name (by decide)).bind fun bound _ _ said => skip.bind fun _ _ there skipped => ?_
  -- The lexer looks at the bracket and cuts it in two steps.
  rw [Parser.expect, bind_assoc]
  apply head_bind
  dsimp only
  by_cases bracket : there.cursor.head = some '['
  · rw [if_pos bracket, if_neg (not_not_intro bracket)]
    refine openNode.bind fun _ _ _ opened => position_bind ?_
    refine skip.bind fun _ _ _ skipped' => agree.content.bind fun body _ _ said' => ?_
    refine closeNode.map fun _ _ _ closed => ?_
    rw [Directive.parts, marksOf_cons]
    exact ((said.quiet skipped.2).quiet (opened.trans skipped'.2)).trans (said'.quiet closed)
  · rw [if_neg bracket, if_pos bracket]
    exact refuse_bind

/-- What a preamble element does, by its keyword. The parser blames another word where it starts,
and the lexer has not cut it. -/
theorem directive (agree : Nested.Agree nested nested') :
    Agrees (Parser.directive nested) (Lexer.directive nested') state
      fun directive _ after => state.Says (marksOf directive.parts) after := by
  unfold Parser.directive Lexer.directive
  refine rest_bind (head_parser_bind ?_)
  dsimp only
  by_cases found : state.cursor.head.any isNameChar = true
  · rw [if_neg (by simp [found])]
    cases spelt : Keyword.ofSpelling? (String.ofList (state.cursor.rest.takeWhile isNameChar)) with
    | none =>
      refine name_refuse found fun word c same => ?_
      rw [same, spelt]
      exact ⟨_, rfl, rfl⟩
    | some keyword =>
      have cut {next : Word → Parser Directive} {next' : Lexer Unit}
          (rest : ∀ word after, Keyword.ofSpelling? word.content = some keyword →
            Agrees (next word) next' after
              fun directive _ last => after.Says (marksOf directive.parts) last) :
          Agrees (do
            let word ← Parser.name
            Parser.skip
            next word) (do
            Lexer.emit .keyword (state.cursor.rest.takeWhile isNameChar)
            Lexer.skip
            next') state fun directive _ after => state.Says (marksOf directive.parts) after := by
        refine (name_emit (by decide) found).bind fun word _ _ read => ?_
        refine skip.bind fun _ _ there skipped => ?_
        have silent := Lexer.State.Says.trans read.2 skipped.2
        exact (rest word there (read.1 ▸ spelt)).mono fun _ _ _ said => silent.trans said
      cases keyword with
      | classes =>
        refine cut fun word after same => ?_
        rw [same]
        exact classDeclaration
      | content =>
        refine cut fun word after same => ?_
        rw [same]
        exact contentBinding agree
      | defaults =>
        refine cut fun word after same => ?_
        rw [same]
        exact defaultDeclaration
      | value =>
        refine cut fun word after same => ?_
        rw [same]
        exact valueBinding
      | text | read | inclusion =>
        refine name_refuse found fun word c same => ?_
        rw [same, spelt]
        exact ⟨_, rfl, rfl⟩
  · rw [if_pos (by simpa using found)]
    have empty := state.cursor.takeWhile_isEmpty isNameChar
    have none : state.cursor.rest.takeWhile isNameChar = [] := by simpa [found] using empty
    rw [none]
    exact refuse_bind

theorem fallbackMark {next : Option Position → Parser α} {next' : Lexer β}
    (rest : ∀ mark after, state.Says (marksOf (mark.toList.map Part.fallback)) after →
      Agrees (next mark) next' after holds) :
    Agrees (Parser.fallbackMark >>= next) (do
      if (← Lexer.head) = some '?' then
        Lexer.single .preambleFallback
        Lexer.skip
      next') state holds := by
  unfold Parser.fallbackMark
  rw [bind_assoc]
  apply head_bind
  dsimp only
  by_cases mark : state.cursor.head = some '?'
  · rw [if_pos mark, if_pos mark, bind_assoc]
    refine position_bind ?_
    simp only [bind_assoc, pure_bind]
    refine (advance (by decide)).bind fun _ _ _ said => skip.bind fun _ _ after skipped => ?_
    exact rest (some state.cursor.position) after (Lexer.State.Says.trans said skipped.2)
  · rw [if_neg mark, if_neg mark]
    exact rest none state (.refl state)

theorem preambleElement (agree : Nested.Agree nested nested') :
    Agrees (Parser.preambleElement nested) (Lexer.preambleElement nested') state
      fun element _ after => state.Says (marksOf element.parts) after := by
  unfold Parser.preambleElement Lexer.preambleElement
  refine position_bind ((advance (by decide)).bind fun _ _ _ opened => ?_)
  refine skip.bind fun _ _ _ skipped => fallbackMark fun mark _ marked => ?_
  refine (directive agree).bind fun read _ _ said => skip.bind fun _ _ _ skipped' => ?_
  refine (expect (by decide)).map fun _ _ _ closed => ?_
  rw [PreambleElement.parts, marksOf_append, marksOf_cons]
  exact ((opened.trans skipped.2).trans marked).trans (said.quiet (skipped'.2.trans closed))

theorem preamble (agree : Nested.Agree nested nested') :
    Agrees (Parser.preamble nested) (Lexer.preamble nested') state
      fun elements _ after => state.Says (marksOf (preambleParts elements)) after := by
  refine (many (fun element => marksOf (PreambleElement.parts element))
    fun state => ?_).mono ?_
  · apply head_bind
    split
    · refine (preambleElement agree).bind fun element _ _ said => ?_
      refine skip.bind fun _ _ _ skipped => pure ⟨rfl, ?_⟩
      exact said.quiet skipped.2
    · exact pure ⟨rfl, .refl state⟩
  · intro elements _ after said
    rwa [preambleParts_eq, marksOf_flatMap]

/-! ### Lines -/

section Lines

/-- What the lexer does in a line, by the character at the cursor. -/
theorem run_lineElement (nested' : Lexer.Nested) (state : Lexer.State) :
    (Lexer.lineElement nested').run.run state =
      (match state.cursor.head with
        | none | some '\r' | some '\n' | some ']' => return false
        | some '[' => do
          nested'.node
          return true
        | some '\x60' => do
          Lexer.escapedText
          return true
        | some _ => do
          Lexer.textOrIgnored nested'
          return true : Lexer Bool).run.run state :=
  Lexer.run_bind Lexer.head _ state

theorem run_textElement (nested' : Lexer.Nested) (state : Lexer.State) :
    (Lexer.textElement nested').run.run state =
      (match state.cursor.head with
        | none | some '\r' | some '\n' | some ']' => return false
        | some '\x60' => do
          Lexer.escapedText
          return true
        | some _ => do
          Lexer.textOrIgnored nested'
          return true : Lexer Bool).run.run state :=
  Lexer.run_bind Lexer.head _ state

theorem cutsText_lineElement : Lexer.CutsText nested' (Lexer.lineElement nested') := by
  intro state x found plain
  rw [run_lineElement, found]
  split
  all_goals simp_all [Parser.endsText]

theorem cutsText_textElement : Lexer.CutsText nested' (Lexer.textElement nested') := by
  intro state x found plain
  rw [run_textElement, found]
  split
  all_goals simp_all [Parser.endsText]

variable (agree : Nested.Agree nested nested') (sound : nested.Sound bound)

include agree sound

/-- A line, whose elements the lexer cuts in rounds of its own. -/
theorem line : Agrees (Parser.line nested) (Lexer.line nested') state
    fun elements _ after => state.Says (marksOf (lineParts elements)) after := by
  refine (rest_bind (rounds (fun element => marksOf (LineElement.parts element))
    (fun _ left' state => state.cursor.rest.length < left') ?_ (Nat.lt_succ_self _))).mono ?_
  · intro state left left' next holds enough stop pass item
    obtain ⟨left', rfl⟩ : ∃ more, left' = more + 1 := ⟨left' - 1, by omega⟩
    have looked := run_lineElement nested' state
    unfold Parser.lineElement
    rw [bind_assoc]
    apply head_parser_bind
    split
    · next found =>
      rw [found] at looked
      exact last_round looked (stop state (.refl state))
    · next found =>
      rw [found] at looked
      exact last_round looked (stop state (.refl state))
    · next found =>
      rw [found] at looked
      exact last_round looked (stop state (.refl state))
    · next found =>
      rw [found] at looked
      exact last_round looked (stop state (.refl state))
    · next found =>
      rw [found] at looked
      rw [bind_assoc]
      refine first_round looked ((agree.node found).reads (sound.node found)) ?_
      exact fun node _ after result => item (.node node) after left' (by omega) result.1
    · next found =>
      rw [found] at looked
      refine escaped_round enough found looked fun text after left'' enough' said => ?_
      exact item (.escaped text) after left'' enough' said
    · next x notReturn notFeed notClose notOpen notQuote found =>
      have plain : Parser.endsText x = false :=
        Parser.endsText_eq_false_iff.2 ⟨notReturn, notFeed, notQuote, notOpen, notClose⟩
      refine text_round agree sound cutsText_lineElement enough found
        (cutsText_lineElement found plain) pass ?_
      intro run after left'' enough' said
      refine item (.plain run) after left'' enough' ?_
      rwa [LineElement.parts, marksOf_cons, marksOf_nil, List.append_nil]
  · intro elements _ after said
    rwa [lineParts_eq, marksOf_flatMap]

/-- The elements of a text node, which the lexer cuts in rounds of its own. There an opening bracket
is text. -/
theorem textElements : Agrees (Parser.textElements nested) (Lexer.textElements nested') state
    fun elements _ after => state.Says (marksOf (elements.map TextElement.part)) after := by
  refine (rest_bind (rounds (fun element => (TextElement.part element).marks)
    (fun _ left' state => state.cursor.rest.length < left') ?_ (Nat.lt_succ_self _))).mono ?_
  · intro state left left' next holds enough stop pass item
    obtain ⟨left', rfl⟩ : ∃ more, left' = more + 1 := ⟨left' - 1, by omega⟩
    have looked := run_textElement nested' state
    unfold Parser.textElement
    rw [bind_assoc]
    apply head_parser_bind
    split
    · next found =>
      rw [found] at looked
      exact last_round looked (stop state (.refl state))
    · next found =>
      rw [found] at looked
      exact last_round looked (stop state (.refl state))
    · next found =>
      rw [found] at looked
      exact last_round looked (stop state (.refl state))
    · next found =>
      rw [found] at looked
      exact last_round looked (stop state (.refl state))
    · next found =>
      rw [found] at looked
      refine escaped_round enough found looked fun text after left'' enough' said => ?_
      exact item (.escaped text) after left'' enough' said
    · next x notReturn notFeed notClose notQuote found =>
      have here : (Lexer.textElement nested').run.run state = (do
          Lexer.textOrIgnored nested'
          return true : Lexer Bool).run.run state := by
        rw [looked, found]
        split
        all_goals simp_all
      refine text_round agree sound cutsText_textElement enough found here pass ?_
      exact fun run after left'' enough' said => item (.plain run) after left'' enough' said
  · intro elements _ after said
    rwa [marksOf_map]

theorem lines : Agrees (Parser.lines nested) (Lexer.lines nested') state
    fun read _ after => state.Says (marksOf (linesParts read)) after := by
  refine (many (fun elements => marksOf (lineParts elements)) fun state => ?_).mono ?_
  · refine skip.bind fun _ _ there skipped => head_bind ?_
    by_cases close : there.cursor.head = some ']'
    · rw [close]
      exact pure ⟨rfl, skipped.2⟩
    · cases found : there.cursor.head with
      | none => exact pure ⟨rfl, skipped.2⟩
      | some x =>
        have other : x = ']' → False := fun same => close (same ▸ found)
        -- `other` excludes the case before, on both sides.
        simp only
        refine (line agree sound).bind fun elements _ _ said => pure ⟨rfl, ?_⟩
        exact skipped.2.trans said
  · intro read _ after said
    rwa [linesParts_eq, marksOf_flatMap]

theorem content : Agrees (Parser.content nested) (Lexer.content nested') state
    fun content _ after => state.Says (marksOf content.parts) after := by
  unfold Parser.content Lexer.content
  refine (preamble agree).bind fun elements _ _ said => (lines agree sound).map fun read _ _ said' => ?_
  rw [Content.parts, marksOf_append]
  exact said.trans said'

/-! ### Nodes -/

theorem textNode {keyword : Option Word} :
    Agrees (Parser.textNode nested start keyword) (Lexer.textNode nested') state
      fun node _ after => state.Says (marksOf node.parts) after := by
  unfold Parser.textNode Lexer.textNode
  refine classesAndProperties fun uses block _ said => ?_
  refine (textElements agree sound).map fun elements _ _ said' => ?_
  have silent : marksOf (keyword.toList.map Part.keyword) = [] := by
    cases keyword <;> rfl
  rw [Node.parts]
  simp only [marksOf_append, marksOf_cons, silent] at said ⊢
  exact said.trans said'

/-- A node of a declared type, at the steps of its path; the root of the path, if it has one, has
been cut before. -/
theorem typedNode {path : List ChildStep → TypePath} {before : Lexer.State} {root : List Mark}
    (starts : ∀ steps, (path steps).marks = root ++ steps.flatMap ChildStep.marks)
    (cut : before.Says root state) :
    Agrees (do
      let steps ← Parser.childSteps
      Parser.skip
      Parser.typedNode nested start (path steps)) (Lexer.typedNode nested') state
      fun node _ after => before.Says (marksOf node.parts) after := by
  unfold Parser.typedNode Lexer.typedNode
  refine childSteps.bind fun steps _ _ said => skip.bind fun _ _ _ skipped => ?_
  refine classesAndProperties fun uses block _ said' => ?_
  refine (content agree sound).map fun body _ _ said'' => ?_
  have route : before.Says (path steps).marks _ := starts steps ▸ cut.trans (said.quiet skipped.2)
  rw [Node.parts]
  simp only [marksOf_append, marksOf_cons, List.append_assoc] at said' ⊢
  exact route.trans (List.append_assoc _ _ _ ▸ said'.trans said'')

/-- A node that starts with a name, by the keyword that it spells. -/
theorem namedNode (found : state.cursor.head.any isNameChar = true) :
    Agrees (do Parser.namedNode nested start (← Parser.name)) (Lexer.namedNode nested') state
      fun node _ after => state.Says (marksOf node.parts) after := by
  unfold Lexer.namedNode Parser.namedNode
  refine rest_bind ?_
  dsimp only
  cases spelt : Keyword.ofSpelling? (String.ofList (state.cursor.rest.takeWhile isNameChar)) with
  | none =>
    refine (name_emit (by decide) found).bind fun word _ _ read => ?_
    rw [read.1, spelt]
    exact typedNode agree sound (fun _ => rfl) read.2
  | some keyword =>
    cases keyword with
    | classes =>
      refine (name_emit (by decide) found).bind fun word _ _ read => ?_
      rw [read.1, spelt]
      exact typedNode agree sound (fun _ => rfl) read.2
    | defaults =>
      refine (name_emit (by decide) found).bind fun word _ _ read => ?_
      rw [read.1, spelt]
      exact typedNode agree sound (fun _ => rfl) read.2
    | text =>
      refine (name_emit (by decide) found).bind fun word _ _ read => ?_
      rw [read.1, spelt]
      refine skip.bind fun _ _ _ skipped => ?_
      exact (textNode agree sound).mono fun _ _ _ said => (read.2.trans skipped.2).trans said
    | read =>
      refine (name_emit (by decide) found).bind fun word _ _ read => ?_
      rw [read.1, spelt]
      refine skip.bind fun _ _ _ skipped => ?_
      rw [← bind_pure_unit (x := Lexer.classesAndProperties)]
      refine classesAndProperties fun uses block _ said => pure ?_
      rw [Node.parts]
      simp only [marksOf_append, marksOf_cons] at said ⊢
      exact (read.2.trans skipped.2).trans said
    | inclusion =>
      refine (name_emit (by decide) found).bind fun word _ _ read => ?_
      rw [read.1, spelt]
      refine skip.bind fun _ _ _ skipped => ?_
      refine classesAndProperties fun uses block _ said => ?_
      refine (preamble agree).map fun elements _ _ said' => ?_
      rw [Node.parts]
      simp only [marksOf_append, marksOf_cons] at said ⊢
      exact (read.2.trans skipped.2).trans (said.trans said')
    | content =>
      refine (name_emit (by decide) found).bind fun word _ _ read => ?_
      rw [read.1, spelt]
      refine skip.bind fun _ _ _ skipped => (name (by decide)).bind fun used _ _ said => ?_
      refine skip.bind fun _ _ _ skipped' => (preamble agree).map fun elements _ _ said' => ?_
      rw [Node.parts, marksOf_cons, marksOf_cons]
      exact (read.2.trans skipped.2).trans ((said.quiet skipped'.2).trans said')
    | value =>
      refine (name_emit (by decide) found).bind fun word _ _ read => ?_
      rw [read.1, spelt]
      refine skip.bind fun _ _ _ skipped => (name (by decide)).bind fun used _ _ said => ?_
      refine skip.map fun _ _ _ skipped' => ?_
      rw [Node.parts, marksOf_cons, marksOf_cons, marksOf_nil, List.append_nil]
      exact (read.2.trans skipped.2).trans (said.quiet skipped'.2)

theorem nodeBody : Agrees (Parser.nodeBody nested start) (Lexer.nodeBody nested') state
    fun node _ after => state.Says (marksOf node.parts) after := by
  unfold Parser.nodeBody Lexer.nodeBody
  apply head_bind
  by_cases preamble : state.cursor.head = some '<'
  · rw [preamble]
    exact (content agree sound).map fun _ _ _ said => by rwa [Node.parts, marksOf_cons]
  by_cases dot : state.cursor.head = some '.'
  · rw [dot]
    exact textNode agree sound
  by_cases brace : state.cursor.head = some '\x7b'
  · rw [brace]
    exact textNode agree sound
  by_cases step : state.cursor.head = some '\\'
  · rw [step]
    have starts (steps : List ChildStep) :
        (TypePath.relative steps).marks = [] ++ steps.flatMap ChildStep.marks := rfl
    exact typedNode agree sound starts (.refl state)
  -- What the head is not excludes the cases before, on both sides.
  simp only
  by_cases found : state.cursor.head.any isNameChar = true
  · simp only [if_pos found]
    exact namedNode agree sound found
  · simp only [if_neg found]
    exact refuse

theorem node : Agrees (Parser.node nested) (Lexer.node nested') state
    fun node _ after => state.Says (marksOf node.parts) after := by
  unfold Parser.node Lexer.node
  refine position_bind (openNode.bind fun _ _ _ opened => skip.bind fun _ _ _ skipped => ?_)
  refine (nodeBody agree sound).bind fun read _ _ said => closeNode.map fun _ _ _ closed => ?_
  exact (opened.trans skipped.2).trans (said.quiet closed)

end Lines

/-! ### Nesting -/

/-- The parsers and lexers of one level of nesting stay together. -/
theorem agree_ofDepth (depth : Nat) :
    Nested.Agree (Parser.Nested.ofDepth depth) (Lexer.Nested.ofDepth depth) := by
  induction depth with
  | zero => exact ⟨fun _ _ => trivial, fun _ => trivial⟩
  | succ depth ih =>
    have sound := Parser.sound_ofDepth depth
    exact ⟨fun _ => node ih sound, content ih sound⟩

/-- A whole source. -/
theorem file (agree : Nested.Agree nested nested') :
    Agrees (Parser.file nested) (Lexer.file nested') state
      fun content _ after => state.Says (marksOf content.parts) after := by
  unfold Parser.file Lexer.file
  refine skip.bind fun _ _ _ skipped => agree.content.bind fun read _ _ said => head_bind ?_
  dsimp only
  split
  · exact refuse_bind
  · exact pure (skipped.2.trans said)

end Agrees

end TypedMarkup
