/-
**Where parsers of blocks and nodes break off.** What `Parser.Breaks` says of the parsers whose
constructs nest.

* `Nested.Breaks` is what they take from the parsers for what is nested deeper, and `breaks_ofDepth`
  ties the knot. The languages go one level deeper than the parsers, so that there always is an empty
  block to finish with.
-/

import TypedMarkup.Proofs.Grammar.BreaksProperty

namespace TypedMarkup

namespace Parser

/-- The parsers of nested constructs break off where their languages can go on. What they read,
somewhat deeper ones read as well. -/
structure Nested.Breaks (nested : Parser.Nested) (nested' : Grammar.Nested) : Prop where
  reads : ∃ deeper : Parser.Nested, nested.Approximates deeper ∧ deeper.Spells nested'
  keeps : nested'.Keeps
  finishes : nested'.content.Finishes Grammar.Follow.block Grammar.Follow.block
  node : ∀ {c : Cursor}, c.head = some '[' →
    Parser.Breaks 1 nested.node c nested'.node Grammar.Follow.block
  content : ∀ {c : Cursor}, Parser.Breaks 0 nested.content c nested'.content Grammar.Follow.block

namespace Breaks

open Grammar (Follow.name Follow.setting Follow.element Follow.value Follow.parts Follow.block)
open TypedMarkup.Language (Finishes)

variable {α : Type} {c : Cursor} {start : Position} {nested : Parser.Nested}
  {nested' : Grammar.Nested} {follow : List (Option Char)}

/-! ### Declarations -/

theorem declaredProperties {uses : List ClassRef} {parsing : Construct} :
    Breaks 0 (declaredProperties uses parsing) c (Grammar.declaredProperties uses)
      Follow.element := by
  refine head_bind ?_
  split
  · next found => exact left (propertyBlock found (by decide)).map
  split
  · exact fail
  · exact pure _

/-- What a declaration names and how, behind what it declares. -/
theorem declaration_bind {next : List TypePath → List ClassRef → Option PropertyBlock → Directive}
    {parsing : Construct} : Breaks 0 (do
      let targets ← Parser.typePaths
      let uses ← Parser.classes
      return next targets uses (← Parser.declaredProperties uses parsing)) c (do
      let targets ← Grammar.typePaths
      let uses ← Grammar.classes
      return next targets uses (← Grammar.declaredProperties uses)) Follow.element := by
  have last (targets : List TypePath) (uses : List ClassRef) : Finishes Follow.parts (do
      return next targets uses (← Grammar.declaredProperties uses)) Follow.element :=
    Finishes.map ((Finishes.declaredProperties uses).mono (by decide) (List.Subset.refl _))
  refine bind Spells.typePaths.yields (.inr .typePaths) typePaths
    (fun targets => Finishes.classes.bind (last targets)) fun targets _ _ _ _ => ?_
  exact bind Spells.classes.yields (.inr .classes) classes (last targets) fun _ _ _ _ _ =>
    declaredProperties.map

theorem classDeclaration :
    Breaks 0 classDeclaration c Grammar.classDeclaration Follow.element := by
  refine head_bind ?_
  dsimp only
  split
  · exact fail_bind
  · next found =>
    have found := Decidable.not_not.1 found
    have clear : (LexemeKind.gap false).Ends Follow.parts := by decide
    refine bind (Spells.classRef found).yields (.inr ?_) (classRef found (by decide))
      (fun _ => (Finishes.gap clear).bind fun _ => .declaration) fun _ _ _ _ _ => ?_
    · exact .sign_name (by decide) (by decide)
    · exact skip_bind .declaration clear fun _ _ => declaration_bind

theorem defaultDeclaration :
    Breaks 0 defaultDeclaration c Grammar.defaultDeclaration Follow.element :=
  declaration_bind

theorem valueBinding : Breaks 0 valueBinding c Grammar.valueBinding Follow.element := by
  refine name_bind (fun _ => (Finishes.gap (by decide)).bind fun _ => Finishes.value.map)
    (by decide) fun _ _ => ?_
  refine skip_bind Finishes.value.map (by decide) fun _ _ => ?_
  exact (value.before (by decide)).map

/-! ### Preambles -/

theorem fallbackMark : Breaks 0 fallbackMark c Grammar.fallbackMark [some 'v'] := by
  refine head_bind ?_
  split
  · next found =>
    exact left (position_bind (advance_bind found (by decide) (Finishes.gap (by decide)).map
      (by decide) (of_ok rfl)))
  · exact pure _

/-! ### Looking for text -/

theorem of_atIgnoredNode {least : Nat} {next : Bool → Parser α} {language : Language α}
    (breaks : Breaks least (next (c.head = some '_' && c.second = some '[')) c language follow) :
    Breaks least (atIgnoredNode >>= next) c language follow :=
  breaks

section Nested

variable (breaks : nested.Breaks nested')

include breaks

theorem contentBinding :
    Breaks 0 (contentBinding nested) c (Grammar.contentBinding nested') Follow.element := by
  have close (bound : Word) (body : Content) : Finishes Follow.block (do
      let _ ← Language.sign ']'
      return Directive.content bound body) Follow.element :=
    Finishes.mono (Finishes.map (Finishes.sign (by decide))) (by decide) (List.Subset.refl _)
  have inside (bound : Word) : Finishes Follow.block (do
      Language.gap
      let body ← nested'.content
      let _ ← Language.sign ']'
      return Directive.content bound body) Follow.element :=
    (Finishes.gap (by decide)).bind fun _ => breaks.finishes.bind fun _ => close bound _
  have bracket : (LexemeKind.gap false).Ends [some '['] := by decide
  have opens (bound : Word) : Finishes [some '['] (do
      let _ ← Language.sign '['
      Language.gap
      let body ← nested'.content
      let _ ← Language.sign ']'
      return Directive.content bound body) Follow.element :=
    (Finishes.sign (by decide)).bind fun _ => inside bound
  refine name_bind (fun bound => (Finishes.gap_feed bracket).bind fun _ => opens bound) (by decide)
    fun bound _ => skip_bind (opens bound) bracket fun _ _ => ?_
  refine expect_bind (by decide) (fun _ => inside bound) (by decide) (position_bind ?_)
  refine skip_bind (breaks.finishes.bind fun _ => close bound _) (by decide) fun _ _ => ?_
  obtain ⟨deeper, approximates, spells⟩ := breaks.reads
  refine bind (approximates.content.yields spells.content) (.inr (breaks.keeps.content _))
    breaks.content (close bound) fun _ _ _ _ _ => ?_
  exact expect_bind (by decide) (fun _ => Finishes.pure _) (by decide) (pure _)

theorem directive : Breaks 0 (directive nested) c (Grammar.directive nested') Follow.element := by
  refine head_bind ?_
  dsimp only
  split
  · exact fail_bind
  · next some =>
    have feed : LexemeKind.name.Ends [Option.some '\n'] := by decide
    refine word_bind (by simpa using some) feed fun keyword there => ?_
    -- A word that is no keyword is blamed where it starts.
    have other : ∀ error, (do
        Parser.skip
        Parser.failAt keyword preambleKeywords none : Parser Directive) there =
          .error (.malformed error) → error.position = keyword.start := by
      intro error failed
      cases failed
      rfl
    have known {parser : Parser Directive} {language : Language Directive}
        {ahead : List (Option Char)} (finishes : language.Finishes ahead Follow.element)
        (ends : (LexemeKind.gap false).Ends ahead)
        (later : ∀ here, Breaks 0 parser here language Follow.element) :
        Finishes [Option.some '\n'] (Language.gap >>= fun _ => language) Follow.element ∧
          Breaks 0 (Parser.skip >>= fun _ => parser) there (Language.gap >>= fun _ => language)
            Follow.element :=
      ⟨(Finishes.gap_feed ends).bind fun _ => finishes, skip_bind finishes ends fun _ _ => later _⟩
    cases Keyword.ofSpelling? keyword.content with
    | none => exact .inl other
    | some keyword =>
      cases keyword with
      | classes => exact .inr (known .classDeclaration (by decide) fun _ => classDeclaration)
      | content =>
        exact .inr (known (.contentBinding breaks.finishes) (by decide) fun _ =>
          contentBinding breaks)
      | defaults => exact .inr (known .declaration (by decide) fun _ => defaultDeclaration)
      | value => exact .inr (known .valueBinding (by decide) fun _ => valueBinding)
      | text | read | inclusion => exact .inl other

theorem preambleElement (found : c.head = some '<') :
    Breaks 0 (preambleElement nested) c (Grammar.preambleElement nested') Follow.block := by
  have close (fallback : Option Position) (read : Directive) : Finishes Follow.element (do
      Language.gap
      let _ ← Language.sign '>'
      return (⟨c.position, fallback, read⟩ : PreambleElement)) Follow.block :=
    (Finishes.gap (by decide)).bind fun _ => (Finishes.sign (by decide)).map
  have inside (fallback : Option Position) :=
    (Finishes.directive nested').bind fun read => close fallback read
  have letter : (LexemeKind.gap false).Ends [some 'v'] := by decide
  have whole := Finishes.fallbackMark.bind inside
  refine position_bind (advance_bind found (by decide) ((Finishes.gap letter).bind fun _ => whole)
    (by decide) (skip_bind whole letter fun _ _ => ?_))
  refine bind Spells.fallbackMark.yields (.inr .fallbackMark) fallbackMark inside
    fun fallback _ _ _ _ => ?_
  obtain ⟨deeper, approximates, spells⟩ := breaks.reads
  refine bind ((Approximates.directive approximates).yields (Spells.directive spells))
    (.inr (.directive breaks.keeps)) (directive breaks) (close fallback) fun read _ _ _ _ => ?_
  refine skip_bind (Finishes.sign (by decide)).map (by decide) fun _ _ => ?_
  exact expect_bind (by decide) (fun _ => Finishes.pure _) (by decide) (pure _)

theorem preamble : Breaks 0 (preamble nested) c (Grammar.preamble nested') Follow.block := by
  obtain ⟨deeper, approximates, spells⟩ := breaks.reads
  have yields {here : Cursor} (found : here.head = some '<') :=
    (Approximates.preambleElement approximates).yields (Spells.preambleElement spells found)
  have keeps {here : Cursor} : (Grammar.preambleElement nested').Keeps here Follow.block :=
    .preambleElement breaks.keeps
  refine whileAt rfl (fun _ found => ?_) (fun _ => ?_) (by decide) fun here found => ?_
  · exact (yields found).bind fun _ _ => (Spells.skip.bind fun _ _ _ _ _ => Spells.pure _).yields
  · exact keeps.bind fun _ _ => .map (.gap (by decide))
  · exact bind (yields found) (.inr keeps) (preambleElement breaks found)
      (fun _ => (Finishes.gap (by decide)).map) fun _ _ _ _ _ => of_ok rfl

/-! ### Text -/

/-- Where an ignored node stands, its two signs are passed over. -/
theorem ignoredNode (mark : c.head = some '_') (bracket : c.second = some '[') :
    Breaks 2 (ignoredNode nested) c (Grammar.ignoredNode nested') Follow.block := by
  have inside : (c.behind ['_']).head = some '[' := by
    rw [Cursor.behind_head, ← bracket]
    simp [Cursor.second]
  have never : LexemeKind.sign.Ends [] := fun _ member => absurd member List.not_mem_nil
  have spelled : Language.sign '_' c.position [⟨.sign, c.position, ['_']⟩] := rfl
  exact sign_bind mark (by decide) (advance_of_head mark) spelled never
    (fun zero => absurd zero Nat.one_ne_zero) (breaks.node inside).kept.map

theorem textPiece :
    Breaks 2 (textPiece nested) c (Grammar.textPiece nested') Follow.block := by
  refine head_bind ?_
  split
  · exact pure _
  split
  · exact pure _
  refine of_atIgnoredNode ?_
  split
  · next node =>
    simp only [Bool.and_eq_true, decide_eq_true_eq] at node
    exact right (left (ignoredNode breaks node.1 node.2).map)
  · exact of_ok rfl

/-- A run of text takes in its first character and the pieces behind it. -/
theorem textRun {x : Char} (found : c.head = some x) (inLine : x ≠ '\r' ∧ x ≠ '\n') :
    Breaks 0 (textRun nested) c (Grammar.textRun nested') Follow.block := by
  obtain ⟨deeper, approximates, spells⟩ := breaks.reads
  have pieces {here : Cursor} : Breaks 2 (Parser.many (Parser.textPiece nested)) here
      (Language.rounds (Grammar.textPiece nested')) Follow.block :=
    many (fun _ => (Approximates.textPiece approximates).yields (Spells.textPiece spells))
      (.inl (Nat.le_refl 2)) (Finishes.textPieces nested') fun _ => textPiece breaks
  refine position_bind ?_
  exact anySign_bind found inLine (Finishes.textPieces nested').map (by decide)
    (pieces.map.mono (Nat.zero_le _))

/-! ### Lines -/

theorem textOrIgnored {seen : Sight} {made : TextRun → α} {x : Char} (found : c.head = some x)
    (inLine : x ≠ '\r' ∧ x ≠ '\n')
    (sees : seen.sees c.head c.second = !Sight.isIgnored c.head c.second) :
    Breaks 0 (do
      if ← atIgnoredNode then
        Parser.ignoredNode nested
        return .pass
      else
        return .item (made (← Parser.textRun nested))) c ((do
      Grammar.ignoredNode nested'
      return .pass) <|> (do
      Language.sight seen
      return Round.item (made (← Grammar.textRun nested')))) Follow.block := by
  refine of_atIgnoredNode ?_
  split
  · next node =>
    simp only [Bool.and_eq_true, decide_eq_true_eq] at node
    exact left ((ignoredNode breaks node.1 node.2).map.mono (Nat.zero_le _))
  · next other =>
    refine right (sight_bind ?_ (textRun breaks found inLine).map)
    rw [sees, Sight.isIgnored, Bool.not_eq_true']
    exact Bool.eq_false_iff.2 other

theorem lineElement :
    Breaks 0 (lineElement nested) c (Grammar.lineElement nested') Follow.block := by
  refine head_bind ?_
  split
  · exact pure _
  · exact pure _
  · exact pure _
  · exact pure _
  · next found => exact right (left ((breaks.node found).map.mono (Nat.zero_le _)))
  · next found => exact right (right (left ((escapedText found).map.mono (Nat.zero_le _))))
  · next x notReturn notFeed notClose notOpen notQuote found =>
    have plain : endsText x = false :=
      Parser.endsText_eq_false_iff.2 ⟨notReturn, notFeed, notQuote, notOpen, notClose⟩
    exact right (right (right (textOrIgnored breaks found ⟨notReturn, notFeed⟩
      (by simp [Sight.sees, found, plain]))))

theorem textElement :
    Breaks 0 (textElement nested) c (Grammar.textElement nested') Follow.block := by
  refine head_bind ?_
  split
  · exact pure _
  · exact pure _
  · exact pure _
  · exact pure _
  · next found => exact right (left ((escapedText found).map.mono (Nat.zero_le _)))
  · next x notReturn notFeed notClose notQuote found =>
    exact right (right (textOrIgnored breaks found ⟨notReturn, notFeed⟩ (by simp_all [Sight.sees])))

theorem line : Breaks 0 (line nested) c (Grammar.line nested') Follow.block := by
  obtain ⟨deeper, approximates, spells⟩ := breaks.reads
  exact many (fun _ => (Approximates.lineElement approximates).yields (Spells.lineElement spells))
    (.inr fun _ => .lineElement breaks.keeps) (.line nested') fun _ => lineElement breaks

theorem textElements :
    Breaks 0 (textElements nested) c (Grammar.textElements nested') Follow.block := by
  obtain ⟨deeper, approximates, spells⟩ := breaks.reads
  exact many (fun _ => (Approximates.textElement approximates).yields (Spells.textElement spells))
    (.inr fun _ => .textElement breaks.keeps) (.textElements nested') fun _ => textElement breaks

theorem lines : Breaks 0 (lines nested) c (Grammar.lines nested') Follow.block := by
  obtain ⟨deeper, approximates, spells⟩ := breaks.reads
  refine many (fun _ => (Approximates.lineRound approximates).yields (Spells.lineRound spells))
    (.inr fun _ => .lineRound breaks.keeps) (.lines nested') fun _ => ?_
  refine skip_bind (Finishes.left (Finishes.sight (by decide)).map)
    (by decide : (LexemeKind.gap false).Ends Follow.block) fun here _ => head_bind ?_
  split
  · exact pure _
  · exact pure _
  · next x notClose found =>
    have other : x ≠ ']' := fun same => notClose same
    exact right (sight_bind (by simp [Sight.sees, found, other]) (line breaks).map)

theorem content : Breaks 0 (content nested) c (Grammar.content nested') Follow.block := by
  obtain ⟨deeper, approximates, spells⟩ := breaks.reads
  exact bind ((Approximates.preamble approximates).yields (Spells.preamble spells))
    (.inr (.preamble breaks.keeps)) (preamble breaks) (fun _ => (Finishes.lines nested').map)
    fun _ _ _ _ _ => (lines breaks).map

/-! ### Nodes -/

omit breaks in
/-- Classes and properties, before something that can be finished. -/
theorem parts_bind {next : List ClassRef → Option PropertyBlock → Parser α}
    {next' : List ClassRef → Option PropertyBlock → Language α}
    (finishes : ∀ uses block, (next' uses block).Finishes Follow.block Follow.block)
    (rest : ∀ uses block there, Breaks 0 (next uses block) there (next' uses block) Follow.block) :
    Breaks 0 (do
      let uses ← Parser.classes
      let block ← Parser.properties
      next uses block) c (do
      let uses ← Grammar.classes
      let block ← Grammar.properties
      next' uses block) Follow.block := by
  refine bind Spells.classes.yields (.inr .classes) (classes.before (List.Subset.refl _)) ?_ ?_
  · exact fun uses => (Finishes.properties.bind (finishes uses)).mono (by decide) (List.Subset.refl _)
  · exact fun uses _ _ _ _ => bind Spells.properties.yields (.inr .properties) properties
      (finishes uses) fun block there _ _ _ => rest uses block there

theorem textNode {keyword : Option Word} :
    Breaks 0 (textNode nested start keyword) c (Grammar.textNode nested' start keyword)
      Follow.block := by
  refine parts_bind (fun _ _ => (Finishes.textElements nested').map) fun _ _ _ => ?_
  exact (textElements breaks).map

theorem typedNode {path : TypePath} :
    Breaks 0 (typedNode nested start path) c (Grammar.typedNode nested' start path)
      Follow.block := by
  refine parts_bind (fun _ _ => (Finishes.content nested').map) fun _ _ _ => ?_
  exact (content breaks).map

/-- The rest of a node of a declared type, behind the first name of its path. -/
theorem typedPath {next : List ChildStep → TypePath} : Breaks 0 (do
      let steps ← Parser.childSteps
      Parser.skip
      Parser.typedNode nested start (next steps)) c (do
      let steps ← Grammar.childSteps
      Language.gap
      Grammar.typedNode nested' start (next steps)) Follow.block := by
  refine bind Spells.childSteps.yields (.inr .childSteps) childSteps
    (fun _ => (Finishes.gap (by decide)).bind fun _ => .typedNode nested' start _)
    fun _ _ _ _ _ => ?_
  refine skip_bind (.typedNode nested' start _) (by decide) fun _ _ => ?_
  exact typedNode breaks

theorem namedNode {first : Word} :
    Breaks 0 (namedNode nested start first) c (Grammar.namedNode nested' start first)
      Follow.block := by
  have clear : (LexemeKind.gap false).Ends Follow.parts := by decide
  have named {next : Word → Parser Node} {next' : Word → Language Node}
      (finishes : ∀ word, (next' word).Finishes Follow.block Follow.block)
      (rest : ∀ word there, Breaks 0 (next word) there (next' word) Follow.block) : Breaks 0 (do
        Parser.skip
        let used ← Parser.name
        Parser.skip
        next used) c (do
        Language.gap
        let used ← Language.name
        Language.gap
        next' used) Follow.block := by
    have last (word : Word) : Finishes Follow.block (do
        Language.gap
        next' word) Follow.block :=
      (Finishes.gap (by decide)).bind fun _ => finishes word
    refine skip_bind ((Finishes.name (by decide)).bind last) (by decide) fun _ _ => ?_
    exact name_bind last (by decide) fun word _ => skip_bind (finishes word) (by decide) fun there _ =>
      rest word there
  unfold Parser.namedNode Grammar.namedNode
  cases Keyword.ofSpelling? first.content with
  | none => exact typedPath breaks
  | some keyword =>
    cases keyword with
    | classes | defaults => exact typedPath breaks
    | text =>
      exact skip_bind (.textNode nested' start (some first)) clear fun _ _ => textNode breaks
    | read =>
      exact skip_bind (.parts_bind fun _ _ => .pure _) clear fun _ _ =>
        parts_bind (fun _ _ => .pure _) fun _ _ _ => pure _
    | inclusion =>
      exact skip_bind (.parts_bind fun _ _ => (Finishes.preamble nested').map) clear fun _ _ =>
        parts_bind (fun _ _ => (Finishes.preamble nested').map) fun _ _ _ => (preamble breaks).map
    | content =>
      exact named (fun _ => (Finishes.preamble nested').map) fun _ _ => (preamble breaks).map
    | value => exact named (fun _ => .pure _) fun _ _ => pure _

theorem nodeBody : Breaks 0 (nodeBody nested start) c (Grammar.nodeBody nested' start)
    Follow.block := by
  refine head_bind ?_
  split
  · next found => exact left (sight_bind (by simp [Sight.sees, found]) (content breaks).map)
  · next found => exact right (left (sight_bind (by simp [Sight.sees, found]) (textNode breaks)))
  · next found => exact right (left (sight_bind (by simp [Sight.sees, found]) (textNode breaks)))
  · next found =>
    exact right (right (left (sight_bind (by simp [Sight.sees, found]) (typedPath breaks))))
  · split
    · exact right (right (right (name_bind (.namedNode nested' start) (by decide)
        fun _ _ => namedNode breaks)))
    · exact fail

/-- A node has passed over its bracket, wherever it fails. -/
theorem node (found : c.head = some '[') :
    Breaks 1 (node nested) c (Grammar.node nested') Follow.block := by
  have close (read : Node) : Finishes Follow.block (do
      let _ ← Language.sign ']'
      return read) Follow.block :=
    Finishes.mono (Finishes.map (Finishes.sign (by decide))) (by decide) (List.Subset.refl _)
  have inside := (Finishes.nodeBody nested' c.position).bind close
  have letter : (LexemeKind.gap false).Ends [some 'v'] := by decide
  have spelled : Language.sign '[' c.position [⟨.sign, c.position, ['[']⟩] := rfl
  refine position_bind (sign_bind found (by decide) (advance_of_head found) spelled (by decide)
    (fun _ => (Finishes.gap letter).bind fun _ => inside) (skip_bind inside letter fun _ _ => ?_))
  obtain ⟨deeper, approximates, spells⟩ := breaks.reads
  refine bind ((Approximates.nodeBody approximates).yields (Spells.nodeBody spells))
    (.inr (.nodeBody breaks.keeps)) (nodeBody breaks) close fun read _ _ _ _ => ?_
  exact expect_bind (by decide) (fun _ => Finishes.pure _) (by decide) (pure _)

end Nested

end Breaks

/-! ### Nesting -/

/-- The parsers of so many levels of nesting break off where the languages of one level more can go
on. -/
theorem breaks_ofDepth (depth : Nat) :
    (Nested.ofDepth depth).Breaks (Grammar.ofDepth (depth + 1)) := by
  have reads (depth : Nat) : ∃ deeper : Nested,
      (Nested.ofDepth depth).Approximates deeper ∧ deeper.Spells (Grammar.ofDepth (depth + 1)) :=
    ⟨_, approximates_ofDepth (Nat.le_succ depth), spells_ofDepth (depth + 1)⟩
  induction depth with
  | zero =>
    refine ⟨reads 0, Grammar.keeps_ofDepth 1, Grammar.finishes_ofDepth 0, ?_, ?_⟩
    · intro c found error failed
      cases failed
    · intro c error failed
      cases failed
  | succ depth ih =>
    exact ⟨reads (depth + 1), Grammar.keeps_ofDepth _, Grammar.finishes_ofDepth _, Breaks.node ih,
      Breaks.content ih⟩

/-- **A whole source.** -/
theorem Breaks.file {c : Cursor} {nested : Parser.Nested} {nested' : Grammar.Nested}
    (breaks : nested.Breaks nested') : Breaks 0 (file nested) c (Grammar.file nested') [none] := by
  obtain ⟨deeper, approximates, spells⟩ := breaks.reads
  have last (read : Content) : Language.Finishes [none] (do
      Language.sight .sourceEnd
      return read) [none] :=
    (Language.Finishes.sight (by decide)).map
  have sub : [none] ⊆ Grammar.Follow.block := by decide
  have inside := (breaks.finishes.mono (List.Subset.refl _) sub).bind last
  refine skip_bind inside (by decide) fun _ _ => ?_
  refine bind (approximates.content.yields spells.content)
    (.inr ((breaks.keeps.content _).mono sub)) (breaks.content.before sub) last
    fun read there _ _ _ => head_bind ?_
  dsimp only
  split
  · exact fail_bind
  · exact pure _

end Parser

end TypedMarkup
