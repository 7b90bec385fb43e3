/-
**Every well-formed tree can be written.** What `Language.Renders` says of the constructs that nest,
and of whole sources.

* `Grammar.renders_ofDepth` ties the knot: a tree is written with one level of nesting more than it is
  large.
* `Content.exists_parse` is the result: for every well-formed tree there is a source that is read as
  it, up to positions.
-/

import TypedMarkup.Proofs.Grammar.RendersText

namespace TypedMarkup

open Text (Clear Sees Shows StartsWith aheadOf)

namespace Language.Renders

open Grammar (Follow.preamble Follow.block Follow.classes)
open TypedMarkup.Parser (Round)

variable {nested : Grammar.Nested} {bound : Nat} {follow : List Char → Prop} {start : Position}

/-! ### Parts of nodes -/

/-- Classes and a property block, before something else. -/
theorem parts_bind {β δ : Type} {uses : List ClassRef} {block : Option PropertyBlock}
    {next : List ClassRef → Option PropertyBlock → Language β} {last : β → δ} {b : β}
    {middle : List (Option Char)} (parts : PartsWellFormed uses block)
    (sub : middle ⊆ some '<' :: Follow.preamble)
    (rest : ∀ uses' block', uses'.map (ClassRef.relabel .blind) = uses.map (ClassRef.relabel .blind) →
      block'.map (PropertyBlock.relabel .blind id) = block.map (PropertyBlock.relabel .blind id) →
      (next uses' block').Renders last b (Shows middle) follow) : (do
        let uses ← Grammar.classes
        let block ← Grammar.properties
        next uses block).Renders last b
          (Shows (aheadOf uses '.' (aheadOf block.toList '\x7b' middle))) follow := by
  have behind : aheadOf block.toList '\x7b' middle ⊆ Follow.classes :=
    Text.aheadOf_subset (by decide) (List.Subset.trans sub (by decide))
  exact (classes parts.classes behind).bind fun _ same => (properties parts.properties sub).bind
    fun _ same' => rest _ _ same same'

/-- The same behind a gap. -/
theorem parts_bind_clear {β δ : Type} {uses : List ClassRef} {block : Option PropertyBlock}
    {next : List ClassRef → Option PropertyBlock → Language β} {last : β → δ} {b : β}
    {middle : List (Option Char)} (parts : PartsWellFormed uses block)
    (sub : middle ⊆ some '<' :: Follow.preamble)
    (rest : ∀ uses' block', uses'.map (ClassRef.relabel .blind) = uses.map (ClassRef.relabel .blind) →
      block'.map (PropertyBlock.relabel .blind id) = block.map (PropertyBlock.relabel .blind id) →
      (next uses' block').Renders last b (Shows middle) follow) : (do
        let uses ← Grammar.classes
        let block ← Grammar.properties
        next uses block).Renders last b Clear follow := by
  have sub' : aheadOf uses '.' (aheadOf block.toList '\x7b' middle) ⊆
      some '.' :: some '\x7b' :: some '<' :: Follow.preamble :=
    Text.aheadOf_subset (by decide) (Text.aheadOf_subset (by decide)
      (List.Subset.trans sub (by decide)))
  exact (parts_bind parts sub rest).weaken fun _ shows' => (shows'.mono sub').clear (by decide)

/-- A node that starts with a keyword, behind its opening bracket. -/
theorem nodeBody_keyword {inner : Node} (keyword : Keyword)
    (rest : ∀ word, Keyword.ofSpelling? word.content = some keyword →
      word.content = keyword.spelling → (Grammar.namedNode nested start word).Renders
        (Node.relabel .blind id) inner (Shows [some '\n']) (Shows [some ']'])) :
    (Grammar.nodeBody nested start).Renders (Node.relabel .blind id) inner Clear
      (Shows [some ']']) := by
  have clear : ∀ text, Shows [keyword.spelling.toList.head?] text → Clear text := by
    cases keyword <;> exact fun _ => Shows.clear (by decide)
  refine right (right (right ((keyword_bind keyword fun word spelt => ?_).weaken clear)))
  exact rest word (spelt ▸ Keyword.ofSpelling?_spelling keyword) spelt

variable (deeper : nested.Renders bound)

include deeper

/-! ### Blocks -/

theorem lines {lines : List (List LineElement)}
    (each : ∀ line ∈ lines, ∀ element ∈ line, element.WellFormed)
    (apart : ∀ line ∈ lines, line.IsChain LineElement.MayPrecede) (small : sizeOf lines ≤ bound) :
    (Grammar.lines nested).Renders (relabelLines .blind id) lines (Shows Follow.preamble)
      (Shows Follow.block) := by
  have look : relabelLines .blind id = List.map (relabelLine .blind id) := by
    rw [funext (relabelLines_eq .blind id), funext (relabelLine_eq .blind id)]
  rw [look]
  induction lines with
  | nil =>
    exact rounds_nil (weaken ((gap_shows (by decide)).bind fun _ _ => left ((sight_shows
      (by decide)).map fun _ _ => rfl)) fun _ shows' => shows'.mono (by decide))
  | cons first lines ih =>
    rw [List.cons.sizeOf_spec] at small
    obtain ⟨wellFormed, later⟩ := List.forall_mem_cons.1 each
    obtain ⟨chain, apart⟩ := List.forall_mem_cons.1 apart
    have written := line deeper wellFormed chain (by omega)
    refine rounds_cons (weaken ((gap_shows (by decide)).bind fun _ _ => right ((sight_shows
      (by decide)).bind fun _ _ => written.map fun _ => congrArg Round.item)) ?_)
      (rounds_feed (ih later apart (by omega)) fun _ => Shows.clear (by decide))
    exact fun _ shows' => shows'.mono (by decide)

theorem contentBinding {word : Word} {body : Content} (isName : word.IsName) (isClear : word.IsClear)
    (inside : body.WellFormed) (small : sizeOf body < bound) :
    (Grammar.contentBinding nested).Renders (Directive.relabel .blind id) (.content word body) Clear
      (Shows [some '>']) := by
  have written := (deeper.content body inside small).mono (fun _ => Shows.of_aheadOf)
    fun _ (shows' : Shows [some ']'] _) => shows'.mono (by decide)
  exact weaken ((name_shows isName (by decide)).bind fun _ same => (feed_shows (by decide)).bind
    fun _ _ => (sign_shows (by decide) Position.start).bind fun _ _ => (gap_shows (by decide)).bind
      fun _ _ => written.bind fun _ same' => (sign_shows (by decide) Position.start).map fun _ _ => by
        simp only [Directive.relabel, same, same'])
    fun _ => StartsWith.clear isName isClear (by decide)

theorem directive {directive : Directive} (wellFormed : directive.WellFormed)
    (small : sizeOf directive ≤ bound) :
    (Grammar.directive nested).Renders (Directive.relabel .blind id) directive
      (Shows [some 'c', some 'd', some 'v']) (Shows [some '>']) := by
  cases wellFormed with
  | value isName clear given =>
    refine (keyword_bind .value fun word spelt => ?_).weaken fun _ shows' => shows'.mono (by decide)
    rw [spelt, Keyword.ofSpelling?_spelling]
    exact (gap_feed fun _ => id).bind fun _ _ => valueBinding isName clear given
  | content isName clear inside =>
    rw [Directive.content.sizeOf_spec] at small
    refine (keyword_bind .content fun word spelt => ?_).weaken fun _ shows' => shows'.mono (by decide)
    rw [spelt, Keyword.ofSpelling?_spelling]
    exact (gap_feed fun _ => id).bind fun _ _ => contentBinding deeper isName clear inside (by omega)
  | bundle isName paths parts either =>
    refine (keyword_bind .classes fun word spelt => ?_).weaken fun _ shows' => shows'.mono (by decide)
    rw [spelt, Keyword.ofSpelling?_spelling]
    exact (feed_shows (by decide)).bind fun _ _ => classDeclaration isName paths parts either
  | defaults paths parts either =>
    refine (keyword_bind .defaults fun word spelt => ?_).weaken fun _ shows' => shows'.mono (by decide)
    rw [spelt, Keyword.ofSpelling?_spelling]
    exact (gap_feed fun _ => id).bind fun _ _ => defaultDeclaration paths parts either

theorem preambleElement {element : PreambleElement} (wellFormed : element.WellFormed)
    (small : sizeOf element ≤ bound) :
    (Grammar.preambleElement nested).Renders (PreambleElement.relabel .blind id) element
      (Shows [some '<']) follow := by
  obtain ⟨inside⟩ := wellFormed
  rename_i start fallback read
  rw [PreambleElement.mk.sizeOf_spec] at small
  have written := directive deeper inside (by omega)
  have mark : Grammar.fallbackMark.Renders (Option.map Position.View.blind.of) fallback
      (Shows [some '?', some 'c', some 'd', some 'v']) (Shows [some 'c', some 'd', some 'v']) := by
    cases fallback with
    | none =>
      exact right (weaken ((sight_shows (by decide)).map fun _ _ => rfl)
        fun _ shows' => shows'.mono (by decide))
    | some place =>
      exact left (weaken ((sign_shows (by decide) place).bind fun _ _ => (gap_shows (by decide)).map
        fun _ _ => rfl) fun _ shows' => shows'.mono (by decide))
  exact (sign_shows (by decide) start).bind fun _ place => (gap_shows (by decide)).bind fun _ _ =>
    mark.bind fun _ same => written.bind fun _ same' => (gap_shows (by decide)).bind fun _ _ =>
      (sign_shows (by decide) start).map fun _ _ => by
        simp only [PreambleElement.relabel, place, same, same']

theorem preamble {elements : List PreambleElement} {follow : List (Option Char)}
    (each : ∀ element ∈ elements, element.WellFormed) (small : sizeOf elements ≤ bound)
    (sub : follow ⊆ Follow.preamble) :
    (Grammar.preamble nested).Renders (relabelPreamble .blind id) elements
      (Shows (aheadOf elements '<' follow)) (Shows follow) := by
  have clear : (LexemeKind.gap false).Ends (some '<' :: Follow.preamble) := by decide
  have ends : (LexemeKind.sight (.avoids ['<'])).Ends Follow.preamble := by decide
  rw [funext (relabelPreamble_eq .blind id)]
  refine items (fun element member => ?_) fun next found => ends next (sub found)
  have smaller := List.sizeOf_lt_of_mem member
  have spaced := gap_shows fun next found => clear next (List.cons_subset_cons _ sub found)
  exact (preambleElement deeper (each element member) (by omega)).bind fun _ same =>
    spaced.map fun _ _ => congrArg Round.item same

/-- A block. -/
theorem content {body : Content} (wellFormed : body.WellFormed) (small : sizeOf body ≤ bound) :
    (Grammar.content nested).Renders (Content.relabel .blind id) body
      (Shows (aheadOf body.preamble '<' Follow.preamble)) (Shows Follow.block) := by
  obtain ⟨elements, inside, apart⟩ := wellFormed
  rw [Content.mk.sizeOf_spec] at small
  have written := preamble deeper elements (by omega) (List.Subset.refl _)
  exact written.bind fun _ same => (lines deeper inside apart (by omega)).map fun _ same' => by
    simp only [Content.relabel, same, same']

/-! ### Nodes -/

theorem textNode {uses : List ClassRef} {block : Option PropertyBlock} {elements : List TextElement}
    {keyword keyword' : Option Word} {start' : Position} (parts : PartsWellFormed uses block)
    (inside : ∀ element ∈ elements, element.WellFormed)
    (apart : elements.IsChain TextElement.MayPrecede)
    (same : keyword'.map (Word.relabel .blind) = keyword.map (Word.relabel .blind)) :
    (Grammar.textNode nested start' keyword').Renders (Node.relabel .blind id)
      (.text start keyword uses block elements)
      (Shows (aheadOf uses '.' (aheadOf block.toList '\x7b' [some '_']))) (Shows [some ']']) := by
  have place : Position.View.blind.of start' = Position.View.blind.of start := rfl
  refine parts_bind parts (by decide) fun _ _ sameUses sameBlock => ?_
  refine (textElements deeper inside apart).map fun _ sameElements => ?_
  simp only [Node.relabel, place, same, sameUses, sameBlock, sameElements]

theorem typedNode {uses : List ClassRef} {block : Option PropertyBlock} {body : Content}
    {path path' : TypePath} {start' : Position} (parts : PartsWellFormed uses block)
    (inside : body.WellFormed) (small : sizeOf body ≤ bound)
    (same : path'.relabel .blind = path.relabel .blind) :
    (Grammar.typedNode nested start' path').Renders (Node.relabel .blind id)
      (.typed start path uses block body) Clear (Shows Follow.block) := by
  have place : Position.View.blind.of start' = Position.View.blind.of start := rfl
  have sub : aheadOf body.preamble '<' Follow.preamble ⊆ some '<' :: Follow.preamble :=
    Text.aheadOf_subset (by decide) (by decide)
  refine parts_bind_clear parts sub fun _ _ sameUses sameBlock => ?_
  refine (content deeper inside small).map fun _ sameBody => ?_
  simp only [Node.relabel, place, same, sameUses, sameBlock, sameBody]

/-- A node of a declared type, behind its opening bracket. -/
theorem typedBody {path : TypePath} {uses : List ClassRef} {block : Option PropertyBlock}
    {body : Content} {start' : Position} (route : path.WellFormed) (declared : path.IsDeclared)
    (parts : PartsWellFormed uses block) (inside : body.WellFormed) (small : sizeOf body ≤ bound) :
    (Grammar.nodeBody nested start').Renders (Node.relabel .blind id)
      (.typed start path uses block body) Clear (Shows [some ']']) := by
  have written {path' : TypePath} (same : path'.relabel .blind = path.relabel .blind) :
      (Grammar.typedNode nested start' path').Renders (Node.relabel .blind id)
        (.typed start path uses block body) Clear (Shows [some ']']) :=
    (typedNode deeper parts inside small same).mono (fun _ => id) fun _ shows' =>
      shows'.mono (by decide)
  cases path with
  | absolute root steps =>
    obtain ⟨isName, isClear, names⟩ := route
    refine right (right (right (weaken (root_bind steps isName fun word same => ?_)
      fun _ => StartsWith.clear isName isClear (by decide))))
    have content : word.content = root.content := congrArg (fun word => word.content) same
    rw [Grammar.namedNode_of_other (Keyword.not_mem_nodeWords_iff.1 (content ▸ declared))]
    exact (childSteps names).bind fun _ same' => (gap_feed fun _ => id).bind fun _ _ =>
      written (by simp only [TypePath.relabel, same, same'])
  | relative steps =>
    have path := childSteps_of_ne_nil route.1 route.2
    exact right (right (left (weaken ((sight_shows (by decide)).bind fun _ _ => path.bind
      fun _ same => (gap_feed fun _ => id).bind fun _ _ =>
        written (by simp only [TypePath.relabel, same])) fun _ => Shows.clear (by decide))))

/-- A text node, behind its opening bracket. -/
theorem textBody {keyword : Option Word} {uses : List ClassRef} {block : Option PropertyBlock}
    {elements : List TextElement} {start' : Position}
    (marked : keyword.map Word.content = some "text" ∨
      keyword = none ∧ (uses ≠ [] ∨ block ≠ none))
    (parts : PartsWellFormed uses block) (inside : ∀ element ∈ elements, element.WellFormed)
    (apart : elements.IsChain TextElement.MayPrecede) :
    (Grammar.nodeBody nested start').Renders (Node.relabel .blind id)
      (.text start keyword uses block elements) Clear (Shows [some ']']) := by
  have written {keyword' : Option Word}
      (same : keyword'.map (Word.relabel .blind) = keyword.map (Word.relabel .blind)) :
      (Grammar.textNode nested start' keyword').Renders (Node.relabel .blind id)
        (.text start keyword uses block elements) _ _ :=
    textNode deeper parts inside apart same
  rcases marked with marked | ⟨rfl, either⟩
  · obtain ⟨word, rfl, content⟩ := Option.map_eq_some_iff.1 marked
    refine nodeBody_keyword .text fun word' known spelt => ?_
    rw [Grammar.namedNode, known]
    have sub : aheadOf uses '.' (aheadOf block.toList '\x7b' [some '_']) ⊆
        [some '.', some '\x7b', some '_'] :=
      Text.aheadOf_subset (by decide) (Text.aheadOf_subset (by decide) (by decide))
    refine (gap_feed fun _ shows' => (shows'.mono sub).clear (by decide)).bind fun _ _ => written ?_
    simp only [Option.map_some, Word.relabel, spelt, content]
    rfl
  · have sub : aheadOf uses '.' (aheadOf block.toList '\x7b' [some '_']) ⊆ [some '.', some '\x7b'] := by
      cases uses with
      | cons used uses => exact List.cons_subset.2 ⟨by decide, List.nil_subset _⟩
      | nil =>
        cases block with
        | none => simp at either
        | some block => exact List.cons_subset.2 ⟨by decide, List.nil_subset _⟩
    have shown := (written rfl).weaken fun _ shows' => shows'.mono sub
    exact right (left (weaken ((sight_shows (by decide)).bind fun _ _ => shown)
      fun _ => Shows.clear (by decide)))

/-- What is inside a node. -/
theorem nodeBody {inner : Node} {start' : Position} (wellFormed : inner.WellFormed)
    (small : sizeOf inner ≤ bound) :
    (Grammar.nodeBody nested start').Renders (Node.relabel .blind id) inner Clear
      (Shows [some ']']) := by
  have place (start : Position) : Position.View.blind.of start' = Position.View.blind.of start := rfl
  cases wellFormed with
  | @content start name elements isName clear inside =>
    rw [Node.content.sizeOf_spec] at small
    have sub : aheadOf elements '<' [some ']'] ⊆ [some '<', some ']'] :=
      Text.aheadOf_subset (by decide) (by decide)
    have written := (preamble deeper inside (by omega) (by decide : [some ']'] ⊆ _)).weaken
      fun _ shows' => shows'.mono sub
    refine nodeBody_keyword .content fun word known _ => ?_
    rw [Grammar.namedNode, known]
    exact (gap_feed fun _ => StartsWith.clear isName clear (by decide)).bind fun _ _ =>
      (name_shows isName (by decide)).bind fun _ same => (gap_shows (by decide)).bind fun _ _ =>
        written.map fun _ same' => by simp only [Node.relabel, place start, same, same']
  | @block start body someElement inside =>
    rw [Node.block.sizeOf_spec] at small
    obtain ⟨elements, lines⟩ := body
    obtain ⟨element, elements, rfl⟩ := List.exists_cons_of_ne_nil someElement
    have written : (Grammar.content nested).Renders (Content.relabel .blind id)
        ⟨element :: elements, lines⟩ (Shows [some '<']) (Shows Follow.block) :=
      content deeper inside (by omega)
    exact left (mono ((sight_shows (by decide)).bind fun _ _ => written.map fun _ same => by
      simp only [Node.relabel, place start, same]) (fun _ => Shows.clear (by decide))
        fun _ shows' => shows'.mono (by decide))
  | @value start name isName clear =>
    refine nodeBody_keyword .value fun word known _ => ?_
    rw [Grammar.namedNode, known]
    exact (gap_feed fun _ => StartsWith.clear isName clear (by decide)).bind fun _ _ =>
      (name_shows isName (by decide)).bind fun _ same => (gap_shows (by decide)).map fun _ _ => by
        simp only [Node.relabel, place start, same]
  | text marked parts inside apart => exact textBody deeper marked parts inside apart
  | @read start uses block parts =>
    refine nodeBody_keyword .read fun word known _ => ?_
    rw [Grammar.namedNode, known]
    exact (gap_feed fun _ => id).bind fun _ _ => parts_bind_clear parts (by decide)
      fun _ _ same same' => pure (by simp only [Node.relabel, place start, same, same'])
  | @inclusion start uses block elements parts inside =>
    rw [Node.inclusion.sizeOf_spec] at small
    have sub : aheadOf elements '<' [some ']'] ⊆ some '<' :: Follow.preamble :=
      Text.aheadOf_subset (by decide) (by decide)
    have written := preamble deeper inside (by omega) (by decide : [some ']'] ⊆ _)
    refine nodeBody_keyword .inclusion fun word known _ => ?_
    rw [Grammar.namedNode, known]
    exact (gap_feed fun _ => id).bind fun _ _ => parts_bind_clear parts sub fun _ _ same same' =>
      written.map fun _ same'' => by simp only [Node.relabel, place start, same, same', same'']
  | typed route declared parts inside =>
    rw [Node.typed.sizeOf_spec] at small
    exact typedBody deeper route declared parts inside (by omega)

theorem node {inner : Node} (wellFormed : inner.WellFormed) (small : sizeOf inner ≤ bound) :
    (Grammar.node nested).Renders (Node.relabel .blind id) inner (Shows [some '[']) follow :=
  (sign_shows (by decide) Position.start).bind fun _ _ => (gap fun _ => id).bind fun _ _ =>
    (nodeBody deeper wellFormed small).bind fun _ same =>
      (sign_shows (by decide) Position.start).map fun _ _ => same

end Language.Renders

/-! ### Nesting -/

namespace Grammar

/-- Trees are written with one level of nesting more than they are large. -/
theorem renders_ofDepth (bound : Nat) : (ofDepth (bound + 1)).Renders bound := by
  induction bound with
  | zero =>
    exact ⟨fun inner _ => .anyNode _ inner, fun _ _ _ small => absurd small (Nat.not_lt_zero _),
      fun _ _ small => absurd small (Nat.not_lt_zero _)⟩
  | succ bound ih =>
    exact ⟨fun inner _ => .anyNode _ inner,
      fun _ _ wellFormed small => .node ih wellFormed (Nat.le_of_lt_succ small),
      fun _ wellFormed small => .content ih wellFormed (Nat.le_of_lt_succ small)⟩

/-- A whole source. -/
theorem renders_file {nested : Nested} {bound : Nat} {body : Content} (deeper : nested.Renders bound)
    (wellFormed : body.WellFormed) (small : sizeOf body < bound) :
    (file nested).Renders (Content.relabel .blind id) body (fun _ => True) (Shows [none]) := by
  have written := (deeper.content body wellFormed small).mono (fun _ => Shows.of_aheadOf)
    fun _ (shows' : Shows [none] _) => shows'.mono (by decide)
  exact ((Language.Renders.gap_shows (by decide)).bind fun _ _ => written.bind fun _ same =>
    (Language.Renders.sight_shows (by decide)).map fun _ _ => same).weaken fun _ _ => trivial

end Grammar

namespace Content

variable {content : Content}

/-- **Every well-formed tree can be written**: there is a source that is read as this tree, up to the
positions in it. -/
theorem exists_parse (wellFormed : content.WellFormed) : ∃ source read,
    parse source = .ok read ∧ read.relabel .blind id = content.relabel .blind id := by
  obtain ⟨written, lexemes, spelled, same, writable⟩ := Grammar.renders_file
    (Grammar.renders_ofDepth (sizeOf content + 1)) wellFormed (Nat.lt_succ_self _)
  obtain ⟨text, writes⟩ := writable Position.start
  obtain ⟨⟨lexemes', alike, flows⟩, _⟩ := writes [] (List.mem_singleton_self _)
  obtain ⟨read, spelled', same'⟩ := Grammar.transfers_file
    (Grammar.transfers_ofDepth (Nat.le_refl _)) written lexemes lexemes' spelled alike
  have start : Cursor.ofString (String.ofList text) = ⟨text ++ [], Position.start⟩ := by
    rw [Cursor.ofString, String.toList_ofList, List.append_nil]
  rw [← start] at flows
  exact ⟨String.ofList text, read, parse_eq_ok_iff.2 ⟨_, lexemes', _, spelled', flows⟩,
    same'.trans same⟩

/-- An empty line, text that begins with a blank and ends in an underscore before a node, a class that
looks like a comment, and escaped text of two lines. -/
theorem exists_parse_lines :
    let place := Position.start
    let node : Node := .typed place (.absolute ⟨"t", place⟩ []) [⟨place, ⟨";c", place⟩⟩] none ⟨[], []⟩
    let tree : Content := ⟨[], [[], [.plain ⟨" <_", place⟩, .node node],
      [.escaped ⟨place, ⟨"a\nb", place⟩⟩]]⟩
    tree.WellFormed ∧ ∃ source read,
      parse source = .ok read ∧ read.relabel .blind id = tree.relabel .blind id := by
  intro place node tree
  have route : (TypePath.absolute ⟨"t", place⟩ []).WellFormed :=
    ⟨⟨by decide, List.all_eq_true.1 (by decide)⟩, ⟨by decide, by decide⟩, List.forall_mem_nil _⟩
  have declared : (TypePath.absolute ⟨"t", place⟩ []).IsDeclared := by
    show "t" ∉ nodeWords
    decide
  have parts : PartsWellFormed [⟨place, ⟨";c", place⟩⟩] none :=
    ⟨List.forall_mem_singleton.2 ⟨by decide, List.all_eq_true.1 (by decide)⟩, nofun⟩
  have inner : node.WellFormed := .typed route declared parts
    ⟨List.forall_mem_nil _, List.forall_mem_nil _, List.forall_mem_nil _⟩
  have middle : ∀ element ∈ ([.plain ⟨" <_", place⟩, .node node] : List LineElement),
      element.WellFormed :=
    List.forall_mem_cons.2 ⟨.plain ⟨by decide, List.forall_iff_forall_mem.1 (by decide)⟩,
      List.forall_mem_singleton.2 (.node inner)⟩
  have wellFormed : tree.WellFormed := by
    refine ⟨List.forall_mem_nil _, ?_, ?_⟩
    · exact List.forall_mem_cons.2 ⟨List.forall_mem_nil _, List.forall_mem_cons.2 ⟨middle,
        List.forall_mem_singleton.2 (List.forall_mem_singleton.2 .escaped)⟩⟩
    · exact List.forall_mem_cons.2 ⟨.nil, List.forall_mem_cons.2 ⟨.cons_cons trivial (.singleton _),
        List.forall_mem_singleton.2 (.singleton _)⟩⟩
  exact ⟨wellFormed, exists_parse wellFormed⟩

end Content

end TypedMarkup
