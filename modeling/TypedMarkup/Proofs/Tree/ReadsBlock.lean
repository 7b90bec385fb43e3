/-
**Reading blocks and nodes.** What `Parser.Reads` says of the parsers whose constructs nest, and of
a whole source.

* `Nested.Sound nested bound` is what they take from the parsers for what is nested deeper;
  `sound_ofDepth` ties the knot, where every level of nesting passes over a bracket of its own.
* `parse_stands`: all that the tree of a source records stands in the source.
* `parse_tells`: an error of a source is true of it. In particular reading never runs out of levels
  of nesting, of which a source has fewer than characters.
-/

import TypedMarkup.Proofs.Tree.ReadsProperty

namespace TypedMarkup.Parser

variable {source c : Cursor} {bound : Nat} {nested : Nested}

/-- What the parsers of nested constructs do: they are sound, and the levels of nesting they stand
for are enough while at most `bound` characters are left. -/
structure Nested.Sound (nested : Nested) (bound : Nat) : Prop where
  node : ∀ {source c}, c.head = some '[' → Reads source (bound + 1) nested.node c fun node after =>
    AllStand source node.parts ∧ after.rest.length + 1 ≤ c.rest.length
  content : ∀ {source c}, Reads source bound nested.content c fun content _ =>
    AllStand source content.parts

/-! ### Plain text -/

theorem plainText_stands (text : List Char) : plainText text <+: text := by
  fun_induction plainText text with
  | case1 => exact List.nil_prefix
  | case2 => exact List.nil_prefix
  | case3 => exact List.nil_prefix
  | case4 c rest _ _ ih => exact List.cons_prefix_cons.2 ⟨rfl, ih⟩

theorem endsText_of_mem_plainText {text : List Char} :
    ∀ c ∈ plainText text, endsText c = false := by
  fun_induction plainText text with
  | case1 => simp
  | case2 => simp
  | case3 => simp
  | case4 c rest _ plain ih =>
    intro x member
    rcases List.mem_cons.1 member with rfl | member
    · simpa using plain
    · exact ih x member

/-- Plain text is not empty where neither a character that ends it nor an ignored node stands. -/
theorem plainText_ne_nil {x : Char} (found : c.head = some x) (plain : ¬ endsText x = true)
    (notNode : ¬ (c.head = some '_' && c.second = some '[') = true) : plainText c.rest ≠ [] := by
  unfold plainText
  split
  · next empty => simp [Cursor.head, empty] at found
  · next split => exact absurd (by simp [Cursor.head, Cursor.second, split]) notNode
  · next y rest _ split =>
    obtain rfl : y = x := by simpa [Cursor.head, split] using found
    rw [if_neg plain]
    exact List.cons_ne_nil _ _

namespace Reads

/-! ### Preambles -/

theorem declaredProperties {uses : List ClassRef} {parsing : Construct} :
    Reads source bound (declaredProperties uses parsing) c fun block _ =>
      AllStand source (blockParts block) := by
  unfold Parser.declaredProperties
  apply head_bind
  split
  · next found =>
    refine (propertyBlock found).bind fun block after _ read => pure ?_
    rw [blockParts_some]
    exact read.1
  · split
    · exact fail (List.cons_ne_nil _ _) (by simp) started_none
    · exact pure (AllStand.nil.2 trivial)

theorem classDeclaration : Reads source bound classDeclaration c fun directive _ =>
    AllStand source directive.parts := by
  unfold Parser.classDeclaration
  apply head_bind
  dsimp only
  split
  · exact fail_bind (List.cons_ne_nil _ _) (by simp) started_none
  · next found =>
    refine (classRef (Decidable.not_not.1 found)).bind fun declared _ _ kept => skip.bind fun _ _ _ _ => ?_
    refine typePaths.bind fun targets _ _ kept' => classes.bind fun uses _ _ kept'' => ?_
    refine declaredProperties.bind fun block _ _ kept''' => pure ?_
    rw [Directive.parts, declarationParts, AllStand.cons, AllStand.append, AllStand.append]
    exact ⟨kept.1, ⟨kept'.1, kept''.1⟩, kept'''⟩

theorem defaultDeclaration : Reads source bound defaultDeclaration c fun directive _ =>
    AllStand source directive.parts := by
  unfold Parser.defaultDeclaration
  refine typePaths.bind fun targets _ _ kept => classes.bind fun uses _ _ kept' => ?_
  refine declaredProperties.bind fun block _ _ kept'' => pure ?_
  rw [Directive.parts, declarationParts, AllStand.append, AllStand.append]
  exact ⟨⟨kept.1, kept'.1⟩, kept''⟩

theorem valueBinding : Reads source bound valueBinding c fun directive _ =>
    AllStand source directive.parts := by
  unfold Parser.valueBinding
  refine name.bind fun bound _ _ kept => skip.bind fun _ _ _ _ => ?_
  refine value.bind fun value _ _ kept' => pure ?_
  simp only [Directive.parts, AllStand.cons, AllStand.nil, and_true]
  exact ⟨kept.1, kept'.1⟩

/-- Behind the bracket of a bound content there is less left than before it, so one level fewer is
enough. -/
theorem contentBinding (sound : nested.Sound bound) :
    Reads source (bound + 1) (contentBinding nested) c fun directive _ =>
      AllStand source directive.parts := by
  unfold Parser.contentBinding
  refine name.bind fun word _ _ kept => skip.bind fun _ there _ _ => ?_
  refine (expect started_none).bind_shorter 1 fun _ inside _ opened => ⟨opened.2.2, ?_⟩
  refine Reads.here fun reaches => position_bind (skip.bind fun _ first moves _ => ?_)
  refine sound.content.bind fun body last moves' kept' => ?_
  refine (expect (started_some reaches (moves.trans moves'))).bind fun _ _ _ _ => pure ?_
  rw [Directive.parts, AllStand.cons]
  exact ⟨kept.1, kept'⟩

theorem directive (sound : nested.Sound bound) :
    Reads source (bound + 1) (directive nested) c fun directive _ =>
      AllStand source directive.parts := by
  unfold Parser.directive
  apply head_bind
  dsimp only
  split
  · exact fail_bind (List.cons_ne_nil _ _) (by simp [preambleKeywords]) started_none
  · refine name.bind fun keyword _ _ kept => skip.bind fun _ _ _ _ => ?_
    split
    · exact classDeclaration
    · exact contentBinding sound
    · exact defaultDeclaration
    · exact valueBinding
    · next notClasses notContent notDefaults notValue =>
      refine failAt (List.cons_ne_nil _ _) kept.1 ?_
      intro expected
      simp only [preambleKeywords, List.mem_cons, Expectation.keyword.injEq, List.not_mem_nil,
        or_false] at expected
      rcases expected with same | same | same | same
      · exact notClasses (by rw [same, Keyword.ofSpelling?_spelling])
      · exact notContent (by rw [same, Keyword.ofSpelling?_spelling])
      · exact notDefaults (by rw [same, Keyword.ofSpelling?_spelling])
      · exact notValue (by rw [same, Keyword.ofSpelling?_spelling])

theorem fallbackMark : Reads source bound fallbackMark c fun mark _ =>
    AllStand source (mark.toList.map Part.fallback) := by
  unfold Parser.fallbackMark
  apply head_bind
  split
  · next found =>
    refine Reads.here fun reaches => position_bind ?_
    refine (advance found).bind fun _ _ _ _ => skip.bind fun _ _ _ _ => pure ?_
    exact AllStand.cons.2 ⟨reaches.finds found, AllStand.nil.2 trivial⟩
  · exact pure (AllStand.nil.2 trivial)

theorem preambleElement (sound : nested.Sound bound) (found : c.head = some '<') :
    Reads source (bound + 1) (preambleElement nested) c fun element after =>
      AllStand source element.parts ∧ after.rest.length + 1 ≤ c.rest.length := by
  unfold Parser.preambleElement
  refine here fun reaches => position_bind ((advance found).bind fun _ inside moves passed => ?_)
  obtain ⟨_, short⟩ := passed
  refine skip.bind fun _ there moved _ => fallbackMark.bind fun mark middle moved' kept => ?_
  refine (directive sound).bind fun read last moved'' kept' => skip.bind fun _ end_ moved''' _ => ?_
  have leads := ((moved.trans moved').trans moved'').trans moved'''
  refine (expect (started_some reaches (moves.trans leads))).bind fun _ after _ closed => ?_
  have fewer := leads.length_le
  refine pure ⟨?_, by omega⟩
  rw [PreambleElement.parts, AllStand.append, AllStand.cons]
  exact ⟨⟨reaches.finds found, kept⟩, kept'⟩

theorem preambleRound (sound : nested.Sound bound) :
    Reads source (bound + 1) (preambleRound nested) c
      (Goes (fun element => AllStand source element.parts)
        (fun after => after.head ≠ some '<') c) := by
  apply head_bind
  split
  · next found =>
    refine (preambleElement sound found).bind fun element _ _ read => ?_
    refine skip.bind fun _ after moves _ => ?_
    have fewer := moves.length_le
    exact pure ⟨by omega, read.1⟩
  · next other => exact pure other

theorem preamble (sound : nested.Sound bound) :
    Reads source (bound + 1) (preamble nested) c fun elements after =>
      AllStand source (preambleParts elements) ∧ after.head ≠ some '<' := by
  refine (many _ _ fun _ _ => preambleRound sound).mono fun elements _ _ read => ?_
  exact ⟨preambleParts_eq elements ▸ AllStand.flatMap read.1, read.2⟩

/-! ### Lines -/

theorem atIgnoredNode_bind {α : Type} {next : Bool → Parser α} {holds : α → Cursor → Prop}
    (reads : Reads source bound (next (c.head = some '_' && c.second = some '[')) c holds) :
    Reads source bound (atIgnoredNode >>= next) c holds :=
  reads

theorem ignoredNode (sound : nested.Sound bound) (first : c.head = some '_')
    (second : c.second = some '[') :
    Reads source (bound + 1) (ignoredNode nested) c fun _ after =>
      after.rest.length + 1 ≤ c.rest.length := by
  unfold Parser.ignoredNode
  refine (advance first).bind fun _ inside _ passed => ?_
  obtain ⟨rfl, short⟩ := passed
  have bracket : (c.behind ['_']).head = some '[' := by
    rw [Cursor.behind_head, ← second]
    simp [Cursor.second]
  refine (sound.node bracket).bind fun node after _ read => pure ?_
  omega

theorem textPiece (sound : nested.Sound bound) : Reads source (bound + 1) (textPiece nested) c
    (Goes (fun piece => ∀ y ∈ piece, endsText y = false) (fun _ => True) c) := by
  unfold Parser.textPiece
  apply head_bind
  split
  · exact pure trivial
  · next y head =>
    split
    · exact pure trivial
    · next plain =>
      refine atIgnoredNode_bind ?_
      split
      · next atNode =>
        simp only [Bool.and_eq_true, decide_eq_true_eq] at atNode
        exact (ignoredNode sound atNode.1 atNode.2).bind fun _ _ _ shorter => pure shorter
      · next notNode =>
        refine (take (plainText_stands _)).bind fun piece behind _ got => ?_
        obtain ⟨rfl, rfl⟩ := got
        have nonempty := plainText_ne_nil head plain notNode
        have short := Cursor.behind_shorter (plainText_stands c.rest) nonempty
        exact pure ⟨by omega, endsText_of_mem_plainText⟩

/-- A run of text passes over the ignored nodes inside and keeps the rest. -/
theorem textRun (sound : nested.Sound bound) {x : Char} (found : c.head = some x)
    (fits : x = '[' ∨ endsText x = false) :
    Reads source (bound + 1) (textRun nested) c fun run after =>
      run.Stands source ∧ after.rest.length + 1 ≤ c.rest.length := by
  unfold Parser.textRun
  refine here fun reaches => position_bind ?_
  have one := Cursor.take_one_of_head found
  refine (take (Cursor.take_one_stands c)).bind fun first inside _ got => ?_
  obtain ⟨rfl, rfl⟩ := got
  have short := Cursor.behind_shorter (Cursor.take_one_stands c) (by rw [one]; simp)
  refine (many _ _ fun _ _ => textPiece sound).bind fun pieces after moves kept => ?_
  have fewer := moves.length_le
  refine pure ⟨reaches.finds ?_, by omega⟩
  refine ⟨x, pieces.flatten, ?_, found, fits, ?_⟩
  · rw [String.toList_ofList, one, List.singleton_append]
  · intro y member
    obtain ⟨piece, inside, member⟩ := List.mem_flatten.1 member
    exact kept.1 piece inside y member

/-- Whether a line ends at a cursor. -/
def EndsLine (c : Cursor) : Prop :=
  c.head = none ∨ c.head = some '\r' ∨ c.head = some '\n' ∨ c.head = some ']'

theorem lineElement (sound : nested.Sound bound) : Reads source (bound + 1) (lineElement nested) c
    (Goes (fun element => AllStand source element.parts) EndsLine c) := by
  unfold Parser.lineElement
  apply head_bind
  split
  · next found => exact pure (.inl found)
  · next found => exact pure (.inr (.inl found))
  · next found => exact pure (.inr (.inr (.inl found)))
  · next found => exact pure (.inr (.inr (.inr found)))
  · next found =>
    exact (sound.node found).bind fun node _ _ read => pure ⟨read.2, read.1⟩
  · next found =>
    refine (escapedText found).bind fun text _ _ read => pure ⟨read.2, ?_⟩
    exact AllStand.cons.2 ⟨read.1, AllStand.nil.2 trivial⟩
  · next x notReturn notFeed notClose notOpen notQuote found =>
    refine atIgnoredNode_bind ?_
    split
    · next atNode =>
      simp only [Bool.and_eq_true, decide_eq_true_eq] at atNode
      exact (ignoredNode sound atNode.1 atNode.2).bind fun _ _ _ short => pure short
    · have fits : endsText x = false :=
        endsText_eq_false_iff.2 ⟨notReturn, notFeed, notQuote, notOpen, notClose⟩
      refine (textRun sound found (.inr fits)).bind fun run _ _ read => pure ⟨read.2, ?_⟩
      exact AllStand.cons.2 ⟨read.1, AllStand.nil.2 trivial⟩

theorem line (sound : nested.Sound bound) :
    Reads source (bound + 1) (line nested) c fun elements after =>
      AllStand source (lineParts elements) ∧ EndsLine after := by
  refine (many _ _ fun _ _ => lineElement sound).mono fun elements _ _ read => ?_
  exact ⟨lineParts_eq elements ▸ AllStand.flatMap read.1, read.2⟩

/-- Where a line starts, no line ends, so every line moves. -/
theorem lineRound (sound : nested.Sound bound) : Reads source (bound + 1) (lineRound nested) c
    (Goes (fun elements => AllStand source (lineParts elements))
      (fun after => after.head = none ∨ after.head = some ']') c) := by
  refine skip.bind fun _ inside moves passed => head_bind ?_
  split
  · next found => exact pure (.inl found)
  · next found => exact pure (.inr found)
  · next x notClose found =>
    refine (line sound).bind fun elements after moves' read => pure ⟨?_, read.1⟩
    have fewer := moves.length_le
    refine Nat.lt_of_not_le fun same => ?_
    obtain rfl := moves'.eq_of_length_le (by omega)
    have space : isSpace x = false :=
      isSpace_of_trivia?_eq_none (Cursor.rest_of_head found ▸ passed.2)
    rcases read.2 with ends | ends | ends | ends
    · simp [found] at ends
    · obtain rfl : x = '\r' := by simpa [found] using ends
      simp [isSpace] at space
    · obtain rfl : x = '\n' := by simpa [found] using ends
      simp [isSpace] at space
    · obtain rfl : x = ']' := by simpa [found] using ends
      exact notClose rfl

theorem lines (sound : nested.Sound bound) :
    Reads source (bound + 1) (lines nested) c fun read after =>
      AllStand source (linesParts read) ∧ (after.head = none ∨ after.head = some ']') :=
  (many _ _ fun _ _ => lineRound sound).mono fun read _ _ kept =>
    ⟨linesParts_eq read ▸ AllStand.flatMap kept.1, kept.2⟩

theorem content (sound : nested.Sound bound) :
    Reads source (bound + 1) (content nested) c fun content _ =>
      AllStand source content.parts := by
  unfold Parser.content
  refine (preamble sound).bind fun elements _ _ kept => (lines sound).bind fun read _ _ kept' => ?_
  refine pure ?_
  rw [Content.parts, AllStand.append]
  exact ⟨kept.1, kept'.1⟩

/-! ### Nodes -/

theorem textElement (sound : nested.Sound bound) : Reads source (bound + 1) (textElement nested) c
    (Goes (fun element => (TextElement.part element).Stands source) (fun _ => True) c) := by
  unfold Parser.textElement
  apply head_bind
  split
  · exact pure trivial
  · exact pure trivial
  · exact pure trivial
  · exact pure trivial
  · next found =>
    exact (escapedText found).bind fun text _ _ read => pure ⟨read.2, read.1⟩
  · next x notReturn notFeed notClose notQuote found =>
    refine atIgnoredNode_bind ?_
    split
    · next atNode =>
      simp only [Bool.and_eq_true, decide_eq_true_eq] at atNode
      exact (ignoredNode sound atNode.1 atNode.2).bind fun _ _ _ short => pure short
    · have fits : x = '[' ∨ endsText x = false := by
        by_cases bracket : x = '['
        · exact .inl bracket
        · exact .inr (endsText_eq_false_iff.2 ⟨notReturn, notFeed, notQuote, bracket, notClose⟩)
      exact (textRun sound found fits).bind fun run _ _ read => pure ⟨read.2, read.1⟩

theorem textElements (sound : nested.Sound bound) :
    Reads source (bound + 1) (textElements nested) c fun elements _ =>
      AllStand source (elements.map TextElement.part) := by
  refine (many _ _ fun _ _ => textElement sound).mono fun _ _ _ kept => ?_
  exact List.forall_mem_map.2 kept.1

theorem textNode {start : Position} {keyword : Option Word} (sound : nested.Sound bound)
    (open_ : source.FindsChar start '[')
    (word : AllStand source (keyword.toList.map Part.keyword)) :
    Reads source (bound + 1) (textNode nested start keyword) c fun node _ =>
      AllStand source node.parts := by
  unfold Parser.textNode
  refine classes.bind fun uses _ _ kept => properties.bind fun block _ _ kept' => ?_
  refine (textElements sound).bind fun elements _ _ kept'' => pure ?_
  simp only [Node.parts, AllStand.append, AllStand.cons]
  exact ⟨⟨⟨⟨open_, word⟩, kept.1⟩, kept'⟩, kept''⟩

theorem typedNode {start : Position} {path : TypePath} (sound : nested.Sound bound)
    (open_ : source.FindsChar start '[') (stands : path.Stands source) :
    Reads source (bound + 1) (typedNode nested start path) c fun node _ =>
      AllStand source node.parts := by
  unfold Parser.typedNode
  refine classes.bind fun uses _ _ kept => properties.bind fun block _ _ kept' => ?_
  refine (content sound).bind fun body _ _ kept'' => pure ?_
  simp only [Node.parts, AllStand.append, AllStand.cons]
  exact ⟨⟨⟨open_, stands, kept.1⟩, kept'⟩, kept''⟩

theorem namedNode {start : Position} {first : Word} (sound : nested.Sound bound)
    (open_ : source.FindsChar start '[') (stands : first.Stands source isNameChar) :
    Reads source (bound + 1) (namedNode nested start first) c fun node _ =>
      AllStand source node.parts := by
  unfold Parser.namedNode
  split
  · refine skip.bind fun _ _ _ _ => textNode sound open_ ?_
    exact AllStand.cons.2 ⟨stands, AllStand.nil.2 trivial⟩
  · refine skip.bind fun _ _ _ _ => classes.bind fun uses _ _ kept => ?_
    refine properties.bind fun block _ _ kept' => pure ?_
    simp only [Node.parts, AllStand.append, AllStand.cons]
    exact ⟨⟨open_, kept.1⟩, kept'⟩
  · refine skip.bind fun _ _ _ _ => classes.bind fun uses _ _ kept => ?_
    refine properties.bind fun block _ _ kept' => ?_
    refine (preamble sound).bind fun elements _ _ kept'' => pure ?_
    simp only [Node.parts, AllStand.append, AllStand.cons]
    exact ⟨⟨⟨open_, kept.1⟩, kept'⟩, kept''.1⟩
  · refine skip.bind fun _ _ _ _ => name.bind fun used _ _ kept => skip.bind fun _ _ _ _ => ?_
    refine (preamble sound).bind fun elements _ _ kept' => pure ?_
    simp only [Node.parts, AllStand.cons]
    exact ⟨open_, kept.1, kept'.1⟩
  · refine skip.bind fun _ _ _ _ => name.bind fun used _ _ kept => skip.bind fun _ _ _ _ => ?_
    refine pure ?_
    simp only [Node.parts, AllStand.cons, AllStand.nil]
    exact ⟨open_, kept.1, trivial⟩
  · refine childSteps.bind fun steps _ _ kept => skip.bind fun _ _ _ _ => ?_
    exact typedNode sound open_ ⟨stands, kept.1⟩

theorem nodeBody {start : Position} (sound : nested.Sound bound)
    (started : Started source c (some start)) (open_ : source.FindsChar start '[') :
    Reads source (bound + 1) (nodeBody nested start) c fun node _ =>
      AllStand source node.parts := by
  unfold Parser.nodeBody
  apply head_bind
  split
  · refine (content sound).bind fun body _ _ kept => pure ?_
    rw [Node.parts, AllStand.cons]
    exact ⟨open_, kept⟩
  · exact textNode sound open_ (AllStand.nil.2 trivial)
  · exact textNode sound open_ (AllStand.nil.2 trivial)
  · next found =>
    refine childSteps.bind fun steps _ _ kept => skip.bind fun _ _ _ _ => ?_
    exact typedNode sound open_ ⟨(kept.2 found).1, kept.1⟩
  · split
    · exact name.bind fun first _ _ kept => namedNode sound open_ kept.1
    · exact fail (List.cons_ne_nil _ _) (by simp [nodeStarts]) started

/-- Behind the bracket of a node there is less left than before it, so one level fewer is
enough. -/
theorem node (sound : nested.Sound bound) (found : c.head = some '[') :
    Reads source (bound + 2) (node nested) c fun node after =>
      AllStand source node.parts ∧ after.rest.length + 1 ≤ c.rest.length := by
  unfold Parser.node
  refine here fun reaches => position_bind ?_
  refine (advance found).bind_shorter 1 fun _ inside moves passed => ⟨passed.2, ?_⟩
  obtain ⟨_, short⟩ := passed
  refine skip.bind fun _ there moved _ => ?_
  have started := started_some reaches (moves.trans moved)
  refine (nodeBody sound started (reaches.finds found)).bind fun read last moved' kept => ?_
  have leads := moved.trans moved'
  refine (expect (started_some reaches (moves.trans leads))).bind fun _ after _ closed => ?_
  have fewer := leads.length_le
  exact pure ⟨kept, by omega⟩

end Reads

/-! ### Nesting -/

/-- So many levels of nesting are enough for so many characters. -/
theorem sound_ofDepth (depth : Nat) : (Nested.ofDepth depth).Sound depth := by
  induction depth with
  | zero =>
    refine ⟨fun {source c} found _ => ?_, fun {source c} _ => ?_⟩
    · show 0 + 1 ≤ c.rest.length
      rw [Cursor.rest_of_head found]
      simp
    · exact Nat.zero_le _
  | succ depth ih => exact ⟨fun found => Reads.node ih found, Reads.content ih⟩

theorem Reads.file (sound : nested.Sound bound) :
    Reads source bound (file nested) c fun content _ => AllStand source content.parts := by
  unfold Parser.file
  refine skip.bind fun _ _ _ _ => sound.content.bind fun read last _ kept => head_bind ?_
  split
  · next some =>
    refine fail_bind (List.cons_ne_nil _ _) ?_ started_none
    cases found : last.head with
    | none => simp [found] at some
    | some x => simp
  · exact pure kept

end TypedMarkup.Parser

namespace TypedMarkup.Content

/-- The parser of a whole source, run on it, gives what parsing it gives. There are always levels
of nesting left. -/
theorem parse_eq (source : String) :
    match Parser.file (.ofDepth (source.length + 1)) (Cursor.ofString source) with
    | .ok (content, _) =>
      parse source = .ok content ∧ AllStand (Cursor.ofString source) content.parts
    | .error (.malformed error) =>
      parse source = .error error ∧ error.Tells (Cursor.ofString source)
    | .error .exhausted => False := by
  have sound := Parser.sound_ofDepth (source.length + 1)
  have reads := Parser.Reads.file sound (.refl (Cursor.ofString source))
  cases run : Parser.file (.ofDepth (source.length + 1)) (Cursor.ofString source) with
  | ok result =>
    obtain ⟨content, after⟩ := result
    rw [run] at reads
    refine ⟨?_, reads.2⟩
    simp only [parse, parseWithin, StateT.run', run]
    rfl
  | error failure =>
    rw [run] at reads
    cases failure with
    | malformed error =>
      refine ⟨?_, reads⟩
      simp only [parse, parseWithin, StateT.run', run]
      rfl
    | exhausted =>
      have short : source.length + 1 ≤ source.toList.length := reads
      rw [String.length_toList] at short
      omega

/-- **What a tree records stands in its source.** -/
theorem parse_stands {source : String} {content : Content} (parsed : parse source = .ok content) :
    AllStand (Cursor.ofString source) content.parts := by
  have ran := parse_eq source
  split at ran
  · next other _ _ =>
    obtain rfl : other = content := by simpa [parsed] using ran.1.symm
    exact ran.2
  · simp [parsed] at ran
  · exact ran.elim

/-- **An error of a source is true of it.** -/
theorem parse_tells {source : String} {error : ParseError} (failed : parse source = .error error) :
    error.Tells (Cursor.ofString source) := by
  have ran := parse_eq source
  split at ran
  · simp [failed] at ran
  · next other _ =>
    obtain rfl : other = error := by simpa [failed] using ran.1.symm
    exact ran.2
  · exact ran.elim

end TypedMarkup.Content
