/-
**How a construct can be finished.** Wherever a construct has to stand, a short one can be written: a
name of one letter, an empty block, no classes at all.

* `Language.Finishes ahead language follow`: something in the language can be written before whatever
  shows one of `follow`, and together they show one of `ahead`. It chains: what the second of two
  constructs shows is what may follow the first (`Finishes.bind`).
* `Grammar.finishes_ofDepth`: so can whole blocks, to any depth but none.
-/

import TypedMarkup.Proofs.Grammar.Keeps

namespace TypedMarkup

namespace Language

open Lexeme (Writes)
open Text (Shows)

variable {α β : Type} {language second : Language α} {ahead middle follow : List (Option Char)}

/-- Something in the language can be written before what may follow it. -/
def Finishes (ahead : List (Option Char)) (language : Language α)
    (follow : List (Option Char)) : Prop :=
  ∃ a lexemes text, language a lexemes ∧ ∀ p rest, Shows follow rest →
    Writes lexemes text p rest ∧ Shows ahead (text ++ rest)

namespace Finishes

theorem mono {more less : List (Option Char)} (finishes : language.Finishes ahead follow)
    (sub : ahead ⊆ more) (sub' : less ⊆ follow) : language.Finishes more less := by
  obtain ⟨a, lexemes, text, spelled, writes⟩ := finishes
  exact ⟨a, lexemes, text, spelled, fun p rest shows' =>
    (writes p rest (shows'.mono sub')).imp_right (·.mono sub)⟩

theorem pure (a : α) : (Pure.pure a : Language α).Finishes follow follow :=
  ⟨a, [], [], ⟨rfl, rfl⟩, fun _ _ shows' => ⟨.nil, shows'⟩⟩

/-- What has been written, before something else. -/
theorem bind_of {next : α → Language β} {a : α} {lexemes : List Lexeme} {text : List Char}
    (spelled : language a lexemes)
    (writes : ∀ p rest, Shows middle rest → Writes lexemes text p rest ∧ Shows ahead (text ++ rest))
    (rest : (next a).Finishes middle follow) : (language >>= next).Finishes ahead follow := by
  obtain ⟨b, more, text', spelled', writes'⟩ := rest
  refine ⟨b, lexemes ++ more, text ++ text', ⟨a, lexemes, more, spelled, spelled', rfl⟩,
    fun p rest shows' => ?_⟩
  obtain ⟨later, shown⟩ := writes' (p.past text) rest shows'
  obtain ⟨first, shown⟩ := writes p (text' ++ rest) shown
  exact ⟨first.append later, by rwa [List.append_assoc]⟩

/-- **One after the other.** -/
theorem bind {next : α → Language β} (first : language.Finishes ahead middle)
    (rest : ∀ a, (next a).Finishes middle follow) : (language >>= next).Finishes ahead follow := by
  obtain ⟨a, lexemes, text, spelled, writes⟩ := first
  exact bind_of spelled writes (rest a)

theorem map {f : α → β} (first : language.Finishes ahead follow) :
    (language >>= fun a => Pure.pure (f a)).Finishes ahead follow :=
  first.bind fun a => pure (f a)

theorem left (first : language.Finishes ahead follow) :
    (language <|> second).Finishes ahead follow := by
  obtain ⟨a, lexemes, text, spelled, writes⟩ := first
  exact ⟨a, lexemes, text, .inl spelled, writes⟩

theorem right (later : second.Finishes ahead follow) :
    (language <|> second).Finishes ahead follow := by
  obtain ⟨a, lexemes, text, spelled, writes⟩ := later
  exact ⟨a, lexemes, text, .inr spelled, writes⟩

/-! ### Lexemes -/

/-- A gap without trivia. -/
theorem gap (ends : (LexemeKind.gap false).Ends follow) : gap.Finishes follow follow := by
  refine ⟨(), [⟨.gap false, Position.start, []⟩], [], ⟨_, _, rfl⟩, fun p rest shows' => ?_⟩
  have clear := Text.trivia?_of_head (by simpa [LexemeKind.endsAt] using ends _ shows')
  exact ⟨.single (triviaText_of_none clear).symm rfl, shows'⟩

/-- A gap of one line feed, which ends every word and text. -/
theorem gap_feed (ends : (LexemeKind.gap false).Ends follow) :
    Language.gap.Finishes [some '\n'] follow := by
  refine ⟨(), [⟨.gap false, Position.start, []⟩], ['\n'], ⟨_, _, rfl⟩, fun p rest shows' => ?_⟩
  have clear := Text.trivia?_of_head (by simpa [LexemeKind.endsAt] using ends _ shows')
  refine ⟨.single ?_ rfl, List.mem_singleton_self _⟩
  show ['\n'] = triviaText ('\n' :: rest)
  rw [triviaText_space rfl, triviaText_of_none clear]

theorem sign {x : Char} (inLine : x ≠ '\r' ∧ x ≠ '\n') : (sign x).Finishes [some x] follow := by
  refine ⟨Position.start, _, [x], rfl, fun _ _ _ => ⟨?_, List.mem_singleton_self _⟩⟩
  exact .single ⟨x, rfl, rfl, inLine⟩ rfl

/-- A word that is a name. -/
theorem writes_name {c : Char} {more : List Char} (allowed : ∀ x ∈ c :: more, isNameChar x = true)
    (ends : LexemeKind.name.Ends follow) (p : Position) (rest : List Char)
    (shows' : Shows follow rest) :
    Writes [⟨.name, Position.start, c :: more⟩] (c :: more) p rest ∧
      Shows [some c] (c :: more ++ rest) := by
  have ended : rest.head?.any isNameChar = false := by
    have ends := ends _ shows'
    simp only [LexemeKind.endsAt, Bool.and_eq_true, Bool.not_eq_true'] at ends
    exact ends.1
  have whole : (c :: more ++ []).takeWhile isNameChar = c :: more := by
    rw [List.takeWhile_append_of_pos allowed, List.takeWhile_nil, List.append_nil]
  exact ⟨.single ⟨(takeWhile_front whole ended).symm, List.cons_ne_nil _ _⟩ rfl,
    List.mem_singleton_self _⟩

/-- A name of one letter. -/
theorem name (ends : LexemeKind.name.Ends follow) : name.Finishes [some 'v'] follow := by
  have allowed : ['v'].all isNameChar = true := by decide
  have writes := writes_name (List.all_eq_true.1 allowed) ends
  exact ⟨⟨"v", Position.start⟩, [⟨.name, Position.start, ['v']⟩], ['v'], rfl, writes⟩

/-- A given name. -/
theorem name_bind {next : Word → Language α} {c : Char} {more : List Char}
    (allowed : ∀ x ∈ c :: more, isNameChar x = true) (ends : LexemeKind.name.Ends middle)
    (rest : (next ⟨String.ofList (c :: more), Position.start⟩).Finishes middle follow) :
    (Language.name >>= next).Finishes [some c] follow := by
  refine bind_of ?_ (writes_name allowed ends) rest
  show _ = [_]
  rw [String.toList_ofList]

/-- Escaped text without text. -/
theorem escaped : escaped.Finishes [some '\x60'] follow := by
  refine ⟨⟨Position.start, ⟨"", Position.start.after '\x60'⟩⟩,
    [⟨.escaped [], Position.start, ['\x60', '\x60']⟩], ['\x60', '\x60'], ⟨_, rfl, rfl⟩, ?_⟩
  intro _ _ _
  exact ⟨.single ⟨['\x60'], rfl, rfl, rfl⟩ rfl, List.mem_singleton_self _⟩

theorem sight {seen : Sight} (ends : (LexemeKind.sight seen).Ends follow) :
    (sight seen).Finishes follow follow := by
  refine ⟨(), [⟨.sight seen, Position.start, []⟩], [], ⟨_, rfl⟩, fun p rest shows' => ⟨?_, shows'⟩⟩
  have sees : Lexeme.EndsBefore [] rest ⟨.sight seen, Position.start, []⟩ :=
    Lexeme.endsBefore_of_shows ends (fun _ same => LexemeKind.noConfusion same) shows'
  exact .single ⟨rfl, sees⟩ rfl

theorem guard {holds : Prop} (here : holds) : (guard holds).Finishes follow follow :=
  ⟨(), [], [], ⟨here, rfl⟩, fun _ _ shows' => ⟨.nil, shows'⟩⟩

/-! ### Repetitions -/

open TypedMarkup.Parser (Round)

/-- No items, where their repetition stops. -/
theorem rounds {round : Language (Round α)} (stop : Language Unit)
    (stops : ∀ lexemes, stop () lexemes → round .stop lexemes) (last : stop.Finishes ahead follow) :
    (Language.rounds round).Finishes ahead follow := by
  obtain ⟨_, lexemes, text, spelled, writes⟩ := last
  exact ⟨[], lexemes, text, .stop (stops lexemes spelled), writes⟩

/-- No items, where something else is seen. -/
theorem items {item : Language (Round α)} {seen : Sight}
    (ends : (LexemeKind.sight seen).Ends follow) :
    (Language.rounds (item <|> (do
      Language.sight seen
      return .stop))).Finishes follow follow := by
  refine rounds _ (fun _ spelled => ?_) (sight ends)
  exact .inr (map_iff.2 ⟨(), spelled, rfl⟩)

theorem stops {item : Language (Round α)} {seen : Sight}
    (ends : (LexemeKind.sight seen).Ends follow) :
    (Language.rounds ((do
      Language.sight seen
      return .stop) <|> item)).Finishes follow follow := by
  refine rounds _ (fun _ spelled => ?_) (sight ends)
  exact .inl (map_iff.2 ⟨(), spelled, rfl⟩)

/-- No items behind a gap, where something is seen. -/
theorem gap_items {item : Language (Round α)} {seen : Sight}
    (gapEnds : (LexemeKind.gap false).Ends follow) (ends : (LexemeKind.sight seen).Ends follow) :
    (Language.rounds (do
      Language.gap
      (do
        Language.sight seen
        return .stop) <|> item)).Finishes follow follow := by
  refine rounds (Language.gap >>= fun _ => Language.sight seen) ?_
    ((gap gapEnds).bind fun _ => sight ends)
  rintro _ ⟨_, before, after, gap, seen, rfl⟩
  exact ⟨_, before, after, gap, .inl (map_iff.2 ⟨(), seen, rfl⟩), rfl⟩

/-! ### Classes, type paths and properties -/

open Grammar (Follow.name Follow.setting Follow.element Follow.parts Follow.block)

theorem classRef (ends : LexemeKind.name.Ends follow) :
    Grammar.classRef.Finishes [some '.'] follow :=
  (sign (by decide)).bind fun _ => (name ends).map

/-- No classes. -/
theorem classes : Grammar.classes.Finishes Follow.parts Follow.parts :=
  items (by decide)

/-- No steps. -/
theorem childSteps : Grammar.childSteps.Finishes Follow.parts Follow.parts :=
  items (by decide)

/-- No type paths. -/
theorem typePaths : Grammar.typePaths.Finishes Follow.parts Follow.parts := by
  refine rounds (Language.gap >>= fun _ => Language.sight .noPath) ?_
    ((gap (by decide)).bind fun _ => sight (by decide))
  rintro _ ⟨_, before, after, gap, seen, rfl⟩
  exact ⟨_, before, after, gap, .inr (.inr (map_iff.2 ⟨(), seen, rfl⟩)), rfl⟩

theorem value : Grammar.value.Finishes [some '\x60'] follow :=
  right (left escaped.map)

/-- No settings. -/
theorem settings : Grammar.settings.Finishes Follow.setting Follow.setting :=
  gap_items (by decide) (by decide)

/-- No main value. -/
theorem mainValue : Grammar.mainValue.Finishes Follow.setting Follow.setting :=
  right (sight (by decide)).map

/-- The rest of a property block behind its opening brace. -/
theorem propertyBlock : Grammar.propertyBlock.Finishes [some '\x7b'] follow :=
  (sign (by decide)).bind fun _ => (gap (by decide)).bind fun _ => mainValue.bind fun _ =>
    settings.bind fun _ => (sign (by decide)).map

/-- No property block. -/
theorem properties : Grammar.properties.Finishes Follow.block Follow.block :=
  right (sight (by decide)).map

/-! ### Preambles -/

/-- An empty property block, with or without classes. -/
theorem declaredProperties (uses : List ClassRef) :
    (Grammar.declaredProperties uses).Finishes [some '\x7b'] follow :=
  left propertyBlock.map

/-- What a declaration names and how, behind what it declares. -/
theorem declaration
    {next : List TypePath → List ClassRef → Option PropertyBlock → Directive} : (do
      let targets ← Grammar.typePaths
      let uses ← Grammar.classes
      return next targets uses (← Grammar.declaredProperties uses)).Finishes Follow.parts
        follow := by
  refine typePaths.bind fun _ => ?_
  refine classes.bind fun _ => ?_
  exact ((declaredProperties _).mono (by decide) (List.Subset.refl _)).map

theorem classDeclaration : Grammar.classDeclaration.Finishes [some '.'] follow :=
  (classRef (by decide)).bind fun _ => (gap (by decide)).bind fun _ => declaration

theorem valueBinding : Grammar.valueBinding.Finishes [some 'v'] follow :=
  (name (by decide)).bind fun _ => (gap (by decide)).bind fun _ => value.map

/-- A value bound to a name. -/
theorem directive (nested : Grammar.Nested) :
    (Grammar.directive nested).Finishes [some 'v'] follow := by
  have spelt : Keyword.ofSpelling? (String.ofList ['v', 'a', 'l']) = some .value := by decide
  have ends : LexemeKind.name.Ends [some '\n'] := by decide
  have word : ['v', 'a', 'l'].all isNameChar = true := by decide
  refine name_bind (List.all_eq_true.1 word) ends ?_
  have clear : (LexemeKind.gap false).Ends [some 'v'] := by decide
  refine (gap_feed clear).bind fun _ => ?_
  dsimp only
  rw [spelt]
  exact valueBinding

/-- No fallback. -/
theorem fallbackMark : Grammar.fallbackMark.Finishes [some 'v'] [some 'v'] :=
  right (sight (by decide)).map

/-- No preamble. -/
theorem preamble (nested : Grammar.Nested) :
    (Grammar.preamble nested).Finishes Follow.block Follow.block :=
  items (by decide)

/-! ### Blocks and nodes -/

variable {nested : Grammar.Nested} {start : Position}

/-- No lines. -/
theorem lines (nested : Grammar.Nested) :
    (Grammar.lines nested).Finishes Follow.block Follow.block :=
  gap_items (by decide) (by decide)

/-- An empty block. -/
theorem content (nested : Grammar.Nested) :
    (Grammar.content nested).Finishes Follow.block Follow.block := by
  refine (preamble nested).bind fun _ => ?_
  exact (lines nested).map

/-- An empty content for a name. -/
theorem contentBinding (inside : nested.content.Finishes Follow.block Follow.block) :
    (Grammar.contentBinding nested).Finishes [some 'v'] follow :=
  (name (by decide)).bind fun _ => (gap_feed (by decide)).bind fun _ => (sign (by decide)).bind
    fun _ => (gap (by decide)).bind fun _ => inside.bind fun _ =>
      ((sign (by decide)).mono (by decide) (List.Subset.refl _)).map

/-- No pieces of text. -/
theorem textPieces (nested : Grammar.Nested) :
    (Language.rounds (Grammar.textPiece nested)).Finishes Follow.block Follow.block :=
  stops (by decide)

/-- No elements of a line. -/
theorem line (nested : Grammar.Nested) :
    (Grammar.line nested).Finishes Follow.block Follow.block :=
  stops (by decide)

/-- No elements of a text node. -/
theorem textElements (nested : Grammar.Nested) :
    (Grammar.textElements nested).Finishes Follow.block Follow.block :=
  stops (by decide)

/-- Neither classes nor properties, before something else. -/
theorem parts_bind {α : Type} {next : List ClassRef → Option PropertyBlock → Language α}
    (rest : ∀ uses block, (next uses block).Finishes Follow.block Follow.block) : (do
      let uses ← Grammar.classes
      let block ← Grammar.properties
      next uses block).Finishes Follow.parts Follow.block :=
  bind (classes.mono (List.Subset.refl _) (by decide)) fun _ => properties.bind fun _ => rest _ _

theorem textNode (nested : Grammar.Nested) (start : Position) (keyword : Option Word) :
    (Grammar.textNode nested start keyword).Finishes Follow.parts Follow.block := by
  refine parts_bind fun _ _ => ?_
  exact (textElements nested).map

theorem typedNode (nested : Grammar.Nested) (start : Position) (path : TypePath) :
    (Grammar.typedNode nested start path).Finishes Follow.parts Follow.block := by
  refine parts_bind fun _ _ => ?_
  exact (content nested).map

/-- The rest of a node of a declared type, behind the first name of its path. -/
theorem typedPath {next : List ChildStep → TypePath} : (do
      let steps ← Grammar.childSteps
      Language.gap
      Grammar.typedNode nested start (next steps)).Finishes Follow.parts Follow.block := by
  refine childSteps.bind fun _ => ?_
  refine (gap (by decide)).bind fun _ => ?_
  exact typedNode nested start _

theorem namedNode (nested : Grammar.Nested) (start : Position) (first : Word) :
    (Grammar.namedNode nested start first).Finishes Follow.name Follow.block := by
  have typed : (do
      let steps ← Grammar.childSteps
      Language.gap
      Grammar.typedNode nested start (.absolute first steps)).Finishes Follow.name Follow.block :=
    typedPath.mono (by decide) (List.Subset.refl _)
  have later {next : Unit → Language Node} (rest : ∀ a, (next a).Finishes Follow.parts Follow.block) :
      (Language.gap >>= next).Finishes Follow.name Follow.block := by
    have clear : (LexemeKind.gap false).Ends Follow.parts := by decide
    exact ((gap clear).bind rest).mono (by decide) (List.Subset.refl _)
  have named {next : Word → Language Node} (rest : ∀ a, (next a).Finishes Follow.block Follow.block) :
      (do
        Language.gap
        let used ← Language.name
        Language.gap
        next used).Finishes Follow.name Follow.block := by
    have clear : (LexemeKind.gap false).Ends [some 'v'] := by decide
    refine Finishes.mono ((gap_feed clear).bind fun _ => (name ?_).bind fun _ =>
      (gap ?_).bind fun _ => rest _) (by decide) (List.Subset.refl _)
    · decide
    · decide
  unfold Grammar.namedNode
  cases Keyword.ofSpelling? first.content with
  | none => exact typed
  | some keyword =>
    cases keyword with
    | classes | defaults => exact typed
    | text => exact later fun _ => textNode nested start (some first)
    | read => exact later fun _ => parts_bind fun _ _ => pure _
    | inclusion => exact later fun _ => parts_bind fun _ _ => (preamble nested).map
    | content => exact named fun _ => (preamble nested).map
    | value => exact named fun _ => pure _

/-- A node of a declared type, from its name on. -/
theorem nodeBody (nested : Grammar.Nested) (start : Position) :
    (Grammar.nodeBody nested start).Finishes [some 'v'] Follow.block :=
  right <| right <| right <| (name (by decide)).bind fun _ => namedNode nested start _

end Finishes

end Language

namespace Grammar

/-- An empty block can be nested to any depth but none. -/
theorem finishes_ofDepth (depth : Nat) :
    (ofDepth (depth + 1)).content.Finishes Follow.block Follow.block :=
  .content _

end Grammar

end TypedMarkup
