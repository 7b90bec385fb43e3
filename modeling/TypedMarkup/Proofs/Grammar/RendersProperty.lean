/-
**Writing classes, type paths and properties.** What `Language.Renders` says of the parts of nodes and
declarations that hold no blocks.

* A word is written with a line feed behind it, unless it is followed by a sign. Settings and type
  paths are so written with or without a line feed first, since the word before them may need one.
* `Renders.propertyBlock`, `Renders.properties` and `Renders.declaration` are what nodes and preambles
  take from here.
-/

import TypedMarkup.Proofs.Grammar.Renders

namespace TypedMarkup

open Text (Clear Sees Shows StartsWith aheadOf)

/-- What may follow classes. -/
def Grammar.Follow.classes : List (Option Char) :=
  [some '\x7b', some '>', some '<', some '_', some ']', none]

namespace Text

variable {text : List Char}

/-- Where a setting is seen, no trivia stand. -/
theorem Sees.clear (sees : Sees .settingNext text) : Clear text := by
  cases text with
  | nil => rfl
  | cons c text =>
    simp only [Sees, Sight.sees, List.head?_cons, List.tail_cons, Option.any_some, Option.some.injEq,
      Bool.and_eq_true, Bool.or_eq_true, decide_eq_true_eq, Bool.not_eq_true', Sight.isComment,
      Bool.or_eq_false_iff, decide_eq_false_iff_not] at sees
    obtain ⟨begins, notLine, notBlock⟩ := sees
    refine trivia?_other (Bool.eq_false_iff.2 fun space => ?_) notLine notBlock
    simp only [isSpace, Bool.or_eq_true, beq_iff_eq] at space
    rcases space with ((rfl | rfl) | rfl) | rfl <;> revert begins <;> decide

/-- A setting does not begin with an equals sign. -/
theorem Sees.noEquals (sees : Sees .settingNext text) : Sees (.avoids ['=']) text := by
  refine Sight.sees_avoids (c := ⟨text, Position.start⟩) (by decide) fun (found : text.head? = _) => ?_
  rw [Sees, found] at sees
  simp only [Sight.sees, Option.any_some, Bool.and_eq_true] at sees
  exact absurd sees.1 (by decide)

section Names

variable {word : Word} {follow : List (Option Char)} (isName : word.IsName) (isClear : word.IsClear)
  (ends : some '*' ∉ follow) (starts : StartsWith word.content.toList (Shows follow) text)

include isName isClear ends starts

/-- Where a name stands that does not begin like a comment, no trivia do. -/
theorem StartsWith.clear : Clear text := by
  obtain ⟨rest, rfl, shows'⟩ := starts
  exact isClear.clear isName.isLiteral fun star => ends (star ▸ shows')

/-- Such a name is seen as a setting. -/
theorem StartsWith.sees : Sees .settingNext text := by
  have clear := starts.clear isName isClear ends
  obtain ⟨rest, rfl, _⟩ := starts
  have noComment : Sight.isComment (word.content.toList ++ rest).head?
      (word.content.toList ++ rest).tail.head? = false :=
    Sight.isComment_eq_false (c := ⟨word.content.toList ++ rest, Position.start⟩) clear
  obtain ⟨c, more, split⟩ := List.exists_cons_of_ne_nil isName.toList_ne_nil
  have allowed : isNameChar c = true := isName.each c (split ▸ List.mem_cons_self ..)
  have head : (word.content.toList ++ rest).head? = some c := by rw [split]; rfl
  unfold Sees
  rw [Sight.sees, noComment, head]
  simp [allowed]

end Names

end Text

namespace Language.Renders

open TypedMarkup.Parser (Round)

variable {β δ : Type} {follow : List (Option Char)} {next : Word → Language β} {last : β → δ} {b : β}

/-! ### Names -/

/-- A keyword, with a line feed behind it. -/
theorem keyword_bind (keyword : Keyword)
    (rest : ∀ word, word.content = keyword.spelling → (next word).Renders last b
      (Shows [some '\n']) (Shows follow)) :
    (Language.name >>= next).Renders last b (Shows [keyword.spelling.toList.head?])
      (Shows follow) := by
  have isName : Word.IsName ⟨keyword.spelling, Position.start⟩ := by
    cases keyword <;> exact ⟨by decide, List.all_eq_true.1 (by decide)⟩
  refine ((name_shows isName (by decide)).bind fun word same =>
    rest word (congrArg Word.content same)).weaken ?_
  rintro _ ⟨rest, rfl, _⟩
  exact List.mem_singleton.2 (List.head?_append_of_ne_nil _ isName.toList_ne_nil)

/-! ### Classes and type paths -/

theorem classRef {used : ClassRef} (isName : used.name.IsName) :
    Grammar.classRef.Renders (ClassRef.relabel .blind) used (Shows [some '.'])
      (Shows [some '\n']) :=
  bind (sign_shows (by decide) used.start) fun _ place =>
    ((name_shows isName (by decide)).weaken fun _ _ => trivial).map fun _ word => by
      simp only [ClassRef.relabel, place, word]

theorem classes {uses : List ClassRef} (names : ∀ used ∈ uses, used.name.IsName)
    (sub : follow ⊆ Grammar.Follow.classes) :
    Grammar.classes.Renders (List.map (ClassRef.relabel .blind)) uses (Shows (aheadOf uses '.' follow))
      (Shows follow) := by
  have clear : (LexemeKind.gap false).Ends (some '.' :: Grammar.Follow.classes) := by decide
  have ends : (LexemeKind.sight (.avoids ['.'])).Ends Grammar.Follow.classes := by decide
  refine items (fun used member => ?_) fun next found => ends next (sub found)
  refine (classRef (names used member)).bind fun _ same => ?_
  refine (feed_shows fun next found => clear next ?_).map fun _ _ => ?_
  · exact List.cons_subset_cons _ sub found
  · simp only [Round.map, same]

theorem childSteps {steps : List ChildStep} (names : ∀ step ∈ steps, step.name.IsName) :
    Grammar.childSteps.Renders (List.map (ChildStep.relabel .blind)) steps
      (Shows (aheadOf steps '\\' [some '\n'])) (Shows [some '\n']) :=
  items (fun step member => (sign_shows (by decide) step.start).bind fun _ place =>
    (name_shows (names step member) (by decide)).map fun _ word => by
      simp only [Round.map, ChildStep.relabel, place, word]) (by decide)

/-- Steps of which there is one. -/
theorem childSteps_of_ne_nil {steps : List ChildStep} (someStep : steps ≠ [])
    (names : ∀ step ∈ steps, step.name.IsName) :
    Grammar.childSteps.Renders (List.map (ChildStep.relabel .blind)) steps (Shows [some '\\'])
      (Shows [some '\n']) := by
  obtain ⟨step, more, rfl⟩ := List.exists_cons_of_ne_nil someStep
  exact childSteps names

/-- A name with steps behind it. -/
theorem root_bind {word : Word} (steps : List ChildStep) (isName : word.IsName)
    (rest : ∀ word', word'.relabel .blind = word.relabel .blind →
      (next word').Renders last b (Shows (aheadOf steps '\\' [some '\n'])) (Shows follow)) :
    (Language.name >>= next).Renders last b
      (StartsWith word.content.toList (Shows [some '\\', some '\n'])) (Shows follow) := by
  refine (name_shows isName (by decide)).bind fun word' same => ?_
  refine (rest word' same).weaken fun _ => ?_
  exact Shows.of_aheadOf

/-- Type paths, which end where neither a name nor a step stands. -/
theorem typePaths {paths : List TypePath} (each : ∀ path ∈ paths, path.WellFormed)
    (sub : follow ⊆ [some '.', some '\x7b', some '>']) :
    Grammar.typePaths.Renders (List.map (TypePath.relabel .blind)) paths Clear (Shows follow) := by
  induction paths with
  | nil =>
    have clear (text : List Char) (shows' : Shows follow text) : Clear text :=
      (shows'.mono sub).clear (by decide)
    refine rounds_nil (((gap clear).bind fun _ _ => right (right ?_)).weaken clear)
    exact (sight fun _ shows' => (shows'.mono sub).sees (by decide)).map fun _ _ => rfl
  | cons path paths ih =>
    obtain ⟨first, later⟩ := List.forall_mem_cons.1 each
    refine rounds_cons ((gap fun _ => id).bind fun _ _ => ?_) (rounds_feed (ih later) fun _ => id)
    cases path with
    | absolute word steps =>
      obtain ⟨isName, isClear, names⟩ := first
      exact right (left (weaken (root_bind steps isName fun _ word => (childSteps names).map fun _ same => by
        simp only [Round.map, TypePath.relabel, word, same])
        fun _ => StartsWith.clear isName isClear (by decide)))
    | relative steps =>
      have written := childSteps_of_ne_nil first.1 first.2
      exact left (weaken ((sight_shows (by decide)).bind fun _ _ => written.map fun _ same => by
        simp only [Round.map, TypePath.relabel, same]) fun _ => Shows.clear (by decide))

/-! ### Values -/

variable {start : Position} {word : Word}

theorem boundValue (isName : word.IsName) (isClear : word.IsClear) :
    Grammar.boundValue.Renders (Value.relabel .blind id) (.bound start word) (Shows [some '<'])
      (Shows follow) :=
  (sign_shows (by decide) start).bind fun _ place => (gap_shows (by decide)).bind fun _ _ =>
    keyword_bind .value fun _ spelt => guard_bind spelt <|
      (gap_feed fun _ => StartsWith.clear isName isClear (by decide)).bind fun _ _ =>
        (name_shows isName (by decide)).bind fun _ same => (gap_shows (by decide)).bind fun _ _ =>
          (sign_shows (by decide) start).map fun _ _ => by simp only [Value.relabel, place, same]

/-- A value, before a line feed or the end of a declaration. -/
theorem value {value : Value} (wellFormed : value.WellFormed) :
    Grammar.value.Renders (Value.relabel .blind id) value Clear (Shows [some '\n', some '>']) := by
  cases value with
  | literal word =>
    have ends (rest : List Char) (shows' : Shows [some '\n', some '>'] rest) :
        rest.head?.any isValueChar = false := by
      rcases (by simpa [Shows] using shows' : rest.head? = some '\n' ∨ rest.head? = some '>') with
        found | found <;> rw [found] <;> decide
    refine right (right (((literal wellFormed.1 ends).map fun _ same => ?_).weaken ?_))
    · simp only [Value.relabel, same]
    · rintro _ ⟨rest, rfl, shows'⟩
      refine wellFormed.2.clear wellFormed.1 fun star => ?_
      rw [Shows, star] at shows'
      revert shows'
      decide
  | bound start word =>
    exact left ((boundValue wellFormed.1 wellFormed.2).weaken fun _ => Shows.clear (by decide))
  | escaped text =>
    exact right (left (((escaped text).map fun _ same => by simp only [Value.relabel, same]).weaken
      fun _ => Shows.clear (by decide)))

/-! ### Settings -/

theorem negatedSetting (isName : word.IsName) :
    Grammar.negatedSetting.Renders (Setting.relabel .blind id) (.negated start word)
      (Shows [some '!']) (Shows [some '\n']) :=
  (sign_shows (by decide) start).bind fun _ place => (name_shows isName (by decide)).map
    fun _ same => by simp only [Setting.relabel, place, same]

/-- A bare name, before something that is seen as a setting or the end of them. -/
theorem flagSetting (isName : word.IsName) (isClear : word.IsClear) :
    Grammar.namedSetting.Renders (Setting.relabel .blind id) (.flag word) (Sees .settingNext)
      (Sees .settingNext) := by
  have front : ∀ text, StartsWith word.content.toList (Shows [some '\n']) text →
      Sees .settingNext text := fun _ => StartsWith.sees isName isClear (by decide)
  refine weaken ?_ front
  refine (name_shows isName (by decide)).bind fun _ same => ?_
  refine (gap_feed fun _ => Sees.clear).bind fun _ _ => right ?_
  refine (sight fun _ => id).map fun _ _ => ?_
  simp only [Setting.relabel, same]

theorem pairSetting {given : Value} (isName : word.IsName) (isClear : word.IsClear)
    (wellFormed : given.WellFormed) :
    Grammar.namedSetting.Renders (Setting.relabel .blind id) (.pair word given) (Sees .settingNext)
      (Shows [some '\n']) := by
  have front : ∀ text, StartsWith word.content.toList (Shows [some '=']) text →
      Sees .settingNext text := fun _ => StartsWith.sees isName isClear (by decide)
  refine weaken ?_ front
  refine (name_shows isName (by decide)).bind fun _ same => ?_
  refine (gap_shows (by decide)).bind fun _ _ => left ?_
  have later : Grammar.value.Renders (Value.relabel .blind id) given Clear (Shows [some '\n']) :=
    (value wellFormed).mono (fun _ => id) fun _ shows' => shows'.mono (by decide)
  exact (sign_shows (by decide) Position.start).bind fun _ _ => (gap fun _ => id).bind fun _ _ =>
    later.map fun _ same' => by simp only [Setting.relabel, same, same']

theorem settings {settings : List Setting} (each : ∀ setting ∈ settings, setting.WellFormed) :
    Grammar.settings.Renders (List.map (Setting.relabel .blind id)) settings (Sees .settingNext)
      (Shows [some '\x7d']) := by
  induction settings with
  | nil =>
    exact rounds_nil (weaken ((gap_shows (by decide)).bind fun _ _ => left
      ((sight_shows (by decide)).map fun _ _ => rfl)) fun _ => Shows.sees (by decide))
  | cons setting settings ih =>
    obtain ⟨first, later⟩ := List.forall_mem_cons.1 each
    have spaced := rounds_feed (ih later) fun _ => Sees.clear
    cases setting with
    | negated start word =>
      have written : Grammar.negatedSetting.Renders (Setting.relabel .blind id) (.negated start word)
          (Sees .settingNext) (Shows [some '\n']) :=
        (negatedSetting first).weaken fun _ => Shows.sees (by decide)
      refine rounds_cons ((gap fun _ => Sees.clear).bind fun _ _ => right (left ?_)) spaced
      exact written.map fun _ => congrArg Round.item
    | flag word =>
      refine rounds_cons ((gap fun _ => Sees.clear).bind fun _ _ => right (right ?_)) (ih later)
      exact (flagSetting first.1 first.2).map fun _ => congrArg Round.item
    | pair word given =>
      refine rounds_cons ((gap fun _ => Sees.clear).bind fun _ _ => right (right ?_)) spaced
      exact (pairSetting first.1 first.2.1 first.2.2).map fun _ => congrArg Round.item

/-! ### Property blocks -/

/-- A property block, before anything. -/
theorem propertyBlock {block : PropertyBlock} {follow : List Char → Prop}
    (wellFormed : block.WellFormed) :
    Grammar.propertyBlock.Renders (PropertyBlock.relabel .blind id) block (Shows [some '\x7b'])
      follow := by
  obtain ⟨start, main, given⟩ := block
  cases main with
  | none =>
    have noMain : Grammar.mainValue.Renders (Option.map (Value.relabel .blind id)) none
        (Sees .settingNext) (Sees .settingNext) :=
      right ((sight fun _ => Sees.noEquals).map fun _ _ => rfl)
    exact (sign_shows (by decide) start).bind fun _ place => (gap fun _ => Sees.clear).bind
      fun _ _ => noMain.bind fun _ same => (settings wellFormed.settings).bind fun _ same' =>
        (sign_shows (by decide) start).map fun _ _ => by
          simp only [PropertyBlock.relabel, place, same, same']
  | some value =>
    have spaced := rounds_feed (settings wellFormed.settings) fun _ => Sees.clear
    have mainValue : Grammar.mainValue.Renders (Option.map (Value.relabel .blind id)) (some value)
        (Shows [some '=']) (Shows [some '\n']) :=
      left ((sign_shows (by decide) start).bind fun _ _ => (gap fun _ => id).bind fun _ _ =>
        ((Renders.value (wellFormed.main value rfl)).mono (fun _ => id)
          fun _ shows' => shows'.mono (by decide)).map fun _ same => congrArg some same)
    exact (sign_shows (by decide) start).bind fun _ place => (gap_shows (by decide)).bind
      fun _ _ => mainValue.bind fun _ same => spaced.bind fun _ same' =>
        (sign_shows (by decide) start).map fun _ _ => by
          simp only [PropertyBlock.relabel, place, same, same']

/-- A property block with a gap behind it, or none. -/
theorem properties {block : Option PropertyBlock} (each : ∀ read ∈ block, read.WellFormed)
    (sub : follow ⊆ [some '<', some '_', some ']', none]) :
    Grammar.properties.Renders (Option.map (PropertyBlock.relabel .blind id)) block
      (Shows (aheadOf block.toList '\x7b' follow)) (Shows follow) := by
  cases block with
  | none => exact right ((sight fun _ shows' => (shows'.mono sub).sees (by decide)).map fun _ _ => rfl)
  | some block =>
    exact left ((propertyBlock (each block rfl)).bind fun _ same => (gap fun _ shows' =>
      (shows'.mono sub).clear (by decide)).map fun _ _ => congrArg some same)

/-- A property block that may only be missing behind classes. -/
theorem declaredProperties {uses : List ClassRef} {block : Option PropertyBlock}
    (each : ∀ read ∈ block, read.WellFormed) (either : uses ≠ [] ∨ block ≠ none) :
    (Grammar.declaredProperties uses).Renders (Option.map (PropertyBlock.relabel .blind id)) block
      (Shows (aheadOf block.toList '\x7b' [some '>'])) (Shows [some '>']) := by
  cases block with
  | none =>
    have someClass : uses ≠ [] := either.resolve_right fun other => other rfl
    exact right ((sight_shows (by decide)).bind fun _ _ => guard_bind someClass (pure rfl))
  | some block => exact left ((propertyBlock (each block rfl)).map fun _ => congrArg some)

/-! ### Declarations -/

/-- What a declaration names and how, behind what it declares. -/
theorem declaration {targets : List TypePath} {uses : List ClassRef} {block : Option PropertyBlock}
    {next : List TypePath → List ClassRef → Option PropertyBlock → Directive} {b : Directive}
    (paths : ∀ path ∈ targets, path.WellFormed) (parts : PartsWellFormed uses block)
    (either : uses ≠ [] ∨ block ≠ none)
    (makes : ∀ targets' uses' block',
      targets'.map (TypePath.relabel .blind) = targets.map (TypePath.relabel .blind) →
      uses'.map (ClassRef.relabel .blind) = uses.map (ClassRef.relabel .blind) →
      block'.map (PropertyBlock.relabel .blind id) = block.map (PropertyBlock.relabel .blind id) →
      (next targets' uses' block').relabel .blind id = b.relabel .blind id) : (do
        let targets ← Grammar.typePaths
        let uses ← Grammar.classes
        return next targets uses (← Grammar.declaredProperties uses)).Renders
          (Directive.relabel .blind id) b Clear (Shows [some '>']) := by
  have sub : aheadOf block.toList '\x7b' [some '>'] ⊆ [some '\x7b', some '>'] :=
    Text.aheadOf_subset (by decide) (by decide)
  have sub' : aheadOf uses '.' (aheadOf block.toList '\x7b' [some '>']) ⊆
      [some '.', some '\x7b', some '>'] :=
    Text.aheadOf_subset (by decide) (List.Subset.trans sub (by decide))
  refine (typePaths paths sub').bind fun _ same => ?_
  refine (classes parts.classes (List.Subset.trans sub (by decide))).bind fun uses' same' => ?_
  have still : uses' ≠ [] ∨ block ≠ none := either.imp_left fun someClass none => someClass (by
    rw [none] at same'
    exact List.map_eq_nil_iff.1 same'.symm)
  exact (declaredProperties parts.properties still).map fun _ => makes _ _ _ same same'

theorem classDeclaration {declared : ClassRef} {targets : List TypePath} {uses : List ClassRef}
    {block : Option PropertyBlock} (isName : declared.name.IsName)
    (paths : ∀ path ∈ targets, path.WellFormed) (parts : PartsWellFormed uses block)
    (either : uses ≠ [] ∨ block ≠ none) :
    Grammar.classDeclaration.Renders (Directive.relabel .blind id)
      (.bundle declared targets uses block) (Shows [some '.']) (Shows [some '>']) :=
  (classRef isName).bind fun _ same => (gap_feed fun _ => id).bind fun _ _ =>
    declaration paths parts either fun _ _ _ targets uses block => by
      simp only [Directive.relabel, same, targets, uses, block]

theorem defaultDeclaration {targets : List TypePath} {uses : List ClassRef}
    {block : Option PropertyBlock} (paths : ∀ path ∈ targets, path.WellFormed)
    (parts : PartsWellFormed uses block) (either : uses ≠ [] ∨ block ≠ none) :
    Grammar.defaultDeclaration.Renders (Directive.relabel .blind id) (.defaults targets uses block)
      Clear (Shows [some '>']) := by
  refine declaration paths parts either fun _ _ _ targets uses block => ?_
  simp only [Directive.relabel, targets, uses, block]

theorem valueBinding {given : Value} (isName : word.IsName) (isClear : word.IsClear)
    (wellFormed : given.WellFormed) :
    Grammar.valueBinding.Renders (Directive.relabel .blind id) (.value word given) Clear
      (Shows [some '>']) := by
  have front : ∀ text, StartsWith word.content.toList (Shows [some '\n']) text →
      Clear text := fun _ => StartsWith.clear isName isClear (by decide)
  refine weaken ?_ front
  refine (name_shows isName (by decide)).bind fun _ same => ?_
  refine (gap_feed fun _ => id).bind fun _ _ => ?_
  have later : Grammar.value.Renders (Value.relabel .blind id) given Clear (Shows [some '>']) :=
    (value wellFormed).mono (fun _ => id) fun _ shows' => shows'.mono (by decide)
  refine later.map fun _ same' => ?_
  simp only [Directive.relabel, same, same']

end Language.Renders

end TypedMarkup
