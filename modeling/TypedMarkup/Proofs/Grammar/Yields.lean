/-
**What a construct yields.** What holds of a result wherever it is spelled, and of the place behind
it.

* `Language.Yields language here holds`: so it is of all that is spelled from a cursor on. It is shown
  of a sequence part by part (`Yields.bind`); what is seen at a cursor, and that no trivia begin
  behind a gap, is known to the parts that follow (`Yields.sight_bind`, `Yields.gap_bind`).
* `Yields.rounds_isChain`: if one round yields an item that goes with whatever can be read behind it,
  the items go together.
* The classes, type paths and properties that are spelled are well formed.
-/

import TypedMarkup.Proofs.Grammar.Rules
import TypedMarkup.Proofs.Tree.WellFormed

namespace TypedMarkup

namespace Language

variable {α β : Type} {here : Cursor} {language second : Language α} {holds : α → Cursor → Prop}

/-- All that is spelled from a cursor on has a property, and so has the place behind it. -/
def Yields (language : Language α) (here : Cursor) (holds : α → Cursor → Prop) : Prop :=
  ∀ a lexemes there, language a lexemes → here.Flows lexemes there → holds a there

namespace Yields

theorem mono {other : α → Cursor → Prop} (yields : language.Yields here holds)
    (weaken : ∀ a there, holds a there → other a there) : language.Yields here other := by
  intro a lexemes there spelled flows
  exact weaken a there (yields a lexemes there spelled flows)

theorem any : language.Yields here fun _ _ => True :=
  fun _ _ _ _ _ => trivial

theorem and {other : α → Cursor → Prop} (yields : language.Yields here holds)
    (yields' : language.Yields here other) :
    language.Yields here fun a there => holds a there ∧ other a there := by
  intro a lexemes there spelled flows
  exact ⟨yields a lexemes there spelled flows, yields' a lexemes there spelled flows⟩

theorem pure {a : α} (now : holds a here) : (Pure.pure a : Language α).Yields here holds := by
  rintro _ _ _ ⟨rfl, rfl⟩ rfl
  exact now

/-- **One after the other.** -/
theorem bind {middle : β → Cursor → Prop} {first : Language β} {next : β → Language α}
    (yields : first.Yields here middle)
    (rest : ∀ b there, middle b there → (next b).Yields there holds) :
    (first >>= next).Yields here holds := by
  rintro a _ there ⟨b, before, after, spelled, later, rfl⟩ flows
  obtain ⟨place, flows, flows'⟩ := Cursor.flows_append.1 flows
  exact rest b place (yields b before place spelled flows) a after there later flows'

/-- Behind something of which nothing needs to be known. -/
theorem later {first : Language β} {next : β → Language α}
    (rest : ∀ b there, (next b).Yields there holds) : (first >>= next).Yields here holds := by
  refine any.bind fun b there _ => ?_
  exact rest b there

theorem map {middle : β → Cursor → Prop} {first : Language β} {f : β → α}
    (yields : first.Yields here middle)
    (turns : ∀ b there, middle b there → holds (f b) there) :
    (first >>= fun b => Pure.pure (f b)).Yields here holds := by
  refine yields.bind fun b there kept => ?_
  exact pure (turns b there kept)

theorem orElse (yields : language.Yields here holds) (yields' : second.Yields here holds) :
    (language <|> second).Yields here holds := by
  rintro a lexemes there (spelled | spelled) flows
  · exact yields a lexemes there spelled flows
  · exact yields' a lexemes there spelled flows

theorem nothing : (nothing : Language α).Yields here holds :=
  fun _ _ _ spelled _ => spelled.elim

/-- What a language opens with holds of the cursor. -/
theorem of_opens {first : Cursor → Prop} (opens : language.Opens first)
    (yields : first here → language.Yields here holds) : language.Yields here holds := by
  intro a lexemes there spelled flows
  exact yields (opens a lexemes here there spelled flows) a lexemes there spelled flows

theorem guard_bind {condition : Prop} (rest : condition → language.Yields here holds) :
    (guard condition >>= fun _ => language).Yields here holds := by
  rintro a lexemes there ⟨_, _, _, ⟨now, rfl⟩, spelled, rfl⟩ flows
  exact rest now a lexemes there spelled flows

/-! ### Lexemes -/

theorem sight_bind {seen : Sight}
    (rest : seen.sees here.head here.second = true → language.Yields here holds) :
    (sight seen >>= fun _ => language).Yields here holds := by
  rintro a _ there ⟨_, _, after, ⟨start, rfl⟩, spelled, rfl⟩ ⟨⟨_, _, sees⟩, flows⟩
  exact rest sees a after there spelled flows

/-- Behind a gap the trivia of the source have ended. -/
theorem gap_bind {next : Unit → Language α}
    (rest : ∀ there, trivia? there.rest = none → (next ()).Yields there holds) :
    (gap >>= next).Yields here holds := by
  have ends : gap.Yields here fun _ there => trivia? there.rest = none :=
    fun _ _ _ spelled flows => gap_ends spelled flows
  exact ends.bind fun _ there clear => rest there clear

theorem name : name.Yields here fun word _ =>
    word.IsName ∧ (trivia? here.rest = none → word.IsClear) := by
  rintro word _ _ rfl ⟨stands, _⟩
  exact ⟨Word.consistsOf_takeWhile stands.2.1 stands.2.2, Word.isClear_of_front stands.2.front⟩

theorem literal : literal.Yields here fun word _ =>
    word.IsLiteral ∧ (trivia? here.rest = none → word.IsClear) := by
  rintro word _ _ rfl ⟨stands, _⟩
  exact ⟨Word.consistsOf_takeWhile stands.2.1 stands.2.2, Word.isClear_of_front stands.2.front⟩

theorem plain : plain.Yields here fun text _ => ∀ c ∈ text, Parser.endsText c = false := by
  rintro text _ _ ⟨start, rfl⟩ ⟨⟨_, taken, _⟩, _⟩
  obtain rfl : text = Parser.plainText here.rest := taken
  exact Parser.endsText_of_mem_plainText

theorem anySign : anySign.Yields here fun read _ =>
    here.head = some read.1 ∧ read.1 ≠ '\r' ∧ read.1 ≠ '\n' := by
  rintro ⟨c, start⟩ _ _ rfl ⟨⟨_, sign, same, head, inLine⟩, _⟩
  obtain rfl : c = sign := (List.cons.inj same).1
  exact ⟨head, inLine⟩

/-! ### Repetitions -/

open TypedMarkup.Parser (Round)

variable {round item : Language (Round α)} {good : α → Prop}

theorem rounds (each : ∀ there, round.Yields there fun result _ => ∀ a, result = .item a → good a) :
    (rounds round).Yields here fun items _ => ∀ a ∈ items, good a := by
  intro items lexemes there spelled flows
  induction spelled generalizing here with
  | stop last => exact List.forall_mem_nil _
  | pass first later ih =>
    obtain ⟨_, _, flows⟩ := Cursor.flows_append.1 flows
    exact ih flows
  | item first later ih =>
    obtain ⟨middle, flows, flows'⟩ := Cursor.flows_append.1 flows
    exact List.forall_mem_cons.2 ⟨each here _ _ middle first flows _ rfl, ih flows'⟩

/-- Items up to a place where a sign is missing. If there are none, it is missing at once. -/
theorem items {sign : Char}
    (each : ∀ there, item.Yields there fun result _ => ∃ a, result = .item a ∧ good a) :
    (Language.rounds (item <|> (do
      sight (.avoids [sign])
      return .stop))).Yields here fun items there =>
        (∀ a ∈ items, good a) ∧ (items = [] → there = here ∧ here.head ≠ some sign) := by
  refine and (rounds fun there => orElse ((each there).mono ?_)
    (later fun _ _ => pure fun _ same => nomatch same)) ?_
  · rintro _ _ ⟨a, rfl, holds⟩ _ same
    exact Round.item.inj same ▸ holds
  · intro items lexemes there spelled flows none
    cases spelled with
    | item first later => cases none
    | pass first later =>
      obtain ⟨middle, flows, _⟩ := Cursor.flows_append.1 flows
      rcases first with first | ⟨_, _, _, _, ⟨same, _⟩, _⟩
      · obtain ⟨_, same, _⟩ := each here _ _ middle first flows
        cases same
      · cases same
    | stop last =>
      rcases last with last | last
      · obtain ⟨_, same, _⟩ := each here _ _ there last flows
        cases same
      · obtain ⟨_, ⟨start, rfl⟩, _⟩ := map_iff.1 last
        obtain ⟨⟨_, _, sees⟩, rfl⟩ := flows
        exact ⟨rfl, fun found => by simp [Sight.sees, found] at sees⟩

/-- **Items that go together.** Each is read where it may begin, and goes with what may begin behind
it. -/
theorem rounds_isChain {goes : α → α → Prop} {begins : Cursor → α → Prop}
    (pass : ∀ there, round.Yields there fun result place =>
      result = .pass → ∀ a, begins place a → begins there a)
    (item : ∀ there, round.Yields there fun result place => ∀ a, result = .item a →
      begins there a ∧ ∀ b, begins place b → goes a b) :
    (Language.rounds round).Yields here fun items _ => items.IsChain goes := by
  suffices (Language.rounds round).Yields here fun items _ =>
      items.IsChain goes ∧ ∀ a ∈ items.head?, begins here a from this.mono fun _ _ kept => kept.1
  intro items lexemes there spelled flows
  induction spelled generalizing here with
  | stop last => exact ⟨.nil, by simp⟩
  | pass first later ih =>
    obtain ⟨middle, flows, flows'⟩ := Cursor.flows_append.1 flows
    obtain ⟨chain, first'⟩ := ih flows'
    exact ⟨chain, fun a member => pass here _ _ middle first flows rfl a (first' a member)⟩
  | item first later ih =>
    obtain ⟨middle, flows, flows'⟩ := Cursor.flows_append.1 flows
    obtain ⟨chain, next⟩ := ih flows'
    obtain ⟨begins, goes⟩ := item here _ _ middle first flows _ rfl
    refine ⟨List.isChain_cons.2 ⟨fun b member => goes b (next b member), chain⟩, ?_⟩
    rintro _ ⟨rfl⟩
    exact begins

/-! ### Classes and type paths -/

theorem classRef : Grammar.classRef.Yields here fun used _ => used.name.IsName := by
  refine later fun _ _ => ?_
  refine name.map fun _ _ read => ?_
  exact read.1

theorem classes : Grammar.classes.Yields here fun uses there =>
    (∀ used ∈ uses, used.name.IsName) ∧ (uses = [] → there = here ∧ here.head ≠ some '.') := by
  refine items fun _ => ?_
  refine classRef.bind fun used _ read => ?_
  refine later fun _ _ => ?_
  exact pure ⟨used, rfl, read⟩

theorem childSteps : Grammar.childSteps.Yields here fun steps there =>
    (∀ step ∈ steps, step.name.IsName) ∧ (steps = [] → there = here ∧ here.head ≠ some '\\') := by
  refine items fun _ => ?_
  refine later fun _ _ => ?_
  refine name.map fun _ _ read => ?_
  exact ⟨_, rfl, read.1⟩

/-- Where a step is seen, there are some. -/
theorem childSteps_of_sees (sees : (Sight.shows ['\\']).sees here.head here.second = true) :
    Grammar.childSteps.Yields here fun steps _ => (TypePath.relative steps).WellFormed := by
  refine childSteps.mono fun steps there read => ⟨fun none => ?_, read.1⟩
  exact (read.2 none).2 (Sight.head_of_shows sees)

theorem typePath : Grammar.typePath.Yields here fun result _ =>
    ∀ path, result = .item path → path.WellFormed := by
  refine gap_bind fun there clear => orElse ?_ (orElse ?_ ?_)
  · refine sight_bind fun sees => (childSteps_of_sees sees).map fun steps _ read => ?_
    rintro _ ⟨rfl⟩
    exact read
  · refine name.bind fun root _ read => childSteps.map fun steps _ read' => ?_
    rintro _ ⟨rfl⟩
    exact ⟨read.1, read.2 clear, read'.1⟩
  · exact later fun _ _ => pure fun _ same => nomatch same

theorem typePaths : Grammar.typePaths.Yields here fun paths _ => ∀ path ∈ paths, path.WellFormed :=
  rounds fun _ => typePath

/-! ### Properties -/

theorem boundValue : Grammar.boundValue.Yields here fun value _ => value.WellFormed := by
  refine later fun _ _ => later fun _ _ => later fun _ _ => later fun _ _ => ?_
  refine gap_bind fun there clear => name.bind fun bound _ read => ?_
  exact later fun _ _ => later fun _ _ => pure ⟨read.1, read.2 clear⟩

theorem value (clear : trivia? here.rest = none) :
    Grammar.value.Yields here fun value _ => value.WellFormed := by
  refine boundValue.orElse ?_
  refine orElse ?_ ?_
  · refine any.map fun _ _ _ => ?_
    exact trivial
  · refine literal.map fun _ _ read => ?_
    exact ⟨read.1, read.2 clear⟩

theorem negatedSetting :
    Grammar.negatedSetting.Yields here fun setting _ => setting.WellFormed := by
  refine later fun _ _ => ?_
  refine name.map fun _ _ read => ?_
  exact read.1

theorem namedSetting (clear : trivia? here.rest = none) :
    Grammar.namedSetting.Yields here fun setting _ => setting.WellFormed := by
  refine name.bind fun set _ read => later fun _ _ => orElse ?_ ?_
  · refine later fun _ _ => gap_bind fun _ clear' => (value clear').map fun _ _ given => ?_
    exact ⟨read.1, read.2 clear, given⟩
  · exact later fun _ _ => pure ⟨read.1, read.2 clear⟩

theorem settings : Grammar.settings.Yields here fun settings _ =>
    ∀ setting ∈ settings, setting.WellFormed := by
  refine rounds fun _ => gap_bind fun _ clear => orElse ?_ (orElse ?_ ?_)
  · exact later fun _ _ => pure fun _ same => nomatch same
  · exact negatedSetting.map fun _ _ read _ same => Round.item.inj same ▸ read
  · exact (namedSetting clear).map fun _ _ read _ same => Round.item.inj same ▸ read

theorem mainValue : Grammar.mainValue.Yields here fun main _ => ∀ value ∈ main, value.WellFormed := by
  refine orElse ?_ (later fun _ _ => pure fun _ member => nomatch member)
  refine later fun _ _ => gap_bind fun _ clear => (value clear).map fun _ _ read => ?_
  rintro _ ⟨rfl⟩
  exact read

theorem propertyBlock : Grammar.propertyBlock.Yields here fun block _ => block.WellFormed := by
  refine later fun _ _ => later fun _ _ => mainValue.bind fun _ _ main => ?_
  exact settings.bind fun _ _ read => later fun _ _ => pure ⟨main, read⟩

/-- A property block that may be missing, but not where its brace stands. -/
theorem properties : Grammar.properties.Yields here fun block _ =>
    (∀ read ∈ block, read.WellFormed) ∧ (here.head = some '\x7b' → block ≠ none) := by
  refine orElse (propertyBlock.bind fun block _ read => later fun _ _ => pure ⟨?_, nofun⟩) ?_
  · rintro _ ⟨rfl⟩
    exact read
  · refine sight_bind fun sees => pure ⟨fun _ member => (nomatch member), fun found => ?_⟩
    simp [Sight.sees, found] at sees

/-- Classes and a property block, before something else. -/
theorem parts_bind {next : List ClassRef → Option PropertyBlock → Language α}
    (rest : ∀ uses block there, PartsWellFormed uses block →
      ((Sight.shows ['.', '\x7b']).sees here.head here.second = true → uses ≠ [] ∨ block ≠ none) →
      (next uses block).Yields there holds) : (do
        let uses ← Grammar.classes
        let block ← Grammar.properties
        next uses block : Language α).Yields here holds := by
  refine bind classes fun uses there read => properties.bind fun block last read' => ?_
  refine rest uses block last ⟨read.1, read'.1⟩ fun sees => ?_
  by_cases none : uses = []
  · obtain ⟨rfl, notDot⟩ := read.2 none
    exact .inr (read'.2 ((Sight.head_of_shows_pair sees).resolve_left notDot))
  · exact .inl none

/-- Classes and a property block of a declaration, one of which there is. -/
theorem declaredProperties {uses : List ClassRef} :
    (Grammar.declaredProperties uses).Yields here fun block _ =>
      (∀ read ∈ block, read.WellFormed) ∧ (uses ≠ [] ∨ block ≠ none) := by
  refine orElse (propertyBlock.map fun block _ read => ⟨?_, .inr nofun⟩) ?_
  · rintro _ ⟨rfl⟩
    exact read
  · exact later fun _ _ => guard_bind fun some => pure ⟨fun _ member => (nomatch member), .inl some⟩

/-! ### Declarations -/

/-- Behind what it declares, a declaration is what its parts make of it. -/
theorem declaration {next : List TypePath → List ClassRef → Option PropertyBlock → Directive}
    (makes : ∀ targets uses block, (∀ path ∈ targets, path.WellFormed) →
      PartsWellFormed uses block → (uses ≠ [] ∨ block ≠ none) →
      (next targets uses block).WellFormed) : (do
        let targets ← Grammar.typePaths
        let uses ← Grammar.classes
        return next targets uses (← Grammar.declaredProperties uses)).Yields here
          fun directive _ => directive.WellFormed := by
  refine typePaths.bind fun targets _ paths => ?_
  refine classes.bind fun uses _ read => ?_
  refine declaredProperties.map fun block _ read' => ?_
  exact makes targets uses block paths ⟨read.1, read'.1⟩ read'.2

theorem classDeclaration : Grammar.classDeclaration.Yields here fun directive _ =>
    directive.WellFormed := by
  refine classRef.bind fun _ _ read => ?_
  refine later fun _ _ => ?_
  refine declaration fun _ _ _ paths parts some => ?_
  exact .bundle read paths parts some

theorem valueBinding (clear : trivia? here.rest = none) :
    Grammar.valueBinding.Yields here fun directive _ => directive.WellFormed := by
  refine name.bind fun _ _ read => ?_
  refine gap_bind fun _ clear' => ?_
  refine (value clear').map fun _ _ given => ?_
  exact .value read.1 (read.2 clear) given

end Yields

end Language

end TypedMarkup
