/-
**Carrying a tree over to other lexemes.** Lexemes that differ only in their gaps and in what is not
looked at of their places spell trees that differ as little.

* `Lexeme.relabel` forgets what does not matter of a lexeme: all of gaps and sights but their kind.
* `Language.Transfers look look' first second`: what the first language spells, lexemes that look
  alike spell in the second, and the results look alike.
* `Grammar.transfers_file` puts the rules together for whole sources, where the second language may
  be nested deeper.
-/

import TypedMarkup.Proofs.Grammar.Rules
import TypedMarkup.Proofs.Tree.Relabel

namespace TypedMarkup

/-! ### Lexemes -/

namespace Lexeme

variable (view : Position.View) (shown : String → String)

/-- What matters of a lexeme. -/
def relabel (x : Lexeme) : Lexeme :=
  match x.kind with
  | .gap kept => ⟨.gap kept, Position.start, []⟩
  | .sight seen => ⟨.sight seen, Position.start, x.text⟩
  | .escaped content =>
    ⟨.escaped (shown (String.ofList content)).toList, view.of x.start, []⟩
  | .sign => ⟨.sign, view.of x.start, x.text⟩
  | .name => ⟨.name, view.of x.start, x.text⟩
  | .literal => ⟨.literal, view.of x.start, x.text⟩
  | .plain => ⟨.plain, Position.start, x.text⟩

variable {view : Position.View} {shown shown' : String → String}

/-- What looks like a sign, a name or a literal is one of the same text, where the place looks alike. -/
theorem exists_of_relabel {x : Lexeme} {kind : LexemeKind} {start : Position} {text : List Char}
    (placed : kind = .sign ∨ kind = .name ∨ kind = .literal)
    (alike : relabel view shown' x = relabel view shown ⟨kind, start, text⟩) :
    ∃ start', x = ⟨kind, start', text⟩ ∧ view.of start' = view.of start := by
  obtain ⟨kind', start', text'⟩ := x
  obtain rfl | rfl | rfl := placed
  all_goals
    cases kind' <;> simp only [relabel, mk.injEq, reduceCtorEq, false_and] at alike
    obtain ⟨_, place, rfl⟩ := alike
    exact ⟨start', rfl, place⟩

/-- What looks like a lexeme inside an ignored node is one, of a lexeme that looks alike. -/
theorem relabel_keep {lexemes lexemes' : List Lexeme}
    (alike : lexemes'.map (relabel view shown') =
      (lexemes.map keep).map (relabel view shown)) :
    ∃ inside : List Lexeme, lexemes' = inside.map keep ∧
      inside.map (relabel view shown') = lexemes.map (relabel view shown) := by
  induction lexemes generalizing lexemes' with
  | nil =>
    obtain rfl := List.map_eq_nil_iff.1 alike
    exact ⟨[], rfl, rfl⟩
  | cons x lexemes ih =>
    obtain ⟨y, lexemes', rfl, first, alike⟩ := List.map_eq_cons_iff.1 alike
    obtain ⟨inside, rfl, same⟩ := ih alike
    suffices single : ∃ z, y = keep z ∧ relabel view shown' z = relabel view shown x by
      obtain ⟨z, rfl, same'⟩ := single
      exact ⟨z :: inside, rfl, by rw [List.map_cons, same, same', List.map_cons]⟩
    obtain ⟨kind, start, text⟩ := x
    obtain ⟨kind', start', text'⟩ := y
    cases kind with
    | gap kept =>
      cases kind' <;> simp only [keep, relabel, mk.injEq, reduceCtorEq, false_and] at first
      obtain ⟨same, _⟩ := first
      cases same
      exact ⟨⟨.gap kept, start', text'⟩, rfl, rfl⟩
    | sign | name | literal | escaped | plain | sight =>
      refine ⟨⟨kind', start', text'⟩, ?_, first⟩
      cases kind' with
      | gap kept => simp only [keep, relabel, mk.injEq, reduceCtorEq, false_and] at first
      | sign | name | literal | escaped | plain | sight => rfl

end Lexeme

/-- The round with what it reads replaced. -/
def Parser.Round.map {α β : Type} (f : α → β) : Round α → Round β
  | .stop => .stop
  | .pass => .pass
  | .item a => .item (f a)

namespace Language

variable {α β γ δ : Type} (view : Position.View) (shown shown' : String → String)

/-- Lexemes that look like the ones that spell something spell something that looks like it. -/
def Transfers (look look' : α → γ) (language language' : Language α) : Prop :=
  ∀ a lexemes lexemes', language a lexemes →
    lexemes'.map (Lexeme.relabel view shown') = lexemes.map (Lexeme.relabel view shown) →
    ∃ a', language' a' lexemes' ∧ look' a' = look a

namespace Transfers

variable {view : Position.View} {shown shown' : String → String} {look look' : α → γ}

theorem pure {a a' : α} (same : look' a' = look a) :
    Transfers view shown shown' look look' (Pure.pure a) (Pure.pure a') := by
  rintro _ _ lexemes' ⟨rfl, rfl⟩ alike
  exact ⟨a', ⟨rfl, List.map_eq_nil_iff.1 alike⟩, same⟩

theorem bind {first first' : Language α} {next next' : α → Language β} {last last' : β → δ}
    (begins : Transfers view shown shown' look look' first first')
    (rest : ∀ a a', look' a' = look a →
      Transfers view shown shown' last last' (next a) (next' a')) :
    Transfers view shown shown' last last' (first >>= next) (first' >>= next') := by
  rintro b _ lexemes' ⟨a, before, after, spelled, later, rfl⟩ alike
  rw [List.map_append] at alike
  obtain ⟨before', after', rfl, alike, alike'⟩ := List.map_eq_append_iff.1 alike
  obtain ⟨a', spelled', same⟩ := begins a before before' spelled alike
  obtain ⟨b', later', same'⟩ := rest a a' same b after after' later alike'
  exact ⟨b', ⟨a', before', after', spelled', later', rfl⟩, same'⟩

theorem orElse {first first' second second' : Language α}
    (left : Transfers view shown shown' look look' first first')
    (right : Transfers view shown shown' look look' second second') :
    Transfers view shown shown' look look' (first <|> second) (first' <|> second') := by
  rintro a lexemes lexemes' (spelled | spelled) alike
  · obtain ⟨a', spelled', same⟩ := left a lexemes lexemes' spelled alike
    exact ⟨a', .inl spelled', same⟩
  · obtain ⟨a', spelled', same⟩ := right a lexemes lexemes' spelled alike
    exact ⟨a', .inr spelled', same⟩

theorem nothing {second : Language α} :
    Transfers view shown shown' look look' Language.nothing second :=
  fun _ _ _ spelled => spelled.elim

theorem guard {holds holds' : Prop} (still : holds → holds') :
    Transfers view shown shown' id id (Language.guard holds) (Language.guard holds') := by
  rintro _ _ lexemes' ⟨here, rfl⟩ alike
  exact ⟨(), ⟨still here, List.map_eq_nil_iff.1 alike⟩, rfl⟩

/-! ### Lexemes -/

/-- A language of single lexemes. -/
theorem of_single {language language' : Language α}
    (single : ∀ a lexemes, language a lexemes → ∃ x, lexemes = [x] ∧ ∀ y,
      Lexeme.relabel view shown' y = Lexeme.relabel view shown x →
        ∃ a', language' a' [y] ∧ look' a' = look a) :
    Transfers view shown shown' look look' language language' := by
  intro a lexemes lexemes' spelled alike
  obtain ⟨x, rfl, others⟩ := single a lexemes spelled
  obtain ⟨y, rfl, same⟩ := List.map_eq_singleton_iff.1 alike
  exact others y same

theorem gap : Transfers view shown shown' id id Language.gap Language.gap := by
  refine of_single ?_
  rintro _ _ ⟨start, text, rfl⟩
  refine ⟨_, rfl, ?_⟩
  rintro ⟨kind, start', text'⟩ same
  cases kind <;> simp only [Lexeme.relabel, Lexeme.mk.injEq, reduceCtorEq, false_and] at same
  obtain ⟨same, _⟩ := same
  cases same
  exact ⟨(), ⟨_, _, rfl⟩, rfl⟩

theorem sight {seen : Sight} :
    Transfers view shown shown' id id (Language.sight seen) (Language.sight seen) := by
  refine of_single ?_
  rintro _ _ ⟨start, rfl⟩
  refine ⟨_, rfl, ?_⟩
  rintro ⟨kind, start', text'⟩ same
  cases kind <;> simp only [Lexeme.relabel, Lexeme.mk.injEq, reduceCtorEq, false_and] at same
  obtain ⟨same, _, rfl⟩ := same
  cases same
  exact ⟨(), ⟨_, rfl⟩, rfl⟩

theorem sign {x : Char} : Transfers view shown shown' view.of view.of (Language.sign x)
    (Language.sign x) := by
  refine of_single ?_
  rintro start _ rfl
  refine ⟨_, rfl, fun y same => ?_⟩
  obtain ⟨start', rfl, place⟩ := Lexeme.exists_of_relabel (.inl rfl) same
  exact ⟨start', rfl, place⟩

theorem anySign : Transfers view shown shown' (Prod.map id view.of) (Prod.map id view.of)
    Language.anySign Language.anySign := by
  refine of_single ?_
  rintro ⟨c, start⟩ _ rfl
  refine ⟨_, rfl, fun y same => ?_⟩
  obtain ⟨start', rfl, place⟩ := Lexeme.exists_of_relabel (.inl rfl) same
  exact ⟨(c, start'), rfl, congrArg (Prod.mk c) place⟩

theorem name : Transfers view shown shown' (Word.relabel view) (Word.relabel view)
    Language.name Language.name := by
  refine of_single ?_
  rintro word _ rfl
  refine ⟨_, rfl, fun y same => ?_⟩
  obtain ⟨start', rfl, place⟩ := Lexeme.exists_of_relabel (.inr (.inl rfl)) same
  exact ⟨⟨word.content, start'⟩, rfl, congrArg (Word.mk word.content) place⟩

theorem literal : Transfers view shown shown' (Word.relabel view) (Word.relabel view)
    Language.literal Language.literal := by
  refine of_single ?_
  rintro word _ rfl
  refine ⟨_, rfl, fun y same => ?_⟩
  obtain ⟨start', rfl, place⟩ := Lexeme.exists_of_relabel (.inr (.inr rfl)) same
  exact ⟨⟨word.content, start'⟩, rfl, congrArg (Word.mk word.content) place⟩

theorem escaped : Transfers view shown shown' (EscapedText.relabel view shown)
    (EscapedText.relabel view shown') Language.escaped Language.escaped := by
  refine of_single ?_
  rintro text _ ⟨passed, rfl, inside⟩
  refine ⟨_, rfl, ?_⟩
  rintro ⟨kind, start', text'⟩ same
  cases kind <;> simp only [Lexeme.relabel, Lexeme.mk.injEq, reduceCtorEq, false_and] at same
  next content =>
    obtain ⟨same, place, _⟩ := same
    refine ⟨⟨start', ⟨String.ofList content, start'.after '\x60'⟩⟩,
      ⟨text', by rw [String.toList_ofList], rfl⟩, ?_⟩
    rw [String.ofList_toList] at same
    have content' := String.toList_injective (LexemeKind.escaped.inj same)
    simp only [EscapedText.relabel, content', place, inside, view.after '\x60' place]

theorem plain : Transfers view shown shown' id id Language.plain Language.plain := by
  refine of_single ?_
  rintro text _ ⟨start, rfl⟩
  refine ⟨_, rfl, ?_⟩
  rintro ⟨kind, start', text'⟩ same
  cases kind <;> simp only [Lexeme.relabel, Lexeme.mk.injEq, reduceCtorEq, false_and] at same
  obtain ⟨_, _, rfl⟩ := same
  exact ⟨text', ⟨_, rfl⟩, rfl⟩

/-! ### Repetitions -/

theorem rounds {round round' : Language (Parser.Round α)}
    (each : Transfers view shown shown' (Parser.Round.map look) (Parser.Round.map look') round
      round') :
    Transfers view shown shown' (List.map look) (List.map look') (Language.rounds round)
      (Language.rounds round') := by
  intro items lexemes lexemes' spelled alike
  induction spelled generalizing lexemes' with
  | stop last =>
    obtain ⟨result, last', same⟩ := each _ _ lexemes' last alike
    cases result with
    | stop => exact ⟨[], .stop last', rfl⟩
    | pass => cases same
    | item a => cases same
  | pass first later ih =>
    rw [List.map_append] at alike
    obtain ⟨before, after, rfl, alike, alike'⟩ := List.map_eq_append_iff.1 alike
    obtain ⟨result, first', same⟩ := each _ _ before first alike
    obtain ⟨items', later', same'⟩ := ih after alike'
    cases result with
    | stop => cases same
    | pass => exact ⟨items', .pass first' later', same'⟩
    | item a => cases same
  | item first later ih =>
    rw [List.map_append] at alike
    obtain ⟨before, after, rfl, alike, alike'⟩ := List.map_eq_append_iff.1 alike
    obtain ⟨result, first', same⟩ := each _ _ before first alike
    obtain ⟨items', later', same'⟩ := ih after alike'
    cases result with
    | stop => cases same
    | pass => cases same
    | item a =>
      have head := Parser.Round.item.inj same
      exact ⟨a :: items', .item first' later', by rw [List.map_cons, head, same', List.map_cons]⟩

/-! ### Ignored nodes -/

theorem kept {language language' : Language α}
    (inside : Transfers view shown shown' look look' language language') :
    Transfers view shown shown' look look' (Language.kept language) (Language.kept language') := by
  rintro a _ lexemes' ⟨lexemes, spelled, rfl⟩ alike
  obtain ⟨others, rfl, alike'⟩ := Lexeme.relabel_keep alike
  obtain ⟨a', spelled', same⟩ := inside a lexemes others spelled alike'
  exact ⟨a', ⟨others, spelled', rfl⟩, same⟩

/-- Items up to a place where a sign is missing. -/
theorem items {item item' : Language (Parser.Round α)} {seen : Sight}
    (each : Transfers view shown shown' (Parser.Round.map look) (Parser.Round.map look') item
      item') :
    Transfers view shown shown' (List.map look) (List.map look')
      (Language.rounds (item <|> (do
        Language.sight seen
        return .stop))) (Language.rounds (item' <|> (do
        Language.sight seen
        return .stop))) :=
  rounds (each.orElse (sight.bind fun _ _ _ => pure rfl))

/-! ### Classes, type paths and properties -/

variable {start start' : Position}

theorem classRef : Transfers view shown shown' (ClassRef.relabel view) (ClassRef.relabel view)
    Grammar.classRef Grammar.classRef := by
  refine sign.bind fun _ _ place => ?_
  refine name.bind fun _ _ word => ?_
  exact pure (by simp only [ClassRef.relabel, place, word])

theorem classes : Transfers view shown shown' (List.map (ClassRef.relabel view))
    (List.map (ClassRef.relabel view)) Grammar.classes Grammar.classes := by
  refine items ?_
  refine classRef.bind fun _ _ same => ?_
  refine gap.bind fun _ _ _ => ?_
  exact pure (congrArg Parser.Round.item same)

theorem childSteps : Transfers view shown shown' (List.map (ChildStep.relabel view))
    (List.map (ChildStep.relabel view)) Grammar.childSteps Grammar.childSteps := by
  refine items ?_
  refine sign.bind fun _ _ place => ?_
  refine name.bind fun _ _ word => ?_
  exact pure (by simp only [Parser.Round.map, ChildStep.relabel, place, word])

theorem typePath : Transfers view shown shown' (Parser.Round.map (TypePath.relabel view))
    (Parser.Round.map (TypePath.relabel view)) Grammar.typePath Grammar.typePath := by
  refine gap.bind fun _ _ _ => orElse ?_ (orElse ?_ (sight.bind fun _ _ _ => pure rfl))
  · refine sight.bind fun _ _ _ => childSteps.bind fun _ _ steps => pure ?_
    simp only [Parser.Round.map, TypePath.relabel, steps]
  · refine name.bind fun _ _ root => childSteps.bind fun _ _ steps => pure ?_
    simp only [Parser.Round.map, TypePath.relabel, root, steps]

theorem typePaths : Transfers view shown shown' (List.map (TypePath.relabel view))
    (List.map (TypePath.relabel view)) Grammar.typePaths Grammar.typePaths :=
  rounds typePath

theorem boundValue : Transfers view shown shown' (Value.relabel view shown)
    (Value.relabel view shown') Grammar.boundValue Grammar.boundValue := by
  refine sign.bind fun _ _ place => gap.bind fun _ _ _ => name.bind fun keyword keyword' same => ?_
  have spelt : keyword'.content = keyword.content := congrArg (fun word => word.content) same
  refine (guard spelt.trans).bind fun _ _ _ => gap.bind fun _ _ _ => name.bind fun _ _ word => ?_
  refine gap.bind fun _ _ _ => sign.bind fun _ _ _ => pure ?_
  simp only [Value.relabel, place, word]

theorem value : Transfers view shown shown' (Value.relabel view shown)
    (Value.relabel view shown') Grammar.value Grammar.value := by
  refine boundValue.orElse ?_
  refine orElse ?_ ?_
  · refine escaped.bind fun _ _ same => ?_
    exact pure (congrArg Value.escaped same)
  · refine literal.bind fun _ _ same => ?_
    exact pure (congrArg Value.literal same)

theorem negatedSetting : Transfers view shown shown' (Setting.relabel view shown)
    (Setting.relabel view shown') Grammar.negatedSetting Grammar.negatedSetting := by
  refine sign.bind fun _ _ place => ?_
  refine name.bind fun _ _ word => ?_
  exact pure (by simp only [Setting.relabel, place, word])

theorem namedSetting : Transfers view shown shown' (Setting.relabel view shown)
    (Setting.relabel view shown') Grammar.namedSetting Grammar.namedSetting := by
  refine name.bind fun _ _ set => gap.bind fun _ _ _ => orElse ?_ ?_
  · refine sign.bind fun _ _ _ => gap.bind fun _ _ _ => value.bind fun _ _ given => pure ?_
    simp only [Setting.relabel, set, given]
  · exact sight.bind fun _ _ _ => pure (congrArg Setting.flag set)

theorem setting : Transfers view shown shown' (Parser.Round.map (Setting.relabel view shown))
    (Parser.Round.map (Setting.relabel view shown')) Grammar.setting Grammar.setting := by
  refine gap.bind fun _ _ _ => ?_
  refine orElse (sight.bind fun _ _ _ => pure rfl) ?_
  refine orElse ?_ ?_
  · refine negatedSetting.bind fun _ _ same => ?_
    exact pure (congrArg Parser.Round.item same)
  · refine namedSetting.bind fun _ _ same => ?_
    exact pure (congrArg Parser.Round.item same)

theorem mainValue : Transfers view shown shown' (Option.map (Value.relabel view shown))
    (Option.map (Value.relabel view shown')) Grammar.mainValue Grammar.mainValue := by
  refine orElse ?_ (sight.bind fun _ _ _ => pure rfl)
  exact sign.bind fun _ _ _ => gap.bind fun _ _ _ => value.bind fun _ _ given =>
    pure (congrArg some given)

theorem propertyBlock : Transfers view shown shown' (PropertyBlock.relabel view shown)
    (PropertyBlock.relabel view shown') Grammar.propertyBlock Grammar.propertyBlock := by
  refine sign.bind fun _ _ place => gap.bind fun _ _ _ => mainValue.bind fun _ _ main => ?_
  refine (rounds setting).bind fun _ _ read => sign.bind fun _ _ _ => pure ?_
  simp only [PropertyBlock.relabel, place, main, read]

theorem properties : Transfers view shown shown'
    (Option.map (PropertyBlock.relabel view shown))
      (Option.map (PropertyBlock.relabel view shown')) Grammar.properties Grammar.properties := by
  refine orElse ?_ (sight.bind fun _ _ _ => pure rfl)
  exact propertyBlock.bind fun _ _ same => gap.bind fun _ _ _ => pure (congrArg some same)

/-! ### Preambles -/

theorem declaredProperties {uses uses' : List ClassRef}
    (same : uses'.map (ClassRef.relabel view) = uses.map (ClassRef.relabel view)) :
    Transfers view shown shown' (Option.map (PropertyBlock.relabel view shown))
      (Option.map (PropertyBlock.relabel view shown')) (Grammar.declaredProperties uses)
        (Grammar.declaredProperties uses') := by
  refine orElse (propertyBlock.bind fun _ _ block => pure (congrArg some block)) ?_
  refine sight.bind fun _ _ _ => (guard fun some none => some ?_).bind fun _ _ _ => pure rfl
  rw [none, List.map_nil] at same
  exact List.map_eq_nil_iff.1 same.symm

theorem classDeclaration : Transfers view shown shown' (Directive.relabel view shown)
    (Directive.relabel view shown') Grammar.classDeclaration Grammar.classDeclaration := by
  refine classRef.bind fun _ _ declared => gap.bind fun _ _ _ => typePaths.bind fun _ _ targets => ?_
  refine classes.bind fun _ _ uses => (declaredProperties uses).bind fun _ _ block => pure ?_
  simp only [Directive.relabel, declared, targets, uses, block]

theorem defaultDeclaration : Transfers view shown shown' (Directive.relabel view shown)
    (Directive.relabel view shown') Grammar.defaultDeclaration Grammar.defaultDeclaration := by
  refine typePaths.bind fun _ _ targets => ?_
  refine classes.bind fun _ _ uses => (declaredProperties uses).bind fun _ _ block => pure ?_
  simp only [Directive.relabel, targets, uses, block]

theorem valueBinding : Transfers view shown shown' (Directive.relabel view shown)
    (Directive.relabel view shown') Grammar.valueBinding Grammar.valueBinding := by
  refine name.bind fun _ _ bound => ?_
  refine gap.bind fun _ _ _ => ?_
  refine value.bind fun _ _ given => ?_
  exact pure (by simp only [Directive.relabel, bound, given])

theorem fallbackMark : Transfers view shown shown' (Option.map view.of) (Option.map view.of)
    Grammar.fallbackMark Grammar.fallbackMark := by
  refine orElse ?_ ?_
  · refine sign.bind fun _ _ mark => ?_
    refine gap.bind fun _ _ _ => ?_
    exact pure (congrArg some mark)
  · refine sight.bind fun _ _ _ => ?_
    exact pure rfl

end Transfers

end Language

/-! ### Blocks and nodes -/

/-- What is spelled in the languages of nested constructs carries over to others. -/
structure Grammar.Nested.Transfers (view : Position.View) (shown shown' : String → String)
    (nested nested' : Grammar.Nested) : Prop where
  node : Language.Transfers view shown shown' (Node.relabel view shown) (Node.relabel view shown')
    nested.node nested'.node
  content : Language.Transfers view shown shown' (Content.relabel view shown)
    (Content.relabel view shown') nested.content nested'.content

namespace Language.Transfers

variable {view : Position.View} {shown shown' : String → String} {start start' : Position}
  {nested nested' : Grammar.Nested} (deeper : nested.Transfers view shown shown' nested')

include deeper

theorem contentBinding : Transfers view shown shown' (Directive.relabel view shown)
    (Directive.relabel view shown') (Grammar.contentBinding nested)
      (Grammar.contentBinding nested') := by
  refine name.bind fun _ _ bound => gap.bind fun _ _ _ => sign.bind fun _ _ _ => ?_
  refine gap.bind fun _ _ _ => deeper.content.bind fun _ _ body => sign.bind fun _ _ _ => pure ?_
  simp only [Directive.relabel, bound, body]

theorem directive : Transfers view shown shown' (Directive.relabel view shown)
    (Directive.relabel view shown') (Grammar.directive nested) (Grammar.directive nested') := by
  refine name.bind fun keyword keyword' same => gap.bind fun _ _ _ => ?_
  have spelt : keyword'.content = keyword.content := congrArg (fun word => word.content) same
  rw [spelt]
  cases Keyword.ofSpelling? keyword.content with
  | none => exact nothing
  | some keyword =>
    cases keyword with
    | classes => exact classDeclaration
    | content => exact contentBinding deeper
    | defaults => exact defaultDeclaration
    | value => exact valueBinding
    | text | read | inclusion => exact nothing

theorem preambleElement : Transfers view shown shown' (PreambleElement.relabel view shown)
    (PreambleElement.relabel view shown') (Grammar.preambleElement nested)
      (Grammar.preambleElement nested') := by
  refine sign.bind fun _ _ place => gap.bind fun _ _ _ => fallbackMark.bind fun _ _ mark => ?_
  refine (directive deeper).bind fun _ _ read => gap.bind fun _ _ _ => sign.bind fun _ _ _ => ?_
  exact pure (by simp only [PreambleElement.relabel, place, mark, read])

theorem preamble : Transfers view shown shown' (relabelPreamble view shown)
    (relabelPreamble view shown') (Grammar.preamble nested) (Grammar.preamble nested') := by
  rw [funext (relabelPreamble_eq view shown), funext (relabelPreamble_eq view shown')]
  exact items <| (preambleElement deeper).bind fun _ _ same => gap.bind fun _ _ _ =>
    pure (congrArg Parser.Round.item same)

theorem ignoredNode : Transfers view shown shown' id id (Grammar.ignoredNode nested)
    (Grammar.ignoredNode nested') := by
  refine sign.bind fun _ _ _ => ?_
  refine (kept deeper.node).bind fun _ _ _ => ?_
  exact pure rfl

theorem textRun : Transfers view shown shown' (TextRun.relabel view) (TextRun.relabel view)
    (Grammar.textRun nested) (Grammar.textRun nested') := by
  have piece : Transfers view shown shown' (Parser.Round.map id) (Parser.Round.map id)
      (Grammar.textPiece nested) (Grammar.textPiece nested') := by
    refine orElse (sight.bind fun _ _ _ => pure rfl) (orElse ?_ ?_)
    · exact (ignoredNode deeper).bind fun _ _ _ => pure rfl
    · exact plain.bind fun _ _ same => pure (congrArg Parser.Round.item same)
  refine anySign.bind fun ⟨first, start⟩ ⟨first', start'⟩ same => ?_
  refine (rounds piece).bind fun pieces pieces' same' => pure ?_
  simp only [Prod.map, id, Prod.mk.injEq] at same
  simp only [List.map_id_fun, id] at same'
  simp only [TextRun.relabel, same, same']

/-- The rounds of ignored nodes and of text in lines and in text nodes. -/
theorem textOrIgnored {α γ : Type} {look look' : α → γ} {seen : Sight} {made : TextRun → α}
    (makes : ∀ run run', run'.relabel view = run.relabel view → look' (made run') = look (made run)) :
    Transfers view shown shown' (Parser.Round.map look) (Parser.Round.map look')
      ((do
        Grammar.ignoredNode nested
        return .pass) <|> (do
        Language.sight seen
        return .item (made (← Grammar.textRun nested)))) ((do
        Grammar.ignoredNode nested'
        return .pass) <|> (do
        Language.sight seen
        return .item (made (← Grammar.textRun nested')))) := by
  refine orElse ((ignoredNode deeper).bind fun _ _ _ => pure rfl) ?_
  exact sight.bind fun _ _ _ => (textRun deeper).bind fun run run' same =>
    pure (congrArg Parser.Round.item (makes run run' same))

theorem line : Transfers view shown shown' (relabelLine view shown) (relabelLine view shown')
    (Grammar.line nested) (Grammar.line nested') := by
  have element : Transfers view shown shown' (Parser.Round.map (LineElement.relabel view shown))
      (Parser.Round.map (LineElement.relabel view shown')) (Grammar.lineElement nested)
        (Grammar.lineElement nested') := by
    refine orElse (sight.bind fun _ _ _ => pure rfl) (orElse ?_ (orElse ?_ ?_))
    · exact deeper.node.bind fun _ _ same =>
        pure (by simp only [Parser.Round.map, LineElement.relabel, same])
    · exact escaped.bind fun _ _ same =>
        pure (by simp only [Parser.Round.map, LineElement.relabel, same])
    · exact textOrIgnored deeper fun _ _ same => by simp only [LineElement.relabel, same]
  rw [funext (relabelLine_eq view shown), funext (relabelLine_eq view shown')]
  exact rounds element

theorem textElements : Transfers view shown shown' (List.map (TextElement.relabel view shown))
    (List.map (TextElement.relabel view shown')) (Grammar.textElements nested)
      (Grammar.textElements nested') := by
  refine rounds (orElse (sight.bind fun _ _ _ => pure rfl) (orElse ?_ ?_))
  · exact escaped.bind fun _ _ same =>
      pure (by simp only [Parser.Round.map, TextElement.relabel, same])
  · exact textOrIgnored deeper fun _ _ same => by simp only [TextElement.relabel, same]

theorem lines : Transfers view shown shown' (relabelLines view shown) (relabelLines view shown')
    (Grammar.lines nested) (Grammar.lines nested') := by
  have lists (shown : String → String) : relabelLines view shown = List.map (relabelLine view shown) := by
    rw [funext (relabelLines_eq view shown), funext (relabelLine_eq view shown)]
  rw [lists, lists]
  refine rounds (gap.bind fun _ _ _ => orElse (sight.bind fun _ _ _ => pure rfl) ?_)
  exact sight.bind fun _ _ _ => (line deeper).bind fun _ _ same =>
    pure (congrArg Parser.Round.item same)

theorem content : Transfers view shown shown' (Content.relabel view shown)
    (Content.relabel view shown') (Grammar.content nested) (Grammar.content nested') := by
  refine (preamble deeper).bind fun _ _ same => ?_
  refine (lines deeper).bind fun _ _ same' => ?_
  exact pure (by simp only [Content.relabel, same, same'])

theorem textNode {keyword keyword' : Option Word} (place : view.of start' = view.of start)
    (word : keyword'.map (Word.relabel view) = keyword.map (Word.relabel view)) :
    Transfers view shown shown' (Node.relabel view shown) (Node.relabel view shown')
      (Grammar.textNode nested start keyword) (Grammar.textNode nested' start' keyword') := by
  refine classes.bind fun _ _ uses => ?_
  refine properties.bind fun _ _ block => ?_
  refine (textElements deeper).bind fun _ _ elements => ?_
  exact pure (by simp only [Node.relabel, place, word, uses, block, elements])

theorem typedNode {path path' : TypePath} (place : view.of start' = view.of start)
    (route : path'.relabel view = path.relabel view) :
    Transfers view shown shown' (Node.relabel view shown) (Node.relabel view shown')
      (Grammar.typedNode nested start path) (Grammar.typedNode nested' start' path') := by
  refine classes.bind fun _ _ uses => ?_
  refine properties.bind fun _ _ block => ?_
  refine (content deeper).bind fun _ _ body => ?_
  exact pure (by simp only [Node.relabel, place, route, uses, block, body])

theorem namedNode {first first' : Word} (place : view.of start' = view.of start)
    (same : first'.relabel view = first.relabel view) :
    Transfers view shown shown' (Node.relabel view shown) (Node.relabel view shown')
      (Grammar.namedNode nested start first) (Grammar.namedNode nested' start' first') := by
  have typed : Transfers view shown shown' (Node.relabel view shown) (Node.relabel view shown')
      (do
        let steps ← Grammar.childSteps
        Language.gap
        Grammar.typedNode nested start (.absolute first steps))
      (do
        let steps ← Grammar.childSteps
        Language.gap
        Grammar.typedNode nested' start' (.absolute first' steps)) :=
    childSteps.bind fun _ _ steps => gap.bind fun _ _ _ =>
      typedNode deeper place (by simp only [TypePath.relabel, same, steps])
  have spelt : first'.content = first.content := congrArg (fun word => word.content) same
  unfold Grammar.namedNode
  rw [spelt]
  cases Keyword.ofSpelling? first.content with
  | none => exact typed
  | some keyword =>
    cases keyword with
    | classes | defaults => exact typed
    | text => exact gap.bind fun _ _ _ => textNode deeper place (congrArg some same)
    | read =>
      exact gap.bind fun _ _ _ => classes.bind fun _ _ uses => properties.bind fun _ _ block =>
        pure (by simp only [Node.relabel, place, uses, block])
    | inclusion =>
      exact gap.bind fun _ _ _ => classes.bind fun _ _ uses => properties.bind fun _ _ block =>
        (preamble deeper).bind fun _ _ elements =>
          pure (by simp only [Node.relabel, place, uses, block, elements])
    | content =>
      exact gap.bind fun _ _ _ => name.bind fun _ _ used => gap.bind fun _ _ _ =>
        (preamble deeper).bind fun _ _ elements =>
          pure (by simp only [Node.relabel, place, used, elements])
    | value =>
      exact gap.bind fun _ _ _ => name.bind fun _ _ used => gap.bind fun _ _ _ =>
        pure (by simp only [Node.relabel, place, used])

theorem node : Transfers view shown shown' (Node.relabel view shown) (Node.relabel view shown')
    (Grammar.node nested) (Grammar.node nested') := by
  refine sign.bind fun _ _ place => gap.bind fun _ _ _ => bind ?_ fun _ _ same =>
    sign.bind fun _ _ _ => pure same
  refine orElse ?_ (orElse ?_ (orElse ?_ ?_))
  · exact sight.bind fun _ _ _ => (content deeper).bind fun _ _ body =>
      pure (by simp only [Node.relabel, place, body])
  · exact sight.bind fun _ _ _ => textNode deeper place rfl
  · exact sight.bind fun _ _ _ => childSteps.bind fun _ _ steps => gap.bind fun _ _ _ =>
      typedNode deeper place (by simp only [TypePath.relabel, steps])
  · exact name.bind fun _ _ same => namedNode deeper place same

end Language.Transfers

/-! ### Nesting -/

namespace Grammar

variable {view : Position.View} {shown shown' : String → String}

/-- What is spelled carries over to as many levels of nesting, or more. -/
theorem transfers_ofDepth {depth more : Nat} (fewer : depth ≤ more) :
    (ofDepth depth).Transfers view shown shown' (ofDepth more) := by
  induction depth generalizing more with
  | zero => exact ⟨.nothing, .nothing⟩
  | succ depth ih =>
    obtain ⟨more, rfl⟩ := Nat.exists_eq_add_of_lt fewer
    have deeper := ih (Nat.le_add_right depth more)
    exact ⟨.node deeper, .content deeper⟩

/-- **Whole sources** whose lexemes look alike have trees that do. -/
theorem transfers_file {nested nested' : Nested}
    (deeper : nested.Transfers view shown shown' nested') :
    Language.Transfers view shown shown' (Content.relabel view shown)
      (Content.relabel view shown') (file nested) (file nested') := by
  refine Language.Transfers.gap.bind fun _ _ _ => ?_
  refine deeper.content.bind fun _ _ same => ?_
  refine Language.Transfers.sight.bind fun _ _ _ => ?_
  exact .pure same

end Grammar

end TypedMarkup
