/-
**Lexers of classes, type paths and properties.** What `Lexer.Lexes` says of the lexers whose
constructs hold no blocks: each goes over its language of the grammar.
-/

import TypedMarkup.Proofs.Grammar.Lexes
import TypedMarkup.Proofs.Grammar.SpellsProperty

namespace TypedMarkup.Lexer.Lexes

open TypedMarkup.Language
open TypedMarkup.Parser (Round)

variable {α β : Type} {state : State}

/-! ### Classes and type paths -/

theorem classRef : Lexes classRef state Grammar.classRef done := by
  refine (single (by decide)).bind fun _ _ _ _ _ => ?_
  exact (name (by decide)).map

theorem classes : Lexes classes state Grammar.classes done := by
  refine whileAt (Grammar.opens_classRef.bind _) (fun _ => ((moves_sign '.').bind _).bind _)
    fun _ => ?_
  refine classRef.bind fun _ _ _ _ _ => ?_
  refine skip.bind fun _ _ _ _ _ => ?_
  exact pure rfl

theorem childSteps : Lexes childSteps state Grammar.childSteps done := by
  refine whileAt ((opens_sign '\\').bind _) (fun _ => (moves_sign '\\').bind _) fun _ => ?_
  refine (single (by decide)).bind fun _ _ _ _ _ => ?_
  refine (name (by decide)).bind fun _ _ _ _ _ => ?_
  exact pure rfl

theorem typePath : Lexes typePath state Grammar.typePath Round.goesOn := by
  refine skip_bind fun there _ => head_bind (orElse ?_ (orElse ?_ ?_))
  · refine sight_bind fun sees => ?_
    rw [if_pos (Sight.head_of_shows sees)]
    exact childSteps.bind fun _ _ _ _ _ => pure rfl
  · refine opens (opens_name.bind _) fun found => ?_
    have step : there.cursor.head ≠ some '\\' := by
      intro same
      rw [same] at found
      cases found
    rw [if_neg step, if_pos found]
    exact (name (by decide)).bind fun _ _ _ _ _ => childSteps.bind fun _ _ _ _ _ => pure rfl
  · refine sight_bind fun sees => ?_
    simp only [Sight.sees, Bool.and_eq_true, Bool.not_eq_true', decide_eq_false_iff_not] at sees
    rw [if_neg sees.1, if_neg (by simp [sees.2])]
    exact pure rfl

theorem typePaths : Lexes typePaths state Grammar.typePaths done :=
  many (fun _ => typePath) fun _ => Parser.Spells.goes_typePath

/-! ### Values -/

theorem boundValue : Lexes boundValue state Grammar.boundValue done := by
  refine (single (by decide)).bind fun _ _ _ _ _ => skip_bind fun there _ => ?_
  refine opens (opens_word (p := fun word => word = Keyword.value.spelling)
    fun _ other => (opens_guard other).bind _) fun spelt => ?_
  refine rest_bind ?_
  dsimp only
  rw [if_neg (by simpa using spelt)]
  refine (name_emit (by decide)).bind fun _ _ _ _ _ => guard_bind fun _ => ?_
  refine skip_bind fun _ _ => (name (by decide)).bind fun _ _ _ _ _ => skip_bind fun _ _ => ?_
  exact (expect (by decide)).map

theorem value : Lexes value state Grammar.value done := by
  refine head_bind (orElse ?_ (orElse ?_ ?_))
  · refine opens Grammar.opens_boundValue fun bound => ?_
    rw [if_pos bound]
    exact boundValue
  · refine opens (opens_escaped.bind _) fun quote => ?_
    rw [if_neg (by simp [quote]), if_pos quote]
    exact escapedText.map
  · refine opens (opens_literal.bind _) fun found => ?_
    have bound : state.cursor.head ≠ some '<' := fun same => by
      rw [same] at found
      cases found
    have quote : state.cursor.head ≠ some '\x60' := fun same => by
      rw [same] at found
      cases found
    rw [if_neg bound, if_neg quote, if_pos found]
    exact rest_bind literal.map

/-! ### Property blocks -/

/-- An equals sign and a value. -/
theorem assigned {f : Value → α} : Lexes (do
    Lexer.single .propertyAssign
    Lexer.skip
    Lexer.value) state (do
    let _ ← sign '='
    gap
    return f (← Grammar.value)) done := by
  refine (single (by decide)).bind fun _ _ _ _ _ => ?_
  refine skip_bind fun _ _ => ?_
  exact value.map

theorem negatedSetting : Lexes (do
    Lexer.single .propertyNegate
    Lexer.name .propertyName) state Grammar.negatedSetting done := by
  refine (single (by decide)).bind fun _ _ _ _ _ => ?_
  exact (name (by decide)).map

theorem namedSetting : Lexes (do
    Lexer.name .propertyName
    Lexer.skip
    assignment) state Grammar.namedSetting done := by
  refine (name (by decide)).bind fun _ _ _ _ _ => skip_bind fun there _ => head_bind (orElse ?_ ?_)
  · refine opens ((opens_sign '=').bind _) fun equals => ?_
    rw [if_pos equals]
    exact assigned
  · refine sight_bind fun sees => ?_
    have other : there.cursor.head ≠ some '=' := fun same => by
      rw [same] at sees
      cases sees
    rw [if_neg other]
    exact pure rfl

theorem setting : Lexes setting state Grammar.setting Round.goesOn := by
  refine skip_bind fun there _ => head_bind (orElse ?_ (orElse ?_ ?_))
  · refine sight_bind fun sees => ?_
    rw [Sight.head_of_shows sees]
    exact pure rfl
  · refine opens (Grammar.opens_negatedSetting.bind _) fun mark => ?_
    rw [mark]
    simpa only [bind_assoc] using negatedSetting.item
  · refine opens (Grammar.opens_namedSetting.bind _) fun found => ?_
    have brace : there.cursor.head ≠ some '\x7d' := fun same => by
      rw [same] at found
      cases found
    have mark : there.cursor.head ≠ some '!' := fun same => by
      rw [same] at found
      cases found
    split
    · next same => exact absurd same brace
    · next same => exact absurd same mark
    · rw [if_pos found]
      simpa only [bind_assoc] using namedSetting.item

theorem mainValue : Lexes assignment state Grammar.mainValue done := by
  refine head_bind (orElse ?_ ?_)
  · refine opens ((opens_sign '=').bind _) fun equals => ?_
    rw [if_pos equals]
    exact assigned
  · refine sight_bind fun sees => ?_
    have other : state.cursor.head ≠ some '=' := fun same => by simp [Sight.sees, same] at sees
    rw [if_neg other]
    exact pure rfl

theorem propertyBlock : Lexes propertyBlock state Grammar.propertyBlock done := by
  refine (single (by decide)).bind fun _ _ _ _ _ => skip_bind fun _ _ => ?_
  refine mainValue.bind fun _ _ _ _ _ => ?_
  refine (many (fun _ => setting) fun _ => Parser.Spells.goes_setting).bind fun _ _ _ _ _ => ?_
  exact (single (by decide)).map

theorem properties : Lexes (do
    if (← head) = some '\x7b' then
      Lexer.propertyBlock
      Lexer.skip) state Grammar.properties done := by
  refine head_bind (orElse ?_ ?_)
  · refine opens (Grammar.opens_propertyBlock.bind _) fun brace => ?_
    rw [if_pos brace]
    exact propertyBlock.bind fun _ _ _ _ _ => skip.map
  · refine sight_bind fun sees => ?_
    have other : state.cursor.head ≠ some '\x7b' := fun same => by simp [Sight.sees, same] at sees
    rw [if_neg other]
    exact pure rfl

/-- The lexer has one part for both. -/
theorem classesAndProperties_bind {next : Unit → Lexer β} {say : α → β}
    {next' : List ClassRef → Option PropertyBlock → Language α}
    (rest : ∀ read block after, Lexes (next ()) after (next' read block) say) :
    Lexes (classesAndProperties >>= next) state (do
      let read ← Grammar.classes
      let block ← Grammar.properties
      next' read block) say := by
  unfold Lexer.classesAndProperties
  rw [bind_assoc]
  exact classes.bind fun read _ _ _ _ => properties.bind fun block _ after _ _ =>
    rest read block after

theorem classesAndProperties {f : List ClassRef → Option PropertyBlock → α} :
    Lexes classesAndProperties state (do
      let read ← Grammar.classes
      return f read (← Grammar.properties)) done := by
  refine classes.bind fun _ _ _ _ _ => ?_
  exact properties.map

end TypedMarkup.Lexer.Lexes
