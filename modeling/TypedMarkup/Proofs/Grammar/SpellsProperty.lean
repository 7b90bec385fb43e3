/-
**Parsers of classes, type paths and properties.** What `Parser.Spells` says of the parsers whose
constructs hold no blocks: each reads its language of the grammar.
-/

import TypedMarkup.Proofs.Grammar.Spells

namespace TypedMarkup

namespace Grammar

open TypedMarkup.Language

/-! ### How constructs open -/

theorem opens_classRef : classRef.Opens fun c => c.head = some '.' :=
  (opens_sign '.').bind _

theorem opens_boundValue : boundValue.Opens fun c => c.head = some '<' :=
  (opens_sign '<').bind _

theorem opens_negatedSetting : negatedSetting.Opens fun c => c.head = some '!' :=
  (opens_sign '!').bind _

theorem opens_namedSetting : namedSetting.Opens fun c => c.head.any isNameChar = true :=
  opens_name.bind _

theorem opens_propertyBlock : propertyBlock.Opens fun c => c.head = some '\x7b' :=
  (opens_sign '\x7b').bind _

end Grammar

namespace Parser

/-! ### Property blocks in two steps -/

/-- The main value of a property block, if it has one. -/
def mainValue : Parser (Option Value) := do
  if (← head) = some '=' then
    advance
    skip
    some <$> value
  else
    return none

/-- A property block reads its main value before its settings. -/
theorem propertyBlock_eq : propertyBlock = (do
    let start ← position
    advance
    skip
    let main ← mainValue
    let read ← settings start
    advance
    return ⟨start, main, read⟩) := by
  unfold propertyBlock mainValue
  congr
  funext start
  congr
  funext _
  congr
  funext _
  rw [bind_assoc]
  congr
  funext next
  split
  · simp only [bind_assoc]
  · rfl

end Parser

namespace Parser.Spells

open TypedMarkup.Language

variable {c : Cursor} {start : Position}

/-! ### Classes and type paths -/

theorem classRef (found : c.head = some '.') : Spells classRef c Grammar.classRef := by
  refine position_bind ?_
  exact advance_bind found (by decide) name.map

theorem classes : Spells classes c Grammar.classes := by
  refine whileAt (by decide) (Grammar.opens_classRef.bind _)
    (fun _ => ((moves_sign '.').bind _).bind _) fun _ found => ?_
  refine (classRef found).bind fun _ _ _ _ _ => ?_
  refine skip.bind fun _ _ _ _ _ => ?_
  exact pure _

theorem childSteps : Spells childSteps c Grammar.childSteps := by
  refine whileAt (by decide) ((opens_sign '\\').bind _) (fun _ => (moves_sign '\\').bind _)
    fun _ found => ?_
  exact position_bind (advance_bind found (by decide) name.map)

theorem typePath : Spells typePath c Grammar.typePath := by
  refine skip.bind fun _ here _ _ _ => head_bind ?_
  by_cases step : here.head = some '\\'
  · rw [if_pos step]
    refine left (sight_bind (by simp [Sight.sees, step]) childSteps.map) (Opens.orElse ?_ ?_)
    · exact (opens_name.bind _).ne (by simp [step]; decide)
    · exact ((opens_sight _).bind _).ne (by simp [Sight.sees, step])
  · rw [if_neg step]
    refine right (((opens_sight _).bind _).ne ?_) ?_
    · cases other : here.head with
      | none => simp [Sight.sees]
      | some y => simpa [Sight.sees, other] using step
    · by_cases found : here.head.any isNameChar = true
      · rw [if_pos found]
        refine left (name.bind fun _ _ _ _ _ => childSteps.map) ?_
        exact ((opens_sight _).bind _).ne (by simp [Sight.sees, found])
      · rw [if_neg found]
        refine right ((opens_name.bind _).ne found) (sight_bind ?_ (pure _))
        simp [Sight.sees, step, found]

/-- A type path that stands behind what separates it has a name. -/
theorem goes_typePath : Grammar.typePath.Goes c := by
  refine .gap fun there _ => .orElse (.sight fun sees => ?_) (.orElse ?_ (goes_stop _))
  · have step : there.head = some '\\' := Sight.head_of_shows sees
    refine (Moves.bind (.rounds (.orElse ((moves_sign _).bind _) ?_)) _).goes
    exact ((opens_sight _).bind _).moves (by simp [Sight.sees, step])
  · exact (moves_name.bind _).goes

theorem typePaths : Spells typePaths c Grammar.typePaths :=
  many (fun _ => typePath) fun _ => goes_typePath

/-! ### Values -/

theorem boundValue (found : c.head = some '<') : Spells boundValue c Grammar.boundValue := by
  refine position_bind (advance_bind found (by decide) (skip.bind fun _ here _ _ _ => head_bind ?_))
  dsimp only
  split
  · next missing =>
    exact fail_bind ((opens_name.bind _).ne (by simpa using missing))
  · refine name.bind fun keyword _ _ _ _ => ?_
    split
    · next other =>
      exact failAt_bind (((opens_guard (by simpa using other)).bind _).mono fun _ => False.elim)
    · next same =>
      refine guard_bind (by simpa using same) (skip.bind fun _ _ _ _ _ => ?_)
      exact name.bind fun _ _ _ _ _ => skip.bind fun _ _ _ _ _ => expect_bind (by decide) fun _ => pure _

theorem value : Spells value c Grammar.value := by
  unfold Parser.value
  refine head_bind ?_
  by_cases bound : c.head = some '<'
  · rw [if_pos bound]
    refine left (boundValue bound) (.orElse ?_ ?_)
    · exact (opens_escaped.bind _).ne (by simp [bound])
    · exact (opens_literal.bind _).ne (by rw [bound]; decide)
  rw [if_neg bound]
  refine right (Grammar.opens_boundValue.ne bound) ?_
  by_cases quote : c.head = some '\x60'
  · rw [if_pos quote]
    refine left (escapedText quote).map ?_
    exact (opens_literal.bind _).ne (by rw [quote]; decide)
  rw [if_neg quote]
  refine right ((opens_escaped.bind _).ne quote) ?_
  by_cases found : c.head.any isValueChar = true
  · rw [if_pos found]
    exact (literal found).map
  · rw [if_neg found]
    exact fail ((opens_literal.bind _).ne found)

/-! ### Property blocks -/

theorem negatedSetting (found : c.head = some '!') :
    Spells negatedSetting c Grammar.negatedSetting := by
  refine position_bind (advance_bind found (by decide) (head_bind ?_))
  dsimp only
  split
  · next missing => exact fail_bind ((opens_name.bind _).ne (by simpa using missing))
  · exact name.map

theorem namedSetting : Spells namedSetting c Grammar.namedSetting := by
  refine name.bind fun set _ _ _ _ => skip.bind fun _ here _ gap flows => head_bind ?_
  have clear := Sight.isComment_eq_false (gap_ends gap flows)
  by_cases equals : here.head = some '='
  · rw [if_pos equals]
    refine left (advance_bind equals (by decide) (skip.bind fun _ _ _ _ _ => value.map)) ?_
    exact ((opens_sight _).bind _).ne (by simp [Sight.sees, clear]; rw [equals]; decide)
  rw [if_neg equals]
  refine right (((opens_sign _).bind _).ne equals) ?_
  split
  · next next => exact sight_bind (by simpa [Sight.sees, clear] using next) (pure _)
  · next other => exact fail (((opens_sight _).bind _).ne (by simpa [Sight.sees, clear] using other))

theorem setting {start : Position} : Spells (setting start) c Grammar.setting := by
  refine skip.bind fun _ here _ _ _ => head_bind ?_
  have notClose (other : here.head ≠ some '\x7d') :
      (do
        sight (.shows ['\x7d'])
        return .stop : Language (Round Setting)).Opens (· ≠ here) := by
    exact ((opens_sight _).bind _).ne fun sees => other (Sight.head_of_shows sees)
  split
  · next missing =>
    refine fail (.orElse (notClose (by simp [missing])) (.orElse ?_ ?_))
    · exact (Grammar.opens_negatedSetting.bind _).ne (by simp [missing])
    · exact (Grammar.opens_namedSetting.bind _).ne (by simp [missing])
  · next found =>
    refine left (sight_bind (by simp [Sight.sees, found]) (pure _)) (.orElse ?_ ?_)
    · exact (Grammar.opens_negatedSetting.bind _).ne (by simp [found])
    · exact (Grammar.opens_namedSetting.bind _).ne (by rw [found]; decide)
  · next found =>
    refine right (notClose (by simp [found])) (left (negatedSetting found).map ?_)
    exact (Grammar.opens_namedSetting.bind _).ne (by rw [found]; decide)
  · next x notBrace notMark found =>
    have mark : here.head ≠ some '!' := fun same => notMark (by simpa [found] using same)
    refine right (notClose fun same => notBrace (by simpa [found] using same)) ?_
    refine right ((Grammar.opens_negatedSetting.bind _).ne mark) ?_
    split
    · exact namedSetting.map
    · next other =>
      exact fail ((Grammar.opens_namedSetting.bind _).ne (by simpa [found] using other))

/-- The settings of a block end at its closing brace. -/
theorem setting_stops (lexemes : List Lexeme) (before after : Cursor)
    (spelled : Grammar.setting .stop lexemes) (flows : before.Flows lexemes after) :
    after.head = some '\x7d' := by
  obtain ⟨_, _, _, ⟨start, text, rfl⟩, spelled, rfl⟩ := spelled
  obtain ⟨_, _, _, ⟨place, rfl⟩, ⟨_, rfl⟩, rfl⟩ | spelled := spelled
  · obtain ⟨_, ⟨_, _, sees⟩, rfl⟩ := flows
    rw [Cursor.behind_nil] at *
    exact Sight.head_of_shows sees
  · rcases spelled with ⟨_, _, _, _, ⟨same, _⟩, _⟩ | ⟨_, _, _, _, ⟨same, _⟩, _⟩ <;> cases same

theorem goes_setting : Grammar.setting.Goes c := by
  refine .gap fun _ _ => ?_
  refine (goes_stop _).orElse ?_
  refine (((moves_sign '!').bind _).bind _).goes.orElse ?_
  exact ((moves_name.bind _).bind _).goes

theorem settings : Spells (settings start) c Grammar.settings :=
  many (fun _ => setting) fun _ => goes_setting

theorem mainValue : Spells mainValue c Grammar.mainValue := by
  refine head_bind ?_
  by_cases equals : c.head = some '='
  · rw [if_pos equals]
    refine left (advance_bind equals (by decide) (skip.bind fun _ _ _ _ _ => value.map)) ?_
    exact ((opens_sight _).bind _).ne (by simp [Sight.sees, equals])
  · rw [if_neg equals]
    refine right (((opens_sign _).bind _).ne equals) (sight_bind ?_ (pure _))
    exact Sight.sees_avoids rfl equals

theorem propertyBlock (found : c.head = some '\x7b') :
    Spells propertyBlock c Grammar.propertyBlock := by
  rw [propertyBlock_eq]
  refine position_bind (advance_bind found (by decide) (skip.bind fun _ here _ _ _ => ?_))
  refine mainValue.bind fun _ _ _ _ _ => settings.bind fun _ there _ spelled flows => ?_
  exact advance_bind (rounds_ends setting_stops spelled flows) (by decide) (pure _)

theorem properties : Spells properties c Grammar.properties := by
  refine head_bind ?_
  by_cases brace : c.head = some '\x7b'
  · rw [if_pos brace]
    refine left ((propertyBlock brace).bind fun _ _ _ _ _ => skip.bind fun _ _ _ _ _ => pure _) ?_
    exact ((opens_sight _).bind _).ne (by simp [Sight.sees, brace])
  · rw [if_neg brace]
    refine right ((Grammar.opens_propertyBlock.bind _).ne brace) (sight_bind ?_ (pure _))
    exact Sight.sees_avoids rfl brace

end Parser.Spells

end TypedMarkup
