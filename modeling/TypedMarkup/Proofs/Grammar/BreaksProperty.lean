/-
**Where parsers of classes, type paths and properties break off.** What `Parser.Breaks` says of the
parsers whose constructs hold no blocks.
-/

import TypedMarkup.Proofs.Grammar.Breaks

namespace TypedMarkup

namespace Parser.Breaks

open Grammar (Follow.name Follow.setting Follow.element Follow.value Follow.parts Follow.block)
open TypedMarkup.Language (Finishes)

variable {c : Cursor} {start : Position} {middle follow : List (Option Char)}

/-! ### Classes and type paths -/

theorem classRef (found : c.head = some '.') (ends : LexemeKind.name.Ends follow) :
    Breaks 0 classRef c Grammar.classRef follow := by
  refine position_bind ?_
  exact advance_bind found (by decide) (Finishes.name ends).map (by decide) name.map

theorem classes : Breaks 0 classes c Grammar.classes Follow.parts := by
  refine whileAt rfl (fun _ found => ?_) (fun _ => .classItem) (by decide) fun here found => ?_
  · exact ((Spells.classRef found).bind fun _ _ _ _ _ => Spells.skip.bind
      fun _ _ _ _ _ => Spells.pure _).yields
  · have name : LexemeKind.name.Ends Follow.parts := by decide
    exact bind (Spells.classRef found).yields (.inr (.sign_name (by decide) name))
      (classRef found name) (fun _ => (Finishes.gap (by decide)).map) fun _ _ _ _ _ => of_ok rfl

theorem childSteps : Breaks 0 childSteps c Grammar.childSteps Follow.parts := by
  refine whileAt rfl (fun _ found => ?_) (fun _ => ?_) (by decide) fun here found => ?_
  · exact (Spells.position_bind (Spells.advance_bind found (by decide) Spells.name.map)).yields
  · exact .sign_name (by decide) (by decide)
  · exact position_bind (advance_bind found (by decide) (Finishes.name (by decide)).map (by decide)
      name.map)

theorem typePaths : Breaks 0 typePaths c Grammar.typePaths Follow.parts := by
  refine many (fun _ => Spells.typePath.yields) (.inr fun _ => .typePath) Finishes.typePaths
    fun _ => ?_
  refine skip_bind ?_ (by decide : (LexemeKind.gap false).Ends Follow.parts) fun there _ => head_bind ?_
  · exact Finishes.right (.right (Finishes.sight (by decide)).map)
  by_cases step : there.head = some '\\'
  · rw [if_pos step]
    exact left (sight_bind (by simp [Sight.sees, step]) childSteps.map)
  · rw [if_neg step]
    refine right ?_
    split
    · exact left (name_bind (fun _ => Finishes.childSteps.map) (by decide) fun _ _ => childSteps.map)
    · exact pure _

/-! ### Values -/

/-- Escaped text that is not closed is passed over up to where it could be. -/
theorem escapedText (found : c.head = some '\x60') :
    Breaks 1 escapedText c Language.escaped follow := by
  have ran := Agrees.run_escapedText c
  dsimp only at ran
  rw [Cursor.take_one_of_head found, c.behind_one_rest '\x60'] at ran
  obtain ⟨tail, split⟩ := scanEscaped_stands c.position.col 0 c.rest.tail
  have whole : '\x60' :: ((scanEscaped c.position.col 0 c.rest.tail).passed ++ tail) = c.rest := by
    rw [split, ← Cursor.rest_of_head found]
  intro error failed
  have stopped : (scanEscaped c.position.col 0 c.rest.tail).ending ≠ .closed ∧
      error.position = c.position.past
        ('\x60' :: (scanEscaped c.position.col 0 c.rest.tail).passed) := by
    rw [ran] at failed
    cases ending : (scanEscaped c.position.col 0 c.rest.tail).ending with
    | closed =>
      rw [ending] at failed
      cases failed
    | unclosed | unpadded =>
      rw [ending] at failed
      cases failed
      exact ⟨fun same => EscapedEnd.noConfusion same, rfl⟩
  obtain ⟨content, closing, front, closes⟩ := scanEscaped_closes stopped.1
  replace stopped := stopped.2
  generalize (scanEscaped c.position.col 0 c.rest.tail).passed = passed at whole stopped closes
  refine ⟨'\x60' :: passed, Nat.succ_pos _, ⟨tail, whole⟩, stopped, fun _ => ?_⟩
  refine ⟨closing, ⟨c.position, ⟨String.ofList content, c.position.after '\x60'⟩⟩,
    [⟨.escaped content, c.position, '\x60' :: passed ++ closing⟩], ⟨_, by rw [String.toList_ofList], rfl⟩, fun rest _ => ⟨?_, ?_⟩⟩
  · rw [List.head?_append]
    rcases front with same | same <;> rw [same] <;> rfl
  · refine .single ⟨_, rfl, rfl, ?_⟩ rfl
    show scanEscaped c.position.col 0 (passed ++ closing ++ rest) = _
    rw [List.append_assoc]
    exact closes rest

theorem boundValue (found : c.head = some '<') :
    Breaks 0 boundValue c Grammar.boundValue Follow.value := by
  have feed : LexemeKind.name.Ends [some '\n'] := by decide
  have clear : (LexemeKind.gap false).Ends [some 'v'] := by decide
  have close (start : Position) (bound : Word) : Finishes [some '>'] (do
      Language.gap
      let _ ← Language.sign '>'
      return Value.bound start bound) Follow.value :=
    (Finishes.gap (by decide)).bind fun _ => (Finishes.sign (by decide)).map
  have named : Finishes [some '\n'] (do
      Language.gap
      let bound ← Language.name
      Language.gap
      let _ ← Language.sign '>'
      return Value.bound c.position bound) Follow.value :=
    (Finishes.gap_feed clear).bind fun _ => (Finishes.name (by decide)).bind fun _ => close _ _
  have word : ['v', 'a', 'l'].all isNameChar = true := by decide
  have whole : Finishes [some 'v'] (do
      let keyword ← Language.name
      Language.guard (keyword.content = Keyword.value.spelling)
      Language.gap
      let bound ← Language.name
      Language.gap
      let _ ← Language.sign '>'
      return Value.bound c.position bound) Follow.value :=
    .name_bind (List.all_eq_true.1 word) feed
      ((Finishes.guard (by decide)).bind fun _ => named)
  refine position_bind (advance_bind found (by decide) ((Finishes.gap clear).bind fun _ => whole)
    (by decide) (skip_bind whole clear fun here _ => head_bind ?_))
  dsimp only
  split
  · exact fail_bind
  · next some =>
    refine word_bind (by simpa using some) feed fun keyword there => ?_
    split
    · refine .inl fun error failed => ?_
      cases failed
      rfl
    · next same =>
      refine .inr ⟨(Finishes.guard (by simpa using same)).bind fun _ => named, ?_⟩
      refine guard_bind (by simpa using same) (skip_bind ?_ clear fun _ _ => ?_)
      · exact (Finishes.name (by decide)).bind fun _ => close _ _
      refine name_bind (fun bound => close _ bound) (by decide) fun bound _ => ?_
      exact skip_bind (Finishes.sign (by decide)).map (by decide) fun _ _ =>
        expect_bind (by decide) (fun _ => Finishes.pure _) (by decide) (pure _)

theorem value : Breaks 0 value c Grammar.value Follow.value := by
  unfold Parser.value
  refine head_bind ?_
  split
  · next found => exact left (boundValue found)
  split
  · next found => exact right (left ((escapedText found).map.mono (Nat.zero_le _)))
  split
  · exact of_ok rfl
  · exact fail

/-! ### Property blocks -/

theorem negatedSetting (found : c.head = some '!') :
    Breaks 0 negatedSetting c Grammar.negatedSetting Follow.setting := by
  refine position_bind (advance_bind found (by decide) (Finishes.name (by decide)).map (by decide)
    (head_bind ?_))
  dsimp only
  split
  · exact fail_bind
  · exact name.map

theorem namedSetting : Breaks 0 namedSetting c Grammar.namedSetting Follow.setting := by
  have flag (set : Word) : Finishes Follow.setting ((do
      let _ ← Language.sign '='
      Language.gap
      return .pair set (← Grammar.value)) <|> (do
      Language.sight .settingNext
      return Setting.flag set)) Follow.setting :=
    .right (Finishes.sight (by decide)).map
  have clear : (LexemeKind.gap false).Ends Follow.setting := by decide
  refine name_bind (fun set => (Finishes.gap clear).bind fun _ => flag set) (by decide) fun set _ => ?_
  refine skip_bind (flag set) clear fun here _ => head_bind ?_
  split
  · next equals =>
    refine left (advance_bind equals (by decide) ?_ (by decide : LexemeKind.sign.Ends [some '\x60']) ?_)
    · exact (Finishes.gap (by decide)).bind fun _ => Finishes.value.map
    · exact skip_bind Finishes.value.map (by decide) fun _ _ => (value.before (by decide)).map
  · split
    · exact pure _
    · exact fail

theorem setting : Breaks 0 (setting start) c Grammar.setting Follow.setting := by
  refine skip_bind (Finishes.left (Finishes.sight (by decide)).map)
    (by decide : (LexemeKind.gap false).Ends Follow.setting) fun here _ => head_bind ?_
  split
  · exact fail
  · exact pure _
  · next found => exact right (left (negatedSetting found).map)
  · split
    · exact right (right namedSetting.map)
    · exact fail

theorem settings : Breaks 0 (settings start) c Grammar.settings Follow.setting :=
  many (fun _ => Spells.setting.yields) (.inr fun _ => .setting) Finishes.settings fun _ => setting

theorem mainValue : Breaks 0 mainValue c Grammar.mainValue Follow.setting := by
  refine head_bind ?_
  split
  · next equals =>
    have clear : (LexemeKind.gap false).Ends [some '\x60'] := by decide
    refine left (advance_bind equals (by decide) ((Finishes.gap clear).bind fun _ =>
      Finishes.value.map) (by decide) ?_)
    exact skip_bind Finishes.value.map clear fun _ _ => (value.before (by decide)).map
  · exact pure _

theorem propertyBlock (found : c.head = some '\x7b') (ends : LexemeKind.sign.Ends follow) :
    Breaks 0 propertyBlock c Grammar.propertyBlock follow := by
  have close (main : Option Value) (read : List Setting) : Finishes Follow.setting (do
      let _ ← Language.sign '\x7d'
      return (⟨c.position, main, read⟩ : PropertyBlock)) follow :=
    (Finishes.sign (by decide)).map
  have inside (main : Option Value) := Finishes.settings.bind fun read => close main read
  have clear : (LexemeKind.gap false).Ends Follow.setting := by decide
  have block := Finishes.mainValue.bind inside
  rw [propertyBlock_eq]
  refine position_bind (advance_bind found (by decide) ((Finishes.gap clear).bind fun _ => block)
    (by decide) (skip_bind block clear fun _ _ => ?_))
  refine bind Spells.mainValue.yields (.inr .mainValue) mainValue inside fun main _ _ _ _ => ?_
  refine bind Spells.settings.yields (.inr .settings) settings (close main) ?_
  intro read there _ spelled flows
  exact advance_bind (Language.rounds_ends Spells.setting_stops spelled flows) (by decide)
    (Finishes.pure _) ends (pure _)

theorem properties : Breaks 0 properties c Grammar.properties Follow.block := by
  refine head_bind ?_
  split
  · next found =>
    refine left (bind (Spells.propertyBlock found).yields (.inr (.propertyBlock (by decide)))
      (propertyBlock found (by decide)) (fun _ => (Finishes.gap ?_).map) fun _ _ _ _ _ => of_ok rfl)
    decide
  · exact pure _

end Parser.Breaks

end TypedMarkup
