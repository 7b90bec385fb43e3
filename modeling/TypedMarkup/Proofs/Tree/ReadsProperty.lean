/-
**Reading classes, type paths and properties.** What `Parser.Reads` says of the parsers whose
constructs hold no blocks: what they record stands in the source, their errors tell the truth, and
none of them is ever exhausted.
-/

import TypedMarkup.Proofs.Tree.Reads

namespace TypedMarkup

/-! ### Escaped text -/

/-- What a scan passes over stands at the front of what it scans. -/
theorem scanEscaped_stands (col due : Nat) (text : List Char) :
    (scanEscaped col due text).passed <+: text := by
  fun_induction scanEscaped col due text with
  | case1 due rest ih => exact List.cons_prefix_cons.2 ⟨rfl, ih⟩
  | case2 => exact List.nil_prefix
  | case3 => exact List.nil_prefix
  | case4 => exact List.nil_prefix
  | case5 rest => exact ⟨rest, rfl⟩
  | case6 rest ih =>
    exact List.cons_prefix_cons.2 ⟨rfl, List.cons_prefix_cons.2 ⟨rfl, ih⟩⟩
  | case7 rest ih =>
    exact List.cons_prefix_cons.2 ⟨rfl, List.cons_prefix_cons.2 ⟨rfl, ih⟩⟩
  | case8 rest ih => exact List.cons_prefix_cons.2 ⟨rfl, ih⟩
  | case9 c rest _ _ _ _ _ ih => exact List.cons_prefix_cons.2 ⟨rfl, ih⟩

/-- An escaped text without end is left with nothing, or with a backslash that escapes nothing. -/
theorem scanEscaped_unclosed {col due : Nat} {text : List Char}
    (unclosed : (scanEscaped col due text).ending = .unclosed) :
    text.drop (scanEscaped col due text).passed.length = [] ∨
      text.drop (scanEscaped col due text).passed.length = ['\\'] := by
  fun_induction scanEscaped col due text with
  | case1 due rest ih => exact ih unclosed
  | case2 => cases unclosed
  | case3 => exact .inl rfl
  | case4 => exact .inr rfl
  | case5 rest => cases unclosed
  | case6 rest ih => exact ih unclosed
  | case7 rest ih => exact ih unclosed
  | case8 rest ih => exact ih unclosed
  | case9 c rest _ _ _ _ _ ih => exact ih unclosed

namespace Parser.Reads

variable {source c : Cursor} {bound : Nat}

theorem escapedText (found : c.head = some '\x60') :
    Reads source bound escapedText c fun text after =>
      text.Stands source ∧ after.rest.length + 1 ≤ c.rest.length := by
  unfold Parser.escapedText
  refine here fun reaches => position_bind ((advance found).bind fun _ inside moves passed => ?_)
  obtain ⟨rfl, short⟩ := passed
  have stands := scanEscaped_stands c.position.col 0 (c.behind ['\x60']).rest
  have later := Cursor.reaches_behind stands
  have start := later.length_le
  -- The scan itself is no parser: the cursor is set to where it ended.
  refine get_bind (set_bind later ?_)
  split
  · refine pure ⟨reaches.finds ⟨found, ?_⟩, by omega⟩
    rfl
  · next unclosed =>
    refine fail (List.cons_ne_nil _ _) ?_ (started_some reaches (moves.trans later))
    have other : ((c.behind ['\x60']).behind
        (scanEscaped c.position.col 0 (c.behind ['\x60']).rest).passed).head ≠ some '\x60' := by
      rw [Cursor.behind_head]
      rcases scanEscaped_unclosed unclosed with left | left
      · rw [left]
        decide
      · rw [left]
        decide
    simpa using other
  · exact fail (List.cons_ne_nil _ _) (by simp) started_none

/-! ### Classes and type paths -/

theorem classRef (found : c.head = some '.') :
    Reads source bound classRef c fun used after =>
      (Part.classRef used).Stands source ∧ after.rest.length + 1 ≤ c.rest.length := by
  unfold Parser.classRef
  refine here fun reaches => position_bind ((advance found).bind fun _ inside _ passed => ?_)
  obtain ⟨_, short⟩ := passed
  refine name.bind fun word after moves read => ?_
  have fewer := moves.length_le
  exact pure ⟨⟨reaches.finds found, read.1⟩, by omega⟩

theorem classRound : Reads source bound classRound c
    (Goes (fun used => (Part.classRef used).Stands source)
      (fun after => after.head ≠ some '.') c) := by
  apply head_bind
  split
  · next found =>
    refine (classRef found).bind fun used inside _ read => ?_
    refine skip.bind fun _ after moves _ => ?_
    have fewer := moves.length_le
    exact pure ⟨by omega, read.1⟩
  · next other => exact pure other

theorem classes : Reads source bound classes c fun uses after =>
    AllStand source (uses.map Part.classRef) ∧ after.head ≠ some '.' := by
  refine (many _ _ fun _ _ => classRound).mono fun _ _ _ read => ?_
  exact ⟨List.forall_mem_map.2 read.1, read.2⟩

/-- At a backslash there is a step. -/
theorem childStepRound : Reads source bound childStepRound c fun result after =>
    Goes (fun step : ChildStep => step.Stands source) (fun _ => True) c result after ∧
      (c.head = some '\\' → ∃ step, result = .item step) := by
  apply head_bind
  split
  · next found =>
    refine Reads.here fun reaches => position_bind ((advance found).bind fun _ inside _ passed => ?_)
    obtain ⟨_, short⟩ := passed
    refine name.bind fun word after moves read => ?_
    have fewer := moves.length_le
    exact pure ⟨⟨by omega, reaches.finds found, read.1⟩, fun _ => ⟨_, rfl⟩⟩
  · next other => exact pure ⟨trivial, fun same => absurd same other⟩

theorem childSteps : Reads source bound childSteps c fun steps after =>
    (∀ step ∈ steps, step.Stands source) ∧
      (c.head = some '\\' → steps ≠ [] ∧ after.rest.length + 1 ≤ c.rest.length) := by
  refine (many_starting _ _ (fun here => here.head = some '\\') fun _ _ => childStepRound).mono
    fun _ _ _ read => ?_
  exact ⟨read.1.1, read.2⟩

/-- Behind the type paths stands none. -/
theorem typePath : Reads source bound typePath c
    (Goes (fun path => (Part.path path).Stands source) (fun after => trivia? after.rest = none ∧
      after.head ≠ some '\\' ∧ after.head.any isNameChar = false) c) := by
  unfold Parser.typePath
  refine skip.bind fun _ inside moves passed => ?_
  have fewer := moves.length_le
  apply head_bind
  split
  · next found =>
    refine childSteps.bind fun steps after _ read => ?_
    obtain ⟨some, short⟩ := read.2 found
    exact pure ⟨by omega, some, read.1⟩
  · next other =>
    split
    · next found =>
      refine name.bind fun root middle _ read => ?_
      refine childSteps.bind fun steps after moves' read' => ?_
      have fewer' := moves'.length_le
      exact pure ⟨by omega, read.1, read'.1⟩
    · next none => exact pure ⟨passed.2, other, by simpa using none⟩

theorem typePaths : Reads source bound typePaths c fun paths after =>
    AllStand source (paths.map Part.path) ∧ trivia? after.rest = none ∧
      after.head ≠ some '\\' ∧ after.head.any isNameChar = false := by
  refine (many _ _ fun _ _ => typePath).mono fun _ _ _ read => ?_
  exact ⟨List.forall_mem_map.2 read.1, read.2⟩

/-! ### Values -/

theorem boundValue (found : c.head = some '<') :
    Reads source bound boundValue c fun value after =>
      value.Stands source ∧ after.rest.length + 1 ≤ c.rest.length := by
  unfold Parser.boundValue
  refine here fun reaches => position_bind ((advance found).bind fun _ inside moves passed => ?_)
  obtain ⟨_, short⟩ := passed
  refine skip.bind fun _ there moves' _ => head_bind ?_
  have fewer := moves'.length_le
  dsimp only
  split
  · exact fail_bind (List.cons_ne_nil _ _) (by simp) started_none
  · refine name.bind fun keyword behind moves'' read => ?_
    have fewer' := moves''.length_le
    split
    · next other =>
      exact failAt_bind (List.cons_ne_nil _ _) read.1 (by simpa using other)
    · refine skip.bind fun _ before moved _ => name.bind fun word later moved' read' => ?_
      refine skip.bind fun _ last moved'' _ => ?_
      have started := started_some reaches
        (((((moves.trans moves').trans moves'').trans moved).trans moved').trans moved'')
      refine (expect started).bind fun _ after _ closed => ?_
      have lengths := moved.length_le
      have lengths' := moved'.length_le
      have lengths'' := moved''.length_le
      exact pure ⟨⟨reaches.finds found, read'.1⟩, by omega⟩

theorem value : Reads source bound value c fun value after =>
    value.Stands source ∧ after.rest.length + 1 ≤ c.rest.length := by
  unfold Parser.value
  apply head_bind
  split
  · next found => exact boundValue found
  · split
    · next found =>
      refine (escapedText found).bind fun text after _ read => ?_
      exact pure read
    · split
      · next found =>
        refine (word found).bind fun literal after _ read => ?_
        exact pure ⟨read.1, read.2.2.2.2⟩
      · exact fail (List.cons_ne_nil _ _) (by simp) started_none

/-! ### Property blocks -/

theorem negatedSetting (found : c.head = some '!') :
    Reads source bound negatedSetting c fun setting after =>
      setting.Stands source ∧ after.rest.length + 1 ≤ c.rest.length := by
  unfold Parser.negatedSetting
  refine here fun reaches => position_bind ((advance found).bind fun _ inside _ passed => ?_)
  obtain ⟨_, short⟩ := passed
  apply head_bind
  split
  · exact fail_bind (List.cons_ne_nil _ _) (by simp) started_none
  · refine name.bind fun word after moves read => ?_
    have fewer := moves.length_le
    exact pure ⟨⟨reaches.finds found, read.1⟩, by omega⟩

theorem namedSetting : Reads source bound namedSetting c fun setting after =>
    setting.Stands source ∧ after.rest.length + 1 ≤ c.rest.length := by
  unfold Parser.namedSetting
  refine name.bind fun word inside _ read => skip.bind fun _ there moves _ => head_bind ?_
  have fewer := moves.length_le
  split
  · next found =>
    refine (advance found).bind fun _ middle moves' _ => skip.bind fun _ before moves'' _ => ?_
    refine value.bind fun given after moved read' => ?_
    have lengths := moves'.length_le
    have lengths' := moves''.length_le
    have lengths'' := moved.length_le
    exact pure ⟨⟨read.1, read'.1⟩, by omega⟩
  · next unequal =>
    split
    · exact pure ⟨read.1, by omega⟩
    · next other =>
      refine fail (List.cons_ne_nil _ _) ?_ started_none
      simp only [Bool.or_eq_true, decide_eq_true_eq, not_or] at other
      simp [unequal, other.1.1]

/-- The place of the brace matters only where the source ends. -/
theorem setting {start : Position}
    (started : (c.behind (triviaText c.rest)).head = none →
      Started source (c.behind (triviaText c.rest)) (some start)) :
    Reads source bound (setting start) c (Goes (fun setting => (Part.setting setting).Stands source)
      (fun after => after.head = some '\x7d') c) := by
  unfold Parser.setting
  refine skip.bind fun _ inside moves passed => ?_
  have fewer := moves.length_le
  apply head_bind
  split
  · next missing =>
    obtain ⟨rfl, _⟩ := passed
    exact fail (List.cons_ne_nil _ _) (by simp [missing]) (started missing)
  · next found => exact pure found
  · next found =>
    refine (negatedSetting found).bind fun setting after moves' read => ?_
    exact pure ⟨by omega, read.1⟩
  · next x notBrace notMark found =>
    split
    · refine namedSetting.bind fun setting after moves' read => ?_
      exact pure ⟨by omega, read.1⟩
    · refine fail (List.cons_ne_nil _ _) ?_ started_none
      have brace : x ≠ '\x7d' := fun same => notBrace same
      have mark : x ≠ '!' := fun same => notMark same
      simp [found, brace, mark]

theorem settings {start : Position} (started : Started source c (some start)) :
    Reads source bound (settings start) c fun read after =>
      AllStand source (read.map Part.setting) ∧ after.head = some '\x7d' := by
  refine (many _ _ fun here moved => setting fun _ => (started.onward moved).onward
    (Cursor.reaches_behind (triviaText_stands here.rest))).mono fun _ _ _ kept => ?_
  exact ⟨List.forall_mem_map.2 kept.1, kept.2⟩

theorem propertyBlock (found : c.head = some '\x7b') :
    Reads source bound propertyBlock c fun block after =>
      AllStand source block.parts ∧ after.rest.length + 1 ≤ c.rest.length := by
  unfold Parser.propertyBlock
  refine here fun reaches => position_bind ((advance found).bind fun _ inside moves passed => ?_)
  obtain ⟨_, short⟩ := passed
  refine skip.bind fun _ there moves' _ => head_bind ?_
  have fewer := moves'.length_le
  -- The rest of the block, whatever its main value is.
  have rest (main : Option Value) (before : Cursor) (moved : there.Reaches before)
      (kept : AllStand source (main.toList.map Part.value)) :
      Reads source bound (do
        let read ← Parser.settings c.position
        Parser.advance
        return (⟨c.position, main, read⟩ : PropertyBlock)) before fun block after =>
        AllStand source block.parts ∧ after.rest.length + 1 ≤ c.rest.length := by
    have started := started_some reaches ((moves.trans moves').trans moved)
    refine (settings started).bind fun read last moved' kept' => ?_
    refine (advance kept'.2).bind fun _ after moved'' _ => ?_
    have lengths := moved.length_le
    have lengths' := moved'.length_le
    have lengths'' := moved''.length_le
    refine pure ⟨?_, by omega⟩
    rw [PropertyBlock.parts, AllStand.append, AllStand.cons]
    exact ⟨⟨reaches.finds found, kept⟩, kept'.1⟩
  dsimp only
  split
  · next equals =>
    refine (advance equals).bind fun _ middle moved _ => skip.bind fun _ before moved' _ => ?_
    have main : Reads source bound (some <$> Parser.value) before fun main _ =>
        AllStand source (main.toList.map Part.value) := by
      refine value.bind fun given after _ read => pure ?_
      exact AllStand.cons.2 ⟨read.1, AllStand.nil.2 trivial⟩
    exact main.bind fun given last moved'' kept =>
      rest given last ((moved.trans moved').trans moved'') kept
  · exact rest none there (.refl _) (AllStand.nil.2 trivial)

theorem properties : Reads source bound properties c fun block _ =>
    AllStand source (blockParts block) := by
  unfold Parser.properties
  apply head_bind
  split
  · next found =>
    refine (propertyBlock found).bind fun block inside _ read => skip.bind fun _ _ _ _ => ?_
    refine pure ?_
    rw [blockParts_some]
    exact read.1
  · exact pure (AllStand.nil.2 trivial)

end Parser.Reads

end TypedMarkup
