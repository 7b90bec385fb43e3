/-
**Deeper lexers.** As for parsers, more levels of nesting change nothing but that a lexer which was
exhausted goes on.

* `Lexer.Approximates lexer lexer'`: wherever the first lexer is not exhausted, the second does the
  same.
* `Lexer.approximates_ofDepth`: lexers for fewer levels of nesting approximate those for more.
-/

import TypedMarkup.Proofs.Token.CutsBlock

namespace TypedMarkup.Lexer

variable {α β : Type}

/-- Wherever the first lexer is not exhausted, the second does the same. -/
def Approximates (lexer lexer' : Lexer α) : Prop :=
  ∀ state, (lexer.run.run state).1 = .error .exhausted ∨
    lexer.run.run state = lexer'.run.run state

/-- The lexers of nested constructs approximate others. -/
structure Nested.Approximates (nested nested' : Nested) : Prop where
  node : Lexer.Approximates nested.node nested'.node
  content : Lexer.Approximates nested.content nested'.content

namespace Approximates

theorem refl (lexer : Lexer α) : Approximates lexer lexer :=
  fun _ => .inr rfl

theorem bind {lexer lexer' : Lexer α} {next next' : α → Lexer β}
    (first : Approximates lexer lexer') (rest : ∀ a, Approximates (next a) (next' a)) :
    Approximates (lexer >>= next) (lexer' >>= next') := by
  intro state
  rw [run_bind, run_bind]
  rcases first state with exhausted | same
  · rcases ran : lexer.run.run state with ⟨refusal | a, after⟩
    · rw [ran] at exhausted
      cases exhausted
      exact .inl rfl
    · rw [ran] at exhausted
      cases exhausted
  · rw [← same]
    rcases lexer.run.run state with ⟨refusal | a, after⟩
    · exact .inr rfl
    · exact rest a after

/-- Behind the same lexer. -/
theorem after {lexer : Lexer α} {next next' : α → Lexer β}
    (rest : ∀ a, Approximates (next a) (next' a)) :
    Approximates (lexer >>= next) (lexer >>= next') :=
  (refl lexer).bind rest

/-- Before the same lexer. -/
theorem before {lexer lexer' : Lexer α} {next : α → Lexer β}
    (first : Approximates lexer lexer') : Approximates (lexer >>= next) (lexer' >>= next) :=
  first.bind fun a => refl (next a)

theorem whileGoing {step step' : Lexer Bool} (round : Approximates step step') :
    Approximates (whileGoing step) (Lexer.whileGoing step') := by
  refine after fun text => ?_
  generalize text.length + 1 = left
  induction left with
  | zero => exact refl _
  | succ left ih =>
    refine round.bind fun goesOn => ?_
    cases goesOn with
    | false => exact refl _
    | true => exact ih

theorem collapsed {kind : TokenKind} {inner inner' : Lexer Unit}
    (inside : Approximates inner inner') :
    Approximates (collapsed kind inner) (Lexer.collapsed kind inner') := by
  intro state
  rw [run_collapsed, run_collapsed]
  rcases inside { state with cursor := state.cursor.behind (state.cursor.rest.take 1) } with
    exhausted | same
  · rcases ran : inner.run.run { state with
      cursor := state.cursor.behind (state.cursor.rest.take 1) } with ⟨refusal | done, last⟩
    · rw [ran] at exhausted
      exact .inl exhausted
    · rw [ran] at exhausted
      cases exhausted
  · rw [same]
    exact .inr rfl

variable {nested nested' : Nested}

/-! ### Preambles -/

theorem contentBinding (deeper : nested.Approximates nested') :
    Approximates (contentBinding nested) (Lexer.contentBinding nested') := by
  refine after fun _ => after fun _ => after fun next => ?_
  dsimp only
  split
  · exact refl _
  · exact after fun _ => after fun _ => deeper.content.before

theorem directive (deeper : nested.Approximates nested') :
    Approximates (directive nested) (Lexer.directive nested') := by
  refine after fun text => ?_
  dsimp only
  cases (Keyword.ofSpelling? (String.ofList (text.takeWhile isNameChar))).filter
    Keyword.startsPreambleElement with
  | none => exact refl _
  | some keyword =>
    refine after fun _ => after fun _ => ?_
    cases keyword with
    | content => exact contentBinding deeper
    | _ => exact refl _

theorem preambleElement (deeper : nested.Approximates nested') :
    Approximates (preambleElement nested) (Lexer.preambleElement nested') := by
  refine after fun _ => after fun _ => after fun next => ?_
  dsimp only
  split
  · exact after fun _ => after fun _ => (directive deeper).before
  · exact (directive deeper).before

theorem preamble (deeper : nested.Approximates nested') :
    Approximates (preamble nested) (Lexer.preamble nested') := by
  refine whileGoing (after fun next => ?_)
  split
  · exact (preambleElement deeper).before
  · exact refl _

/-! ### Lines -/

theorem textOrIgnored (deeper : nested.Approximates nested') :
    Approximates (textOrIgnored nested) (Lexer.textOrIgnored nested') := by
  refine after fun node => ?_
  split
  · exact collapsed deeper.node
  · exact refl _

theorem textElement (deeper : nested.Approximates nested') :
    Approximates (textElement nested) (Lexer.textElement nested') := by
  refine after fun next => ?_
  split
  · exact refl _
  · exact refl _
  · exact refl _
  · exact refl _
  · exact refl _
  · exact (textOrIgnored deeper).before

theorem textElements (deeper : nested.Approximates nested') :
    Approximates (textElements nested) (Lexer.textElements nested') :=
  whileGoing (textElement deeper)

theorem lineElement (deeper : nested.Approximates nested') :
    Approximates (lineElement nested) (Lexer.lineElement nested') := by
  refine after fun next => ?_
  split
  · exact refl _
  · exact refl _
  · exact refl _
  · exact refl _
  · exact deeper.node.before
  · exact refl _
  · exact (textOrIgnored deeper).before

theorem line (deeper : nested.Approximates nested') :
    Approximates (line nested) (Lexer.line nested') :=
  whileGoing (lineElement deeper)

theorem lines (deeper : nested.Approximates nested') :
    Approximates (lines nested) (Lexer.lines nested') := by
  refine whileGoing (after fun _ => after fun next => ?_)
  split
  · exact refl _
  · exact refl _
  · exact (line deeper).before

theorem content (deeper : nested.Approximates nested') :
    Approximates (content nested) (Lexer.content nested') := by
  refine (preamble deeper).bind fun _ => ?_
  exact lines deeper

/-! ### Nodes -/

theorem textNode (deeper : nested.Approximates nested') :
    Approximates (textNode nested) (Lexer.textNode nested') :=
  after fun _ => textElements deeper

theorem typedNode (deeper : nested.Approximates nested') :
    Approximates (typedNode nested) (Lexer.typedNode nested') := by
  refine after fun _ => ?_
  refine after fun _ => ?_
  refine after fun _ => ?_
  exact content deeper

theorem namedNode (deeper : nested.Approximates nested') :
    Approximates (namedNode nested) (Lexer.namedNode nested') := by
  refine after fun text => ?_
  dsimp only
  split
  · exact after fun _ => typedNode deeper
  · refine after fun _ => after fun _ => ?_
    split
    · exact textNode deeper
    · exact refl _
    · exact after fun _ => preamble deeper
    · exact after fun _ => after fun _ => preamble deeper
    · exact refl _

theorem nodeBody (deeper : nested.Approximates nested') :
    Approximates (nodeBody nested) (Lexer.nodeBody nested') := by
  refine after fun next => ?_
  split
  · exact content deeper
  · exact textNode deeper
  · exact textNode deeper
  · exact typedNode deeper
  · split
    · exact namedNode deeper
    · exact refl _

theorem node (deeper : nested.Approximates nested') :
    Approximates (node nested) (Lexer.node nested') := by
  refine after fun _ => ?_
  refine after fun _ => ?_
  exact (nodeBody deeper).before

theorem file (deeper : nested.Approximates nested') :
    Approximates (file nested) (Lexer.file nested') :=
  after fun _ => deeper.content.before

end Approximates

/-! ### Nesting -/

/-- Lexers for fewer levels of nesting approximate those for more. -/
theorem approximates_ofDepth {depth more : Nat} (fewer : depth ≤ more) :
    (Nested.ofDepth depth).Approximates (Nested.ofDepth more) := by
  induction depth generalizing more with
  | zero => exact ⟨fun _ => .inl rfl, fun _ => .inl rfl⟩
  | succ depth ih =>
    obtain ⟨more, rfl⟩ := Nat.exists_eq_add_of_lt fewer
    have deeper := ih (Nat.le_add_right depth more)
    exact ⟨.node deeper, .content deeper⟩

end TypedMarkup.Lexer
