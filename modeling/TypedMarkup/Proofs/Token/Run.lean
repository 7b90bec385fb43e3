/-
**Runs of lexers.** What running a lexer comes to, one lemma for each way to build one.

* `Lexer.run_bind` takes a sequence apart, and `Lexer.run_collapsed` a collapsed run.
* `Lexer.State.cut` is the state behind a token, and `Lexer.State.ofString` the first one.
* `tokenize_of_run`, `tokenize_of_refusal`: the tokens of a source, by how cutting it ends.
-/

import TypedMarkup.Token.Lexer.Block

namespace TypedMarkup

/-- The end of some tokens is that of the newest. -/
theorem Token.endOf_reverse_cons (token : Token) (tokens : List Token) :
    Token.endOf (token :: tokens).reverse = token.stop := by
  simp [Token.endOf]

namespace Lexer

variable {α β : Type}

/-! ### States -/

/-- The lexer before the first character of a source. -/
def State.ofString (source : String) : State :=
  ⟨Cursor.ofString source, 0, []⟩

/-- The state behind a text that stands at the cursor and becomes a token. -/
def State.cut (state : State) (kind : TokenKind) (depth : Option Nat) (text : List Char) : State :=
  { state with
    cursor := state.cursor.behind text
    tokens := ⟨kind, state.cursor.position.offset, String.ofList text, depth⟩ :: state.tokens }

/-! ### Sequences -/

/-- One lexer after another. -/
theorem run_bind (lexer : Lexer α) (next : α → Lexer β) (state : State) :
    (lexer >>= next).run.run state =
      match lexer.run.run state with
      | (.ok a, after) => (next a).run.run after
      | (.error refusal, after) => (.error refusal, after) := by
  show (_ : Except _ _ × _) = _
  simp only [bind, ExceptT.bind, ExceptT.mk, ExceptT.run, StateT.run, StateT.bind,
    ExceptT.bindCont]
  rcases lexer state with ⟨refusal | a, after⟩ <;> rfl

theorem run_head_bind (next : Option Char → Lexer β) (state : State) :
    (head >>= next).run.run state = (next state.cursor.head).run.run state :=
  run_bind _ _ _

theorem run_rest_bind (next : List Char → Lexer β) (state : State) :
    (rest >>= next).run.run state = (next state.cursor.rest).run.run state :=
  run_bind _ _ _

/-- Collapsing keeps the tokens from before, whatever comes of it. -/
theorem run_collapsed (kind : TokenKind) (inner : Lexer Unit) (state : State) :
    (collapsed kind inner).run.run state =
      match inner.run.run { state with cursor := state.cursor.behind (state.cursor.rest.take 1) } with
      | (.ok (), after) => (.ok (), { after with
          cursor := state.cursor
          tokens := state.tokens }.cut kind none (state.cursor.textTo after.cursor))
      | (.error refusal, after) => (.error refusal, { after with tokens := state.tokens }) := by
  have lifted : (liftM inner.run : Lexer (Except Refusal Unit)).run.run
      { state with cursor := state.cursor.behind (state.cursor.rest.take 1) } =
      (.ok (inner.run.run { state with
        cursor := state.cursor.behind (state.cursor.rest.take 1) }).1,
        (inner.run.run { state with
          cursor := state.cursor.behind (state.cursor.rest.take 1) }).2) := rfl
  unfold collapsed
  refine (run_bind get _ state).trans ?_
  refine (run_bind (set _) _ state).trans ?_
  refine (run_bind (liftM inner.run) _ _).trans ?_
  rw [lifted]
  rcases inner.run.run { state with cursor := state.cursor.behind (state.cursor.rest.take 1) }
    with ⟨refusal | done, after⟩
  · rfl
  · rfl

end Lexer

/-! ### Sources -/

section Sources

variable {source : String} {after : Lexer.State}

theorem lexWithin_of_run {depth : Nat} {outcome : Except Lexer.Refusal Unit}
    (run : (Lexer.file (.ofDepth depth)).run.run (.ofString source) = (outcome, after)) :
    lexWithin depth source = (outcome, after.tokens.reverse) := by
  unfold Lexer.State.ofString at run
  unfold lexWithin
  rw [run]

/-- The tokens of a source that is cut to its end. -/
theorem tokenize_of_run
    (run : (Lexer.file (.ofDepth (source.length + 1))).run.run (.ofString source) =
      (.ok (), after)) : tokenize source = after.tokens.reverse := by
  rw [tokenize, lexWithin_of_run run]

/-- The tokens of a source that is given up, with one for all that is left. -/
theorem tokenize_of_refusal {refusal : Lexer.Refusal}
    (run : (Lexer.file (.ofDepth (source.length + 1))).run.run (.ofString source) =
      (.error refusal, after)) :
    ∃ left, tokenize source = after.tokens.reverse ++
      [⟨.unread, Token.endOf after.tokens.reverse, left, none⟩] :=
  ⟨_, by rw [tokenize, lexWithin_of_run run]⟩

end Sources

end TypedMarkup
