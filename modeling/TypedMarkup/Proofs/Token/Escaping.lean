/-
**Writing escaped text.** Any text can stand between backticks, whatever the column of the first of
them: a backslash goes before every backtick and every backslash, and the lines after the first are
indented.

* `escape col text` is what stands between the backticks for `text`, the first of them in column
  `col`. The parser's scan gives the text back (`scanEscaped_escape`), and the lexer's ends at the
  same backtick (`escapedFront_escape`).
* `escapedText_escape`: so both read exactly what was written, and the parser gives the text back.
-/

import TypedMarkup.Proofs.Token.AgreesProperty

namespace TypedMarkup

/-- How a character is written in escaped text whose opening backtick is in column `col`. -/
def escapeChar (col : Nat) (c : Char) : List Char :=
  if c = '\x60' || c = '\\' then ['\\', c]
  else if c = '\n' then '\n' :: List.replicate col ' '
  else [c]

/-- How a text is written between backticks, the opening one in column `col`. -/
def escape (col : Nat) (text : List Char) : List Char :=
  text.flatMap (escapeChar col)

theorem escape_cons (col : Nat) (c : Char) (text : List Char) :
    escape col (c :: text) = escapeChar col c ++ escape col text := rfl

/-! ### Scanning what was written -/

/-- Indentation that is due is passed over and no part of the text. -/
theorem scanEscaped_replicate (col due : Nat) (rest : List Char) :
    scanEscaped col due (List.replicate due ' ' ++ rest) =
      (scanEscaped col 0 rest).after [] (List.replicate due ' ') := by
  induction due with
  | zero => rfl
  | succ due ih =>
    rw [List.replicate_succ, List.cons_append, scanEscaped, ih]
    rfl

/-- What a written character is scanned as. -/
theorem scanEscaped_escapeChar (col : Nat) (c : Char) (rest : List Char) :
    scanEscaped col 0 (escapeChar col c ++ rest) =
      (scanEscaped col 0 rest).after [c] (escapeChar col c) := by
  unfold escapeChar
  split
  · next special =>
    rcases (by simpa using special : c = '\x60' ∨ c = '\\') with rfl | rfl
    · rfl
    · rfl
  · next plain =>
    simp only [Bool.or_eq_true, decide_eq_true_eq, not_or] at plain
    split
    · next feed =>
      subst feed
      rw [List.cons_append, scanEscaped, scanEscaped_replicate]
      rfl
    · next inline =>
      rw [List.singleton_append, scanEscaped]
      all_goals simp_all

/-- Scanning what was written gives the text back and stops behind the closing backtick. -/
theorem scanEscaped_escape (col : Nat) (text rest : List Char) :
    scanEscaped col 0 (escape col text ++ '\x60' :: rest) =
      ⟨text, escape col text ++ ['\x60'], .closed⟩ := by
  induction text with
  | nil => rfl
  | cons c text ih =>
    rw [escape_cons, List.append_assoc, scanEscaped_escapeChar, ih, EscapedScan.after,
      List.singleton_append, List.append_assoc]

/-- The lexer finds the same closing backtick. -/
theorem escapedFront_escape (col : Nat) (text rest : List Char) :
    escapedFront (escape col text ++ '\x60' :: rest) = some (escape col text ++ ['\x60']) := by
  have ends := escapedFront_scanEscaped col 0 (escape col text ++ '\x60' :: rest)
  rw [scanEscaped_escape] at ends
  exact ends

/-! ### Reading what was written -/

variable {c : Cursor} {text : String} {rest : List Char}

/-- **Escaped text can be written and read back.** The parser gives the text, from the opening
backtick, and stops behind the closing one; the lexer cuts one token of all that was written. -/
theorem escapedText_escape (depth : Nat) (tokens : List Token)
    (stands : c.rest = '\x60' :: escape c.position.col text.toList ++ '\x60' :: rest) :
    let written := '\x60' :: escape c.position.col text.toList ++ ['\x60']
    let after : Cursor := ⟨rest, c.position.past written⟩
    Parser.escapedText c = .ok (⟨c.position, ⟨text, c.position.after '\x60'⟩⟩, after) ∧
    Lexer.escapedText.run.run ⟨c, depth, tokens⟩ = (.ok (), ⟨after, depth,
      ⟨.escapedText, c.position.offset, String.ofList written, none⟩ :: tokens⟩) := by
  intro written after
  have tail : c.rest.tail = escape c.position.col text.toList ++ '\x60' :: rest := by
    rw [stands, List.cons_append, List.tail_cons]
  have one : c.rest.take 1 = ['\x60'] := by
    rw [stands]
    rfl
  have inside : (c.behind ['\x60']).rest = c.rest.tail := c.behind_one_rest '\x60'
  have behind : (c.behind ['\x60']).behind (escape c.position.col text.toList ++ ['\x60']) =
      after := by
    rw [← Cursor.behind_append, List.singleton_append, ← List.cons_append]
    have left : c.rest = written ++ rest := by
      rw [stands]
      simp [written]
    exact congrArg (Cursor.mk · _) (Cursor.behind_rest left)
  constructor
  · have scanned := Agrees.run_escapedText c
    dsimp only at scanned
    rw [one, inside, tail, scanEscaped_escape, behind, String.ofList_toList] at scanned
    exact scanned
  · have cut := Agrees.run_lexer_escapedText ⟨c, depth, tokens⟩
    rw [tail, escapedFront_escape] at cut
    refine cut.trans ?_
    rw [← behind, ← Cursor.behind_append]
    rfl

/-- Three lines from column three, in which a backtick and a backslash are escaped. -/
theorem escapedText_escape_lines :
    let c : Cursor := ⟨"`a\\`\n   \\\\\r\n   é`]".toList, ⟨1, 3, 4⟩⟩
    Parser.escapedText c = .ok (⟨⟨1, 3, 4⟩, ⟨"a`\n\\\r\né", ⟨1, 4, 5⟩⟩⟩, ⟨[']'], ⟨3, 6, 22⟩⟩) ∧
    Lexer.escapedText.run.run ⟨c, 1, []⟩ = (.ok (), ⟨⟨[']'], ⟨3, 6, 22⟩⟩, 1,
      [⟨.escapedText, 4, "`a\\`\n   \\\\\r\n   é`", none⟩]⟩) := by
  intro c
  have stands : c.rest =
      '\x60' :: escape 3 "a`\n\\\r\né".toList ++ '\x60' :: [']'] := by decide
  exact escapedText_escape 1 [] stands

end TypedMarkup
