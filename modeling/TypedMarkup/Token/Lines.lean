/-
**Tokens by line.** A display colours a source line by line, so tokens that run over several lines
are cut at the line feeds, which belong to no line.

* `Token.fragments` cuts one token; the fragments keep its kind and depth.
* `Token.lines` cuts a list of tokens: one more line than there are line feeds, without empty
  fragments.
-/

import TypedMarkup.Text.Split
import TypedMarkup.Token

namespace TypedMarkup.Token

/-- The fragments of a text that starts at an offset, one for each of its lines. -/
def fragmentsFrom (token : Token) : Nat → List (List Char) → List Token
  | _, [] => []
  | start, line :: more =>
    let fragment : Token := { token with start := start, text := String.ofList line }
    fragment :: fragmentsFrom token (fragment.stop + 1) more

/-- The parts of a token on each of the lines it touches. -/
def fragments (token : Token) : List Token :=
  fragmentsFrom token token.start (Text.splitOn '\n' token.text.toList)

/-- The fragment as a part of a line; an empty one leaves no trace. -/
def kept (fragment : Token) : List Token :=
  if fragment.isEmpty then [] else [fragment]

/-- Puts a token at the front of lines: its last fragment begins the first of them. -/
def prepend (token : Token) (lines : List (List Token)) : List (List Token) :=
  go token.fragments
where
  /-- Puts fragments of one token at the front. -/
  go : List Token → List (List Token)
    | [] => lines
    | [last] =>
      match lines with
      | [] => [last.kept]
      | line :: more => (last.kept ++ line) :: more
    | fragment :: more => fragment.kept :: go more

/-- The lines of some tokens. -/
def lines (tokens : List Token) : List (List Token) :=
  tokens.foldr prepend [[]]

end TypedMarkup.Token
