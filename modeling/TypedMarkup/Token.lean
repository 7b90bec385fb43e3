/-
**Tokens.** The classified spans of a source that a display colours.

* A `Token` has its kind, the offset of its first byte and its text; its end follows from these.
* Brackets of nodes also carry how deep they are nested, the outermost counting one.
-/

namespace TypedMarkup

/-- What a span of source is. -/
inductive TokenKind where
  | preambleOpen
  | preambleClose
  | preambleFallback
  | keyword
  | classStart
  | typeName
  | bindingName
  | propertyName
  | childStart
  | propertiesOpen
  | propertiesClose
  | propertyAssign
  | propertyNegate
  | valueLiteral
  | text
  | escapedText
  | nodeOpen
  | nodeClose
  | comment
  | space
  /-- An ignored node as a whole. -/
  | ignored
  /-- Everything from where reading gave up. -/
  | unread
deriving DecidableEq, Repr

/-- A classified span of source. -/
structure Token where
  kind : TokenKind
  /-- The offset of the first byte. -/
  start : Nat
  text : String
  /-- The nesting of a bracket. -/
  depth : Option Nat
deriving DecidableEq, Repr

namespace Token

/-- The number of bytes of a token. -/
def size (token : Token) : Nat :=
  token.text.utf8ByteSize

/-- The offset behind the last byte. -/
def stop (token : Token) : Nat :=
  token.start + token.size

/-- Whether a token has no text. -/
def isEmpty (token : Token) : Bool :=
  token.size == 0

end Token

end TypedMarkup
