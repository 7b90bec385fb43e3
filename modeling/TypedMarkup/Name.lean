/-
**Names, values and keywords.** The character classes of the language and the seven words with a
meaning of their own.

* `Text.isBlank` is the Unicode property `White_Space`, written as its ten ranges. These characters
  end names and unquoted values.
* `isNameChar` and `isValueChar` are the classes. Five characters may stand in a value and not in a
  name; `isValueChar_of_isNameChar` says that there are none the other way round.
* `Keyword.ofSpelling?` reads a word, and `Keyword.ofSpelling?_spelling` undoes `Keyword.spelling`.
-/

namespace TypedMarkup

/-! ### Character classes -/

/-- The 25 characters with the property `White_Space`. -/
def Text.isBlank (c : Char) : Bool :=
  let code := c.toNat
  (9 ≤ code && code ≤ 13) || code == 0x20 || code == 0x85 || code == 0xA0 || code == 0x1680 ||
    (0x2000 ≤ code && code ≤ 0x200A) || (0x2028 ≤ code && code ≤ 0x2029) || code == 0x202F ||
    code == 0x205F || code == 0x3000

/-- The characters that end names and unquoted values alike. -/
def isDelimiter (c : Char) : Bool :=
  Text.isBlank c || c == '\x60' || c == '\x7b' || c == '\x7d' || c == '[' || c == ']' ||
    c == '<' || c == '>'

/-- The characters that may stand in an unquoted value. -/
def isValueChar (c : Char) : Bool :=
  !isDelimiter c

/-- The characters that may stand in a name. -/
def isNameChar (c : Char) : Bool :=
  isValueChar c && !(c == '\\' || c == '=' || c == '?' || c == '!' || c == '.')

/-- What may stand in a name may stand in a value. -/
theorem isValueChar_of_isNameChar {c : Char} (name : isNameChar c = true) :
    isValueChar c = true := by
  simp only [isNameChar, Bool.and_eq_true] at name
  exact name.1

/-! ### Keywords -/

/-- The words with a fixed meaning at the start of a preamble element or of a node. -/
inductive Keyword where
  /-- Declares a class. -/
  | classes
  /-- Binds or uses a content. -/
  | content
  /-- Declares defaults. -/
  | defaults
  /-- Binds or uses a value. -/
  | value
  /-- Starts a text node. -/
  | text
  /-- Starts a node that reads a file as text. -/
  | read
  /-- Starts a node that includes a file. -/
  | inclusion
deriving DecidableEq, Repr

namespace Keyword

/-- All keywords. -/
def all : List Keyword :=
  [classes, content, defaults, value, text, read, inclusion]

/-- How a keyword is written. -/
def spelling : Keyword → String
  | classes => "cla"
  | content => "con"
  | defaults => "def"
  | value => "val"
  | text => "text"
  | read => "read"
  | inclusion => "include"

/-- The keyword a word spells. -/
def ofSpelling? (word : String) : Option Keyword :=
  all.find? fun keyword => keyword.spelling == word

/-- Whether the keyword starts a preamble element. -/
def startsPreambleElement : Keyword → Bool
  | classes | content | defaults | value => true
  | text | read | inclusion => false

/-- Whether the keyword starts a node. -/
def startsNode : Keyword → Bool
  | content | value | text | read | inclusion => true
  | classes | defaults => false

theorem ofSpelling?_spelling (keyword : Keyword) :
    ofSpelling? keyword.spelling = some keyword := by
  cases keyword <;> decide

end Keyword

end TypedMarkup
