/-
**Limits.** How far includes may go, and how a settings file says so: in lines that set one of two
names, in the notation of TOML, of which tables and other values have no use here.

* `Limits.standard` are the limits where nothing is set.
* `Settings.readLine?` reads a line, which may be blank, a comment, or a setting with a comment
  behind it. It reads the part of the notation that the two settings need, and stands here for an
  external reader of all of it.
* `Limits.ofSettings?` reads a whole text; a name may be set once only, and what is not set keeps
  its standard value.
-/

import TypedMarkup.Text.Split

namespace TypedMarkup

/-- How far includes may go. -/
structure Limits where
  /-- How many includes may be nested in each other. -/
  maxIncludeDepth : Nat
  /-- Whether a file that includes itself is an error at once. -/
  detectIncludeCycles : Bool
deriving DecidableEq, Repr

namespace Limits

/-- The usual limits. -/
def standard : Limits := ⟨64, true⟩

instance : Inhabited Limits := ⟨standard⟩

end Limits

namespace Settings

/-! ### Blanks and comments -/

/-- The two characters that may separate the parts of a line. -/
def isBlank (c : Char) : Bool :=
  c == ' ' || c == '\t'

/-- The characters of a comment: all but control characters. -/
def isCommentChar (c : Char) : Bool :=
  c == '\t' || (' ' ≤ c && c ≤ '~') || '\x80' ≤ c

/-- Whether a text ends a line: blanks, and maybe a comment. -/
def isTrailer (text : List Char) : Bool :=
  match text.dropWhile isBlank with
  | [] => true
  | '#' :: comment => comment.all isCommentChar
  | _ => false

/-! ### Names -/

/-- The characters of a name without quotes. -/
def isBareChar (c : Char) : Bool :=
  c.isAlphanum || c == '-' || c == '_'

/-- The value of a hexadecimal digit. -/
def hexValue? (c : Char) : Option Nat :=
  if '0' ≤ c && c ≤ '9' then some (c.toNat - '0'.toNat)
  else if 'a' ≤ c && c ≤ 'f' then some (c.toNat - 'a'.toNat + 10)
  else if 'A' ≤ c && c ≤ 'F' then some (c.toNat - 'A'.toNat + 10)
  else none

/-- The value of digits to a base. -/
def digitsValue? (base : Nat) (digits : List Char) : Option Nat :=
  digits.foldlM (fun value digit => do
    let next ← hexValue? digit
    if next < base then some (value * base + next) else none) 0

/-- The character with a number in hexadecimal digits. -/
def charOfHex? (digits : List Char) : Option Char := do
  let code ← digitsValue? 16 digits
  if code.isValidChar then some (Char.ofNat code) else none

/-- The rest of a name between double quotes, where a character may stand by its number, and what
follows it. No name that matters needs another escape. -/
def quotedName? : List Char → Option (List Char × List Char)
  | [] => none
  | '"' :: rest => some ([], rest)
  | '\\' :: 'u' :: a :: b :: c :: d :: rest => do
    let char ← charOfHex? [a, b, c, d]
    let (name, left) ← quotedName? rest
    return (char :: name, left)
  | '\\' :: 'U' :: a :: b :: c :: d :: e :: f :: g :: h :: rest => do
    let char ← charOfHex? [a, b, c, d, e, f, g, h]
    let (name, left) ← quotedName? rest
    return (char :: name, left)
  | '\\' :: _ => none
  | c :: rest => do
    let (name, left) ← quotedName? rest
    return (c :: name, left)

/-- The name at the front of a text, and what follows it. -/
def name? : List Char → Option (List Char × List Char)
  | '"' :: rest => quotedName? rest
  | '\'' :: rest =>
    match rest.dropWhile fun c => c != '\'' with
    | [] => none
    | _ :: left => some (rest.takeWhile fun c => c != '\'', left)
  | text =>
    let name := text.takeWhile isBareChar
    if name.isEmpty then none else some (name, text.dropWhile isBareChar)

/-! ### Values -/

/-- The largest number that can be written. -/
def largest : Nat := 0x7fffffffffffffff

/-- Digits to a base, with single underscores between some of them. -/
def spacedDigits? (base : Nat) (text : List Char) : Option Nat :=
  let groups := Text.splitOn '_' text
  if groups.any List.isEmpty then none else digitsValue? base groups.flatten

/-- Decimal digits; only a lone zero starts with zero. -/
def decimal? : List Char → Option Nat
  | ['0'] => some 0
  | '0' :: _ => none
  | text => spacedDigits? 10 text

/-- A number that counts something: decimal with or without a sign, or to the base 16, 8 or 2. -/
def count? (text : List Char) : Option Nat := do
  let value ← match text with
    | '0' :: 'x' :: digits => spacedDigits? 16 digits
    | '0' :: 'o' :: digits => spacedDigits? 8 digits
    | '0' :: 'b' :: digits => spacedDigits? 2 digits
    | '+' :: digits => decimal? digits
    | '-' :: digits => (decimal? digits).filter fun value => value == 0
    | digits => decimal? digits
  if value ≤ largest then some value else none

/-- A truth value. -/
def truth? (text : List Char) : Option Bool :=
  if text = "true".toList then some true
  else if text = "false".toList then some false
  else none

/-! ### Lines -/

/-- What a line sets. -/
inductive Entry where
  | maxIncludeDepth (limit : Nat)
  | detectIncludeCycles (detect : Bool)
deriving DecidableEq, Repr

/-- The include depth that is set. -/
def Entry.limit? : Entry → Option Nat
  | maxIncludeDepth limit => some limit
  | detectIncludeCycles _ => none

/-- Whether cycles are watched for, if that is set. -/
def Entry.detect? : Entry → Option Bool
  | maxIncludeDepth _ => none
  | detectIncludeCycles detect => some detect

/-- What a name and a value set. -/
def Entry.of? (name value : List Char) : Option Entry :=
  if name = "max_include_depth".toList then (count? value).map .maxIncludeDepth
  else if name = "detect_include_cycles".toList then (truth? value).map .detectIncludeCycles
  else none

/-- The setting at the front of a line. -/
def setting? (text : List Char) : Option Entry := do
  let (name, afterName) ← name? text
  match afterName.dropWhile isBlank with
  | '=' :: rest =>
    let value := rest.dropWhile isBlank
    let ends (c : Char) : Bool := !isBlank c && c != '#'
    if isTrailer (value.dropWhile ends) then Entry.of? name (value.takeWhile ends) else none
  | _ => none

/-- The settings of a line: at most one. Nothing if the line cannot be read. -/
def readLine? (line : List Char) : Option (List Entry) :=
  if isTrailer line then some []
  else (setting? (line.dropWhile isBlank)).map fun entry => [entry]

/-- A line without the carriage return that belongs to its line feed. -/
def withoutReturn (line : List Char) : List Char :=
  if line.getLast? = some '\r' then line.dropLast else line

/-- The lines of a text. Only a carriage return before a line feed belongs to the end of a line,
and a mark at the front that tells the encoding counts for nothing. -/
def linesOf (text : String) : List (List Char) :=
  let chars := match text.toList with
    | '\uFEFF' :: rest => rest
    | rest => rest
  let lines := Text.splitOn '\n' chars
  lines.dropLast.map withoutReturn ++ lines.getLast?.toList

end Settings

namespace Limits

open Settings

/-- The limits that settings make of the standard ones; each name may be set once. -/
def ofEntries? (entries : List Entry) : Option Limits :=
  let depths := entries.filterMap Entry.limit?
  let cycles := entries.filterMap Entry.detect?
  if depths.length ≤ 1 && cycles.length ≤ 1 then
    some ⟨depths.head?.getD standard.maxIncludeDepth,
      cycles.head?.getD standard.detectIncludeCycles⟩
  else none

/-- The limits of a settings text. -/
def ofSettings? (text : String) : Option Limits := do
  let entries ← (linesOf text).mapM readLine?
  ofEntries? entries.flatten

end Limits

end TypedMarkup
