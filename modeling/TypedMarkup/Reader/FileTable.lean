/-
**Readers and file tables.** Where the texts of included and read files come from. What a path is
relative to is the reader's own affair.

* A `Reader` is given the file that asks and the path it asks for; the empty path means that file
  itself. `Reader.nothing` has an empty text for every path.
* A `FileTable` holds files in memory under absolute paths. `normalize` drops empty segments and
  `.`, and lets `..` take back the segment before it; `FileTable.resolve` reads a path as seen from a
  file: absolute as it is, relative from the directory of the file, empty as the file.
* `FileTable.get?_insert`: the last file put at a path is the one found there.
-/

import TypedMarkup.Table
import TypedMarkup.Text.Split

namespace TypedMarkup

/-! ### Readers -/

/-- A text that was read. -/
structure FileText where
  /-- The path by which the file is known from now on. -/
  path : String
  content : String
deriving DecidableEq, Repr

/-- Why a file cannot be read. -/
structure ReadError where
  path : String
  reason : String
deriving DecidableEq, Repr

/-- The text of a reading error. -/
def ReadError.message (error : ReadError) : String :=
  "cannot read '" ++ error.path ++ "': " ++ error.reason

/-- Reads a path on behalf of the file at another path. -/
abbrev Reader := (current path : String) → Except ReadError FileText

/-- Has an empty text, at the empty path, for every path. -/
def Reader.nothing : Reader := fun _ _ => .ok ⟨"", ""⟩

/-! ### Paths -/

/-- Goes one segment further, given the segments so far, the last one first. -/
def stepInto (segments : List (List Char)) (segment : List Char) : List (List Char) :=
  if segment = [] ∨ segment = ['.'] then segments
  else if segment = ['.', '.'] then segments.tail
  else segment :: segments

/-- The segments of a path that count. -/
def segmentsOf (path : List Char) : List (List Char) :=
  ((Text.splitOn '/' path).foldl stepInto []).reverse

/-- The absolute path of some segments. -/
def pathOf (segments : List (List Char)) : String :=
  String.ofList ('/' :: Text.joinWith '/' segments)

/-- A path in its one absolute form. -/
def normalize (path : List Char) : String :=
  pathOf (segmentsOf path)

/-- What stands before the last slash of a path. -/
def directoryOf (path : List Char) : List Char :=
  ((path.reverse.dropWhile fun c => c != '/').drop 1).reverse

/-! ### File tables -/

/-- Files by their absolute paths. -/
structure FileTable where
  files : Table String

namespace FileTable

/-- The table without files. -/
def empty : FileTable := ⟨Table.empty⟩

instance : Inhabited FileTable := ⟨empty⟩

/-- Puts a file at a path. -/
def insert (table : FileTable) (path content : String) : FileTable :=
  ⟨table.files.insert (normalize path.toList) content⟩

/-- The table of some files; the last one at a path counts. -/
def ofList (files : List (String × String)) : FileTable :=
  files.foldl (fun table file => table.insert file.1 file.2) empty

/-- A path as seen from a file. -/
def resolve (current path : String) : String :=
  match path.toList with
  | [] => normalize current.toList
  | '/' :: rest => normalize ('/' :: rest)
  | relative => normalize (directoryOf current.toList ++ '/' :: relative)

/-- Reads a path as seen from a file. -/
def read (table : FileTable) : Reader := fun current path =>
  let absolute := resolve current path
  match table.files.get? absolute with
  | some content => .ok ⟨absolute, content⟩
  | none => .error ⟨absolute, "no such file"⟩

/-- A table holds at each path the last file put there. -/
theorem get?_insert (table : FileTable) (path content key : String) :
    (table.insert path content).files.get? key =
      if key = normalize path.toList then some content else table.files.get? key :=
  Table.get?_insert _ _ _ _

end FileTable

end TypedMarkup
