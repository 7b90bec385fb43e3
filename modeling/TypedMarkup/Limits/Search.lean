/-
**Settings files.** Where limits come from: a settings file in the folder of a document or in one
above it, the nearest first.

* `FolderTree.makeFolders` and `FolderTree.write` build a tree: what a path leads through is made
  where it is missing, and a file takes the place of an earlier one.
* `FolderTree.find?` follows a path as a file system does: a name leads into a folder, `.` stays,
  `..` goes up, and only a folder can be left behind.
* `FolderTree.load` looks upwards for a settings file, from the folder that a path leads to or, if
  it leads nowhere, along the path as it is written.
-/

import TypedMarkup.Limits

namespace TypedMarkup

/-- Why limits cannot be had. -/
inductive LimitsError where
  /-- A settings text cannot be read. -/
  | malformed
  /-- A settings file is not there. -/
  | unreadable (path : String)
  /-- The text of a settings file cannot be read. -/
  | malformedFile (path : String)
deriving DecidableEq, Repr

/-- The text of such an error. -/
def LimitsError.message : LimitsError → String
  | malformed => "Failed to parse config"
  | unreadable path => "Failed to read config file: " ++ path
  | malformedFile path => "Failed to parse " ++ path

/-- The limits of a settings text, or why there are none. -/
def Limits.ofSettings (text : String) : Except LimitsError Limits :=
  match ofSettings? text with
  | some limits => .ok limits
  | none => .error .malformed

/-! ### Folders -/

/-- Folders and files below a root folder. -/
structure FolderTree where
  /-- The path of the root folder. -/
  root : String
  /-- The segments of the way to each folder. -/
  folders : List (List String)
  /-- The segments of the way to each file, and its text; the newest first. -/
  files : List (List String × String)
deriving DecidableEq, Repr

/-- What a path leads to. -/
inductive FolderTree.Place where
  | folder (way : List String)
  | file (way : List String) (text : String)
  /-- A folder so many levels above the root, one at least. -/
  | above (levels : Nat)
deriving DecidableEq, Repr

namespace FolderTree

/-- The name of settings files. -/
def settingsName : String := ".gobborc"

/-- The segments of a path. -/
def segments (path : String) : List String :=
  (Text.splitOn '/' path.toList).map String.ofList

/-- Whether a segment stays where it is. -/
def staysPut (segment : String) : Bool :=
  segment == "" || segment == "."

/-- Where a segment leads from a folder, if there is one wherever a name says so. -/
def step (way : List String) (segment : String) : List String :=
  if staysPut segment then way
  else if segment == ".." then way.dropLast
  else way ++ [segment]

/-- All folders that segments lead through, from one to the last. -/
def trail (way : List String) : List String → List (List String)
  | [] => [way]
  | segment :: rest => way :: trail (step way segment) rest

/-- A root folder with nothing in it. -/
def empty (root : String) : FolderTree := ⟨root, [[]], []⟩

/-- Makes the folders that segments lead through. -/
def makeFolders (tree : FolderTree) (path : List String) : FolderTree :=
  { tree with folders := trail [] path ++ tree.folders }

/-- Writes a file, in place of the one that was there, and makes the folders on its path. -/
def write (tree : FolderTree) (path : List String) (text : String) : FolderTree :=
  let made := tree.makeFolders path.dropLast
  { made with files := (path.foldl step [], text) :: made.files }

/-- The tree of some folders and files, made one after the other at their paths. -/
def ofPaths (root : String) (folders : List String) (files : List (String × String)) :
    FolderTree :=
  let made := folders.foldl (fun tree path => tree.makeFolders (segments path)) (empty root)
  files.foldl (fun tree file => tree.write (segments file.1) file.2) made

/-- What there is at the end of a way. -/
def at? (tree : FolderTree) (way : List String) : Option Place :=
  match tree.files.lookup way with
  | some text => some (.file way text)
  | none => if tree.folders.contains way then some (.folder way) else none

/-- Where one segment leads from a place. -/
def follow? (tree : FolderTree) (place : Place) (segment : String) : Option Place :=
  match place with
  | .file _ _ => none
  | .folder way =>
    if staysPut segment then some place
    else if segment == ".." then
      if way.isEmpty then some (.above 1) else some (.folder way.dropLast)
    else tree.at? (way ++ [segment])
  | .above levels =>
    if staysPut segment then some place
    else if segment == ".." then some (.above (levels + 1))
    else none

/-- Where segments lead from the root. -/
def find? (tree : FolderTree) (path : List String) : Option Place :=
  path.foldlM tree.follow? (.folder [])

/-- The path of some segments below the root. -/
def display (tree : FolderTree) (path : List String) : String :=
  String.intercalate "/" (tree.root :: path)

/-! ### Loading -/

/-- The limits of the settings file at a path. -/
def limitsAt (tree : FolderTree) (path : List String) : Except LimitsError Limits :=
  match tree.find? path with
  | some (.file _ text) =>
    match Limits.ofSettings? text with
    | some limits => .ok limits
    | none => .error (.malformedFile (tree.display path))
  | _ => .error (.unreadable (tree.display path))

/-- Whether a path leads to a file. -/
def isFile (tree : FolderTree) (path : List String) : Bool :=
  match tree.find? path with
  | some (.file _ _) => true
  | _ => false

/-- The limits of the settings file in the nearest of some folders, the standard ones if none of
them has one. -/
def nearest (tree : FolderTree) : List (List String) → Except LimitsError Limits
  | [] => .ok Limits.standard
  | folder :: more =>
    let candidate := folder ++ [settingsName]
    if tree.isFile candidate then tree.limitsAt candidate else tree.nearest more

/-- A path and all that are left when segments are taken off its end, the longest first. -/
def upwards (path : List String) : List (List String) :=
  (List.range (path.length + 1)).reverse.map path.take

/-- The paths to look at for a path that leads nowhere. Segments that stay where they are do not
end any of them but the first. -/
def writtenUpwards (path : List String) : List (List String) :=
  path :: ((upwards path).tail.filter fun left => !left.getLast?.any staysPut)

/-- The limits for documents at a path. -/
def load (tree : FolderTree) (path : String) : Except LimitsError Limits :=
  let way := segments path
  match tree.find? way with
  | some (.folder folder) => tree.nearest (upwards folder)
  | some (.file file _) => tree.nearest (upwards file)
  | some (.above _) => .ok Limits.standard
  | none => tree.nearest (writtenUpwards way)

/-- The limits of the settings file at a path. -/
def fromFile (tree : FolderTree) (path : String) : Except LimitsError Limits :=
  tree.limitsAt (segments path)

end FolderTree

end TypedMarkup
