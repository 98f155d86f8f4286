import Workforce.Text.Parts

/-!
# File trees

A `FileTree` holds files and directories below a root directory.  Files only ever
grow: opening one for appending creates it if it is missing and leaves what it
holds, and writing puts a chunk at its end.  What a chunk is, is up to the user of
the tree.

A path is cut at slashes and followed from the root; empty parts and `.` stay where
they are, `..` goes up.

* `FileTree.openAppend` opens a file for appending;
* `FileTree.append` writes a chunk to an open file;
* `FileTree.makeDirectory`, `FileTree.remove` and `FileTree.read?` do the rest.
-/

namespace Workforce

/-- Why a file cannot be opened. -/
inductive FileError
  | notFound
  | isDirectory
  | notDirectory
  /-- A name or the path is too long. -/
  | nameTooLong
  /-- The path holds a character that no path can hold. -/
  | invalidPath
deriving DecidableEq, Inhabited

namespace FileError

/-- The name of an error. -/
def name : FileError → String
  | notFound => "NotFound"
  | isDirectory => "IsADirectory"
  | notDirectory => "NotADirectory"
  | nameTooLong => "InvalidFilename"
  | invalidPath => "InvalidInput"

end FileError

/-- A place in a file tree: the names on the way from the root. -/
abbrev Location := List String

/-- What is at a place in a file tree. -/
inductive FileEntry (chunk : Type)
  | directory
  | file (content : List chunk)
deriving DecidableEq, Inhabited

/-- Files and directories below a root directory. -/
structure FileTree (chunk : Type) where
  entries : List (Location × FileEntry chunk) := []
deriving Inhabited

/-- A path, cut into what leads to its last name, and that name. -/
structure Path where
  /-- The steps before the last name. -/
  steps : List String
  /-- The last name, unless the path ends in a slash or in dots. -/
  last : Option String
deriving DecidableEq

namespace Path

/-- The longest name that a path may hold, in bytes. -/
def maxNameSize : Nat := 255

/-- A path has fewer bytes than this. -/
def sizeLimit : Nat := 4096

/-- Whether a part of a path is the name of an entry. -/
def isName (part : String) : Bool := part != "" && part != "." && part != ".."

/-- Reads a path.  A name before a final slash can only be a directory's, and is
not looked up. -/
def ofText (text : String) : Path :=
  let parts := (Text.parts '/' text.toList).map String.ofList
  match parts.reverse.dropWhile (· == "") with
  | [] => { steps := [], last := none }
  | last :: before =>
    if !isName last then { steps := (last :: before).reverse, last := none }
    else
      { steps := before.reverse
        last := if parts.getLast? == some last then some last else none }

end Path

namespace FileTree

variable {chunk : Type}

/-- What is at a place; the root is a directory. -/
def entry? (tree : FileTree chunk) (place : Location) : Option (FileEntry chunk) :=
  if place.isEmpty then some .directory else tree.entries.lookup place

/-- Puts an entry at a place. -/
def put (tree : FileTree chunk) (place : Location) (entry : FileEntry chunk) : FileTree chunk :=
  ⟨tree.entries.filter (fun kept => kept.1 != place) ++ [(place, entry)]⟩

/-- Follows one step of a path from a directory. -/
def enter (tree : FileTree chunk) (place : Location) (part : String) :
    Except FileError Location :=
  if part = "" || part = "." then .ok place
  else if part = ".." then .ok place.dropLast
  else if Path.maxNameSize < part.utf8ByteSize then .error .nameTooLong
  else
    match tree.entry? (place ++ [part]) with
    | some .directory => .ok (place ++ [part])
    | some (.file _) => .error .notDirectory
    | none => .error .notFound

/-- Follows steps from a directory. -/
def follow (tree : FileTree chunk) : Location → List String → Except FileError Location
  | place, [] => .ok place
  | place, part :: rest => do tree.follow (← tree.enter place part) rest

/-- The directory that a path leads to, and the name that it ends with there, if it
ends with one. -/
def locate (tree : FileTree chunk) (text : String) :
    Except FileError (Location × Option String) :=
  if text.contains '\x00' then .error .invalidPath
  else if Path.sizeLimit ≤ text.utf8ByteSize then .error .nameTooLong
  else
    let path := Path.ofText text
    match tree.follow [] path.steps with
    | .error error => .error error
    | .ok place =>
      match path.last with
      | none => .ok (place, none)
      | some name =>
        if Path.maxNameSize < name.utf8ByteSize then .error .nameTooLong
        else .ok (place, some name)

/-- Opens a file for appending, and creates it if it is missing. -/
def openAppend (tree : FileTree chunk) (path : String) :
    Except FileError (Location × FileTree chunk) :=
  match tree.locate path with
  | .error error => .error error
  | .ok (_, none) => .error .isDirectory
  | .ok (directory, some name) =>
    let place := directory ++ [name]
    match tree.entry? place with
    | some .directory => .error .isDirectory
    | some (.file _) => .ok (place, tree)
    | none => .ok (place, tree.put place (.file []))

/-- Writes a chunk at the end of a file. -/
def append (tree : FileTree chunk) (place : Location) (written : chunk) : FileTree chunk :=
  match tree.entry? place with
  | some (.file content) => tree.put place (.file (content ++ [written]))
  | _ => tree

/-- What a file holds. -/
def read? (tree : FileTree chunk) (path : String) : Option (List chunk) :=
  match tree.locate path with
  | .ok (directory, some name) =>
    match tree.entry? (directory ++ [name]) with
    | some (.file content) => some content
    | _ => none
  | _ => none

/-- Makes a directory where there is nothing yet.  The answer is whether it was
made. -/
def makeDirectory (tree : FileTree chunk) (path : String) : Bool × FileTree chunk :=
  let named := (path.toList.reverse.dropWhile (· == '/')).reverse
  match tree.locate (String.ofList named) with
  | .ok (directory, some name) =>
    let place := directory ++ [name]
    match tree.entry? place with
    | some _ => (false, tree)
    | none => (true, tree.put place .directory)
  | _ => (false, tree)

/-- Removes a file.  The answer is whether there was one. -/
def remove (tree : FileTree chunk) (path : String) : Bool × FileTree chunk :=
  match tree.locate path with
  | .ok (directory, some name) =>
    let place := directory ++ [name]
    match tree.entry? place with
    | some (.file _) => (true, ⟨tree.entries.filter fun kept => kept.1 != place⟩)
    | _ => (false, tree)
  | _ => (false, tree)

/-- A tree with a file that holds one chunk, and the directories on the way. -/
def withFile (tree : FileTree chunk) (path : String) (content : List chunk) : FileTree chunk :=
  let place := ((Text.parts '/' path.toList).map String.ofList).filter Path.isName
  let directories := (List.range place.length).map place.take
  let tree :=
    directories.foldl
      (fun tree place => if (tree.entry? place).isSome then tree else tree.put place .directory)
      tree
  tree.put place (.file content)

end FileTree

end Workforce
