import Workforce.FileTree
import Workforce.Session.Verdict

/-!
# Sessions with a directory of files

A session works on the files of one directory, which is empty at first.
-/

namespace Workforce

/-- An operation on files. -/
inductive FileOperation
  /-- Opens a file for appending and writes a text, so many times but at least
  once. -/
  | append (path text : String) (times : Nat)
  | makeDirectory (path : String)
  | remove (path : String)
  | read (path : String)
  /-- No operation of this kind. -/
  | unknown
deriving Inhabited

/-- The result of an operation on files. -/
inductive FileReply
  | verdict (verdict : Verdict)
  | flag (value : Bool)
  | text (value : Option String)
  | failed (error : FileError)

namespace FileTree

/-- Writes a text so many times. -/
def appendTimes (tree : FileTree String) (place : Location) (text : String) :
    Nat → FileTree String
  | 0 => tree
  | times + 1 => (tree.append place text).appendTimes place text times

/-- Carries out an operation. -/
def perform (tree : FileTree String) : FileOperation → FileReply × FileTree String
  | .append path text times =>
    match tree.openAppend path with
    | .error error => (.failed error, tree)
    | .ok (place, tree) => (.verdict .ok, tree.appendTimes place text (max times 1))
  | .makeDirectory path =>
    let (made, tree) := tree.makeDirectory path
    (.flag made, tree)
  | .remove path =>
    let (removed, tree) := tree.remove path
    (.flag removed, tree)
  | .read path => (.text ((tree.read? path).map String.join), tree)
  | .unknown => (.verdict .badOperation, tree)

end FileTree

end Workforce
