import SleepPolicy.FileTree.Basic

/-!
# Changes to a file tree

Putting files, directories and links at paths, and removing what is there.
-/

namespace SleepPolicy

namespace FileTree

/-- A tree that holds the null device only. -/
def bare : FileTree :=
  ⟨[(nullPlace.dropLast, .directory), (nullPlace, .nullDevice)], []⟩

/-- Removes a place and all below it. -/
def erase (t : FileTree) (place : Place) : FileTree :=
  { t with nodes := t.nodes.filter fun (p, _) => !place.isPrefixOf p }

def put (t : FileTree) (place : Place) (node : Node) : FileTree :=
  { t with nodes := (place, node) :: (t.erase place).nodes }

/-- Goes down the names, making the directories that are missing. -/
def makeNames (t : FileTree) (here : Place) : List String → Except SystemError (FileTree × Place)
  | [] => .ok (t, here)
  | name :: rest =>
      if name = "" ∨ name = "." then t.makeNames here rest
      else if name = ".." then t.makeNames here.dropLast rest
      else
        let there := here ++ [name]
        match t.node? there with
        | none => (t.put there .directory).makeNames there rest
        | some .directory => t.makeNames there rest
        | some (.link target) =>
            match t.walk linkLimit (startOf here target) (components target) with
            | .ok place => t.makeNames place rest
            | .error e => .error e
        | some _ => .error .notDirectory

def makeDirectory (t : FileTree) (path : String) : Except SystemError FileTree := do
  let (t, _) ← t.makeNames (startOf t.base path) (components path)
  return t

/-- Puts a node at a path, in place of anything there, and makes its parent directories. -/
def putAt (t : FileTree) (path : String) (node : Node) : Except SystemError FileTree := do
  let names := components path
  let (t, parent) ← t.makeNames (startOf t.base path) names.dropLast
  return t.put (parent ++ [names.getLastD ""]) node

/-- Removes what is at a path, if there is anything; a link is removed and not what it leads to. -/
def removeAt (t : FileTree) (path : String) : FileTree :=
  let names := components path
  match t.walk linkLimit (startOf t.base path) names.dropLast with
  | .ok parent => t.erase (parent ++ [names.getLastD ""])
  | .error _ => t

/-- Makes relative paths start at a directory. -/
def enter (t : FileTree) (path : String) : Except SystemError FileTree := do
  let place ← t.resolve path
  return { t with base := place }

end FileTree

end SleepPolicy
