import SleepPolicy.SystemError

/-!
# File trees

A file tree assigns a node to some places below a root, and the root is always a directory.  Paths
are resolved in it one name at a time, and links are followed where they are met.

## 1. Nodes
-/

namespace SleepPolicy

/-- The names that lead from the root to a place, without any link on the way. -/
abbrev Place := List String

inductive Node
  | file (content : List UInt8)
  | directory
  | link (target : String)
  /-- Reads as empty; a link to it marks a name as unused. -/
  | nullDevice
  deriving DecidableEq, Repr

structure FileTree where
  nodes : List (Place × Node)
  /-- Where the paths start that do not begin with a slash. -/
  base : Place
  deriving DecidableEq, Repr

namespace FileTree

/-- Where the null device is. -/
def nullPlace : Place := ["dev", "null"]

def node? (t : FileTree) (place : Place) : Option Node :=
  if place.isEmpty then some .directory else t.nodes.lookup place

/-- The last name of a place, if the rest is the given directory. -/
def nameIn? (directory place : Place) : Option String :=
  match place.getLast? with
  | some name => if place.dropLast = directory then some name else none
  | none => none

/-- The names in a directory. -/
def namesIn (t : FileTree) (directory : Place) : List String :=
  (t.nodes.filterMap fun (place, _) => nameIn? directory place).eraseDups

/-! ## 2. Paths -/

/-- The names between the slashes; empty ones stay. -/
def components (path : String) : List String :=
  (path.toList.splitOn '/').map String.ofList

/-- A path that begins with a slash starts at the root, any other where we are. -/
def startOf (here : Place) (path : String) : Place :=
  if path.toList.head? = some '/' then [] else here

/-- Goes down the names from a place.  Any name, even an empty one, asks for a directory to look
in.  At a link the walk goes on by `jump`, with the names of the link's target put in front. -/
def walkNames (t : FileTree) (jump : Place → List String → Except SystemError Place) :
    Place → List String → Except SystemError Place
  | here, [] => .ok here
  | here, name :: rest =>
      match t.node? here with
      | none => .error .noEntry
      | some .directory =>
          if name = "" ∨ name = "." then t.walkNames jump here rest
          else if name = ".." then t.walkNames jump here.dropLast rest
          else
            let there := here ++ [name]
            match t.node? there with
            | none => .error .noEntry
            | some (.link target) => jump (startOf here target) (components target ++ rest)
            | some _ => t.walkNames jump there rest
      | some _ => .error .notDirectory

/-- Goes down the names and follows at most so many links. -/
def walk (t : FileTree) : Nat → Place → List String → Except SystemError Place
  | 0 => t.walkNames fun _ _ => .error .tooManyLinks
  | links + 1 => t.walkNames (t.walk links)

/-- The links that a single path may lead through. -/
def linkLimit : Nat := 40

/-- The place that a path leads to.  An empty path leads nowhere. -/
def resolve (t : FileTree) (path : String) : Except SystemError Place :=
  if path = "" then .error .noEntry
  else t.walk linkLimit (startOf t.base path) (components path)

/-- The node that a path leads to. -/
def find (t : FileTree) (path : String) : Except SystemError Node := do
  let place ← t.resolve path
  match t.node? place with
  | some node => .ok node
  | none => .error .noEntry

end FileTree

end SleepPolicy
