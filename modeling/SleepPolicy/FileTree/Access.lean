import SleepPolicy.FileTree.Basic
import SleepPolicy.Text.Utf8

/-!
# Access to files

Reading, listing and testing paths.  All of these follow links, also at the end of a path.  What is
there can be read and listed; write access can be refused place by place, by permissions or because the
file system is read-only.
-/

namespace SleepPolicy

namespace FileTree

def readBytes (t : FileTree) (path : String) : Except SystemError (List UInt8) := do
  match ← t.find path with
  | .file content => .ok content
  | .nullDevice => .ok []
  | .directory => .error .isDirectory
  | .link _ => .error .tooManyLinks

def readText (t : FileTree) (path : String) : Except ReadError (List Char) :=
  match t.readBytes path with
  | .error e => .error (.system e)
  | .ok bytes =>
      match Text.decodeUtf8? bytes with
      | some text => .ok text
      | none => .error .notUtf8

/-- Places that may not be written to, each with the reason. -/
abbrev Refusals := List (Place × SystemError)

/-- Asks for write access.  A path that leads nowhere fails before any refusal counts. -/
def checkWritable (t : FileTree) (refusals : Refusals) (path : String) : Except SystemError Unit := do
  let place ← t.resolve path
  match t.node? place with
  | none => .error .noEntry
  | some _ =>
      match refusals.lookup place with
      | some e => .error e
      | none => .ok ()

/-- The names in a directory, in no particular order. -/
def list (t : FileTree) (path : String) : Except SystemError (List String) := do
  let place ← t.resolve path
  match t.node? place with
  | some .directory => .ok (t.namesIn place)
  | _ => .error .notDirectory

def isFile (t : FileTree) (path : String) : Bool :=
  match t.find path with
  | .ok (.file _) => true
  | _ => false

/-- Whether a path leads to the place of the null device, whatever is there. -/
def isNullDevice (t : FileTree) (path : String) : Bool :=
  match t.resolve path with
  | .ok place => place == nullPlace && (t.node? place).isSome
  | .error _ => false

/-- A path below a root: one slash stands between the two. -/
def below (root path : String) : String :=
  let rest := String.ofList (path.toList.dropWhile (· == '/'))
  if root.isEmpty || root.toList.getLast? == some '/' then root ++ rest else root ++ "/" ++ rest

end FileTree

end SleepPolicy
