import SleepPolicy.Decision.Machine
import SleepPolicy.FileTree.Edit
import SleepPolicy.Text.Numeral
import SleepPolicy.Text.Octal

/-!
# Machine manifests

The program is told about a machine by a text with one line for each file, directory and link, one for
each path that may not be written to, and one for the alarm:

* `directory PATH`
* `file PATH CONTENT`, or `file PATH` for an empty file
* `link PATH TARGET`
* `refuse PATH NUMBER`, with the number of the error
* `alarm`

Blanks and backslashes in a field are written as octal escapes.  Later lines replace earlier ones; a
refusal stays with the place that its path led to.
-/

namespace SleepPolicy

namespace Manifest

def pathOf (field : List Char) : String :=
  String.ofList (Text.unescape field)

def bytesOf (field : List Char) : List UInt8 :=
  Text.unescapeBytes (Text.encodeUtf8 field)

/-- Adds what a line says, or nothing if the line makes no sense here. -/
def addLine? (m : Machine) (line : List Char) : Option Machine :=
  let put (path : List Char) (node : Node) : Option Machine :=
    (m.tree.putAt (pathOf path) node).toOption.map fun tree => { m with tree := tree }
  match Text.words line with
  | [] => some m
  | [word] => if word = "alarm".toList then some { m with clockError := none } else none
  | [word, path] =>
      if word = "directory".toList then
        (m.tree.makeDirectory (pathOf path)).toOption.map fun tree => { m with tree := tree }
      else if word = "file".toList then put path (.file [])
      else none
  | [word, path, field] =>
      if word = "file".toList then put path (.file (bytesOf field))
      else if word = "link".toList then put path (.link (pathOf field))
      else if word = "refuse".toList then do
        let number ← Text.word? field
        let e ← SystemError.ofNumber? number.toNat
        let place ← (m.tree.resolve (pathOf path)).toOption
        return { m with refusals := (place, e) :: m.refusals }
      else none
  | _ => none

/-- A machine with the null device as its only file, and without an alarm. -/
def bareMachine (bypass : Option (List UInt8)) : Machine :=
  ⟨.bare, [], bypass, some .invalidArgument⟩

/-- Reads a manifest; the first line that makes no sense is given back instead. -/
def read (m : Machine) : List (List Char) → Except String Machine
  | [] => .ok m
  | line :: rest =>
      match addLine? m line with
      | some m => read m rest
      | none => .error (String.ofList line)

def unreadableText (line : String) : String :=
  s!"unknown line in the manifest: {line}"

end Manifest

end SleepPolicy
