import SleepPolicy.FileTree.Access
import SleepPolicy.Journal.Logged
import SleepPolicy.WellKnown

/-!
# Drop-ins

The drop-in files are collected from several directories.  A name counts once, in the first directory
that lists it, whatever is behind the name there; the chosen files are then put in the order of their
names, across all directories.
-/

namespace SleepPolicy

/-- A name in a drop-in directory, and the path to it. -/
structure DropIn where
  name : String
  path : String
  deriving DecidableEq, Repr

namespace DropIn

/-- Drop-ins end in `.conf`, after at least one more character. -/
def isName (name : String) : Bool :=
  let suffix := ".conf".toList
  suffix.isSuffixOf name.toList && suffix.length < name.toList.length

def ofDirectory (directory : String) (names : List String) : List DropIn :=
  (names.filter isName).map fun name => ⟨name, directory ++ "/" ++ name⟩

/-- Of the drop-ins with one name the first remains. -/
def firstOfEachName : List DropIn → List DropIn
  | [] => []
  | d :: rest => d :: (firstOfEachName rest).filter fun e => e.name != d.name

def inOrder (ds : List DropIn) : List DropIn :=
  ds.mergeSort fun d e => d.name ≤ e.name

/-- Chooses among the names that the directories list, the directories coming in order of
precedence. -/
def choose (listings : List (String × List String)) : List DropIn :=
  inOrder (firstOfEachName (listings.flatMap fun (directory, names) => ofDirectory directory names))

/-- The drop-in directories below a root, with the names in those that can be listed. -/
def listings (t : FileTree) (root : String) : List (String × List String) :=
  WellKnown.dropInDirectories.filterMap fun directory =>
    let path := FileTree.below root directory
    match t.list path with
    | .ok names => some (path, names)
    | .error _ => none

/-- Keeps the regular files; a name that leads to the null device is reported as masked. -/
def keepFiles (t : FileTree) : List DropIn → Logged (List DropIn)
  | [] => pure []
  | d :: rest => do
      if t.isNullDevice d.path then
        Logged.report (.dropInMasked d.path)
        keepFiles t rest
      else
        let kept ← keepFiles t rest
        return if t.isFile d.path then d :: kept else kept

/-- The drop-in files below a root, in the order in which they are read. -/
def collect (t : FileTree) (root : String) : Logged (List DropIn) :=
  keepFiles t (choose (listings t root))

end DropIn

end SleepPolicy
