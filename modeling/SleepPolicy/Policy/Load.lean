import SleepPolicy.Policy.Basic
import SleepPolicy.Policy.DropIn
import SleepPolicy.Settings.Read

/-!
# Loading a policy

The main settings file is read first and then the drop-ins, each on top of what came before.  A file
that cannot be read is reported and adds nothing, and a policy always comes out.
-/

namespace SleepPolicy

/-- A main file that is not there is no fault. -/
def Settings.addMain (s : Settings) (t : FileTree) (path : String) : Logged Settings :=
  match t.readText path with
  | .ok content => s.read path content
  | .error (.system .noEntry) => do
      Logged.report (.settingsMissing path)
      return s
  | .error e => do
      Logged.report (.settingsUnreadable path e)
      return s

def Settings.addDropIn (s : Settings) (t : FileTree) (path : String) : Logged Settings :=
  match t.readText path with
  | .ok content => s.read path content
  | .error e => do
      Logged.report (.settingsUnreadable path e)
      return s

def Settings.addDropIns (t : FileTree) : List DropIn → Settings → Logged Settings
  | [], s => pure s
  | d :: rest, s => do
      let s ← s.addDropIn t d.path
      addDropIns t rest s

def Settings.load (t : FileTree) (root : String) : Logged Settings := do
  let s ← Settings.empty.addMain t (FileTree.below root WellKnown.settingsFile)
  let dropIns ← DropIn.collect t root
  Settings.addDropIns t dropIns s

def Policy.load (t : FileTree) (root : String) : Logged Policy :=
  Settings.complete <$> Settings.load t root

end SleepPolicy
