import SleepPolicy.Journal.Logged
import SleepPolicy.Settings.Finding

/-!
# Reading settings

A file is read on top of the settings that are already there: its assignments are carried out in
order, and its faults are reported with their line numbers.
-/

namespace SleepPolicy

namespace Settings

/-- The assignments of a file, in order. -/
def assignmentsIn (content : List Char) : List Assignment :=
  (Finding.ofContent content).filterMap fun finding => finding.bind Finding.assignment?

/-- The faults of a file with their line numbers, which count from one. -/
def faultsIn (content : List Char) : List (Nat × Fault) :=
  ((Finding.ofContent content).zipIdx 1).filterMap fun (finding, line) =>
    (finding.bind Finding.fault?).map fun f => (line, f)

def read (s : Settings) (source : String) (content : List Char) : Logged Settings :=
  ⟨(assignmentsIn content).foldl assign s,
   (faultsIn content).map fun (line, f) => .lineFault source line f⟩

end Settings

end SleepPolicy
