import SleepPolicy.CommandLine.Manifest
import SleepPolicy.CommandLine.Response
import SleepPolicy.Main
import SleepPolicy.Policy.Read
import SleepPolicy.Proofs.Decision.Combination
import SleepPolicy.Proofs.Decision.Failures
import SleepPolicy.Proofs.FileTree.Listing
import SleepPolicy.Proofs.FileTree.Reading
import SleepPolicy.Proofs.Policy.Completion
import SleepPolicy.Proofs.Policy.Selection
import SleepPolicy.Proofs.Policy.RoundTrip
import SleepPolicy.Proofs.Swap.Location
import SleepPolicy.Proofs.Swap.Room
import SleepPolicy.Proofs.Text.Utf8
import SleepPolicy.Proofs.Timespan.Width
import SleepPolicy.Proofs.Settings.LastValue
import SleepPolicy.Proofs.Settings.InsertedLine
import SleepPolicy.Proofs.Policy.Lists
import SleepPolicy.Proofs.Text.Octal
import SleepPolicy.Proofs.Swap.WrittenTable
import SleepPolicy.Proofs.Kernel
import SleepPolicy.Proofs.Decision.Machine
import SleepPolicy.Proofs.FileTree.Edited
import SleepPolicy.Proofs.Policy.Masking
import SleepPolicy.Proofs.Decision.Dependence
import SleepPolicy.Proofs.Settings.Composition
import SleepPolicy.Proofs.FileTree.Rewritten
import SleepPolicy.Proofs.Policy.Unreadable
import SleepPolicy.Proofs.CommandLine.Spelling
import SleepPolicy.Proofs.CommandLine.Verbosity
import SleepPolicy.Proofs.Timespan.Grammar
import SleepPolicy.Proofs.Timespan.Concatenation
import SleepPolicy.Proofs.Settings.Reports
import SleepPolicy.Proofs.Swap.Rows
import SleepPolicy.Proofs.Swap.Shortage
import SleepPolicy.Proofs.Swap.Priority
import SleepPolicy.Proofs.Decision.Accounting
import SleepPolicy.Proofs.Kernel.States
import SleepPolicy.Proofs.Swap.Relisted
import SleepPolicy.Proofs.Kernel.Modes
import SleepPolicy.Proofs.Settings.Layout
import SleepPolicy.Proofs.Timespan.Canonical
import SleepPolicy.Proofs.Text.Escapes
import SleepPolicy.Proofs.Swap.VerbatimPath
import SleepPolicy.Proofs.Swap.ActiveMemory
