import SleepPolicy.Journal.Level
import SleepPolicy.WellKnown
import SleepPolicy.Settings.Fault
import SleepPolicy.Support

/-!
# Events

Everything that is reported on the way to an answer, with its level, its origin and its wording.
-/

namespace SleepPolicy

/-- The part of the program that reports. -/
inductive Origin
  | program | settings | kernel | swap | clock | decision
  deriving DecidableEq, Repr

def Origin.target : Origin → String
  | program => "elogind_sleep"
  | settings => "elogind_sleep::config"
  | kernel => "elogind_sleep::sysfs"
  | swap => "elogind_sleep::hibernate"
  | clock => "elogind_sleep::clock"
  | decision => "elogind_sleep::can_sleep"

inductive Event
  /-- A line of a settings file has a fault; lines count from one. -/
  | lineFault (source : String) (line : Nat) (fault : Fault)
  | settingsMissing (path : String)
  | settingsUnreadable (path : String) (error : ReadError)
  | dropInMasked (path : String)
  | noStateConfigured
  | noModeConfigured
  | notWritable (path : String) (error : SystemError)
  | controlUnreadable (path : String) (error : ReadError)
  | stateSupported (state : String)
  | statesUnsupported (states : List String)
  | modeSupported (mode : String)
  | modesUnsupported (modes : List String)
  | swapTypeUnsupported (type : String)
  | swapOnZram (path : String)
  | memoryCheckSkipped
  | swapsMissing (path : String)
  | noLocation
  | memoryCompared (path : String) (free active : UInt64) (enough : Bool)
  | clockUnreadable (error : SystemError)
  | disabled (operation : Operation)
  | probeFailed (failure : Failure)
  | alarmUnsupported
  /-- One of the two operations that make up the combined one is not possible. -/
  | partImpossible (operation : Operation)
  | partUndecided (operation : Operation) (failure : Failure)
  | answered (operation : Operation) (support : Support)
  | undecided (operation : Operation) (failure : Failure)
  deriving DecidableEq, Repr

namespace Event

def level : Event → Level
  | lineFault .. => .warn
  | settingsUnreadable .. => .warn
  | answered .. => .info
  | undecided .. => .error
  | _ => .debug

def origin : Event → Origin
  | lineFault .. | settingsMissing .. | settingsUnreadable .. | dropInMasked .. => .settings
  | noStateConfigured | noModeConfigured | notWritable .. | controlUnreadable ..
  | stateSupported .. | statesUnsupported .. | modeSupported .. | modesUnsupported .. => .kernel
  | swapTypeUnsupported .. | swapOnZram .. | memoryCheckSkipped | swapsMissing .. | noLocation
  | memoryCompared .. => .swap
  | clockUnreadable .. => .clock
  | disabled .. | probeFailed .. | alarmUnsupported | partImpossible ..
  | partUndecided .. => .decision
  | answered .. | undecided .. => .program

def text : Event → String
  | lineFault source line fault => s!"{source}:{line}: {fault.message}"
  | settingsMissing path => s!"{path} does not exist, using defaults"
  | settingsUnreadable path e => s!"Failed to read {path}, ignoring: {e.message}"
  | dropInMasked path => s!"{path} is masked"
  | noStateConfigured => "No sleep state configured."
  | noModeConfigured => "No sleep mode configured, using kernel default."
  | notWritable path e => s!"{path} is not writable: {e.symbolText}"
  | controlUnreadable path e => s!"Failed to read {path}: {e.message}"
  | stateSupported state => s!"Sleep state '{state}' is supported by kernel."
  | statesUnsupported states =>
      let list := " ".intercalate states
      s!"None of the configured sleep states are supported by kernel: {list}"
  | modeSupported mode => s!"Disk sleep mode '{mode}' is supported by kernel."
  | modesUnsupported modes =>
      let list := " ".intercalate modes
      s!"None of the configured hibernation power modes are supported by kernel: {list}"
  | swapTypeUnsupported type =>
      s!"Swap type {type} is not supported for hibernation, ignoring."
  | swapOnZram path => s!"{path} is a zram device, ignoring for hibernation."
  | memoryCheckSkipped =>
      s!"{WellKnown.bypassVariable} is set, skipping the hibernation memory check."
  | swapsMissing path => s!"{path} does not exist, no swap available."
  | noLocation => "No swap partitions or files suitable for hibernation were found."
  | memoryCompared path free active enough =>
      let verdict := if enough then "enough" else "not enough"
      s!"Hibernation location {path}: {free} KiB free, {active} KiB active anonymous memory, " ++
        verdict
  | clockUnreadable e => s!"CLOCK_BOOTTIME_ALARM is not supported: {e.symbolText}"
  | disabled operation => s!"Sleep mode \"{operation.verb}\" is disabled by configuration."
  | probeFailed failure => s!"Sleep capability probe failed: {failure.message}"
  | alarmUnsupported => "CLOCK_BOOTTIME_ALARM is not supported."
  | partImpossible operation => s!"Unable to {operation.verb} system."
  | partUndecided operation failure =>
      s!"Failed to check if {operation.verb} is possible: {failure.message}"
  | answered operation support => s!"{operation.title}: {support.text}"
  | undecided operation failure =>
      s!"Failed to check whether {operation.verb} is possible: {failure.message}"

/-- The level and the text. -/
def entry (e : Event) : String :=
  s!"{e.level.text}: {e.text}"

/-- The line that is shown to the user. -/
def line (e : Event) : String :=
  s!"[{e.origin.target}][{e.level.text}] {e.text}"

end Event

end SleepPolicy
