/-!
# Well-known paths and variables

The files and environment variables that are looked at unless others are named.
-/

namespace SleepPolicy.WellKnown

/-- The main settings file. -/
def settingsFile : String := "/etc/elogind/sleep.conf"

/-- The drop-in directories; a name in one hides the same name in all later ones. -/
def dropInDirectories : List String :=
  ["/etc/elogind/sleep.conf.d", "/run/elogind/sleep.conf.d",
   "/usr/local/lib/elogind/sleep.conf.d", "/usr/lib/elogind/sleep.conf.d"]

/-- Set to a true value, it turns the memory check off. -/
def bypassVariable : String := "ELOGIND_BYPASS_HIBERNATION_MEMORY_CHECK"

/-- Holds the level of messages when no option gives one. -/
def levelVariable : String := "ELOGIND_SLEEP_LOG"

end SleepPolicy.WellKnown
