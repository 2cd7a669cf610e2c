/-!
# Units of time

The nine units that a time span is written in, each with its length in microseconds.  A month is a
twelfth of a year, and a year has 365.25 days, so a month is no whole number of weeks.
-/

namespace SleepPolicy

inductive TimeUnit
  | year | month | week | day | hour | minute | second | millisecond | microsecond
  deriving DecidableEq, Repr

namespace TimeUnit

/-- The units from the longest to the shortest. -/
def all : List TimeUnit :=
  [year, month, week, day, hour, minute, second, millisecond, microsecond]

def usec : TimeUnit → Nat
  | year => 31557600 * 1000000
  | month => 2629800 * 1000000
  | week => 7 * 24 * 60 * 60 * 1000000
  | day => 24 * 60 * 60 * 1000000
  | hour => 60 * 60 * 1000000
  | minute => 60 * 1000000
  | second => 1000000
  | millisecond => 1000
  | microsecond => 1

/-- The name that is written. -/
def symbol : TimeUnit → String
  | year => "y"
  | month => "month"
  | week => "w"
  | day => "d"
  | hour => "h"
  | minute => "min"
  | second => "s"
  | millisecond => "ms"
  | microsecond => "us"

/-- The names that are read, in this case only. -/
def names : TimeUnit → List String
  | year => ["y", "year", "years"]
  | month => ["M", "month", "months"]
  | week => ["w", "week", "weeks"]
  | day => ["d", "day", "days"]
  | hour => ["h", "hr", "hour", "hours"]
  | minute => ["m", "min", "minute", "minutes"]
  | second => ["s", "sec", "second", "seconds"]
  | millisecond => ["ms", "msec"]
  | microsecond => ["us", "usec", "\u00b5s"]

/-- The unit of a name; a number without a unit counts seconds. -/
def ofName? (name : String) : Option TimeUnit :=
  if name = "" then some second else all.find? fun u => name ∈ u.names

end TimeUnit

end SleepPolicy
