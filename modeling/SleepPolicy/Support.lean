import SleepPolicy.Failure

/-!
# Support

The answer to a query: yes, no, or not available for want of swap.
-/

namespace SleepPolicy

inductive Support
  | yes | no | notAvailable
  deriving DecidableEq, Repr

namespace Support

def text : Support → String
  | yes => "yes"
  | no => "no"
  | notAvailable => "na"

/-- A shortage of swap becomes an answer; every other failure stays one. -/
def ofResult : Except Failure Bool → Except Failure Support
  | .ok true => .ok yes
  | .ok false => .ok no
  | .error .notEnoughSwap => .ok notAvailable
  | .error failure => .error failure

end Support

end SleepPolicy
