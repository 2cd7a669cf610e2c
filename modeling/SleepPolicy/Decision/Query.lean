import SleepPolicy.Decision.Session
import SleepPolicy.Policy.Basic

/-!
# Queries

Is an operation possible?  The policy must allow it, the kernel must know one of its states and one of
its modes, and whatever writes an image needs room for it.  The combined operation needs an alarm and
both of its parts, whose own permissions do not matter then.
-/

namespace SleepPolicy

namespace Decision

variable {σ : Type}

/-- A probe of the kernel counts as passed only if it says yes; a failure is reported. -/
def passes : Except Failure Bool → Session σ Bool
  | .ok supported => pure supported
  | .error failure => do
      Session.report (.probeFailed failure)
      return false

def stateKnown (p : Platform σ) (states : List String) : Session σ Bool := do
  let reply ← Session.ask p (.state states)
  passes reply

def modeKnown (p : Platform σ) (modes : List String) : Session σ Bool := do
  let reply ← Session.ask p (.mode modes)
  passes reply

def roomForImage (p : Platform σ) : Session σ (Except Failure Bool) := do
  match ← Session.ask p .swap with
  | .ok true => return .ok true
  | .ok false => return .error .notEnoughSwap
  | .error failure => return .error failure

/-- Whether a method works on the platform, permitted or not. -/
def methodWorks (p : Platform σ) (policy : Policy) (method : Method) :
    Session σ (Except Failure Bool) := do
  let state ← stateKnown p (policy.states.get method)
  if state then
    let mode ← modeKnown p (policy.modes.get method)
    if mode then
      match method with
      | .suspend => return .ok true
      | .hibernate | .hybridSleep => roomForImage p
    else
      return .ok false
  else
    return .ok false

/-- Goes on to the next part only if this one works.  A shortage of swap is a plain no here. -/
def partThen (operation : Operation) (result : Except Failure Bool)
    (next : Session σ (Except Failure Bool)) : Session σ (Except Failure Bool) :=
  match result with
  | .ok true => next
  | .ok false | .error .notEnoughSwap => do
      Session.report (.partImpossible operation)
      return .ok false
  | .error failure => do
      Session.report (.partUndecided operation failure)
      return .error failure

def bothPartsWork (p : Platform σ) (policy : Policy) : Session σ (Except Failure Bool) := do
  match ← Session.ask p .alarm with
  | .ok true =>
      let suspend ← methodWorks p policy .suspend
      partThen .suspend suspend do
        let hibernate ← methodWorks p policy .hibernate
        partThen .hibernate hibernate (pure (.ok true))
  | _ =>
      Session.report .alarmUnsupported
      return .ok false

/-- Whether an operation is possible. -/
def query (p : Platform σ) (policy : Policy) (operation : Operation) :
    Session σ (Except Failure Bool) := do
  if policy.allow.get operation then
    match operation.method? with
    | some method => methodWorks p policy method
    | none => bothPartsWork p policy
  else
    Session.report (.disabled operation)
    return .ok false

end Decision

end SleepPolicy
