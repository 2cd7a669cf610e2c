import SleepPolicy.Journal.Logged

/-!
# Platforms

The decision puts four kinds of question to a platform, one at a time.  A platform may have a state,
so that the same question need not get the same answer twice.
-/

namespace SleepPolicy

inductive Question
  /-- Does the kernel know one of these states? -/
  | state (states : List String)
  /-- Does the kernel know one of these disk modes? -/
  | mode (modes : List String)
  /-- Is there enough swap for the image? -/
  | swap
  /-- Can an alarm wake the machine? -/
  | alarm
  deriving DecidableEq, Repr

/-- How a machine answers; the answer about the alarm cannot fail. -/
structure Platform (σ : Type) where
  state : List String → σ → Logged (Except Failure Bool) × σ
  mode : List String → σ → Logged (Except Failure Bool) × σ
  swap : σ → Logged (Except Failure Bool) × σ
  alarm : σ → Logged Bool × σ

namespace Platform

variable {σ : Type}

def answer (p : Platform σ) (s : σ) : Question → Logged (Except Failure Bool) × σ
  | .state states => p.state states s
  | .mode modes => p.mode modes s
  | .swap => p.swap s
  | .alarm => (Except.ok <$> (p.alarm s).1, (p.alarm s).2)

/-- A platform that answers each question in the same way whenever it is asked. -/
def fixed (state mode : List String → Logged (Except Failure Bool))
    (swap : Logged (Except Failure Bool)) (alarm : Logged Bool) : Platform Unit where
  state states _ := (state states, ())
  mode modes _ := (mode modes, ())
  swap _ := (swap, ())
  alarm _ := (alarm, ())

end Platform

end SleepPolicy
