import SleepPolicy.Decision.Platform

/-!
# Sessions

A session is a computation that may question a platform.  Its transcript holds the questions, the
answers with what the platform reported, and what the computation itself reported, all in order.
-/

namespace SleepPolicy

inductive Entry
  /-- A question, the answer to it, and what the platform reported meanwhile. -/
  | exchange (question : Question) (answer : Except Failure Bool) (log : List Event)
  | report (event : Event)

namespace Entry

def question? : Entry → Option Question
  | exchange question _ _ => some question
  | report _ => none

def report? : Entry → Option Event
  | exchange .. => none
  | report event => some event

def events : Entry → List Event
  | exchange _ _ log => log
  | report event => [event]

end Entry

/-- A session that is over. -/
structure Outcome (σ α : Type) where
  value : α
  state : σ
  transcript : List Entry

namespace Outcome

variable {σ α : Type}

def questions (o : Outcome σ α) : List Question :=
  o.transcript.filterMap Entry.question?

/-- What the computation itself reported. -/
def reports (o : Outcome σ α) : List Event :=
  o.transcript.filterMap Entry.report?

/-- All that was reported, by the platform too. -/
def log (o : Outcome σ α) : List Event :=
  o.transcript.flatMap Entry.events

end Outcome

def Session (σ α : Type) : Type :=
  σ → Outcome σ α

namespace Session

variable {σ α β : Type}

instance : Monad (Session σ) where
  pure a := fun s => ⟨a, s, []⟩
  bind x f := fun s =>
    let first := x s
    let second := f first.value first.state
    ⟨second.value, second.state, first.transcript ++ second.transcript⟩

def report (e : Event) : Session σ Unit :=
  fun s => ⟨(), s, [.report e]⟩

def ask (p : Platform σ) (question : Question) : Session σ (Except Failure Bool) :=
  fun s =>
    let (reply, s) := p.answer s question
    ⟨reply.value, s, [.exchange question reply.value reply.log]⟩

theorem bind_apply (x : Session σ α) (f : α → Session σ β) (s : σ) :
    (x >>= f) s =
      ⟨(f (x s).value (x s).state).value, (f (x s).value (x s).state).state,
       (x s).transcript ++ (f (x s).value (x s).state).transcript⟩ := rfl

end Session

end SleepPolicy
