import SleepPolicy.Journal.Event

/-!
# Logged values

A value together with the events that were reported while it was computed, in order.
-/

namespace SleepPolicy

@[ext]
structure Logged (α : Type) where
  value : α
  log : List Event
  deriving DecidableEq, Repr

namespace Logged

variable {α β : Type}

instance : Monad Logged where
  pure a := ⟨a, []⟩
  bind x f := ⟨(f x.value).value, x.log ++ (f x.value).log⟩

def report (e : Event) : Logged Unit :=
  ⟨(), [e]⟩

@[simp] theorem value_pure (a : α) : (pure a : Logged α).value = a := rfl

@[simp] theorem log_pure (a : α) : (pure a : Logged α).log = [] := rfl

@[simp] theorem value_bind (x : Logged α) (f : α → Logged β) :
    (x >>= f).value = (f x.value).value := rfl

@[simp] theorem log_bind (x : Logged α) (f : α → Logged β) :
    (x >>= f).log = x.log ++ (f x.value).log := rfl

@[simp] theorem value_map (f : α → β) (x : Logged α) : (f <$> x).value = f x.value := rfl

@[simp] theorem log_map (f : α → β) (x : Logged α) : (f <$> x).log = x.log := by
  simp [Functor.map]

@[simp] theorem log_report (e : Event) : (report e).log = [e] := rfl

instance : LawfulMonad Logged := LawfulMonad.mk' Logged
  (by intro α x; exact Logged.ext (by simp) (by simp))
  (by intro α β a f; exact Logged.ext rfl (by simp))
  (by intro α β γ x f g; exact Logged.ext rfl (by simp))

end Logged

end SleepPolicy
