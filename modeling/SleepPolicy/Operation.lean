/-!
# Sleep operations

The four ways in which a machine can be asked to sleep.  Three of them are methods, with modes and
states of their own; the fourth combines the first two.
-/

namespace SleepPolicy

inductive Operation
  | suspend | hibernate | hybridSleep | suspendThenHibernate
  deriving DecidableEq, Repr

/-- An operation that has modes and states of its own. -/
inductive Method
  | suspend | hibernate | hybridSleep
  deriving DecidableEq, Repr

namespace Operation

def all : List Operation :=
  [suspend, hibernate, hybridSleep, suspendThenHibernate]

def index : Operation → Nat
  | suspend => 0
  | hibernate => 1
  | hybridSleep => 2
  | suspendThenHibernate => 3

/-- The name that is read and written. -/
def verb : Operation → String
  | suspend => "suspend"
  | hibernate => "hibernate"
  | hybridSleep => "hybrid-sleep"
  | suspendThenHibernate => "suspend-then-hibernate"

/-- The name in messages to the user. -/
def title : Operation → String
  | suspend => "Suspend"
  | hibernate => "Hibernate"
  | hybridSleep => "Hybrid-Sleep"
  | suspendThenHibernate => "Suspend-then-Hibernate"

def method? : Operation → Option Method
  | suspend => some .suspend
  | hibernate => some .hibernate
  | hybridSleep => some .hybridSleep
  | suspendThenHibernate => none

/-- A verb that names no operation. -/
structure Unknown where
  verb : String
  deriving DecidableEq, Repr

def Unknown.message (u : Unknown) : String :=
  s!"unknown sleep operation '{u.verb}'"

def ofVerb (verb : String) : Except Unknown Operation :=
  match all.find? (·.verb == verb) with
  | some operation => .ok operation
  | none => .error ⟨verb⟩

/-- The order in which the operations are listed. -/
def precedes (a b : Operation) : Bool :=
  a.index ≤ b.index

end Operation

def Method.operation : Method → Operation
  | .suspend => .suspend
  | .hibernate => .hibernate
  | .hybridSleep => .hybridSleep

/-! ## Tables -/

/-- One value for each operation. -/
structure PerOperation (α : Type) where
  suspend : α
  hibernate : α
  hybridSleep : α
  suspendThenHibernate : α
  deriving DecidableEq, Repr

/-- One value for each method. -/
structure PerMethod (α : Type) where
  suspend : α
  hibernate : α
  hybridSleep : α
  deriving DecidableEq, Repr

variable {α : Type}

namespace PerOperation

def fill (a : α) : PerOperation α :=
  ⟨a, a, a, a⟩

def get (t : PerOperation α) : Operation → α
  | .suspend => t.suspend
  | .hibernate => t.hibernate
  | .hybridSleep => t.hybridSleep
  | .suspendThenHibernate => t.suspendThenHibernate

def set (t : PerOperation α) (operation : Operation) (a : α) : PerOperation α :=
  match operation with
  | .suspend => { t with suspend := a }
  | .hibernate => { t with hibernate := a }
  | .hybridSleep => { t with hybridSleep := a }
  | .suspendThenHibernate => { t with suspendThenHibernate := a }

theorem get_fill (a : α) (operation : Operation) : (fill a).get operation = a := by
  cases operation <;> rfl

theorem get_set (t : PerOperation α) (o o' : Operation) (a : α) :
    (t.set o a).get o' = if o = o' then a else t.get o' := by
  cases o <;> cases o' <;> rfl

end PerOperation

namespace PerMethod

def fill (a : α) : PerMethod α :=
  ⟨a, a, a⟩

def get (t : PerMethod α) : Method → α
  | .suspend => t.suspend
  | .hibernate => t.hibernate
  | .hybridSleep => t.hybridSleep

def set (t : PerMethod α) (method : Method) (a : α) : PerMethod α :=
  match method with
  | .suspend => { t with suspend := a }
  | .hibernate => { t with hibernate := a }
  | .hybridSleep => { t with hybridSleep := a }

def zipWith {β γ : Type} (f : α → β → γ) (s : PerMethod α) (t : PerMethod β) : PerMethod γ :=
  ⟨f s.suspend t.suspend, f s.hibernate t.hibernate, f s.hybridSleep t.hybridSleep⟩

theorem get_fill (a : α) (method : Method) : (fill a).get method = a := by
  cases method <;> rfl

theorem get_zipWith {β γ : Type} (f : α → β → γ) (s : PerMethod α) (t : PerMethod β)
    (method : Method) : (s.zipWith f t).get method = f (s.get method) (t.get method) := by
  cases method <;> rfl

theorem get_set (t : PerMethod α) (m m' : Method) (a : α) :
    (t.set m a).get m' = if m = m' then a else t.get m' := by
  cases m <;> cases m' <;> rfl

end PerMethod

end SleepPolicy
