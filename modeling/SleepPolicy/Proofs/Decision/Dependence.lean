import SleepPolicy.Proofs.Decision.Plan

/-!
# What a query depends on

A query reads of a policy whether it allows the operation, and the lists of the methods that carry the
operation out.  Policies that agree there cannot be told apart on any platform.  Nothing of this can be
left out: a platform that says yes to everything shows the whole plan, and with it the lists.

## 1. Policies that agree
-/

namespace SleepPolicy

/-- The methods that carry an operation out, in order. -/
def Operation.methods : Operation → List Method
  | .suspend => [.suspend]
  | .hibernate => [.hibernate]
  | .hybridSleep => [.hybridSleep]
  | .suspendThenHibernate => [.suspend, .hibernate]

theorem Operation.mem_methods_of_method? {operation : Operation} {method : Method}
    (h : operation.method? = some method) : method ∈ operation.methods := by
  cases operation with
  | suspendThenHibernate => cases h
  | _ => simp [methods, ← Option.some.inj h]

theorem Operation.eq_combined_of_method? {operation : Operation} (h : operation.method? = none) :
    operation = .suspendThenHibernate := by
  cases operation with
  | suspendThenHibernate => rfl
  | _ => cases h

/-- The policies have the same states and modes for every method of an operation. -/
def Policy.SameLists (policy policy' : Policy) (operation : Operation) : Prop :=
  ∀ method ∈ operation.methods,
    policy.states.get method = policy'.states.get method ∧
      policy.modes.get method = policy'.modes.get method

namespace Decision

variable {σ : Type} {policy policy' : Policy} {operation : Operation}

theorem methodWorks_congr (p : Platform σ) {method : Method}
    (hstates : policy.states.get method = policy'.states.get method)
    (hmodes : policy.modes.get method = policy'.modes.get method) :
    methodWorks p policy method = methodWorks p policy' method := by
  rw [methodWorks_eq, methodWorks_eq, hstates, hmodes]

theorem bothPartsWork_congr (p : Platform σ)
    (h : policy.SameLists policy' .suspendThenHibernate) :
    bothPartsWork p policy = bothPartsWork p policy' := by
  obtain ⟨hstates, hmodes⟩ := h .suspend (by decide)
  obtain ⟨hstates', hmodes'⟩ := h .hibernate (by decide)
  unfold bothPartsWork
  rw [methodWorks_congr p hstates hmodes, methodWorks_congr p hstates' hmodes']

theorem query_congr (p : Platform σ)
    (hallow : policy.allow.get operation = policy'.allow.get operation)
    (hlists : policy.allow.get operation = true → policy.SameLists policy' operation) (s : σ) :
    query p policy operation s = query p policy' operation s := by
  cases hallowed : policy.allow.get operation with
  | false => rw [query_forbidden p hallowed, query_forbidden p (hallow ▸ hallowed)]
  | true =>
    have hsame := hlists hallowed
    rw [query_allowed p hallowed, query_allowed p (hallow ▸ hallowed)]
    -- A method has its own lists only, and the combined operation those of its parts.
    cases hmethod : operation.method? with
    | some method =>
      obtain ⟨hstates, hmodes⟩ := hsame method (Operation.mem_methods_of_method? hmethod)
      exact congrFun (methodWorks_congr p hstates hmodes) s
    | none =>
      obtain rfl := Operation.eq_combined_of_method? hmethod
      exact congrFun (bothPartsWork_congr p hsame) s

end Decision

/-! ## 2. Telling policies apart -/

/-- Says yes to everything. -/
def Platform.willing : Platform Unit :=
  .fixed (fun _ => pure (.ok true)) (fun _ => pure (.ok true)) (pure (.ok true)) (pure true)

theorem Platform.isYes_willing (q : Question) : isYes (willing.answer () q).1.value = true := by
  cases q <;> rfl

theorem Platform.consult_willing (plan : List Question) :
    (willing.consult plan ()).1.map Prod.fst = plan := by
  induction plan with
  | nil => rfl
  | cons q rest ih =>
    rw [consult_cons_yes willing rest (isYes_willing q), List.map_cons]
    exact congrArg (q :: ·) ih

namespace Decision

theorem questions_willing (policy : Policy) (operation : Operation) :
    (query .willing policy operation ()).questions =
      if policy.allow.get operation then plan policy operation else [] := by
  cases hallowed : policy.allow.get operation with
  | false =>
    rw [query_forbidden .willing hallowed]
    rfl
  | true =>
    rw [Outcome.questions_eq_map_exchanges, (query_carried .willing hallowed ()).exchanges_eq,
      Platform.consult_willing]
    rfl

theorem plan_eq_iff {policy policy' : Policy} {operation : Operation} :
    plan policy operation = plan policy' operation ↔ policy.SameLists policy' operation := by
  cases operation <;> simp [plan, Policy.SameLists, Operation.methods, PerMethod.get, and_assoc]

/-- Which policies are the same to a query.  On every platform, whatever it answers and even if its
answers change, the whole outcome is the same: the result, the questions in order, and all that was
reported. -/
theorem query_eq_iff (policy policy' : Policy) (operation : Operation) :
    (∀ (σ : Type) (p : Platform σ) (s : σ),
      query p policy operation s = query p policy' operation s) ↔
    policy.allow.get operation = policy'.allow.get operation ∧
      (policy.allow.get operation = true → policy.SameLists policy' operation) := by
  constructor
  · intro h
    have hquestions := congrArg Outcome.questions (h Unit .willing ())
    rw [questions_willing, questions_willing] at hquestions
    have hplan := plan_ne_nil policy operation
    have hplan' := plan_ne_nil policy' operation
    -- A plan is never empty, so the questions show whether the operation is allowed.
    cases hallowed : policy.allow.get operation <;> cases hallowed' : policy'.allow.get operation
    · exact ⟨rfl, fun h => by cases h⟩
    · rw [hallowed, hallowed'] at hquestions
      exact absurd hquestions.symm hplan'
    · rw [hallowed, hallowed'] at hquestions
      exact absurd hquestions hplan
    · rw [hallowed, hallowed'] at hquestions
      exact ⟨rfl, fun _ => plan_eq_iff.mp hquestions⟩
  · rintro ⟨hallow, hlists⟩ σ p s
    exact query_congr p hallow hlists s

end Decision

end SleepPolicy
