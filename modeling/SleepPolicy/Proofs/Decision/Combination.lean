import SleepPolicy.Proofs.Decision.Plan

/-!
# The combined operation from its parts

On a platform that does not change its answers, the combined operation is as possible as its parts are
when the policy permits everything.  Three things make it a plain no before hibernation is looked at:
the policy, the alarm and suspension.  After that, hibernation decides, and a shortage of swap is a
plain no.

## 1. Steady platforms
-/

namespace SleepPolicy

variable {σ : Type}

/-- The answer to a question does not depend on what was asked before. -/
def Platform.Steady (p : Platform σ) : Prop :=
  ∀ (question : Question) (s t : σ), (p.answer s question).1.value = (p.answer t question).1.value

namespace Platform

theorem steady_fixed (state mode : List String → Logged (Except Failure Bool))
    (swap : Logged (Except Failure Bool)) (alarm : Logged Bool) :
    (fixed state mode swap alarm).Steady := by
  intro question s t
  cases question <;> rfl

theorem Steady.consult_eq {p : Platform σ} (hp : p.Steady) (plan : List Question) (s t : σ) :
    (p.consult plan s).1 = (p.consult plan t).1 := by
  induction plan generalizing s t with
  | nil => rfl
  | cons q rest ih =>
    have hanswer := hp q s t
    cases hyes : isYes (p.answer t q).1.value with
    | false => rw [p.consult_cons_no rest (hanswer ▸ hyes), p.consult_cons_no rest hyes, hanswer]
    | true =>
      rw [p.consult_cons_yes rest (hanswer ▸ hyes), p.consult_cons_yes rest hyes, hanswer,
        ih (p.answer s q).2 (p.answer t q).2]

end Platform

namespace Decision

theorem Carried.value_eq_of_steady {p : Platform σ} (hp : p.Steady) {plan : List Question}
    (hplan : plan ≠ []) {judge : Question × Except Failure Bool → Except Failure Bool}
    {x : Session σ (Except Failure Bool)} (h : ∀ s, Carried p plan judge s (x s)) (s t : σ) :
    (x s).value = (x t).value := by
  obtain ⟨e, he⟩ := p.exists_last_consult hplan t
  have he' : (p.consult plan s).1.getLast? = some e := by rw [hp.consult_eq plan s t, he]
  rw [(h s).value_eq e he', (h t).value_eq e he]

theorem methodWorks_steady {p : Platform σ} (hp : p.Steady) (policy : Policy) (method : Method)
    (s t : σ) : (methodWorks p policy method s).value = (methodWorks p policy method t).value :=
  Carried.value_eq_of_steady hp (plan_ne_nil policy method.operation)
    (methodWorks_carried p policy method) s t

/-! ## 2. Parts and their combination -/

-- The permissions have no part in what a method needs.
theorem query_permitted (p : Platform σ) (policy : Policy) (method : Method) :
    query p { policy with allow := .fill true } method.operation = methodWorks p policy method := by
  cases method <;> rfl

theorem value_parts {p : Platform σ} (hp : p.Steady) (policy : Policy) (s s₁ s₂ : σ) :
    (parts p policy s).value =
      if Platform.isYes (methodWorks p policy .suspend s₁).value
      then soften (methodWorks p policy .hibernate s₂).value
      else soften (methodWorks p policy .suspend s₁).value := by
  rw [methodWorks_steady hp policy .suspend s₁ s]
  cases hsuspend : Platform.isYes (methodWorks p policy .suspend s).value with
  | false =>
    rw [parts, Session.value_bind, value_partThen_no .suspend hsuspend]
    rfl
  | true =>
    have hyes := Platform.isYes_eq_true_iff.mp hsuspend
    rw [if_pos rfl, methodWorks_steady hp policy .hibernate s₂ (methodWorks p policy .suspend s).state]
    rw [parts, Session.value_bind, hyes]
    show (partThen .hibernate _ _ _).value = _
    cases hhibernate : Platform.isYes
        (methodWorks p policy .hibernate (methodWorks p policy .suspend s).state).value with
    | false => rw [value_partThen_no .hibernate hhibernate]
    | true =>
      rw [Platform.isYes_eq_true_iff.mp hhibernate]
      rfl

-- Without a question about swap, suspension never ends in a failure.
theorem soften_suspend (p : Platform σ) (policy : Policy) (s : σ)
    (hno : (methodWorks p policy .suspend s).value ≠ .ok true) :
    soften (methodWorks p policy .suspend s).value = .ok false := by
  obtain ⟨⟨q, answer⟩, he⟩ := p.exists_last_consult (plan_ne_nil policy .suspend) s
  have hvalue := (methodWorks_carried p policy .suspend s).value_eq _ he
  have hq : q ∈ plan policy .suspend :=
    (p.consult_prefix (plan policy .suspend) s).subset
      (List.mem_map.mpr ⟨_, List.mem_of_getLast? he, rfl⟩)
  have hswap : q ≠ .swap := by
    rintro rfl
    simp [plan] at hq
  rw [hvalue] at hno
  have hanswer : Platform.isYes answer = false :=
    Bool.eq_false_iff.mpr fun h => hno (verdict_eq_ok_true_iff.mpr (Platform.isYes_eq_true_iff.mp h))
  rw [hvalue, verdict_no hswap hanswer]
  rfl

theorem soften_cases {result : Except Failure Bool} :
    (result = .ok true → soften result = .ok true) ∧
    (result = .ok false ∨ result = .error .notEnoughSwap → soften result = .ok false) ∧
    (∀ failure, failure ≠ .notEnoughSwap → result = .error failure →
      soften result = .error failure) := by
  refine ⟨fun h => by rw [h]; rfl, ?_, ?_⟩
  · rintro (h | h) <;> rw [h] <;> rfl
  · intro failure hfailure h
    rw [h]
    cases failure with
    | notEnoughSwap => exact absurd rfl hfailure
    | _ => rfl

theorem value_bothPartsWork {p : Platform σ} (hp : p.Steady) (policy : Policy) (s s₁ s₂ s₃ : σ) :
    (bothPartsWork p policy s).value =
      if (p.alarm s₃).1.value && Platform.isYes (methodWorks p policy .suspend s₁).value
      then soften (methodWorks p policy .hibernate s₂).value
      else .ok false := by
  have halarm : (p.answer s .alarm).1.value = .ok (p.alarm s₃).1.value := hp .alarm s s₃
  cases hyes : (p.alarm s₃).1.value with
  | false =>
    rw [hyes] at halarm
    rw [bothPartsWork_no p policy (by rw [halarm]; rfl)]
    rfl
  | true =>
    rw [hyes] at halarm
    rw [bothPartsWork_yes p policy halarm, Session.value_bind, value_parts hp policy _ s₁ s₂,
      Bool.true_and]
    by_cases hsuspend : Platform.isYes (methodWorks p policy .suspend s₁).value = true
    · rw [if_pos hsuspend, if_pos hsuspend]
    · rw [if_neg hsuspend, if_neg hsuspend]
      exact soften_suspend p policy s₁ (mt Platform.isYes_eq_true_iff.mpr hsuspend)

/-- The combined operation against its parts, each asked by itself with every permission given. -/
theorem query_combined (p : Platform σ) (hp : p.Steady) (policy : Policy) (s s₁ s₂ s₃ : σ) :
    let permitted := { policy with allow := PerOperation.fill true }
    let suspend := (query p permitted .suspend s₁).value
    let hibernate := (query p permitted .hibernate s₂).value
    let combined := (query p policy .suspendThenHibernate s).value
    let allowed := policy.allow.get .suspendThenHibernate
    let alarm := (p.alarm s₃).1.value
    (allowed = false ∨ alarm = false ∨ suspend ≠ .ok true → combined = .ok false) ∧
    (allowed = true → alarm = true → suspend = .ok true →
      (hibernate = .ok true → combined = .ok true) ∧
      (hibernate = .ok false ∨ hibernate = .error .notEnoughSwap → combined = .ok false) ∧
      (∀ failure, failure ≠ .notEnoughSwap → hibernate = .error failure →
        combined = .error failure)) := by
  intro permitted suspend hibernate combined allowed alarm
  have hsuspend : suspend = (methodWorks p policy .suspend s₁).value := by
    show (query p permitted Method.suspend.operation s₁).value = _
    rw [query_permitted]
  have hhibernate : hibernate = (methodWorks p policy .hibernate s₂).value := by
    show (query p permitted Method.hibernate.operation s₂).value = _
    rw [query_permitted]
  cases hallowed : allowed with
  | false =>
    have hcombined : combined = .ok false :=
      congrArg Outcome.value (query_forbidden p hallowed s)
    exact ⟨fun _ => hcombined, fun h => (by cases h)⟩
  | true =>
    have hcombined : combined =
        if alarm && Platform.isYes suspend then soften hibernate else .ok false := by
      show (query p policy .suspendThenHibernate s).value = _
      rw [query_allowed p hallowed, hsuspend, hhibernate]
      exact value_bothPartsWork hp policy s s₁ s₂ s₃
    constructor
    · intro hno
      have hnot : (alarm && Platform.isYes suspend) = false := by
        rw [Bool.and_eq_false_iff, Bool.eq_false_iff (b := Platform.isYes suspend)]
        rcases hno with h | h | h
        · cases h
        · exact .inl h
        · exact .inr (mt Platform.isYes_eq_true_iff.mp h)
      rw [hcombined, hnot]
      rfl
    · intro _ halarm hyes
      rw [hcombined, halarm, Platform.isYes_eq_true_iff.mpr hyes]
      exact soften_cases

-- The parts are forbidden by themselves, and there is too little swap.
theorem query_combined_short_of_swap :
    let p := Platform.fixed (fun states => pure (.ok (states.contains "mem" || states.contains "disk")))
      (fun _ => pure (.ok true)) (pure (.ok false)) (pure true)
    let policy :=
      { Policy.default with allow := (PerOperation.fill false).set .suspendThenHibernate true }
    p.Steady ∧ (query p policy .hibernate ()).value = .ok false ∧
      (query p { policy with allow := .fill true } .hibernate ()).value = .error .notEnoughSwap ∧
      (query p policy .suspendThenHibernate ()).value = .ok false := by
  intro p policy
  have hp : p.Steady := Platform.steady_fixed _ _ _ _
  refine ⟨hp, rfl, rfl, ?_⟩
  exact ((query_combined p hp policy () () () ()).2 rfl rfl rfl).2.1 (.inr rfl)

end Decision

end SleepPolicy
