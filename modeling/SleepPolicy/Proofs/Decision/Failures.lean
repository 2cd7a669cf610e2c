import SleepPolicy.Proofs.Decision.Plan
import SleepPolicy.Support

/-!
# Failures of a decision

A query fails over swap and over nothing else.  What the kernel is asked and fails to say counts as a
plain no; the swap probe alone can end a query in a failure, by its own failure or by a shortage, and the
combined operation takes a shortage for a plain no as well, whether the probe reports it or finds it.

## 1. The last exchange
-/

namespace SleepPolicy

variable {σ : Type}

-- Whatever comes after an exchange is there because of a yes.
theorem Platform.getLast?_consult_of_mem (p : Platform σ) {plan : List Question} {s : σ}
    {e : Question × Except Failure Bool} (he : e ∈ (p.consult plan s).1) (hno : isYes e.2 = false) :
    (p.consult plan s).1.getLast? = some e := by
  have hplan : plan ≠ [] := by
    rintro rfl
    cases he
  obtain ⟨before, last, hsplit, hyes⟩ := p.exists_consult_eq hplan s
  rw [hsplit, List.mem_append, List.mem_singleton] at he
  rw [hsplit, List.getLast?_concat]
  rcases he with he | rfl
  · rw [hyes e he] at hno
    cases hno
  · rfl

theorem Support.ofResult_eq_notAvailable_iff {result : Except Failure Bool} :
    ofResult result = .ok .notAvailable ↔ result = .error .notEnoughSwap := by
  rcases result with failure | (_ | _)
  · cases failure <;> simp [ofResult]
  · simp [ofResult]
  · simp [ofResult]

namespace Decision

variable {p : Platform σ} {policy : Policy} {operation : Operation} {s : σ}

theorem verdict_eq_error_iff {e : Question × Except Failure Bool} {failure : Failure} :
    verdict e = .error failure ↔
      e = (.swap, .error failure) ∨ e = (.swap, .ok false) ∧ failure = .notEnoughSwap := by
  rcases e with ⟨q, cause | (_ | _)⟩ <;> cases q <;> simp [verdict, eq_comm]

theorem soften_eq_error_iff {answer : Except Failure Bool} {failure : Failure} :
    soften answer = .error failure ↔ answer = .error failure ∧ failure ≠ .notEnoughSwap := by
  rcases answer with cause | answer
  · cases cause with
    | notEnoughSwap =>
      constructor
      · intro h
        cases h
      · rintro ⟨h, hne⟩
        exact absurd (Except.error.inj h).symm hne
    | _ =>
      refine ⟨fun h => ⟨h, ?_⟩, fun h => h.1⟩
      rw [← Except.error.inj h]
      simp
  · simp [soften]

theorem exchanges_query (h : policy.allow.get operation = true) :
    (query p policy operation s).exchanges = (p.consult (plan policy operation) s).1 :=
  (query_carried p h s).exchanges_eq

theorem query_decided (h : policy.allow.get operation = true) {e : Question × Except Failure Bool}
    (he : (query p policy operation s).exchanges.getLast? = some e) :
    (query p policy operation s).value = judge operation e := by
  rw [exchanges_query h] at he
  exact (query_carried p h s).value_eq e he

/-- A query that fails has been allowed, and its last exchange is what it fails over. -/
theorem exists_last_of_error {failure : Failure}
    (h : (query p policy operation s).value = .error failure) :
    ∃ e, (query p policy operation s).exchanges.getLast? = some e ∧ e.1 ∈ plan policy operation ∧
      judge operation e = .error failure := by
  cases hallow : policy.allow.get operation with
  | false =>
    rw [query_forbidden p hallow] at h
    cases h
  | true =>
    obtain ⟨e, he⟩ := p.exists_last_consult (plan_ne_nil policy operation) s
    have hlast : (query p policy operation s).exchanges.getLast? = some e := by
      rw [exchanges_query hallow, he]
    refine ⟨e, hlast, ?_, ?_⟩
    · apply (p.consult_prefix (plan policy operation) s).subset
      exact List.mem_map.mpr ⟨e, List.mem_of_getLast? he, rfl⟩
    · rw [← query_decided hallow hlast, h]

/-! ## 2. Failures by operation -/

theorem swap_not_mem_plan_suspend (policy : Policy) : .swap ∉ plan policy .suspend := by
  simp [plan]

theorem count_swap_plan_le (policy : Policy) (operation : Operation) :
    (plan policy operation).count .swap ≤ 1 := by
  cases operation <;> simp [plan]

theorem suspend_ne_error (p : Platform σ) (policy : Policy) (s : σ) (failure : Failure) :
    (query p policy .suspend s).value ≠ .error failure := by
  intro h
  obtain ⟨e, -, hplan, he⟩ := exists_last_of_error h
  apply swap_not_mem_plan_suspend policy
  rcases verdict_eq_error_iff.mp he with rfl | ⟨rfl, -⟩ <;> exact hplan

theorem image_error (hoperation : operation = .hibernate ∨ operation = .hybridSleep)
    {failure : Failure} (h : (query p policy operation s).value = .error failure) :
    (query p policy operation s).exchanges.getLast? = some (.swap, .error failure) ∨
      failure = .notEnoughSwap ∧
        (query p policy operation s).exchanges.getLast? = some (.swap, .ok false) := by
  obtain ⟨e, hlast, -, he⟩ := exists_last_of_error h
  have hverdict : verdict e = .error failure := by
    rcases hoperation with rfl | rfl <;> exact he
  rcases verdict_eq_error_iff.mp hverdict with rfl | ⟨rfl, hshort⟩
  · exact .inl hlast
  · exact .inr ⟨hshort, hlast⟩

theorem combined_error {failure : Failure}
    (h : (query p policy .suspendThenHibernate s).value = .error failure) :
    failure ≠ .notEnoughSwap ∧
      (query p policy .suspendThenHibernate s).exchanges.getLast? = some (.swap, .error failure) := by
  obtain ⟨e, hlast, -, he⟩ := exists_last_of_error h
  obtain ⟨hverdict, hne⟩ := soften_eq_error_iff.mp he
  rcases verdict_eq_error_iff.mp hverdict with rfl | ⟨-, hshort⟩
  · exact ⟨hne, hlast⟩
  · exact absurd hshort hne

/-- A probe of the kernel that fails makes the answer a no. -/
theorem value_of_kernel_failure {q : Question} (hq : q ≠ .swap) {failure : Failure}
    (h : (q, .error failure) ∈ (query p policy operation s).exchanges) :
    (query p policy operation s).value = .ok false := by
  cases hallow : policy.allow.get operation with
  | false => rw [query_forbidden p hallow]
  | true =>
    have hlast : (query p policy operation s).exchanges.getLast? = some (q, .error failure) := by
      rw [exchanges_query hallow] at h ⊢
      exact p.getLast?_consult_of_mem h rfl
    have hverdict : verdict (q, .error failure) = .ok false := verdict_no hq rfl
    rw [query_decided hallow hlast]
    cases operation with
    | suspendThenHibernate => exact congrArg soften hverdict
    | _ => exact hverdict

/-- Which failures a query can end in, on any platform.  The failures of the kernel's probes are not
among them, and the swap probe, asked at most once, is the source of every other. -/
theorem query_fails_over_swap (p : Platform σ) (policy : Policy) (s : σ) :
    (∀ failure, (query p policy .suspend s).value ≠ .error failure) ∧
    (∀ operation, operation = .hibernate ∨ operation = .hybridSleep →
      ∀ failure, (query p policy operation s).value = .error failure →
        (query p policy operation s).exchanges.getLast? = some (.swap, .error failure) ∨
          failure = .notEnoughSwap ∧
            (query p policy operation s).exchanges.getLast? = some (.swap, .ok false)) ∧
    (∀ failure, (query p policy .suspendThenHibernate s).value = .error failure →
      failure ≠ .notEnoughSwap ∧
        (query p policy .suspendThenHibernate s).exchanges.getLast? =
          some (.swap, .error failure)) ∧
    (∀ operation, (query p policy operation s).questions.count .swap ≤ 1) ∧
    (∀ operation question failure, question ≠ .swap →
      (question, .error failure) ∈ (query p policy operation s).exchanges →
        (query p policy operation s).value = .ok false) ∧
    (∀ operation, Support.ofResult (query p policy operation s).value = .ok .notAvailable →
      operation = .hibernate ∨ operation = .hybridSleep) := by
  refine ⟨suspend_ne_error p policy s, fun _ hoperation _ h => image_error hoperation h,
    fun _ h => combined_error h, fun operation => ?_, fun _ _ _ hq h => value_of_kernel_failure hq h,
    fun operation h => ?_⟩
  · cases hallow : policy.allow.get operation with
    | false =>
      rw [query_forbidden p hallow]
      exact Nat.zero_le 1
    | true =>
      rw [Outcome.questions_eq_map_exchanges, exchanges_query hallow]
      have hasked := p.consult_prefix (plan policy operation) s
      exact Nat.le_trans (hasked.sublist.count_le _) (count_swap_plan_le policy operation)
  · have hshort := Support.ofResult_eq_notAvailable_iff.mp h
    cases operation with
    | suspend => exact absurd hshort (suspend_ne_error p policy s _)
    | hibernate => exact .inl rfl
    | hybridSleep => exact .inr rfl
    | suspendThenHibernate => exact absurd rfl (combined_error hshort).1

end Decision

end SleepPolicy
