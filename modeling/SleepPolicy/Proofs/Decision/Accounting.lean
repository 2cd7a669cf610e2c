import SleepPolicy.Proofs.Decision.Reports

/-!
# Failures that a decision meets

No failure of a probe is lost.  A query meets one failure at most, and that one ends it: a failure of the
kernel's probes becomes a plain no with a report of its own, and a failure of the swap probe becomes the
failure of the query.  In the combined operation a shortage is a plain no that is reported as such, and any
other failure of the swap probe is both reported and passed on.

## 1. How a query ends
-/

namespace SleepPolicy

namespace Decision

variable {σ : Type}

/-- How an allowed query ends: after some yeses with an exchange that decides, and with reports that go by
that exchange. -/
structure Ends (operation : Operation) (o : Outcome σ (Except Failure Bool))
    (before : List (Question × Except Failure Bool)) (last : Question × Except Failure Bool)
    (closing : List Event) : Prop where
  exchanges_eq : o.exchanges = before ++ [last]
  yes : ∀ e ∈ before, Platform.isYes e.2 = true
  value_eq : o.value = judge operation last
  reports_eq : o.reports = remarks last ++ closing
  closes : Closing operation last closing

section Query

variable (p : Platform σ) {policy : Policy} {operation : Operation} (s : σ)
variable (h : policy.allow.get operation = true)

include h

theorem query_closing {last : Question × Except Failure Bool}
    (hlast : (query p policy operation s).exchanges.getLast? = some last) :
    ∃ closing,
      (query p policy operation s).reports =
        (query p policy operation s).exchanges.flatMap remarks ++ closing ∧
      Closing operation last closing := by
  rw [query_allowed p h] at hlast ⊢
  cases operation with
  | suspend => exact methodWorks_closing p policy .suspend
  | hibernate => exact methodWorks_closing p policy .hibernate
  | hybridSleep => exact methodWorks_closing p policy .hybridSleep
  | suspendThenHibernate => exact bothPartsWork_closing p policy hlast

theorem exists_ends :
    ∃ before last closing, Ends operation (query p policy operation s) before last closing := by
  obtain ⟨before, last, hsplit, hyes⟩ := p.exists_consult_eq (plan_ne_nil policy operation) s
  have hexchanges : (query p policy operation s).exchanges = before ++ [last] := by
    rw [exchanges_query h, hsplit]
  have hlast : (query p policy operation s).exchanges.getLast? = some last := by
    rw [hexchanges, List.getLast?_concat]
  obtain ⟨closing, hclosing, hcloses⟩ := query_closing p s h hlast
  have hbefore : before.flatMap remarks = [] :=
    List.flatMap_eq_nil_iff.mpr fun e he => remarks_yes (hyes e he)
  refine ⟨before, last, closing, hexchanges, hyes, query_decided h hlast, ?_, hcloses⟩
  rw [hclosing, hexchanges, List.flatMap_append, hbefore, List.flatMap_singleton, List.nil_append]

end Query

namespace Ends

variable {operation : Operation} {o : Outcome σ (Except Failure Bool)}
variable {before : List (Question × Except Failure Bool)} {last : Question × Except Failure Bool}
variable {closing : List Event} (h : Ends operation o before last closing)

include h

theorem eq_last {e : Question × Except Failure Bool} (he : e ∈ o.exchanges)
    (hno : Platform.isYes e.2 = false) : e = last := by
  rw [h.exchanges_eq, List.mem_append, List.mem_singleton] at he
  rcases he with he | he
  · rw [h.yes e he] at hno
    cases hno
  · exact he

theorem mem_last : last ∈ o.exchanges := by
  rw [h.exchanges_eq]
  exact List.mem_append_right before (List.mem_singleton_self last)

theorem length_failures_le : (o.exchanges.filter fun e => !e.2.isOk).length ≤ 1 := by
  have hbefore : (before.filter fun e => !e.2.isOk) = [] := by
    rw [List.filter_eq_nil_iff]
    intro e he
    rw [Platform.isYes_eq_true_iff.mp (h.yes e he)]
    decide
  rw [h.exchanges_eq, List.filter_append, hbefore, List.nil_append]
  exact List.length_filter_le _ [last]

theorem filter_reports_of_kernel {question : Question} {failure : Failure} (hquestion : question ≠ .swap)
    (hmem : (question, .error failure) ∈ o.exchanges) :
    (o.reports.map Event.text).filter (begins "Sleep capability probe failed: ") =
      ["Sleep capability probe failed: " ++ failure.message] := by
  rw [h.reports_eq, ← h.eq_last hmem rfl, remarks_error hquestion, List.singleton_append, List.map_cons,
    text_probeFailed, List.filter_cons_of_pos (begins_append _ _), filter_quiet h.closes.quiet]

theorem filter_reports_eq_nil
    (hnone : ∀ question failure, question ≠ .swap → (question, .error failure) ∉ o.exchanges) :
    (o.reports.map Event.text).filter (begins "Sleep capability probe failed: ") = [] := by
  have hremarks : remarks last = [] := by
    apply remarks_eq_nil
    intro failure hquestion hanswer
    exact hnone last.1 failure hquestion (hanswer ▸ h.mem_last)
  rw [h.reports_eq, hremarks, List.nil_append, filter_quiet h.closes.quiet]

theorem reports_of_swap {failure : Failure} (hmem : (.swap, .error failure) ∈ o.exchanges) :
    o.reports =
      if operation = .suspendThenHibernate then partRemarks .hibernate (.error failure) else [] := by
  obtain rfl := h.eq_last hmem rfl
  rw [h.reports_eq, h.closes.swap rfl]
  rfl

theorem value_of_swap {failure : Failure} (hmem : (.swap, .error failure) ∈ o.exchanges) :
    o.value = judge operation (.swap, .error failure) := by
  rw [h.value_eq, h.eq_last hmem rfl]

end Ends

/-! ## 2. What becomes of a failure -/

/-- What becomes of the failures that a query meets.  There is one at most.  A failure of the kernel's
probes makes the answer a no, and it is what the only report of its kind tells of; there is no such report
without such a failure.  A failure of the swap probe is the answer, except that a shortage is a plain no for
the combined operation, which then reports nothing but that; any other it both reports and answers. -/
structure Accounted (operation : Operation) (o : Outcome σ (Except Failure Bool)) : Prop where
  once : (o.exchanges.filter fun e => !e.2.isOk).length ≤ 1
  alarm : ∀ failure, (.alarm, .error failure) ∉ o.exchanges
  kernel : ∀ question failure, question ≠ .swap → (question, .error failure) ∈ o.exchanges →
    o.value = .ok false ∧
      (o.reports.map Event.text).filter (begins "Sleep capability probe failed: ") =
        ["Sleep capability probe failed: " ++ failure.message]
  silent : (∀ question failure, question ≠ .swap → (question, .error failure) ∉ o.exchanges) →
    (o.reports.map Event.text).filter (begins "Sleep capability probe failed: ") = []
  swap : ∀ failure, (.swap, .error failure) ∈ o.exchanges →
    operation ≠ .suspendThenHibernate ∨ failure ≠ .notEnoughSwap → o.value = .error failure
  shortage : operation = .suspendThenHibernate → (.swap, .error .notEnoughSwap) ∈ o.exchanges →
    o.value = .ok false ∧ o.reports.map Event.text = ["Unable to hibernate system."]
  undecided : ∀ failure, operation = .suspendThenHibernate → failure ≠ .notEnoughSwap →
    (.swap, .error failure) ∈ o.exchanges →
      o.reports.map Event.text = ["Failed to check if hibernate is possible: " ++ failure.message]

theorem judge_swap_error {operation : Operation} {failure : Failure}
    (h : operation ≠ .suspendThenHibernate ∨ failure ≠ .notEnoughSwap) :
    judge operation (.swap, .error failure) = .error failure := by
  cases operation with
  | suspendThenHibernate => exact soften_eq_error_iff.mpr ⟨rfl, h.resolve_left (not_not_intro rfl)⟩
  | _ => rfl

theorem accounted_forbidden (operation : Operation) (s : σ) :
    Accounted operation (⟨.ok false, s, [.report (.disabled operation)]⟩ :
      Outcome σ (Except Failure Bool)) := by
  constructor
  case once => exact Nat.zero_le 1
  case silent => exact fun _ => filter_quiet (List.forall_mem_singleton.mpr (quiet_disabled operation))
  case alarm => exact fun _ => List.not_mem_nil
  case kernel => exact fun _ _ _ hmem => absurd hmem List.not_mem_nil
  case swap => exact fun _ hmem => absurd hmem List.not_mem_nil
  case shortage => exact fun _ hmem => absurd hmem List.not_mem_nil
  case undecided => exact fun _ _ _ hmem => absurd hmem List.not_mem_nil

theorem query_accounts_for_failures (p : Platform σ) (policy : Policy) (operation : Operation) (s : σ) :
    Accounted operation (query p policy operation s) := by
  cases hallow : policy.allow.get operation with
  | false =>
    rw [query_forbidden p hallow]
    exact accounted_forbidden operation s
  | true =>
    obtain ⟨before, last, closing, h⟩ := exists_ends p s hallow
    constructor
    case once => exact h.length_failures_le
    case alarm =>
      intro failure hmem
      rw [exchanges_query hallow] at hmem
      obtain ⟨t, ht⟩ := p.exists_answer_of_mem hmem
      cases ht
    case kernel =>
      exact fun question failure hquestion hmem =>
        ⟨value_of_kernel_failure hquestion hmem, h.filter_reports_of_kernel hquestion hmem⟩
    case silent => exact h.filter_reports_eq_nil
    case swap =>
      intro failure hmem hnot
      rw [h.value_of_swap hmem, judge_swap_error hnot]
    case shortage =>
      rintro rfl hmem
      rw [h.value_of_swap hmem, h.reports_of_swap hmem, if_pos rfl]
      exact ⟨rfl, congrArg ([·]) text_impossible_hibernate⟩
    case undecided =>
      rintro failure rfl hfailure hmem
      rw [h.reports_of_swap hmem, if_pos rfl, partRemarks_undecided .hibernate hfailure]
      exact congrArg ([·]) (text_undecided_hibernate failure)

-- The disk mode of the second part cannot be read: one report of it, and one of the part.
example :
    let p := Platform.fixed (fun _ => pure (.ok true))
      (fun modes => pure (if modes = [] then .ok true else .error (.unreadable "disk" .notUtf8)))
      (pure (.ok true)) (pure true)
    ((query p .default .suspendThenHibernate ()).reports.map Event.text) =
      ["Sleep capability probe failed: failed to read disk: stream did not contain valid UTF-8",
        "Unable to hibernate system."] := rfl

end Decision

end SleepPolicy
