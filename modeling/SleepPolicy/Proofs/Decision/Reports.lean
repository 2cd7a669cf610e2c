import SleepPolicy.Proofs.Decision.Failures

/-!
# What a decision reports

A method reports the failures of the kernel's probes and nothing else, each right after its exchange.  The
combined operation adds one last word if it is not possible: about the alarm, or about the part that does
not work.  No last word can be taken for the failure of a probe.

## 1. Reports of a session
-/

namespace SleepPolicy

namespace Session

variable {σ α β : Type}

@[simp] theorem reports_pure (a : α) (s : σ) : ((pure a : Session σ α) s).reports = [] := rfl

@[simp] theorem reports_bind (x : Session σ α) (f : α → Session σ β) (s : σ) :
    ((x >>= f) s).reports = (x s).reports ++ (f (x s).value (x s).state).reports := by
  rw [bind_apply]
  exact List.filterMap_append

@[simp] theorem reports_report (e : Event) (s : σ) : (report e s).reports = [e] := rfl

@[simp] theorem reports_ask (p : Platform σ) (q : Question) (s : σ) : (ask p q s).reports = [] := rfl

end Session

variable {σ α β : Type}

namespace Decision

/-! ## 2. Methods -/

/-- What is reported of an exchange: that a probe of the kernel has failed. -/
def remarks : Question × Except Failure Bool → List Event
  | (.swap, _) => []
  | (_, .error failure) => [.probeFailed failure]
  | _ => []

theorem remarks_yes {e : Question × Except Failure Bool} (h : Platform.isYes e.2 = true) :
    remarks e = [] := by
  obtain ⟨q, answer⟩ := e
  obtain rfl := Platform.isYes_eq_true_iff.mp h
  cases q <;> rfl

theorem remarks_error {q : Question} (hq : q ≠ .swap) (failure : Failure) :
    remarks (q, .error failure) = [.probeFailed failure] := by
  cases q with
  | swap => exact absurd rfl hq
  | _ => rfl

theorem remarks_eq_nil {e : Question × Except Failure Bool}
    (h : ∀ failure, e.1 ≠ .swap → e.2 ≠ .error failure) : remarks e = [] := by
  obtain ⟨q, failure | answer⟩ := e
  · cases q with
    | swap => rfl
    | _ => exact absurd rfl (h failure (by simp))
  · cases q <;> rfl

/-- The session reports what its exchanges call for and nothing else. -/
def ReportsExchanges (x : Session σ α) : Prop :=
  ∀ s, (x s).reports = (x s).exchanges.flatMap remarks

namespace ReportsExchanges

theorem pure (a : α) : ReportsExchanges (pure a : Session σ α) :=
  fun _ => rfl

theorem bind {x : Session σ α} {f : α → Session σ β} (hx : ReportsExchanges x)
    (hf : ∀ a, ReportsExchanges (f a)) : ReportsExchanges (x >>= f) := by
  intro s
  rw [Session.reports_bind, Session.exchanges_bind, List.flatMap_append, hx s, hf _ _]

theorem probe (p : Platform σ) {q : Question} (hq : q ≠ .swap) : ReportsExchanges (probe p q) := by
  intro s
  rw [exchanges_probe, List.flatMap_singleton, Decision.probe, Session.reports_bind,
    Session.reports_ask, Session.value_ask, List.nil_append]
  rcases (p.answer s q).1.value with failure | answer
  · exact (remarks_error hq failure).symm
  · cases q <;> rfl

theorem probeThen (p : Platform σ) {q : Question} (hq : q ≠ .swap)
    {next : Session σ (Except Failure Bool)} (hnext : ReportsExchanges next) :
    ReportsExchanges (probeThen p q next) := by
  refine (probe p hq).bind fun known => ?_
  cases known with
  | false => exact pure _
  | true => exact hnext

theorem roomForImage (p : Platform σ) : ReportsExchanges (roomForImage p) := by
  rw [roomForImage_eq]
  exact fun _ => rfl

theorem image (p : Platform σ) (method : Method) : ReportsExchanges (image p method) := by
  cases method with
  | suspend => exact pure _
  | hibernate => exact roomForImage p
  | hybridSleep => exact roomForImage p

theorem methodWorks (p : Platform σ) (policy : Policy) (method : Method) :
    ReportsExchanges (methodWorks p policy method) := by
  rw [methodWorks_eq]
  exact probeThen p (by simp) (probeThen p (by simp) (image p method))

end ReportsExchanges

/-! ## 3. Wordings -/

def begins (beginning text : String) : Bool :=
  beginning.toList.isPrefixOf text.toList

theorem begins_append (beginning rest : String) : begins beginning (beginning ++ rest) = true := by
  rw [begins, String.toList_append, List.isPrefixOf_iff_prefix]
  exact List.prefix_append _ _

theorem begins_append_eq_false {beginning start : String} (hbeginning : beginning.toList ≠ [])
    (hstart : start.toList ≠ []) (hne : beginning.toList.head hbeginning ≠ start.toList.head hstart)
    (rest : String) : begins beginning (start ++ rest) = false := by
  obtain ⟨b, bs, hbs⟩ := List.exists_cons_of_ne_nil hbeginning
  obtain ⟨c, cs, hcs⟩ := List.exists_cons_of_ne_nil hstart
  simp only [hbs, hcs, List.head_cons] at hne
  rw [begins, String.toList_append, hbs, hcs, List.cons_append, List.isPrefixOf_cons_cons,
    beq_false_of_ne hne, Bool.false_and]

theorem text_probeFailed (failure : Failure) :
    (Event.probeFailed failure).text = "Sleep capability probe failed: " ++ failure.message := rfl

theorem text_impossible_hibernate :
    (Event.partImpossible .hibernate).text = "Unable to hibernate system." := by
  decide

theorem text_partUndecided (operation : Operation) (failure : Failure) :
    (Event.partUndecided operation failure).text =
      "Failed to check if " ++ (operation.verb ++ (" is possible: " ++ failure.message)) := by
  show "Failed to check if " ++ operation.verb ++ " is possible: " ++ failure.message = _
  rw [String.append_assoc, String.append_assoc]

theorem text_undecided_hibernate (failure : Failure) :
    (Event.partUndecided .hibernate failure).text =
      "Failed to check if hibernate is possible: " ++ failure.message := by
  show "Failed to check if " ++ "hibernate" ++ " is possible: " ++ failure.message = _
  rfl

/-- The event is no report of a probe that has failed. -/
def Quiet (event : Event) : Prop :=
  begins "Sleep capability probe failed: " event.text = false

instance (event : Event) : Decidable (Quiet event) := inferInstanceAs (Decidable (_ = _))

theorem filter_quiet {events : List Event} (h : ∀ event ∈ events, Quiet event) :
    (events.map Event.text).filter (begins "Sleep capability probe failed: ") = [] := by
  rw [List.filter_eq_nil_iff]
  exact List.forall_mem_map.mpr fun event hevent => Bool.eq_false_iff.mp (h event hevent)

theorem quiet_disabled (operation : Operation) : Quiet (.disabled operation) := by
  cases operation <;> decide

theorem quiet_alarmUnsupported : Quiet .alarmUnsupported := by
  decide

theorem quiet_partImpossible (operation : Operation) : Quiet (.partImpossible operation) := by
  cases operation <;> decide

theorem quiet_partUndecided (operation : Operation) (failure : Failure) :
    Quiet (.partUndecided operation failure) := by
  rw [Quiet, text_partUndecided]
  exact begins_append_eq_false (by decide) (by decide) (by decide) _

/-! ## 4. The combined operation -/

/-- The last word on a part of the combined operation. -/
def partRemarks (operation : Operation) : Except Failure Bool → List Event
  | .ok true => []
  | .ok false | .error .notEnoughSwap => [.partImpossible operation]
  | .error failure => [.partUndecided operation failure]

theorem reports_partThen (operation : Operation) (result : Except Failure Bool)
    (next : Session σ (Except Failure Bool)) (s : σ) :
    (partThen operation result next s).reports =
      partRemarks operation result ++
        if Platform.isYes result then (next s).reports else [] := by
  rcases result with failure | (_ | _)
  · cases failure <;> rfl
  · rfl
  · rfl

theorem exchanges_partThen (operation : Operation) (result : Except Failure Bool)
    (next : Session σ (Except Failure Bool)) (s : σ) :
    (partThen operation result next s).exchanges =
      if Platform.isYes result then (next s).exchanges else [] := by
  rcases result with failure | (_ | _)
  · cases failure <;> rfl
  · rfl
  · rfl

theorem partRemarks_undecided (operation : Operation) {failure : Failure}
    (h : failure ≠ .notEnoughSwap) :
    partRemarks operation (.error failure) = [.partUndecided operation failure] := by
  cases failure with
  | notEnoughSwap => exact absurd rfl h
  | _ => rfl

theorem quiet_partRemarks {operation : Operation} {result : Except Failure Bool} {event : Event}
    (h : event ∈ partRemarks operation result) : Quiet event := by
  unfold partRemarks at h
  split at h
  · cases h
  · rw [List.mem_singleton.mp h]
    exact quiet_partImpossible operation
  · rw [List.mem_singleton.mp h]
    exact quiet_partImpossible operation
  · rw [List.mem_singleton.mp h]
    exact quiet_partUndecided operation _

/-- What a query reports after its last exchange: no failure of a probe, and if that exchange was about
swap, a last word on hibernation as a part of the combined operation. -/
structure Closing (operation : Operation) (last : Question × Except Failure Bool)
    (closing : List Event) : Prop where
  quiet : ∀ event ∈ closing, Quiet event
  swap : last.1 = .swap →
    closing = if operation = .suspendThenHibernate then partRemarks .hibernate last.2 else []

section Part

variable {x : Session σ (Except Failure Bool)} (operation : Operation)
variable (next : Session σ (Except Failure Bool)) (s : σ)

theorem reports_part (hx : ReportsExchanges x) :
    ((x >>= fun result => partThen operation result next) s).reports =
      (x s).exchanges.flatMap remarks ++ (partRemarks operation (x s).value ++
        if Platform.isYes (x s).value then (next (x s).state).reports else []) := by
  rw [Session.reports_bind, reports_partThen, hx s]

theorem exchanges_part :
    ((x >>= fun result => partThen operation result next) s).exchanges =
      (x s).exchanges ++ if Platform.isYes (x s).value then (next (x s).state).exchanges else [] := by
  rw [Session.exchanges_bind, exchanges_partThen]

end Part

theorem not_swap_of_mem_suspend {p : Platform σ} {policy : Policy} {s : σ}
    {e : Question × Except Failure Bool} (h : e ∈ (methodWorks p policy .suspend s).exchanges) :
    e.1 ≠ .swap := by
  rw [(methodWorks_carried p policy .suspend s).exchanges_eq] at h
  have hasked : e.1 ∈ plan policy .suspend :=
    (p.consult_prefix (plan policy .suspend) s).subset (List.mem_map_of_mem h)
  exact ne_of_mem_of_not_mem hasked (swap_not_mem_plan_suspend policy)

theorem partRemarks_verdict (operation : Operation) (answer : Except Failure Bool) :
    partRemarks operation (verdict (.swap, answer)) = partRemarks operation answer := by
  rcases answer with failure | (_ | _) <;> rfl

/-- The second part of the combined operation. -/
def hibernation (p : Platform σ) (policy : Policy) : Session σ (Except Failure Bool) := do
  let hibernate ← methodWorks p policy .hibernate
  partThen .hibernate hibernate (pure (.ok true))

section Combined

variable (p : Platform σ) (policy : Policy) {s : σ} {last : Question × Except Failure Bool}

theorem exchanges_hibernation (s : σ) :
    (hibernation p policy s).exchanges = (p.consult (plan policy .hibernate) s).1 := by
  rw [hibernation, exchanges_part, Session.exchanges_pure, ite_self, List.append_nil]
  exact (methodWorks_carried p policy .hibernate s).exchanges_eq

theorem hibernation_closing (hlast : (hibernation p policy s).exchanges.getLast? = some last) :
    ∃ closing,
      (hibernation p policy s).reports = (hibernation p policy s).exchanges.flatMap remarks ++ closing ∧
      Closing .suspendThenHibernate last closing := by
  have hcarried := methodWorks_carried p policy .hibernate s
  have hvalue : (methodWorks p policy .hibernate s).value = verdict last :=
    hcarried.value_eq last (exchanges_hibernation p policy s ▸ hlast)
  refine ⟨partRemarks .hibernate (verdict last), ?_, fun event => quiet_partRemarks, fun hswap => ?_⟩
  · rw [exchanges_hibernation, hibernation,
      reports_part _ _ _ (ReportsExchanges.methodWorks p policy .hibernate), hvalue,
      Session.reports_pure, ite_self, List.append_nil, hcarried.exchanges_eq]
    rfl
  · obtain ⟨q, answer⟩ := last
    obtain rfl : q = .swap := hswap
    exact partRemarks_verdict .hibernate answer

-- Hibernation decides if suspension works, and then the last exchange is about hibernation.
theorem parts_closing (hlast : (parts p policy s).exchanges.getLast? = some last) :
    ∃ closing, (parts p policy s).reports = (parts p policy s).exchanges.flatMap remarks ++ closing ∧
      Closing .suspendThenHibernate last closing := by
  have hreports := reports_part .suspend (hibernation p policy) s
    (ReportsExchanges.methodWorks p policy .suspend)
  have hexchanges := exchanges_part (x := methodWorks p policy .suspend) .suspend (hibernation p policy) s
  change (parts p policy s).reports = _ at hreports
  change (parts p policy s).exchanges = _ at hexchanges
  cases hyes : Platform.isYes (methodWorks p policy .suspend s).value with
  | false =>
    rw [hyes, if_neg (by decide), List.append_nil] at hreports hexchanges
    rw [hreports, hexchanges]
    rw [hexchanges] at hlast
    refine ⟨_, rfl, fun event => quiet_partRemarks, fun hswap => ?_⟩
    exact absurd hswap (not_swap_of_mem_suspend (List.mem_of_getLast? hlast))
  | true =>
    rw [hyes, if_pos rfl] at hreports hexchanges
    rw [Platform.isYes_eq_true_iff.mp hyes] at hreports
    have hne : (hibernation p policy (methodWorks p policy .suspend s).state).exchanges ≠ [] := by
      rw [exchanges_hibernation]
      exact p.consult_ne_nil (plan_ne_nil policy .hibernate) _
    rw [hexchanges, List.getLast?_append, List.getLast?_eq_some_getLast hne, Option.some_or,
      ← List.getLast?_eq_some_getLast hne] at hlast
    obtain ⟨closing, hclosing, hcloses⟩ := hibernation_closing p policy hlast
    refine ⟨closing, ?_, hcloses⟩
    rw [hreports, hexchanges, hclosing, List.flatMap_append, List.append_assoc]
    rfl

-- A method by itself has no last word.
theorem methodWorks_closing (method : Method) :
    ∃ closing,
      (methodWorks p policy method s).reports =
        (methodWorks p policy method s).exchanges.flatMap remarks ++ closing ∧
      Closing method.operation last closing := by
  refine ⟨[], ?_, by simp, fun _ => ?_⟩
  · rw [List.append_nil]
    exact ReportsExchanges.methodWorks p policy method s
  · cases method <;> rfl

theorem parts_exchanges_ne_nil (s : σ) : (parts p policy s).exchanges ≠ [] := by
  rw [(parts_carried p policy s).exchanges_eq]
  apply p.consult_ne_nil
  exact fun h => plan_ne_nil policy .suspend (List.append_eq_nil_iff.mp h).1

theorem bothPartsWork_closing (hlast : (bothPartsWork p policy s).exchanges.getLast? = some last) :
    ∃ closing,
      (bothPartsWork p policy s).reports =
        (bothPartsWork p policy s).exchanges.flatMap remarks ++ closing ∧
      Closing .suspendThenHibernate last closing := by
  obtain ⟨alarm, halarm⟩ := p.exists_alarm_answer s
  cases alarm with
  | false =>
    rw [bothPartsWork_no p policy (by rw [halarm]; rfl)] at hlast ⊢
    have hexchange : last = (.alarm, (p.answer s .alarm).1.value) := (Option.some.inj hlast).symm
    refine ⟨[.alarmUnsupported], ?_, by simpa using quiet_alarmUnsupported, fun hswap => ?_⟩
    · simp [halarm, remarks]
    · rw [hexchange] at hswap
      cases hswap
  | true =>
    rw [bothPartsWork_yes p policy halarm] at hlast ⊢
    rw [Session.exchanges_bind, Session.exchanges_ask, halarm] at hlast ⊢
    rw [List.singleton_append, List.getLast?_cons_of_ne_nil (parts_exchanges_ne_nil p policy _)] at hlast
    obtain ⟨closing, hclosing, hcloses⟩ := parts_closing p policy hlast
    refine ⟨closing, ?_, hcloses⟩
    rw [Session.reports_bind, Session.reports_ask, List.nil_append, hclosing]
    rfl

end Combined

end Decision

end SleepPolicy
