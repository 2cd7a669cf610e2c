import SleepPolicy.Decision.Query
import SleepPolicy.Proofs.Decision.Consultation

/-!
# Plans of a decision

Which questions a decision puts, in which order, and when it stops.  Every operation has a plan, the
decision is a consultation of that plan, and the last exchange alone decides the answer.

## 1. Plans
-/

namespace SleepPolicy

namespace Decision

/-- The questions about an operation when every answer is a yes. -/
def plan (policy : Policy) : Operation → List Question
  | .suspend => [.state policy.states.suspend, .mode policy.modes.suspend]
  | .hibernate => [.state policy.states.hibernate, .mode policy.modes.hibernate, .swap]
  | .hybridSleep => [.state policy.states.hybridSleep, .mode policy.modes.hybridSleep, .swap]
  | .suspendThenHibernate =>
      [.alarm, .state policy.states.suspend, .mode policy.modes.suspend,
       .state policy.states.hibernate, .mode policy.modes.hibernate, .swap]

theorem plan_ne_nil (policy : Policy) (operation : Operation) : plan policy operation ≠ [] := by
  cases operation <;> simp [plan]

/-- What the last exchange means for a method. -/
def verdict : Question × Except Failure Bool → Except Failure Bool
  | (_, .ok true) => .ok true
  | (.swap, .ok false) => .error .notEnoughSwap
  | (.swap, .error failure) => .error failure
  | _ => .ok false

/-- A shortage of swap is a plain no for a part of the combined operation. -/
def soften : Except Failure Bool → Except Failure Bool
  | .error .notEnoughSwap => .ok false
  | answer => answer

theorem verdict_eq_ok_true_iff {e : Question × Except Failure Bool} :
    verdict e = .ok true ↔ e.2 = .ok true := by
  rcases e with ⟨q, failure | (_ | _)⟩ <;> cases q <;> simp [verdict]

theorem isYes_verdict (e : Question × Except Failure Bool) :
    Platform.isYes (verdict e) = Platform.isYes e.2 := by
  rw [Bool.eq_iff_iff, Platform.isYes_eq_true_iff, Platform.isYes_eq_true_iff, verdict_eq_ok_true_iff]

theorem soften_eq_ok_true_iff {answer : Except Failure Bool} :
    soften answer = .ok true ↔ answer = .ok true := by
  rcases answer with failure | (_ | _)
  · cases failure <;> simp [soften]
  · simp [soften]
  · simp [soften]

variable {σ : Type}

/-! ## 2. Carrying out a plan -/

/-- A session is the consultation of a plan, and its value goes by the last exchange. -/
structure Carried (p : Platform σ) (plan : List Question)
    (judge : Question × Except Failure Bool → Except Failure Bool) (s : σ)
    (o : Outcome σ (Except Failure Bool)) : Prop where
  exchanges_eq : o.exchanges = (p.consult plan s).1
  state_eq : o.state = (p.consult plan s).2
  value_eq : ∀ e, (p.consult plan s).1.getLast? = some e → o.value = judge e

namespace Carried

variable {p : Platform σ} {judge : Question × Except Failure Bool → Except Failure Bool} {s : σ}
variable {o o' : Outcome σ (Except Failure Bool)} {q : Question} {rest : List Question}

theorem singleton (hexchanges : o.exchanges = [(q, (p.answer s q).1.value)])
    (hstate : o.state = (p.answer s q).2) (hvalue : o.value = judge (q, (p.answer s q).1.value)) :
    Carried p [q] judge s o where
  exchanges_eq := by rw [p.consult_singleton, hexchanges]
  state_eq := by rw [p.consult_singleton, hstate]
  value_eq e he := by
    rw [p.consult_singleton, List.getLast?_singleton, Option.some.injEq] at he
    rw [← he, hvalue]

theorem cons_no (hno : Platform.isYes (p.answer s q).1.value = false)
    (hexchanges : o.exchanges = [(q, (p.answer s q).1.value)])
    (hstate : o.state = (p.answer s q).2) (hvalue : o.value = judge (q, (p.answer s q).1.value)) :
    Carried p (q :: rest) judge s o where
  exchanges_eq := by rw [p.consult_cons_no rest hno, hexchanges]
  state_eq := by rw [p.consult_cons_no rest hno, hstate]
  value_eq e he := by
    rw [p.consult_cons_no rest hno, List.getLast?_singleton, Option.some.injEq] at he
    rw [← he, hvalue]

theorem cons_yes (hyes : Platform.isYes (p.answer s q).1.value = true)
    (h : Carried p rest judge (p.answer s q).2 o')
    (hnil : rest = [] → o'.value = judge (q, (p.answer s q).1.value))
    (hexchanges : o.exchanges = (q, (p.answer s q).1.value) :: o'.exchanges)
    (hstate : o.state = o'.state) (hvalue : o.value = o'.value) :
    Carried p (q :: rest) judge s o where
  exchanges_eq := by rw [p.consult_cons_yes rest hyes, hexchanges, h.exchanges_eq]
  state_eq := by rw [p.consult_cons_yes rest hyes, hstate, h.state_eq]
  value_eq e he := by
    rw [hvalue]
    by_cases hrest : rest = []
    · rw [hrest, p.consult_singleton, List.getLast?_singleton, Option.some.injEq] at he
      rw [hnil hrest, he]
    · rw [p.getLast?_consult_cons hyes hrest] at he
      exact h.value_eq e he

end Carried

/-! ## 3. Methods -/

theorem value_passes (answer : Except Failure Bool) (s : σ) :
    (passes answer s).value = Platform.isYes answer := by
  rcases answer with failure | (_ | _) <;> rfl

theorem state_passes (answer : Except Failure Bool) (s : σ) : (passes answer s).state = s := by
  cases answer <;> rfl

theorem exchanges_passes (answer : Except Failure Bool) (s : σ) :
    (passes answer s).exchanges = [] := by
  cases answer <;> rfl

theorem roomForImage_eq (p : Platform σ) :
    roomForImage p = (do
      let answer ← Session.ask p .swap
      return verdict (.swap, answer)) := by
  unfold roomForImage
  congr 1
  funext answer
  rcases answer with failure | (_ | _) <;> rfl

theorem roomForImage_carried (p : Platform σ) (s : σ) :
    Carried p [.swap] verdict s (roomForImage p s) := by
  rw [roomForImage_eq]
  apply Carried.singleton
  · rw [Session.exchanges_bind, Session.exchanges_ask, Session.exchanges_pure, List.append_nil]
  · rw [Session.state_bind, Session.state_ask, Session.state_pure]
  · rw [Session.value_bind, Session.value_ask, Session.value_pure]

/-- Puts a question to the kernel. -/
def probe (p : Platform σ) (q : Question) : Session σ Bool := do
  let answer ← Session.ask p q
  passes answer

def probeThen (p : Platform σ) (q : Question) (next : Session σ (Except Failure Bool)) :
    Session σ (Except Failure Bool) := do
  let known ← probe p q
  if known then next else return .ok false

theorem value_probe (p : Platform σ) (q : Question) (s : σ) :
    (probe p q s).value = Platform.isYes (p.answer s q).1.value := by
  rw [probe, Session.value_bind, value_passes, Session.value_ask]

theorem state_probe (p : Platform σ) (q : Question) (s : σ) :
    (probe p q s).state = (p.answer s q).2 := by
  rw [probe, Session.state_bind, state_passes, Session.state_ask]

theorem exchanges_probe (p : Platform σ) (q : Question) (s : σ) :
    (probe p q s).exchanges = [(q, (p.answer s q).1.value)] := by
  rw [probe, Session.exchanges_bind, exchanges_passes, Session.exchanges_ask, List.append_nil]

/-- Only the question about swap can end in a failure. -/
theorem verdict_no {q : Question} {answer : Except Failure Bool} (hq : q ≠ .swap)
    (hno : Platform.isYes answer = false) : verdict (q, answer) = .ok false := by
  rcases answer with failure | (_ | _)
  · cases q with
    | swap => exact absurd rfl hq
    | _ => rfl
  · cases q with
    | swap => exact absurd rfl hq
    | _ => rfl
  · cases hno

theorem probeThen_carried (p : Platform σ) {q : Question} (hq : q ≠ .swap) {rest : List Question}
    {next : Session σ (Except Failure Bool)} (h : ∀ s, Carried p rest verdict s (next s))
    (hnil : rest = [] → ∀ s, (next s).value = .ok true) (s : σ) :
    Carried p (q :: rest) verdict s (probeThen p q next s) := by
  cases hyes : Platform.isYes (p.answer s q).1.value with
  | false =>
    apply Carried.cons_no hyes
    · simp [probeThen, value_probe, exchanges_probe, hyes]
    · simp [probeThen, value_probe, state_probe, hyes]
    · simp [probeThen, value_probe, hyes, verdict_no hq hyes]
  | true =>
    have hanswer : verdict (q, (p.answer s q).1.value) = .ok true :=
      verdict_eq_ok_true_iff.mpr (Platform.isYes_eq_true_iff.mp hyes)
    apply Carried.cons_yes hyes (h _)
    · intro hrest
      rw [hnil hrest, hanswer]
    · simp [probeThen, value_probe, exchanges_probe, state_probe, hyes]
    · simp [probeThen, value_probe, state_probe, hyes]
    · simp [probeThen, value_probe, state_probe, hyes]

/-- What is left of a method once the kernel knows its state and its mode. -/
def image (p : Platform σ) : Method → Session σ (Except Failure Bool)
  | .suspend => return .ok true
  | .hibernate | .hybridSleep => roomForImage p

def imagePlan : Method → List Question
  | .suspend => []
  | .hibernate | .hybridSleep => [.swap]

theorem plan_operation (policy : Policy) (method : Method) :
    plan policy method.operation =
      .state (policy.states.get method) :: .mode (policy.modes.get method) :: imagePlan method := by
  cases method <;> rfl

theorem methodWorks_eq (p : Platform σ) (policy : Policy) (method : Method) :
    methodWorks p policy method =
      probeThen p (.state (policy.states.get method))
        (probeThen p (.mode (policy.modes.get method)) (image p method)) := by
  cases method <;> rfl

theorem image_carried (p : Platform σ) (method : Method) (s : σ) :
    Carried p (imagePlan method) verdict s (image p method s) := by
  cases method with
  | suspend => exact ⟨rfl, rfl, fun e he => by cases he⟩
  | hibernate => exact roomForImage_carried p s
  | hybridSleep => exact roomForImage_carried p s

theorem value_image (p : Platform σ) {method : Method} (h : imagePlan method = []) (s : σ) :
    (image p method s).value = .ok true := by
  cases method with
  | suspend => rfl
  | hibernate => cases h
  | hybridSleep => cases h

theorem methodWorks_carried (p : Platform σ) (policy : Policy) (method : Method) (s : σ) :
    Carried p (plan policy method.operation) verdict s (methodWorks p policy method s) := by
  rw [plan_operation, methodWorks_eq]
  apply probeThen_carried p (by simp)
  · exact probeThen_carried p (by simp) (image_carried p method) (fun h s => value_image p h s)
  · simp

/-! ## 4. The combined operation -/

-- A part that does not work ends the session with a report.
theorem partThen_no (operation : Operation) {result : Except Failure Bool}
    (hno : Platform.isYes result = false) (next : Session σ (Except Failure Bool)) (s : σ) :
    ∃ event, partThen operation result next s = ⟨soften result, s, [.report event]⟩ := by
  rcases result with failure | (_ | _)
  · cases failure with
    | notEnoughSwap => exact ⟨.partImpossible operation, rfl⟩
    | _ => exact ⟨.partUndecided operation _, rfl⟩
  · exact ⟨.partImpossible operation, rfl⟩
  · cases hno

theorem value_partThen_no (operation : Operation) {result : Except Failure Bool}
    (hno : Platform.isYes result = false) (next : Session σ (Except Failure Bool)) (s : σ) :
    (partThen operation result next s).value = soften result := by
  obtain ⟨event, hpart⟩ := partThen_no operation hno next s
  rw [hpart]

theorem partThen_yes (operation : Operation) {result : Except Failure Bool}
    (hyes : Platform.isYes result = true) (next : Session σ (Except Failure Bool)) (s : σ) :
    partThen operation result next s = next s := by
  rw [Platform.isYes_eq_true_iff.mp hyes]
  rfl

section PartThen

variable (p : Platform σ) (operation : Operation) {plan rest : List Question}
variable {first next : Session σ (Except Failure Bool)} {s : σ} {e : Question × Except Failure Bool}
variable (hfirst : ∀ s, Carried p plan verdict s (first s))
variable (he : (p.consult plan s).1.getLast? = some e)

include hfirst he

theorem partThen_carried_yes (hyes : Platform.isYes e.2 = true)
    (hnext : ∀ s, Carried p rest (soften ∘ verdict) s (next s))
    (hnil : rest = [] → ∀ s, (next s).value = .ok true) :
    Carried p (plan ++ rest) (soften ∘ verdict) s
      ((first >>= fun result => partThen operation result next) s) := by
  have hvalue : (first s).value = verdict e := (hfirst s).value_eq e he
  have hboth : ∀ t, partThen operation (first s).value next t = next t :=
    partThen_yes operation (by rw [hvalue, isYes_verdict, hyes]) next
  have hsecond := hnext (first s).state
  rw [(hfirst s).state_eq] at hsecond
  have happend := p.consult_append_yes rest he hyes
  constructor
  · rw [Session.exchanges_bind, hboth, (hfirst s).exchanges_eq, (hfirst s).state_eq,
      hsecond.exchanges_eq, happend]
  · rw [Session.state_bind, hboth, (hfirst s).state_eq, hsecond.state_eq, happend]
  · intro e' he'
    rw [Session.value_bind, hboth, (hfirst s).state_eq]
    by_cases hrest : rest = []
    · have hverdict := verdict_eq_ok_true_iff.mpr (Platform.isYes_eq_true_iff.mp hyes)
      rw [hrest, List.append_nil, he, Option.some.injEq] at he'
      rw [hnil hrest, ← he', Function.comp_apply, hverdict]
      rfl
    · have hne := p.consult_ne_nil hrest (p.consult plan s).2
      rw [happend, List.getLast?_append, List.getLast?_eq_some_getLast hne, Option.some_or] at he'
      apply hsecond.value_eq
      rw [← he', List.getLast?_eq_some_getLast hne]

theorem partThen_carried_no (hno : Platform.isYes e.2 = false) :
    Carried p (plan ++ rest) (soften ∘ verdict) s
      ((first >>= fun result => partThen operation result next) s) := by
  have hvalue : (first s).value = verdict e := (hfirst s).value_eq e he
  have hresult : Platform.isYes (first s).value = false := by rw [hvalue, isYes_verdict, hno]
  obtain ⟨event, hpart⟩ := partThen_no operation hresult next (first s).state
  have happend := p.consult_append_no rest he hno
  constructor
  · rw [Session.exchanges_bind, hpart, happend, ← (hfirst s).exchanges_eq]
    exact List.append_nil _
  · rw [Session.state_bind, hpart, happend, ← (hfirst s).state_eq]
  · intro e' he'
    rw [happend, he, Option.some.injEq] at he'
    rw [Session.value_bind, hpart, hvalue, ← he', Function.comp_apply]

end PartThen

-- One part of the combined operation, with the rest of the plan left to `next`.  The last part has
-- nothing left, and then `next` must say yes by itself.
theorem partThen_carried (p : Platform σ) (operation : Operation) {plan rest : List Question}
    (hplan : plan ≠ []) {first next : Session σ (Except Failure Bool)}
    (hfirst : ∀ s, Carried p plan verdict s (first s))
    (hnext : ∀ s, Carried p rest (soften ∘ verdict) s (next s))
    (hnil : rest = [] → ∀ s, (next s).value = .ok true) (s : σ) :
    Carried p (plan ++ rest) (soften ∘ verdict) s
      ((first >>= fun result => partThen operation result next) s) := by
  obtain ⟨e, he⟩ := p.exists_last_consult hplan s
  cases hyes : Platform.isYes e.2 with
  | true => exact partThen_carried_yes p operation hfirst he hyes hnext hnil
  | false => exact partThen_carried_no p operation hfirst he hyes

def parts (p : Platform σ) (policy : Policy) : Session σ (Except Failure Bool) := do
  let suspend ← methodWorks p policy .suspend
  partThen .suspend suspend do
    let hibernate ← methodWorks p policy .hibernate
    partThen .hibernate hibernate (pure (.ok true))

theorem parts_carried (p : Platform σ) (policy : Policy) (s : σ) :
    Carried p (plan policy .suspend ++ plan policy .hibernate) (soften ∘ verdict) s
      (parts p policy s) := by
  have hhibernate : ∀ s, Carried p (plan policy .hibernate) (soften ∘ verdict) s
      ((methodWorks p policy .hibernate >>= fun result =>
        partThen .hibernate result (pure (.ok true))) s) := by
    intro s
    rw [← List.append_nil (plan policy .hibernate)]
    apply partThen_carried p .hibernate (plan_ne_nil policy _) (methodWorks_carried p policy .hibernate)
    · exact fun s => ⟨rfl, rfl, fun e he => by cases he⟩
    · exact fun _ s => rfl
  apply partThen_carried p .suspend (plan_ne_nil policy _) (methodWorks_carried p policy .suspend)
    hhibernate
  intro h
  exact absurd h (plan_ne_nil policy .hibernate)

theorem bothPartsWork_yes (p : Platform σ) (policy : Policy) {s : σ}
    (h : (p.answer s .alarm).1.value = .ok true) :
    bothPartsWork p policy s = (Session.ask p .alarm >>= fun _ => parts p policy) s := by
  unfold bothPartsWork
  rw [Session.bind_apply, Session.bind_apply, Session.value_ask, h]
  rfl

theorem bothPartsWork_no (p : Platform σ) (policy : Policy) {s : σ}
    (h : Platform.isYes (p.answer s .alarm).1.value = false) :
    bothPartsWork p policy s =
      (Session.ask p .alarm >>= fun _ => do
        Session.report .alarmUnsupported
        return .ok false) s := by
  unfold bothPartsWork
  rw [Session.bind_apply, Session.bind_apply, Session.value_ask]
  rcases hanswer : (p.answer s .alarm).1.value with failure | (_ | _)
  · rfl
  · rfl
  · rw [hanswer] at h
    cases h

theorem bothPartsWork_carried (p : Platform σ) (policy : Policy) (s : σ) :
    Carried p (plan policy .suspendThenHibernate) (soften ∘ verdict) s (bothPartsWork p policy s) := by
  show Carried p (.alarm :: (plan policy .suspend ++ plan policy .hibernate)) (soften ∘ verdict) s _
  cases hyes : Platform.isYes (p.answer s .alarm).1.value with
  | false =>
    rw [bothPartsWork_no p policy hyes]
    apply Carried.cons_no hyes
    · simp
    · simp
    · rw [Function.comp_apply, verdict_no (by simp) hyes]
      rfl
  | true =>
    rw [bothPartsWork_yes p policy (Platform.isYes_eq_true_iff.mp hyes)]
    apply Carried.cons_yes hyes (parts_carried p policy _)
    · intro h
      exact absurd (List.append_eq_nil_iff.mp h).1 (plan_ne_nil policy .suspend)
    · rw [Session.exchanges_bind, Session.exchanges_ask, Session.state_ask, List.singleton_append]
    · rw [Session.state_bind, Session.state_ask]
    · rw [Session.value_bind, Session.state_ask]

/-! ## 5. Queries -/

def judge : Operation → Question × Except Failure Bool → Except Failure Bool
  | .suspendThenHibernate => soften ∘ verdict
  | _ => verdict

theorem judge_eq_ok_true_iff (operation : Operation) {e : Question × Except Failure Bool} :
    judge operation e = .ok true ↔ e.2 = .ok true := by
  cases operation with
  | suspendThenHibernate => exact soften_eq_ok_true_iff.trans verdict_eq_ok_true_iff
  | _ => exact verdict_eq_ok_true_iff

theorem query_forbidden (p : Platform σ) {policy : Policy} {operation : Operation}
    (h : policy.allow.get operation = false) (s : σ) :
    query p policy operation s = ⟨.ok false, s, [.report (.disabled operation)]⟩ := by
  rw [query, h]
  rfl

theorem query_allowed (p : Platform σ) {policy : Policy} {operation : Operation}
    (h : policy.allow.get operation = true) :
    query p policy operation =
      match operation.method? with
      | some method => methodWorks p policy method
      | none => bothPartsWork p policy :=
  if_pos h

theorem query_carried (p : Platform σ) {policy : Policy} {operation : Operation}
    (h : policy.allow.get operation = true) (s : σ) :
    Carried p (plan policy operation) (judge operation) s (query p policy operation s) := by
  rw [query_allowed p h]
  cases operation with
  | suspend => exact methodWorks_carried p policy .suspend s
  | hibernate => exact methodWorks_carried p policy .hibernate s
  | hybridSleep => exact methodWorks_carried p policy .hybridSleep s
  | suspendThenHibernate => exact bothPartsWork_carried p policy s

/-- What a query asks, whatever the platform does: nothing if the policy forbids the operation, and
else its plan up to the first answer that is not a yes.  The query says yes only at the end of the plan
and after a yes there. -/
theorem query_follows_plan (p : Platform σ) (policy : Policy) (operation : Operation) (s : σ) :
    let o := query p policy operation s
    let plan := plan policy operation
    (policy.allow.get operation = false → o.exchanges = [] ∧ o.value = .ok false) ∧
    (policy.allow.get operation = true →
      o.exchanges ≠ [] ∧ o.questions <+: plan ∧
      (∀ (i : Nat) (hi : i < o.exchanges.length), i + 1 < plan.length →
        (i + 1 < o.exchanges.length ↔ o.exchanges[i].2 = .ok true)) ∧
      (o.value = .ok true ↔
        o.questions = plan ∧ ∃ question, o.exchanges.getLast? = some (question, .ok true))) ∧
    p.replay o.questions s = (o.exchanges.map Prod.snd, o.state) := by
  intro o plan'
  cases hallow : policy.allow.get operation with
  | false =>
    have ho : o = ⟨.ok false, s, [.report (.disabled operation)]⟩ := query_forbidden p hallow s
    rw [ho]
    exact ⟨fun _ => ⟨rfl, rfl⟩, fun h => (by cases h), rfl⟩
  | true =>
    have hc : Carried p plan' (judge operation) s o := query_carried p hallow s
    have hplan : plan' ≠ [] := plan_ne_nil policy operation
    rw [Outcome.questions_eq_map_exchanges, hc.exchanges_eq, hc.state_eq]
    refine ⟨fun h => (by cases h), fun _ => ⟨p.consult_ne_nil hplan s, p.consult_prefix plan' s, ?_, ?_⟩,
      p.replay_consult plan' s⟩
    · exact fun i hi hnext => p.consult_next_iff plan' s i hi hnext
    · -- The last exchange decides, and a yes there means that none of the plan was left out.
      obtain ⟨⟨question, answer⟩, hlast⟩ := p.exists_last_consult hplan s
      rw [hc.value_eq _ hlast, judge_eq_ok_true_iff, hlast]
      constructor
      · intro hyes
        rw [show answer = .ok true from hyes] at hlast ⊢
        exact ⟨p.consult_complete plan' s hlast, question, rfl⟩
      · rintro ⟨-, question', h⟩
        exact (Prod.mk.inj (Option.some.inj h)).2

end Decision

end SleepPolicy
