import SleepPolicy.Decision.Session

/-!
# Consultations

A consultation puts the questions of a plan to a platform, one after the other, and ends with the
first answer that is not a yes.  The platform may change with every question.

## 1. Exchanges
-/

namespace SleepPolicy

def Entry.exchange? : Entry → Option (Question × Except Failure Bool)
  | exchange question answer _ => some (question, answer)
  | report _ => none

namespace Outcome

variable {σ α : Type}

/-- The questions with their answers. -/
def exchanges (o : Outcome σ α) : List (Question × Except Failure Bool) :=
  o.transcript.filterMap Entry.exchange?

theorem questions_eq_map_exchanges (o : Outcome σ α) : o.questions = o.exchanges.map Prod.fst := by
  have hfirst : Entry.question? = fun entry => entry.exchange?.map Prod.fst := by
    funext entry
    cases entry <;> rfl
  rw [questions, exchanges, List.map_filterMap, hfirst]

end Outcome

namespace Session

variable {σ α β : Type}

@[simp] theorem value_pure (a : α) (s : σ) : ((pure a : Session σ α) s).value = a := rfl

@[simp] theorem state_pure (a : α) (s : σ) : ((pure a : Session σ α) s).state = s := rfl

@[simp] theorem exchanges_pure (a : α) (s : σ) : ((pure a : Session σ α) s).exchanges = [] := rfl

@[simp] theorem value_bind (x : Session σ α) (f : α → Session σ β) (s : σ) :
    ((x >>= f) s).value = (f (x s).value (x s).state).value := rfl

@[simp] theorem state_bind (x : Session σ α) (f : α → Session σ β) (s : σ) :
    ((x >>= f) s).state = (f (x s).value (x s).state).state := rfl

@[simp] theorem exchanges_bind (x : Session σ α) (f : α → Session σ β) (s : σ) :
    ((x >>= f) s).exchanges = (x s).exchanges ++ (f (x s).value (x s).state).exchanges := by
  rw [bind_apply]
  exact List.filterMap_append

@[simp] theorem state_report (e : Event) (s : σ) : (report e s).state = s := rfl

@[simp] theorem exchanges_report (e : Event) (s : σ) : (report e s).exchanges = [] := rfl

@[simp] theorem value_ask (p : Platform σ) (q : Question) (s : σ) :
    (ask p q s).value = (p.answer s q).1.value := rfl

@[simp] theorem state_ask (p : Platform σ) (q : Question) (s : σ) :
    (ask p q s).state = (p.answer s q).2 := rfl

@[simp] theorem exchanges_ask (p : Platform σ) (q : Question) (s : σ) :
    (ask p q s).exchanges = [(q, (p.answer s q).1.value)] := rfl

end Session

/-! ## 2. Plans -/

namespace Platform

variable {σ : Type}

/-- The answers to some questions in a row, whatever they are. -/
def replay (p : Platform σ) : List Question → σ → List (Except Failure Bool) × σ
  | [], s => ([], s)
  | q :: rest, s =>
      let next := p.replay rest (p.answer s q).2
      ((p.answer s q).1.value :: next.1, next.2)

def isYes : Except Failure Bool → Bool
  | .ok true => true
  | _ => false

theorem isYes_eq_true_iff {answer : Except Failure Bool} : isYes answer = true ↔ answer = .ok true := by
  rcases answer with failure | (_ | _) <;> simp [isYes]

/-- Puts the questions in a row until one is not answered with a yes. -/
def consult (p : Platform σ) : List Question → σ → List (Question × Except Failure Bool) × σ
  | [], s => ([], s)
  | q :: rest, s =>
      let answer := (p.answer s q).1.value
      let next := p.consult rest (p.answer s q).2
      if isYes answer then ((q, answer) :: next.1, next.2) else ([(q, answer)], (p.answer s q).2)

theorem consult_cons_yes (p : Platform σ) {q : Question} {s : σ} (rest : List Question)
    (h : isYes (p.answer s q).1.value = true) :
    p.consult (q :: rest) s =
      ((q, (p.answer s q).1.value) :: (p.consult rest (p.answer s q).2).1,
       (p.consult rest (p.answer s q).2).2) := by
  rw [consult]
  exact if_pos h

theorem consult_cons_no (p : Platform σ) {q : Question} {s : σ} (rest : List Question)
    (h : isYes (p.answer s q).1.value = false) :
    p.consult (q :: rest) s = ([(q, (p.answer s q).1.value)], (p.answer s q).2) := by
  rw [consult]
  exact if_neg (by simp [h])

theorem consult_singleton (p : Platform σ) (q : Question) (s : σ) :
    p.consult [q] s = ([(q, (p.answer s q).1.value)], (p.answer s q).2) := by
  cases h : isYes (p.answer s q).1.value with
  | true => rw [consult_cons_yes p [] h]; rfl
  | false => rw [consult_cons_no p [] h]

theorem consult_ne_nil (p : Platform σ) {plan : List Question} (h : plan ≠ []) (s : σ) :
    (p.consult plan s).1 ≠ [] := by
  obtain ⟨q, rest, rfl⟩ := List.exists_cons_of_ne_nil h
  cases hyes : isYes (p.answer s q).1.value with
  | true => simp [consult_cons_yes p rest hyes]
  | false => simp [consult_cons_no p rest hyes]

theorem exists_last_consult (p : Platform σ) {plan : List Question} (h : plan ≠ []) (s : σ) :
    ∃ e, (p.consult plan s).1.getLast? = some e :=
  ⟨_, List.getLast?_eq_some_getLast (consult_ne_nil p h s)⟩

-- Every exchange but the last one is a yes.
theorem exists_consult_eq (p : Platform σ) {plan : List Question} (h : plan ≠ []) (s : σ) :
    ∃ before last, (p.consult plan s).1 = before ++ [last] ∧ ∀ e ∈ before, isYes e.2 = true := by
  induction plan generalizing s with
  | nil => exact absurd rfl h
  | cons q rest ih =>
    cases hyes : isYes (p.answer s q).1.value with
    | false => exact ⟨[], _, by rw [p.consult_cons_no rest hyes]; rfl, by simp⟩
    | true =>
      by_cases hrest : rest = []
      · exact ⟨[], _, by rw [hrest, p.consult_singleton]; rfl, by simp⟩
      · obtain ⟨before, last, hsplit, hbefore⟩ := ih hrest (p.answer s q).2
        refine ⟨(q, (p.answer s q).1.value) :: before, last, ?_, ?_⟩
        · rw [p.consult_cons_yes rest hyes, hsplit, List.cons_append]
        · exact List.forall_mem_cons.mpr ⟨hyes, hbefore⟩

theorem exists_answer_of_mem (p : Platform σ) {plan : List Question} {s : σ}
    {e : Question × Except Failure Bool} (he : e ∈ (p.consult plan s).1) :
    ∃ t, e.2 = (p.answer t e.1).1.value := by
  induction plan generalizing s with
  | nil => cases he
  | cons q rest ih =>
    cases hyes : isYes (p.answer s q).1.value with
    | false =>
      rw [p.consult_cons_no rest hyes, List.mem_singleton] at he
      exact ⟨s, by rw [he]⟩
    | true =>
      rw [p.consult_cons_yes rest hyes, List.mem_cons] at he
      rcases he with rfl | he
      · exact ⟨s, rfl⟩
      · exact ih he

theorem exists_alarm_answer (p : Platform σ) (s : σ) :
    ∃ alarm, (p.answer s .alarm).1.value = .ok alarm :=
  ⟨(p.alarm s).1.value, rfl⟩

theorem consult_prefix (p : Platform σ) (plan : List Question) (s : σ) :
    (p.consult plan s).1.map Prod.fst <+: plan := by
  induction plan generalizing s with
  | nil => exact List.nil_prefix
  | cons q rest ih =>
    cases hyes : isYes (p.answer s q).1.value with
    | true =>
      rw [consult_cons_yes p rest hyes, List.map_cons, List.prefix_cons_inj]
      exact ih (p.answer s q).2
    | false =>
      rw [consult_cons_no p rest hyes, List.map_singleton, List.prefix_cons_inj]
      exact List.nil_prefix

/-- What a consultation records are the answers that the platform gives. -/
theorem replay_consult (p : Platform σ) (plan : List Question) (s : σ) :
    p.replay ((p.consult plan s).1.map Prod.fst) s =
      ((p.consult plan s).1.map Prod.snd, (p.consult plan s).2) := by
  induction plan generalizing s with
  | nil => rfl
  | cons q rest ih =>
    cases hyes : isYes (p.answer s q).1.value with
    | true =>
      rw [consult_cons_yes p rest hyes]
      simp only [List.map_cons, replay, ih]
    | false =>
      rw [consult_cons_no p rest hyes]
      simp only [List.map_cons, List.map_nil, replay]

/-- The next question is put exactly after a yes. -/
theorem consult_next_iff (p : Platform σ) (plan : List Question) (s : σ) (i : Nat)
    (hi : i < (p.consult plan s).1.length) (hplan : i + 1 < plan.length) :
    i + 1 < (p.consult plan s).1.length ↔ (p.consult plan s).1[i].2 = .ok true := by
  induction plan generalizing s i with
  | nil => simp at hplan
  | cons q rest ih =>
    cases hyes : isYes (p.answer s q).1.value with
    | false =>
      simp only [consult_cons_no p rest hyes, List.length_singleton] at hi ⊢
      obtain rfl : i = 0 := by omega
      rw [List.getElem_cons_zero, ← isYes_eq_true_iff, hyes]
      simp
    | true =>
      simp only [consult_cons_yes p rest hyes, List.length_cons] at hi hplan ⊢
      cases i with
      | zero =>
        have hrest : rest ≠ [] := by
          rintro rfl
          simp at hplan
        have hpos := List.length_pos_iff.mpr (consult_ne_nil p hrest (p.answer s q).2)
        rw [List.getElem_cons_zero, ← isYes_eq_true_iff]
        simp only [hyes, iff_true]
        omega
      | succ i =>
        rw [List.getElem_cons_succ, Nat.add_lt_add_iff_right]
        exact ih (p.answer s q).2 i (by omega) (by omega)

theorem getLast?_consult_cons (p : Platform σ) {q : Question} {rest : List Question} {s : σ}
    (hyes : isYes (p.answer s q).1.value = true) (hrest : rest ≠ []) :
    (p.consult (q :: rest) s).1.getLast? = (p.consult rest (p.answer s q).2).1.getLast? := by
  rw [consult_cons_yes p rest hyes]
  exact List.getLast?_cons_of_ne_nil (consult_ne_nil p hrest (p.answer s q).2)

-- A yes at the end leaves no question of the plan out.
theorem consult_complete (p : Platform σ) (plan : List Question) (s : σ) {q : Question}
    (h : (p.consult plan s).1.getLast? = some (q, .ok true)) :
    (p.consult plan s).1.map Prod.fst = plan := by
  induction plan generalizing s with
  | nil => rfl
  | cons r rest ih =>
    cases hyes : isYes (p.answer s r).1.value with
    | false =>
      rw [consult_cons_no p rest hyes, List.getLast?_singleton, Option.some.injEq] at h
      rw [(Prod.mk.inj h).2] at hyes
      exact absurd hyes (by decide)
    | true =>
      by_cases hrest : rest = []
      · rw [hrest, p.consult_singleton, List.map_singleton]
      · rw [getLast?_consult_cons p hyes hrest] at h
        rw [consult_cons_yes p rest hyes, List.map_cons, ih (p.answer s r).2 h]

theorem consult_append_yes (p : Platform σ) {plan : List Question} (rest : List Question) {s : σ}
    {e : Question × Except Failure Bool} (he : (p.consult plan s).1.getLast? = some e)
    (hyes : isYes e.2 = true) :
    p.consult (plan ++ rest) s =
      ((p.consult plan s).1 ++ (p.consult rest (p.consult plan s).2).1,
       (p.consult rest (p.consult plan s).2).2) := by
  induction plan generalizing s with
  | nil => cases he
  | cons q plan ih =>
    cases hq : isYes (p.answer s q).1.value with
    | false =>
      -- The consultation would have ended here, and not with a yes.
      rw [consult_cons_no p plan hq, List.getLast?_singleton, Option.some.injEq] at he
      rw [← he, hq] at hyes
      cases hyes
    | true =>
      rw [List.cons_append, consult_cons_yes p _ hq, consult_cons_yes p plan hq]
      by_cases hplan : plan = []
      · rw [hplan]
        rfl
      · rw [getLast?_consult_cons p hq hplan] at he
        rw [ih he, List.cons_append]

theorem consult_append_no (p : Platform σ) {plan : List Question} (rest : List Question) {s : σ}
    {e : Question × Except Failure Bool} (he : (p.consult plan s).1.getLast? = some e)
    (hno : isYes e.2 = false) :
    p.consult (plan ++ rest) s = p.consult plan s := by
  induction plan generalizing s with
  | nil => cases he
  | cons q plan ih =>
    cases hq : isYes (p.answer s q).1.value with
    | false => rw [List.cons_append, consult_cons_no p _ hq, consult_cons_no p plan hq]
    | true =>
      rw [List.cons_append, consult_cons_yes p _ hq, consult_cons_yes p plan hq]
      by_cases hplan : plan = []
      · rw [hplan, p.consult_singleton, List.getLast?_singleton, Option.some.injEq] at he
        rw [← he, hq] at hno
        cases hno
      · rw [getLast?_consult_cons p hq hplan] at he
        rw [ih he]

end Platform

end SleepPolicy
