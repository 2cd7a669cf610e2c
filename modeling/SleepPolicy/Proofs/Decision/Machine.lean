import SleepPolicy.Decision.Machine
import SleepPolicy.Proofs.Decision.Plan
import SleepPolicy.Proofs.Kernel

/-!
# Operations on a machine

An allowed operation whose states or modes the kernel does not know is a plain no, whatever the swap
check would say, and so is one whose control files may not be written to.  If the kernel knows them,
nothing more is needed to suspend, and the swap check decides where an image is written.

## 1. The steps of a method
-/

namespace SleepPolicy

namespace Decision

variable {σ : Type}

theorem value_probeThen (p : Platform σ) (q : Question) (next : Session σ (Except Failure Bool))
    (s : σ) :
    (probeThen p q next s).value =
      if (p.answer s q).1.value = .ok true then (next (p.answer s q).2).value else .ok false := by
  rw [probeThen, Session.value_bind, value_probe, state_probe]
  by_cases h : (p.answer s q).1.value = .ok true
  · rw [if_pos h, if_pos (Platform.isYes_eq_true_iff.mpr h)]
  · rw [if_neg h, if_neg (mt Platform.isYes_eq_true_iff.mp h)]
    rfl

theorem value_roomForImage (p : Platform σ) (s : σ) :
    (roomForImage p s).value = verdict (.swap, (p.swap s).1.value) := by
  rw [roomForImage_eq]
  rfl

end Decision

namespace Machine

variable (m : Machine) (files : SystemFiles) (policy : Policy)

theorem value_methodWorks (method : Method) :
    (Decision.methodWorks (m.platform files) policy method ()).value =
      if (Kernel.knowsState m.tree m.refusals files.state (policy.states.get method)).value = .ok true then
        if (Kernel.knowsMode m.tree m.refusals files.disk (policy.modes.get method)).value = .ok true then
          (Decision.image (m.platform files) method ()).value
        else .ok false
      else .ok false := by
  rw [Decision.methodWorks_eq, Decision.value_probeThen, Decision.value_probeThen]
  rfl

/-! ## 2. The answer to a query -/

section Query

variable {operation : Operation} {method : Method}

theorem value_query (hmethod : operation.method? = some method)
    (hallow : policy.allow.get operation = true) :
    (m.query files policy operation).value =
      (Decision.methodWorks (m.platform files) policy method ()).value := by
  rw [query, Decision.query_allowed _ hallow, hmethod]

theorem knows_iff (hmethod : operation.method? = some method) :
    Kernel.Knows m.tree files (policy.statesOf operation) (policy.modesOf operation) ∧
        ¬Kernel.Withheld m.tree m.refusals files (policy.modesOf operation) ↔
      (Kernel.knowsState m.tree m.refusals files.state (policy.states.get method)).value = .ok true ∧
        (Kernel.knowsMode m.tree m.refusals files.disk (policy.modes.get method)).value = .ok true := by
  rw [Kernel.knows_iff, Policy.statesOf, Policy.modesOf, hmethod]

theorem value_query_no (hmethod : operation.method? = some method)
    (hallow : policy.allow.get operation = true)
    (h : ¬Kernel.Knows m.tree files (policy.statesOf operation) (policy.modesOf operation) ∨
      Kernel.Withheld m.tree m.refusals files (policy.modesOf operation)) :
    (m.query files policy operation).value = .ok false := by
  have hnot := mt (knows_iff m files policy hmethod).mpr fun hknown =>
    h.elim (fun hunknown => hunknown hknown.1) hknown.2
  rw [not_and] at hnot
  rw [value_query m files policy hmethod hallow, value_methodWorks]
  by_cases hstate :
      (Kernel.knowsState m.tree m.refusals files.state (policy.states.get method)).value = .ok true
  · rw [if_pos hstate, if_neg (hnot hstate)]
  · rw [if_neg hstate]

theorem value_query_known (hmethod : operation.method? = some method)
    (hallow : policy.allow.get operation = true)
    (h : Kernel.Knows m.tree files (policy.statesOf operation) (policy.modesOf operation))
    (hfree : ¬Kernel.Withheld m.tree m.refusals files (policy.modesOf operation)) :
    (m.query files policy operation).value =
      (Decision.image (m.platform files) method ()).value := by
  obtain ⟨hstate, hmode⟩ := (knows_iff m files policy hmethod).mp ⟨h, hfree⟩
  rw [value_query m files policy hmethod hallow, value_methodWorks, if_pos hstate, if_pos hmode]

end Query

/-- An allowed operation other than the combined one, on any machine.  What the kernel does not know is
a plain no and never a failure, and so is everything where a control file may not be written to.  What
the kernel knows is possible if there is no image to be written, and else the swap check decides, with a
shortage as a failure of its own.  Where nothing is refused, nothing is withheld. -/
theorem query_by_kernel_and_room (operation : Operation) (hop : operation ≠ .suspendThenHibernate)
    (hallow : policy.allow.get operation = true) :
    let answer := (m.query files policy operation).value
    let known := Kernel.Knows m.tree files (policy.statesOf operation) (policy.modesOf operation)
    let withheld := Kernel.Withheld m.tree m.refusals files (policy.modesOf operation)
    let room := (SwapCheck.hasRoom m.tree m.bypass files).value
    (m.refusals = [] → ¬withheld) ∧
    (¬known ∨ withheld → answer = .ok false) ∧
    (known → ¬withheld → operation = .suspend → answer = .ok true) ∧
    (known → ¬withheld → operation = .hibernate ∨ operation = .hybridSleep →
      (room = .ok true → answer = .ok true) ∧
      (room = .ok false → answer = .error .notEnoughSwap) ∧
      (∀ failure, room = .error failure → answer = .error failure)) := by
  intro answer known withheld room
  obtain ⟨method, hmethod⟩ : ∃ method, operation.method? = some method := by
    cases operation with
    | suspendThenHibernate => exact absurd rfl hop
    | _ => exact ⟨_, rfl⟩
  refine ⟨fun hnothing => ?_, value_query_no m files policy hmethod hallow,
    fun hknown hfree hsuspend => ?_, fun hknown hfree himage => ?_⟩
  · show ¬Kernel.Withheld m.tree m.refusals files (policy.modesOf operation)
    rw [hnothing]
    exact Kernel.not_withheld_nil
  · subst hsuspend
    exact value_query_known m files policy rfl hallow hknown hfree
  · -- Both operations that write an image end with the same question.
    have hanswer : answer = Decision.verdict (.swap, room) := by
      have hroom := Decision.value_roomForImage (m.platform files) ()
      rcases himage with rfl | rfl
      · have hhibernate : Operation.hibernate.method? = some .hibernate := rfl
        exact (value_query_known m files policy hhibernate hallow hknown hfree).trans hroom
      · have hhybrid : Operation.hybridSleep.method? = some .hybridSleep := rfl
        exact (value_query_known m files policy hhybrid hallow hknown hfree).trans hroom
    rw [hanswer]
    refine ⟨fun h => ?_, fun h => ?_, fun failure h => ?_⟩ <;> rw [h] <;> rfl

-- The mode in force is in brackets, and the only location has less room than memory is in use.
theorem query_by_kernel_and_room_short_of_swap :
    let file := fun text : String => Node.file (Text.encodeUtf8 text.toList)
    let tree : FileTree :=
      ⟨[(["sys"], .directory), (["sys", "power"], .directory), (["proc"], .directory),
        (["sys", "power", "state"], file "freeze mem disk\nstandby\n"),
        (["sys", "power", "disk"], file "[platform] reboot\r\nshutdown\n"),
        (["proc", "swaps"], file "Filename\n/dev/sda2 partition 100 3 -2\n"),
        (["proc", "meminfo"], file "Active(anon): 98 kB\n")], []⟩
    let m : Machine := ⟨tree, [], none, some .invalidArgument⟩
    let policy := Policy.default
    Kernel.Knows tree .standard (policy.statesOf .hibernate) (policy.modesOf .hibernate) ∧
      (SwapCheck.hasRoom tree none .standard).value = .ok false ∧
      (m.query .standard policy .hibernate).value = .error .notEnoughSwap := by
  intro file tree m policy
  have hprobes :
      (Kernel.knowsState tree [] SystemFiles.standard.state (policy.statesOf .hibernate)).value = .ok true ∧
      (Kernel.knowsMode tree [] SystemFiles.standard.disk (policy.modesOf .hibernate)).value = .ok true := by
    decide +kernel
  obtain ⟨hknows, hfree⟩ := Kernel.knows_iff.mpr hprobes
  have hroom : (SwapCheck.hasRoom tree none .standard).value = .ok false := by decide +kernel
  have hquery := query_by_kernel_and_room m .standard policy .hibernate (by decide) (by decide)
  exact ⟨hknows, hroom, (hquery.2.2.2 hknows hfree (.inl rfl)).2.1 hroom⟩

/-! ## 3. The combined operation -/

/-- Without an alarm the combined operation is a plain no, whatever the files hold.  First the clock reports
its error, and then the decision what follows from it. -/
theorem query_without_alarm {e : SystemError} (hclock : m.clockError = some e)
    (hallow : policy.allow.get .suspendThenHibernate = true) :
    m.query files policy .suspendThenHibernate =
      ⟨.ok false, [.clockUnreadable e, .alarmUnsupported]⟩ := by
  have halarm : m.hasAlarm = ⟨false, [.clockUnreadable e]⟩ := by
    rw [hasAlarm, hclock]
    rfl
  have hanswer : ((m.platform files).answer () .alarm).1 = ⟨.ok false, [.clockUnreadable e]⟩ :=
    congrArg (Except.ok <$> ·) halarm
  rw [query, Decision.query_allowed _ hallow]
  dsimp only [Operation.method?]
  rw [Decision.bothPartsWork_no _ policy (by rw [hanswer]; rfl)]
  have hlog : ((m.platform files).answer () .alarm).1.log ++ [.alarmUnsupported] =
      [.clockUnreadable e, .alarmUnsupported] := by
    rw [hanswer]
    rfl
  exact Logged.ext rfl hlog

end Machine

end SleepPolicy
