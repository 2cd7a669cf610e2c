import SleepPolicy.Policy.Basic
import SleepPolicy.Proofs.Settings.LastValue

/-!
# Completion

What the policy makes of the flags and the time spans of the settings, and so what it makes of the
files that they were read from.

## 1. Permissions
-/

namespace SleepPolicy

namespace Permission

theorem orElse_true_iff {p : Permission} : p.orElse true = true ↔ p ≠ deny := by
  cases p <;> decide

theorem orElse_iff_of_ne_unset {p : Permission} (h : p ≠ unset) (default : Bool) :
    p.orElse default = true ↔ p = allow := by
  cases p with
  | unset => exact absurd rfl h
  | allow => simp [orElse]
  | deny => simp [orElse]

end Permission

/-! ## 2. Policies -/

namespace Policy

/-- Suspending and hibernating are allowed unless they are denied, and each combined operation follows
its own flag or else both of these.  A time span is the one that is set, or else infinity and one hour;
an estimation of zero does not count as set. -/
structure Completes (s : Settings) (p : Policy) : Prop where
  single : ∀ operation ∈ [Operation.suspend, .hibernate],
    (p.allow.get operation = true ↔ s.allow.get operation ≠ .deny)
  combinedSet : ∀ operation ∈ [Operation.hybridSleep, .suspendThenHibernate],
    s.allow.get operation ≠ .unset →
      (p.allow.get operation = true ↔ s.allow.get operation = .allow)
  combinedUnset : ∀ operation ∈ [Operation.hybridSleep, .suspendThenHibernate],
    s.allow.get operation = .unset →
      p.allow.get operation = (p.allow.get .suspend && p.allow.get .hibernate)
  delaySet : ∀ t, s.delay = some t → p.delay = t
  delayUnset : s.delay = none → p.delay = Timespan.infinity
  estimationSet : ∀ t, s.estimation = some t → t ≠ Timespan.zero → p.estimation = t
  estimationUnset : s.estimation = none ∨ s.estimation = some Timespan.zero →
    p.estimation = ⟨60 * 60 * 1000000⟩

-- The two combined operations have one rule.
theorem get_completeAllow_combined (allow : PerOperation Permission) {operation : Operation}
    (h : operation ∈ [Operation.hybridSleep, .suspendThenHibernate]) :
    let completed := Settings.completeAllow allow
    completed.get operation =
      (allow.get operation).orElse (completed.get .suspend && completed.get .hibernate) := by
  simp only [List.mem_cons, List.not_mem_nil, or_false] at h
  obtain rfl | rfl := h <;> rfl

theorem completes_complete (s : Settings) : Completes s s.complete where
  single operation h := by
    simp only [List.mem_cons, List.not_mem_nil, or_false] at h
    obtain rfl | rfl := h <;> exact Permission.orElse_true_iff
  combinedSet operation h hset := by
    rw [Settings.complete, get_completeAllow_combined s.allow h]
    exact Permission.orElse_iff_of_ne_unset hset _
  combinedUnset operation h hunset := by
    rw [Settings.complete, get_completeAllow_combined s.allow h, hunset]
    rfl
  delaySet t h := by
    rw [Settings.complete, h, Option.getD_some]
  delayUnset h := by
    rw [Settings.complete, h, Option.getD_none]
  estimationSet t h hzero := by
    rw [Settings.complete, h, Settings.completeEstimation, if_neg hzero]
  estimationUnset h := by
    rw [Settings.complete]
    obtain h | h := h
    · rw [h]
      rfl
    · rw [h, Settings.completeEstimation, if_pos rfl]
      rfl

/-- Files that are read in order, from the start, leave the last values of their effective lines in the
settings, and the policy is what those amount to. -/
theorem readParts_last_values (parts : List (String × List Char)) :
    let settings := Settings.readParts parts
    settings.Assigned (SettingsEntry.inParts parts) ∧ Completes settings settings.complete :=
  ⟨Settings.readParts_assigned parts, completes_complete _⟩

-- A value that cannot be read leaves the one before it, and each file begins outside the section.
example :
    (Settings.readParts [("main", "[Sleep]\nAllowSuspend=no\nAllowSuspend=maybe".toList),
      ("late", "AllowSuspend=yes".toList)]).complete.allow = ⟨false, true, false, false⟩ := by
  decide

end Policy

end SleepPolicy
