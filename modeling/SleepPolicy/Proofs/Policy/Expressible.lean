import SleepPolicy.Policy.Read
import SleepPolicy.Proofs.Settings.Words

/-!
# Expressible policies

What a policy must be like so that a settings file can say it: its lists hold words, no list but the
suspend modes is empty, and the estimation is not zero, because an empty list and an estimation of
zero both stand for the default.  Completed settings are always like this, so every policy is that was
read from a text or loaded from files.
-/

namespace SleepPolicy

structure Policy.Expressible (p : Policy) : Prop where
  modes_words : ∀ method, AllWords (p.modes.get method)
  states_words : ∀ method, AllWords (p.states.get method)
  modes_ne_nil : ∀ method, method ≠ .suspend → p.modes.get method ≠ []
  states_ne_nil : ∀ method, p.states.get method ≠ []
  estimation_ne_zero : p.estimation ≠ Timespan.zero

namespace Settings

theorem allWords_completeList {assigned default : List String} (h : AllWords assigned)
    (hdefault : AllWords default) : AllWords (completeList assigned default) := by
  unfold completeList
  split
  · exact hdefault
  · exact h

theorem completeList_ne_nil (assigned : List String) {default : List String} (h : default ≠ []) :
    completeList assigned default ≠ [] := by
  unfold completeList
  split
  · exact h
  · rename_i hassigned
    simpa using hassigned

theorem allWords_defaultModes (method : Method) : AllWords (Policy.defaultModes.get method) := by
  cases method <;> decide

theorem allWords_defaultStates (method : Method) : AllWords (Policy.defaultStates.get method) := by
  cases method <;> decide

theorem completeEstimation_ne_zero (span : Option Timespan) :
    completeEstimation span ≠ Timespan.zero := by
  unfold completeEstimation
  split
  · decide
  · split
    · decide
    · assumption

theorem HasWords.expressible_complete {s : Settings} (hs : s.HasWords) :
    s.complete.Expressible where
  modes_words method := by
    rw [complete, PerMethod.get_zipWith]
    exact allWords_completeList (hs.modes method) (allWords_defaultModes method)
  states_words method := by
    rw [complete, PerMethod.get_zipWith]
    exact allWords_completeList (hs.states method) (allWords_defaultStates method)
  modes_ne_nil method h := by
    rw [complete, PerMethod.get_zipWith]
    apply completeList_ne_nil
    cases method with
    | suspend => exact absurd rfl h
    | hibernate => decide
    | hybridSleep => decide
  states_ne_nil method := by
    rw [complete, PerMethod.get_zipWith]
    apply completeList_ne_nil
    cases method <;> decide
  estimation_ne_zero := completeEstimation_ne_zero s.estimation

end Settings

namespace Policy

theorem expressible_read (source : String) (content : List Char) :
    (Policy.read source content).value.Expressible :=
  (Settings.hasWords_empty.read source content).expressible_complete

theorem expressible_load (t : FileTree) (root : String) :
    (Policy.load t root).value.Expressible :=
  (Settings.hasWords_load t root).expressible_complete

end Policy

end SleepPolicy
