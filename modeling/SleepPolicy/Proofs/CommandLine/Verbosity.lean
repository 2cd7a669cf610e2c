import SleepPolicy.CommandLine.Response
import SleepPolicy.Proofs.CommandLine.Spelling
import SleepPolicy.Proofs.Decision.Plan
import SleepPolicy.Proofs.Text.Utf8

/-!
# Verbosity

The level that is asked for decides which messages are shown, and nothing else.  Where no query reaches
the machine, a response is known apart from its messages, and those at any level are found among those
at the level of traces.

## 1. The threshold in effect
-/

namespace SleepPolicy

open Request (Spells)

namespace Response

/-- The variable is set to the name of a threshold. -/
def Sets (env : Option (List UInt8)) (t : Threshold) : Prop :=
  ∃ text : String, env = some (Text.encodeUtf8 text.toList) ∧ Threshold.Named text t

/-- The threshold that applies with some values of the option and of the variable. -/
inductive Effective : Option String → Option (List UInt8) → Threshold → Prop
  | option {text : String} {env : Option (List UInt8)} {t : Threshold} (h : Threshold.Named text t) :
      Effective (some text) env t
  | environment {env : Option (List UInt8)} {t : Threshold} (h : Sets env t) : Effective none env t
  | default {env : Option (List UInt8)} (h : ∀ t, ¬Sets env t) : Effective none env (.upTo .info)

theorem bind_settingOf_eq_some_iff {env : Option (List UInt8)} {t : Threshold} :
    (settingOf env).bind Threshold.ofName? = some t ↔ Sets env t := by
  constructor
  · intro h
    obtain ⟨text, htext, hname⟩ := Option.bind_eq_some_iff.mp h
    obtain ⟨chars, hchars, rfl⟩ := Option.map_eq_some_iff.mp htext
    obtain ⟨bytes, rfl, hdecode⟩ := Option.bind_eq_some_iff.mp hchars
    refine ⟨String.ofList chars, ?_, Threshold.ofName?_eq_some_iff.mp hname⟩
    rw [String.toList_ofList, Text.decodeUtf8?_eq_some_iff.mp hdecode]
  · rintro ⟨text, rfl, hnamed⟩
    have hdecode := Text.decodeUtf8?_eq_some_iff.mpr (rfl : Text.encodeUtf8 text.toList = _)
    simpa [settingOf, hdecode] using Threshold.ofName?_eq_some_iff.mpr hnamed

theorem bind_settingOf_eq_none {env : Option (List UInt8)} (h : ∀ t, ¬Sets env t) :
    (settingOf env).bind Threshold.ofName? = none :=
  Option.eq_none_iff_forall_ne_some.mpr fun t ht => h t (bind_settingOf_eq_some_iff.mp ht)

theorem effective_iff {level : Option String} (hlevel : ∀ text ∈ level, ∃ t, Threshold.Named text t)
    (root : Option String) (env : Option (List UInt8)) (t : Threshold) :
    Effective level env t ↔ threshold ⟨root, level.bind Threshold.ofName?⟩ (settingOf env) = t := by
  cases level with
  | some text =>
      obtain ⟨t', hnamed⟩ := hlevel text rfl
      have hname := Threshold.ofName?_eq_some_iff.mpr hnamed
      simp only [threshold, Option.bind_some, hname, Option.getD_some]
      constructor
      · rintro ⟨h⟩
        exact Option.some.inj (hname.symm.trans (Threshold.ofName?_eq_some_iff.mpr h))
      · rintro rfl
        exact .option hnamed
  | none =>
      -- what the variable decodes to names a threshold or does not, and then the default is left
      simp only [threshold, Option.bind_none, Option.getD_none]
      constructor
      · intro h
        cases h with
        | environment h => rw [bind_settingOf_eq_some_iff.mpr h, Option.getD_some]
        | default h => rw [bind_settingOf_eq_none h, Option.getD_none]
      · rintro rfl
        cases hset : (settingOf env).bind Threshold.ofName? with
        | some t => exact .environment (bind_settingOf_eq_some_iff.mp hset)
        | none =>
            refine .default fun t ht => ?_
            rw [bind_settingOf_eq_some_iff.mpr ht] at hset
            cases hset

theorem existsUnique_effective {level : Option String}
    (hlevel : ∀ text ∈ level, ∃ t, Threshold.Named text t) (env : Option (List UInt8)) :
    ∃! t, Effective level env t :=
  ⟨_, (effective_iff hlevel none env _).mpr rfl,
    fun t h => ((effective_iff hlevel none env t).mp h).symm⟩

namespace Effective

variable {level : Option String} {env : Option (List UInt8)} {t : Threshold}

theorem with_option (h : Effective level env t) (hlevel : level ≠ none)
    (env' : Option (List UInt8)) : Effective level env' t := by
  cases h with
  | option hnamed => exact .option hnamed
  | environment => exact absurd rfl hlevel
  | default => exact absurd rfl hlevel

theorem unset (h : Effective level env t) (hsets : ∀ t, ¬Sets env t) : Effective level none t := by
  cases h with
  | option hnamed => exact .option hnamed
  | environment hset => exact absurd hset (hsets t)
  | default =>
      refine .default fun t hset => ?_
      obtain ⟨_, hnone, _⟩ := hset
      cases hnone

end Effective

/-! ## 2. Commands -/

variable {m : Machine} {root : String}

theorem perform_showPolicy :
    perform m root .showPolicy =
      ⟨(0, String.ofList (Policy.load m.tree root).value.render), (Policy.load m.tree root).log⟩ :=
  Logged.ext rfl (by simp [perform])

theorem perform_forbidden {operation : Operation}
    (h : (Policy.load m.tree root).value.allow.get operation = false) :
    perform m root (.can operation) =
      ⟨(1, "no\n"),
        (Policy.load m.tree root).log ++ [.disabled operation, .answered operation .no]⟩ := by
  have hquery : m.query .standard (Policy.load m.tree root).value operation =
      ⟨.ok false, [.disabled operation]⟩ := by
    rw [Machine.query, Decision.query_forbidden _ h]
    rfl
  apply Logged.ext
  · simp [perform, hquery, answer, Support.ofResult, Support.text]
  · simp [perform, hquery, answer, Support.ofResult]

/-! ## 3. Runs -/

section Runs

variable {root level level' : Option String} {command : Command} {arguments arguments' : List String}
variable {env : Option (List UInt8)} {t : Threshold}

/-- A command is performed in the same way whatever the threshold, which then admits its messages. -/
theorem ofArguments_effective (m : Machine) (hspells : Spells root level command arguments)
    (hroot : root ≠ some "") (hlevel : ∀ text ∈ level, ∃ t, Threshold.Named text t)
    (h : Effective level env t) :
    let done := perform m (root.getD "/") command
    ofArguments m (settingOf env) arguments =
      ⟨done.value.1, done.value.2, done.log.filter fun e => t.admits e.level⟩ := by
  intro done
  have ht := (effective_iff hlevel root env t).mp h
  rw [ofArguments, Request.ofArguments_spelled hspells hroot hlevel]
  show ofCommand m (settingOf env) ⟨root, level.bind Threshold.ofName?⟩ command = _
  rw [ofCommand, ht]
  rfl

theorem admits_trace (l : Level) : (Threshold.upTo .trace).admits l = true := by
  cases l <;> decide

/-- Two runs that differ in nothing but what they say about verbosity, of a command that asks the
machine for nothing. -/
theorem verbosity_only_filters (m : Machine) (env env' : Option (List UInt8)) (hroot : root ≠ some "")
    (hspells : Spells root level command arguments)
    (hspells' : Spells root level' command arguments')
    (hlevel : ∀ text ∈ level, ∃ t, Threshold.Named text t)
    (hlevel' : ∀ text ∈ level', ∃ t, Threshold.Named text t)
    (hforbidden : ∀ operation, command = .can operation →
      (Policy.load m.tree (root.getD "/")).value.allow.get operation = false) :
    let policy := (Policy.load m.tree (root.getD "/")).value
    let response := ofArguments m (settingOf env) arguments
    let response' := ofArguments m (settingOf env') arguments'
    -- the output and the code depend on the policy alone
    (command = .showPolicy → response.code = 0 ∧ response.output = String.ofList policy.render) ∧
    (∀ operation, command = .can operation → response.code = 1 ∧ response.output = "no\n") ∧
    -- one threshold is in effect, and it picks the messages from those of a run at the level of traces
    (∃! t, Effective level env t) ∧
    (Effective level' env' (.upTo .trace) →
      (∀ l, Effective level env (.upTo l) →
        response.messages = response'.messages.filter fun e => e.level.rank ≤ l.rank) ∧
      (Effective level env .off → response.messages = [])) ∧
    -- with the option the variable has no influence
    (level ≠ none → ofArguments m (settingOf env') arguments = response) ∧
    -- a variable that names no level is the same as none at all, and as info
    ((∀ t, ¬Sets env t) → ofArguments m none arguments = response ∧
      (level = none → Effective level' env' (.upTo .info) → response' = response)) := by
  intro policy response response'
  obtain ⟨t, ht, hunique⟩ := existsUnique_effective hlevel env
  -- Whatever the threshold is, the same events are on the way, so each part is about thresholds only.
  have hresponse := ofArguments_effective m hspells hroot hlevel ht
  have hsame : ∀ {env'}, Effective level env' t →
      ofArguments m (settingOf env') arguments = response := fun h =>
    (ofArguments_effective m hspells hroot hlevel h).trans hresponse.symm
  refine ⟨fun hcommand => ?_, fun operation hcommand => ?_, ⟨t, ht, hunique⟩, fun htrace => ?_,
    fun hoption => hsame (ht.with_option hoption env'), fun hsets => ⟨hsame (ht.unset hsets), ?_⟩⟩
  · subst hcommand
    rw [show response = _ from hresponse, perform_showPolicy]
    exact ⟨rfl, rfl⟩
  · subst hcommand
    rw [show response = _ from hresponse, perform_forbidden (hforbidden operation rfl)]
    exact ⟨rfl, rfl⟩
  · have hall : response'.messages = (perform m (root.getD "/") command).log := by
      rw [show response' = _ from ofArguments_effective m hspells' hroot hlevel' htrace]
      exact List.filter_eq_self.mpr fun e _ => admits_trace e.level
    refine ⟨fun l hl => ?_, fun hoff => ?_⟩
    · rw [hall, show response = _ from hresponse, ← hunique _ hl]
      rfl
    · rw [show response = _ from hresponse, ← hunique _ hoff]
      exact List.filter_eq_nil_iff.mpr fun e _ => Bool.false_ne_true
  · intro hnone hinfo
    subst hnone
    have hdefault : t = .upTo .info := (hunique _ (.default hsets)).symm
    rw [show response = _ from hresponse, hdefault]
    exact ofArguments_effective m hspells' hroot hlevel' hinfo

-- The option hides the refusal; the variable of the other run names the level of traces.
theorem verbosity_only_filters_refusal :
    let place : Place := ["r", "etc", "elogind", "sleep.conf"]
    let tree : FileTree :=
      ⟨[(["r"], .directory), (["r", "etc"], .directory), (["r", "etc", "elogind"], .directory),
        (place, .file (Text.encodeUtf8 "[Sleep]\nAllowSuspend=no\nAllow=1\n".toList))], []⟩
    let m : Machine := ⟨tree, [], none, some .invalidArgument⟩
    let quiet := ofArguments m (settingOf (some [0xFF]))
      ["--log-level=Warn", "--root", "r", "can", "suspend"]
    let traced := ofArguments m (settingOf (some (Text.encodeUtf8 "tRaCe".toList)))
      ["--root=r", "can", "--", "suspend"]
    let fault := Event.lineFault "r/etc/elogind/sleep.conf" 3 (.unknownKey "Allow")
    quiet.code = 1 ∧ quiet.output = "no\n" ∧
      traced.messages = [fault, .disabled .suspend, .answered .suspend .no] ∧
      quiet.messages = traced.messages.filter (fun e => e.level.rank ≤ Level.warn.rank) ∧
      quiet.messages = [fault] := by
  intro place tree m quiet traced fault
  have hspells : Spells (some "r") (some "Warn") (.can .suspend)
      ["--log-level=Warn", "--root", "r", "can", "suspend"] :=
    .levelFirst (.set (.apart (by decide))) (.set .joined) (.can rfl)
  have hspells' : Spells (some "r") none (.can .suspend) ["--root=r", "can", "--", "suspend"] :=
    .rootFirst (.set .joined) .unset (.can rfl)
  have hwarn : Threshold.Named "Warn" (.upTo .warn) := by decide
  have htrace : Sets (some (Text.encodeUtf8 "tRaCe".toList)) (.upTo .trace) :=
    ⟨"tRaCe", rfl, by decide⟩
  have hforbidden : (Policy.load tree "r").value.allow.get .suspend = false := by decide +kernel
  obtain ⟨-, hcan, -, hfilter, -⟩ := verbosity_only_filters m (some [0xFF])
    (some (Text.encodeUtf8 "tRaCe".toList)) (by decide) hspells hspells'
    (fun text htext => ⟨.upTo .warn, by cases htext; exact hwarn⟩)
    (fun text htext => by cases htext) (fun operation h => by cases h; exact hforbidden)
  have hquiet := (hfilter (.environment htrace)).1 .warn (.option hwarn)
  obtain ⟨hcode, houtput⟩ := hcan .suspend rfl
  have htraced : traced.messages = [fault, .disabled .suspend, .answered .suspend .no] := by
    decide +kernel
  refine ⟨hcode, houtput, htraced, hquiet, ?_⟩
  rw [hquiet, htraced]
  decide

end Runs

end Response

end SleepPolicy
