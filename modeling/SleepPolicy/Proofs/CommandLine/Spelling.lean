import Mathlib.Data.List.Basic
import SleepPolicy.CommandLine.Request

/-!
# Spelled requests

An option is given its value in the same argument or in the next one, the two options come in either
order, and the command comes last.  However a request is spelled, the same options and the same command
are read from it.

## 1. Names
-/

namespace SleepPolicy

namespace Threshold

/-- The text is the name of the threshold, in any case. -/
def Named (text : String) (t : Threshold) : Prop :=
  text.toList.map Char.toUpper = t.name.toList

instance (text : String) (t : Threshold) : Decidable (Named text t) :=
  inferInstanceAs (Decidable (_ = _))

theorem ofName?_eq_some_iff {text : String} {t : Threshold} :
    ofName? text = some t ↔ Named text t := by
  constructor
  · intro h
    have hname : (t.name.toList == text.toList.map Char.toUpper) = true := by
      simpa using List.find?_some h
    exact (beq_iff_eq.mp hname).symm
  · intro h
    rw [ofName?, show text.toList.map Char.toUpper = t.name.toList from h]
    rcases t with _ | (_ | _ | _ | _ | _) <;> decide

end Threshold

namespace OptionName

theorem ofText?_text (name : OptionName) : ofText? name.text = some name := by
  cases name <;> decide

theorem text_toList (name : OptionName) : ∃ rest, name.text.toList = '-' :: '-' :: rest := by
  cases name <;> exact ⟨_, rfl⟩

theorem ne_equals_of_mem_text {name : OptionName} : ∀ c ∈ name.text.toList, (c != '=') = true :=
  List.all_eq_true.mp (by cases name <;> decide)

end OptionName

namespace Request

/-! ## 2. Arguments that give a value -/

theorem toList_joined (name : OptionName) (value : String) :
    (name.text ++ "=" ++ value).toList = name.text.toList ++ '=' :: value.toList := by
  simp [String.toList_append]

theorem splitOption?_joined (name : OptionName) (value : String) :
    splitOption? (name.text ++ "=" ++ value) = some (name, value) := by
  have hname : (name.text.toList ++ '=' :: value.toList).takeWhile (· != '=') =
      name.text.toList := by
    simp [List.takeWhile_append_of_pos OptionName.ne_equals_of_mem_text]
  have hvalue : (name.text.toList ++ '=' :: value.toList).dropWhile (· != '=') =
      '=' :: value.toList := by
    simp [List.dropWhile_append_of_pos OptionName.ne_equals_of_mem_text]
  rw [splitOption?, toList_joined, hname, hvalue, String.ofList_toList, OptionName.ofText?_text]
  simp

theorem isOption_joined (name : OptionName) (value : String) :
    isOption (name.text ++ "=" ++ value) = true := by
  obtain ⟨rest, htext⟩ := name.text_toList
  have hargument := toList_joined name value
  rw [htext] at hargument
  have hlong : name.text ++ "=" ++ value ≠ "-" := by
    intro h
    rw [h] at hargument
    cases hargument
  simp [isOption, hargument, hlong]

theorem asksVersion_joined (name : OptionName) (value : String) :
    asksVersion (name.text ++ "=" ++ value) = false := by
  obtain ⟨rest, htext⟩ := name.text_toList
  have hargument := toList_joined name value
  -- an equals sign stands in the argument, and none in the long option
  have hlong : name.text ++ "=" ++ value ≠ "--version" := by
    intro h
    have hequals : '=' ∈ "--version".toList := by
      rw [← h, hargument]
      simp
    revert hequals
    decide
  have hshort : "-V".toList.isPrefixOf (name.text ++ "=" ++ value).toList = false := by
    rw [hargument, htext]
    rfl
  rw [asksVersion, hshort, beq_false_of_ne hlong]
  rfl

/-- The arguments that give an option a value.  A value that looks like an option itself has to stand
behind the equals sign. -/
inductive Gives (name : OptionName) (value : String) : List String → Prop
  | joined : Gives name value [name.text ++ "=" ++ value]
  | apart (h : isOption value = false) : Gives name value [name.text, value]

theorem after_gives {o o' : Options} {name : OptionName} {value : String} {arguments : List String}
    (h : Gives name value arguments) (hset : o.set? name value = some o') (rest : List String) :
    after o (arguments ++ rest) = after o' rest := by
  cases h with
  | joined =>
      rw [List.singleton_append, after.eq_def]
      simp only [asksVersion_joined, isOption_joined, splitOption?_joined, hset, if_true,
        Bool.false_eq_true, if_false]
  | apart hvalue =>
      -- no equals sign in the argument, so the value is looked for in the next one
      have hversion : asksVersion name.text = false := by cases name <;> decide
      have hoption : isOption name.text = true := by cases name <;> decide
      have hsplit : splitOption? name.text = none := by cases name <;> decide
      rw [List.cons_append, List.singleton_append, after.eq_def]
      simp only [hversion, hoption, hsplit, OptionName.ofText?_text, hvalue, hset, if_true,
        Bool.false_eq_true, if_false]

/-! ## 3. Requests -/

/-- The arguments for an option that may be left out. -/
inductive GivesIf (name : OptionName) : Option String → List String → Prop
  | unset : GivesIf name none []
  | set {value : String} {arguments : List String} (h : Gives name value arguments) :
      GivesIf name (some value) arguments

/-- The arguments name a command; one double dash may stand among those after its name. -/
inductive Names : Command → List String → Prop
  | showPolicy {rest : List String} (h : rest.erase "--" = []) :
      Names .showPolicy ("show-config" :: rest)
  | can {operation : Operation} {rest : List String} (h : rest.erase "--" = [operation.verb]) :
      Names (.can operation) ("can" :: rest)

/-- The arguments ask for a command with these values of the two options. -/
inductive Spells (root level : Option String) (command : Command) : List String → Prop
  | rootFirst {r l c : List String} (hr : GivesIf .root root r) (hl : GivesIf .level level l)
      (hc : Names command c) : Spells root level command (r ++ (l ++ c))
  | levelFirst {r l c : List String} (hr : GivesIf .root root r) (hl : GivesIf .level level l)
      (hc : Names command c) : Spells root level command (l ++ (r ++ c))

variable {root level : Option String} {command : Command} {o : Options} {arguments : List String}

theorem after_root (h : GivesIf .root root arguments) (hunset : o.root = none)
    (hroot : root ≠ some "") (rest : List String) :
    after o (arguments ++ rest) = after { o with root := root } rest := by
  cases h with
  | unset => rw [List.nil_append, ← hunset]
  | @set value _ hgives =>
      have hvalue : value.isEmpty = false := by simpa using hroot
      exact after_gives hgives (by simp [Options.set?, hunset, hvalue]) rest

theorem after_level (h : GivesIf .level level arguments) (hunset : o.level = none)
    (hlevel : ∀ text ∈ level, ∃ t, Threshold.Named text t) (rest : List String) :
    after o (arguments ++ rest) = after { o with level := level.bind Threshold.ofName? } rest := by
  cases h with
  | unset => rw [List.nil_append, Option.bind_none, ← hunset]
  | @set text _ hgives =>
      obtain ⟨t, hnamed⟩ := hlevel text rfl
      have ht : Threshold.ofName? text = some t := Threshold.ofName?_eq_some_iff.mpr hnamed
      exact after_gives hgives (by simp [Options.set?, hunset, ht]) rest

theorem after_names (h : Names command arguments) : after o arguments = some (run o command) := by
  cases h with
  | @showPolicy rest hrest =>
      have hcommand : command? "show-config" rest = some .showPolicy := by simp [command?, hrest]
      rw [after.eq_def]
      simp [hcommand, show asksVersion "show-config" = false by decide,
        show isOption "show-config" = false by decide]
  | @can operation rest hrest =>
      have hverb : Operation.ofVerb operation.verb = .ok operation := by cases operation <;> decide
      have hcommand : command? "can" rest = some (.can operation) := by
        simp [command?, hrest, hverb, Except.toOption]
      rw [after.eq_def]
      simp [hcommand, show asksVersion "can" = false by decide,
        show isOption "can" = false by decide]

theorem ofArguments_spelled (h : Spells root level command arguments) (hroot : root ≠ some "")
    (hlevel : ∀ text ∈ level, ∃ t, Threshold.Named text t) :
    ofArguments arguments = some (run ⟨root, level.bind Threshold.ofName?⟩ command) := by
  cases h with
  | rootFirst hr hl hc =>
      rw [ofArguments, after_root hr rfl hroot, after_level hl rfl hlevel, after_names hc]
  | levelFirst hr hl hc =>
      rw [ofArguments, after_level hl rfl hlevel, after_root hr rfl hroot, after_names hc]

end Request

end SleepPolicy
