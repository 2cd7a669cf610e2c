import SleepPolicy.Proofs.Text.Words
import SleepPolicy.Settings.Key
import SleepPolicy.Settings.Line

/-!
# Written entries

A key, an equals sign and a value without blanks at its ends are read back as just that entry.
-/

namespace SleepPolicy

namespace SettingsLine

theorem splitEquals?_append {key value : List Char} (h : '=' ∉ key) :
    splitEquals? (key ++ '=' :: value) = some (key, value) := by
  have hkey : ∀ c ∈ key, (c != '=') = true := by
    intro c hc
    rw [bne_iff_ne]
    rintro rfl
    exact h hc
  have hdrop : ('=' :: value).dropWhile (· != '=') = '=' :: value :=
    List.dropWhile_cons_of_neg (by simp)
  have htake : ('=' :: value).takeWhile (· != '=') = [] :=
    List.takeWhile_cons_of_neg (by simp)
  rw [splitEquals?, List.dropWhile_append_of_pos hkey, List.takeWhile_append_of_pos hkey, hdrop,
    htake, List.append_nil]

/-- A line that begins like neither a comment nor a header is an entry if it has an equals sign. -/
theorem ofTrimmed_cons {c : Char} (hc : c ∉ ['#', ';', '[']) (s : List Char) :
    ofTrimmed (c :: s) =
      match splitEquals? (c :: s) with
      | some (key, value) => entry (Text.trim key) (Text.trim value)
      | none => missingEquals := by
  simp only [List.mem_cons, List.not_mem_nil, or_false, not_or] at hc
  obtain ⟨hash, semicolon, bracket⟩ := hc
  unfold ofTrimmed
  -- The cases that come before are not met.
  split
  · rename_i h
    cases h
  · rename_i h
    exact absurd (List.cons.inj h).1 hash
  · rename_i h
    exact absurd (List.cons.inj h).1 semicolon
  · rename_i h
    exact absurd (List.cons.inj h).1 bracket
  · rfl

theorem isTrimmed_entry {key value : List Char} (hkey : Text.IsWord key)
    (hvalue : Text.IsTrimmed value) : Text.IsTrimmed (key ++ '=' :: value) := by
  have hequals : Text.IsWord ['='] := by
    decide
  exact hkey.isTrimmed.append (hequals.isTrimmed.append hvalue)

theorem ofText_entry {key value : List Char} (hkey : Text.IsWord key)
    (hfirst : ∀ c ∈ key.head?, c ∉ ['#', ';', '[']) (hequals : '=' ∉ key)
    (hvalue : Text.IsTrimmed value) : ofText (key ++ '=' :: value) = entry key value := by
  obtain ⟨c, rest, hcons⟩ := List.exists_cons_of_ne_nil hkey.1
  have hc : c ∉ ['#', ';', '['] := hfirst c (by simp [hcons])
  rw [ofText, Text.trim_eq_self (isTrimmed_entry hkey hvalue), hcons, List.cons_append,
    ofTrimmed_cons hc, ← List.cons_append, ← hcons, splitEquals?_append hequals]
  simp only [Text.trim_eq_self hkey.isTrimmed, Text.trim_eq_self hvalue]

end SettingsLine

/-! ## Names of keys -/

namespace Key

theorem isWord_name (key : Key) : Text.IsWord key.name.toList := by
  rcases key with (_ | _ | _ | _) | (_ | _ | _) | (_ | _ | _) | _ | _ <;> decide

theorem isAlpha_of_mem_name {key : Key} {c : Char} (h : c ∈ key.name.toList) : c.isAlpha = true := by
  have hall : key.name.toList.all Char.isAlpha = true := by
    rcases key with (_ | _ | _ | _) | (_ | _ | _) | (_ | _ | _) | _ | _ <;> decide
  exact List.all_eq_true.mp hall c h

theorem first_name (key : Key) : ∀ c ∈ key.name.toList.head?, c ∉ ['#', ';', '['] := by
  intro c hc hmem
  have halpha : c.isAlpha = true := isAlpha_of_mem_name (List.mem_of_mem_head? hc)
  simp only [List.mem_cons, List.not_mem_nil, or_false] at hmem
  rcases hmem with rfl | rfl | rfl <;> exact absurd halpha (by decide)

theorem equals_not_mem_name (key : Key) : '=' ∉ key.name.toList :=
  fun h => absurd (isAlpha_of_mem_name h) (by decide)

theorem ofName?_name (key : Key) : ofName? key.name = some key := by
  rcases key with (_ | _ | _ | _) | (_ | _ | _) | (_ | _ | _) | _ | _ <;> decide

end Key

end SleepPolicy
