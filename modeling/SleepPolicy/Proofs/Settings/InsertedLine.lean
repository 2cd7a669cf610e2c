import SleepPolicy.Proofs.Settings.Effective
import SleepPolicy.Proofs.Text.Lines
import SleepPolicy.Proofs.Text.Words

/-!
# Inserted lines

A line that is put into a file adds its own entry, if it has one.  Unless it is a header, the entries of
all other lines stay as they are, because nothing but the last header above a line decides about it.
-/

namespace SleepPolicy.SettingsEntry

/-- The entries of some lines that stand below others. -/
def below (above rest : List (List Char)) : List SettingsEntry :=
  (rest.zipIdx above.length).filterMap fun (line, i) => ofLine? ((above ++ rest).take i) line

theorem inContent_eq_below (content : List Char) :
    inContent content = below [] ((Text.lines content).map Text.trim) := rfl

theorem below_nil (above : List (List Char)) : below above [] = [] := rfl

theorem below_cons (above : List (List Char)) (line : List Char) (rest : List (List Char)) :
    below above (line :: rest) = (ofLine? above line).toList ++ below (above ++ [line]) rest := by
  have hrest : below (above ++ [line]) rest =
      (rest.zipIdx (above.length + 1)).filterMap fun (l, i) =>
        ofLine? ((above ++ line :: rest).take i) l := by
    rw [below, List.length_append, List.length_singleton, List.append_assoc, List.singleton_append]
  rw [hrest, below, List.zipIdx_cons, List.filterMap_cons]
  simp only [List.take_left']
  cases ofLine? above line with
  | none => rfl
  | some e => rfl

theorem below_append (above first rest : List (List Char)) :
    below above (first ++ rest) = below above first ++ below (above ++ first) rest := by
  induction first generalizing above with
  | nil => rw [List.nil_append, below_nil, List.append_nil, List.nil_append]
  | cons line first ih =>
    rw [List.cons_append, below_cons, ih, below_cons, List.append_assoc, List.append_assoc,
      List.singleton_append]

theorem ofLine?_congr {above above' : List (List Char)} (h : lastHeader? above = lastHeader? above')
    (line : List Char) : ofLine? above line = ofLine? above' line := by
  have heffective : IsEffective above line ↔ IsEffective above' line := by
    rw [IsEffective, IsEffective, h]
  simp only [ofLine?, heffective]

theorem below_congr {above above' : List (List Char)} (h : lastHeader? above = lastHeader? above')
    (rest : List (List Char)) : below above rest = below above' rest := by
  induction rest generalizing above above' with
  | nil => rw [below_nil, below_nil]
  | cons line rest ih =>
    have hbelow : lastHeader? (above ++ [line]) = lastHeader? (above' ++ [line]) := by
      rw [Finding.lastHeader?_concat, Finding.lastHeader?_concat, h]
    rw [below_cons, below_cons, ofLine?_congr h, ih hbelow]

theorem trim_dropReturn (line : List Char) : Text.trim (Text.dropReturn line) = Text.trim line := by
  rw [Text.dropReturn]
  split
  · rename_i hreturn
    obtain ⟨rest, rfl⟩ := List.getLast?_eq_some_iff.mp hreturn
    rw [List.dropLast_concat, Text.trim_concat_blank (by decide)]
  · rfl

theorem inContent_insert {above line : List Char} (habove : Text.IsWhole above) (hline : '\n' ∉ line)
    (hheader : SettingsLine.isHeader (Text.trim line) = false) (rest : List Char) :
    ∃ before after,
      inContent (above ++ (line ++ '\n' :: rest)) =
        before ++ (ofLine? ((Text.lines above).map Text.trim) (Text.trim line)).toList ++ after ∧
      inContent (above ++ rest) = before ++ after := by
  let aboveLines := (Text.lines above).map Text.trim
  let restLines := (Text.lines rest).map Text.trim
  have hlast : lastHeader? (aboveLines ++ [Text.trim line]) = lastHeader? aboveLines := by
    rw [Finding.lastHeader?_concat, if_neg (by simp [hheader])]
  refine ⟨below [] aboveLines, below aboveLines restLines, ?_, ?_⟩
  · rw [inContent_eq_below, Text.lines_append habove, Text.lines_cons hline, List.map_append,
      List.map_cons, trim_dropReturn, below_append, List.nil_append, below_cons, below_congr hlast,
      List.append_assoc]
  · rw [inContent_eq_below, Text.lines_append habove, List.map_append, below_append, List.nil_append]

end SleepPolicy.SettingsEntry
