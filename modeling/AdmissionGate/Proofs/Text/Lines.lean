import Mathlib.Data.List.Basic

/-!
# Proofs/Text/Lines — the lines of a text

A text that is written row by row, a line break after each, has as many lines for a row as the row
has line breaks, and one more.
-/

namespace AdmissionGate.Text

/-- The lines of some characters.  A line break ends a line; what follows the last one is a line
too, unless it is nothing. -/
def linesOf : List Char → List (List Char)
  | [] => []
  | c :: rest =>
    if c = '\n' then [] :: linesOf rest
    else match linesOf rest with
      | [] => [[c]]
      | line :: others => (c :: line) :: others

def lines (text : String) : List String := (linesOf text.toList).map String.ofList

/-- The lines of a text that start with a marker. -/
def linesFrom (marker text : String) : List String :=
  (lines text).filter fun line => marker.toList.isPrefixOf line.toList

def SingleLine (text : String) : Prop := '\n' ∉ text.toList

instance (text : String) : Decidable (SingleLine text) := inferInstanceAs (Decidable (_ ∉ _))

/-- Rows with a line break after each. -/
def ended (rows : List String) : String := String.join (rows.map (· ++ "\n"))

theorem ended_singleton (row : String) : ended [row] = row ++ "\n" := by
  apply String.toList_inj.mp
  unfold ended
  rw [String.toList_join]
  exact List.flatMap_singleton ..

/-- Every line break inside of a row makes one more line of it. -/
theorem length_linesOf_ended (row : List Char) :
    (linesOf (row ++ ['\n'])).length = row.count '\n' + 1 := by
  induction row with
  | nil => rfl
  | cons c row ih =>
    rw [List.cons_append, linesOf]
    by_cases hc : c = '\n'
    · rw [if_pos hc, List.length_cons, ih, hc, List.count_cons_self]
    · rw [if_neg hc, List.count_cons_of_ne hc]
      cases hlines : linesOf (row ++ ['\n']) with
      | nil =>
        rw [hlines, List.length_nil] at ih
        omega
      | cons line others => rwa [hlines] at ih

theorem linesOf_ended_of_single {row : List Char} (h : '\n' ∉ row) :
    linesOf (row ++ ['\n']) = [row] := by
  induction row with
  | nil => rfl
  | cons c row ih =>
    obtain ⟨hc, hrow⟩ := not_or.mp (mt List.mem_cons.mpr h)
    rw [List.cons_append, linesOf, if_neg (Ne.symm hc), ih hrow]

theorem linesOf_append (row rest : List Char) :
    linesOf (row ++ '\n' :: rest) = linesOf (row ++ ['\n']) ++ linesOf rest := by
  induction row with
  | nil => rfl
  | cons c row ih =>
    rw [List.cons_append, List.cons_append, linesOf, linesOf, ih]
    by_cases hc : c = '\n'
    · rw [if_pos hc, if_pos hc, List.cons_append]
    · rw [if_neg hc, if_neg hc]
      -- A row with its line break is some line at least, which takes the character up.
      have hlength := length_linesOf_ended row
      cases hlines : linesOf (row ++ ['\n']) with
      | nil =>
        rw [hlines, List.length_nil] at hlength
        omega
      | cons line others => rfl

theorem toList_ended (row : String) (rows : List String) :
    (ended (row :: rows)).toList = row.toList ++ '\n' :: (ended rows).toList := by
  unfold ended
  rw [List.map_cons, String.toList_join, String.toList_join, List.flatMap_cons,
    String.toList_append, List.append_assoc]
  rfl

theorem ended_append (rows rows' : List String) :
    ended (rows ++ rows') = ended rows ++ ended rows' := by
  apply String.toList_inj.mp
  unfold ended
  rw [String.toList_append, String.toList_join, String.toList_join, String.toList_join,
    List.map_append, List.flatMap_append]

/-- The lines of rows are those of one row after the other. -/
theorem lines_ended (rows : List String) :
    lines (ended rows) = rows.flatMap fun row => lines (row ++ "\n") := by
  unfold lines
  induction rows with
  | nil => rfl
  | cons row rows ih =>
    have hrow : (row ++ "\n").toList = row.toList ++ ['\n'] := String.toList_append
    rw [toList_ended, linesOf_append, List.map_append, ih, List.flatMap_cons, hrow]

theorem lines_of_single {row : String} (h : SingleLine row) : lines (row ++ "\n") = [row] := by
  have hrow : (row ++ "\n").toList = row.toList ++ ['\n'] := String.toList_append
  unfold lines
  rw [hrow, linesOf_ended_of_single h, List.map_singleton, String.ofList_toList]

theorem lines_ended_of_single {rows : List String} (h : ∀ row ∈ rows, SingleLine row) :
    lines (ended rows) = rows := by
  rw [lines_ended, List.flatMap_congr fun row hrow => lines_of_single (h row hrow)]
  exact List.flatMap_singleton' rows

theorem length_lines_row (row : String) :
    (lines (row ++ "\n")).length = row.toList.count '\n' + 1 := by
  have hrow : (row ++ "\n").toList = row.toList ++ ['\n'] := String.toList_append
  unfold lines
  rw [List.length_map, hrow, length_linesOf_ended]

/-- Lines of a text that comes after rows are lines of its own. -/
theorem lines_ended_append (rows : List String) (text : String) :
    lines (ended rows ++ text) = lines (ended rows) ++ lines text := by
  induction rows with
  | nil =>
    have hnone : ended [] ++ text = text := String.empty_append
    rw [hnone]
    rfl
  | cons row rows ih =>
    unfold lines at ih ⊢
    have htail : (linesOf (ended rows ++ text).toList).map String.ofList =
        (linesOf (ended rows).toList).map String.ofList ++
          (linesOf text.toList).map String.ofList := ih
    rw [String.toList_append] at htail
    rw [String.toList_append, toList_ended, List.append_assoc, List.cons_append,
      linesOf_append row.toList, linesOf_append row.toList (ended rows).toList, List.map_append,
      List.map_append, htail, List.append_assoc]

theorem exists_linesOf_eq_cons {marker : List Char} (hne : marker ≠ []) (h : '\n' ∉ marker)
    (rest : List Char) : ∃ line others, linesOf (marker ++ rest) = line :: others ∧
      marker <+: line := by
  induction marker with
  | nil => exact absurd rfl hne
  | cons c marker ih =>
    obtain ⟨hc, hmarker⟩ := not_or.mp (mt List.mem_cons.mpr h)
    rw [List.cons_append, linesOf, if_neg (Ne.symm hc)]
    by_cases hlast : marker = []
    · subst hlast
      cases linesOf ([] ++ rest) with
      | nil => exact ⟨[c], [], rfl, List.prefix_rfl⟩
      | cons line others => exact ⟨c :: line, others, rfl, ⟨line, rfl⟩⟩
    · obtain ⟨line, others, hlines, hprefix⟩ := ih hlast hmarker
      rw [hlines]
      exact ⟨c :: line, others, rfl, List.cons_prefix_cons.mpr ⟨rfl, hprefix⟩⟩

/-- A text that starts with a marker has a line that does. -/
theorem linesFrom_ne_nil {marker text : String} (hne : marker ≠ "") (h : SingleLine marker) :
    linesFrom marker (marker ++ text) ≠ [] := by
  have hchars : marker.toList ≠ [] := mt String.toList_eq_nil_iff.mp hne
  obtain ⟨line, others, hlines, hprefix⟩ := exists_linesOf_eq_cons hchars h text.toList
  apply List.ne_nil_of_mem (a := String.ofList line)
  unfold linesFrom lines
  rw [String.toList_append, hlines]
  refine List.mem_filter.mpr ⟨List.mem_cons_self, ?_⟩
  rw [String.toList_ofList]
  exact List.isPrefixOf_iff_prefix.mpr hprefix

end AdmissionGate.Text
