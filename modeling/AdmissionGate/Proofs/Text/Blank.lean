import AdmissionGate.Text.Blank
import Mathlib.Data.List.DropRight

/-!
# Proofs/Text/Blank — trimming and searching

Trimming leaves the one part of a text that has blanks alone around it and none at its ends.  The
search for a part finds it wherever it stands.
-/

namespace AdmissionGate.Text

/-- Holds of texts that neither start nor end with a blank. -/
structure Unpadded (text : String) : Prop where
  head : ∀ c ∈ text.toList.head?, isBlank c = false
  last : ∀ c ∈ text.toList.getLast?, isBlank c = false

/-- Holds of a text and what is left of it without the blanks at its two ends. -/
structure Trims (text core : String) : Prop where
  around : ∃ before after : String, text = before ++ core ++ after ∧ Blank before ∧ Blank after
  unpadded : Unpadded core

theorem unpadded_ofList {characters : List Char}
    (hhead : characters.head?.all (!isBlank ·) = true)
    (hlast : characters.getLast?.all (!isBlank ·) = true) : Unpadded (.ofList characters) := by
  rw [Option.all_eq_true] at hhead hlast
  refine ⟨fun c hc => ?_, fun c hc => ?_⟩
  · rw [String.toList_ofList] at hc
    exact (Bool.not_eq_true' _).mp (hhead c hc)
  · rw [String.toList_ofList] at hc
    exact (Bool.not_eq_true' _).mp (hlast c hc)

section

variable {before core after part cs : List Char}

theorem dropWhile_isBlank_of_head (h : ∀ c ∈ core.head?, isBlank c = false) :
    core.dropWhile isBlank = core := by
  cases core with
  | nil => rfl
  | cons c rest => exact List.dropWhile_cons_of_neg (Bool.eq_false_iff.mp (h c rfl))

theorem trimChars_append (hbefore : ∀ c ∈ before, isBlank c = true)
    (hafter : ∀ c ∈ after, isBlank c = true) (hhead : ∀ c ∈ core.head?, isBlank c = false)
    (hlast : ∀ c ∈ core.getLast?, isBlank c = false) :
    trimChars (before ++ core ++ after) = core := by
  have hreversed : ∀ c ∈ core.reverse.head?, isBlank c = false := by
    rwa [List.head?_reverse]
  have hafter' : ∀ c ∈ after.reverse, isBlank c = true := fun c hc =>
    hafter c (List.mem_reverse.mp hc)
  unfold trimChars
  rw [List.append_assoc, List.dropWhile_append_of_pos hbefore]
  cases hcore : core with
  | nil =>
    -- Nothing but blanks is left, and all of it is dropped from the front.
    rw [List.nil_append, List.dropWhile_eq_nil_iff.mpr hafter]
    rfl
  | cons c rest =>
    have hfirst : ∀ d ∈ (c :: rest ++ after).head?, isBlank d = false := by
      rw [hcore] at hhead
      exact hhead
    rw [dropWhile_isBlank_of_head hfirst, ← hcore, List.reverse_append,
      List.dropWhile_append_of_pos hafter', dropWhile_isBlank_of_head hreversed,
      List.reverse_reverse]

/-- What trimming leaves has blanks around it and none at its ends. -/
theorem trims_trim (text : String) : Trims text (trim text) := by
  have hcore : (trim text).toList = (text.toList.dropWhile isBlank).rdropWhile isBlank :=
    String.toList_ofList
  refine ⟨⟨.ofList (text.toList.takeWhile isBlank),
    .ofList ((text.toList.dropWhile isBlank).rtakeWhile isBlank), ?_, ?_, ?_⟩, ⟨?_, ?_⟩⟩
  · apply String.toList_inj.mp
    rw [String.toList_append, String.toList_append, hcore, String.toList_ofList,
      String.toList_ofList, List.append_assoc, List.rdropWhile_append_rtakeWhile,
      List.takeWhile_append_dropWhile]
  · intro c hc
    rw [String.toList_ofList] at hc
    exact List.mem_takeWhile_imp hc
  · intro c hc
    rw [String.toList_ofList] at hc
    exact List.mem_rtakeWhile_imp hc
  · intro c hc
    rw [hcore] at hc
    -- The first character that is left after both steps is left after the first one.
    obtain ⟨rest, hrest⟩ := List.rdropWhile_prefix (l := text.toList.dropWhile isBlank) isBlank
    have hhead : c ∈ (text.toList.dropWhile isBlank).head? := by
      rw [← hrest, List.head?_append]
      exact Option.or_eq_some_iff.mpr (.inl hc)
    have hnot := List.head?_dropWhile_not isBlank text.toList
    rwa [show (text.toList.dropWhile isBlank).head? = some c from hhead] at hnot
  · intro c hc
    rw [hcore] at hc
    obtain ⟨hne, rfl⟩ := List.mem_getLast?_eq_getLast hc
    exact Bool.eq_false_iff.mpr (List.rdropWhile_last_not _ _ hne)

theorem trim_eq_iff {text core : String} : trim text = core ↔ Trims text core := by
  constructor
  · rintro rfl
    exact trims_trim text
  · rintro ⟨⟨before, after, rfl, hbefore, hafter⟩, hcore⟩
    unfold trim
    rw [String.toList_append, String.toList_append,
      trimChars_append hbefore hafter hcore.head hcore.last, String.ofList_toList]

theorem occursInChars_iff : occursInChars part cs = true ↔ part <:+: cs := by
  induction cs with
  | nil => exact List.isEmpty_iff.trans List.infix_nil.symm
  | cons c rest ih =>
    rw [occursInChars, Bool.or_eq_true, List.isPrefixOf_iff_prefix, ih, List.infix_cons_iff]

end

/-- The search finds a part wherever it stands in a text, and nowhere else. -/
theorem occursIn_iff {part text : String} :
    occursIn part text = true ↔ part.toList <:+: text.toList :=
  occursInChars_iff

end AdmissionGate.Text
