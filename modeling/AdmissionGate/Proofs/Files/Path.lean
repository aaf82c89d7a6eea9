import AdmissionGate.Files.Path
import Mathlib.Data.List.Basic

/-!
# Proofs/Files/Path — the directory around a path

A path is its pieces with slashes between them.  The nearest directory that it names consists of its
first pieces, and at least one name comes after them.
-/

namespace AdmissionGate.Path

/-! ## 1. Pieces -/

def IsPiece (piece : String) : Prop := '/' ∉ piece.toList

theorem slash_not_mem_splitOn {cs piece : List Char} (h : piece ∈ cs.splitOn '/') :
    '/' ∉ piece := by
  induction cs generalizing piece with
  | nil =>
    rw [List.splitOn_nil, List.mem_singleton] at h
    rw [h]
    exact List.not_mem_nil
  | cons c cs ih =>
    rw [List.splitOn_cons_eq_if_modifyHead] at h
    by_cases hslash : (c == '/') = true
    · rw [if_pos hslash] at h
      rcases List.mem_cons.mp h with rfl | h
      · exact List.not_mem_nil
      · exact ih h
    · rw [if_neg hslash] at h
      obtain ⟨first, others, heq⟩ := List.exists_cons_of_ne_nil (List.splitOn_ne_nil '/' cs)
      rw [heq] at h ih
      rcases List.mem_cons.mp h with rfl | h
      · refine List.not_mem_cons_of_ne_of_not_mem ?_ (ih List.mem_cons_self)
        exact fun hc => hslash (beq_iff_eq.mpr hc.symm)
      · exact ih (List.mem_cons_of_mem first h)

theorem isPiece_of_mem_pieces {path piece : String} (h : piece ∈ pieces path) : IsPiece piece := by
  obtain ⟨cs, hcs, rfl⟩ := List.mem_map.mp h
  unfold IsPiece
  rw [String.toList_ofList]
  exact slash_not_mem_splitOn hcs

theorem pieces_ne_nil (path : String) : pieces path ≠ [] :=
  mt List.map_eq_nil_iff.mp (List.splitOn_ne_nil '/' path.toList)

theorem intercalate_pieces (path : String) : "/".intercalate (pieces path) = path := by
  have hmap : (pieces path).map String.toList = path.toList.splitOn '/' := by
    unfold pieces
    rw [List.map_map]
    exact List.map_id'' (fun cs => String.toList_ofList) _
  apply String.toList_injective
  rw [String.toList_intercalate, hmap]
  exact List.intercalate_splitOn '/'

theorem pieces_intercalate {ps : List String} (hne : ps ≠ []) (h : ∀ piece ∈ ps, IsPiece piece) :
    pieces ("/".intercalate ps) = ps := by
  have hsplit : (['/'].intercalate (ps.map String.toList)).splitOn '/' = ps.map String.toList := by
    refine List.splitOn_intercalate '/' ?_ (mt List.map_eq_nil_iff.mp hne)
    intro cs hcs
    obtain ⟨piece, hpiece, rfl⟩ := List.mem_map.mp hcs
    exact h piece hpiece
  unfold pieces
  rw [String.toList_intercalate]
  show ((['/'].intercalate _).splitOn '/').map _ = _
  rw [hsplit, List.map_map]
  exact List.map_id'' (fun piece => String.ofList_toList) _

/-- A path is absolute when its first piece is empty and another follows. -/
theorem isAbsolute_intercalate {piece : String} (h : IsPiece piece) (rest : List String) :
    isAbsolute ("/".intercalate (piece :: rest)) = (piece.isEmpty && !rest.isEmpty) := by
  have hhead : (piece.toList.head? == some '/') = false := by
    refine beq_eq_false_iff_ne.mpr fun hhead => h ?_
    exact List.mem_of_mem_head? hhead
  unfold isAbsolute
  cases rest with
  | nil =>
    rw [String.intercalate_singleton, hhead, List.isEmpty_nil, Bool.not_true, Bool.and_false]
  | cons next others =>
    rw [String.intercalate_cons_cons, String.append_assoc, String.toList_append]
    -- A path starts with a slash just when its first piece is empty and others follow.
    cases hpiece : piece.toList with
    | nil =>
      obtain rfl : piece = "" := String.toList_eq_nil_iff.mp hpiece
      rw [String.toList_append]
      rfl
    | cons c cs =>
      have hne : piece.isEmpty = false := by
        refine Bool.eq_false_iff.mpr fun hempty => ?_
        rw [String.isEmpty_iff.mp hempty] at hpiece
        cases hpiece
      rw [hpiece] at hhead
      rw [hne, Bool.false_and]
      exact hhead

/-! ## 2. The directory around a path -/

/-- Holds of paths that say the same as pieces: they have their names, and start at the root when
the first piece is empty. -/
structure LeadsThrough (ps : List String) (path : String) : Prop where
  nonempty : path.isEmpty = false
  absolute : isAbsolute path = ps.head?.any String.isEmpty
  names : names path = ps.filter (!·.isEmpty)

theorem leadsThrough_ofReversed {ps : List String} (hne : ps ≠ [])
    (h : ∀ piece ∈ ps, IsPiece piece) : LeadsThrough ps (ofReversed ps.reverse) := by
  obtain ⟨piece, rest, rfl⟩ := List.exists_cons_of_ne_nil hne
  -- The root is the one path that is not its pieces with slashes between them.
  by_cases hroot : piece :: rest = [""]
  · rw [hroot]
    exact ⟨rfl, rfl, by decide⟩
  · have hpath : ofReversed (piece :: rest).reverse = "/".intercalate (piece :: rest) := by
      unfold ofReversed
      split
      · exact absurd (List.reverse_eq_iff.mp ‹_›) hroot
      · rw [List.reverse_reverse]
    have hpieces := pieces_intercalate hne h
    rw [hpath]
    refine ⟨?_, ?_, ?_⟩
    · refine Bool.eq_false_iff.mpr fun hempty => hroot ?_
      rw [← hpieces, String.isEmpty_iff.mp hempty]
      decide
    · rw [isAbsolute_intercalate (h piece List.mem_cons_self)]
      show (piece.isEmpty && !rest.isEmpty) = piece.isEmpty
      cases rest with
      | cons next others => exact Bool.and_true _
      | nil =>
        have hpiece : piece.isEmpty = false :=
          Bool.eq_false_iff.mpr fun hempty => hroot (by rw [String.isEmpty_iff.mp hempty])
        rw [hpiece]
        rfl
    · unfold names
      rw [hpieces]

/-- The nearest ancestor of pieces leaves out some pieces at the end, and is named by its last piece
unless that is the only one. -/
theorem exists_ancestor {reversed : List String} (hne : reversed ≠ []) :
    ∃ skipped piece rest, reversed = skipped ++ piece :: rest ∧
      ancestorsOfReversed reversed = ofReversed (piece :: rest) :: ancestorsOfReversed rest ∧
      (rest ≠ [] → piece ≠ "") := by
  induction reversed with
  | nil => exact absurd rfl hne
  | cons piece rest ih =>
    by_cases hskip : (piece = "" ∨ piece = ".") ∧ rest ≠ []
    · obtain ⟨skipped, piece', rest', heq, hancestors, hname⟩ := ih hskip.2
      refine ⟨piece :: skipped, piece', rest', by rw [heq]; rfl, ?_, hname⟩
      rw [ancestorsOfReversed, if_pos hskip, hancestors]
    · refine ⟨[], piece, rest, rfl, ?_, fun hrest hempty => hskip ⟨.inl hempty, hrest⟩⟩
      rw [ancestorsOfReversed, if_neg hskip]

/-- The nearest directory around a path starts where the path does; its names are followed by others
in the path. -/
theorem exists_names_after_parent {path directory : String} {around : List String}
    (h : parents path = directory :: around) :
    directory.isEmpty = false ∧ path.isEmpty = false ∧
      isAbsolute directory = isAbsolute path ∧
      ∃ more, more ≠ [] ∧ names path = names directory ++ more := by
  have hpath : path.isEmpty = false := by
    refine Bool.eq_false_iff.mpr fun hempty => ?_
    rw [parents, if_pos hempty] at h
    cases h
  rw [parents, hpath, if_neg Bool.false_ne_true] at h
  obtain ⟨skipped, piece, rest, hpieces, hancestors, hname⟩ :=
    exists_ancestor (mt List.reverse_eq_nil_iff.mp (pieces_ne_nil path))
  rw [hancestors, List.tail_cons] at h
  have hrest : rest ≠ [] := by
    rintro rfl
    cases h
  -- The pieces before the last name are cut in the same way once more.
  obtain ⟨skipped', piece', rest', heq, hancestors', -⟩ := exists_ancestor hrest
  rw [hancestors'] at h
  obtain ⟨rfl, -⟩ := List.cons.inj h
  obtain ⟨first, others, hinner⟩ :=
    List.exists_cons_of_ne_nil (mt List.reverse_eq_nil_iff.mp (List.cons_ne_nil piece' rest'))
  have hsplit : pieces path = first :: (others ++ (skipped ++ piece :: skipped').reverse) := by
    rw [← List.cons_append, ← hinner, ← List.reverse_append, List.append_assoc,
      List.cons_append, ← heq, ← hpieces, List.reverse_reverse]
  have hpiece (p : String) (hp : p ∈ first :: others) : IsPiece p := by
    have hmem : p ∈ pieces path := by
      rw [hsplit]
      exact List.mem_append_left _ hp
    exact isPiece_of_mem_pieces hmem
  have hdirectory := leadsThrough_ofReversed (List.cons_ne_nil first others) hpiece
  rw [← hinner, List.reverse_reverse, hinner] at hdirectory
  refine ⟨hdirectory.nonempty, hpath, ?_,
    ((skipped ++ piece :: skipped').reverse).filter (!·.isEmpty), ?_, ?_⟩
  · have hmore : (others ++ (skipped ++ piece :: skipped').reverse).isEmpty = false := by simp
    rw [hdirectory.absolute, ← intercalate_pieces path, hsplit,
      isAbsolute_intercalate (hpiece first List.mem_cons_self), hmore]
    exact (Bool.and_true _).symm
  · have hnonempty : (!piece.isEmpty) = true := by simpa using hname hrest
    exact List.ne_nil_of_mem (List.mem_filter.mpr ⟨by simp, hnonempty⟩)
  · rw [hdirectory.names, ← List.filter_append, List.cons_append, ← hsplit]
    rfl

end AdmissionGate.Path
