import AdmissionGate.Proofs.Consistency
import AdmissionGate.Proofs.Text.Blank

/-!
# Proofs/Explanation/Names — which names are explained

A name is explained when it is, character for character, that of a predicate or of a code.  The
explanations, the slots and the table of codes know the same names.  Any other name is answered with
the known names that it occurs in, blanks at its ends aside.
-/

namespace AdmissionGate

/-! ## 1. Names of predicates and of codes -/

namespace Predicate

variable {q : Predicate} {id code : String}

theorem mem_ids_iff : id ∈ ids ↔ ∃ q : Predicate, id = q.id := by
  unfold ids
  rw [listing_eq_all, List.mem_map]
  exact exists_congr fun q => (and_iff_right q.mem_all).trans eq_comm

theorem codes_of_mem_codeTable {entry : Predicate × List Code} (h : entry ∈ codeTable) :
    entry.2 = entry.1.codes := by
  rw [codeTable_eq_map] at h
  obtain ⟨q, -, rfl⟩ := List.mem_map.mp h
  rfl

/-- The codes of the predicate of a name are those that the predicate can report. -/
theorem codesOf_id (q : Predicate) : codesOf q.id = q.codes.map Code.name := by
  cases q <;> rfl

theorem reporting?_eq_some_iff : reporting? code = some q ↔ code ∈ q.codes.map Code.name := by
  constructor
  · intro h
    obtain ⟨entry, hentry, rfl⟩ := Option.map_eq_some_iff.mp h
    have hcode := List.find?_some hentry
    rw [← codes_of_mem_codeTable (List.mem_of_find?_eq_some hentry)]
    exact of_decide_eq_true hcode
  · exact fun h => (listed_of_mem_codes h).2

theorem reporting?_isSome_iff : (reporting? code).isSome = true ↔ code ∈ Code.names := by
  have hnames : ∀ c ∈ Code.names, (reporting? c).isSome = true := by decide
  constructor
  · intro h
    obtain ⟨q, hq⟩ := Option.isSome_iff_exists.mp h
    exact (listed_of_mem_codes (reporting?_eq_some_iff.mp hq)).1
  · exact hnames code

theorem mem_codesOf_iff :
    code ∈ codesOf id ↔ ∃ q : Predicate, code ∈ q.codes.map Code.name ∧ q.id = id := by
  constructor
  · intro h
    unfold codesOf at h
    split at h
    next q codes hentry =>
      have hid := List.find?_some hentry
      obtain rfl : codes = q.codes := codes_of_mem_codeTable (List.mem_of_find?_eq_some hentry)
      exact ⟨q, h, of_decide_eq_true hid⟩
    next => cases h
  · rintro ⟨q, h, rfl⟩
    rwa [codesOf_id]

/-- The table of codes is read the same way from both sides. -/
theorem reporting?_map_id_eq_some_iff :
    (reporting? code).map Predicate.id = some id ↔ code ∈ codesOf id := by
  rw [Option.map_eq_some_iff, mem_codesOf_iff]
  exact exists_congr fun q => and_congr_left fun _ => reporting?_eq_some_iff

end Predicate

namespace Explanation

/-- The names of predicates and then of codes, in the order of the registry. -/
def knownNames : List String := Predicate.ids ++ Code.names

/-- A predicate goes by its own name and by those of its codes. -/
def GoesBy (q : Predicate) (name : String) : Prop :=
  name = q.id ∨ name ∈ q.codes.map Code.name

variable {name known : String} {q q' : Predicate} {slot : Slot}

theorem nodup_knownNames : knownNames.Nodup := by decide

theorem mem_knownNames_iff : name ∈ knownNames ↔ ∃ q, GoesBy q name := by
  have hnames : name ∈ Code.names ↔ ∃ q : Predicate, name ∈ q.codes.map Code.name := by
    rw [← Predicate.reporting?_isSome_iff, Option.isSome_iff_exists]
    exact exists_congr fun q => Predicate.reporting?_eq_some_iff
  unfold knownNames GoesBy
  rw [List.mem_append, Predicate.mem_ids_iff, hnames, exists_or]

/-- No name is that of a predicate and of a code. -/
theorem reporting?_id (q : Predicate) : Predicate.reporting? q.id = none := by
  cases q <;> decide

theorem goesBy_unique (h : GoesBy q name) (h' : GoesBy q' name) : q = q' := by
  have hid (p p' : Predicate) : p.id ∉ p'.codes.map Code.name := by
    intro hmem
    have hsome := Predicate.reporting?_eq_some_iff.mpr hmem
    rw [reporting?_id] at hsome
    cases hsome
  rcases h with rfl | h
  · rcases h' with h' | h'
    · exact Predicate.id_injective h'
    · exact absurd h' (hid q q')
  · rcases h' with rfl | h'
    · exact absurd h (hid q' q)
    · exact Option.some.inj ((Predicate.reporting?_eq_some_iff.mpr h).symm.trans
        (Predicate.reporting?_eq_some_iff.mpr h'))

/-! ## 2. Explanations and slots -/

/-- The explained names are the known ones, in their order. -/
theorem names_table : table.map Prod.fst = knownNames := rfl

theorem ofName?_isSome_iff : (ofName? name).isSome = true ↔ name ∈ knownNames := by
  unfold ofName?
  rw [List.lookup_isSome_iff, ← names_table, List.mem_map]
  exact exists_congr fun entry => and_congr_right fun _ => beq_iff_eq.trans eq_comm

theorem findFinIdx?_listing {id : String} {i : Fin Predicate.listing.length} :
    Predicate.listing.findFinIdx? (·.id = id) = some i ↔ (Predicate.listing.get i).id = id := by
  have hnodup : Predicate.listing.Nodup := by decide
  rw [List.findFinIdx?_eq_some_iff, decide_eq_true_iff]
  constructor
  · exact And.left
  · rintro rfl
    refine ⟨rfl, fun j hji hid => ?_⟩
    -- No predicate is listed twice, so there is no other one of this name before it.
    have hsame := Predicate.id_injective (of_decide_eq_true hid)
    have hindex := hnodup.getElem_inj_iff.mp hsame
    omega

/-- A name is looked up as a code first, but no code is the name of a predicate. -/
theorem id_eq_getD_iff :
    q.id = ((Predicate.reporting? name).map Predicate.id).getD name ↔ GoesBy q name := by
  cases hcode : Predicate.reporting? name with
  | some q' =>
    have hgoes : GoesBy q' name := .inr (Predicate.reporting?_eq_some_iff.mp hcode)
    rw [Option.map_some, Option.getD_some]
    constructor
    · intro h
      rwa [Predicate.id_injective h]
    · intro h
      rw [goesBy_unique h hgoes]
  | none =>
    rw [Option.map_none, Option.getD_none]
    constructor
    · exact fun h => .inl h.symm
    · rintro (h | hmem)
      · exact h.symm
      · rw [Predicate.reporting?_eq_some_iff.mpr hmem] at hcode
        cases hcode

/-- The slot under a name is that of the predicate that goes by it. -/
theorem slot_eq_some_iff : Slot.ofName? name = some slot ↔
    ∃ i, GoesBy (Predicate.listing.get i) name ∧ slot =
      ⟨Predicate.listing.get i, i + 1, (Predicate.listing.get i).codes.map Code.name⟩ := by
  unfold Slot.ofName?
  dsimp only
  rw [Option.bind_eq_bind, Option.bind_eq_some_iff]
  refine exists_congr fun i => ?_
  rw [findFinIdx?_listing, id_eq_getD_iff]
  refine and_congr_right fun hgoes => ?_
  rw [← id_eq_getD_iff.mpr hgoes, Predicate.codesOf_id]
  exact Option.some_inj.trans eq_comm

theorem slot_isSome_iff : (Slot.ofName? name).isSome = true ↔ name ∈ knownNames := by
  rw [Option.isSome_iff_exists, mem_knownNames_iff]
  constructor
  · rintro ⟨slot, h⟩
    obtain ⟨i, hgoes, -⟩ := slot_eq_some_iff.mp h
    exact ⟨_, hgoes⟩
  · rintro ⟨q, hgoes⟩
    have hlisted : q ∈ Predicate.listing := q.mem_all
    obtain ⟨i, rfl⟩ := List.mem_iff_get.mp hlisted
    exact ⟨_, slot_eq_some_iff.mpr ⟨i, hgoes, rfl⟩⟩

/-- Explanation and slot are there together, so a name that has one is found. -/
theorem explain_eq_found_iff {worked : Worked} (h : explain name = .found worked) :
    worked.name = name ∧ Slot.ofName? name = some worked.slot := by
  unfold explain at h
  split at h
  · rename_i hname hslot
    cases h
    exact ⟨rfl, hslot⟩
  · cases h

theorem explain_eq_unknown (h : name ∉ knownNames) :
    explain name = .unknown name (suggestions name) := by
  have hnone : ofName? name = none := Option.not_isSome_iff_eq_none.mp (mt ofName?_isSome_iff.mp h)
  unfold explain
  rw [hnone]

/-! ## 3. Suggestions -/

/-- The suggestions for a part of a name: the known names that it occurs in, in their order. -/
structure Suggests (part : String) (found : List String) : Prop where
  order : found.Sublist knownNames
  nodup : found.Nodup
  mem : ∀ known, known ∈ found ↔
    part ≠ "" ∧ known ∈ knownNames ∧ part.toList <:+: known.toList

theorem suggests_suggestions (name : String) : Suggests (Text.trim name) (suggestions name) := by
  unfold suggestions
  by_cases hempty : Text.trim name = ""
  · rw [if_pos (String.isEmpty_iff.mpr hempty)]
    exact ⟨List.nil_sublist _, List.nodup_nil, fun known => by simp [hempty]⟩
  · rw [if_neg (mt String.isEmpty_iff.mp hempty)]
    refine ⟨List.filter_sublist, nodup_knownNames.filter _, fun known => ?_⟩
    rw [List.mem_filter, Text.occursIn_iff, and_iff_right hempty]
    rfl

theorem unpadded_of_mem_knownNames (h : known ∈ knownNames) : Text.Unpadded known := by
  obtain ⟨q, rfl | hcode⟩ := mem_knownNames_iff.mp h
  · cases q <;> exact Text.unpadded_ofList (by decide) (by decide)
  · obtain ⟨c, -, rfl⟩ := List.mem_map.mp hcode
    cases c <;> exact Text.unpadded_ofList (by decide) (by decide)

/-- Blanks around a known name are what trimming takes away, since it has none at its ends. -/
theorem trim_padded (h : known ∈ knownNames) {before after : String} (hbefore : Text.Blank before)
    (hafter : Text.Blank after) : Text.trim (before ++ known ++ after) = known :=
  Text.trim_eq_iff.mpr ⟨⟨before, after, rfl, hbefore, hafter⟩, unpadded_of_mem_knownNames h⟩

theorem padded_not_mem_knownNames (h : known ∈ knownNames) {before after : String}
    (hbefore : Text.Blank before) (hafter : Text.Blank after) (hne : before ++ after ≠ "") :
    before ++ known ++ after ∉ knownNames := by
  intro hmem
  have hempty : Text.Blank "" := List.forall_mem_nil _
  -- A known name has nothing to trim, and this one is trimmed to the name in it.
  have hself : Text.trim (before ++ known ++ after) = before ++ known ++ after := by
    have htrim := trim_padded hmem hempty hempty
    rwa [String.empty_append, String.append_empty] at htrim
  have heq : before ++ known ++ after = known := hself.symm.trans (trim_padded h hbefore hafter)
  have hlength := congrArg String.length heq
  rw [String.length_append, String.length_append] at hlength
  apply hne
  rw [← String.length_eq_zero_iff, String.length_append]
  omega

/-- Holds of the slot of the predicate that goes by a name, which no other predicate does. -/
structure Places (name : String) (slot : Slot) : Prop where
  goesBy : GoesBy slot.predicate name
  only : ∀ q, GoesBy q name → q = slot.predicate
  /-- Positions count from one. -/
  position : ∃ i, Predicate.all[i]? = some slot.predicate ∧ slot.position = i + 1
  codes : slot.codes = slot.predicate.codes.map Code.name

theorem places_of_slot (h : Slot.ofName? name = some slot) : Places name slot := by
  obtain ⟨i, hgoes, rfl⟩ := slot_eq_some_iff.mp h
  refine ⟨hgoes, fun q hgoes' => goesBy_unique hgoes' hgoes, ⟨i, ?_, rfl⟩, rfl⟩
  rw [← Predicate.listing_eq_all]
  exact List.getElem?_eq_getElem i.isLt

end Explanation

open Explanation in
/-- A name is explained just when it is known, and then the slot is that of the one predicate that
goes by it.  Any other name is answered with the known names that it occurs in when its blanks are
trimmed, so a known name with blanks around it is not explained but suggested. -/
theorem explain_answers_by_name (name : String) :
    ((∃ worked, explain name = .found worked) ↔ name ∈ knownNames) ∧
    ((Explanation.ofName? name).isSome = true ↔ name ∈ knownNames) ∧
    ((Slot.ofName? name).isSome = true ↔ name ∈ knownNames) ∧
    (∀ worked, explain name = .found worked → worked.name = name ∧ Places name worked.slot) ∧
    (∀ code id, (Predicate.reporting? code).map Predicate.id = some id ↔
      code ∈ Predicate.codesOf id) ∧
    (name ∉ knownNames → ∃ core found, Text.Trims name core ∧
      explain name = .unknown name found ∧ Suggests core found) ∧
    (∀ known ∈ knownNames, ∀ before after, Text.Blank before → Text.Blank after →
      before ++ after ≠ "" → ∃ found,
        explain (before ++ known ++ after) = .unknown (before ++ known ++ after) found ∧
          known ∈ found) := by
  refine ⟨⟨?_, ?_⟩, ofName?_isSome_iff, slot_isSome_iff, ?_,
    fun code id => Predicate.reporting?_map_id_eq_some_iff, fun hname => ?_, ?_⟩
  · rintro ⟨worked, h⟩
    rw [← slot_isSome_iff, (explain_eq_found_iff h).2]
    rfl
  · intro hname
    obtain ⟨e, he⟩ := Option.isSome_iff_exists.mp (ofName?_isSome_iff.mpr hname)
    obtain ⟨slot, hslot⟩ := Option.isSome_iff_exists.mp (slot_isSome_iff.mpr hname)
    obtain ⟨worked, hworked, -⟩ := explain_of_slot he (congrArg (Option.map Slot.predicate) hslot)
    exact ⟨worked, hworked⟩
  · intro worked h
    obtain ⟨hname, hslot⟩ := explain_eq_found_iff h
    exact ⟨hname, places_of_slot hslot⟩
  · exact ⟨_, _, Text.trims_trim name, explain_eq_unknown hname, suggests_suggestions name⟩
  · intro known hknown before after hbefore hafter hne
    refine ⟨_, explain_eq_unknown (padded_not_mem_knownNames hknown hbefore hafter hne), ?_⟩
    have hsuggests := suggests_suggestions (before ++ known ++ after)
    rw [trim_padded hknown hbefore hafter] at hsuggests
    have hsome : known ≠ "" := by
      rintro rfl
      revert hknown
      decide
    exact (hsuggests.mem known).mpr ⟨hsome, hknown, List.infix_rfl⟩

/-- Blanks after a name are enough for it not to be explained, whatever blanks they are. -/
theorem padded_name_is_suggested :
    "ttl_positive" ∈ Explanation.knownNames ∧ Text.Blank " " ∧ Text.Blank "\u3000" ∧
      ∃ found, explain (" " ++ "ttl_positive" ++ "\u3000") =
        .unknown (" " ++ "ttl_positive" ++ "\u3000") found ∧ "ttl_positive" ∈ found := by
  have hknown : "ttl_positive" ∈ Explanation.knownNames := by decide
  have hspace : Text.Blank " " := Text.allBlank_iff.mp (by decide)
  have hideographic : Text.Blank "\u3000" := Text.allBlank_iff.mp (by decide)
  obtain ⟨_, _, _, _, _, _, hpadded⟩ := explain_answers_by_name "ttl_positive"
  exact ⟨hknown, hspace, hideographic,
    hpadded _ hknown _ _ hspace hideographic (by decide)⟩

end AdmissionGate
