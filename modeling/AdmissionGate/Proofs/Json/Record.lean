import AdmissionGate.Json.Record
import AdmissionGate.Proofs.Json.Value

/-!
# Proofs/Json/Record — objects as records

An object whose keys stand in the declared order, none of them twice, gives the fields it has; each
is read from the value under its name.
-/

namespace AdmissionGate.Json

variable {names : List String} {members : List (String × Json)} {name : String}

/-- The fields that an object with these members gives. -/
def fieldDocuments (members : List (String × Json)) : List (String × Document) :=
  members.map fun m => (m.1, m.2.toDocument)

def Record.ofMembers (members : List (String × Json)) : Record := ⟨false, fieldDocuments members⟩

theorem memberDocuments_eq_map (members : List (String × Json)) :
    memberDocuments members = members.map fun m => (some m.1, m.2.toDocument) := by
  induction members with
  | nil => rfl
  | cons m rest ih => rw [memberDocuments, ih, List.map_cons]

theorem itemDocuments_eq_map (items : List Json) :
    itemDocuments items = items.map toDocument := by
  induction items with
  | nil => rfl
  | cons item rest ih => rw [itemDocuments, ih, List.map_cons]

theorem map_fst_fieldDocuments : (fieldDocuments members).map Prod.fst = members.map Prod.fst := by
  unfold fieldDocuments
  rw [List.map_map]
  rfl

theorem mapM_memberDocuments :
    (memberDocuments members).mapM (fun m => m.1.map (·, m.2)) = some (fieldDocuments members) := by
  rw [memberDocuments_eq_map]
  induction members with
  | nil => rfl
  | cons m rest ih =>
    rw [List.map_cons, List.mapM_cons, ih]
    rfl

theorem filter_fieldDocuments (h : ∀ m ∈ members, m.1 ∈ names) :
    (fieldDocuments members).filter (fun field => decide (field.1 ∈ names)) =
      fieldDocuments members := by
  refine List.filter_eq_self.mpr fun field hfield => decide_eq_true ?_
  obtain ⟨m, hm, rfl⟩ := List.mem_map.mp hfield
  exact h m hm

theorem record?_object (hkeys : (members.map Prod.fst).Sublist names) (hnames : names.Nodup) :
    (Json.object members).toDocument.record? names = some (.ofMembers members) := by
  have hknown : ∀ m ∈ members, m.1 ∈ names := fun m hm => hkeys.subset (List.mem_map_of_mem hm)
  refine Option.bind_eq_some_iff.mpr ⟨_, mapM_memberDocuments, ?_⟩
  have hfilter := filter_fieldDocuments hknown
  show (if (((fieldDocuments members).filter fun field => decide (field.1 ∈ names)).map
    Prod.fst).Nodup then some _ else none) = _
  rw [hfilter, map_fst_fieldDocuments, if_pos (hkeys.nodup hnames)]
  rfl

theorem lookup_ofMembers :
    (Record.ofMembers members).fields.lookup name = (members.lookup name).map toDocument :=
  lookup_map_snd toDocument members name

section Fields

variable {α : Type} {read : Document → Option α} {value : Json} {a : α}

theorem required?_ofMembers (h : members.lookup name = some value)
    (hread : read value.toDocument = some a) :
    (Record.ofMembers members).required? name read = some a := by
  unfold Record.required?
  rw [lookup_ofMembers, h]
  exact hread

theorem defaulted?_ofMembers (h : members.lookup name = some value)
    (hread : read value.toDocument = some a) (absent : α) :
    (Record.ofMembers members).defaulted? name read absent = some a := by
  unfold Record.defaulted?
  rw [lookup_ofMembers, h]
  exact hread

theorem defaulted?_ofMembers_of_absent (h : members.lookup name = none) (absent : α) :
    (Record.ofMembers members).defaulted? name read absent = some absent := by
  unfold Record.defaulted?
  rw [lookup_ofMembers, h]
  rfl

/-- Items that are each read back make a list that is read back. -/
theorem items?_array {encode : α → Json} {items : List α}
    (h : ∀ a ∈ items, read (encode a).toDocument = some a) :
    (Json.array (items.map encode)).toDocument.items? read = some items := by
  rw [toDocument, itemDocuments_eq_map, List.map_map, Document.items?]
  induction items with
  | nil => rfl
  | cons a rest ih =>
    obtain ⟨ha, hrest⟩ := List.forall_mem_cons.mp h
    rw [List.map_cons, List.mapM_cons, ih hrest, Function.comp_apply, ha]
    rfl

/-- Each item of a list that is read was read from a document. -/
theorem exists_of_mem_items? {d : Document} {items : List α} (h : d.items? read = some items) :
    ∀ a ∈ items, ∃ item, read item = some a := by
  cases d with
  | array documents =>
    replace h : documents.mapM read = some items := h
    induction documents generalizing items with
    | nil =>
      cases h
      exact fun a ha => nomatch ha
    | cons document rest ih =>
      rw [List.mapM_cons] at h
      obtain ⟨first, hfirst, h⟩ := Option.bind_eq_some_iff.mp h
      obtain ⟨others, hothers, h⟩ := Option.bind_eq_some_iff.mp h
      cases h
      exact List.forall_mem_cons.mpr ⟨⟨document, hfirst⟩, ih hothers⟩
  | _ => cases h

end Fields

end AdmissionGate.Json
