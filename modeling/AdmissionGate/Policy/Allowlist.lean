/-!
# Policy/Allowlist — sets of names

An allowlist is a finite set of strings, kept in increasing order without repetition.  Names match
character for character.
-/

namespace AdmissionGate

/-- A finite set of names. -/
structure Allowlist where
  names : List String
  increasing : names.Pairwise (· < ·)
deriving DecidableEq

namespace Allowlist

instance : Membership String Allowlist := ⟨fun list name => name ∈ list.names⟩

instance (name : String) (list : Allowlist) : Decidable (name ∈ list) :=
  inferInstanceAs (Decidable (name ∈ list.names))

instance : HasSubset Allowlist := ⟨fun a b => ∀ name, name ∈ a → name ∈ b⟩

def empty : Allowlist := ⟨[], .nil⟩

instance : Inhabited Allowlist := ⟨empty⟩

/-- Puts a name into an increasing list, where it is not there yet. -/
def insertName (name : String) : List String → List String
  | [] => [name]
  | n :: rest =>
    if name < n then name :: n :: rest
    else if name = n then n :: rest
    else n :: insertName name rest

/-- Insertion adds the name and nothing else. -/
theorem mem_insertName {name x : String} {names : List String} :
    x ∈ insertName name names ↔ x = name ∨ x ∈ names := by
  induction names with
  | nil => simp [insertName]
  | cons n rest ih =>
    by_cases hlt : name < n
    · simp [insertName, hlt]
    · by_cases heq : name = n
      · subst heq
        rw [insertName, if_neg hlt, if_pos rfl]
        simp
      · simp only [insertName, hlt, heq, if_false, List.mem_cons, ih]
        constructor <;> rintro (h | h | h) <;> simp [h]

/-- Insertion keeps a list increasing, since a name goes before the first larger one. -/
theorem increasing_insertName {name : String} {names : List String}
    (h : names.Pairwise (· < ·)) : (insertName name names).Pairwise (· < ·) := by
  induction names with
  | nil => simp [insertName]
  | cons n rest ih =>
    have ⟨hn, hrest⟩ := List.pairwise_cons.1 h
    by_cases hlt : name < n
    · simp only [insertName, hlt, if_true]
      refine List.pairwise_cons.2 ⟨fun x hx => ?_, h⟩
      rcases List.mem_cons.1 hx with rfl | hx
      · exact hlt
      · exact String.lt_trans hlt (hn x hx)
    · by_cases heq : name = n
      · simpa [insertName, hlt, heq] using h
      · simp only [insertName, hlt, heq, if_false]
        refine List.pairwise_cons.2 ⟨fun x hx => ?_, ih hrest⟩
        rcases mem_insertName.1 hx with rfl | hx
        · exact Decidable.byContradiction fun hge =>
            heq (String.le_antisymm (String.not_lt.1 hge) (String.not_lt.1 hlt))
        · exact hn x hx

def insert (name : String) (list : Allowlist) : Allowlist :=
  ⟨insertName name list.names, increasing_insertName list.increasing⟩

/-- The set of the names in a list; their order and repetitions do not matter. -/
def ofList (names : List String) : Allowlist :=
  names.foldl (fun list name => list.insert name) empty

/-- A set with a name added has that name and those it had. -/
theorem mem_insert {name x : String} {list : Allowlist} :
    x ∈ list.insert name ↔ x = name ∨ x ∈ list :=
  mem_insertName

theorem not_mem_empty {x : String} : ¬ x ∈ empty := by
  intro h
  cases (h : x ∈ ([] : List String))

/-- The set of a list has the names of the list and no others. -/
theorem mem_ofList {names : List String} {x : String} : x ∈ ofList names ↔ x ∈ names := by
  have hfold : ∀ list : Allowlist,
      x ∈ names.foldl (fun list name => list.insert name) list ↔ x ∈ names ∨ x ∈ list := by
    induction names with
    | nil => simp
    | cons name rest ih =>
      intro list
      rw [List.foldl_cons, ih, mem_insert, List.mem_cons]
      constructor
      · rintro (h | h | h)
        · exact .inl (.inr h)
        · exact .inl (.inl h)
        · exact .inr h
      · rintro ((h | h) | h)
        · exact .inr (.inl h)
        · exact .inl h
        · exact .inr (.inr h)
  rw [ofList, hfold]
  exact or_iff_left not_mem_empty

theorem nodup_of_increasing {names : List String} (h : names.Pairwise (· < ·)) : names.Nodup := by
  apply h.imp
  intro a b hlt heq
  rw [heq] at hlt
  exact String.lt_irrefl b hlt

/-- Sets with the same names are the same set, since the order of the names is fixed. -/
theorem ext {a b : Allowlist} (h : ∀ x, x ∈ a ↔ x ∈ b) : a = b := by
  obtain ⟨as, ha⟩ := a
  obtain ⟨bs, hb⟩ := b
  have hperm : as.Perm bs :=
    (List.perm_ext_iff_of_nodup (nodup_of_increasing ha) (nodup_of_increasing hb)).mpr h
  have heq : as = bs := hperm.eq_of_pairwise
    (fun x y _ _ hxy hyx => absurd (String.lt_trans hxy hyx) (String.lt_irrefl x)) ha hb
  subst heq
  rfl

/-- Neither the order nor the repetitions in a list matter to its set. -/
theorem ofList_congr {names names' : List String} (h : ∀ x, x ∈ names ↔ x ∈ names') :
    ofList names = ofList names' := by
  apply ext
  intro x
  rw [mem_ofList, mem_ofList, h x]

end Allowlist

end AdmissionGate
