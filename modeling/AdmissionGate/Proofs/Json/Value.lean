import AdmissionGate.Proofs.Json.Document

/-!
# Proofs/Json/Value — documents as free-form values

Sorting leaves members in key order alone, so a value whose keys are in order is read back as it
is, provided it is not nested too deep.  What is read has its keys in order and keeps to the limit.
-/

namespace AdmissionGate.Json

/-! ## Members in key order -/

section Members

variable {key : String} {value : Json} {m : String × Json} {members : List (String × Json)}

theorem mem_insertMember (h : m ∈ insertMember key value members) :
    m = (key, value) ∨ m ∈ members := by
  induction members with
  | nil => exact .inl (List.mem_singleton.mp h)
  | cons first rest ih =>
    unfold insertMember at h
    split_ifs at h
    · exact List.mem_cons.mp h
    · exact (List.mem_cons.mp h).imp_right (List.mem_cons_of_mem first)
    · rcases List.mem_cons.mp h with rfl | h
      · exact .inr List.mem_cons_self
      · exact (ih h).imp_right (List.mem_cons_of_mem first)

theorem increasing_insertMember (h : (members.map Prod.fst).Pairwise (· < ·)) :
    ((insertMember key value members).map Prod.fst).Pairwise (· < ·) := by
  induction members with
  | nil => exact List.pairwise_singleton _ _
  | cons first rest ih =>
    obtain ⟨k, v⟩ := first
    obtain ⟨hk, hrest⟩ := List.pairwise_cons.mp h
    unfold insertMember
    split_ifs with hlt heq
    · refine List.pairwise_cons.mpr ⟨fun x hx => ?_, h⟩
      rcases List.mem_cons.mp hx with rfl | hx
      · exact hlt
      · exact String.lt_trans hlt (hk x hx)
    · rw [heq]
      exact h
    · refine List.pairwise_cons.mpr ⟨fun x hx => ?_, ih hrest⟩
      obtain ⟨m, hm, rfl⟩ := List.mem_map.mp hx
      -- The key that is put in comes after the first one, being neither below nor equal.
      rcases mem_insertMember hm with rfl | hm
      · exact Decidable.byContradiction fun hge =>
          heq (String.le_antisymm (String.not_lt.mp hge) (String.not_lt.mp hlt))
      · exact hk m.1 (List.mem_map_of_mem hm)

/-- A member whose key comes after all others is put last. -/
theorem insertMember_eq_append (h : ∀ m ∈ members, m.1 < key) :
    insertMember key value members = members ++ [(key, value)] := by
  induction members with
  | nil => rfl
  | cons first rest ih =>
    obtain ⟨hfirst, hrest⟩ := List.forall_mem_cons.mp h
    have hlt : ¬ key < first.1 := fun hlt => String.lt_irrefl _ (String.lt_trans hlt hfirst)
    have hne : key ≠ first.1 := by
      rintro rfl
      exact String.lt_irrefl _ hfirst
    unfold insertMember
    rw [if_neg hlt, if_neg hne, ih hrest, List.cons_append]

theorem sortMembers_ind {motive : List (String × Json) → Prop} (hnil : motive [])
    (hinsert : ∀ m ∈ members, ∀ sorted, motive sorted → motive (insertMember m.1 m.2 sorted)) :
    motive (sortMembers members) := by
  unfold sortMembers
  refine List.foldlRecOn members _ hnil fun sorted hsorted m hm => ?_
  exact hinsert m hm sorted hsorted

theorem mem_sortMembers (h : m ∈ sortMembers members) : m ∈ members := by
  have hall : ∀ m ∈ sortMembers members, m ∈ members := by
    refine sortMembers_ind (motive := fun sorted => ∀ m ∈ sorted, m ∈ members)
      (fun _ h => nomatch h) fun member hmember sorted ih m hm => ?_
    rcases mem_insertMember hm with rfl | hm
    · exact hmember
    · exact ih m hm
  exact hall m h

theorem increasing_sortMembers : ((sortMembers members).map Prod.fst).Pairwise (· < ·) :=
  sortMembers_ind (motive := fun sorted => (sorted.map Prod.fst).Pairwise (· < ·)) .nil
    fun _ _ _ => increasing_insertMember

/-- Members in key order stay as they are. -/
theorem sortMembers_eq_self (h : (members.map Prod.fst).Pairwise (· < ·)) :
    sortMembers members = members := by
  have hfold (sorted : List (String × Json))
      (h : ((sorted ++ members).map Prod.fst).Pairwise (· < ·)) :
      members.foldl (fun sorted m => insertMember m.1 m.2 sorted) sorted = sorted ++ members := by
    clear * - h
    induction members generalizing sorted with
    | nil => rw [List.append_nil, List.foldl_nil]
    | cons m rest ih =>
      -- What was put in so far comes before all that is left.
      have hbefore : ∀ n ∈ sorted, n.1 < m.1 := by
        rw [List.map_append, List.map_cons] at h
        intro n hn
        exact (List.pairwise_append.mp h).2.2 _ (List.mem_map_of_mem hn) _ List.mem_cons_self
      rw [List.append_cons] at h
      rw [List.foldl_cons, insertMember_eq_append hbefore, ih _ h, ← List.append_cons]
  exact hfold [] h

theorem lookup_cons_ite {α : Type} (k : String) (m : String × α) (rest : List (String × α)) :
    (m :: rest).lookup k = if k = m.1 then some m.2 else rest.lookup k := by
  rw [List.lookup_cons]
  by_cases h : k = m.1
  · rw [if_pos h, beq_iff_eq.mpr h]
  · rw [if_neg h, beq_eq_false_iff_ne.mpr h]

theorem lookup_map_keyed {α β : Type} (f : String → α → β) (members : List (String × α))
    (k : String) :
    (members.map fun m => (m.1, f m.1 m.2)).lookup k = (members.lookup k).map (f k) := by
  induction members with
  | nil => rfl
  | cons m rest ih =>
    rw [List.map_cons, lookup_cons_ite, lookup_cons_ite, ih]
    by_cases h : k = m.1
    · rw [if_pos h, if_pos h, ← h]
      rfl
    · rw [if_neg h, if_neg h]

theorem lookup_map_snd {α β : Type} (f : α → β) (members : List (String × α)) (k : String) :
    (members.map fun m => (m.1, f m.2)).lookup k = (members.lookup k).map f :=
  lookup_map_keyed (fun _ => f) members k

theorem lookup_insertMember (k : String) :
    (insertMember key value members).lookup k =
      if k = key then some value else members.lookup k := by
  induction members with
  | nil => exact lookup_cons_ite k (key, value) []
  | cons first rest ih =>
    unfold insertMember
    by_cases hlt : key < first.1
    · rw [if_pos hlt]
      exact lookup_cons_ite k (key, value) (first :: rest)
    rw [if_neg hlt, lookup_cons_ite k first rest]
    by_cases heq : key = first.1
    · rw [if_pos heq, lookup_cons_ite, ← heq]
      split_ifs <;> rfl
    · rw [if_neg heq, lookup_cons_ite, ih]
      by_cases hk : k = key
      · rw [hk, if_neg heq, if_pos rfl, if_pos rfl]
      · rw [if_neg hk, if_neg hk]

/-- Sorting keeps the value under each key, where no key stands twice. -/
theorem lookup_sortMembers (h : (members.map Prod.fst).Nodup) (k : String) :
    (sortMembers members).lookup k = members.lookup k := by
  -- Members are put one by one into others, so the induction is for any that are there already.
  have hfold (sorted : List (String × Json)) :
      (members.foldl (fun sorted m => insertMember m.1 m.2 sorted) sorted).lookup k =
        (members.lookup k).or (sorted.lookup k) := by
    induction members generalizing sorted with
    | nil => rfl
    | cons m rest ih =>
      obtain ⟨hfirst, hrest⟩ := List.nodup_cons.mp h
      rw [List.foldl_cons, ih hrest, lookup_insertMember, lookup_cons_ite]
      by_cases hk : k = m.1
      · have hnone : rest.lookup k = none := by
          refine List.lookup_eq_none_iff.mpr fun n hn => bne_iff_ne.mpr fun heq => hfirst ?_
          rw [← hk, heq]
          exact List.mem_map_of_mem hn
        rw [if_pos hk, if_pos hk, hnone]
        rfl
      · rw [if_neg hk, if_neg hk]
  exact (hfold []).trans Option.or_none

end Members

/-! ## Values in key order -/

theorem membersOrdered_iff {members : List (String × Json)} :
    MembersOrdered members ↔ ∀ m ∈ members, m.2.Ordered := by
  induction members with
  | nil => exact iff_of_true trivial fun _ h => nomatch h
  | cons m rest ih => rw [MembersOrdered, List.forall_mem_cons, ih]

mutual

theorem sorted_eq_self (v : Json) (h : v.Ordered) : v.sorted = v := by
  match v with
  | .null | .boolean _ | .number _ | .string _ => rfl
  | .array items => rw [sorted, sortedItems_eq_self items h]
  | .object members =>
    rw [sorted, sortedMembers_eq_self members h.2, sortMembers_eq_self h.1]

theorem sortedItems_eq_self (items : List Json) (h : ItemsOrdered items) :
    sortedItems items = items := by
  match items with
  | [] => rfl
  | item :: rest => rw [sortedItems, sorted_eq_self item h.1, sortedItems_eq_self rest h.2]

theorem sortedMembers_eq_self (members : List (String × Json)) (h : MembersOrdered members) :
    sortedMembers members = members := by
  match members with
  | [] => rfl
  | (key, value) :: rest =>
    rw [sortedMembers, sorted_eq_self value h.1, sortedMembers_eq_self rest h.2]

end

theorem sortedItems_eq_map (items : List Json) : sortedItems items = items.map sorted := by
  induction items with
  | nil => rfl
  | cons item rest ih => rw [sortedItems, ih, List.map_cons]

/-- Sorting an object sorts the value under each of its keys. -/
theorem get?_sorted {members : List (String × Json)} (h : (members.map Prod.fst).Nodup)
    (key : String) : (Json.object members).sorted.get? key = (members.lookup key).map sorted := by
  have hmap : sortedMembers members = members.map fun m => (m.1, m.2.sorted) := by
    clear h
    induction members with
    | nil => rfl
    | cons m rest ih => rw [sortedMembers, ih, List.map_cons]
  have hkeys : ((sortedMembers members).map Prod.fst).Nodup := by
    rw [hmap, List.map_map]
    exact h
  have hlookup : (sortedMembers members).lookup key = (members.lookup key).map sorted := by
    rw [hmap]
    exact lookup_map_snd sorted members key
  exact (lookup_sortMembers hkeys key).trans hlookup

/-! ## Nesting -/

mutual

/-- How many arrays and objects lie one in another, at most. -/
def depth : Json → Nat
  | .array items => itemsDepth items + 1
  | .object members => membersDepth members + 1
  | _ => 0

def itemsDepth : List Json → Nat
  | [] => 0
  | item :: rest => max item.depth (itemsDepth rest)

def membersDepth : List (String × Json) → Nat
  | [] => 0
  | (_, value) :: rest => max value.depth (membersDepth rest)

end

theorem membersDepth_le_iff {members : List (String × Json)} {room : Nat} :
    membersDepth members ≤ room ↔ ∀ m ∈ members, m.2.depth ≤ room := by
  induction members with
  | nil => exact iff_of_true (Nat.zero_le _) fun _ h => nomatch h
  | cons m rest ih => rw [membersDepth, Nat.max_le, List.forall_mem_cons, ih]

/-! ## Reading back -/

mutual

/-- The document of a value that is not nested too deep reads as that value, sorted. -/
theorem ofDocument?_toDocument (v : Json) {room : Nat} (h : v.depth ≤ room) :
    ofDocument? room v.toDocument = some v.sorted := by
  match v with
  | .null | .boolean _ | .string _ =>
    cases room <;> rfl
  | .number n =>
    rw [toDocument, ofDocument?, toNumber?_numeral]
    rfl
  | .array items =>
    obtain ⟨room, rfl⟩ : ∃ k, room = k + 1 := ⟨room - 1, by rw [depth] at h; omega⟩
    rw [toDocument, ofDocument?, itemsOfDocuments?_itemDocuments items (Nat.le_of_succ_le_succ h)]
    rfl
  | .object members =>
    obtain ⟨room, rfl⟩ : ∃ k, room = k + 1 := ⟨room - 1, by rw [depth] at h; omega⟩
    rw [toDocument, ofDocument?,
      membersOfDocuments?_memberDocuments members (Nat.le_of_succ_le_succ h)]
    rfl

theorem itemsOfDocuments?_itemDocuments (items : List Json) {room : Nat}
    (h : itemsDepth items ≤ room) :
    itemsOfDocuments? room (itemDocuments items) = some (sortedItems items) := by
  match items with
  | [] => rfl
  | item :: rest =>
    obtain ⟨hitem, hrest⟩ := Nat.max_le.mp h
    rw [itemDocuments, itemsOfDocuments?, ofDocument?_toDocument item hitem,
      itemsOfDocuments?_itemDocuments rest hrest]
    rfl

theorem membersOfDocuments?_memberDocuments (members : List (String × Json)) {room : Nat}
    (h : membersDepth members ≤ room) :
    membersOfDocuments? room (memberDocuments members) = some (sortedMembers members) := by
  match members with
  | [] => rfl
  | (key, value) :: rest =>
    obtain ⟨hvalue, hrest⟩ := Nat.max_le.mp h
    rw [memberDocuments, membersOfDocuments?, ofDocument?_toDocument value hvalue,
      membersOfDocuments?_memberDocuments rest hrest]
    rfl

end

theorem ofDocument?_toDocument_of_ordered {v : Json} {room : Nat} (hordered : v.Ordered)
    (hdepth : v.depth ≤ room) : ofDocument? room v.toDocument = some v := by
  rw [ofDocument?_toDocument v hdepth, sorted_eq_self v hordered]

/-! ## What is read -/

mutual

/-- A value that is read has its keys in order and keeps to the nesting there was room for. -/
theorem ordered_of_ofDocument? (d : Document) {room : Nat} {v : Json}
    (h : ofDocument? room d = some v) : v.Ordered ∧ v.depth ≤ room := by
  match d with
  | .null | .boolean _ =>
    cases room <;> (cases h; exact ⟨trivial, Nat.zero_le _⟩)
  | .number n =>
    obtain ⟨number, _, rfl⟩ := Option.map_eq_some_iff.mp h
    exact ⟨trivial, Nat.zero_le _⟩
  | .string s =>
    obtain ⟨text, _, rfl⟩ := Option.map_eq_some_iff.mp h
    exact ⟨trivial, Nat.zero_le _⟩
  | .array items =>
    cases room with
    | zero => cases h
    | succ room =>
      obtain ⟨values, hvalues, rfl⟩ := Option.map_eq_some_iff.mp h
      obtain ⟨hordered, hdepth⟩ := ordered_of_itemsOfDocuments? items hvalues
      exact ⟨hordered, Nat.succ_le_succ hdepth⟩
  | .object members =>
    cases room with
    | zero => cases h
    | succ room =>
      obtain ⟨values, hvalues, rfl⟩ := Option.map_eq_some_iff.mp h
      obtain ⟨hordered, hdepth⟩ := ordered_of_membersOfDocuments? members hvalues
      -- Members are put in order as they are read, in whatever order they stand.
      refine ⟨⟨increasing_sortMembers, membersOrdered_iff.mpr fun m hm => ?_⟩,
        Nat.succ_le_succ (membersDepth_le_iff.mpr fun m hm => ?_)⟩
      · exact membersOrdered_iff.mp hordered m (mem_sortMembers hm)
      · exact membersDepth_le_iff.mp hdepth m (mem_sortMembers hm)

theorem ordered_of_itemsOfDocuments? (items : List Document) {room : Nat} {values : List Json}
    (h : itemsOfDocuments? room items = some values) :
    ItemsOrdered values ∧ itemsDepth values ≤ room := by
  match items with
  | [] =>
    cases h
    exact ⟨trivial, Nat.zero_le _⟩
  | item :: rest =>
    obtain ⟨value, hvalue, h⟩ := Option.bind_eq_some_iff.mp h
    obtain ⟨values, hvalues, h⟩ := Option.bind_eq_some_iff.mp h
    cases h
    obtain ⟨hordered, hdepth⟩ := ordered_of_ofDocument? item hvalue
    obtain ⟨hordereds, hdepths⟩ := ordered_of_itemsOfDocuments? rest hvalues
    exact ⟨⟨hordered, hordereds⟩, Nat.max_le.mpr ⟨hdepth, hdepths⟩⟩

theorem ordered_of_membersOfDocuments? (members : List (Option String × Document)) {room : Nat}
    {values : List (String × Json)} (h : membersOfDocuments? room members = some values) :
    MembersOrdered values ∧ membersDepth values ≤ room := by
  match members with
  | [] =>
    cases h
    exact ⟨trivial, Nat.zero_le _⟩
  | (key, member) :: rest =>
    obtain ⟨key, _, h⟩ := Option.bind_eq_some_iff.mp h
    obtain ⟨value, hvalue, h⟩ := Option.bind_eq_some_iff.mp h
    obtain ⟨values, hvalues, h⟩ := Option.bind_eq_some_iff.mp h
    cases h
    obtain ⟨hordered, hdepth⟩ := ordered_of_ofDocument? member hvalue
    obtain ⟨hordereds, hdepths⟩ := ordered_of_membersOfDocuments? rest hvalues
    exact ⟨⟨hordered, hordereds⟩, Nat.max_le.mpr ⟨hdepth, hdepths⟩⟩

end

end AdmissionGate.Json
