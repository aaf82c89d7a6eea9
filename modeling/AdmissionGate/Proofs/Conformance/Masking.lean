import AdmissionGate.Proofs.Conformance.Golden

/-!
# Proofs/Conformance/Masking — what masking changes, place by place

A path leads from a value to a place inside it.  Masking puts a mask at the outermost places that
are to be masked, and nothing is left inside them; at every other place the value shows what it
showed before, be it a scalar, the length of an array or the keys of an object.
-/

namespace AdmissionGate.Json

/-! ## 1. Places -/

/-- A step from a value to one inside it. -/
inductive Step where
  | member (key : String)
  | item (index : Nat)
deriving DecidableEq

/-- The value that a step leads to. -/
def step? : Step → Json → Option Json
  | .member key, v => v.get? key
  | .item i, .array items => items[i]?
  | .item _, _ => none

/-- The value at the end of a path. -/
def descend? : List Step → Json → Option Json
  | [], v => some v
  | step :: rest, v => (v.step? step).bind (descend? rest)

/-- What a value shows without the values inside it. -/
def surface : Json → Json
  | .array items => .array (items.map fun _ => .null)
  | .object members => .object (members.map fun m => (m.1, .null))
  | scalar => scalar

section

variable {v : Json} {step : Step} {path place : List Step} {key : String}

theorem descend?_append (path rest : List Step) (v : Json) :
    v.descend? (path ++ rest) = (v.descend? path).bind (descend? rest) := by
  induction path generalizing v with
  | nil => rfl
  | cons step path ih =>
    rw [List.cons_append, descend?, descend?, Option.bind_assoc]
    exact Option.bind_congr fun w _ => ih w

theorem descend?_concat (path : List Step) (key : String) (v : Json) :
    v.descend? (path ++ [.member key]) = (v.descend? path).bind (get? key) := by
  rw [descend?_append]
  exact Option.bind_congr fun w _ => Option.bind_fun_some (w.get? key)

/-- The surface of a value tells which keys it has. -/
theorem get?_surface (key : String) (v : Json) :
    v.surface.get? key = (v.get? key).map fun _ => .null := by
  cases v with
  | object members => exact lookup_map_snd (fun _ => Json.null) members key
  | _ => rfl

/-! ## 2. Masked times -/

theorem get?_maskTimes_of_isTimeKey (h : isTimeKey key = true) (v : Json) :
    v.maskTimes.get? key = (v.get? key).map fun _ => timeMask := by
  rw [get?_maskTimes_ite, h]
  rfl

theorem step?_maskTimes (h : ∀ key, step = .member key → isTimeKey key = false) (v : Json) :
    v.maskTimes.step? step = (v.step? step).map maskTimes := by
  cases step with
  | member key => exact get?_maskTimes (h key rfl) v
  | item i =>
    cases v with
    | array items =>
      show (maskItemTimes items)[i]? = items[i]?.map maskTimes
      rw [maskItemTimes_eq_map, List.getElem?_map]
    | _ => rfl

/-- Off the keys of times, masking times goes on inside a value. -/
theorem descend?_maskTimes (h : ∀ key, .member key ∈ path → isTimeKey key = false) (v : Json) :
    v.maskTimes.descend? path = (v.descend? path).map maskTimes := by
  induction path generalizing v with
  | nil => rfl
  | cons step rest ih =>
    have hstep : ∀ key, step = .member key → isTimeKey key = false := by
      rintro key rfl
      exact h key List.mem_cons_self
    rw [descend?, descend?, step?_maskTimes hstep, Option.bind_map, Option.map_bind]
    exact Option.bind_congr fun w _ => ih (fun key hkey => h key (List.mem_cons_of_mem _ hkey)) w

theorem surface_maskTimes (v : Json) : v.maskTimes.surface = v.surface := by
  cases v with
  | array items => rw [maskTimes, maskItemTimes_eq_map, surface, surface, List.map_map]; rfl
  | object members => rw [maskTimes, maskMemberTimes_eq_map, surface, surface, List.map_map]; rfl
  | _ => rfl

mutual

theorem maskTimes_maskTimes (v : Json) : v.maskTimes.maskTimes = v.maskTimes := by
  match v with
  | .null | .boolean _ | .number _ | .string _ => rfl
  | .array items => rw [maskTimes, maskTimes, maskItemTimes_maskItemTimes items]
  | .object members => rw [maskTimes, maskTimes, maskMemberTimes_maskMemberTimes members]

theorem maskItemTimes_maskItemTimes (items : List Json) :
    maskItemTimes (maskItemTimes items) = maskItemTimes items := by
  match items with
  | [] => rfl
  | item :: rest =>
    rw [maskItemTimes, maskItemTimes, maskTimes_maskTimes item, maskItemTimes_maskItemTimes rest]

theorem maskMemberTimes_maskMemberTimes (members : List (String × Json)) :
    maskMemberTimes (maskMemberTimes members) = maskMemberTimes members := by
  match members with
  | [] => rfl
  | (key, value) :: rest =>
    rw [maskMemberTimes, maskMemberTimes, maskMemberTimes_maskMemberTimes rest]
    cases isTimeKey key with
    | true => rfl
    | false => rw [if_neg Bool.false_ne_true, if_neg Bool.false_ne_true, maskTimes_maskTimes value]

end

/-! ## 3. The masked version -/

/-- An object with another value under a key, where it is present; other values as they are. -/
def updateAt (key : String) (update : Json → Json) : Json → Json
  | .object members => .object (updateMember key update members)
  | other => other

section UpdateAt

variable {update : Json → Json}

theorem get?_updateAt (k : String) (v : Json) : (v.updateAt key update).get? k =
    (v.get? k).map fun value => if k = key then update value else value := by
  cases v with
  | object members =>
    exact lookup_map_keyed (fun k value => if k = key then update value else value) members k
  | _ => rfl

theorem step?_updateAt_of_ne (h : step ≠ .member key) (v : Json) :
    (v.updateAt key update).step? step = v.step? step := by
  cases step with
  | member k =>
    have hne : k ≠ key := fun hk => h (congrArg Step.member hk)
    show (v.updateAt key update).get? k = v.get? k
    rw [get?_updateAt]
    simp only [if_neg hne]
    exact Option.map_id'
  | item i => cases v <;> rfl

theorem surface_updateAt (v : Json) : (v.updateAt key update).surface = v.surface := by
  cases v with
  | object members => rw [updateAt, updateMember, surface, surface, List.map_map]; rfl
  | _ => rfl

theorem updateAt_updateAt (h : ∀ value, update (update value) = update value) (v : Json) :
    (v.updateAt key update).updateAt key update = v.updateAt key update := by
  cases v with
  | object members =>
    rw [updateAt, updateAt, updateMember, updateMember, List.map_map]
    refine congrArg Json.object (List.map_congr_left fun m _ => ?_)
    by_cases hm : m.1 = key
    · simp only [Function.comp_apply, if_pos hm, h]
    · simp only [Function.comp_apply, if_neg hm]
  | _ => rfl

theorem updateAt_maskTimes (hkey : isTimeKey key = false)
    (h : ∀ value, update value.maskTimes = (update value).maskTimes) (v : Json) :
    v.maskTimes.updateAt key update = (v.updateAt key update).maskTimes := by
  cases v with
  | object members =>
    rw [maskTimes, updateAt, updateAt, maskTimes, maskMemberTimes_eq_map, maskMemberTimes_eq_map,
      updateMember, updateMember, List.map_map, List.map_map]
    refine congrArg Json.object (List.map_congr_left fun m _ => ?_)
    by_cases hm : m.1 = key
    · simp only [Function.comp_apply, hm, hkey, if_true, Bool.false_eq_true, if_false, h]
    · simp only [Function.comp_apply, if_neg hm]
  | _ => rfl

end UpdateAt

theorem maskToolVersion_eq (v : Json) :
    v.maskToolVersion = v.updateAt "version" fun _ => versionMask := by
  cases v <;> rfl

/-- Holds of values with all the keys by which receipts are known. -/
def HasReceiptKeys (v : Json) : Prop := ∀ key ∈ receiptKeys, (v.get? key).isSome = true

instance (v : Json) : Decidable v.HasReceiptKeys :=
  inferInstanceAs (Decidable (∀ key ∈ receiptKeys, (v.get? key).isSome = true))

theorem maskVersion_eq (v : Json) :
    v.maskVersion = if v.HasReceiptKeys then v.updateAt "tool" maskToolVersion else v := by
  cases v with
  | object members =>
    unfold maskVersion
    refine if_congr ?_ rfl rfl
    exact List.all_eq_true
  | _ => rfl

theorem hasReceiptKeys_congr {w : Json}
    (h : ∀ key ∈ receiptKeys, (v.get? key).isSome = (w.get? key).isSome) :
    v.HasReceiptKeys ↔ w.HasReceiptKeys :=
  forall₂_congr fun key hkey => by rw [h key hkey]

theorem hasReceiptKeys_maskTimes : v.maskTimes.HasReceiptKeys ↔ v.HasReceiptKeys := by
  refine hasReceiptKeys_congr fun key hkey => ?_
  rw [get?_maskTimes_ite, Option.isSome_map]

theorem hasReceiptKeys_updateAt {update : Json → Json} :
    (v.updateAt key update).HasReceiptKeys ↔ v.HasReceiptKeys := by
  refine hasReceiptKeys_congr fun key hkey => ?_
  rw [get?_updateAt, Option.isSome_map]

theorem maskToolVersion_maskTimes (v : Json) :
    v.maskTimes.maskToolVersion = v.maskToolVersion.maskTimes := by
  have hmask : versionMask.maskTimes = versionMask := rfl
  rw [maskToolVersion_eq, maskToolVersion_eq]
  exact updateAt_maskTimes (by decide) (fun _ => hmask.symm) v

theorem maskToolVersion_maskToolVersion (v : Json) :
    v.maskToolVersion.maskToolVersion = v.maskToolVersion := by
  rw [maskToolVersion_eq, maskToolVersion_eq]
  refine updateAt_updateAt ?_ v
  exact fun _ => rfl

theorem maskVersion_maskTimes (v : Json) : v.maskTimes.maskVersion = v.maskVersion.maskTimes := by
  rw [maskVersion_eq, maskVersion_eq]
  by_cases h : v.HasReceiptKeys
  · rw [if_pos (hasReceiptKeys_maskTimes.mpr h), if_pos h]
    exact updateAt_maskTimes (by decide) maskToolVersion_maskTimes v
  · rw [if_neg (mt hasReceiptKeys_maskTimes.mp h), if_neg h]

theorem maskVersion_maskVersion (v : Json) : v.maskVersion.maskVersion = v.maskVersion := by
  by_cases h : v.HasReceiptKeys
  · rw [maskVersion_eq v, if_pos h, maskVersion_eq, if_pos (hasReceiptKeys_updateAt.mpr h)]
    exact updateAt_updateAt maskToolVersion_maskToolVersion v
  · rw [maskVersion_eq v, if_neg h, maskVersion_eq, if_neg h]

/-- The two maskings do not get in each other's way: the keys by which a receipt is known, its tool
and the version are none of times. -/
theorem normalized_normalized (v : Json) : v.normalized.normalized = v.normalized := by
  unfold normalized
  rw [maskVersion_maskTimes, maskVersion_maskVersion, maskTimes_maskTimes]

/-! ## 4. Places with a mask -/

/-- Holds of the places that are to be masked, with their masks. -/
inductive Masked (v : Json) : List Step → Json → Prop where
  | time {path : List Step} {key : String} (h : key = "started_at" ∨ key = "finished_at") :
    Masked v (path ++ [.member key]) timeMask
  | version (h : v.HasReceiptKeys) : Masked v [.member "tool", .member "version"] versionMask

/-- Holds of paths that meet no place to be masked, their own end included. -/
def Untouched (v : Json) (path : List Step) : Prop :=
  ∀ place mask, v.Masked place mask → ¬ place <+: path

/-- Holds of the places to be masked that are not inside another one. -/
def Outermost (v : Json) (place : List Step) (mask : Json) : Prop :=
  v.Masked place mask ∧ ∀ outer mask', v.Masked outer mask' → outer <+: place → outer = place

theorem ne_nil_of_masked {mask : Json} (h : v.Masked place mask) : place ≠ [] := by
  cases h with
  | time => exact List.concat_ne_nil _ _
  | version => exact List.cons_ne_nil _ _

theorem untouched_iff : v.Untouched path ↔
    (∀ step ∈ path, step ≠ .member "started_at" ∧ step ≠ .member "finished_at") ∧
      ¬ (v.HasReceiptKeys ∧ [.member "tool", .member "version"] <+: path) := by
  constructor
  · intro h
    -- Up to a time key, the path is itself a place to be masked.
    have htime {key : String} (hkey : key = "started_at" ∨ key = "finished_at") :
        .member key ∉ path := by
      intro hmem
      obtain ⟨before, after, rfl⟩ := List.append_of_mem hmem
      exact h _ _ (.time hkey) ⟨after, List.append_assoc _ _ _⟩
    refine ⟨fun step hstep => ⟨?_, ?_⟩, fun hversion => h _ _ (.version hversion.1) hversion.2⟩
    · rintro rfl
      exact htime (.inl rfl) hstep
    · rintro rfl
      exact htime (.inr rfl) hstep
  · rintro ⟨htime, hversion⟩ place mask hmasked hinside
    cases hmasked with
    | @time before key hkey =>
      have hmem : .member key ∈ path :=
        hinside.subset (List.mem_append_right before (List.mem_singleton_self _))
      rcases hkey with rfl | rfl
      · exact (htime _ hmem).1 rfl
      · exact (htime _ hmem).2 rfl
    | version hkeys => exact hversion ⟨hkeys, hinside⟩

/-- A place is outermost when nothing on the way to it is to be masked. -/
theorem outermost_concat_iff {mask : Json} :
    v.Outermost (path ++ [step]) mask ↔ v.Masked (path ++ [step]) mask ∧ v.Untouched path := by
  refine and_congr_right fun _ => ⟨fun h outer mask' houter hinside => ?_,
    fun h outer mask' houter hinside => ?_⟩
  · have heq := h outer mask' houter (hinside.trans (List.prefix_append path [step]))
    have hlength := hinside.length_le
    rw [heq, List.length_append] at hlength
    exact absurd hlength (Nat.not_succ_le_self _)
  · exact (List.prefix_concat_iff.mp hinside).resolve_right (h outer mask' houter)

theorem untouched_or_outermost (v : Json) (path : List Step) :
    v.Untouched path ∨ ∃ place mask rest, path = place ++ rest ∧ v.Outermost place mask := by
  -- From the root on, the first place to be masked that the path meets is an outermost one.
  induction path using List.reverseRecOn with
  | nil => exact .inl fun place mask hmasked hinside =>
      ne_nil_of_masked hmasked (List.prefix_nil.mp hinside)
  | append_singleton path step ih =>
    rcases ih with huntouched | ⟨place, mask, rest, rfl, houtermost⟩
    · by_cases hmasked : ∃ mask, v.Masked (path ++ [step]) mask
      · obtain ⟨mask, hmasked⟩ := hmasked
        exact .inr ⟨_, mask, [], (List.append_nil _).symm,
          outermost_concat_iff.mpr ⟨hmasked, huntouched⟩⟩
      · refine .inl fun place mask hplace hinside => ?_
        rcases List.prefix_concat_iff.mp hinside with rfl | hinside
        · exact hmasked ⟨mask, hplace⟩
        · exact huntouched place mask hplace hinside
    · exact .inr ⟨place, mask, rest ++ [step], List.append_assoc _ _ _, houtermost⟩

/-! ## 5. What masking does at a place -/

theorem isTimeKey_iff : isTimeKey key = true ↔ key = "started_at" ∨ key = "finished_at" := by
  unfold isTimeKey
  rw [Bool.or_eq_true, beq_iff_eq, beq_iff_eq]

theorem isTimeKey_of_untouched (h : v.Untouched path) :
    ∀ key, .member key ∈ path → isTimeKey key = false := by
  intro key hmem
  obtain ⟨hstarted, hfinished⟩ := (untouched_iff.mp h).1 _ hmem
  rw [← Bool.not_eq_true, isTimeKey_iff, not_or]
  exact ⟨fun hkey => hstarted (congrArg _ hkey), fun hkey => hfinished (congrArg _ hkey)⟩

theorem surface_descend?_maskToolVersion (h : ¬ [.member "version"] <+: path) (v : Json) :
    (v.maskToolVersion.descend? path).map surface = (v.descend? path).map surface := by
  rw [maskToolVersion_eq]
  cases path with
  | nil => exact congrArg some (surface_updateAt v)
  | cons step rest =>
    have hne : step ≠ .member "version" := by
      rintro rfl
      exact h (List.prefix_append [.member "version"] rest)
    rw [descend?, descend?, step?_updateAt_of_ne hne]

theorem surface_descend?_maskVersion
    (h : v.HasReceiptKeys → ¬ [.member "tool", .member "version"] <+: path) :
    (v.maskVersion.descend? path).map surface = (v.descend? path).map surface := by
  rw [maskVersion_eq]
  by_cases hkeys : v.HasReceiptKeys
  -- Of the members of a receipt only the tool is changed.
  · rw [if_pos hkeys]
    cases path with
    | nil => exact congrArg some (surface_updateAt v)
    | cons step rest =>
      by_cases htool : step = .member "tool"
      · subst htool
        have hrest : ¬ [.member "version"] <+: rest :=
          fun hinside => h hkeys (List.cons_prefix_cons.mpr ⟨rfl, hinside⟩)
        show (((v.updateAt "tool" maskToolVersion).get? "tool").bind (descend? rest)).map surface =
          ((v.get? "tool").bind (descend? rest)).map surface
        rw [get?_updateAt]
        cases v.get? "tool" with
        | none => rfl
        | some tool => exact surface_descend?_maskToolVersion hrest tool
      · rw [descend?, descend?, step?_updateAt_of_ne htool]
  · rw [if_neg hkeys]

theorem surface_of_untouched (h : v.Untouched path) :
    (v.normalized.descend? path).map surface = (v.descend? path).map surface := by
  unfold normalized
  have hsurface : surface ∘ maskTimes = surface := funext surface_maskTimes
  rw [descend?_maskTimes (isTimeKey_of_untouched h), Option.map_map, hsurface]
  exact surface_descend?_maskVersion fun hkeys => h _ _ (.version hkeys)

/-- What a place has under a key is there or not by what the place shows. -/
theorem bind_get?_of_surface {a b : Option Json} (h : a.map surface = b.map surface)
    (key : String) {β : Type} (f : Option β) :
    ((a.bind (get? key)).bind fun _ => f) = (b.bind (get? key)).bind fun _ => f := by
  have hshown (o : Option Json) : ((o.bind (get? key)).bind fun _ => f) =
      ((o.map surface).bind (get? key)).bind fun _ => f := by
    cases o with
    | none => rfl
    | some w =>
      show ((w.get? key).bind fun _ => f) = (w.surface.get? key).bind fun _ => f
      rw [get?_surface]
      cases w.get? key <;> rfl
  rw [hshown a, hshown b, h]

theorem descend?_time (h : key = "started_at" ∨ key = "finished_at")
    (hpath : v.Untouched path) : v.normalized.descend? (path ++ [.member key]) =
      ((v.maskVersion.descend? path).bind (get? key)).map fun _ => timeMask := by
  rw [descend?_concat]
  unfold normalized
  rw [descend?_maskTimes (isTimeKey_of_untouched hpath), Option.bind_map, Option.map_bind]
  exact Option.bind_congr fun w _ => get?_maskTimes_of_isTimeKey (isTimeKey_iff.mpr h) w

theorem descend?_version (h : v.HasReceiptKeys) :
    v.normalized.descend? [.member "tool", .member "version"] =
      (v.descend? [.member "tool", .member "version"]).map fun _ => versionMask := by
  have htool : isTimeKey "tool" = false := by decide
  have hversion : isTimeKey "version" = false := by decide
  have hpair (w : Json) : w.descend? [.member "tool", .member "version"] =
      (w.get? "tool").bind (get? "version") :=
    Option.bind_congr fun t _ => Option.bind_fun_some (t.get? "version")
  rw [hpair, hpair]
  unfold normalized
  rw [get?_maskTimes htool, maskVersion_eq, if_pos h, get?_updateAt]
  cases v.get? "tool" with
  | none => rfl
  | some tool =>
    show tool.maskToolVersion.maskTimes.get? "version" = (tool.get? "version").map _
    rw [get?_maskTimes hversion, maskToolVersion_eq, get?_updateAt, Option.map_map]
    rfl

/-- An outermost place holds its mask, if there is such a place, and only its mask. -/
theorem descend?_of_outermost {mask : Json} (h : v.Outermost place mask) (rest : List Step) :
    v.normalized.descend? (place ++ rest) =
      (v.descend? place).bind fun _ => mask.descend? rest := by
  rw [descend?_append]
  cases h.1 with
  | @time path key hkey =>
    have hpath := (outermost_concat_iff.mp h).2
    -- Masking the version may change what lies at the path, though not which keys it has.
    have hsurface := surface_descend?_maskVersion fun hkeys => hpath _ _ (.version hkeys)
    rw [descend?_time hkey hpath, Option.bind_map, descend?_concat]
    exact bind_get?_of_surface hsurface key (timeMask.descend? rest)
  | version hkeys =>
    rw [descend?_version hkeys, Option.bind_map]
    rfl

end

/-- Masking changes a value at the outermost of the places to be masked, each of which gets its
mask, and leaves what all others show; every path meets one of these places or none.  Masking again
changes nothing. -/
theorem normalized_changes_masked_places (v : Json) :
    (∀ path, v.Untouched path →
      (v.normalized.descend? path).map surface = (v.descend? path).map surface) ∧
    (∀ place mask, v.Outermost place mask → ∀ rest,
      v.normalized.descend? (place ++ rest) =
        (v.descend? place).bind fun _ => mask.descend? rest) ∧
    (∀ path, v.Untouched path ∨
      ∃ place mask rest, path = place ++ rest ∧ v.Outermost place mask) ∧
    v.normalized.normalized = v.normalized :=
  ⟨fun _ => surface_of_untouched, fun _ _ => descend?_of_outermost, untouched_or_outermost v,
    normalized_normalized v⟩

/-- An object with the keys of a receipt, whose tool has a time among its members. -/
def timedReceipt (data : Json) : Json :=
  .object [("data", data), ("failed_predicates", .array []), ("findings", .array []),
    ("schema", .null), ("tool", .object [("started_at", .array [.null]), ("version", .string "1")]),
    ("verdict", .null)]

/-- A receipt with another one in its data. -/
def nestedReceipt : Json := timedReceipt (.array [timedReceipt .null])

/-- The times of the inner receipt are masked, its version is not. -/
theorem inner_receipt_keeps_version :
    (nestedReceipt.Untouched [.member "data", .item 0, .member "tool", .member "version"] ∧
      nestedReceipt.Outermost [.member "tool", .member "version"] versionMask ∧
      nestedReceipt.Outermost [.member "data", .item 0, .member "tool", .member "started_at"]
        timeMask) ∧
    (nestedReceipt.normalized.descend? [.member "data", .item 0, .member "tool",
      .member "version"]).map surface = some (.string "1") ∧
    nestedReceipt.normalized.descend? [.member "tool", .member "version"] = some versionMask ∧
    nestedReceipt.normalized.descend? [.member "data", .item 0, .member "tool",
      .member "started_at"] = some timeMask := by
  obtain ⟨hshown, hmasked, _⟩ := normalized_changes_masked_places nestedReceipt
  have hinner : nestedReceipt.Untouched
      [.member "data", .item 0, .member "tool", .member "version"] :=
    untouched_iff.mpr (by decide)
  have hversion : nestedReceipt.Outermost ([.member "tool"] ++ [.member "version"]) versionMask :=
    outermost_concat_iff.mpr ⟨.version (by decide), untouched_iff.mpr (by decide)⟩
  have htime : nestedReceipt.Outermost
      ([.member "data", .item 0, .member "tool"] ++ [.member "started_at"]) timeMask :=
    outermost_concat_iff.mpr ⟨.time (.inl rfl), untouched_iff.mpr (by decide)⟩
  exact ⟨⟨hinner, hversion, htime⟩, hshown _ hinner, hmasked _ _ hversion [], hmasked _ _ htime []⟩

end AdmissionGate.Json
