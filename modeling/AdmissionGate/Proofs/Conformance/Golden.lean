import AdmissionGate.Conformance.Fixture
import AdmissionGate.Proofs.Check
import AdmissionGate.Proofs.Consistency

/-!
# Proofs/Conformance/Golden — what the comparison with a recorded receipt sees

Masking keeps the value under every other key, so the fields of a receipt can be told from its
masked form, and from nothing in it its times or the version of the tool.  The data of findings come
out of it unchanged as long as no key in them is that of a time; those of an evaluation are such.
-/

namespace AdmissionGate

/-! ## 1. Masked times -/

namespace Json

theorem maskItemTimes_eq_map (items : List Json) : maskItemTimes items = items.map maskTimes := by
  induction items with
  | nil => rfl
  | cons item rest ih => rw [maskItemTimes, ih, List.map_cons]

theorem maskMemberTimes_eq_map (members : List (String × Json)) :
    maskMemberTimes members =
      members.map fun m => (m.1, if isTimeKey m.1 then timeMask else m.2.maskTimes) := by
  induction members with
  | nil => rfl
  | cons m rest ih => rw [maskMemberTimes, ih, List.map_cons]

theorem get?_maskTimes_ite (key : String) (v : Json) : v.maskTimes.get? key =
    (v.get? key).map fun value => if isTimeKey key then timeMask else value.maskTimes := by
  cases v with
  | object members =>
    show (maskMemberTimes members).lookup key = _
    rw [maskMemberTimes_eq_map]
    exact lookup_map_keyed (fun key value => if isTimeKey key then timeMask else value.maskTimes)
      members key
  | _ => rfl

theorem get?_maskTimes {key : String} (hkey : isTimeKey key = false) (v : Json) :
    v.maskTimes.get? key = (v.get? key).map maskTimes := by
  rw [get?_maskTimes_ite, hkey]
  rfl

theorem itemsDepth_le_iff {items : List Json} {room : Nat} :
    itemsDepth items ≤ room ↔ ∀ item ∈ items, item.depth ≤ room := by
  induction items with
  | nil => exact iff_of_true (Nat.zero_le _) fun _ h => nomatch h
  | cons item rest ih => rw [itemsDepth, Nat.max_le, List.forall_mem_cons, ih]

end Json

/-! ## 2. Findings -/

namespace Finding

variable {f g : Finding}

/-- Holds of a finding whose data can be read back and are not masked anywhere. -/
structure Comparable (f : Finding) : Prop where
  readable : f.Readable
  unmasked : f.data.maskTimes = f.data

theorem get?_masked {key : String} (hkey : Json.isTimeKey key = false) :
    f.toJson.sorted.maskTimes.get? key =
      (f.members.lookup key).map (Json.maskTimes ∘ Json.sorted) := by
  have hkeys : (f.members.map Prod.fst).Nodup := sublist_keys_members.nodup (by decide)
  have hsorted : f.toJson.sorted.get? key = (f.members.lookup key).map Json.sorted :=
    Json.get?_sorted hkeys key
  rw [Json.get?_maskTimes hkey, hsorted, Option.map_map]

theorem map_masked_texts (text? : Option String) :
    (text?.map Json.string).map (Json.maskTimes ∘ Json.sorted) = text?.map Json.string := by
  cases text? <;> rfl

theorem masked_data (h : f.Comparable) :
    (f.members.lookup "data").map (Json.maskTimes ∘ Json.sorted) = f.members.lookup "data" := by
  rw [lookup_data]
  by_cases hnull : f.data = .null
  · rw [if_pos hnull]
    rfl
  · rw [if_neg hnull, Option.map_some, Function.comp_apply,
      Json.sorted_eq_self _ h.readable.1, h.unmasked]

theorem data_eq_of_lookup (h : f.members.lookup "data" = g.members.lookup "data") :
    f.data = g.data := by
  rw [lookup_data, lookup_data] at h
  -- Null data are left out, so that they differ from all others.
  by_cases hnull : f.data = .null
  · rw [if_pos hnull] at h
    by_cases hnull' : g.data = .null
    · rw [hnull, hnull']
    · rw [if_neg hnull'] at h
      cases h
  · rw [if_neg hnull] at h
    by_cases hnull' : g.data = .null
    · rw [if_pos hnull'] at h
      cases h
    · rw [if_neg hnull'] at h
      exact Option.some.inj h

/-- Findings that look the same once masked are the same. -/
theorem eq_of_masked (hf : f.Comparable) (hg : g.Comparable)
    (h : f.toJson.sorted.maskTimes = g.toJson.sorted.maskTimes) : f = g := by
  have hget (key : String) (hkey : Json.isTimeKey key = false) :
      (f.members.lookup key).map (Json.maskTimes ∘ Json.sorted) =
        (g.members.lookup key).map (Json.maskTimes ∘ Json.sorted) := by
    rw [← get?_masked hkey, ← get?_masked hkey, h]
  have htext {a b : String} (h : some (Json.string a) = some (Json.string b)) : a = b :=
    Json.string.inj (Option.some.inj h)
  have hpredicate : f.predicate = g.predicate :=
    htext (hget "predicate" (by decide))
  have hcode : f.code = g.code := htext (hget "code" (by decide))
  have hmessage : f.message = g.message := htext (hget "message" (by decide))
  have htext? {a b : Option String} (h : a.map Json.string = b.map Json.string) : a = b :=
    Option.map_injective (fun _ _ => Json.string.inj) h
  have hhelp : f.help = g.help := by
    have h := hget "help" (by decide)
    rw [lookup_help, lookup_help, map_masked_texts, map_masked_texts] at h
    exact htext? h
  have hfingerprint : f.fingerprint = g.fingerprint := by
    have h := hget "fingerprint" (by decide)
    rw [lookup_fingerprint, lookup_fingerprint, map_masked_texts, map_masked_texts] at h
    exact htext? h
  have hdata : f.data = g.data := by
    have h := hget "data" (by decide)
    rw [masked_data hf, masked_data hg] at h
    exact data_eq_of_lookup h
  cases f
  cases g
  simp_all only

theorem eq_of_masked_lists {fs gs : List Finding} (hfs : ∀ f ∈ fs, f.Comparable)
    (hgs : ∀ g ∈ gs, g.Comparable)
    (h : fs.map (fun f => f.toJson.sorted.maskTimes) = gs.map fun g => g.toJson.sorted.maskTimes) :
    fs = gs := by
  induction fs generalizing gs with
  | nil => exact (List.map_eq_nil_iff.mp h.symm).symm
  | cons f rest ih =>
    cases gs with
    | nil => cases h
    | cons g rest' =>
      obtain ⟨hf, hrest⟩ := List.forall_mem_cons.mp hfs
      obtain ⟨hg, hrest'⟩ := List.forall_mem_cons.mp hgs
      obtain ⟨hhead, htail⟩ := List.cons.inj h
      rw [eq_of_masked hf hg hhead, ih hrest hrest' htail]

theorem depth_toJson (h : f.Readable) : f.toJson.depth ≤ Json.maxNesting - 2 := by
  have hroom : ∀ m ∈ f.members, m.2.depth ≤ Json.maxNesting - 3 := by
    have hoptional (key : String) (text? : Option String) :
        ∀ m ∈ Json.optionalMember key text?, m.2.depth ≤ Json.maxNesting - 3 := by
      cases text? with
      | none => exact fun _ hm => nomatch hm
      | some text => exact List.forall_mem_singleton.mpr (Nat.zero_le _)
    unfold members
    simp only [List.forall_mem_append, List.forall_mem_cons]
    refine ⟨⟨⟨⟨Nat.zero_le _, Nat.zero_le _, Nat.zero_le _, fun _ hm => nomatch hm⟩,
      hoptional _ _⟩, hoptional _ _⟩, ?_⟩
    split_ifs
    · exact fun _ hm => nomatch hm
    · exact List.forall_mem_singleton.mpr h.2
  exact Nat.succ_le_succ (Json.membersDepth_le_iff.mpr hroom)

end Finding

/-! ## 3. Receipts -/

namespace Receipt

variable {a b : Receipt}

/-- Holds of receipts that differ at most in their times and in the version of the tool. -/
structure SameButRun (a b : Receipt) : Prop where
  schema : a.schema = b.schema
  toolName : a.tool.name = b.tool.name
  verdict : a.verdict = b.verdict
  allow : a.allow = b.allow
  failed : a.failed = b.failed
  findings : a.findings = b.findings
  summary : a.summary = b.summary

/-- The value that the text of a receipt is read as. -/
def value? (r : Receipt) : Option Json := r.serialize?.bind Json.ofText?

theorem depth_toJson (h : ∀ f ∈ a.findings, f.Readable) (startedAt finishedAt : String) :
    (a.toJson startedAt finishedAt).depth ≤ Json.maxNesting := by
  have hfindings : (Json.array (a.findings.map Finding.toJson)).depth ≤ Json.maxNesting - 1 := by
    refine Nat.succ_le_succ (Json.itemsDepth_le_iff.mpr fun item hitem => ?_)
    obtain ⟨f, hf, rfl⟩ := List.mem_map.mp hitem
    exact Finding.depth_toJson (h f hf)
  have hfailed : (Json.ofStrings a.failed).depth ≤ Json.maxNesting - 1 := by
    refine Nat.succ_le_succ (Json.itemsDepth_le_iff.mpr fun item hitem => ?_)
    obtain ⟨text, _, rfl⟩ := List.mem_map.mp hitem
    exact Nat.zero_le _
  have hsummary : a.summary.toJson.depth ≤ Json.maxNesting - 1 := by
    unfold Summary.toJson
    cases a.summary.profile <;> exact Nat.succ_le_succ (Nat.zero_le _)
  refine Nat.succ_le_succ (Json.membersDepth_le_iff.mpr ?_)
  simp only [List.forall_mem_cons]
  exact ⟨Nat.zero_le _, Nat.succ_le_succ (Nat.zero_le _), Nat.zero_le _, Nat.zero_le _,
    Nat.zero_le _, Nat.zero_le _, hfailed, hfindings, hsummary, fun _ hm => nomatch hm⟩

theorem value?_eq {startedAt finishedAt : String} (h : ∀ f ∈ a.findings, f.Readable)
    (hstarted : a.startedAt.toRfc3339? = some startedAt)
    (hfinished : a.finishedAt.toRfc3339? = some finishedAt) :
    a.value? = some (a.toJson startedAt finishedAt).sorted := by
  have hvalue : a.toJson? = some (a.toJson startedAt finishedAt) := by
    unfold toJson?
    rw [hstarted, hfinished]
    rfl
  unfold value? serialize?
  rw [hvalue, Option.map_some, Option.bind_some]
  unfold Json.ofText?
  rw [Json.Document.ofText?_pretty, Option.bind_some]
  exact Json.ofDocument?_toDocument _ (depth_toJson h startedAt finishedAt)

/-- The masked form of a receipt.  Its root has all the keys by which receipts are known, so the
version is masked whatever else the receipt holds. -/
theorem normalized_sorted_toJson (r : Receipt) (startedAt finishedAt : String) :
    (r.toJson startedAt finishedAt).sorted.normalized = .object [
      ("allow", .boolean r.allow), ("data", r.summary.toJson.sorted.maskTimes),
      ("failed_predicates", (Json.ofStrings r.failed).sorted.maskTimes),
      ("findings", (Json.array (r.findings.map Finding.toJson)).sorted.maskTimes),
      ("finished_at", Json.timeMask), ("schema", .string r.schema), ("started_at", Json.timeMask),
      ("tool", .object [("name", .string r.tool.name), ("version", Json.versionMask)]),
      ("verdict", .string r.verdict.name)] :=
  rfl

theorem masked_array (items : List Json) : (Json.array items).sorted.maskTimes =
    .array (items.map (Json.maskTimes ∘ Json.sorted)) := by
  rw [Json.sorted, Json.maskTimes, Json.maskItemTimes_eq_map, Json.sortedItems_eq_map, List.map_map]

theorem masked_ofStrings (texts : List String) :
    (Json.ofStrings texts).sorted.maskTimes = Json.ofStrings texts := by
  unfold Json.ofStrings
  rw [masked_array, List.map_map]
  rfl

theorem Summary.eq_of_masked {s t : Summary}
    (h : s.toJson.sorted.maskTimes = t.toJson.sorted.maskTimes) : s = t := by
  obtain ⟨policy, profile, enforces, evaluated⟩ := s
  obtain ⟨policy', profile', enforces', evaluated'⟩ := t
  have hform (policy : String) (profile : Option String) (enforces : Bool) (evaluated : UInt32) :
      (Summary.mk policy profile enforces evaluated).toJson.sorted.maskTimes = .object (
        ("enforce_encoded_payload", .boolean enforces) :: ("policy", .string policy) ::
        ("predicates_evaluated", .number (.ofUInt32 evaluated)) ::
        Json.optionalMember "profile" profile) := by
    cases profile <;> rfl
  rw [hform, hform] at h
  obtain ⟨henforces, h⟩ := List.cons.inj (Json.object.inj h)
  obtain ⟨hpolicy, h⟩ := List.cons.inj h
  obtain ⟨hevaluated, hprofile⟩ := List.cons.inj h
  have hcount : evaluated = evaluated' := by
    have hnumber := Json.number.inj (Prod.mk.inj hevaluated).2
    have hnat : (evaluated.toNat : Int) = evaluated'.toNat := (Json.Number.integer.inj hnumber)
    exact UInt32.toNat_inj.mp (Int.ofNat_inj.mp hnat)
  -- An absent profile is left out, so that the lists have different lengths.
  have hname : profile = profile' := by
    cases profile <;> cases profile' <;> cases hprofile <;> rfl
  rw [Json.boolean.inj (Prod.mk.inj henforces).2, Json.string.inj (Prod.mk.inj hpolicy).2, hcount,
    hname]

theorem verdict_eq_of_name {v w : Verdict} (h : v.name = w.name) : v = w := by
  revert h
  cases v <;> cases w <;> decide

/-- Receipts with data that are not masked look the same once masked just when they differ at most
in what is masked. -/
theorem normalized_eq_iff (ha : ∀ f ∈ a.findings, f.Comparable)
    (hb : ∀ f ∈ b.findings, f.Comparable) (startedAt finishedAt startedAt' finishedAt' : String) :
    (a.toJson startedAt finishedAt).sorted.normalized =
        (b.toJson startedAt' finishedAt').sorted.normalized ↔ a.SameButRun b := by
  rw [normalized_sorted_toJson, normalized_sorted_toJson]
  rw [masked_array, masked_array, masked_ofStrings, masked_ofStrings, List.map_map, List.map_map]
  -- What is left of both after masking, key by key: times and the version are gone.
  constructor
  · intro h
    injection h with h
    simp only [List.cons.injEq, Prod.mk.injEq, true_and, and_true, Json.boolean.injEq,
      Json.string.injEq, Json.object.injEq, Json.array.injEq] at h
    obtain ⟨hallow, hsummary, hfailed, hfindings, hschema, hname, hverdict⟩ := h
    have hfailed : a.failed = b.failed :=
      List.map_injective_iff.mpr (fun _ _ => Json.string.inj) (Json.array.inj hfailed)
    exact ⟨hschema, hname, verdict_eq_of_name hverdict, hallow, hfailed,
      Finding.eq_of_masked_lists ha hb hfindings, Summary.eq_of_masked hsummary⟩
  · rintro ⟨hschema, hname, hverdict, hallow, hfailed, hfindings, hsummary⟩
    rw [hschema, hname, hverdict, hallow, hfailed, hfindings, hsummary]

theorem exists_value? (h : ∀ f ∈ a.findings, f.Readable)
    (hwritable : a.startedAt.Writable ∧ a.finishedAt.Writable) :
    ∃ startedAt finishedAt, a.value? = some (a.toJson startedAt finishedAt).sorted := by
  cases hvalue : a.toJson? with
  | none => exact absurd hwritable (toJson?_eq_none_iff.mp hvalue)
  | some value =>
    obtain ⟨startedAt, finishedAt, hstarted, hfinished, _⟩ := texts_of_toJson? hvalue
    exact ⟨startedAt, finishedAt, value?_eq h hstarted hfinished⟩

/-- The comparison takes two receipts for the same just when they differ at most in their times and
in the version of the tool. -/
theorem matchesGolden_iff (ha : ∀ f ∈ a.findings, f.Comparable)
    (hb : ∀ f ∈ b.findings, f.Comparable)
    (hwritable : a.startedAt.Writable ∧ a.finishedAt.Writable)
    (hwritable' : b.startedAt.Writable ∧ b.finishedAt.Writable) :
    ∃ v w, a.value? = some v ∧ b.value? = some w ∧
      (Conformance.Fixture.matchesGolden v w = true ↔ a.SameButRun b) := by
  obtain ⟨startedAt, finishedAt, hv⟩ := exists_value? (fun f hf => (ha f hf).readable) hwritable
  obtain ⟨startedAt', finishedAt', hw⟩ := exists_value? (fun f hf => (hb f hf).readable) hwritable'
  refine ⟨_, _, hv, hw, ?_⟩
  unfold Conformance.Fixture.matchesGolden
  rw [decide_eq_true_iff]
  exact normalized_eq_iff ha hb startedAt finishedAt startedAt' finishedAt'

end Receipt

/-! ## 4. Receipts of evaluations -/

section

variable {r : Request} {p : Policy} {f : Finding} {q : Predicate}

theorem Finding.comparable_of_object (keys : List String) {members : List (String × Json)}
    (hdata : f.data = .object members) (hkeys : members.map Prod.fst = keys)
    (hincreasing : keys.Pairwise (· < ·)) (htimes : ∀ key ∈ keys, Json.isTimeKey key = false)
    (hvalues : ∀ m ∈ members, m.2.Ordered ∧ m.2.depth ≤ 1 ∧ m.2.maskTimes = m.2) :
    f.Comparable := by
  subst hkeys
  -- No key is that of a time, so masking goes into the values and finds nothing there.
  have hmasked : Json.maskMemberTimes members = members := by
    rw [Json.maskMemberTimes_eq_map]
    refine (List.map_congr_left fun m hm => ?_).trans (List.map_id _)
    rw [htimes m.1 (List.mem_map_of_mem hm), if_neg Bool.false_ne_true, (hvalues m hm).2.2]
    rfl
  have hdepth : Json.membersDepth members ≤ 1 :=
    Json.membersDepth_le_iff.mpr fun m hm => (hvalues m hm).2.1
  refine ⟨⟨?_, ?_⟩, ?_⟩
  · rw [hdata]
    exact ⟨hincreasing, Json.membersOrdered_iff.mpr fun m hm => (hvalues m hm).1⟩
  · rw [hdata]
    exact Nat.le_trans (Nat.succ_le_succ hdepth) (by decide)
  · rw [hdata, Json.maskTimes, hmasked]

theorem Json.unmasked_ofStrings (texts : List String) :
    (ofStrings texts).Ordered ∧ (ofStrings texts).depth ≤ 1 ∧
      (ofStrings texts).maskTimes = ofStrings texts := by
  have hordered : (ofStrings texts).Ordered := by
    show ItemsOrdered (texts.map .string)
    induction texts with
    | nil => trivial
    | cons text rest ih => exact ⟨trivial, ih⟩
  refine ⟨hordered, Nat.succ_le_succ (itemsDepth_le_iff.mpr fun item hitem => ?_), ?_⟩
  · obtain ⟨text, _, rfl⟩ := List.mem_map.mp hitem
    exact Nat.zero_le _
  · have hmasked := Receipt.masked_ofStrings texts
    rwa [sorted_eq_self _ hordered] at hmasked

theorem Json.unmasked_ofBinary64 (x : Binary64) :
    (ofBinary64 x).Ordered ∧ (ofBinary64 x).depth ≤ 1 ∧
      (ofBinary64 x).maskTimes = ofBinary64 x := by
  cases x <;> exact ⟨trivial, Nat.zero_le _, rfl⟩

theorem Finding.Exceeds.comparable {field : String} {value limit : Int64}
    (h : f.Exceeds field value limit) : f.Comparable := by
  obtain ⟨_, hdata, _⟩ := h
  refine Finding.comparable_of_object ["field", "limit", "value"] hdata rfl (by decide)
    (by decide) ?_
  simp only [List.forall_mem_cons]
  exact ⟨⟨trivial, Nat.zero_le _, rfl⟩, ⟨trivial, Nat.zero_le _, rfl⟩,
    ⟨trivial, Nat.zero_le _, rfl⟩, fun _ hm => nomatch hm⟩

/-- What bears out a failure is compared as it is: no key in it is that of a time. -/
theorem Predicate.Evidence.comparable (h : q.Evidence r p f) : f.Comparable := by
  have hsingle {key : String} {value : Json} (hdata : f.data = .object [(key, value)])
      (hkey : Json.isTimeKey key = false)
      (hvalue : value.Ordered ∧ value.depth ≤ 1 ∧ value.maskTimes = value) : f.Comparable :=
    Finding.comparable_of_object [key] hdata rfl (List.pairwise_singleton _ _)
      (List.forall_mem_singleton.mpr hkey) (List.forall_mem_singleton.mpr hvalue)
  cases q with
  | pauseBeforePropagate => exact hsingle h.1 (by decide) ⟨trivial, Nat.zero_le _, rfl⟩
  | intentAllowed => exact hsingle h.1 (by decide) ⟨trivial, Nat.zero_le _, rfl⟩
  | domainAllowed => exact hsingle h.1 (by decide) ⟨trivial, Nat.zero_le _, rfl⟩
  | ttlWithinLimit => exact Finding.Exceeds.comparable h
  | childrenWithinLimit => exact Finding.Exceeds.comparable h
  | concurrencyWithinLimit => exact Finding.Exceeds.comparable h
  | rateWithinLimit =>
    refine Finding.comparable_of_object ["field", "limit", "value"] h.2.1 rfl (by decide)
      (by decide) ?_
    simp only [List.forall_mem_cons]
    exact ⟨⟨trivial, Nat.zero_le _, rfl⟩, Json.unmasked_ofBinary64 _, Json.unmasked_ofBinary64 _,
      fun _ hm => nomatch hm⟩
  | ttlPositive => exact hsingle h.1 (by decide) ⟨trivial, Nat.zero_le _, rfl⟩
  | notEncodedPayload =>
    obtain ⟨_, _, _, _, first, others, count, _, _, _, _, hdata, _⟩ := h
    refine Finding.comparable_of_object ["heuristics", "payload_len"] hdata rfl (by decide)
      (by decide) ?_
    simp only [List.forall_mem_cons]
    exact ⟨Json.unmasked_ofStrings _, ⟨trivial, Nat.zero_le _, rfl⟩, fun _ hm => nomatch hm⟩

theorem comparable_of_mem_findings (h : f ∈ (evaluate r p).findings) : f.Comparable := by
  obtain ⟨q, rfl, hq⟩ := exists_of_mem_findings h
  exact (Predicate.evidence_finding hq).comparable

end

/-- The receipt of an evaluation, made by a tool of the given version. -/
def Receipt.ofEvaluation (r : Request) (policy : ResolvedPolicy) (startedAt finishedAt : Timestamp)
    (version : String) : Receipt :=
  { Receipt.ofDecision (evaluate r policy.policy) policy startedAt finishedAt with
    tool := { Receipt.thisTool with version } }

/-- Receipts of two evaluations, each with any version of the tool, are taken for the same by the
comparison just when all but their times and versions agree.  Two runs of one check give receipts
that are taken for the same, at whatever times they run. -/
theorem golden_comparison_is_exact :
    (∀ (r r' : Request) (p p' : ResolvedPolicy) (s f s' f' : Timestamp) (version version' : String),
      s.Writable ∧ f.Writable → s'.Writable ∧ f'.Writable →
        ∃ v v', (Receipt.ofEvaluation r p s f version).value? = some v ∧
          (Receipt.ofEvaluation r' p' s' f' version').value? = some v' ∧
          (v.normalized = v'.normalized ↔
            (Receipt.ofEvaluation r p s f version).SameButRun
              (.ofEvaluation r' p' s' f' version')) ∧
          (Conformance.Fixture.matchesGolden v v' = true ↔ v.normalized = v'.normalized)) ∧
    ∀ (input : CheckInput) (s f s' f' : Timestamp),
      s.Writable ∧ f.Writable → s'.Writable ∧ f'.Writable →
        (∃ e, runCheck input s f = .error e ∧ runCheck input s' f' = .error e) ∨
        ∃ out out' v v', runCheck input s f = .ok out ∧ runCheck input s' f' = .ok out' ∧
          out.receipt.value? = some v ∧ out'.receipt.value? = some v' ∧
          v.normalized = v'.normalized := by
  constructor
  · intro r r' p p' s f s' f' version version' hwritable hwritable'
    obtain ⟨v, v', hv, hv', hiff⟩ := Receipt.matchesGolden_iff
      (a := .ofEvaluation r p s f version) (b := .ofEvaluation r' p' s' f' version')
      (fun f hf => comparable_of_mem_findings hf) (fun f hf => comparable_of_mem_findings hf)
      hwritable hwritable'
    have hmatches : Conformance.Fixture.matchesGolden v v' = true ↔ v.normalized = v'.normalized :=
      decide_eq_true_iff
    exact ⟨v, v', hv, hv', hmatches.symm.trans hiff, hmatches⟩
  · intro input s f s' f' hwritable hwritable'
    rw [runCheck_times input s f s' f']
    cases hrun : runCheck input s f with
    | error e => exact .inl ⟨e, rfl, rfl⟩
    | ok out =>
      obtain ⟨_, _, r, _, _, _, _, hreceipt⟩ := decides_of_runCheck hrun
      have hcomparable : ∀ f ∈ out.receipt.findings, f.Comparable := by
        rw [hreceipt]
        exact fun f hf => comparable_of_mem_findings hf
      have htimes : out.receipt.startedAt.Writable ∧ out.receipt.finishedAt.Writable := by
        rw [hreceipt]
        exact hwritable
      obtain ⟨v, v', hv, hv', hiff⟩ := Receipt.matchesGolden_iff
        (b := { out.receipt with startedAt := s', finishedAt := f' }) hcomparable hcomparable
        htimes hwritable'
      have hsame := hiff.mpr ⟨rfl, rfl, rfl, rfl, rfl, rfl, rfl⟩
      exact .inr ⟨out, _, v, v', rfl, rfl, hv, hv', decide_eq_true_iff.mp hsame⟩

def marchFirst : Timestamp := { leapDay with date := ⟨2000, 3, 1, by decide⟩ }

/-- Two tools of different versions decide the default request, a day apart. -/
theorem default_receipts_match_across_versions :
    (leapDay.Writable ∧ leapDay.Writable) ∧ (marchFirst.Writable ∧ marchFirst.Writable) ∧
      ∃ v v',
        (Receipt.ofEvaluation {} ⟨"empty", none, {}⟩ leapDay leapDay "0.1.0").value? = some v ∧
        (Receipt.ofEvaluation {} ⟨"empty", none, {}⟩ marchFirst marchFirst "2.0.0").value? =
          some v' ∧
        Conformance.Fixture.matchesGolden v v' = true := by
  have hleapDay : leapDay.Writable ∧ leapDay.Writable := by decide
  have hmarchFirst : marchFirst.Writable ∧ marchFirst.Writable := by decide
  obtain ⟨v, v', hv, hv', hiff, hmatches⟩ := golden_comparison_is_exact.1 {} {} ⟨"empty", none, {}⟩
    ⟨"empty", none, {}⟩ leapDay leapDay marchFirst marchFirst "0.1.0" "2.0.0" hleapDay hmarchFirst
  exact ⟨hleapDay, hmarchFirst, v, v', hv, hv',
    hmatches.mpr (hiff.mpr ⟨rfl, rfl, rfl, rfl, rfl, rfl, rfl⟩)⟩

end AdmissionGate
