import AdmissionGate.Proofs.Check
import AdmissionGate.Proofs.Evaluation
import AdmissionGate.Proofs.Json.Document
import AdmissionGate.Proofs.Request.Decode

/-!
# Proofs/PayloadFlag — what the payload flag reaches

Two checks that differ in the payload flag alone, or with the flag off in the payload alone, are
compared step by step.  The flag is put over a policy after everything else was settled, so it
causes and hides no error; the one predicate that reads it is evaluated last, so its entry comes
after all others.
-/

namespace AdmissionGate

/-! ## 1. Evaluations -/

section

variable {r r' : Request} {p p' : Policy} {q : Predicate} {flags : FeatureFlags}

theorem failed_eq_filter : (evaluate r p).failed = Predicate.all.filter fun q => !q.holds r p :=
  rfl

theorem evaluate_congr (hholds : ∀ q : Predicate, q.holds r' p' = q.holds r p)
    (hfinding : ∀ q ∈ (evaluate r p).failed, q.finding r' p' = q.finding r p) :
    evaluate r' p' = evaluate r p := by
  have hfailed : (evaluate r' p').failed = (evaluate r p).failed := by
    rw [failed_eq_filter, failed_eq_filter]
    exact List.filter_congr fun q _ => by rw [hholds]
  have hfindings : (evaluate r' p').findings = (evaluate r p).findings := by
    show (evaluate r' p').failed.map _ = (evaluate r p).failed.map _
    rw [hfailed]
    exact List.map_congr_left hfinding
  show Decision.mk _ _ _ _ = Decision.mk _ _ _ _
  rw [Decision.mk.injEq]
  exact ⟨congrArg List.isEmpty hfailed, hfailed, hfindings, rfl⟩

theorem notEncodedPayload_not_mem_failed (h : p.enforceEncodedPayload = false) :
    Predicate.notEncodedPayload ∉ (evaluate r p).failed := by
  rw [mem_failed_iff, Decidable.not_not]
  exact .inl h

/-- With the flag off the payload has no part in a decision. -/
theorem evaluate_of_payload (h : p.enforceEncodedPayload = false) (payload : Option String) :
    evaluate { r with payload } p = evaluate r p := by
  apply evaluate_congr
  · intro q
    cases q with
    | notEncodedPayload =>
      unfold Predicate.holds
      rw [h]
      rfl
    | _ => rfl
  · intro q hq
    cases q with
    | notEncodedPayload => exact absurd hq (notEncodedPayload_not_mem_failed h)
    | _ => rfl

theorem Predicate.finding_apply : q.finding r (flags.apply p) = q.finding r p := by
  cases q <;> rfl

theorem failed_apply : (evaluate r (flags.apply p)).failed =
    (Predicate.all.dropLast.filter fun q => !q.holds r p) ++
      [Predicate.notEncodedPayload].filter fun q => !q.holds r (flags.apply p) := by
  -- Only the last predicate reads the flag.
  have hholds : ∀ q ∈ Predicate.all.dropLast, q.holds r (flags.apply p) = q.holds r p := by
    intro q hq
    cases q with
    | notEncodedPayload => exact absurd hq (by decide)
    | _ => rfl
  have hothers : (Predicate.all.dropLast.filter fun q => !q.holds r (flags.apply p)) =
      Predicate.all.dropLast.filter fun q => !q.holds r p :=
    List.filter_congr fun q hq => by rw [hholds q hq]
  rw [failed_eq_filter, ← hothers, ← List.filter_append]
  rfl

/-- The predicate on payloads, if it fails where the flag is on. -/
def failedUnderFlag (r : Request) (p : Policy) : List Predicate :=
  [.notEncodedPayload].filter fun q => !q.holds r (FeatureFlags.apply ⟨some true⟩ p)

theorem eq_of_mem_failedUnderFlag (h : q ∈ failedUnderFlag r p) : q = .notEncodedPayload :=
  List.mem_singleton.mp (List.mem_of_mem_filter h)

theorem failed_apply_true : (evaluate r (FeatureFlags.apply ⟨some true⟩ p)).failed =
    (evaluate r (FeatureFlags.apply ⟨some false⟩ p)).failed ++ failedUnderFlag r p := by
  have hoff : [Predicate.notEncodedPayload].filter
      (fun q => !q.holds r (FeatureFlags.apply ⟨some false⟩ p)) = [] := rfl
  rw [failed_apply, failed_apply, hoff, List.append_nil, failedUnderFlag]

theorem findings_apply_true : (evaluate r (FeatureFlags.apply ⟨some true⟩ p)).findings =
    (evaluate r (FeatureFlags.apply ⟨some false⟩ p)).findings ++
      (failedUnderFlag r p).map (Predicate.finding r p) := by
  have hfindings (flags : FeatureFlags) : (evaluate r (flags.apply p)).findings =
      (evaluate r (flags.apply p)).failed.map (Predicate.finding r p) :=
    List.map_congr_left fun _ _ => Predicate.finding_apply
  rw [hfindings, hfindings, failed_apply_true, List.map_append]

end

/-! ## 2. Policies -/

namespace ResolvedPolicy

/-- The policy with the overrides in place, under the name it has. -/
def override (flags : FeatureFlags) (r : ResolvedPolicy) : ResolvedPolicy :=
  { r with policy := flags.apply r.policy }

variable {flags : FeatureFlags}

theorem ofPreset_eq_override (name : String) :
    ofPreset name flags = override flags <$> ofPreset name {} := by
  simp only [ofPreset, map_bind, map_pure]
  rfl

theorem ofFile_eq_override (file : PolicyFile) :
    ofFile file flags = override flags <$> ofFile file {} := by
  -- No check of a file comes after its overrides, so they can be drawn out of all the steps.
  simp only [ofFile, map_bind, map_pure]
  rfl

theorem load_eq_override (text : String) (format : PolicyFormat) :
    load text format flags = override flags <$> load text format {} := by
  simp only [load, map_bind, ← ofFile_eq_override]

end ResolvedPolicy

theorem checkPolicy_eq_override (source : PolicySource) (flags : FeatureFlags) :
    checkPolicy source flags = ResolvedPolicy.override flags <$> checkPolicy source {} := by
  unfold checkPolicy
  rw [← mapError_map]
  cases source with
  | preset name => exact congrArg _ (ResolvedPolicy.ofPreset_eq_override name)
  | text content format => exact congrArg _ (ResolvedPolicy.load_eq_override content format)

/-! ## 3. Requests -/

namespace Request

/-- Holds of two texts that spell one object aside from the payload, which is in each a string, null
or left out. -/
def SameButPayload (text text' : String) : Prop :=
  ∃ members members', Json.ofText? text = some (.object members) ∧
    Json.ofText? text' = some (.object members') ∧
    (∀ key, key ≠ "payload" → members'.lookup key = members.lookup key) ∧
    (∀ value, members.lookup "payload" = some value → Field.payload.Takes value) ∧
    ∀ value, members'.lookup "payload" = some value → Field.payload.Takes value

variable {members members' : Members}

theorem optionalText_of_takes
    (h : ∀ value, members.lookup "payload" = some value → Field.payload.Takes value) :
    ∃ payload, optionalText members .payload = .ok payload := by
  rw [optionalText_reports.exists_ok_iff, noFault_cons]
  refine ⟨?_, noFault_nil⟩
  rintro e (⟨hne, _⟩ | ⟨value, hread, htakes, _⟩)
  · exact hne rfl
  · exact htakes (h value ((readFrom_of_ne (by decide)).mp hread))

/-- Objects that agree aside from the payload are refused alike, and spell requests that do. -/
theorem ofMembers_of_payload {payload payload' : Option String}
    (h : ∀ key, key ≠ "payload" → members'.lookup key = members.lookup key)
    (hpayload : optionalText members .payload = .ok payload)
    (hpayload' : optionalText members' .payload = .ok payload') :
    ofMembers members' = (fun r => { r with payload := payload' }) <$> ofMembers members := by
  -- Each of the other fields is read from the same values, under either spelling.
  have hrequired {α : Type} {field : Field} (hfield : field ≠ .payload) (expected : Expected)
      (read : Json → Option α) :
      required members' field expected read = required members field expected read := by
    have hnames : field.name ≠ "payload" ∧ field.otherName ≠ "payload" := by
      revert hfield
      cases field <;> decide
    unfold required lookup
    rw [h _ hnames.1, h _ hnames.2]
  simp only [ofMembers, map_bind, map_pure, hpayload, hpayload', ne_eq, reduceCtorEq,
    not_false_eq_true, hrequired]
  rfl

theorem checkRequest_of_payload {text text' : String} (h : SameButPayload text text') :
    ∃ payload, checkRequest text' =
      (fun r => { r with payload }) <$> checkRequest text := by
  obtain ⟨members, members', htext, htext', hkeys, htakes, htakes'⟩ := h
  obtain ⟨payload, hpayload⟩ := optionalText_of_takes htakes
  obtain ⟨payload', hpayload'⟩ := optionalText_of_takes htakes'
  have hdecoded {text : String} {members : Members}
      (h : Json.ofText? text = some (.object members)) :
      checkRequest text = (ofMembers members).mapError .input := by
    -- A text with an object in it is not blank, so it is not turned away before it is read.
    unfold checkRequest
    rw [if_neg (mt Text.allBlank_iff.mp (Json.not_blank_of_ofText? h)), h]
    rfl
  refine ⟨payload', ?_⟩
  rw [hdecoded htext, hdecoded htext', ofMembers_of_payload hkeys hpayload hpayload', mapError_map]

end Request

/-! ## 4. Checks -/

/-- A text that sets the payload flag. -/
def FeatureFlags.settingText (enforces : Bool) : String :=
  "\x7b\"enforce_encoded_payload\": " ++ (if enforces then "true" else "false") ++ "\x7d"

theorem checkFlags_settingText (enforces : Bool) :
    checkFlags (some (FeatureFlags.settingText enforces)) = .ok ⟨some enforces⟩ := by
  cases enforces <;> decide +kernel

/-- A check under a text that sets the payload flag. -/
def CheckInput.setting (enforces : Bool) (policy : PolicySource) (request : String) : CheckInput :=
  ⟨policy, request, some (FeatureFlags.settingText enforces)⟩

/-- Holds of the outcomes of two checks of which only the second refuses encoded payloads: it has
the entries of the first, and at most one more. -/
structure CheckOutput.GainsPayloadCheck (off on : CheckOutput) : Prop where
  name : on.policy.name = off.policy.name
  profile : on.policy.profile = off.policy.profile
  intents : on.policy.policy.intents = off.policy.policy.intents
  domains : on.policy.policy.domains = off.policy.policy.domains
  limits : on.policy.policy.limits = off.policy.policy.limits
  unchecked : Predicate.notEncodedPayload.id ∉ off.receipt.failed
  entries : ∃ last : List Finding, last.length ≤ 1 ∧
    (∀ f ∈ last, f.predicate = Predicate.notEncodedPayload.id) ∧
    on.receipt.findings = off.receipt.findings ++ last ∧
    on.receipt.failed = off.receipt.failed ++ last.map Finding.predicate

section

variable {policy : PolicySource} {request request' : String} {enforces : Bool}
  {startedAt finishedAt : Timestamp}

/-- The outcome of a check on a policy and a request, under overrides. -/
def CheckOutput.ofFlags (flags : FeatureFlags) (p : ResolvedPolicy) (r : Request)
    (startedAt finishedAt : Timestamp) : CheckOutput :=
  let overridden := p.override flags
  ⟨Receipt.ofDecision (evaluate r overridden.policy) overridden startedAt finishedAt, overridden⟩

theorem runCheck_setting : runCheck (.setting enforces policy request) startedAt finishedAt = do
    let p ← checkPolicy policy {}
    let r ← checkRequest request
    return .ofFlags ⟨some enforces⟩ p r startedAt finishedAt := by
  unfold runCheck decideCheck
  show ((checkFlags (some (FeatureFlags.settingText enforces)) >>= _) >>= _) = _
  rw [checkFlags_settingText]
  show ((checkPolicy policy ⟨some enforces⟩ >>= _) >>= _) = _
  rw [checkPolicy_eq_override]
  simp only [bind_map_left, bind_assoc, pure_bind]
  rfl

theorem gainsPayloadCheck_ofFlags (p : ResolvedPolicy) (r : Request)
    (startedAt finishedAt startedAt' finishedAt' : Timestamp) :
    (CheckOutput.ofFlags ⟨some false⟩ p r startedAt finishedAt).GainsPayloadCheck
      (.ofFlags ⟨some true⟩ p r startedAt' finishedAt') := by
  refine ⟨rfl, rfl, rfl, rfl, rfl, ?_,
    (failedUnderFlag r p.policy).map (Predicate.finding r p.policy), ?_, ?_,
    findings_apply_true, ?_⟩
  · exact mt id_mem_failed_iff.mp (not_not_intro (.inl rfl))
  · rw [List.length_map]
    exact List.length_filter_le _ _
  · intro f hf
    obtain ⟨q, hq, rfl⟩ := List.mem_map.mp hf
    rw [finding_predicate, eq_of_mem_failedUnderFlag hq]
  -- What the flag adds comes last, as the payload check does in the order of predicates.
  · have hnames : ((failedUnderFlag r p.policy).map (Predicate.finding r p.policy)).map
        Finding.predicate = (failedUnderFlag r p.policy).map Predicate.id := by
      rw [List.map_map]
      exact List.map_congr_left fun _ _ => finding_predicate
    rw [hnames]
    show (evaluate r (FeatureFlags.apply _ p.policy)).failed.map _ = _
    rw [failed_apply_true, List.map_append]
    rfl

theorem ofFlags_of_payload (p : ResolvedPolicy) (r : Request) (payload : Option String)
    (startedAt finishedAt : Timestamp) :
    CheckOutput.ofFlags ⟨some false⟩ p { r with payload } startedAt finishedAt =
      .ofFlags ⟨some false⟩ p r startedAt finishedAt := by
  unfold CheckOutput.ofFlags
  dsimp only
  rw [evaluate_of_payload rfl]

end

/-- Switching the payload flag on changes no error and no part of the policy besides, and adds at
most the entry on the payload after all others.  While it is off, the outcome is the same whatever
the payload is. -/
theorem payload_flag_reaches_payload_check_only (policy : PolicySource) (request : String)
    (startedAt finishedAt startedAt' finishedAt' : Timestamp) :
    ((∃ e, runCheck (.setting false policy request) startedAt finishedAt = .error e ∧
        runCheck (.setting true policy request) startedAt' finishedAt' = .error e) ∨
      ∃ off on, runCheck (.setting false policy request) startedAt finishedAt = .ok off ∧
        runCheck (.setting true policy request) startedAt' finishedAt' = .ok on ∧
        off.GainsPayloadCheck on) ∧
    ∀ request', Request.SameButPayload request request' →
      runCheck (.setting false policy request') startedAt finishedAt =
        runCheck (.setting false policy request) startedAt finishedAt := by
  simp only [runCheck_setting]
  cases checkPolicy policy {} with
  | error e => exact ⟨.inl ⟨e, rfl, rfl⟩, fun _ _ => rfl⟩
  | ok p =>
    constructor
    · cases checkRequest request with
      | error e => exact .inl ⟨e, rfl, rfl⟩
      | ok r => exact .inr ⟨_, _, rfl, rfl, gainsPayloadCheck_ofFlags p r _ _ _ _⟩
    · intro request' hsame
      obtain ⟨payload, hrequest⟩ := Request.checkRequest_of_payload hsame
      rw [hrequest]
      cases checkRequest request with
      | error e => rfl
      | ok r => exact congrArg Except.ok (ofFlags_of_payload p r payload _ _)

/-- The members of a harmless request with the given payload. -/
def harmlessMembers (payload : Json) : Request.Members :=
  [("children", .ofInt64 0), ("concurrency", .ofInt64 1), ("domain", .string "arxiv.org"),
    ("intent", .string "research"), ("pauseBeforePropagate", .boolean true), ("payload", payload),
    ("rate", .ofInt64 1), ("ttl", .ofInt64 1)]

def harmlessRequest (payload : String) : String :=
  "\x7b\"intent\":\"research\",\"domain\":\"arxiv.org\",\"ttl\":1,\"children\":0," ++
    "\"concurrency\":1,\"rate\":1,\"pauseBeforePropagate\":true,\"payload\":" ++ payload ++ "\x7d"

theorem sameButPayload_harmlessRequest :
    Request.SameButPayload (harmlessRequest "\"data:,\"") (harmlessRequest "null") := by
  have htext : Json.ofText? (harmlessRequest "\"data:,\"") =
      some (.object (harmlessMembers (.string "data:,"))) := by
    decide +kernel
  have htext' : Json.ofText? (harmlessRequest "null") =
      some (.object (harmlessMembers .null)) := by
    decide +kernel
  refine ⟨_, _, htext, htext', fun key hkey => ?_, ?_, ?_⟩
  · have hne : (key == "payload") = false := beq_eq_false_iff_ne.mpr hkey
    simp only [harmlessMembers, List.lookup_cons, hne]
  · rintro _ ⟨rfl⟩
    exact .inl ⟨_, rfl⟩
  · rintro _ ⟨rfl⟩
    exact .inr ⟨rfl, rfl⟩

def noon : Timestamp := ⟨⟨2026, 6, 1, by decide⟩, ⟨12, 0, 0, 0, by decide⟩, 0⟩

theorem harmless_check_ignores_payload :
    Request.SameButPayload (harmlessRequest "\"data:,\"") (harmlessRequest "null") ∧
      runCheck (.setting false (.preset "strict") (harmlessRequest "null")) noon noon =
        runCheck (.setting false (.preset "strict") (harmlessRequest "\"data:,\"")) noon noon := by
  have hsame := sameButPayload_harmlessRequest
  exact ⟨hsame, (payload_flag_reaches_payload_check_only _ _ noon noon noon noon).2 _ hsame⟩

end AdmissionGate
