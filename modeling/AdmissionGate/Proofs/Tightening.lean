import AdmissionGate.Policy.Resolve
import AdmissionGate.Proofs.Evaluation

/-!
# Proofs/Tightening — stricter policies and smaller requests

A policy that is at least as strict in every part, and a request that asks for at least as much,
fail on every predicate that their milder counterparts fail on.  The strict preset is stricter than
the standard one under any flags.
-/

namespace AdmissionGate

/-! ## 1. Comparing policies and requests -/

/-- Holds of a policy that is at least as strict as another in every part. -/
structure Policy.AtLeastAsStrictAs (p p' : Policy) : Prop where
  intents : p.intents ⊆ p'.intents
  domains : p.domains ⊆ p'.domains
  ttl : p.limits.maxTtl ≤ p'.limits.maxTtl
  children : p.limits.maxChildren ≤ p'.limits.maxChildren
  concurrency : p.limits.maxConcurrency ≤ p'.limits.maxConcurrency
  rate : p.limits.maxRate ≤ p'.limits.maxRate
  payload : p'.enforceEncodedPayload = true → p.enforceEncodedPayload = true

/-- Holds of a request that differs from another in its amounts only and asks for no more.  A lower
time to live has to stay positive; a rate that is not a number is compared with itself only. -/
structure Request.AsksNoMoreThan (r' r : Request) : Prop where
  intent : r'.intent = r.intent
  domain : r'.domain = r.domain
  payload : r'.payload = r.payload
  pause : r'.pauseAttested = r.pauseAttested
  ttl : r'.ttl = r.ttl ∨ 0 < r'.ttl ∧ r'.ttl ≤ r.ttl
  children : r'.children ≤ r.children
  concurrency : r'.concurrency ≤ r.concurrency
  rate : r'.rate = r.rate ∨ r'.rate ≤ r.rate

/-! ## 2. What carries over -/

section

variable {p p' : Policy} {r r' : Request}

/-- Under a policy that is no stricter, a request that asks for no more meets every condition that
the other one meets. -/
theorem Predicate.Condition.of_milder {q : Predicate} (h : q.Condition r p)
    (hp : p.AtLeastAsStrictAs p') (hr : r'.AsksNoMoreThan r) : q.Condition r' p' := by
  have hbound {value value' limit limit' : Int64} (hvalue : value' ≤ value) (hlimit : limit ≤ limit')
      (h : value.toInt ≤ limit.toInt) : value'.toInt ≤ limit'.toInt := by
    rw [Int64.le_iff_toInt_le] at hvalue hlimit
    omega
  cases q with
  | pauseBeforePropagate => exact hr.pause.trans h
  | intentAllowed =>
    show r'.intent ∈ p'.intents
    rw [hr.intent]
    exact hp.intents _ h
  | domainAllowed =>
    show r'.domain ∈ p'.domains
    rw [hr.domain]
    exact hp.domains _ h
  | ttlWithinLimit =>
    rcases hr.ttl with hsame | ⟨_, hless⟩
    · exact hbound (Int64.le_of_eq hsame) hp.ttl h
    · exact hbound hless hp.ttl h
  | childrenWithinLimit => exact hbound hr.children hp.children h
  | concurrencyWithinLimit => exact hbound hr.concurrency hp.concurrency h
  | rateWithinLimit =>
    -- Not a total order, but transitive: a rate that met a bound is a number.
    have hwithin : r.rate ≤ p'.limits.maxRate :=
      Binary64.le_trans (Binary64.le_iff_extended.mpr h) hp.rate
    apply Binary64.le_iff_extended.mp
    rcases hr.rate with hsame | hless
    · rwa [hsame]
    · exact Binary64.le_trans hless hwithin
  | ttlPositive =>
    -- The one condition from below, which asking for less could break.
    rcases hr.ttl with hsame | ⟨hpositive, _⟩
    · show 0 < r'.ttl.toInt
      rwa [hsame]
    · exact Int64.lt_iff_toInt_lt.mp hpositive
  | notEncodedPayload =>
    show p'.enforceEncodedPayload = false ∨ _
    -- The payload is the same, so only a policy that refuses less can make a difference.
    rw [hr.payload]
    refine h.imp_left fun hoff => ?_
    rw [← Bool.not_eq_true] at hoff ⊢
    exact mt hp.payload hoff

theorem failed_of_milder (hp : p.AtLeastAsStrictAs p') (hr : r'.AsksNoMoreThan r) {q : Predicate}
    (h : q ∈ (evaluate r' p').failed) : q ∈ (evaluate r p).failed := by
  rw [mem_failed_iff] at h ⊢
  exact fun hcondition => h (hcondition.of_milder hp hr)

end

/-! ## 3. The presets -/

/-- The overrides of any flags leave the strict preset at least as strict as the standard one. -/
theorem Preset.strict_atLeastAsStrictAs (flags : FeatureFlags) :
    (flags.apply strict.policy).AtLeastAsStrictAs (flags.apply standard.policy) := by
  have hamounts : strict.limits.maxTtl ≤ standard.limits.maxTtl ∧
      strict.limits.maxChildren ≤ standard.limits.maxChildren ∧
      strict.limits.maxConcurrency ≤ standard.limits.maxConcurrency := by decide
  have hrate : strict.limits.maxRate ≤ standard.limits.maxRate := by decide +kernel
  refine ⟨fun _ h => h, fun _ h => h, hamounts.1, hamounts.2.1, hamounts.2.2, hrate, ?_⟩
  show flags.enforceEncodedPayload.getD false = true → flags.enforceEncodedPayload.getD true = true
  cases flags.enforceEncodedPayload with
  | none => exact fun _ => rfl
  | some _ => exact fun h => h

theorem Request.asksNoMoreThan_refl (r : Request) : r.AsksNoMoreThan r :=
  ⟨rfl, rfl, rfl, rfl, .inl rfl, Int64.le_refl _, Int64.le_refl _, .inl rfl⟩

/-- Whatever fails under the milder policy fails under one that is at least as strict, also of a
request that asks for more.  So under any flags the standard preset admits what the strict one
admits. -/
theorem stricter_policies_admit_no_more :
    (∀ (p p' : Policy) (r r' : Request), p.AtLeastAsStrictAs p' → r'.AsksNoMoreThan r →
      ∀ q : Predicate, q ∈ (evaluate r' p').failed → q ∈ (evaluate r p).failed) ∧
    (∀ flags : FeatureFlags, ∃ strict standard : ResolvedPolicy,
      ResolvedPolicy.ofPreset "strict" flags = .ok strict ∧
      ResolvedPolicy.ofPreset "default" flags = .ok standard ∧
      ∀ r : Request, (evaluate r strict.policy).allow = true →
        (evaluate r standard.policy).allow = true) := by
  refine ⟨fun p p' r r' hp hr q => failed_of_milder hp hr, fun flags => ⟨_, _, rfl, rfl, ?_⟩⟩
  intro r hallow
  rw [allow_iff_failed_nil, List.eq_nil_iff_forall_not_mem] at hallow ⊢
  intro q hq
  exact hallow q (failed_of_milder (Preset.strict_atLeastAsStrictAs flags)
    r.asksNoMoreThan_refl hq)

/-- A request for more hops than the presets admit and for a rate that is not a number. -/
def greedyRequest : Request := { ttl := 9, children := 9, rate := .nan }

/-- The same for the last hop, with as many children as the standard preset admits. -/
def modestRequest : Request := { ttl := 1, children := 5, rate := .nan }

/-- A rate that is not a number is above every bound, so it fails under both presets. -/
theorem rate_of_modest_request_fails_under_both :
    ((FeatureFlags.apply {} Preset.strict.policy).AtLeastAsStrictAs
        (FeatureFlags.apply {} Preset.standard.policy) ∧
      modestRequest.AsksNoMoreThan greedyRequest ∧
      Predicate.rateWithinLimit ∈
        (evaluate modestRequest (FeatureFlags.apply {} Preset.standard.policy)).failed) ∧
    Predicate.rateWithinLimit ∈
      (evaluate greedyRequest (FeatureFlags.apply {} Preset.strict.policy)).failed := by
  have hpolicies := Preset.strict_atLeastAsStrictAs {}
  have hrequests : modestRequest.AsksNoMoreThan greedyRequest :=
    ⟨rfl, rfl, rfl, rfl, .inr (by decide), by decide, by decide, .inl rfl⟩
  have hfails : Predicate.rateWithinLimit ∈
      (evaluate modestRequest (FeatureFlags.apply {} Preset.standard.policy)).failed := by
    rw [mem_failed_iff]
    rintro ⟨_, _, hrate, _⟩
    cases hrate
  exact ⟨⟨hpolicies, hrequests, hfails⟩,
    stricter_policies_admit_no_more.1 _ _ _ _ hpolicies hrequests _ hfails⟩

end AdmissionGate
