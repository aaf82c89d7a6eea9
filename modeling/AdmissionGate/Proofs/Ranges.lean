import AdmissionGate.Proofs.Binary64.Rounding
import AdmissionGate.Proofs.Check
import AdmissionGate.Proofs.Evidence
import AdmissionGate.Proofs.Request.Decode

/-!
# Proofs/Ranges — what reaches an evaluation

The limits of a policy that was resolved and the rate of a request that was decoded are in range, so
that no comparison of a check meets NaN or an infinity.  Its findings therefore hold numbers where
amounts are reported, and no null.
-/

namespace AdmissionGate

/-! ## Values without null -/

namespace Json

mutual

/-- Holds when no null stands in a value, at any depth. -/
def NullFree : Json → Prop
  | .null => False
  | .array items => ItemsNullFree items
  | .object members => MembersNullFree members
  | _ => True

def ItemsNullFree : List Json → Prop
  | [] => True
  | item :: rest => item.NullFree ∧ ItemsNullFree rest

def MembersNullFree : List (String × Json) → Prop
  | [] => True
  | (_, value) :: rest => value.NullFree ∧ MembersNullFree rest

end

theorem nullFree_ofStrings (texts : List String) : (ofStrings texts).NullFree := by
  show ItemsNullFree (texts.map .string)
  induction texts with
  | nil => trivial
  | cons text rest ih => exact ⟨trivial, ih⟩

/-- The value of a number in units of `2 ^ (-1074)`. -/
def Number.toUnits : Number → Int
  | .integer i _ => i * Binary64.unitsPerOne
  | .fraction x => x.toUnits

end Json

/-! ## Limits and rates in range -/

/-- Holds of limits whose integers are not below zero and whose rate is finite and not below
zero. -/
structure Limits.InRange (l : Limits) : Prop where
  ttl : 0 ≤ l.maxTtl.toInt
  children : 0 ≤ l.maxChildren.toInt
  concurrency : 0 ≤ l.maxConcurrency.toInt
  rate : ∃ bound, l.maxRate = .finite bound ∧ 0 ≤ bound.toUnits

theorem Binary64.inRange_ofInt {i : Int} (hpos : 0 ≤ i) (h : i < 18446744073709551616) :
    ∃ bound, ofInt i = .finite bound ∧ 0 ≤ bound.toUnits := by
  obtain ⟨_, hfinite⟩ := ofInt_eq_finite ⟨Int.le_trans (by decide) hpos, h⟩
  refine ⟨_, hfinite, ?_⟩
  have hsign : decide (i < 0) = false := decide_eq_false (Int.not_lt.mpr hpos)
  unfold Finite.toUnits
  dsimp only
  rw [hsign, if_neg Bool.false_ne_true]
  exact Int.natCast_nonneg _

theorem Preset.inRange_limits (preset : Preset) : preset.limits.InRange := by
  have hrate (ttl children concurrency : Int64) (i : Int) (h : 0 ≤ i ∧ i < 18446744073709551616)
      (hpos : 0 ≤ ttl.toInt ∧ 0 ≤ children.toInt ∧ 0 ≤ concurrency.toInt) :
      (Limits.mk ttl children concurrency (Binary64.ofInt i)).InRange :=
    ⟨hpos.1, hpos.2.1, hpos.2.2, Binary64.inRange_ofInt h.1 h.2⟩
  cases preset with
  | standard => exact hrate 3 5 2 30 (by decide) (by decide)
  | strict => exact hrate 2 3 1 10 (by decide) (by decide)

/-- A file without faults has no bound that is out of range, wherever each came from. -/
theorem PolicyFile.inRange_of_noFault {file : PolicyFile} {flags : FeatureFlags}
    {r : ResolvedPolicy} (hnone : NoFault file.faults) (h : file.Resolves flags r) :
    r.policy.limits.InRange := by
  -- Bounds out of range stand last among the faults that a file is searched for.
  have hbound (bound : Policy.Bound) (fault : Policy.BoundFault) :
      ¬ (Limits.full r.policy.limits).OutOfRange bound fault := by
    intro hfault
    rw [← h.limits] at hfault
    have hmem : file.RangeFault bound ∈ file.faults := by
      have horder : bound ∈ boundOrder := by cases bound <;> decide
      unfold faults
      simp only [List.mem_cons, List.mem_append]
      exact .inr (.inr (.inr (.inr (List.mem_map_of_mem horder))))
    exact hnone _ hmem _ ⟨fault, hfault, rfl⟩
  refine ⟨?_, ?_, ?_, ?_⟩
  · exact Int.not_lt.mp fun hneg => hbound .ttl _ ⟨_, rfl, hneg, rfl⟩
  · exact Int.not_lt.mp fun hneg => hbound .children _ ⟨_, rfl, hneg, rfl⟩
  · exact Int.not_lt.mp fun hneg => hbound .concurrency _ ⟨_, rfl, hneg, rfl⟩
  · have hrate := hbound .rate
    cases hmax : r.policy.limits.maxRate with
    | finite bound =>
      refine ⟨bound, rfl, Int.not_lt.mp fun hneg => ?_⟩
      exact hrate _ ⟨_, congrArg some hmax, .inr ⟨bound, rfl, hneg, rfl⟩⟩
    | nan => exact absurd ⟨_, congrArg some hmax, .inl ⟨nofun, rfl⟩⟩ (hrate (.notFinite .nan))
    | infinite negative =>
      exact absurd ⟨_, congrArg some hmax, .inl ⟨nofun, rfl⟩⟩ (hrate (.notFinite (.infinite negative)))

theorem PolicySource.inRange_of_resolves {source : PolicySource} {flags : FeatureFlags}
    {r : ResolvedPolicy} (hnone : ∀ e, ¬ source.Refused e) (h : source.Resolves flags r) :
    r.policy.limits.InRange := by
  cases source with
  | preset name =>
    obtain ⟨preset, _, rfl⟩ := h
    exact preset.inRange_limits
  | text content format =>
    obtain ⟨file, hfile, hr⟩ := h
    have hfaults : NoFault file.faults :=
      forall_not_firstFault.mp fun e he => hnone e (.inr ⟨file, hfile, he⟩)
    exact PolicyFile.inRange_of_noFault hfaults hr

theorem Json.Number.toBinary64_eq_finite (n : Json.Number) : ∃ x, n.toBinary64 = .finite x := by
  cases n with
  | integer i hi =>
    obtain ⟨_, hfinite⟩ := Binary64.ofInt_eq_finite hi
    exact ⟨_, hfinite⟩
  | fraction x => exact ⟨x, rfl⟩

theorem Request.rate_eq_finite {value : Json} {request : Request}
    (h : Request.ofJson value = .ok request) : ∃ rate, request.rate = .finite rate := by
  obtain ⟨members, _, hspells⟩ := Request.ofJson_eq_ok_iff.mp h
  obtain ⟨n, _, hn⟩ := hspells.rate
  rw [hn]
  exact n.toBinary64_eq_finite

/-! ## Receipts of finite amounts -/

/-- Holds of a finding that holds an amount and a smaller limit, both as numbers. -/
def Finding.TellsExcess (f : Finding) : Prop :=
  ∃ value limit, f.data.get? "value" = some (.number value) ∧
    f.data.get? "limit" = some (.number limit) ∧ limit.toUnits < value.toUnits

/-- Holds of receipts that report on finite amounts under limits in range. -/
structure Receipt.Regular (r : Receipt) : Prop where
  ttl : ¬ (Predicate.ttlWithinLimit.id ∈ r.failed ∧ Predicate.ttlPositive.id ∈ r.failed)
  length : r.failed.length ≤ 8
  nullFree : ∀ f ∈ r.findings, f.data.NullFree
  excess : ∀ f ∈ r.findings, "within_limits.".toList <+: f.predicate.toList → f.TellsExcess

section

variable {r : Request} {p : Policy} {q : Predicate} {f : Finding}

theorem not_both_ttl (h : p.limits.InRange) :
    ¬ (Predicate.ttlWithinLimit.id ∈ (evaluate r p).failed.map Predicate.id ∧
      Predicate.ttlPositive.id ∈ (evaluate r p).failed.map Predicate.id) := by
  rw [id_mem_failed_iff, id_mem_failed_iff]
  rintro ⟨hlimit, hpositive⟩
  have habove : p.limits.maxTtl.toInt < r.ttl.toInt := Int.not_le.mp hlimit
  have hbelow : r.ttl.toInt ≤ 0 := Int.not_lt.mp hpositive
  have hrange := h.ttl
  omega

theorem length_failed_le (h : p.limits.InRange) :
    ((evaluate r p).failed.map Predicate.id).length ≤ 8 := by
  by_contra hlong
  -- The failed predicates are some of the nine, so more than eight of them are all.
  have hall : (evaluate r p).failed.map Predicate.id = Predicate.ids :=
    failed_ids_sublist.eq_of_length_le (Nat.lt_of_not_le hlong)
  have hboth := not_both_ttl (r := r) h
  rw [hall] at hboth
  exact hboth (by decide)

theorem Predicate.Evidence.nullFree {rate limit : Binary64.Finite} (h : q.Evidence r p f)
    (hrate : r.rate = .finite rate) (hlimit : p.limits.maxRate = .finite limit) :
    f.data.NullFree := by
  cases q with
  | pauseBeforePropagate | intentAllowed | domainAllowed | ttlPositive =>
    rw [h.1]
    exact ⟨trivial, trivial⟩
  | ttlWithinLimit | childrenWithinLimit | concurrencyWithinLimit =>
    rw [h.2.1]
    exact ⟨trivial, trivial, trivial, trivial⟩
  | rateWithinLimit =>
    rw [h.2.1, hrate, hlimit]
    exact ⟨trivial, trivial, trivial, trivial⟩
  | notEncodedPayload =>
    obtain ⟨_, _, _, _, _, _, _, _, _, _, _, hdata, _⟩ := h
    rw [hdata]
    exact ⟨Json.nullFree_ofStrings _, trivial, trivial⟩

theorem Predicate.mem_bounding_of_isPrefix (h : "within_limits.".toList <+: q.id.toList) :
    q ∈ bounding := by
  revert h
  cases q <;> decide

theorem Finding.Exceeds.tellsExcess {field : String} {value limit : Int64}
    (h : f.Exceeds field value limit) : f.TellsExcess := by
  obtain ⟨_, hdata, hlt⟩ := h
  rw [Finding.TellsExcess, hdata]
  refine ⟨.ofInt64 value, .ofInt64 limit, rfl, rfl, ?_⟩
  exact Int.mul_lt_mul_of_pos_right hlt (Int.natCast_pos.mpr Binary64.unitsPerOne_pos)

theorem Predicate.Evidence.tellsExcess {rate limit : Binary64.Finite} (h : q.Evidence r p f)
    (hq : q ∈ bounding) (hrate : r.rate = .finite rate)
    (hlimit : p.limits.maxRate = .finite limit) : f.TellsExcess := by
  cases q with
  | ttlWithinLimit | childrenWithinLimit | concurrencyWithinLimit =>
    exact Finding.Exceeds.tellsExcess h
  | rateWithinLimit =>
    obtain ⟨_, hdata, hnot⟩ := h
    rw [hrate, hlimit, Binary64.finite_le_finite] at hnot
    rw [Finding.TellsExcess, hdata, hrate, hlimit]
    exact ⟨.fraction rate, .fraction limit, rfl, rfl, Int.not_le.mp hnot⟩
  | _ => exact absurd hq (by decide)

/-- Limits in range and a finite rate make for a regular receipt. -/
theorem regular_ofDecision {rate : Binary64.Finite} {policy : ResolvedPolicy}
    (startedAt finishedAt : Timestamp) (hrange : policy.policy.limits.InRange)
    (hrate : r.rate = .finite rate) :
    (Receipt.ofDecision (evaluate r policy.policy) policy startedAt finishedAt).Regular := by
  obtain ⟨limit, hlimit, _⟩ := hrange.rate
  refine ⟨not_both_ttl hrange, length_failed_le hrange, fun f hf => ?_, fun f hf hname => ?_⟩
  · obtain ⟨q, rfl, hfails⟩ := exists_of_mem_findings hf
    exact (Predicate.evidence_finding hfails).nullFree hrate hlimit
  · obtain ⟨q, rfl, hfails⟩ := exists_of_mem_findings hf
    rw [finding_predicate] at hname
    exact (Predicate.evidence_finding hfails).tellsExcess (Predicate.mem_bounding_of_isPrefix hname)
      hrate hlimit

end

/-- Where a check succeeds, the limits in force and the rate of the request are in range, and the
receipt reports on finite amounts. -/
theorem runCheck_keeps_range (input : CheckInput) (startedAt finishedAt : Timestamp)
    (output : CheckOutput) (h : runCheck input startedAt finishedAt = .ok output) :
    output.policy.policy.limits.InRange ∧
    (∃ value request rate, Json.ofText? input.request = some value ∧
      Request.ofJson value = .ok request ∧ request.rate = .finite rate ∧
      output.receipt.findings = (evaluate request output.policy.policy).findings) ∧
    output.receipt.Regular := by
  have hnone := runCheck_reports.noFault h
  obtain ⟨flags, value, request, _, hresolves, htext, hvalue, hreceipt⟩ := decides_of_runCheck h
  have hrefused : ∀ e, ¬ input.policy.Refused e := fun e he =>
    hnone input.PolicyFault (by simp [CheckInput.faults, CheckInput.configFaults]) _ ⟨e, he, rfl⟩
  have hrange := PolicySource.inRange_of_resolves hrefused hresolves
  obtain ⟨rate, hrate⟩ := Request.rate_eq_finite hvalue
  refine ⟨hrange, ⟨value, request, rate, htext, hvalue, hrate, ?_⟩, ?_⟩
  · rw [hreceipt]
    rfl
  · rw [hreceipt]
    exact regular_ofDecision startedAt finishedAt hrange hrate

/-- A check of a request that is over every limit of a preset. -/
def excessiveInput : CheckInput where
  policy := .preset "strict"
  request := "\x7b\"intent\":\"\",\"domain\":\"\",\"ttl\":9,\"children\":4,\"concurrency\":2," ++
    "\"rate\":10.5,\"payload\":\"abcd\",\"pauseBeforePropagate\":false\x7d"

def newYear : Timestamp := ⟨⟨2026, 1, 1, by decide⟩, ⟨0, 0, 0, 0, by decide⟩, 0⟩

theorem excessive_check_keeps_range :
    ∃ output, runCheck excessiveInput newYear newYear = .ok output ∧
      output.policy.policy.limits.InRange ∧
      (∃ value request rate, Json.ofText? excessiveInput.request = some value ∧
        Request.ofJson value = .ok request ∧ request.rate = .finite rate ∧
        output.receipt.findings = (evaluate request output.policy.policy).findings) ∧
      output.receipt.Regular := by
  have hdecodes : (checkRequest excessiveInput.request).toOption.isSome = true := by
    decide +kernel
  obtain ⟨request, hrequest⟩ := exists_ok_of_isSome hdecodes
  have hpolicy : checkPolicy excessiveInput.policy {} =
      .ok ⟨"strict", some "strict", Preset.strict.policy⟩ := rfl
  obtain ⟨output, hrun⟩ : ∃ output, runCheck excessiveInput newYear newYear = .ok output :=
    ⟨_, runCheck_eq_ok_iff_ruling.mpr ⟨_, decideCheck_eq_ok.mpr
      ⟨{}, rfl, _, hpolicy, request, hrequest, rfl⟩, rfl⟩⟩
  exact ⟨output, hrun, runCheck_keeps_range _ _ _ _ hrun⟩

end AdmissionGate
