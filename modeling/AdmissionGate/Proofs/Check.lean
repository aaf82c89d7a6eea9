import AdmissionGate.Check
import AdmissionGate.Proofs.Policy.Flags
import AdmissionGate.Proofs.Policy.Resolve

/-!
# Proofs/Check — the outcomes of a check

A check can go wrong in five ways, which are told by conditions on what it works on.
`runCheck_reports_first_fault` says that it fails exactly with the first of them and otherwise
decides, so that an error never turns into a verdict and a broken policy is reported whatever the
request.
-/

namespace AdmissionGate

/-! ## What a source of policies comes to -/

namespace PolicySource

/-- What a source is refused for, under any flags. -/
def Refused : PolicySource → Policy.Error → Prop
  | .preset name, e => name ∉ Preset.names ∧ e = .unknownProfile name Preset.names
  | .text content format, e =>
    PolicyFile.parse content format = .error e ∨
      ∃ file, PolicyFile.parse content format = .ok file ∧ FirstFault file.faults e

/-- The policy that a source stands for under flags. -/
def Resolves (flags : FeatureFlags) (r : ResolvedPolicy) : PolicySource → Prop
  | .preset name => ∃ p : Preset, p.name = name ∧ r = ⟨name, some name, flags.apply p.policy⟩
  | .text content format =>
    ∃ file, PolicyFile.parse content format = .ok file ∧ file.Resolves flags r

end PolicySource

namespace ResolvedPolicy

variable {flags : FeatureFlags} {r : ResolvedPolicy} {e : Policy.Error}

theorem ofPreset_eq_error {name : String} : ofPreset name flags = .error e ↔
    (PolicySource.preset name).Refused e := by
  unfold ofPreset
  rw [bind_eq_error, preset_eq_error]
  constructor
  · rintro (h | ⟨_, _, h⟩)
    · exact h
    · cases h
  · exact .inl

theorem ofPreset_eq_ok {name : String} : ofPreset name flags = .ok r ↔
    (∀ e, ¬ (PolicySource.preset name).Refused e) ∧
      (PolicySource.preset name).Resolves flags r := by
  have hresolves : ofPreset name flags = .ok r ↔ (PolicySource.preset name).Resolves flags r := by
    unfold ofPreset PolicySource.Resolves
    rw [bind_eq_ok]
    apply exists_congr
    intro p
    rw [preset_eq_ok, pure_eq_ok, eq_comm (a := r)]
  rw [← hresolves, iff_and_self]
  intro h e he
  rw [ofPreset_eq_error.mpr he] at h
  cases h

theorem load_eq_error {text : String} {format : PolicyFormat} :
    load text format flags = .error e ↔ (PolicySource.text text format).Refused e := by
  unfold load PolicySource.Refused
  rw [bind_eq_error]
  simp only [ofFile_reports _ flags e]

theorem load_eq_ok {text : String} {format : PolicyFormat} :
    load text format flags = .ok r ↔ (∀ e, ¬ (PolicySource.text text format).Refused e) ∧
      (PolicySource.text text format).Resolves flags r := by
  constructor
  · intro h
    refine ⟨fun e he => ?_, ?_⟩
    · rw [load_eq_error.mpr he] at h
      cases h
    · obtain ⟨file, hfile, hr⟩ := bind_eq_ok.mp h
      exact ⟨file, hfile, resolves_of_ofFile hr⟩
  · rintro ⟨hnone, file, hfile, hr⟩
    -- A source is refused for any fault of its file, so the file has none.
    have hfaults : NoFault file.faults :=
      forall_not_firstFault.mp fun e he => hnone e (.inr ⟨file, hfile, he⟩)
    exact bind_eq_ok.mpr ⟨file, hfile, ofFile_eq_ok_iff.mpr ⟨hfaults, hr⟩⟩

end ResolvedPolicy

/-! ## The faults of a check -/

namespace CheckInput

variable (input : CheckInput)

/-- The flags in force: those of the text, or none where it is absent or blank. -/
def Uses (flags : FeatureFlags) : Prop :=
  (∀ text, input.flags = some text → Text.Blank text) ∧ flags = {} ∨
    ∃ text, input.flags = some text ∧ ¬ Text.Blank text ∧ FeatureFlags.Sets text flags

def FlagsRefused (fault : Policy.FlagsFault) : Prop :=
  ∃ text, input.flags = some text ∧ ¬ Text.Blank text ∧ FirstFault (FeatureFlags.faults text) fault

def FlagsFault (e : CheckError) : Prop :=
  ∃ fault, input.FlagsRefused fault ∧ e = .config (.invalidFlags fault)

def PolicyFault (e : CheckError) : Prop :=
  ∃ error, input.policy.Refused error ∧ e = .config error

def EmptyFault (e : CheckError) : Prop := Text.Blank input.request ∧ e = .emptyRequest

def SyntaxFault (e : CheckError) : Prop :=
  Json.ofText? input.request = none ∧ e = .requestSyntax

def RequestFault (e : CheckError) : Prop :=
  ∃ value error, Json.ofText? input.request = some value ∧ Request.ofJson value = .error error ∧
    e = .input error

/-- What can be wrong with the flags and the policy, and then with the request. -/
def configFaults : List (CheckError → Prop) := [input.FlagsFault, input.PolicyFault]

def requestFaults : List (CheckError → Prop) :=
  [input.EmptyFault, input.SyntaxFault, input.RequestFault]

def faults : List (CheckError → Prop) := input.configFaults ++ input.requestFaults

/-- What a check decides: the policy is the one that the source stands for, and the receipt records
the evaluation of the decoded request under it. -/
def Decides (startedAt finishedAt : Timestamp) (output : CheckOutput) : Prop :=
  ∃ flags value request, input.Uses flags ∧ input.policy.Resolves flags output.policy ∧
    Json.ofText? input.request = some value ∧ Request.ofJson value = .ok request ∧
    output.receipt = Receipt.ofDecision (evaluate request output.policy.policy) output.policy
      startedAt finishedAt

end CheckInput

/-! ## The steps of a check -/

section

variable {input : CheckInput} {flags : FeatureFlags} {e : CheckError}

theorem checkFlags_reports : Reports (checkFlags input.flags) [input.FlagsFault] := by
  apply Reports.single
  intro e
  unfold checkFlags CheckInput.FlagsFault CheckInput.FlagsRefused
  cases input.flags with
  | none => simp
  | some text =>
    by_cases hblank : Text.Blank text
    · simp [Text.allBlank_iff.mpr hblank, hblank]
    · simp [Text.allBlank_iff, hblank, mapError_eq_error, FeatureFlags.ofText_reports _]

theorem checkFlags_eq_ok : checkFlags input.flags = .ok flags ↔
    (∀ e, ¬ input.FlagsFault e) ∧ input.Uses flags := by
  unfold checkFlags CheckInput.FlagsFault
  rw [forall_not_image_iff]
  unfold CheckInput.FlagsRefused CheckInput.Uses
  cases input.flags with
  | none => simp [eq_comm]
  | some text =>
    by_cases hblank : Text.Blank text
    · simp [Text.allBlank_iff.mpr hblank, hblank, eq_comm]
    · simp [Text.allBlank_iff, hblank, mapError_eq_ok, FeatureFlags.ofText_eq_ok_iff,
        ← forall_not_firstFault]

theorem checkPolicy_reports : Reports (checkPolicy input.policy flags) [input.PolicyFault] := by
  apply Reports.single
  intro e
  unfold checkPolicy CheckInput.PolicyFault
  rw [mapError_eq_error]
  apply exists_congr
  intro error
  cases input.policy with
  | preset name => rw [← ResolvedPolicy.ofPreset_eq_error]
  | text content format => rw [← ResolvedPolicy.load_eq_error]

theorem checkPolicy_eq_ok {r : ResolvedPolicy} : checkPolicy input.policy flags = .ok r ↔
    (∀ e, ¬ input.PolicyFault e) ∧ input.policy.Resolves flags r := by
  unfold checkPolicy CheckInput.PolicyFault
  rw [mapError_eq_ok, forall_not_image_iff]
  cases input.policy with
  | preset name => exact ResolvedPolicy.ofPreset_eq_ok
  | text content format => exact ResolvedPolicy.load_eq_ok

theorem checkRequest_reports : Reports (checkRequest input.request) input.requestFaults := by
  unfold checkRequest
  by_cases hblank : Text.Blank input.request
  · rw [if_pos (Text.allBlank_iff.mpr hblank)]
    intro e
    simp [CheckInput.requestFaults, FirstFault, CheckInput.EmptyFault, hblank, eq_comm]
  · rw [if_neg (mt Text.allBlank_iff.mp hblank)]
    -- The text is not blank, so what is left is to read it and to decode the value.
    apply Reports.cons_of_none fun e he => hblank he.1
    cases htext : Json.ofText? input.request with
    | none =>
      have hfirst : Reports (.error .requestSyntax : Except CheckError Request)
          [input.SyntaxFault] :=
        Reports.single fun e => by simp [CheckInput.SyntaxFault, htext, eq_comm]
      have hrest : NoFault [input.RequestFault] := by
        simp [NoFault, CheckInput.RequestFault, htext]
      exact hfirst.append_of_none hrest
    | some value =>
      apply Reports.cons_of_none (by simp [CheckInput.SyntaxFault, htext])
      apply Reports.single
      intro e
      rw [mapError_eq_error]
      simp [CheckInput.RequestFault, htext]

theorem checkRequest_eq_ok {request : Request} : checkRequest input.request = .ok request ↔
    ¬ Text.Blank input.request ∧ ∃ value, Json.ofText? input.request = some value ∧
      Request.ofJson value = .ok request := by
  unfold checkRequest
  by_cases hblank : Text.Blank input.request
  · simp [Text.allBlank_iff, hblank]
  · rw [if_neg (mt Text.allBlank_iff.mp hblank)]
    cases Json.ofText? input.request with
    | none => simp
    | some value => simp [hblank, mapError_eq_ok]

/-! ## A whole check -/

variable {startedAt finishedAt : Timestamp}

theorem decideCheck_reports : Reports (decideCheck input) input.faults := by
  unfold decideCheck
  exact checkFlags_reports.bind fun _ _ => checkPolicy_reports.bind fun _ _ =>
    checkRequest_reports.bind fun _ _ => Reports.pure _

theorem runCheck_reports : Reports (runCheck input startedAt finishedAt) input.faults :=
  decideCheck_reports.bind fun _ _ => Reports.pure _

theorem decideCheck_eq_ok {ruling : Ruling} : decideCheck input = .ok ruling ↔
    ∃ flags, checkFlags input.flags = .ok flags ∧
      ∃ policy, checkPolicy input.policy flags = .ok policy ∧
        ∃ request, checkRequest input.request = .ok request ∧
          ⟨evaluate request policy.policy, policy⟩ = ruling := by
  unfold decideCheck
  simp only [bind_eq_ok, pure_eq_ok]

theorem runCheck_eq_ok_iff_ruling {output : CheckOutput} :
    runCheck input startedAt finishedAt = .ok output ↔
      ∃ ruling, decideCheck input = .ok ruling ∧ ruling.output startedAt finishedAt = output := by
  unfold runCheck
  simp only [bind_eq_ok, pure_eq_ok]

theorem decides_of_runCheck {output : CheckOutput}
    (h : runCheck input startedAt finishedAt = .ok output) :
    input.Decides startedAt finishedAt output := by
  obtain ⟨ruling, hruling, rfl⟩ := runCheck_eq_ok_iff_ruling.mp h
  obtain ⟨flags, hflags, policy, hpolicy, request, hrequest, rfl⟩ := decideCheck_eq_ok.mp hruling
  obtain ⟨_, value, htext, hvalue⟩ := checkRequest_eq_ok.mp hrequest
  have huses := (checkFlags_eq_ok.mp hflags).2
  have hresolves := (checkPolicy_eq_ok.mp hpolicy).2
  exact ⟨flags, value, request, huses, hresolves, htext, hvalue, rfl⟩

theorem runCheck_of_decides {output : CheckOutput} (hnone : NoFault input.faults)
    (h : input.Decides startedAt finishedAt output) :
    runCheck input startedAt finishedAt = .ok output := by
  have hgiven : ∀ e, ¬ input.FlagsFault e :=
    hnone input.FlagsFault (by simp [CheckInput.faults, CheckInput.configFaults])
  have hpolicy : ∀ e, ¬ input.PolicyFault e :=
    hnone input.PolicyFault (by simp [CheckInput.faults, CheckInput.configFaults])
  have hblank : ¬ Text.Blank input.request := fun hblank =>
    hnone input.EmptyFault (by simp [CheckInput.faults, CheckInput.requestFaults]) _ ⟨hblank, rfl⟩
  obtain ⟨flags, value, request, hflags, hresolves, htext, hvalue, hreceipt⟩ := h
  have hruling := decideCheck_eq_ok.mpr ⟨flags, checkFlags_eq_ok.mpr ⟨hgiven, hflags⟩,
    output.policy, checkPolicy_eq_ok.mpr ⟨hpolicy, hresolves⟩, request,
    checkRequest_eq_ok.mpr ⟨hblank, value, htext, hvalue⟩, rfl⟩
  refine runCheck_eq_ok_iff_ruling.mpr ⟨_, hruling, ?_⟩
  unfold Ruling.output
  rw [← hreceipt]

theorem runCheck_eq_ok_iff {output : CheckOutput} :
    runCheck input startedAt finishedAt = .ok output ↔
      NoFault input.faults ∧ input.Decides startedAt finishedAt output :=
  ⟨fun h => ⟨runCheck_reports.noFault h, decides_of_runCheck h⟩,
    fun h => runCheck_of_decides h.1 h.2⟩

theorem runCheck_times (input : CheckInput)
    (startedAt finishedAt startedAt' finishedAt' : Timestamp) :
    runCheck input startedAt' finishedAt' =
      (fun out : CheckOutput => { out with
        receipt := { out.receipt with startedAt := startedAt', finishedAt := finishedAt' } }) <$>
        runCheck input startedAt finishedAt := by
  -- The times are put into the receipt in the last step and not looked at before.
  simp only [runCheck, map_bind, map_pure]
  rfl

theorem isInput_eq_not_isConfig (e : CheckError) : e.isInput = !e.isConfig := by
  cases e <;> rfl

theorem isConfig_of_configFault (h : FirstFault input.configFaults e) : e.isConfig = true := by
  obtain ⟨kind, hmem, hkind⟩ := h.exists_kind
  simp only [CheckInput.configFaults, List.mem_cons, List.not_mem_nil, or_false] at hmem
  rcases hmem with rfl | rfl
  · obtain ⟨_, _, rfl⟩ := hkind
    rfl
  · obtain ⟨_, _, rfl⟩ := hkind
    rfl

theorem isConfig_of_requestFault (h : FirstFault input.requestFaults e) : e.isConfig = false := by
  obtain ⟨kind, hmem, hkind⟩ := h.exists_kind
  simp only [CheckInput.requestFaults, List.mem_cons, List.not_mem_nil, or_false] at hmem
  rcases hmem with rfl | rfl | rfl
  · obtain ⟨_, rfl⟩ := hkind
    rfl
  · obtain ⟨_, rfl⟩ := hkind
    rfl
  · obtain ⟨_, _, _, _, rfl⟩ := hkind
    rfl

/-- The configuration is blamed when it is at fault, whatever else is. -/
theorem isConfig_iff_of_runCheck (h : runCheck input startedAt finishedAt = .error e) :
    e.isConfig = true ↔ ¬ NoFault input.configFaults := by
  rcases firstFault_append.mp ((runCheck_reports e).mp h) with hconfig | ⟨hnone, hrequest⟩
  · exact iff_of_true (isConfig_of_configFault hconfig)
      fun hnone => forall_not_firstFault.mpr hnone e hconfig
  · rw [isConfig_of_requestFault hrequest]
    exact iff_of_false Bool.false_ne_true (not_not_intro hnone)

/-- An error about the configuration comes from the flags and the policy alone. -/
theorem runCheck_eq_config_iff {error : Policy.Error} :
    runCheck input startedAt finishedAt = .error (.config error) ↔
      FirstFault input.configFaults (.config error) := by
  rw [runCheck_reports, CheckInput.faults, firstFault_append, or_iff_left]
  -- A fault of the request is never told as one of the configuration.
  rintro ⟨_, hrequest⟩
  cases isConfig_of_requestFault hrequest

end

/-- A check fails exactly with the first fault of its flags, policy and request, in this order, and
otherwise gives the policy in force and the receipt of the evaluation.  What is said about the flags
or the policy does not depend on the request or the times, and an error is either about these or
about the request. -/
theorem runCheck_reports_first_fault (input : CheckInput) (startedAt finishedAt : Timestamp) :
    (∀ e, runCheck input startedAt finishedAt = .error e ↔ FirstFault input.faults e) ∧
    (∀ output, runCheck input startedAt finishedAt = .ok output ↔
      NoFault input.faults ∧ input.Decides startedAt finishedAt output) ∧
    (∀ output, runCheck input startedAt finishedAt = .ok output →
      ∃ value request, Json.ofText? input.request = some value ∧
        Request.ofJson value = .ok request ∧
        output.receipt.allow = (evaluate request output.policy.policy).allow ∧
        output.receipt.failed =
          (evaluate request output.policy.policy).failed.map Predicate.id ∧
        output.receipt.findings = (evaluate request output.policy.policy).findings) ∧
    (∀ text, (∃ e, FeatureFlags.ofText text = .error e) ↔ FeatureFlags.Malformed text) ∧
    (∀ request startedAt' finishedAt' error,
      runCheck { input with request } startedAt' finishedAt' = .error (.config error) ↔
        runCheck input startedAt finishedAt = .error (.config error)) ∧
    (∀ e, runCheck input startedAt finishedAt = .error e →
      (e.isConfig = true ↔ ¬ NoFault input.configFaults)) ∧
    (∀ e : CheckError, e.isInput = !e.isConfig) := by
  refine ⟨runCheck_reports, fun output => runCheck_eq_ok_iff, ?_,
    fun text => FeatureFlags.exists_error_iff_malformed, ?_, fun e => isConfig_iff_of_runCheck,
    isInput_eq_not_isConfig⟩
  · intro output h
    obtain ⟨_, value, request, _, _, htext, hvalue, hreceipt⟩ := decides_of_runCheck h
    refine ⟨value, request, htext, hvalue, ?_⟩
    rw [hreceipt]
    exact ⟨rfl, rfl, rfl⟩
  · intro request startedAt' finishedAt' error
    rw [runCheck_eq_config_iff, runCheck_eq_config_iff]
    rfl

end AdmissionGate
