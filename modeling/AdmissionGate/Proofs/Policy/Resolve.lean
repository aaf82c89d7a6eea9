import AdmissionGate.Policy.Resolve
import AdmissionGate.Proofs.FirstFault

/-!
# Proofs/Policy/Resolve — what a policy file resolves to

The faults of a file are told one by one, each by a condition on the file alone, and so is the
policy that a faultless file stands for.  `ofFile_reports_first_fault` says that resolution fails
exactly with the first fault in the order of `PolicyFile.faults` and otherwise gives that policy.
-/

namespace AdmissionGate

open Policy (Error Bound BoundFault Section)

/-! ## Presets by name -/

theorem Preset.ofName?_eq_some_iff {text : String} {preset : Preset} :
    Preset.ofName? text = some preset ↔ preset.name = text := by
  unfold Preset.ofName?
  constructor
  · intro h
    split at h
    next hstandard =>
      cases h
      exact hstandard.symm
    next =>
      split at h
      next hstrict =>
        cases h
        exact hstrict.symm
      next => cases h
  · rintro rfl
    cases preset <;> rfl

theorem Preset.mem_names_iff {text : String} :
    text ∈ Preset.names ↔ ∃ preset : Preset, preset.name = text := by
  have hall (preset : Preset) : preset ∈ Preset.all := by cases preset <;> decide
  unfold Preset.names
  rw [List.mem_map]
  exact exists_congr fun preset => and_iff_right (hall preset)

/-- The names that are listed are those under which a preset is found. -/
theorem Preset.ofName?_eq_none_iff {text : String} :
    Preset.ofName? text = none ↔ text ∉ Preset.names := by
  rw [Preset.mem_names_iff, not_exists, Option.eq_none_iff_forall_ne_some]
  exact forall_congr' fun preset => not_congr Preset.ofName?_eq_some_iff

/-! ## The faults of a file -/

namespace PolicyFile

variable (file : PolicyFile)

def preset? : Option Preset := file.profile.bind Preset.ofName?

/-- The bounds in effect: each key from the file where it stands there, else from the preset. -/
def bounds : PolicyFile.Limits where
  maxTtl := (file.limits.bind (·.maxTtl)).or (file.preset?.map (·.limits.maxTtl))
  maxChildren := (file.limits.bind (·.maxChildren)).or (file.preset?.map (·.limits.maxChildren))
  maxConcurrency :=
    (file.limits.bind (·.maxConcurrency)).or (file.preset?.map (·.limits.maxConcurrency))
  maxRate := (file.limits.bind (·.maxRate)).or (file.preset?.map (·.limits.maxRate))

/-- A section that does not stand in the file. -/
def Lacks : Section → Prop
  | .intents => file.intents = none
  | .domains => file.domains = none
  | .limits => file.limits = none

/-- A key that does not stand in the limits of a file. -/
def Limits.Lacks (given : PolicyFile.Limits) : Bound → Prop
  | .ttl => given.maxTtl = none
  | .children => given.maxChildren = none
  | .concurrency => given.maxConcurrency = none
  | .rate => given.maxRate = none

/-- What is wrong with a bound: an integer below zero, a rate that is not finite or below zero. -/
def Limits.OutOfRange (given : PolicyFile.Limits) : Bound → BoundFault → Prop
  | .ttl, fault => ∃ v, given.maxTtl = some v ∧ v.toInt < 0 ∧ fault = .negative v
  | .children, fault => ∃ v, given.maxChildren = some v ∧ v.toInt < 0 ∧ fault = .negative v
  | .concurrency, fault => ∃ v, given.maxConcurrency = some v ∧ v.toInt < 0 ∧ fault = .negative v
  | .rate, fault => ∃ v, given.maxRate = some v ∧
      ((∀ x, v ≠ .finite x) ∧ fault = .notFinite v ∨
        ∃ x, v = .finite x ∧ x.toUnits < 0 ∧ fault = .belowZero v)

def SchemaFault (e : Error) : Prop :=
  ∃ found, file.schema = some found ∧ found ≠ Policy.schemaName ∧ e = .unsupportedSchema found

def ProfileFault (e : Error) : Prop :=
  ∃ name, file.profile = some name ∧ name ∉ Preset.names ∧ e = .unknownProfile name Preset.names

def SectionFault (missing : Section) (e : Error) : Prop :=
  file.profile = none ∧ file.Lacks missing ∧ e = .missingSection missing

def KeyFault (bound : Bound) (e : Error) : Prop :=
  file.profile = none ∧ ∃ given, file.limits = some given ∧ given.Lacks bound ∧
    e = .missingBound bound

def RangeFault (bound : Bound) (e : Error) : Prop :=
  ∃ fault, file.bounds.OutOfRange bound fault ∧ e = .invalidBound bound fault

/-- Sections and bounds in the order in which they are looked at. -/
def sections : List Section := [.intents, .domains, .limits]

def boundOrder : List Bound := [.ttl, .children, .concurrency, .rate]

/-- The kinds of faults that a file can have, in the order of reporting. -/
def faults : List (Error → Prop) :=
  file.SchemaFault :: file.ProfileFault :: (sections.map file.SectionFault ++
    (boundOrder.map file.KeyFault ++ boundOrder.map file.RangeFault))

/-! ## The policy of a file -/

/-- A list of names from the file, even an empty one, or else from the preset. -/
def Supplies (given : Option (List String)) (inherited : Option Allowlist) (list : Allowlist) :
    Prop :=
  (∃ names, given = some names ∧ ∀ x, x ∈ list ↔ x ∈ names) ∨ given = none ∧ inherited = some list

def Limits.full (limits : AdmissionGate.Limits) : PolicyFile.Limits :=
  ⟨some limits.maxTtl, some limits.maxChildren, some limits.maxConcurrency, some limits.maxRate⟩

/-- What a faultless file stands for under flags. -/
structure Resolves (flags : FeatureFlags) (r : ResolvedPolicy) : Prop where
  name : r.name = (file.name.or file.profile).getD "custom"
  profile : r.profile = file.profile
  intents : Supplies file.intents (file.preset?.map (·.policy.intents)) r.policy.intents
  domains : Supplies file.domains (file.preset?.map (·.policy.domains)) r.policy.domains
  limits : file.bounds = .full r.policy.limits
  enforces : r.policy.enforceEncodedPayload =
    (flags.enforceEncodedPayload.or ((file.features.bind (·.enforceEncodedPayload)).or
      (file.preset?.map (·.policy.enforceEncodedPayload)))).getD false

end PolicyFile

/-! ## The steps of resolution -/

namespace ResolvedPolicy

open PolicyFile (boundOrder)

variable {file : PolicyFile} {e : Error}

theorem checkSchema_reports : Reports (checkSchema file.schema) [file.SchemaFault] := by
  apply Reports.single
  intro e
  unfold checkSchema PolicyFile.SchemaFault
  cases file.schema with
  | none => simp
  | some found =>
    by_cases hfound : found = Policy.schemaName
    · simp [hfound]
    · simp [hfound, eq_comm]

theorem preset_eq_error {name : String} : preset name = .error e ↔
    name ∉ Preset.names ∧ e = .unknownProfile name Preset.names := by
  rw [← Preset.ofName?_eq_none_iff]
  unfold preset
  cases Preset.ofName? name <;> simp [eq_comm]

theorem preset_eq_ok {name : String} {p : Preset} : preset name = .ok p ↔ p.name = name := by
  rw [← Preset.ofName?_eq_some_iff]
  unfold preset
  cases Preset.ofName? name <;> simp

theorem base_reports : Reports (base file.profile) [file.ProfileFault] := by
  apply Reports.single
  intro e
  unfold PolicyFile.ProfileFault
  cases file.profile with
  | none => simp [base]
  | some name =>
    show some <$> preset name = .error e ↔ _
    rw [map_eq_error, preset_eq_error]
    simp

/-- The preset is that of the file, and only a file without a profile has none. -/
theorem base_eq_ok {b : Option Preset} (h : base file.profile = .ok b) :
    b = file.preset? ∧ (b = none ↔ file.profile = none) := by
  unfold PolicyFile.preset?
  cases hprofile : file.profile with
  | none =>
    rw [hprofile] at h
    cases h
    exact ⟨rfl, iff_of_true rfl rfl⟩
  | some name =>
    rw [hprofile] at h
    obtain ⟨p, hp, rfl⟩ := map_eq_ok.mp h
    have hknown := Preset.ofName?_eq_some_iff.mpr (preset_eq_ok.mp hp)
    exact ⟨hknown.symm, by simp⟩

section

variable {α : Type} {missing : Section} {bound : Bound} {given inherited : Option α}

theorem inherit_eq_error : inherit missing given inherited = .error e ↔
    inherited = none ∧ given = none ∧ e = .missingSection missing := by
  unfold inherit
  cases given <;> cases inherited <;> simp [eq_comm]

theorem inherit_eq_ok {v : α} :
    inherit missing given inherited = .ok v ↔ given.or inherited = some v := by
  unfold inherit
  cases given <;> cases inherited <;> simp

theorem pick_eq_error : pick bound given inherited = .error e ↔
    inherited = none ∧ given = none ∧ e = .missingBound bound := by
  unfold pick
  cases given <;> cases inherited <;> simp [eq_comm]

theorem pick_eq_ok {v : α} :
    pick bound given inherited = .ok v ↔ given.or inherited = some v := by
  unfold pick
  cases given <;> cases inherited <;> simp

end

/-- Each key is looked for by itself, so the first that neither side gives is reported. -/
theorem mergeLimits_reports {given : PolicyFile.Limits} {base : Option Limits} :
    Reports (mergeLimits given base) (boundOrder.map fun bound e =>
      base = none ∧ given.Lacks bound ∧ e = .missingBound bound) := by
  have hmap : ∀ {α : Type} (key : Limits → α), base.map key = none ↔ base = none := fun _ =>
    Option.map_eq_none_iff
  unfold mergeLimits
  refine (Reports.single fun e => ?_).bind fun _ _ => (Reports.single fun e => ?_).bind fun _ _ =>
    (Reports.single fun e => ?_).bind fun _ _ => (Reports.single fun e => ?_).bind fun _ _ =>
    Reports.pure _
  all_goals
    rw [pick_eq_error, hmap]
    rfl

theorem mergeLimits_eq_ok {given : PolicyFile.Limits} {base : Option Limits} {limits : Limits}
    (h : mergeLimits given base = .ok limits) :
    PolicyFile.Limits.full limits =
      ⟨given.maxTtl.or (base.map (·.maxTtl)), given.maxChildren.or (base.map (·.maxChildren)),
        given.maxConcurrency.or (base.map (·.maxConcurrency)),
        given.maxRate.or (base.map (·.maxRate))⟩ := by
  simp only [mergeLimits, bind_eq_ok, pure_eq_ok, pick_eq_ok] at h
  obtain ⟨ttl, httl, children, hchildren, concurrency, hconcurrency, rate, hrate, rfl⟩ := h
  rw [httl, hchildren, hconcurrency, hrate]
  rfl

variable {b : Option Preset} {l : Limits}

theorem section_reports {α : Type} {given : Option α} {inherited : α} (missing : Section)
    (hnone : b = none ↔ file.profile = none) (hgiven : given = none ↔ file.Lacks missing) :
    Reports (inherit missing given (b.map fun _ => inherited)) [file.SectionFault missing] := by
  apply Reports.single
  intro e
  rw [inherit_eq_error, Option.map_eq_none_iff, hnone, hgiven]
  rfl

/-- A file without limits lacks the section, and one with limits may lack keys of it. -/
theorem limits_reports (hnone : b = none ↔ file.profile = none) :
    Reports (limits file.limits (b.map (·.limits)))
      (file.SectionFault .limits :: boundOrder.map file.KeyFault) := by
  cases hlimits : file.limits with
  | none =>
    -- No key can lack in a section that is not there.
    have hkeys : NoFault (boundOrder.map file.KeyFault) := by
      intro kind hkind e he
      obtain ⟨bound, _, rfl⟩ := List.mem_map.mp hkind
      obtain ⟨_, given, hgiven, _⟩ := he
      rw [hlimits] at hgiven
      cases hgiven
    refine (Reports.single fun e => ?_).append_of_none hkeys
    show inherit .limits none (b.map (·.limits)) = .error e ↔ _
    rw [inherit_eq_error, Option.map_eq_none_iff, hnone]
    unfold PolicyFile.SectionFault PolicyFile.Lacks
    simp [hlimits]
  | some given =>
    have hsection : ∀ e, ¬ file.SectionFault .limits e := by
      rintro e ⟨_, hlacks, _⟩
      rw [show file.limits = none from hlacks] at hlimits
      cases hlimits
    apply Reports.cons_of_none hsection
    have hkinds : boundOrder.map file.KeyFault = boundOrder.map fun bound e =>
        b.map (·.limits) = none ∧ given.Lacks bound ∧ e = .missingBound bound := by
      apply List.map_congr_left
      intro bound _
      funext e
      unfold PolicyFile.KeyFault
      simp [hlimits, hnone]
    rw [hkinds]
    exact mergeLimits_reports

/-- The limits that come out hold the bounds in effect, whichever side each key came from. -/
theorem limits_eq_ok (hb : b = file.preset?) (h : limits file.limits (b.map (·.limits)) = .ok l) :
    file.bounds = .full l := by
  subst hb
  unfold PolicyFile.bounds
  cases hlimits : file.limits with
  | none =>
    rw [hlimits] at h
    have hinherited : file.preset?.map (·.limits) = some l := inherit_eq_ok.mp h
    obtain ⟨preset, hpreset, rfl⟩ := Option.map_eq_some_iff.mp hinherited
    rw [hpreset]
    rfl
  | some given =>
    rw [hlimits] at h
    rw [mergeLimits_eq_ok h]
    simp only [Option.bind_some, Option.map_map]
    rfl

theorem checkInteger_eq_error {bound : Bound} {v : Int64} : checkInteger bound v = .error e ↔
    ∃ fault, (v.toInt < 0 ∧ fault = .negative v) ∧ e = .invalidBound bound fault := by
  have hlt : v < 0 ↔ v.toInt < 0 := Int64.lt_iff_toInt_lt
  unfold checkInteger
  rw [← hlt]
  by_cases hneg : v < 0
  · simp [hneg, eq_comm]
  · simp [hneg]

theorem checkRate_eq_error {v : Binary64} : checkRate v = .error e ↔
    ∃ fault, ((∀ x, v ≠ .finite x) ∧ fault = .notFinite v ∨
      ∃ x, v = .finite x ∧ x.toUnits < 0 ∧ fault = .belowZero v) ∧
      e = .invalidBound .rate fault := by
  unfold checkRate
  cases v with
  | nan => simp [Binary64.isFinite, eq_comm]
  | infinite negative => simp [Binary64.isFinite, eq_comm]
  | finite x =>
    by_cases hneg : x.toUnits < 0
    · simp [Binary64.isFinite, Binary64.isBelowZero, hneg, eq_comm]
    · simp [Binary64.isFinite, Binary64.isBelowZero, hneg]

theorem checkLimits_reports (hl : file.bounds = .full l) :
    Reports (checkLimits l) (boundOrder.map file.RangeFault) := by
  unfold checkLimits
  refine (Reports.single fun e => ?_).bind fun _ _ => (Reports.single fun e => ?_).bind fun _ _ =>
    (Reports.single fun e => ?_).bind fun _ _ => Reports.single fun e => ?_
  case refine_4 =>
    rw [checkRate_eq_error]
    unfold PolicyFile.RangeFault
    simp [hl, PolicyFile.Limits.full, PolicyFile.Limits.OutOfRange]
  all_goals
    rw [checkInteger_eq_error]
    unfold PolicyFile.RangeFault
    simp [hl, PolicyFile.Limits.full, PolicyFile.Limits.OutOfRange]

theorem ofFile_reports (file : PolicyFile) (flags : FeatureFlags) :
    Reports (ofFile file flags) file.faults := by
  unfold ofFile
  refine checkSchema_reports.bind fun _ _ => base_reports.bind fun b hbase => ?_
  -- From here on a part is missing only where the file names no profile.
  obtain ⟨hb, hnone⟩ := base_eq_ok hbase
  refine (section_reports .intents hnone Option.map_eq_none_iff).bind fun _ _ =>
    (section_reports .domains hnone Option.map_eq_none_iff).bind fun _ _ =>
    (limits_reports hnone).bind fun l hlimits => ?_
  have hrange := checkLimits_reports (limits_eq_ok hb hlimits)
  exact hrange.bind fun _ _ => Reports.pure _

theorem supplies_of_inherit {missing : Section} {given : Option (List String)}
    {inherited : Option Allowlist} {list : Allowlist}
    (h : inherit missing (given.map Allowlist.ofList) inherited = .ok list) :
    PolicyFile.Supplies given inherited list := by
  have hor := inherit_eq_ok.mp h
  cases given with
  | none => exact .inr ⟨rfl, hor⟩
  | some names =>
    refine .inl ⟨names, rfl, fun x => ?_⟩
    rw [← Option.some.inj hor]
    exact Allowlist.mem_ofList

theorem resolves_of_ofFile {flags : FeatureFlags} {r : ResolvedPolicy}
    (h : ofFile file flags = .ok r) : file.Resolves flags r := by
  simp only [ofFile, bind_eq_ok, pure_eq_ok] at h
  obtain ⟨_, _, b, hbase, intents, hintents, domains, hdomains, l, hlimits, _, _, rfl⟩ := h
  have hb := (base_eq_ok hbase).1
  have hbounds := limits_eq_ok hb hlimits
  subst hb
  refine ⟨rfl, rfl, supplies_of_inherit hintents, supplies_of_inherit hdomains, hbounds, ?_⟩
  show flags.enforceEncodedPayload.getD _ = _
  cases flags.enforceEncodedPayload <;> rfl

theorem supplies_unique {given : Option (List String)} {inherited : Option Allowlist}
    {list list' : Allowlist} (h : PolicyFile.Supplies given inherited list)
    (h' : PolicyFile.Supplies given inherited list') : list = list' := by
  rcases h with ⟨names, rfl, h⟩ | ⟨rfl, h⟩
  · rcases h' with ⟨names', hnames, h'⟩ | ⟨hnone, _⟩
    · cases hnames
      exact Allowlist.ext fun x => (h x).trans (h' x).symm
    · cases hnone
  · rcases h' with ⟨names', hnames, _⟩ | ⟨_, h'⟩
    · cases hnames
    · exact Option.some.inj (h.symm.trans h')

/-- A file stands for one policy at most. -/
theorem resolves_unique {flags : FeatureFlags} {r r' : ResolvedPolicy}
    (h : file.Resolves flags r) (h' : file.Resolves flags r') : r = r' := by
  have hintents := supplies_unique h.intents h'.intents
  have hdomains := supplies_unique h.domains h'.domains
  have hlimits := h.limits.symm.trans h'.limits
  have henforces := h.enforces.trans h'.enforces.symm
  have hname := h.name.trans h'.name.symm
  have hprofile := h.profile.trans h'.profile.symm
  obtain ⟨name, profile, ⟨intents, domains, ⟨ttl, children, concurrency, rate⟩, enforces⟩⟩ := r
  obtain ⟨name', profile', ⟨intents', domains', ⟨ttl', children', concurrency', rate'⟩, enforces'⟩⟩
    := r'
  simp only [PolicyFile.Limits.full, PolicyFile.Limits.mk.injEq, Option.some.injEq] at *
  simp only [*]

theorem ofFile_eq_ok_iff {flags : FeatureFlags} {r : ResolvedPolicy} :
    ofFile file flags = .ok r ↔ NoFault file.faults ∧ file.Resolves flags r := by
  constructor
  · intro h
    exact ⟨(ofFile_reports file flags).noFault h, resolves_of_ofFile h⟩
  · rintro ⟨hnone, hr⟩
    -- Without faults some policy comes out, and there is only one that the file stands for.
    obtain ⟨r', h'⟩ := (ofFile_reports file flags).exists_ok_iff.mpr hnone
    rw [h', resolves_unique (resolves_of_ofFile h') hr]

/-- Resolution fails exactly with the first fault of a file, gives the policy that a file without
faults stands for, and does not look at the order or the repetitions in a list of names. -/
theorem ofFile_reports_first_fault (file : PolicyFile) (flags : FeatureFlags) :
    (∀ e, ofFile file flags = .error e ↔ FirstFault file.faults e) ∧
    (∀ r, ofFile file flags = .ok r ↔ NoFault file.faults ∧ file.Resolves flags r) ∧
    (∀ names names' : List String, (∀ x, x ∈ names ↔ x ∈ names') →
      ofFile { file with intents := some names } flags =
        ofFile { file with intents := some names' } flags ∧
      ofFile { file with domains := some names } flags =
        ofFile { file with domains := some names' } flags) := by
  refine ⟨ofFile_reports file flags, fun r => ofFile_eq_ok_iff, fun names names' hnames => ?_⟩
  have hlist := Allowlist.ofList_congr hnames
  unfold ofFile
  simp only [Option.map_some, hlist, and_self]

end ResolvedPolicy

end AdmissionGate
