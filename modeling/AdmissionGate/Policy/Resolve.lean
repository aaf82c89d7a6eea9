import AdmissionGate.Policy.File
import AdmissionGate.Policy.Flags
import AdmissionGate.Policy.Preset

/-!
# Policy/Resolve — from a file or preset to a policy in force

A file wins over the preset it names, part by part and bound by bound, and flags win over both.
Faults are looked for in a fixed order: the schema, the profile, the sections, the bounds that are
missing, and last the bounds that are out of range.
-/

namespace AdmissionGate

open Policy (Error Bound BoundFault Section)

/-- A policy ready for use, with the name it is reported under. -/
structure ResolvedPolicy where
  name : String
  /-- Preset that the policy inherits from. -/
  profile : Option String
  policy : Policy
deriving DecidableEq

namespace ResolvedPolicy

/-- The preset of a name, or the error that lists the names there are. -/
def preset (name : String) : Except Error Preset :=
  match Preset.ofName? name with
  | some preset => .ok preset
  | none => .error (.unknownProfile name Preset.names)

/-- The policy of a preset under flags. -/
def ofPreset (name : String) (flags : FeatureFlags) : Except Error ResolvedPolicy := do
  let preset ← preset name
  return ⟨name, some name, flags.apply preset.policy⟩

/-- A bound from the file, else from the preset. -/
def pick {α : Type} (bound : Bound) (given inherited : Option α) : Except Error α :=
  match given.or inherited with
  | some value => .ok value
  | none => .error (.missingBound bound)

/-- The limits of a file, bound by bound over those of the preset. -/
def mergeLimits (given : PolicyFile.Limits) (base : Option Limits) : Except Error Limits := do
  let maxTtl ← pick .ttl given.maxTtl (base.map (·.maxTtl))
  let maxChildren ← pick .children given.maxChildren (base.map (·.maxChildren))
  let maxConcurrency ← pick .concurrency given.maxConcurrency (base.map (·.maxConcurrency))
  let maxRate ← pick .rate given.maxRate (base.map (·.maxRate))
  return { maxTtl, maxChildren, maxConcurrency, maxRate }

def checkInteger (bound : Bound) (value : Int64) : Except Error Unit :=
  if value < 0 then .error (.invalidBound bound (.negative value)) else .ok ()

/-- Refuses a bound on the rate that is not finite or lies below zero. -/
def checkRate (value : Binary64) : Except Error Unit :=
  if !value.isFinite then .error (.invalidBound .rate (.notFinite value))
  else if value.isBelowZero then .error (.invalidBound .rate (.belowZero value))
  else .ok ()

/-- Refuses limits with a bound that is out of range, the first such bound. -/
def checkLimits (limits : Limits) : Except Error Unit := do
  checkInteger .ttl limits.maxTtl
  checkInteger .children limits.maxChildren
  checkInteger .concurrency limits.maxConcurrency
  checkRate limits.maxRate

/-- Refuses a file that says it has another form. -/
def checkSchema : Option String → Except Error Unit
  | none => .ok ()
  | some found => if found = Policy.schemaName then .ok () else .error (.unsupportedSchema found)

/-- The preset that a file names, if it names one. -/
def base : Option String → Except Error (Option Preset)
  | none => .ok none
  | some profile => some <$> preset profile

/-- A section from the file, else from the preset. -/
def inherit {α : Type} (missing : Section) (given inherited : Option α) : Except Error α :=
  match given.or inherited with
  | some value => .ok value
  | none => .error (.missingSection missing)

/-- The limits of a file and the preset it names. -/
def limits (given : Option PolicyFile.Limits) (base : Option Limits) : Except Error Limits :=
  match given with
  | some given => mergeLimits given base
  | none => inherit .limits none base

/-- The policy of a file under flags. -/
def ofFile (file : PolicyFile) (flags : FeatureFlags) : Except Error ResolvedPolicy := do
  checkSchema file.schema
  let base ← base file.profile
  let intents ←
    inherit .intents (file.intents.map Allowlist.ofList) (base.map fun _ => Preset.intents)
  let domains ←
    inherit .domains (file.domains.map Allowlist.ofList) (base.map fun _ => Preset.domains)
  let limits ← limits file.limits (base.map (·.limits))
  checkLimits limits
  -- Flags come last: `apply` puts them over what file and preset say.
  let enforceEncodedPayload :=
    ((file.features.bind (·.enforceEncodedPayload)).or (base.map (·.enforces))).getD false
  return {
    name := (file.name.or file.profile).getD "custom"
    profile := file.profile
    policy := flags.apply { intents, domains, limits, enforceEncodedPayload } }

end ResolvedPolicy

end AdmissionGate
