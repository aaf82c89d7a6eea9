import AdmissionGate.Binary64.Rounding
import AdmissionGate.Policy

/-!
# Policy/Preset — the built-in policies

Two presets share their allowlists.  The strict one has lower limits and refuses encoded payloads.
-/

namespace AdmissionGate

/-- The built-in policies, in the order in which they are listed. -/
inductive Preset where
  | standard
  | strict
deriving DecidableEq

namespace Preset

def all : List Preset := [.standard, .strict]

def name : Preset → String
  | .standard => "default"
  | .strict => "strict"

def names : List String := all.map name

def ofName? (text : String) : Option Preset :=
  if text = standard.name then some .standard
  else if text = strict.name then some .strict
  else none

/-- Intents that both presets admit. -/
def intents : Allowlist := .ofList ["creative", "educational", "research", "maintenance"]

/-- Domains that both presets admit. -/
def domains : Allowlist := .ofList ["github.com", "wikipedia.org", "arxiv.org"]

def limits : Preset → Limits
  | .standard => ⟨3, 5, 2, .ofInt 30⟩
  | .strict => ⟨2, 3, 1, .ofInt 10⟩

/-- Whether a preset refuses encoded payloads. -/
def enforces : Preset → Bool
  | .standard => false
  | .strict => true

def policy (preset : Preset) : Policy :=
  ⟨intents, domains, preset.limits, preset.enforces⟩

end Preset

end AdmissionGate
