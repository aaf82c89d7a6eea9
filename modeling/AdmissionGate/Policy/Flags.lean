import AdmissionGate.Json.Document
import AdmissionGate.Policy
import AdmissionGate.Policy.Error

/-!
# Policy/Flags — feature flags of one invocation

Flags override what a policy file or preset says.  The one flag may be spelled two ways in a flags
object; where both stand, they have to agree.
-/

namespace AdmissionGate

/-- Overrides for one invocation; an absent flag overrides nothing. -/
structure FeatureFlags where
  enforceEncodedPayload : Option Bool := none
deriving DecidableEq

namespace FeatureFlags

open Policy (FlagSpelling FlagsFault)

/-- The flag under one spelling, which has to be a boolean where it stands. -/
def read (members : List (String × Json)) (spelling : FlagSpelling) :
    Except FlagsFault (Option Bool) :=
  match members.lookup spelling.key with
  | none => .ok none
  | some (.boolean b) => .ok (some b)
  | some _ => .error (.notBoolean spelling)

/-- Reads flags from the members of an object; other keys are ignored. -/
def ofMembers (members : List (String × Json)) : Except FlagsFault FeatureFlags := do
  let snake ← read members .snakeCase
  let camel ← read members .camelCase
  -- Both spellings may stand there as long as they say the same.
  match snake, camel with
  | some a, some b => if a = b then .ok ⟨some a⟩ else .error .disagreement
  | _, _ => .ok ⟨snake.or camel⟩

def ofJson : Json → Except FlagsFault FeatureFlags
  | .object members => ofMembers members
  | _ => .error .notAnObject

def ofText (text : String) : Except FlagsFault FeatureFlags :=
  match Json.ofText? text with
  | none => .error .notJson
  | some value => ofJson value

/-- The policy with the overrides in place. -/
def apply (flags : FeatureFlags) (policy : Policy) : Policy :=
  { policy with
    enforceEncodedPayload := flags.enforceEncodedPayload.getD policy.enforceEncodedPayload }

end FeatureFlags

end AdmissionGate
