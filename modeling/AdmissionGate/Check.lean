import AdmissionGate.Policy.Load
import AdmissionGate.Receipt
import AdmissionGate.Request.Decode

/-!
# Check — from texts to a receipt

Flags are read first, then the policy, then the request, so that a broken policy is reported even
when the request is broken too.  An error is never a verdict.
-/

namespace AdmissionGate

inductive PolicySource where
  | preset (name : String)
  | text (text : String) (format : PolicyFormat)
deriving DecidableEq

structure CheckInput where
  policy : PolicySource
  /-- The request as a JSON text. -/
  request : String
  /-- Feature flags as a JSON text; a blank text counts as none. -/
  flags : Option String := none
deriving DecidableEq

inductive CheckError where
  | emptyRequest
  | requestSyntax
  | input (error : Request.Error)
  | config (error : Policy.Error)
deriving DecidableEq

namespace CheckError

/-- The text of an error.  What is wrong with a request that is not JSON is not reported, and a star
stands in its place. -/
def message : CheckError → String
  | .emptyRequest => "request is empty"
  | .requestSyntax => "request is not valid JSON: *"
  | .input error => "invalid request: " ++ error.message
  | .config error => "invalid policy: " ++ error.message

/-- The texts of an error and of what it wraps, outermost first. -/
def chain (e : CheckError) : List String :=
  match e with
  | .emptyRequest => [e.message]
  | .requestSyntax => [e.message, "*"]
  | .input error => [e.message, error.message]
  | .config error => [e.message, error.message]

/-- The request is at fault. -/
def isInput : CheckError → Bool
  | .emptyRequest | .requestSyntax | .input _ => true
  | .config _ => false

/-- The policy or the flags are at fault. -/
def isConfig : CheckError → Bool
  | .config _ => true
  | _ => false

end CheckError

/-- A decision with the policy that it was made under. -/
structure Ruling where
  decision : Decision
  policy : ResolvedPolicy
deriving DecidableEq

structure CheckOutput where
  receipt : Receipt
  /-- The policy that the decision was made under. -/
  policy : ResolvedPolicy
deriving DecidableEq

/-- A ruling put on record with its times. -/
def Ruling.output (r : Ruling) (startedAt finishedAt : Timestamp) : CheckOutput :=
  ⟨Receipt.ofDecision r.decision r.policy startedAt finishedAt, r.policy⟩

/-- The flags of a check; none when the text is absent or blank. -/
def checkFlags (text : Option String) : Except CheckError FeatureFlags :=
  match text with
  | none => .ok {}
  | some text =>
    if Text.allBlank text then .ok {}
    else (FeatureFlags.ofText text).mapError fun fault => .config (.invalidFlags fault)

def checkPolicy (source : PolicySource) (flags : FeatureFlags) : Except CheckError ResolvedPolicy :=
  Except.mapError .config <| match source with
    | .preset name => ResolvedPolicy.ofPreset name flags
    | .text text format => ResolvedPolicy.load text format flags

def checkRequest (text : String) : Except CheckError Request :=
  if Text.allBlank text then .error .emptyRequest
  else match Json.ofText? text with
    | none => .error .requestSyntax
    | some value => (Request.ofJson value).mapError .input

/-- Reads flags, policy and request, and decides. -/
def decideCheck (input : CheckInput) : Except CheckError Ruling := do
  let flags ← checkFlags input.flags
  let policy ← checkPolicy input.policy flags
  -- Only now, so that a broken policy is reported before a broken request.
  let request ← checkRequest input.request
  return ⟨evaluate request policy.policy, policy⟩

/-- Decides, and writes the receipt. -/
def runCheck (input : CheckInput) (startedAt finishedAt : Timestamp) :
    Except CheckError CheckOutput := do
  let ruling ← decideCheck input
  return ruling.output startedAt finishedAt

/-- The exit code of a verdict; errors have a code of their own. -/
def Verdict.exitCode : Verdict → UInt32
  | .allow => 0
  | .deny => 2

end AdmissionGate
