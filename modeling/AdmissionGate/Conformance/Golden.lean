import AdmissionGate.Json.Basic

/-!
# Conformance/Golden — receipts without what differs from run to run

Recorded receipts are compared with fresh ones after their times and the version of the tool are
masked.  Times are masked at every depth, since their mask cannot be mistaken for data.  The version
is masked at the top of a receipt only, so that data of the same shape inside it stays as it is.
-/

namespace AdmissionGate.Json

/-- What stands for every time. -/
def timeMask : Json := .string "__TIMESTAMP__"

/-- What stands for the version of the tool. -/
def versionMask : Json := .string "__VERSION__"

/-- The keys of times. -/
def isTimeKey (key : String) : Bool := key == "started_at" || key == "finished_at"

mutual

/-- The value with everything under a time key masked. -/
def maskTimes : Json → Json
  | .array items => .array (maskItemTimes items)
  | .object members => .object (maskMemberTimes members)
  | scalar => scalar

def maskItemTimes : List Json → List Json
  | [] => []
  | item :: rest => item.maskTimes :: maskItemTimes rest

def maskMemberTimes : List (String × Json) → List (String × Json)
  | [] => []
  | (key, value) :: rest =>
    (key, if isTimeKey key then timeMask else value.maskTimes) :: maskMemberTimes rest

end

/-- The members with another value under a key, where it is present. -/
def updateMember (key : String) (update : Json → Json) (members : List (String × Json)) :
    List (String × Json) :=
  members.map fun (k, value) => (k, if k = key then update value else value)

/-- The keys by which an object is taken for a receipt. -/
def receiptKeys : List String := ["schema", "tool", "verdict", "failed_predicates", "findings"]

/-- A tool with its version masked, where it has one. -/
def maskToolVersion : Json → Json
  | .object members => .object (updateMember "version" (fun _ => versionMask) members)
  | other => other

/-- A receipt with the version of its tool masked; other values stay as they are. -/
def maskVersion : Json → Json
  | .object members =>
    if receiptKeys.all fun key => (members.lookup key).isSome then
      .object (updateMember "tool" maskToolVersion members)
    else .object members
  | other => other

/-- The value without what differs from run to run. -/
def normalized (value : Json) : Json := value.maskVersion.maskTimes

end AdmissionGate.Json
