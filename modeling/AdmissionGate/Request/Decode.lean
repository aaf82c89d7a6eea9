import AdmissionGate.Json.Document
import AdmissionGate.Request

/-!
# Request/Decode — requests in JSON

A request is an object.  Its fields are read in a fixed order and the first one that is missing or
ill-typed is reported, always under its main spelling.  The main spelling of a field shadows the
other one, whatever stands there.  Integers are not coerced from fractional numbers, the payload may
be absent or null, and unknown keys are ignored.
-/

namespace AdmissionGate

namespace Json

/-- The kinds of JSON values that messages tell apart. -/
inductive Kind where
  | null
  | boolean
  | integer
  | outOfRangeInteger
  | fractionalNumber
  | string
  | array
  | object
deriving DecidableEq

/-- The kind of a value.  Integers count as such only within signed 64 bits. -/
def kind : Json → Kind
  | .null => .null
  | .boolean _ => .boolean
  | .number (.integer i _) => if i ≤ Int64.maxValue.toInt then .integer else .outOfRangeInteger
  | .number (.fraction _) => .fractionalNumber
  | .string _ => .string
  | .array _ => .array
  | .object _ => .object

def Kind.description : Kind → String
  | .null => "null"
  | .boolean => "a boolean"
  | .integer => "an integer"
  | .outOfRangeInteger => "an out-of-range integer"
  | .fractionalNumber => "a fractional number"
  | .string => "a string"
  | .array => "an array"
  | .object => "an object"

end Json

namespace Request

/-- The fields of a request, in the order in which they are read. -/
inductive Field where
  | intent
  | domain
  | ttl
  | children
  | concurrency
  | rate
  | payload
  | pauseAttested
deriving DecidableEq

namespace Field

/-- The main spelling of a field. -/
def name : Field → String
  | .intent => "intent"
  | .domain => "domain"
  | .ttl => "ttl"
  | .children => "children"
  | .concurrency => "concurrency"
  | .rate => "rate"
  | .payload => "payload"
  | .pauseAttested => "pauseBeforePropagate"

/-- The other spelling of a field; only the attestation has one of its own. -/
def otherName : Field → String
  | .pauseAttested => "pause_before_propagate"
  | field => field.name

end Field

/-- What a field has to hold. -/
inductive Expected where
  | string
  | integer
  | number
  | boolean
deriving DecidableEq

def Expected.description : Expected → String
  | .string => "a string"
  | .integer => "an integer"
  | .number => "a number"
  | .boolean => "a boolean"

/-- Why a JSON value is no request. -/
inductive Error where
  | notAnObject (found : Json.Kind)
  | missingField (field : Field)
  | invalidType (field : Field) (expected : Expected) (found : Json.Kind)
deriving DecidableEq

def Error.message : Error → String
  | .notAnObject found => "request must be a JSON object, got " ++ found.description
  | .missingField field => "missing required field `" ++ field.name ++ "`"
  | .invalidType field expected found =>
    "field `" ++ field.name ++ "` must be " ++ expected.description ++ ", got " ++
      found.description

/-- The members of the object that a request is read from. -/
abbrev Members := List (String × Json)

/-- The value of a field, under its main spelling if that stands there at all. -/
def lookup (members : Members) (field : Field) : Option Json :=
  (members.lookup field.name).or (members.lookup field.otherName)

/-- Reads a field that has to be there. -/
def required {α : Type} (members : Members) (field : Field) (expected : Expected)
    (read : Json → Option α) : Except Error α :=
  match lookup members field with
  | none => .error (.missingField field)
  | some value =>
    match read value with
    | none => .error (.invalidType field expected value.kind)
    | some a => .ok a

def readText : Json → Option String
  | .string s => some s
  | _ => none

/-- The integer of a number within signed 64 bits. -/
def readInteger : Json → Option Int64
  | .number n => n.toInt64?
  | _ => none

/-- The double of a number. -/
def readNumber : Json → Option Binary64
  | .number n => some n.toBinary64
  | _ => none

def readBoolean : Json → Option Bool
  | .boolean b => some b
  | _ => none

/-- Reads the payload: absent and null both mean that there is none. -/
def optionalText (members : Members) (field : Field) : Except Error (Option String) :=
  match lookup members field with
  | none | some .null => .ok none
  | some (.string s) => .ok (some s)
  | some other => .error (.invalidType field .string other.kind)

def ofMembers (members : Members) : Except Error Request := do
  let intent ← required members .intent .string readText
  let domain ← required members .domain .string readText
  let ttl ← required members .ttl .integer readInteger
  let children ← required members .children .integer readInteger
  let concurrency ← required members .concurrency .integer readInteger
  let rate ← required members .rate .number readNumber
  let payload ← optionalText members .payload
  let pauseAttested ← required members .pauseAttested .boolean readBoolean
  return { intent, domain, ttl, children, concurrency, rate, payload, pauseAttested }

def ofJson : Json → Except Error Request
  | .object members => ofMembers members
  | other => .error (.notAnObject other.kind)

end Request

end AdmissionGate
