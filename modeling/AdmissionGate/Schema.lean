import AdmissionGate.Json.Basic
import AdmissionGate.Text.Digits

/-!
# Schema — JSON schemas and the values that violate them

Schemas are those of JSON Schema, draft 7, as far as published forms need them.  A named schema is
written as a reference to a definition and means what its definition means.  Validation collects
every violation: one for each assertion that fails, at each place of the value.
-/

namespace AdmissionGate

namespace Schema

/-- The types that schemas tell apart. -/
inductive Kind where
  | null
  | boolean
  | integer
  | number
  | string
  | array
  | object
deriving DecidableEq

def Kind.name : Kind → String
  | .null => "null"
  | .boolean => "boolean"
  | .integer => "integer"
  | .number => "number"
  | .string => "string"
  | .array => "array"
  | .object => "object"

/-- Whether a value has a type.  A number without a fractional part is an integer, however it is
written. -/
def Kind.admits : Kind → Json → Bool
  | .null, .null => true
  | .boolean, .boolean _ => true
  | .integer, .number (.integer _ _) => true
  | .integer, .number (.fraction x) => decide (Nat.pow 2 1074 ∣ x.units)
  | .number, .number _ => true
  | .string, .string _ => true
  | .array, .array _ => true
  | .object, .object _ => true
  | _, _ => false

end Schema

inductive Schema where
  /-- Every value is valid. -/
  | anything
  /-- The value has one of these types. -/
  | kinds (kinds : List Schema.Kind)
  /-- The value is a number of one of these types and of a named width, perhaps with a least
  value. -/
  | numeric (kinds : List Schema.Kind) (width : String) (minimum : Option Int)
  /-- The value is one of these texts. -/
  | texts (texts : List String)
  /-- The value is an array, or of another listed type; its items are valid under a schema. -/
  | items (kinds : List Schema.Kind) (item : Schema)
  /-- The value is an object; where it has these keys, their values are valid, and it has the
  required ones. -/
  | record (properties : List (String × Schema)) (required : List String)
  /-- The value is valid under one of these schemas. -/
  | anyOf (options : List Schema)
  /-- The value is valid under a schema that is published under a name. -/
  | named (name : String) (schema : Schema)
  /-- A schema with a note for readers. -/
  | described (note : String) (schema : Schema)

namespace Schema

/-- What is wrong with a value at one place. -/
inductive Violation where
  | wrongType (expected : List Kind)
  | belowMinimum (minimum : Int)
  | notListed (texts : List String)
  | missing (key : String)
  | noOption
deriving DecidableEq

def Violation.message : Violation → String
  | .wrongType expected => "value is not of type " ++ ", ".intercalate (expected.map Kind.name)
  | .belowMinimum minimum => "value is less than the minimum of " ++ Text.signedDecimal minimum
  | .notListed listed => "value is not one of " ++ ", ".intercalate listed
  | .missing key => "\"" ++ key ++ "\" is a required property"
  | .noOption => "value is not valid under any of the schemas listed"

/-- A violation when a value has none of the types. -/
def checkKinds (expected : List Kind) (value : Json) : List Violation :=
  if expected.any (·.admits value) then [] else [.wrongType expected]

/-- Whether a number is at least an integer; holds of all other values. -/
def isAtLeast (minimum : Int) : Json → Bool
  | .number (.integer i _) => decide (minimum ≤ i)
  | .number (.fraction x) => decide (minimum * Nat.pow 2 1074 ≤ x.toUnits)
  | _ => true

/-- A violation when a number is below the least value. -/
def checkMinimum (minimum : Option Int) (value : Json) : List Violation :=
  match minimum with
  | none => []
  | some minimum => if isAtLeast minimum value then [] else [.belowMinimum minimum]

/-- A violation for each required key that an object lacks. -/
def checkRequired (required : List String) : Json → List Violation
  | .object members =>
    (required.filter fun key => (members.lookup key).isNone).map .missing
  | _ => []

mutual

/-- What is wrong with a value under a schema. -/
def violations : Schema → Json → List Violation
  | .anything, _ => []
  | .kinds expected, value => checkKinds expected value
  | .numeric expected _ minimum, value =>
    checkKinds expected value ++ checkMinimum minimum value
  | .texts listed, value =>
    checkKinds [.string] value ++
      (if listed.any fun text => value = .string text then [] else [.notListed listed])
  | .items expected item, value =>
    checkKinds expected value ++
      (match value with
        | .array values => values.flatMap (violations item)
        | _ => [])
  | .record properties required, value =>
    checkKinds [.object] value ++ propertyViolations properties value ++
      checkRequired required value
  -- What is wrong under each option is not told.
  | .anyOf options, value => if isValidUnderAny options value then [] else [.noOption]
  | .named _ schema, value => violations schema value
  | .described _ schema, value => violations schema value

/-- What is wrong with the values that an object has under keys with schemas. -/
def propertyViolations : List (String × Schema) → Json → List Violation
  | [], _ => []
  | (key, schema) :: rest, value =>
    (match value.get? key with
      | some member => violations schema member
      | none => []) ++ propertyViolations rest value

/-- Whether a value is valid under one of several schemas. -/
def isValidUnderAny : List Schema → Json → Bool
  | [], _ => false
  | schema :: rest, value => (violations schema value).isEmpty || isValidUnderAny rest value

end

end Schema

end AdmissionGate
