import AdmissionGate.Json.Writer
import AdmissionGate.Schema

/-!
# Schema/Writer — schemas as JSON values

The keys of a schema stand in a fixed order, notes first.  Named schemas are written as references;
their definitions are gathered, in the order of their names, at the end of the published value.
-/

namespace AdmissionGate.Schema

/-- The member that names the types: a text for one type, else a list. -/
def kindsMember (expected : List Kind) : String × Json :=
  ("type", match expected with
    | [kind] => .string kind.name
    | _ => .ofStrings (expected.map Kind.name))

mutual

def members : Schema → List (String × Json)
  | .anything => []
  | .kinds expected => [kindsMember expected]
  | .numeric expected width minimum =>
    [kindsMember expected, ("format", .string width)] ++
      (match minimum with
        | some minimum => [("minimum", .ofInt64 (Int64.ofInt minimum))]
        | none => [])
  | .texts listed => [kindsMember [.string], ("enum", .ofStrings listed)]
  | .items expected item => [kindsMember expected, ("items", .object (members item))]
  | .record properties required =>
    [kindsMember [.object], ("properties", .object (propertyMembers properties))] ++
      (if required.isEmpty then [] else [("required", .ofStrings required)])
  | .anyOf options => [("anyOf", .array (optionValues options))]
  | .named name _ => [("$ref", .string ("#/$defs/" ++ name))]
  | .described note schema => ("description", .string note) :: members schema

def propertyMembers : List (String × Schema) → List (String × Json)
  | [] => []
  | (key, schema) :: rest => (key, .object (members schema)) :: propertyMembers rest

def optionValues : List Schema → List Json
  | [] => []
  | schema :: rest => .object (members schema) :: optionValues rest

end

mutual

/-- The named schemas inside a schema with their written forms, those inside them included. -/
def definitions : Schema → List (String × Json)
  | .items _ item => definitions item
  | .record properties _ => propertyDefinitions properties
  | .anyOf options => optionDefinitions options
  | .named name schema => (name, .object (members schema)) :: definitions schema
  | .described _ schema => definitions schema
  | _ => []

/-- The named schemas inside the properties of a record. -/
def propertyDefinitions : List (String × Schema) → List (String × Json)
  | [] => []
  | (_, schema) :: rest => definitions schema ++ propertyDefinitions rest

/-- The named schemas inside the options of a choice. -/
def optionDefinitions : List Schema → List (String × Json)
  | [] => []
  | schema :: rest => definitions schema ++ optionDefinitions rest

end

/-- A schema under a title, as it is published. -/
def publish (title : String) (schema : Schema) : Json :=
  .object (
    [("$schema", .string "https://json-schema.org/draft/2020-12/schema"),
      ("title", .string title)] ++ schema.members ++
    (match Json.sortMembers schema.definitions with
      | [] => []
      | definitions => [("$defs", .object definitions)]))

end AdmissionGate.Schema
