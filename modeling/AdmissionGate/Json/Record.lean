import AdmissionGate.Json.Document

/-!
# Json/Record — reading documents as records of named fields

A record is written as an object, in which a known key stands at most once and unknown members are
passed over unread, or as an array of its fields in their declared order, which may stop early but
has no more items than fields.
-/

namespace AdmissionGate.Json

/-- The fields of a record that its document gives. -/
structure Record where
  /-- The record was written as an array. -/
  listed : Bool
  fields : List (String × Document)

namespace Document

def text? : Document → Option String
  | .string s => s
  | _ => none

def boolean? : Document → Option Bool
  | .boolean b => some b
  | _ => none

def number? : Document → Option Number
  | .number n => n.toNumber?
  | _ => none

def int64? (d : Document) : Option Int64 := d.number?.bind Number.toInt64?

def uint32? (d : Document) : Option UInt32 :=
  match d.number? with
  | some (.integer i _) => if 0 ≤ i ∧ i < UInt32.size then some (UInt32.ofNat i.toNat) else none
  | _ => none

def binary64? (d : Document) : Option Binary64 := d.number?.map Number.toBinary64

/-- The items of an array document, each read in the same way. -/
def items? {α : Type} (read : Document → Option α) : Document → Option (List α)
  | .array items => items.mapM read
  | _ => none

/-- Reads null as nothing and all else as something. -/
def nullable? {α : Type} (read : Document → Option α) : Document → Option (Option α)
  | .null => some none
  | other => (read other).map some

/-- The fields of a record with these names. -/
def record? (names : List String) : Document → Option Record
  | .object members => do
    let members ← members.mapM fun (key, value) => key.map (·, value)
    let known := members.filter fun (key, _) => key ∈ names
    if (known.map Prod.fst).Nodup then some ⟨false, known⟩ else none
  | .array items => if items.length ≤ names.length then some ⟨true, names.zip items⟩ else none
  | _ => none

end Document

namespace Record

/-- Reads a field that has to be there. -/
def required? {α : Type} (r : Record) (name : String) (read : Document → Option α) : Option α :=
  (r.fields.lookup name).bind read

/-- Reads a field that may be null, and that may be absent from an object. -/
def nullable? {α : Type} (r : Record) (name : String) (read : Document → Option α) :
    Option (Option α) :=
  match r.fields.lookup name with
  | some value => value.nullable? read
  | none => if r.listed then none else some none

/-- Reads a field that has a value of its own when it is absent. -/
def defaulted? {α : Type} (r : Record) (name : String) (read : Document → Option α) (absent : α) :
    Option α :=
  match r.fields.lookup name with
  | some value => read value
  | none => some absent

end Record

end AdmissionGate.Json
