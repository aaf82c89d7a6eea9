import AdmissionGate.Json.Basic
import AdmissionGate.Json.Token

/-!
# Json/Document — the structure of a JSON text

A document is the tree that a text spells, before anything is asked of its contents: members keep
their order and repetitions, numbers their spelling, and a string with an unpaired surrogate is
still a string.  A stack machine builds it from the tokens.

Reading a document as a free-form value asks more: nesting is limited, every number is in range,
every string is whole, and of several members under one key the last counts.
-/

namespace AdmissionGate.Json

/-- The tree that a JSON text spells. -/
inductive Document where
  | null
  | boolean (value : Bool)
  | number (numeral : Numeral)
  | string (text : Option String)
  | array (items : List Document)
  | object (members : List (Option String × Document))

/-- An array or object that is open, with its finished parts last one first. -/
inductive Frame where
  | array (items : List Document)
  | object (members : List (Option String × Document)) (key : Option String)

/-- What is due next, under the stack of open arrays and objects. -/
inductive Stage where
  | value (stack : List Frame)
  | itemOrEnd (stack : List Frame)
  | keyOrEnd (stack : List Frame)
  | key (stack : List Frame) (members : List (Option String × Document))
  | colon (stack : List Frame) (members : List (Option String × Document)) (key : Option String)
  | ended (stack : List Frame) (value : Document)

namespace Stage

/-- Reads the first token of a value. -/
def enter (stack : List Frame) : Token → Option Stage
  | .null => some (.ended stack .null)
  | .boolean b => some (.ended stack (.boolean b))
  | .number n => some (.ended stack (.number n))
  | .string s => some (.ended stack (.string s))
  | .openArray => some (.itemOrEnd stack)
  | .openObject => some (.keyOrEnd stack)
  | _ => none

/-- Reads one token. -/
def step : Stage → Token → Option Stage
  | .value stack, t => enter stack t
  | .itemOrEnd stack, .closeArray => some (.ended stack (.array []))
  | .itemOrEnd stack, t => enter (.array [] :: stack) t
  | .keyOrEnd stack, .closeObject => some (.ended stack (.object []))
  | .keyOrEnd stack, .string k => some (.colon stack [] k)
  | .key stack members, .string k => some (.colon stack members k)
  | .colon stack members k, .colon => some (.value (.object members k :: stack))
  -- After a comma another part is due: no bracket may close there.
  | .ended (.array items :: stack) v, .comma => some (.value (.array (v :: items) :: stack))
  | .ended (.array items :: stack) v, .closeArray =>
    some (.ended stack (.array (v :: items).reverse))
  | .ended (.object members k :: stack) v, .comma => some (.key stack ((k, v) :: members))
  | .ended (.object members k :: stack) v, .closeObject =>
    some (.ended stack (.object ((k, v) :: members).reverse))
  | _, _ => none

/-- The document, when one has ended and nothing is open. -/
def document? : Stage → Option Document
  | .ended [] v => some v
  | _ => none

end Stage

/-- The document that a list of tokens spells, if it is exactly one. -/
def Document.ofTokens? (tokens : List Token) : Option Document :=
  (tokens.foldlM Stage.step (.value [])).bind Stage.document?

/-- The document that a text spells, if it is one. -/
def Document.ofText? (text : String) : Option Document :=
  (tokens? text.toList).bind Document.ofTokens?

/-- Free-form values are nested to this depth at most. -/
def maxNesting : Nat := 127

mutual

/-- Reads a document as a free-form value of at most `room` levels. -/
def ofDocument? (room : Nat) : Document → Option Json
  | .null => some .null
  | .boolean b => some (.boolean b)
  | .number n => n.toNumber?.map .number
  | .string s => s.map .string
  | .array items =>
    match room with
    | 0 => none
    | room + 1 => (itemsOfDocuments? room items).map .array
  | .object members =>
    match room with
    | 0 => none
    | room + 1 => (membersOfDocuments? room members).map (.object ∘ sortMembers)

def itemsOfDocuments? (room : Nat) : List Document → Option (List Json)
  | [] => some []
  | item :: rest => do
    let item ← ofDocument? room item
    let rest ← itemsOfDocuments? room rest
    pure (item :: rest)

def membersOfDocuments? (room : Nat) :
    List (Option String × Document) → Option (List (String × Json))
  | [] => some []
  | (key, value) :: rest => do
    let key ← key
    let value ← ofDocument? room value
    let rest ← membersOfDocuments? room rest
    pure ((key, value) :: rest)

end

def ofText? (text : String) : Option Json :=
  (Document.ofText? text).bind (ofDocument? maxNesting)

end AdmissionGate.Json
