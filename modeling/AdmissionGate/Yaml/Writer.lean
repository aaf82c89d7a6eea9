import AdmissionGate.Json.Basic
import AdmissionGate.Yaml.Scalar

/-!
# Yaml/Writer — JSON values as YAML documents

Arrays and objects are written in block form, one item or member a line.  Inside an object an array
stands at the indentation of its key; inside an array, parts start right behind the dash.  A key
that spans lines or has more than 128 bytes stands behind a question mark of its own.
-/

namespace AdmissionGate.Yaml

/-- YAML numbers are laid out as in JSON, but a positive exponent has no sign. -/
def numberLayout : Binary64.Layout := ⟨fun e => -5 < e && e ≤ 16, true, "", .even⟩

def numberText : Json.Number → String
  | .integer i _ => Text.signedDecimal i
  | .fraction x => x.write numberLayout

/-- A text with a line break at its end, unless one stands there. -/
def endLine (text : List Char) : List Char :=
  if text.getLast?.any isBreak then text else text ++ ['\n']

/-- What a value follows. -/
inductive Position where
  /-- Nothing: the value is the document. -/
  | top
  /-- A dash, a question mark or the colon after one: block parts start on the same line. -/
  | mark
  /-- The colon of a key: block parts start on a line of their own. -/
  | key
deriving DecidableEq

/-- Block parts, of which all but the first start with the indentation. -/
def block (indent : Nat) (parts : List (List Char)) : List Char :=
  match parts with
  | [] => []
  | first :: rest => first ++ rest.flatMap (pad indent ++ ·)

/-- Puts a block after what it follows. -/
def placeBlock (position : Position) (indent : Nat) (parts : List (List Char)) : List Char :=
  match position with
  | .top => block indent parts
  | .mark => ' ' :: block indent parts
  | .key => '\n' :: pad indent ++ block indent parts

/-- Puts a scalar after what it follows. -/
def placeScalar (position : Position) (scalar : List Char) : List Char :=
  endLine (if position = .top then scalar else ' ' :: scalar)

/-- Holds of keys that stand on one line with their value. -/
def isSimpleKey (key : String) : Bool :=
  !key.toList.any isBreak && key.utf8ByteSize ≤ 128

/-- The indentation of the parts of an array. -/
def arrayIndent (position : Position) (indent : Nat) : Nat :=
  if position = .mark then indent + 2 else indent

/-- The indentation of the members of an object. -/
def objectIndent (position : Position) (indent : Nat) : Nat :=
  if position = .top then indent else indent + 2

mutual

/-- A value after what it follows, inside an array or object of an indentation. -/
def valueChars (position : Position) (indent : Nat) : Json → List Char
  | .null => placeScalar position "null".toList
  | .boolean true => placeScalar position "true".toList
  | .boolean false => placeScalar position "false".toList
  | .number n => placeScalar position (numberText n).toList
  | .string s => placeScalar position (stringChars (indent + 2) s)
  | .array [] => placeScalar position ['[', ']']
  | .array items =>
    -- Under a key, dashes stand below the key itself.
    let inner := arrayIndent position indent
    placeBlock position inner (itemParts inner items)
  | .object [] => placeScalar position ['\x7b', '\x7d']
  | .object members =>
    let inner := objectIndent position indent
    placeBlock position inner (memberParts inner members)

/-- The items of an array, each with its dash. -/
def itemParts (indent : Nat) : List Json → List (List Char)
  | [] => []
  | item :: rest => ('-' :: valueChars .mark indent item) :: itemParts indent rest

/-- The members of an object, each with its key. -/
def memberParts (indent : Nat) : List (String × Json) → List (List Char)
  | [] => []
  | (key, value) :: rest =>
    let keyChars := stringChars (indent + 2) key
    let part :=
      if isSimpleKey key then keyChars ++ ':' :: valueChars .key indent value
      else '?' :: placeScalar .mark keyChars ++ pad indent ++ ':' :: valueChars .mark indent value
    part :: memberParts indent rest

end

/-- The YAML document of a value, with its marker. -/
def document (value : Json) : String :=
  String.ofList ("---\n".toList ++ valueChars .top 0 value)

end AdmissionGate.Yaml
