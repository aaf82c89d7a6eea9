import AdmissionGate.Json.Basic

/-!
# Json/Writer — the text of JSON values

The compact form has no blanks.  The indented form puts each item and member on a line of its own,
two spaces deeper than its array or object, and keeps empty arrays and objects on one line.
Members are written in the order they have.
-/

namespace AdmissionGate.Json

/-- A character inside quotes: quote, backslash and control characters are escaped. -/
def escapeChar (c : Char) : List Char :=
  if c = '"' then ['\\', '"']
  else if c = '\\' then ['\\', '\\']
  else if c = '\x08' then ['\\', 'b']
  else if c = '\t' then ['\\', 't']
  else if c = '\n' then ['\\', 'n']
  else if c = '\x0c' then ['\\', 'f']
  else if c = '\r' then ['\\', 'r']
  else if c.toNat < 0x20 then '\\' :: 'u' :: (Text.paddedHex 4 c.toNat).toList
  else [c]

def quote (text : String) : String :=
  String.ofList ('"' :: text.toList.flatMap escapeChar ++ ['"'])

mutual

/-- The compact text of a value. -/
def compact : Json → String
  | .null => "null"
  | .boolean true => "true"
  | .boolean false => "false"
  | .number n => n.write
  | .string s => quote s
  | .array items => "[" ++ ",".intercalate (compactItems items) ++ "]"
  | .object members => "\x7b" ++ ",".intercalate (compactMembers members) ++ "\x7d"

def compactItems : List Json → List String
  | [] => []
  | item :: rest => item.compact :: compactItems rest

def compactMembers : List (String × Json) → List String
  | [] => []
  | (key, value) :: rest => (quote key ++ ":" ++ value.compact) :: compactMembers rest

end

/-- A line break and the blanks of an indentation. -/
def lineBreak (indent : Nat) : String :=
  "\n" ++ String.ofList (List.replicate indent ' ')

/-- Parts in brackets, each on a line of its own; the brackets alone when there is no part. -/
def bracketLines (indent : Nat) (opening closing : String) (parts : List String) : String :=
  if parts.isEmpty then opening ++ closing
  else
    opening ++ lineBreak (indent + 2) ++ ("," ++ lineBreak (indent + 2)).intercalate parts ++
      lineBreak indent ++ closing

mutual

/-- The indented text of a value that starts on a line of this indentation. -/
def indented (indent : Nat) : Json → String
  | .array items => bracketLines indent "[" "]" (indentedItems (indent + 2) items)
  | .object members =>
    bracketLines indent "\x7b" "\x7d" (indentedMembers (indent + 2) members)
  | scalar => scalar.compact

def indentedItems (indent : Nat) : List Json → List String
  | [] => []
  | item :: rest => item.indented indent :: indentedItems indent rest

def indentedMembers (indent : Nat) : List (String × Json) → List String
  | [] => []
  | (key, value) :: rest =>
    (quote key ++ ": " ++ value.indented indent) :: indentedMembers indent rest

end

/-- The indented text of a value. -/
def pretty (value : Json) : String := value.indented 0

end AdmissionGate.Json
