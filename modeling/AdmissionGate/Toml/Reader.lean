import AdmissionGate.Toml.Token
import AdmissionGate.Toml.Tree

/-!
# Toml/Reader — from tokens to a table

A text is a sequence of lines: headers that open tables, and keys with values.  Arrays and inline
tables may span lines.  A stack machine reads one token at a time; it holds the tables so far, the
path of the header in force, and what is due next.
-/

namespace AdmissionGate.Toml

/-- Where a key is being read. -/
inductive Place where
  /-- At the start of a line. -/
  | line
  /-- In a header in single brackets. -/
  | header
  /-- In a header in double brackets. -/
  | elementHeader
  deriving DecidableEq

/-- An array or inline table that is open, or the line that a value belongs to. -/
inductive Frame where
  | line (path : List String) (key : String)
  | array (items : List Value)
  | table (children : Children) (path : List String) (key : String)

/-- What is due next.  Paths are kept last key first. -/
inductive Stage where
  | lineStart
  /-- One bracket has been read at the start of a line. -/
  | bracket
  | key (place : Place) (path : List String)
  | afterKey (place : Place) (path : List String) (key : String)
  /-- One of two closing brackets has been read. -/
  | secondBracket (path : List String) (key : String)
  | inlineKey (stack : List Frame) (children : Children) (path : List String)
  | afterInlineKey (stack : List Frame) (children : Children) (path : List String) (key : String)
  | value (stack : List Frame)
  /-- A bare value is being read; a blank may follow the date with which it starts. -/
  | bare (stack : List Frame) (lexeme : List Char) (blank : Bool)
  | ended (stack : List Frame) (value : Value)
  | lineEnd

/-- The tables so far, the header in force, and what is due next. -/
structure Reader where
  root : Children
  header : List String
  stage : Stage

namespace Reader

/-- Arrays and inline tables are nested to this depth at most. -/
def maxNesting : Nat := 80

def initial : Reader := ⟨[], [], .lineStart⟩

/-- The same tables with something else due. -/
def goto (r : Reader) (stage : Stage) : Reader := { r with stage := stage }

/-- The key that a token is, if it is one. -/
def keyOf? : Token → Option String
  | .bare lexeme => bareKey? lexeme
  | .string false text => some text
  | _ => none

/-- Puts the value of a line into the table of the header in force. -/
def store (r : Reader) (path : List String) (key : String) (value : Value) : Option Reader :=
  (within (defineDotted value path.reverse key) r.header r.root).map fun root =>
    { r with root := root, stage := .lineEnd }

/-- Opens the table of a header. -/
def openHeader (r : Reader) (isElement : Bool) (path : List String) (key : String) :
    Option Reader :=
  let parents := path.reverse
  (within (if isElement then openElement key else openTable key) parents r.root).map fun root =>
    ⟨root, parents ++ [key], .lineEnd⟩

/-- Puts a finished value where it belongs in an open array or inline table. -/
def ended (r : Reader) (stack : List Frame) (value : Value) : Token → Option Reader
  | .blank _ => some (r.goto (.ended stack value))
  -- A line break ends a value of a line, and is passed over inside brackets.
  | .lineBreak =>
    match stack with
    | [.line path key] => (r.store path key value).map (·.goto .lineStart)
    | _ => some (r.goto (.ended stack value))
  | .comma =>
    match stack with
    | .array items :: rest => some (r.goto (.value (.array (value :: items) :: rest)))
    | .table children path key :: rest =>
      (defineDotted value path.reverse key children).map fun children =>
        r.goto (.inlineKey rest children [])
    | _ => none
  | .closeBracket =>
    match stack with
    | .array items :: rest => some (r.goto (.ended rest (.array (value :: items).reverse)))
    | _ => none
  | .closeBrace =>
    match stack with
    | .table children path key :: rest =>
      (defineDotted value path.reverse key children).map fun children =>
        r.goto (.ended rest (.table (membersOf children)))
    | _ => none
  | _ => none

def value (r : Reader) (stack : List Frame) : Token → Option Reader
  | .blank _ => some (r.goto (.value stack))
  | .lineBreak =>
    match stack with
    | .array _ :: _ => some (r.goto (.value stack))
    | _ => none
  | .string _ text => some (r.goto (.ended stack (.string text)))
  | .bare lexeme => some (r.goto (.bare stack lexeme false))
  | .openBracket =>
    if maxNesting < stack.length then none else some (r.goto (.value (.array [] :: stack)))
  | .openBrace =>
    if maxNesting < stack.length then none else some (r.goto (.inlineKey stack [] []))
  -- An array may be empty or end in a comma.
  | .closeBracket =>
    match stack with
    | .array items :: rest => some (r.goto (.ended rest (.array items.reverse)))
    | _ => none
  | _ => none

/-- Ends a bare value and reads the token after it. -/
def endBare (r : Reader) (stack : List Frame) (lexeme : List Char) (t : Token) : Option Reader :=
  (bareValue? lexeme).bind fun v => r.ended stack v t

def afterKey (r : Reader) (place : Place) (path : List String) (key : String) : Token →
    Option Reader
  | .blank _ => some (r.goto (.afterKey place path key))
  | .dot => some (r.goto (.key place (key :: path)))
  | .equals => if place = .line then some (r.goto (.value [.line path key])) else none
  | .closeBracket =>
    match place with
    | .line => none
    | .header => r.openHeader false path key
    | .elementHeader => some (r.goto (.secondBracket path key))
  | _ => none

def step (r : Reader) (t : Token) : Option Reader :=
  match r.stage with
  | .lineStart =>
    match t with
    | .blank _ | .lineBreak => some r
    | .openBracket => some (r.goto .bracket)
    | t => (keyOf? t).map fun key => r.goto (.afterKey .line [] key)
  | .bracket =>
    match t with
    | .openBracket => some (r.goto (.key .elementHeader []))
    | .blank _ => some (r.goto (.key .header []))
    | t => (keyOf? t).map fun key => r.goto (.afterKey .header [] key)
  | .key place path =>
    match t with
    | .blank _ => some r
    | t => (keyOf? t).map fun key => r.goto (.afterKey place path key)
  | .afterKey place path key => r.afterKey place path key t
  | .secondBracket path key => if t = .closeBracket then r.openHeader true path key else none
  | .inlineKey stack children path =>
    match t with
    | .blank _ => some r
    | .lineBreak => if path.isEmpty then some r else none
    | .closeBrace =>
      if path.isEmpty then some (r.goto (.ended stack (.table (membersOf children)))) else none
    | t => (keyOf? t).map fun key => r.goto (.afterInlineKey stack children path key)
  | .afterInlineKey stack children path key =>
    match t with
    | .blank _ => some r
    | .dot => some (r.goto (.inlineKey stack children (key :: path)))
    | .equals => some (r.goto (.value (.table children path key :: stack)))
    | _ => none
  | .value stack => r.value stack t
  | .bare stack lexeme blank =>
    match t with
    | .bare more =>
      if blank then
        if more.head?.any Char.isDigit then
          some (r.goto (.bare stack (lexeme ++ ' ' :: more) false))
        else none
      else some (r.goto (.bare stack (lexeme ++ more) false))
    -- Points separate keys, so the scanner gives a float in two bare tokens.
    | .dot => if blank then none else some (r.goto (.bare stack (lexeme ++ ['.']) false))
    | .blank c =>
      -- Only a single space may stand between a date and a time.
      if c = ' ' && !blank && isDate lexeme then some (r.goto (.bare stack lexeme true))
      else r.endBare stack lexeme t
    | t => r.endBare stack lexeme t
  | .ended stack v => r.ended stack v t
  | .lineEnd =>
    match t with
    | .blank _ => some r
    | .lineBreak => some (r.goto .lineStart)
    | _ => none

/-- The table of the whole text, if no line is unfinished. -/
def finish (r : Reader) : Option (List (String × Value)) :=
  match r.stage with
  | .lineStart | .lineEnd => some (membersOf r.root)
  | .ended [.line path key] v => (r.store path key v).map fun r => membersOf r.root
  | .bare [.line path key] lexeme _ => do
    let v ← bareValue? lexeme
    let r ← r.store path key v
    pure (membersOf r.root)
  | _ => none

end Reader

/-- The table that a text spells, if it is one. -/
def ofText? (text : String) : Option (List (String × Value)) := do
  let tokens ← tokens? text
  let r ← tokens.foldlM Reader.step .initial
  r.finish

end AdmissionGate.Toml
