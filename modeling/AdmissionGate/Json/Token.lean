import AdmissionGate.Json.Number

/-!
# Json/Token — from characters to tokens

A scanner reads one character at a time.  Blanks between tokens are space, tab, line feed and
carriage return.  A string token carries its decoded text, or nothing when the escapes in it hold a
surrogate without its partner; whether that is an error depends on who reads the string.
-/

namespace AdmissionGate.Json

inductive Token where
  | openArray
  | closeArray
  | openObject
  | closeObject
  | colon
  | comma
  | null
  | boolean (value : Bool)
  | number (numeral : Numeral)
  | string (text : Option String)
deriving DecidableEq

/-- The part of a string that has been read, last character first. -/
structure Partial where
  chars : List Char
  /-- A leading surrogate that waits for its partner. -/
  leading : Option Nat
  /-- Some surrogate had no partner. -/
  broken : Bool

namespace Partial

def empty : Partial := ⟨[], none, false⟩

def push (p : Partial) (c : Char) : Partial :=
  ⟨c :: p.chars, none, p.broken || p.leading.isSome⟩

/-- Adds the code unit of an escape; two surrogates in a row make one character. -/
def pushUnit (p : Partial) (unit : Nat) : Partial :=
  match p.leading with
  | some high =>
    if 0xdc00 ≤ unit ∧ unit < 0xe000 then
      ⟨Char.ofNat (0x10000 + (high - 0xd800) * 0x400 + (unit - 0xdc00)) :: p.chars, none, p.broken⟩
    -- The new unit is dropped too, which does not matter to a broken string.
    else { p with leading := none, broken := true }
  | none =>
    if 0xd800 ≤ unit ∧ unit < 0xdc00 then { p with leading := some unit }
    else if 0xdc00 ≤ unit ∧ unit < 0xe000 then { p with broken := true }
    else { p with chars := Char.ofNat unit :: p.chars }

/-- The whole text, unless a surrogate had no partner. -/
def text? (p : Partial) : Option String :=
  if p.broken || p.leading.isSome then none else some (String.ofList p.chars.reverse)

end Partial

/-- What the scanner is inside of. -/
inductive Mode where
  | between
  | number (lexeme : List Char)
  | word (lexeme : List Char)
  | string (read : Partial)
  | escape (read : Partial)
  | unit (read : Partial) (digits : List Char)

/-- A scanner: its mode and the tokens so far, last one first. -/
structure Scanner where
  mode : Mode
  tokens : List Token

namespace Scanner

/-- The scanner before the first character. -/
def initial : Scanner := ⟨.between, []⟩

/-- Ends a token. -/
def emit (s : Scanner) (t : Token) : Scanner := ⟨.between, t :: s.tokens⟩

def keyword? (word : String) : Option Token :=
  if word = "null" then some .null
  else if word = "true" then some (.boolean true)
  else if word = "false" then some (.boolean false)
  else none

/-- Ends a number or a word; a string has to be closed by its quote. -/
def flush (s : Scanner) : Option Scanner :=
  match s.mode with
  | .between => some s
  | .number lexeme => (Numeral.ofChars? lexeme.reverse).map fun n => s.emit (.number n)
  | .word lexeme => (keyword? (String.ofList lexeme.reverse)).map s.emit
  | _ => none

/-- Characters that numbers are spelled with. -/
def isNumeric (c : Char) : Bool :=
  c.isDigit || c == '-' || c == '+' || c == '.' || c == 'e' || c == 'E'

def start (s : Scanner) (c : Char) : Option Scanner :=
  if c = ' ' ∨ c = '\t' ∨ c = '\n' ∨ c = '\r' then some s
  else if c = '[' then some (s.emit .openArray)
  else if c = ']' then some (s.emit .closeArray)
  else if c = '{' then some (s.emit .openObject)
  else if c = '}' then some (s.emit .closeObject)
  else if c = ':' then some (s.emit .colon)
  else if c = ',' then some (s.emit .comma)
  else if c = '"' then some { s with mode := .string .empty }
  else if c.isDigit || c == '-' then some { s with mode := .number [c] }
  else if c.isLower then some { s with mode := .word [c] }
  else none

/-- The character that a one-letter escape stands for. -/
def escaped? (c : Char) : Option Char :=
  if c = '"' ∨ c = '\\' ∨ c = '/' then some c
  else if c = 'b' then some '\x08'
  else if c = 'f' then some '\x0c'
  else if c = 'n' then some '\n'
  else if c = 'r' then some '\r'
  else if c = 't' then some '\t'
  else none

def step (s : Scanner) (c : Char) : Option Scanner :=
  match s.mode with
  | .between => s.start c
  -- A number or a word ends at the first character that is not of its kind.
  | .number lexeme =>
    if isNumeric c then some { s with mode := .number (c :: lexeme) }
    else s.flush.bind (·.start c)
  | .word lexeme =>
    if c.isLower then some { s with mode := .word (c :: lexeme) }
    else s.flush.bind (·.start c)
  | .string read =>
    if c = '"' then some (s.emit (.string read.text?))
    else if c = '\\' then some { s with mode := .escape read }
    else if c.toNat < 0x20 then none
    else some { s with mode := .string (read.push c) }
  | .escape read =>
    if c = 'u' then some { s with mode := .unit read [] }
    else (escaped? c).map fun e => { s with mode := .string (read.push e) }
  | .unit read digits =>
    if digits.length < 3 then
      if Text.isHexDigit c then some { s with mode := .unit read (digits ++ [c]) } else none
    else (Text.ofHexChars? (digits ++ [c])).map fun u =>
      { s with mode := .string (read.pushUnit u) }

end Scanner

/-- The tokens of a list of characters, if it can be divided into tokens. -/
def tokens? (cs : List Char) : Option (List Token) := do
  let s ← cs.foldlM Scanner.step .initial
  let s ← s.flush
  pure s.tokens.reverse

end AdmissionGate.Json
