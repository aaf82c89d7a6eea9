import AdmissionGate.Binary64.Literal
import AdmissionGate.Json.Number

/-!
# Yaml/Scalar — strings as YAML scalars

A string is written plain when a reader takes it for the same string: it must not look like null, a
truth value or a number, and no character in it may have a meaning of its own there.  Otherwise it
is put between single quotes.  A string with line feeds becomes a literal block.  Between double
quotes go the strings that no other form can hold.
-/

namespace AdmissionGate.Yaml

/-- Line breaks: line feed, carriage return, next line, line separator, paragraph separator. -/
def isBreak (c : Char) : Bool :=
  c == '\n' || c == '\r' || c == '\u0085' || c == '\u2028' || c == '\u2029'

/-- Characters that are written as they are; line feeds are among them. -/
def isPrintable (c : Char) : Bool :=
  let n := c.toNat
  n == 0x0a || (0x20 ≤ n && n ≤ 0x7e) || (0xa0 ≤ n && n ≤ 0xd7ff) ||
    (0xe000 ≤ n && n ≤ 0xfffd && n != 0xfeff) || 0x10000 ≤ n

/-- Blanks, line breaks and the null character. -/
def separates (c : Char) : Bool :=
  c == ' ' || c == '\t' || c == '\x00' || isBreak c

/-- Holds at the end of a text and before a separating character. -/
def separatesHead : List Char → Bool
  | [] => true
  | c :: _ => separates c

/-! ## 1. Plain scalars that stand for something else -/

/-- A sign, if it is a plus. -/
def dropPlus : List Char → List Char
  | '+' :: rest => rest
  | rest => rest

/-- Digits with a zero in front, which are no number. -/
def isZeroPadded (cs : List Char) : Bool :=
  match cs with
  | '-' :: '0' :: rest | '+' :: '0' :: rest | '0' :: rest => !rest.isEmpty && rest.all Char.isDigit
  | _ => false

/-- A number of up to 128 bits in digits of a base. -/
def isBased (base bound : Nat) (digits : List Char) : Bool :=
  !digits.isEmpty && digits.all (fun c => (Text.hexValue? c).any (· < base)) &&
    digits.foldl (fun n c => base * n + (Text.hexValue? c).getD 0) 0 ≤ bound

/-- An integer without a minus sign, in one of four bases. -/
def isUnsignedInteger (cs : List Char) : Bool :=
  let bound := Nat.pow 2 128 - 1
  match dropPlus cs with
  | '0' :: 'x' :: rest => isBased 16 bound rest
  | '0' :: 'o' :: rest => isBased 8 bound rest
  | '0' :: 'b' :: rest => isBased 2 bound rest
  | rest => !isZeroPadded cs && isBased 10 bound rest

/-- An integer with a minus sign, in one of four bases. -/
def isNegativeInteger (cs : List Char) : Bool :=
  let bound := Nat.pow 2 127
  match cs with
  | '-' :: '0' :: 'x' :: rest => isBased 16 bound rest
  | '-' :: '0' :: 'o' :: rest => isBased 8 bound rest
  | '-' :: '0' :: 'b' :: rest => isBased 2 bound rest
  | '-' :: rest => !isZeroPadded cs && isBased 10 bound rest
  | _ => false

/-- A finite decimal, or a word for infinity or for not-a-number. -/
def isFloat (cs : List Char) : Bool :=
  let unsigned := dropPlus cs
  -- A plus is dropped before the literal is read, which would take a second sign.
  let twiceSigned := match cs with
    | '+' :: '+' :: _ | '+' :: '-' :: _ => true
    | _ => false
  let word := String.ofList unsigned
  let whole := String.ofList cs
  !twiceSigned &&
    (word ∈ [".inf", ".Inf", ".INF"] || whole ∈ ["-.inf", "-.Inf", "-.INF"] ||
      whole ∈ [".nan", ".NaN", ".NAN"] ||
      match Binary64.ofLiteral? word with
      | some (.finite _) => true
      | _ => false)

/-- Holds of the strings that, written plain, would not be read as strings. -/
def isAmbiguous (text : String) : Bool :=
  let cs := text.toList
  text ∈ ["", "~", "null", "Null", "NULL", "true", "True", "TRUE", "false", "False", "FALSE"] ||
    isUnsignedInteger cs || isNegativeInteger cs || isZeroPadded cs || isFloat cs

/-! ## 2. What forms a string can take -/

/-- Characters that cannot start a plain scalar. -/
def isStartIndicator (c : Char) : Bool :=
  c ∈ ['#', ',', '[', ']', '\x7b', '\x7d', '&', '*', '!', '|', '>', '\x27', '\x22', '%', '@',
    '\x60']

/-- A start that has a meaning of its own: an indicator, or a question mark, colon or dash before a
separating character. -/
def startsSpecially : List Char → Bool
  | [] => false
  | c :: rest =>
    isStartIndicator c || ((c == '?' || c == ':' || c == '-') && separatesHead rest)

/-- A colon before a separating character or a number sign after one, past the start. -/
def hasIndicatorInside : List Char → Bool
  | c :: d :: rest =>
    (d == ':' && separatesHead rest) || (d == '#' && separates c) || hasIndicatorInside (d :: rest)
  | _ => false

/-- Two characters in a row, the first with one property and the second with another. -/
def hasPair (p q : Char → Bool) : List Char → Bool
  | c :: d :: rest => (p c && q d) || hasPair p q (d :: rest)
  | _ => false

def isSpace (c : Char) : Bool := c == ' '

/-- Holds when every character can be written as it is and no line ends in a space. -/
def isClean (cs : List Char) : Bool :=
  cs.all isPrintable && !hasPair isSpace isBreak cs

/-- Holds when a string can be written plain. -/
def allowsPlain (cs : List Char) : Bool :=
  isClean cs && !cs.any isBreak && !(cs.head?.any isSpace) && !(cs.getLast?.any isSpace) &&
    !startsSpecially cs && !hasIndicatorInside cs &&
    !(['-', '-', '-'].isPrefixOf cs) && !(['.', '.', '.'].isPrefixOf cs)

/-- Holds when a string can stand between single quotes. -/
def allowsSingleQuotes (cs : List Char) : Bool :=
  isClean cs && !hasPair isBreak isSpace cs

/-- Holds when a string can be a literal block. -/
def allowsBlock (cs : List Char) : Bool :=
  isClean cs && !(cs.getLast?.any isSpace)

/-! ## 3. The forms -/

def pad (indent : Nat) : List Char := List.replicate indent ' '

/-- A string between single quotes; lines after the first are indented. -/
def singleQuoted (indent : Nat) (cs : List Char) : List Char :=
  let rec body (afterBreak : Bool) : List Char → List Char
    | [] => if afterBreak then pad indent else []
    | c :: rest =>
      if isBreak c then c :: body true rest
      else (if afterBreak then pad indent else []) ++
        (if c = '\x27' then [c, c] else [c]) ++ body false rest
  '\x27' :: body false cs ++ ['\x27']

/-- The code point of a character in upper-case digits of base sixteen. -/
def codePoint (width n : Nat) : List Char :=
  (Text.paddedHex width n).toList.map Char.toUpper

def doubleQuotedChar (c : Char) : List Char :=
  if isPrintable c && !isBreak c && c != '\x22' && c != '\\' then [c]
  else
    '\\' :: match c with
      | '\x00' => ['0']
      | '\x07' => ['a']
      | '\x08' => ['b']
      | '\t' => ['t']
      | '\n' => ['n']
      | '\x0b' => ['v']
      | '\x0c' => ['f']
      | '\r' => ['r']
      | '\x1b' => ['e']
      | '\x22' => ['\x22']
      | '\\' => ['\\']
      | '\u0085' => ['N']
      | '\u2028' => ['L']
      | '\u2029' => ['P']
      | c =>
        let n := c.toNat
        if n ≤ 0xff then 'x' :: codePoint 2 n
        else if n ≤ 0xffff then 'u' :: codePoint 4 n
        else 'U' :: codePoint 8 n

def doubleQuoted (cs : List Char) : List Char :=
  '\x22' :: cs.flatMap doubleQuotedChar ++ ['\x22']

/-- How a block treats the line breaks at its end: drops them, keeps one, or keeps all. -/
def chomping (cs : List Char) : List Char :=
  match cs.reverse with
  | [] => ['-']
  | [c] => if isBreak c then ['+'] else ['-']
  | c :: d :: _ => if isBreak c then (if isBreak d then ['+'] else []) else ['-']

/-- A string as a literal block, its lines indented. -/
def literalBlock (indent : Nat) (cs : List Char) : List Char :=
  let rec body (afterBreak : Bool) : List Char → List Char
    | [] => []
    | c :: rest =>
      if isBreak c then c :: body true rest
      else (if afterBreak then pad indent else []) ++ c :: body false rest
  -- Where the text starts with a blank, the indentation cannot be read off the first line.
  let hint := if cs.head?.any fun c => isSpace c || isBreak c then ['2'] else []
  '|' :: hint ++ chomping cs ++ '\n' :: body true cs

/-- A string as a scalar whose further lines stand at an indentation. -/
def stringChars (indent : Nat) (text : String) : List Char :=
  let cs := text.toList
  if '\n' ∈ cs then
    if allowsBlock cs then literalBlock indent cs else doubleQuoted cs
  else if allowsPlain cs && !isAmbiguous text then cs
  else if allowsSingleQuotes cs then singleQuoted indent cs
  else doubleQuoted cs

end AdmissionGate.Yaml
