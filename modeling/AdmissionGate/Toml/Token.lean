import AdmissionGate.Text.Digits

/-!
# Toml/Token — from characters to tokens

A scanner reads one character at a time.  Strings come out decoded, with a note whether they span
lines.  A run of characters without meaning of their own is a bare token: part of a key or of a
number, date or truth value.  Blanks are tokens too, since some places admit none.  Comments leave
no token.  Carriage returns stand only before line feeds, and control characters nowhere.
-/

namespace AdmissionGate.Toml

inductive Token where
  | equals
  | comma
  | dot
  | openBracket
  | closeBracket
  | openBrace
  | closeBrace
  | blank (c : Char)
  | lineBreak
  | bare (lexeme : List Char)
  | string (multiline : Bool) (text : String)
deriving DecidableEq

/-- The two quotation marks.  Between double quotes a backslash escapes; between single quotes every
character stands for itself. -/
inductive Quote where
  | double
  | single
deriving DecidableEq

def Quote.mark : Quote → Char
  | .double => '\x22'
  | .single => '\x27'

/-- What the scanner is inside of.  The characters of a string are kept last one first. -/
inductive Mode where
  | between
  | bare (lexeme : List Char)
  | comment
  /-- A carriage return has been read; its line feed is due. -/
  | lineEnd
  /-- One quotation mark has been read. -/
  | openedOnce (q : Quote)
  /-- Two quotation marks have been read: an empty string or the start of a multi-line one. -/
  | openedTwice (q : Quote)
  /-- Three quotation marks have been read; a line break right here is no part of the string. -/
  | openedThrice (q : Quote)
  | openedThriceReturn (q : Quote)
  | line (q : Quote) (chars : List Char)
  | lines (q : Quote) (chars : List Char)
  | linesReturn (q : Quote) (chars : List Char)
  /-- Quotation marks inside a multi-line string; three of them end it. -/
  | closing (q : Quote) (chars : List Char) (marks : Nat)
  | escape (multiline : Bool) (chars : List Char)
  | code (multiline : Bool) (chars : List Char) (digits : List Char) (due : Nat)
  /-- After a backslash at the end of a line: all blanks and line breaks are dropped. -/
  | fold (chars : List Char) (broken : Bool)
  | foldReturn (chars : List Char)

/-- A scanner: its mode and the tokens so far, last one first. -/
structure Scanner where
  mode : Mode
  tokens : List Token

/-- Characters that no comment and no string holds as they are. -/
def isControl (c : Char) : Bool :=
  (c.toNat < 0x20 && c != '\t') || c.toNat == 0x7f

namespace Scanner

def initial : Scanner := ⟨.between, []⟩

def emit (s : Scanner) (t : Token) : Scanner := ⟨.between, t :: s.tokens⟩

def emitString (s : Scanner) (multiline : Bool) (chars : List Char) : Scanner :=
  s.emit (.string multiline (String.ofList chars.reverse))

/-- The same tokens in another mode. -/
def goto (s : Scanner) (mode : Mode) : Scanner := { s with mode := mode }

/-- Goes back into a string after an escape. -/
def resume (s : Scanner) (multiline : Bool) (chars : List Char) : Scanner :=
  s.goto (if multiline then .lines .double chars else .line .double chars)

def start (s : Scanner) (c : Char) : Scanner :=
  if c = ' ' ∨ c = '\t' then s.emit (.blank c)
  else if c = '\n' then s.emit .lineBreak
  else if c = '\r' then s.goto .lineEnd
  else if c = '=' then s.emit .equals
  else if c = ',' then s.emit .comma
  else if c = '.' then s.emit .dot
  else if c = '[' then s.emit .openBracket
  else if c = ']' then s.emit .closeBracket
  else if c = '\x7b' then s.emit .openBrace
  else if c = '\x7d' then s.emit .closeBrace
  else if c = '#' then s.goto .comment
  else if c = '\x22' then s.goto (.openedOnce .double)
  else if c = '\x27' then s.goto (.openedOnce .single)
  else s.goto (.bare [c])

/-- Characters that end a bare token. -/
def endsBare (c : Char) : Bool :=
  c ∈ [' ', '\t', '\n', '\r', '=', ',', '.', '[', ']', '\x7b', '\x7d', '#', '\x22', '\x27']

/-- Reads a character of a string on one line. -/
def inLine (s : Scanner) (q : Quote) (chars : List Char) (c : Char) : Option Scanner :=
  if c = q.mark then some (s.emitString false chars)
  else if c = '\\' ∧ q = .double then some (s.goto (.escape false chars))
  else if isControl c then none
  else some (s.goto (.line q (c :: chars)))

/-- Reads a character of a string of several lines. -/
def inLines (s : Scanner) (q : Quote) (chars : List Char) (c : Char) : Option Scanner :=
  if c = q.mark then some (s.goto (.closing q chars 1))
  else if c = '\\' ∧ q = .double then some (s.goto (.escape true chars))
  else if c = '\r' then some (s.goto (.linesReturn q chars))
  else if c = '\n' then some (s.goto (.lines q (c :: chars)))
  else if isControl c then none
  else some (s.goto (.lines q (c :: chars)))

/-- Reads a character that a folded line end drops, or else goes on with the string. -/
def inFold (s : Scanner) (chars : List Char) (broken : Bool) (c : Char) : Option Scanner :=
  if c = ' ' ∨ c = '\t' then some (s.goto (.fold chars broken))
  else if c = '\n' then some (s.goto (.fold chars true))
  else if c = '\r' then some (s.goto (.foldReturn chars))
  else if broken then s.inLines .double chars c
  else none

/-- The character that a one-letter escape stands for. -/
def escaped? (c : Char) : Option Char :=
  if c = 'b' then some '\x08'
  else if c = 't' then some '\t'
  else if c = 'n' then some '\n'
  else if c = 'f' then some '\x0c'
  else if c = 'r' then some '\r'
  else if c = 'e' then some '\x1b'
  else if c = '\x22' ∨ c = '\\' then some c
  else none

/-- How many digits follow the letter of a numeric escape. -/
def codeLength? (c : Char) : Option Nat :=
  if c = 'x' then some 2
  else if c = 'u' then some 4
  else if c = 'U' then some 8
  else none

/-- The character of a code point, unless it is a surrogate or beyond the last one. -/
def ofCode? (n : Nat) : Option Char :=
  if n < 0xd800 ∨ (0xe000 ≤ n ∧ n < 0x110000) then some (Char.ofNat n) else none

/-- Reads the character after a backslash. -/
def inEscape (s : Scanner) (multiline : Bool) (chars : List Char) (c : Char) : Option Scanner :=
  match escaped? c, codeLength? c with
  | some e, _ => some (s.resume multiline (e :: chars))
  | none, some due => some (s.goto (.code multiline chars [] due))
  -- No escape is meant: the backslash has to end the line.
  | none, none => if multiline then s.inFold chars false c else none

/-- Ends a multi-line string after its closing marks, of which up to two more belong to it. -/
def close (s : Scanner) (q : Quote) (chars : List Char) (marks : Nat) : Scanner :=
  s.emitString true (List.replicate (marks - 3) q.mark ++ chars)

def step (s : Scanner) (c : Char) : Option Scanner :=
  match s.mode with
  | .between => some (s.start c)
  | .bare lexeme =>
    if endsBare c then some ((s.emit (.bare lexeme.reverse)).start c)
    else some (s.goto (.bare (c :: lexeme)))
  | .comment =>
    if c = '\n' then some (s.emit .lineBreak)
    else if c = '\r' then some (s.goto .lineEnd)
    else if isControl c then none
    else some s
  | .lineEnd => if c = '\n' then some (s.emit .lineBreak) else none
  | .openedOnce q => if c = q.mark then some (s.goto (.openedTwice q)) else s.inLine q [] c
  -- The string was empty, and `c` stands behind it.
  | .openedTwice q =>
    if c = q.mark then some (s.goto (.openedThrice q)) else some ((s.emitString false []).start c)
  | .openedThrice q =>
    if c = '\n' then some (s.goto (.lines q []))
    else if c = '\r' then some (s.goto (.openedThriceReturn q))
    else s.inLines q [] c
  | .openedThriceReturn q => if c = '\n' then some (s.goto (.lines q [])) else none
  | .line q chars => s.inLine q chars c
  | .lines q chars => s.inLines q chars c
  | .linesReturn q chars =>
    if c = '\n' then some (s.goto (.lines q ('\n' :: '\r' :: chars))) else none
  | .closing q chars marks =>
    if c = q.mark then
      -- At most two marks belong to the string before the three that end it.
      if marks = 4 then some (s.close q chars 5) else some (s.goto (.closing q chars (marks + 1)))
    else if 3 ≤ marks then some ((s.close q chars marks).start c)
    -- One mark or two are part of the string.
    else s.inLines q (List.replicate marks q.mark ++ chars) c
  | .escape multiline chars => s.inEscape multiline chars c
  | .code multiline chars digits due =>
    let digits := digits ++ [c]
    if !Text.isHexDigit c then none
    else if digits.length < due then some (s.goto (.code multiline chars digits due))
    else ((Text.ofHexChars? digits).bind ofCode?).map fun d => s.resume multiline (d :: chars)
  | .fold chars broken => s.inFold chars broken c
  | .foldReturn chars => if c = '\n' then some (s.goto (.fold chars true)) else none

/-- Ends the text; a string or a carriage return must not be open. -/
def finish (s : Scanner) : Option Scanner :=
  match s.mode with
  | .between | .comment => some s
  | .bare lexeme => some (s.emit (.bare lexeme.reverse))
  | .openedTwice _ => some (s.emitString false [])
  | .closing q chars marks => if 3 ≤ marks then some (s.close q chars marks) else none
  | _ => none

end Scanner

/-- The tokens of a text, if it can be divided into tokens.  A byte order mark at its start is
passed over. -/
def tokens? (text : String) : Option (List Token) := do
  let chars := match text.toList with
    | '\ufeff' :: rest => rest
    | chars => chars
  let s ← chars.foldlM Scanner.step .initial
  let s ← s.finish
  pure s.tokens.reverse

end AdmissionGate.Toml
