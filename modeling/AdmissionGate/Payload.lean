import AdmissionGate.Predicate
import AdmissionGate.Text.Digits

/-!
# Payload — does a payload look encoded

Three literal tests.  The first takes a whole payload of four or more characters of the base64
alphabet with up to two padding signs, so plain words of four letters count; the second looks for
an escape anywhere; the third looks at the first characters only.
-/

namespace AdmissionGate.Payload

/-- The 64 characters of the base64 alphabet. -/
def isBase64Char (c : Char) : Bool :=
  c.isAlphanum || c == '+' || c == '/'

/-- Four or more characters of the base64 alphabet, then at most two equals signs, then the end. -/
def looksBase64 (payload : String) : Bool :=
  let run := payload.toList.takeWhile isBase64Char
  let rest := payload.toList.dropWhile isBase64Char
  decide (4 ≤ run.length) && (rest == [] || rest == ['='] || rest == ['=', '='])

/-- A percent sign with two digits of base sixteen after it, anywhere. -/
def hasEscape : List Char → Bool
  | '%' :: c :: d :: rest =>
    -- After a percent sign that starts no escape, the next two characters may hold one.
    (Text.isHexDigit c && Text.isHexDigit d) || hasEscape (c :: d :: rest)
  | _ :: rest => hasEscape rest
  | [] => false

/-- Holds of payloads with a percent escape. -/
def hasUrlEscape (payload : String) : Bool := hasEscape payload.toList

def isDataUri (payload : String) : Bool := "data:".toList.isPrefixOf payload.toList

/-- Which tests a payload meets. -/
structure Signals where
  base64Like : Bool
  urlEncoded : Bool
  dataUri : Bool
deriving DecidableEq

namespace Signals

def any (s : Signals) : Bool := s.base64Like || s.urlEncoded || s.dataUri

/-- The heuristics whose test is met, in a fixed order. -/
def fired (s : Signals) : List Heuristic :=
  (if s.base64Like then [.base64Like] else []) ++ (if s.urlEncoded then [.urlEncoded] else []) ++
    (if s.dataUri then [.dataUri] else [])

/-- The code of the first heuristic whose test is met. -/
def primaryCode (s : Signals) : Option Code :=
  if s.base64Like then some .base64Payload
  else if s.urlEncoded then some .urlEncodedPayload
  else if s.dataUri then some .dataUriPayload
  else none

end Signals

def detect (payload : String) : Signals :=
  ⟨looksBase64 payload, hasUrlEscape payload, isDataUri payload⟩

/-- Holds of payloads that meet some test. -/
def isEncoded (payload : String) : Bool :=
  looksBase64 payload || hasUrlEscape payload || isDataUri payload

end AdmissionGate.Payload
