import AdmissionGate.Sha256

/-!
# Fingerprint — stable identities of findings

A fingerprint is the digest of a framed list of parts.  Each part is framed as its length in bytes,
a colon and its bytes, so that no character of a part can move into a neighbouring one.
-/

namespace AdmissionGate.Fingerprint

def bytes (text : String) : List UInt8 := text.toUTF8.data.toList

/-- A part with its length in bytes before it. -/
def framePart (part : String) : List UInt8 :=
  bytes (Text.decimal part.utf8ByteSize) ++ bytes ":" ++ bytes part

def frame (parts : List String) : List UInt8 := parts.flatMap framePart

/-- The bytes that identify a finding: its predicate, its code, and the values looked at. -/
def message (predicate code : String) (values : List String) : List UInt8 :=
  frame (predicate :: code :: values)

/-- The fingerprint of a finding. -/
def compute (predicate code : String) (values : List String) : String :=
  Sha256.hexDigest (message predicate code values)

end AdmissionGate.Fingerprint
