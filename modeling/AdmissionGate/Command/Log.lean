import AdmissionGate.Check
import AdmissionGate.Files.Host
import AdmissionGate.Timestamp.Rfc3339

/-!
# Command/Log — what a check tells while it runs

Events are written to standard error, a line each, when they are asked for.  Control characters that
terminals act on are spelled out in messages, but not in fields.
-/

namespace AdmissionGate

namespace LogEvent

inductive Level where
  | debug
  | info
deriving DecidableEq

/-- The name of a level, in five characters. -/
def Level.label : Level → String
  | .debug => "DEBUG"
  | .info => " INFO"

end LogEvent

structure LogEvent where
  level : LogEvent.Level := .debug
  message : String
  /-- Names with values, in the order of writing. -/
  fields : List (String × String)
deriving DecidableEq

namespace LogEvent

/-- A character of a message, with the control characters of terminals spelled out. -/
def spellOut (c : Char) : List Char :=
  let n := c.toNat
  if n = 0x1b ∨ n = 0x07 ∨ n = 0x08 ∨ n = 0x0c ∨ n = 0x7f then
    '\\' :: 'x' :: (Text.paddedHex 2 n).toList
  else if 0x80 ≤ n ∧ n ≤ 0x9f then
    "\\u\x7b".toList ++ (Text.paddedHex 1 n).toList ++ ['\x7d']
  else [c]

def fieldText (field : String × String) : String := " " ++ field.1 ++ "=" ++ field.2

def line (e : LogEvent) (time : String) : String :=
  time ++ " " ++ e.level.label ++ " " ++ String.ofList (e.message.toList.flatMap spellOut) ++
    String.join (e.fields.map fieldText) ++ "\n"

/-- The time of a line, to the microsecond. -/
def timeText (t : Timestamp) : String :=
  Text.paddedDecimal 4 t.date.year.toNat ++ "-" ++ Timestamp.twoDigits t.date.month ++ "-" ++
    Timestamp.twoDigits t.date.day ++ "T" ++ Timestamp.twoDigits t.time.hour ++ ":" ++
    Timestamp.twoDigits t.time.minute ++ ":" ++ Timestamp.twoDigits t.time.second ++ "." ++
    Text.paddedDecimal 6 (t.time.nanosecond / 1000) ++ "Z"

def quoted (text : String) : String := "\"" ++ text ++ "\""

def usingPreset (name : String) : LogEvent :=
  { message := "using policy preset", fields := [("preset", quoted name)] }

def loadingPolicy (path : String) : LogEvent :=
  { message := "loading policy file", fields := [("path", path)] }

def readingRequest (path : String) : LogEvent :=
  { message := "reading request file", fields := [("path", path)] }

def readingInput : LogEvent := { message := "reading request from stdin", fields := [] }

def flagText (b : Bool) : String := if b then "true" else "false"

def resolvedPolicy (p : ResolvedPolicy) : LogEvent where
  message := "resolved policy"
  fields := [
    ("policy", p.name),
    ("profile", match p.profile with
      | some profile => "Some(" ++ quoted profile ++ ")"
      | none => "None"),
    ("enforce_encoded_payload", flagText p.policy.enforceEncodedPayload)]

def failedPredicate (f : Finding) : LogEvent where
  message := "predicate failed: " ++ f.message
  fields := [("predicate", f.predicate), ("code", f.code)]

def decided (r : Ruling) : LogEvent where
  level := .info
  message := "admission decided"
  fields := [
    ("verdict", match r.decision.verdict with
      | .allow => "Allow"
      | .deny => "Deny"),
    ("failed", Text.decimal r.decision.failed.length),
    ("policy", r.policy.name)]

/-- The events of a check: none before its policy is ready, and only that one when the request is at
fault. -/
def ofCheck (input : CheckInput) (result : Except CheckError Ruling) : List LogEvent :=
  match result with
  | .ok ruling =>
    resolvedPolicy ruling.policy :: ruling.decision.findings.map failedPredicate ++ [decided ruling]
  | .error _ =>
    -- The failed check does not carry its policy, so flags and policy are read again.
    match checkFlags input.flags >>= checkPolicy input.policy with
    | .ok policy => [resolvedPolicy policy]
    | .error _ => []

variable {m : Type → Type} [Monad m] [Host m]

/-- Writes an event when events are asked for. -/
def write (verbose : Bool) (e : LogEvent) : m Unit := do
  if verbose then
    Host.printError (e.line (timeText (← Host.now)))

def writeAll (verbose : Bool) (events : List LogEvent) : m Unit :=
  events.forM (write verbose)

end LogEvent

end AdmissionGate
