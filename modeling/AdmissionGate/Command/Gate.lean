import AdmissionGate.Command.Arguments
import AdmissionGate.Command.Error
import AdmissionGate.Command.Log
import AdmissionGate.Explanation.PlainText

/-!
# Command/Gate — the commands of the gate

The exit code of a check is that of its verdict; every error has the code 1 and leaves the files
alone, unless it is about writing the report itself.
-/

namespace AdmissionGate

def errorExitCode : UInt32 := 1

namespace Gate

variable {m : Type → Type} [Monad m] [Host m]

/-- The policy of a check: a file, if there is one, and else a preset. -/
def readPolicy (verbose : Bool) (policy : String) : ExceptT CommandError m PolicySource := do
  if ← Host.isFile (m := m) policy then
    LogEvent.write (m := m) verbose (.loadingPolicy policy)
    match ← Host.read (m := m) policy with
    | .ok text => return .text text (.ofFileName policy)
    | .error e => throw (.policyFile policy e)
  else if policy ∈ Preset.names then
    LogEvent.write (m := m) verbose (.usingPreset policy)
    return .preset policy
  else throw (.unknownPolicy policy Preset.names)

def readRequest (verbose : Bool) : RequestSource → ExceptT CommandError m String
  | .text text => return text
  | .file path => do
    LogEvent.write (m := m) verbose (.readingRequest path)
    match ← Host.read (m := m) path with
    | .ok text => return text
    | .error e => throw (.requestFile path e)
  | .input => do
    LogEvent.write (m := m) verbose .readingInput
    match ← Host.input (m := m) with
    | .ok text => return text
    | .error e => throw (.requestInput e)

/-- Reads policy and request and checks them. -/
def settle (verbose : Bool) (arguments : CheckArguments) : ExceptT CommandError m CheckOutput := do
  let policy ← readPolicy verbose arguments.policy
  let request ← readRequest verbose arguments.request
  let startedAt ← Host.now (m := m)
  let input : CheckInput := ⟨policy, request, arguments.flags⟩
  let result := decideCheck input
  LogEvent.writeAll (m := m) verbose (LogEvent.ofCheck input result)
  match result with
  | .ok ruling =>
    -- The events are told before the check is over.
    let finishedAt ← Host.now (m := m)
    return ruling.output startedAt finishedAt
  | .error e => throw (.check e)

/-- Makes the directories around the file of a report. -/
def makeReportDirectory (path : String) : ExceptT CommandError m Unit := do
  match Path.parents path with
  | [] => return ()
  | directory :: around =>
    match ← Host.makeDirectories (m := m) (directory :: around) with
    | .ok () => return ()
    | .error e => throw (.reportDirectory directory e)

/-- Writes a receipt to a file, with the directories around it. -/
def writeReport (path : String) (receipt : Receipt) : ExceptT CommandError m Unit := do
  makeReportDirectory path
  match receipt.serialize? with
  | none => throw .reportText
  | some text =>
    match ← Host.write (m := m) path text with
    | .ok () => return ()
    | .error e => throw (.reportFile path e)

/-- Writes the report that is asked for, if one is. -/
def writeReport? (arguments : CheckArguments) (receipt : Receipt) :
    ExceptT CommandError m Unit :=
  match arguments.report with
  | some path => writeReport path receipt
  | none => pure ()

/-- Shows a receipt; the exit code is that of its verdict. -/
def showReceipt (arguments : CheckArguments) (receipt : Receipt) :
    ExceptT CommandError m UInt32 := do
  match receipt.render arguments.explain arguments.format with
  | .ok text =>
    Host.print (m := m) text
    return receipt.verdict.exitCode
  | .error e => throw (.render e)

/-- Checks a request, writes the report if one is asked for, and shows the receipt. -/
def check (verbose : Bool) (arguments : CheckArguments) : ExceptT CommandError m UInt32 := do
  let output ← settle verbose arguments
  writeReport? arguments output.receipt
  showReceipt arguments output.receipt

def showExplanation (name : String) : m UInt32 := do
  match AdmissionGate.explain name with
  | .found worked =>
    Host.print worked.toText
    return 0
  | .unknown name suggestions =>
    Host.printError (Explanation.unknownText name suggestions)
    return errorExitCode

def showPresets : m UInt32 := do
  Host.print (String.join (Preset.names.map (· ++ "\n")))
  return 0

end Gate

variable {m : Type → Type} [Monad m] [Host m]

def Command.run (verbose : Bool) : Command → m UInt32
  | .check arguments => do
    match ← (Gate.check verbose arguments).run with
    | .ok code => return code
    | .error e =>
      Host.printError e.line
      return errorExitCode
  | .explain name => Gate.showExplanation name
  | .presets => Gate.showPresets

namespace CommandLine

def usage : String :=
  "Usage: fogguard [-v] <command>\n\n" ++
  "Commands:\n" ++
  "  check --policy <file or preset> [--data <json> | --file <path>] [--feature-flags <json>]\n" ++
  "        [--explain] [--format text|json|yaml|md] [--report-out <path>]\n" ++
  "  explain <predicate or code>\n" ++
  "  presets\n"

def versionLine : String := Receipt.thisTool.name ++ " " ++ Receipt.thisTool.version ++ "\n"

def run (arguments : List String) : m UInt32 := do
  match Invocation.ofArguments arguments with
  | .ok invocation => Command.run invocation.verbose invocation.command
  | .error .help =>
    Host.print usage
    return 0
  | .error .version =>
    Host.print versionLine
    return 0
  | .error (.usage e) =>
    Host.printError ("error: " ++ e.message ++ "\n\n" ++ usage)
    return errorExitCode

end CommandLine

end AdmissionGate
