import AdmissionGate.Receipt.Render

/-!
# Command/Arguments — reading a command line

A command line names a command after flags of its own.  An option takes its value from the next
argument, which must not look like an option, or after an equals sign.  Letters of flags may be
joined.  Each option and flag stands at most once; after two dashes all arguments are operands.
Asking for help or the version ends the reading at once.
-/

namespace AdmissionGate

namespace CommandLine

inductive UsageError where
  | unknownArgument (argument : String)
  | missingValue (option : String)
  | surplusValue (flag : String)
  | repeated (name : String)
  | conflict (option other : String)
  | unknownFormat (name : String)
  | missing (what : String)
  | unknownCommand (name : String)
deriving DecidableEq

def UsageError.message : UsageError → String
  | .unknownArgument argument => "unexpected argument '" ++ argument ++ "'"
  | .missingValue option => "a value is required for '--" ++ option ++ "'"
  | .surplusValue flag => "'--" ++ flag ++ "' takes no value"
  | .repeated name => "'--" ++ name ++ "' cannot be used more than once"
  | .conflict option other => "'--" ++ option ++ "' cannot be used with '--" ++ other ++ "'"
  | .unknownFormat name => "unknown format '" ++ name ++ "'"
  | .missing what => "missing " ++ what
  | .unknownCommand name => "unknown command '" ++ name ++ "'"

/-- Why reading ends before there is something to run. -/
inductive Stop where
  | help
  | version
  | usage (error : UsageError)
deriving DecidableEq

/-- The options, flags and operands that a command takes. -/
structure Form where
  /-- Names of options with a value. -/
  options : List String := []
  /-- The options among them whose value is the name of an output format. -/
  formats : List String := []
  flags : List String := ["verbose", "help"]
  /-- How many operands there may be. -/
  operands : Nat := 0

def flagOfLetter? : Char → Option String
  | 'v' => some "verbose"
  | 'h' => some "help"
  | 'V' => some "version"
  | _ => none

/-- What has been read so far. -/
structure Found where
  options : List (String × String) := []
  flags : List String := []
  operands : List String := []
  /-- The option whose value is due. -/
  pending : Option String := none
  /-- Two dashes have been read. -/
  closed : Bool := false
deriving DecidableEq

def Found.addFlag (found : Found) (name : String) : Except Stop Found :=
  if name = "help" then .error .help
  else if name = "version" then .error .version
  else if name ∈ found.flags then .error (.usage (.repeated name))
  else .ok { found with flags := found.flags ++ [name] }

def Found.addOption (form : Form) (found : Found) (name value : String) : Except Stop Found :=
  if (found.options.lookup name).isSome then .error (.usage (.repeated name))
  else if name ∈ form.formats ∧ (OutputFormat.ofName? value).isNone then
    .error (.usage (.unknownFormat value))
  else .ok { found with options := found.options ++ [(name, value)], pending := none }

def Found.addOperand (form : Form) (found : Found) (value : String) : Except Stop Found :=
  if found.operands.length < form.operands then
    .ok { found with operands := found.operands ++ [value] }
  else .error (.usage (.unknownArgument value))

/-- Holds of arguments that look like options: a dash with something after it. -/
def isDashed (argument : String) : Bool :=
  argument.toList.head? == some '-' && argument != "-"

/-- Reads an argument that starts with two dashes. -/
def Found.addLong (form : Form) (found : Found) (body : List Char) : Except Stop Found :=
  let name := String.ofList (body.takeWhile (· != '='))
  match body.dropWhile (· != '=') with
  | _ :: value =>
    if name ∈ form.options then found.addOption form name (String.ofList value)
    else if name ∈ form.flags then .error (.usage (.surplusValue name))
    else .error (.usage (.unknownArgument ("--" ++ name)))
  | [] =>
    if name ∈ form.options then .ok { found with pending := some name }
    else if name ∈ form.flags then found.addFlag name
    else .error (.usage (.unknownArgument ("--" ++ name)))

/-- Reads the letters after a single dash. -/
def Found.addLetters (form : Form) (found : Found) (letters : List Char) : Except Stop Found :=
  letters.foldlM (fun found letter =>
    match flagOfLetter? letter with
    | some name =>
      if name ∈ form.flags then found.addFlag name
      else .error (.usage (.unknownArgument (String.ofList ['-', letter])))
    | none => .error (.usage (.unknownArgument (String.ofList ['-', letter])))) found

def Found.add (form : Form) (found : Found) (argument : String) : Except Stop Found :=
  if found.closed then found.addOperand form argument
  else match found.pending with
    | some option =>
      if isDashed argument then .error (.usage (.missingValue option))
      else found.addOption form option argument
    | none =>
      if argument = "--" then .ok { found with closed := true }
      else match argument.toList with
        | '-' :: '-' :: body => found.addLong form body
        | '-' :: letter :: letters => found.addLetters form (letter :: letters)
        | _ => found.addOperand form argument

def read (form : Form) (arguments : List String) : Except Stop Found := do
  let found ← arguments.foldlM (Found.add form) {}
  match found.pending with
  | some option => .error (.usage (.missingValue option))
  | none => .ok found

end CommandLine

/-- Where a check takes its request from. -/
inductive RequestSource where
  | text (text : String)
  | file (path : String)
  | input
deriving DecidableEq

/-- What a check is asked to do. -/
structure CheckArguments where
  /-- A policy file or the name of a preset. -/
  policy : String
  request : RequestSource := .input
  flags : Option String := none
  explain : Bool := false
  format : OutputFormat := .text
  /-- Where to put the receipt. -/
  report : Option String := none
deriving DecidableEq

inductive Command where
  | check (arguments : CheckArguments)
  | explain (name : String)
  | presets
deriving DecidableEq

/-- A command with what all commands take. -/
structure Invocation where
  verbose : Bool := false
  command : Command
deriving DecidableEq

namespace Invocation

open CommandLine

def checkForm : Form where
  options := ["policy", "data", "file", "feature-flags", "format", "report-out"]
  formats := ["format"]
  flags := ["verbose", "help", "explain"]

/-- Where the request comes from; a text and a file exclude each other. -/
def requestSource (text path : Option String) : Except Stop RequestSource :=
  match text, path with
  | some _, some _ => .error (.usage (.conflict "data" "file"))
  | some text, none => .ok (.text text)
  | none, some path => .ok (.file path)
  | none, none => .ok .input

/-- The output format that is asked for; text when none is. -/
def outputFormat (found : Found) : OutputFormat :=
  ((found.options.lookup "format").bind OutputFormat.ofName?).getD .text

def readCheck (arguments : List String) : Except Stop (Bool × Command) := do
  let found ← read checkForm arguments
  let request ← requestSource (found.options.lookup "data") (found.options.lookup "file")
  match found.options.lookup "policy" with
  | none => .error (.usage (.missing "--policy"))
  | some policy =>
    return (decide ("verbose" ∈ found.flags), .check {
      policy, request
      format := outputFormat found
      flags := found.options.lookup "feature-flags"
      explain := decide ("explain" ∈ found.flags)
      report := found.options.lookup "report-out" })

def readExplain (arguments : List String) : Except Stop (Bool × Command) := do
  let found ← read { operands := 1 } arguments
  match found.operands with
  | [] => .error (.usage (.missing "identifier"))
  | name :: _ => return (decide ("verbose" ∈ found.flags), .explain name)

def readPresets (arguments : List String) : Except Stop (Bool × Command) := do
  let found ← read {} arguments
  return (decide ("verbose" ∈ found.flags), .presets)

/-- Reads what stands after the word that asks for help: at most one command. -/
def readHelp : List String → Stop
  | [] => .help
  | name :: rest =>
    if name ∉ ["check", "explain", "presets", "help"] then .usage (.unknownCommand name)
    else match rest with
      | [] => .help
      | extra :: _ => .usage (.unknownCommand extra)

def readCommand (name : String) (arguments : List String) : Except Stop (Bool × Command) :=
  match name with
  | "check" => readCheck arguments
  | "explain" => readExplain arguments
  | "presets" => readPresets arguments
  | "help" => .error (readHelp arguments)
  | other => .error (.usage (.unknownCommand other))

def outerForm : Form where
  flags := ["verbose", "help", "version"]

/-- Reads a command line after the flags found so far. -/
def readFrom (found : Found) : List String → Except Stop Invocation
  | [] => .error (.usage (.missing "command"))
  | argument :: rest => do
    if isDashed argument then
      if argument = "--" then .error (.usage (.missing "command"))
      else readFrom (← found.add outerForm argument) rest
    else
      let (verbose, command) ← readCommand argument rest
      return ⟨verbose || decide ("verbose" ∈ found.flags), command⟩

def ofArguments (arguments : List String) : Except Stop Invocation := readFrom {} arguments

end Invocation

end AdmissionGate
