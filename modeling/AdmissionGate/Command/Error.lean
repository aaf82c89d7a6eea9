import AdmissionGate.Check
import AdmissionGate.Files.Error
import AdmissionGate.Receipt.Render

/-!
# Command/Error — why a check command gives no verdict
-/

namespace AdmissionGate

/-- Why a check command gives no verdict. -/
inductive CommandError where
  | unknownPolicy (policy : String) (presets : List String)
  | policyFile (path : String) (error : FileError)
  | requestFile (path : String) (error : FileError)
  | requestInput (error : FileError)
  | check (error : CheckError)
  | reportDirectory (path : String) (error : FileError)
  | reportText
  | reportFile (path : String) (error : FileError)
  | render (error : RenderError)
deriving DecidableEq

namespace CommandError

def chain : CommandError → List String
  | .unknownPolicy policy presets =>
    ["policy `" ++ policy ++ "` is neither a readable file nor a preset (" ++
      ", ".intercalate presets ++ ")"]
  | .policyFile path error => ["read policy file: " ++ path, error.message]
  | .requestFile path error => ["read request file: " ++ path, error.message]
  | .requestInput error => ["read request from stdin", error.message]
  | .check error => error.chain
  | .reportDirectory path error => ["create directory: " ++ path, error.message]
  | .reportText => ["serialize receipt", RenderError.message .json]
  | .reportFile path error => ["write receipt: " ++ path, error.message]
  | .render error => [error.message]

def line (e : CommandError) : String := "fogguard error: " ++ ": ".intercalate e.chain ++ "\n"

end CommandError

end AdmissionGate
