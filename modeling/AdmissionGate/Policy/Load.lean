import AdmissionGate.Policy.FileJson
import AdmissionGate.Policy.FileToml
import AdmissionGate.Policy.Resolve

/-!
# Policy/Load — policies from texts

A text is read as a policy file in one of the two formats and then resolved.
-/

namespace AdmissionGate

def PolicyFile.parse (text : String) (format : PolicyFormat) : Except Policy.Error PolicyFile :=
  let read := match format with
    | .toml => PolicyFile.ofTomlText? text
    | .json => PolicyFile.ofJsonText? text
  match read with
  | some file => .ok file
  | none => .error (.parse format)

/-- Reads a policy file from a text and resolves it. -/
def ResolvedPolicy.load (text : String) (format : PolicyFormat) (flags : FeatureFlags) :
    Except Policy.Error ResolvedPolicy := do
  let file ← PolicyFile.parse text format
  ResolvedPolicy.ofFile file flags

end AdmissionGate
