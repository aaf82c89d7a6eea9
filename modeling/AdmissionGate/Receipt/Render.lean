import AdmissionGate.Receipt.Encode
import AdmissionGate.Report.Markdown
import AdmissionGate.Report.PlainText
import AdmissionGate.Yaml.Writer

/-!
# Receipt/Render — receipts in every output format

JSON and YAML hold the whole receipt and fail when one of its times has no text.  Text and Markdown
show its report and never fail.
-/

namespace AdmissionGate

/-- The formats that receipts are shown in. -/
inductive OutputFormat where
  | text
  | json
  | yaml
  | markdown
deriving DecidableEq

/-- The name of a format on the command line; Markdown may be shortened. -/
def OutputFormat.ofName? : String → Option OutputFormat
  | "text" => some .text
  | "json" => some .json
  | "yaml" => some .yaml
  | "md" | "markdown" => some .markdown
  | _ => none

inductive RenderError where
  | json
  | yaml
deriving DecidableEq

def RenderError.message : RenderError → String
  | .json => "serialize decision receipt"
  | .yaml => "serialize receipt as yaml"

namespace Receipt

/-- A receipt as YAML, if both its times have a text. -/
def toYaml? (r : Receipt) : Option String := r.toJson?.map Yaml.document

/-- A receipt in a format; an explained text goes on with the findings. -/
def render (r : Receipt) (explain : Bool) : OutputFormat → Except RenderError String
  | .text => .ok ((Report.ofReceipt r).toText explain)
  | .markdown => .ok (Report.ofReceipt r).toMarkdown
  | .json =>
    match r.serialize? with
    | some text => .ok (text ++ "\n")
    | none => .error .json
  | .yaml =>
    match r.toYaml? with
    | some text => .ok text
    | none => .error .yaml

end Receipt

end AdmissionGate
