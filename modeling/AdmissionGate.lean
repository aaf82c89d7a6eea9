import AdmissionGate.Files.Session
import AdmissionGate.Main
import AdmissionGate.PolicyStore
import AdmissionGate.Proofs.Evaluation
import AdmissionGate.Proofs.FirstFault
import AdmissionGate.Receipt.Decode
import AdmissionGate.Proofs.Policy.Flags
import AdmissionGate.Proofs.Policy.Resolve
import AdmissionGate.Proofs.Request.Decode
import AdmissionGate.Proofs.Check
import AdmissionGate.Proofs.Receipt.RoundTrip
import AdmissionGate.Proofs.Evidence
import AdmissionGate.Proofs.Ranges
import AdmissionGate.Proofs.Consistency
import AdmissionGate.Proofs.Identity
import AdmissionGate.Proofs.PayloadFlag
import AdmissionGate.Proofs.PolicyStore
import AdmissionGate.Proofs.Tightening
import AdmissionGate.Proofs.Conformance.Golden
import AdmissionGate.Proofs.Report.Lines
import AdmissionGate.Proofs.Command.Gate
import AdmissionGate.Proofs.Policy.Formats
import AdmissionGate.Proofs.Payload.Signals
import AdmissionGate.Proofs.Conformance.Masking
import AdmissionGate.Proofs.Receipt.Schema
import AdmissionGate.Proofs.Explanation.Names
import AdmissionGate.Proofs.RateBound
import AdmissionGate.Proofs.Report.Outcome
