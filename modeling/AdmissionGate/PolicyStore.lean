import AdmissionGate.Evaluation

/-!
# PolicyStore — the policy in force

A store holds one policy at a time.  Every policy that is put in force gets a number of its own, so
that a snapshot can be told apart from an equal policy installed later.  Snapshots are values: what
is put in force later does not reach them.
-/

namespace AdmissionGate

/-- A policy as it was put in force, with the number of that occasion. -/
structure PolicySnapshot where
  serial : Nat
  policy : Policy
deriving DecidableEq

/-- A store with one policy in force. -/
structure PolicyStore where
  current : PolicySnapshot
deriving DecidableEq

namespace PolicyStore

def start (policy : Policy) : PolicyStore := ⟨⟨0, policy⟩⟩

def snapshot (s : PolicyStore) : PolicySnapshot := s.current

/-- Puts a policy in force and gives back the one it takes the place of. -/
def replace (s : PolicyStore) (next : Policy) : PolicySnapshot × PolicyStore :=
  (s.current, ⟨⟨s.current.serial + 1, next⟩⟩)

/-- Decides a request under the policy in force. -/
def evaluate (s : PolicyStore) (r : Request) : Decision :=
  AdmissionGate.evaluate r s.snapshot.policy

end PolicyStore

end AdmissionGate
