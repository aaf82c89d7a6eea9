import Mathlib.Data.List.Induction
import AdmissionGate.PolicyStore

/-!
# Proofs/PolicyStore — histories of a store

Calls on a store are made one after another, in any order, and a reader may keep a policy that a
call gave out and decide under it later.  Every call answers from the policy that was put in force
last, and nothing that happens later reaches what was given out.  The replaced policies together
with the one in force at the end are all policies ever installed, in order.
-/

namespace AdmissionGate.PolicyStore

/-! ## 1. Runs -/

/-- A use of a store. -/
inductive Call where
  | snapshot
  | replace (next : Policy)
  | evaluate (r : Request)
  /-- Decides a request under the policy that the call at an earlier place of the run gave out. -/
  | decideHeld (place : Nat) (r : Request)

inductive Answer where
  | given (held : PolicySnapshot)
  | decided (d : Decision)
  /-- No policy was given out at the place that was asked for. -/
  | nothing

/-- A store with the answers that were given so far. -/
structure Run where
  store : PolicyStore
  answers : List Answer

def Run.answer (run : Run) : Call → Answer
  | .snapshot => .given run.store.snapshot
  | .replace next => .given (run.store.replace next).1
  | .evaluate r => .decided (run.store.evaluate r)
  | .decideHeld place r =>
    match run.answers[place]? with
    | some (.given held) => .decided (AdmissionGate.evaluate r held.policy)
    | _ => .nothing

/-- The store after a call. -/
def after (store : PolicyStore) : Call → PolicyStore
  | .replace next => (store.replace next).2
  | _ => store

def Run.step (run : Run) (call : Call) : Run :=
  ⟨run.store.after call, run.answers ++ [run.answer call]⟩

/-- The run of calls on a new store. -/
def run (initial : Policy) (calls : List Call) : Run :=
  calls.foldl Run.step ⟨start initial, []⟩

/-! ## 2. Histories -/

/-- The policies that calls put in force, in order. -/
def replacements (calls : List Call) : List Policy :=
  calls.filterMap fun
    | .replace next => some next
    | _ => none

/-- The policy in force after calls: that of the last replacement, or the initial one. -/
def inForce (initial : Policy) (calls : List Call) : PolicySnapshot :=
  ⟨(replacements calls).length, (replacements calls).getLastD initial⟩

/-- Every policy that was ever in force, each with the number of its installation. -/
def installed (initial : Policy) (calls : List Call) : List PolicySnapshot :=
  (initial :: replacements calls).mapIdx PolicySnapshot.mk

/-- The answers to the replacements among calls. -/
def replaced (calls : List Call) (answers : List Answer) : List PolicySnapshot :=
  (calls.zip answers).filterMap fun
    | (.replace _, .given old) => some old
    | _ => none

/-- Calls that give out the policy in force. -/
def Call.GivesOut : Call → Prop
  | .snapshot | .replace _ => True
  | _ => False

variable {initial : Policy} {calls before between later : List Call} {call : Call}

theorem replacements_append (first second : List Call) :
    replacements (first ++ second) = replacements first ++ replacements second :=
  List.filterMap_append

theorem inForce_replace (next : Policy) : inForce initial (calls ++ [.replace next]) =
    ⟨(inForce initial calls).serial + 1, next⟩ := by
  unfold inForce
  rw [replacements_append]
  show PolicySnapshot.mk (replacements calls ++ [next]).length _ = _
  rw [List.length_append, show replacements [.replace next] = [next] from rfl, List.getLastD_concat]
  rfl

theorem inForce_of_replacements_nil (h : replacements between = []) :
    inForce initial (before ++ between) = inForce initial before := by
  unfold inForce
  rw [replacements_append, h, List.append_nil]

theorem after_inForce :
    after ⟨inForce initial calls⟩ call = ⟨inForce initial (calls ++ [call])⟩ := by
  cases call with
  | replace next =>
    rw [inForce_replace]
    rfl
  | snapshot | evaluate | decideHeld =>
    rw [inForce_of_replacements_nil rfl]
    rfl

theorem installed_replace (next : Policy) : installed initial (calls ++ [.replace next]) =
    installed initial calls ++ [inForce initial (calls ++ [.replace next])] := by
  rw [inForce_replace]
  unfold installed
  rw [replacements_append, ← List.cons_append]
  exact List.mapIdx_concat

theorem installed_of_replacements_nil (h : replacements between = []) :
    installed initial (before ++ between) = installed initial before := by
  unfold installed
  rw [replacements_append, h, List.append_nil]

/-! ## 3. What a run keeps -/

theorem run_concat : run initial (calls ++ [call]) = (run initial calls).step call := by
  unfold run
  rw [List.foldl_append]
  rfl

/-- The store of a run holds the policy in force and nothing else. -/
theorem store_run : (run initial calls).store = ⟨inForce initial calls⟩ := by
  -- From the last call backwards, since a run ends with the step of its last call.
  induction calls using List.reverseRecOn with
  | nil => rfl
  | append_singleton calls call ih =>
    rw [run_concat]
    show after (run initial calls).store call = _
    rw [ih, after_inForce]

theorem length_answers : (run initial calls).answers.length = calls.length := by
  induction calls using List.reverseRecOn with
  | nil => rfl
  | append_singleton calls call ih =>
    rw [run_concat, List.length_append, ← ih]
    exact List.length_append

theorem answers_run_append :
    (run initial before).answers <+: (run initial (before ++ later)).answers := by
  induction later using List.reverseRecOn with
  | nil => exact ⟨[], by simp only [List.append_nil]⟩
  -- A step adds its answer at the end and takes none back.
  | append_singleton later call ih =>
    rw [← List.append_assoc, run_concat]
    exact ih.trans (List.prefix_append _ _)

/-- A call in the middle of a run is answered from what went before it. -/
theorem getElem?_answers : (run initial (before ++ call :: later)).answers[before.length]? =
    some ((run initial before).answer call) := by
  have hlength : (run initial before).answers.length = before.length := length_answers
  have hprefix : (run initial (before ++ [call])).answers <+:
      (run initial (before ++ [call] ++ later)).answers := answers_run_append
  rw [List.append_assoc, List.singleton_append, run_concat] at hprefix
  obtain ⟨rest, hrest⟩ := hprefix
  rw [← hrest, Run.step, List.append_assoc, ← hlength, List.getElem?_append_right (Nat.le_refl _),
    Nat.sub_self]
  rfl

theorem answer_of_givesOut (h : call.GivesOut) :
    (run initial before).answer call = .given (inForce initial before) := by
  cases call with
  | snapshot | replace =>
    unfold Run.answer
    rw [store_run]
    rfl
  | evaluate | decideHeld => exact h.elim

theorem answer_evaluate (r : Request) : (run initial before).answer (.evaluate r) =
    .decided (AdmissionGate.evaluate r (inForce initial before).policy) := by
  unfold Run.answer
  rw [store_run]
  rfl

/-- A reader decides under the policy that was in force when it was given out, whatever was put in
force in between. -/
theorem answer_decideHeld (h : call.GivesOut) (r : Request) :
    (run initial (before ++ call :: between)).answer (.decideHeld before.length r) =
      .decided (AdmissionGate.evaluate r (inForce initial before).policy) := by
  unfold Run.answer
  dsimp only
  rw [getElem?_answers, answer_of_givesOut h]

theorem replaced_concat : replaced (calls ++ [call]) (run initial (calls ++ [call])).answers =
    replaced calls (run initial calls).answers ++
      replaced [call] [(run initial calls).answer call] := by
  unfold replaced
  rw [run_concat, Run.step, List.zip_append length_answers.symm, List.filterMap_append]

/-- Replaced policies and the one in force at the end are all that were installed. -/
theorem replaced_append_snapshot : replaced calls (run initial calls).answers ++
    [(run initial calls).store.snapshot] = installed initial calls := by
  induction calls using List.reverseRecOn with
  | nil => rfl
  | append_singleton calls call ih =>
    rw [replaced_concat, store_run]
    rw [store_run] at ih
    cases call with
    | replace next =>
      have hgiven : (run initial calls).answer (.replace next) = .given (inForce initial calls) :=
        answer_of_givesOut trivial
      rw [installed_replace, ← ih, hgiven]
      rfl
    | snapshot | evaluate | decideHeld =>
      rw [installed_of_replacements_nil rfl, ← ih, inForce_of_replacements_nil rfl]
      exact congrArg (· ++ _) (List.append_nil _)

/-- Installed policies are told apart by their numbers, even where they are equal. -/
theorem serials_installed : (installed initial calls).map PolicySnapshot.serial =
    List.range ((replacements calls).length + 1) := by
  unfold installed
  apply List.ext_getElem
  · simp only [List.length_map, List.length_mapIdx, List.length_cons, List.length_range]
  · intro i _ _
    simp only [List.getElem_map, List.getElem_mapIdx, List.getElem_range]

theorem inForce_append_eq_iff :
    inForce initial (before ++ between) = inForce initial before ↔ replacements between = [] := by
  constructor
  · intro h
    -- Every replacement raises the number, whatever policy it puts in force.
    have hserial := congrArg PolicySnapshot.serial h
    unfold inForce at hserial
    dsimp only at hserial
    rw [replacements_append, List.length_append] at hserial
    apply List.eq_nil_of_length_eq_zero
    omega
  · exact inForce_of_replacements_nil

/-- In every run, a snapshot and a replacement give out the policy in force, an evaluation decides
under it, and so does a reader at any later time that holds what was given out.  What replacements
gave back and what is in force at the end are the installed policies, in order and each with a
number of its own.  Calls other than replacements leave the store alone, and the policy in force is
the same one until the next of them. -/
theorem runs_follow_history (initial : Policy) (before later : List Call) :
    (∀ call : Call, call.GivesOut →
      (run initial (before ++ call :: later)).answers[before.length]? =
        some (.given (inForce initial before))) ∧
    (∀ r : Request, (run initial (before ++ .evaluate r :: later)).answers[before.length]? =
      some (.decided (AdmissionGate.evaluate r (inForce initial before).policy))) ∧
    (∀ (call : Call) (between : List Call) (r : Request), call.GivesOut →
      (run initial ((before ++ call :: between) ++ .decideHeld before.length r :: later)).answers[
          (before ++ call :: between).length]? =
        some (.decided (AdmissionGate.evaluate r (inForce initial before).policy))) ∧
    replaced before (run initial before).answers ++ [(run initial before).store.snapshot] =
      installed initial before ∧
    (installed initial before).map PolicySnapshot.serial =
      List.range ((replacements before).length + 1) ∧
    (∀ call : Call, (∀ next, call ≠ .replace next) →
      (run initial (before ++ [call])).store = (run initial before).store) ∧
    (∀ between : List Call,
      inForce initial (before ++ between) = inForce initial before ↔ replacements between = []) := by
  refine ⟨?_, ?_, ?_, replaced_append_snapshot, serials_installed, ?_,
    fun between => inForce_append_eq_iff⟩
  · intro call hcall
    rw [getElem?_answers, answer_of_givesOut hcall]
  · intro r
    rw [getElem?_answers, answer_evaluate]
  · intro call between r hcall
    rw [getElem?_answers, answer_decideHeld hcall]
  · intro call hcall
    have hnone : replacements [call] = [] := by
      cases call with
      | replace next => exact absurd rfl (hcall next)
      | snapshot | evaluate | decideHeld => rfl
    rw [store_run, store_run, inForce_of_replacements_nil hnone]

/-- A reader that took a snapshot decides under it after a replacement. -/
theorem held_policy_outlives_replacement :
    Call.snapshot.GivesOut ∧
      (run {} [.snapshot, .replace { enforceEncodedPayload := true },
          .decideHeld 0 { payload := some "data:," }]).answers[2]? =
        some (.decided (AdmissionGate.evaluate { payload := some "data:," } {})) :=
  ⟨trivial, (runs_follow_history {} [] []).2.2.1 .snapshot
    [.replace { enforceEncodedPayload := true }] _ trivial⟩

end AdmissionGate.PolicyStore
