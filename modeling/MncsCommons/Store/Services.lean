/-
# Work services

The calls of the application that write work records.  Each reads the records,
decides on a record, and adds it; the store may change between these steps, since
only the addition holds the lock.  `others` says what happens in between: what the
n-th step of a call that lets go of the store finds.

A sequential call is one with nothing in between.  All a service does to the store
is to add a record (`ServiceCall.final_cases`).
-/

import MncsCommons.Store.Records
import MncsCommons.Protocol.Queue

namespace MncsCommons.Store

open MncsCommons.Data MncsCommons.Protocol MncsCommons.Exec

/-- The members of a mapping that the host built: it repeats no key. -/
def Mapping.of (fields : Fields) : Py Mapping :=
  if h : (Json.obj fields).wf = true then .ok ⟨fields, h⟩
  else .error (.valueError "repeated key")

theorem Mapping.of_eq_ok {fields : Fields} {value : Mapping} (h : Mapping.of fields = .ok value) :
    value.fields = fields := by
  rw [Mapping.of] at h
  split at h
  · rw [← Except.ok.inj h]
  · cases h

theorem Mapping.of_of_wf {fields : Fields} (h : (Json.obj fields).wf = true) :
    Mapping.of fields = .ok ⟨fields, h⟩ := by
  rw [Mapping.of, dif_pos h]

/-- What other processes do to the store between two steps of a call. -/
abbrev Others := Nat → StoreDir → StoreDir

/-- Nothing happens between the steps of a call. -/
def Others.none : Others := fun _ store => store

/-- What happens after the first so many steps. -/
def Others.after (others : Others) (n : Nat) : Others := fun step => others (n + step)

/-- `store.records()`. -/
def storedRecords (store : StoreDir) : Py (List Fields) := do
  return payloadsFromRows (← rows store) "record"

/-- Compute from the stored records. -/
def fromRecords {α : Type} (compute : List Fields → Py α) : StoreM α := do
  let store ← Program.get
  Program.lift (storedRecords store >>= compute)

/-! ## Submissions -/

/-- What a submission or a transition answers. -/
structure Acknowledgement where
  workId : String
  state : Json
  currentDigest : String
  duplicate : Bool := false
  executionAccepted : Bool := false
  deriving DecidableEq

/-- Whether a record is the first revision of the work. -/
def isFirstRevision (workId : String) (item : Fields) : Py Bool := do
  let metadata := (Fields.get? item "metadata").getD (.obj [])
  if !(← getAttr metadata "revision" .null).pyEq (.int 1) then return false
  else
    let details := (Fields.get? item "details").getD (.obj [])
    return (← getAttr details "workId" .null).str? = some workId

/-- The first stored revision of the work, `prior_submission`. -/
def priorSubmission (workId : String) : List Fields → Py (Option Fields)
  | [] => .ok none
  | item :: items => do
      if ← isFirstRevision workId item then return some item
      else priorSubmission workId items

/-- The fields that `duplicate_ack` compares. -/
def comparedFields : List String :=
  ["workId", "objective", "submittingConsumer", "project", "repository", "constraints",
    "parentWorkId", "attempt", "routing"]

/-- Whether the details agree in the fields. -/
def agreeIn (fields : List String) (prior requested : Fields) : Bool :=
  fields.all fun field => (Fields.get prior field).pyEq (Fields.get requested field)

/-- `duplicate_ack`. -/
def duplicateAck (record : Fields) (prior : Fields) : StoreM Acknowledgement := do
  let requested := detailsOf record
  let workId := (Fields.get requested "workId").pyStr
  let agrees := (Fields.get prior "details").obj?.any fun details =>
    agreeIn comparedFields details requested
  Program.lift (raiseIf (!agrees)
    (.workProtocolError "WORK_CONFLICT" "workId is already bound to a different submission"))
  let status ← fromRecords fun records => projectWorkHistory records workId
  return {
    workId, state := .str status.state, currentDigest := status.currentDigest, duplicate := true
    executionAccepted := status.history.any fun revision => revision.state = "accepted" }

/-- What the addition of a record answers. -/
def storedAnswer (added : Fields × String) : Acknowledgement where
  workId := (Fields.get (detailsOf added.1) "workId").pyStr
  state := Fields.get (detailsOf added.1) "state"
  currentDigest := added.2

/-- What a submission does when its record is not added: after a rejection by the
store it looks again for a first revision that another writer may have stored. -/
def afterError (others : Others) (workId : String) (record : Mapping) (error : PyError) :
    StoreM Acknowledgement :=
  match error with
  | .storeError _ => do
      Program.step (others 0)
      match ← fromRecords (priorSubmission workId) with
      | some prior => do
          Program.step (others 1)
          duplicateAck record.fields prior
      | none => Program.raise error
  | _ => Program.raise error

/-- Add a record of which nothing is stored yet. -/
def addSubmission (host : Host) (others : Others) (workId : String) (record : Mapping) :
    StoreM Acknowledgement :=
  Program.handle (do return storedAnswer (← addRecord host record))
    (afterError others workId record)

/-- `submit_work`. -/
def submitWork (host : Host) (others : Others) (now uuid : String) (request : Mapping) :
    StoreM Acknowledgement := do
  let record ← Program.lift (newWorkRecord now uuid request.fields >>= Mapping.of)
  let workId := (Fields.get (detailsOf record.fields) "workId").pyStr
  match ← fromRecords (priorSubmission workId) with
  | some prior => do
      Program.step (others 0)
      duplicateAck record.fields prior
  | none => do
      Program.step (others 0)
      addSubmission host (others.after 1) workId record

/-! ## Transitions, claims and proposals -/

/-- The rejection of a revision that is not the next one. -/
def isRevisionConflict (message : String) : Bool :=
  decide ("next revision and previousDigest".toList <:+: message.toList)

/-- What a transition raises when its revision is not added. -/
def transitionError (error : PyError) : PyError :=
  match error with
  | .storeError message =>
      if isRevisionConflict message then
        .workProtocolError "WORK_CONFLICT" "work changed before the transition was persisted"
      else error
  | _ => error

/-- `transition_work`. -/
def transitionWork (host : Host) (others : Others) (now workId : String) (transition : Mapping) :
    StoreM Acknowledgement := do
  let status ← fromRecords fun records => projectWorkHistory records workId
  let revised ← Program.lift
    (revisedWorkRecord now status.current transition.fields >>= Mapping.of)
  Program.step (others 0)
  let added ← Program.handle (addRecord host revised) fun error =>
    Program.raise (transitionError error)
  return { storedAnswer added with workId }

/-- `claim_work`. -/
def claimWork (host : Host) (others : Others) (claimedAt now workId : String) (actor : Json)
    (expectedPreviousDigest : String) (sessionId lane : Option String) : StoreM Acknowledgement := do
  let status ← fromRecords fun records => projectWorkHistory records workId
  let details := detailsOf status.current
  Program.lift (checkClaimable details lane)
  let claimant ← Program.lift (readClaimant actor)
  Program.step (others 0)
  let active ← fromRecords fun records => listWork records [] [] activeCoordinationStates
  Program.lift (checkExclusive workId details claimant active)
  let transition ← Program.lift
    (Mapping.of (claimTransition claimedAt claimant sessionId expectedPreviousDigest))
  Program.step (others 1)
  transitionWork host (others.after 2) now workId transition

/-- What `propose_work` answers. -/
structure ProposalAnswer where
  proposal : String
  acknowledgement : Acknowledgement
  deriving DecidableEq

/-- What `propose_work` does with a classified proposal. -/
def writeProposal (host : Host) (others : Others) (now uuid : String) :
    ProposalOutcome → StoreM ProposalAnswer
  | .attach workId transition => do
      let transition ← Program.lift (Mapping.of transition)
      let attached ← transitionWork host others now workId transition
      return ⟨"ATTACHED", attached⟩
  | .submit candidate => do
      let request ← Program.lift (Mapping.of candidate)
      let acknowledgement ← submitWork host others now uuid request
      -- The classification has just set the status of the candidate.
      return ⟨(Fields.get candidate "proposalStatus").pyStr, acknowledgement⟩

/-- `propose_work`. -/
def proposeWork (host : Host) (others : Others) (lower : String → String) (now uuid : String)
    (proposal : Mapping) : StoreM ProposalAnswer := do
  let work ← fromRecords fun records => listWork records [] [] []
  let outcome ← Program.lift (classifyProposal lower work proposal.fields)
  Program.step (others 0)
  writeProposal host (others.after 1) now uuid outcome

end MncsCommons.Store
