/-
# Work requests

`newWorkRecord` builds the first revision of a work record from a submission, and
`revisedWorkRecord` the next one from a transition.  Both check what they are
given and copy it; neither reads the store.

A submission is parsed first and the record built from the result, so a record
built here has the shape of `WorkSubmission.record` by construction.  The time and
a fresh identifier are arguments.
-/

import MncsCommons.Protocol.WorkHistory
import MncsCommons.Protocol.Lifecycle
import MncsCommons.Data.DateTime

namespace MncsCommons.Protocol

open MncsCommons.Data

/-! ## Reading requests -/

/-- A rejected request. -/
def workInvalid (message : String) : PyError := .workProtocolError "WORK_INVALID" message

/-- `_text`. -/
def workText (value : Json) (field : String) (maximum : Nat) : Py String :=
  match boundedText value maximum with
  | some text => .ok text
  | none => .error (workInvalid (field ++ " must be bounded non-empty text"))

/-- `_optional_text`. -/
def optionalText (value : Json) (field : String) : Py (Option String) :=
  match value with
  | .null => .ok none
  | value => (workText value field maxText).map some

/-- `_string_list`. -/
def stringList (value : Json) (field : String) : Py (List String) :=
  match value with
  | .null => .ok []
  | .arr items =>
      if maxItems < items.length then .error (workInvalid (field ++ " must be a bounded list"))
      else items.mapM fun item => workText item (field ++ "[]") maxText
  | _ => .error (workInvalid (field ++ " must be a bounded list"))

/-- `_mapping` of a required value. -/
def requiredMapping (value : Json) (field : String) : Py Fields :=
  match value with
  | .obj fields =>
      if maxItems < fields.length then .error (workInvalid (field ++ " must be a bounded object"))
      else .ok fields
  | _ => .error (workInvalid (field ++ " must be a bounded object"))

/-- `_mapping` of a value that may be missing. -/
def optionalMapping (value : Json) (field : String) : Py Fields :=
  match value with
  | .null => .ok []
  | value => requiredMapping value field

/-- `_bounded_mapping_list`. -/
def mappingList (value : Json) (field : String) : Py (List Fields) :=
  match value with
  | .null => .ok []
  | .arr items =>
      if maxItems < items.length then .error (workInvalid (field ++ " must be a bounded list"))
      else items.mapM fun item => requiredMapping item (field ++ "[]")
  | _ => .error (workInvalid (field ++ " must be a bounded list"))

/-- An integer from 0 to the maximum. -/
def boundedInt (value : Json) (maximum : Int) (message : String) : Py Int :=
  match value with
  | .int n => if 0 ≤ n ∧ n ≤ maximum then .ok n else .error (workInvalid message)
  | _ => .error (workInvalid message)

/-- `_bounded_priority`. -/
def boundedPriority (value : Json) : Py Int :=
  boundedInt value 1000 "priority must be an integer between 0 and 1000"

/-- The check of an attempt number. -/
def boundedAttempt (value : Json) : Py Int :=
  boundedInt value 10000 "attempt must be an integer between 0 and 10000"

/-- Who submits or changes work. -/
structure Actor where
  type : String
  id : String
  deriving DecidableEq

def Actor.json (actor : Actor) : Json := .obj [("type", .str actor.type), ("id", .str actor.id)]

/-- `_actor`. -/
def readActor (value : Json) (field : String) : Py Actor := do
  let actor ← requiredMapping value field
  raiseIf (unknownFields actor ["type", "id"] ≠ [])
    (workInvalid (field ++ " contains unexpected fields"))
  let type ← workText (Fields.get actor "type") (field ++ ".type") 128
  let id ← workText (Fields.get actor "id") (field ++ ".id") 1024
  return ⟨type, id⟩

/-- A coordination state that the protocol knows. -/
def readCoordinationState (value : Json) : Py String := do
  let found ← inSet value workCoordinationStates
  raiseIf (!found)
    (.workProtocolError "WORK_COORDINATION_STATE_INVALID" "coordinationState is unsupported")
  return value.pyStr

/-- The rejection of hygiene work that is not local to one repository. -/
def hygieneError : PyError :=
  .workProtocolError workHygieneScopeCode ("REPO_HYGIENE work must be scoped to exactly one " ++
    "canonical repository equal to the primary repository")

/-- An instant with an offset, in UTC. -/
def readTimestamp (text : String) : Py String :=
  match DateTime.fromIsoFormat (Str.replaceChar (Str.strip text) 'Z' "+00:00").toList with
  | some ⟨micros, some offset⟩ =>
      match DateTime.toUtc ⟨micros, some offset⟩ with
      | some instant => .ok (DateTime.isoFormat instant)
      | none => .error (.overflowError "date value out of range")
  | _ => .error (workInvalid "observationTimestamp must be an ISO-8601 timestamp")

/-! ## Submissions -/

/-- A submission that passed its checks. -/
structure WorkSubmission where
  workId : String
  submitter : Actor
  task : String
  project : Fields
  repository : Option String
  constraints : List String
  parentWorkId : Option String
  title : String
  summary : String
  lane : Option String
  affectedRepositories : List String
  priority : Int
  dependencies : List String
  capabilityRequirements : List String
  capability : Option String
  reason : Option String
  expectedSemantics : Option String
  blockingWorkIds : List String
  evidenceLinks : List String
  sharedCoreImpact : Bool
  allowedWriteScope : List String
  forbiddenWriteScope : List String
  createdFrom : List String
  coordination : String
  proposalStatus : Option String
  proposalSource : Option String
  observationTimestamp : Option String
  findingIdentity : Option String
  healthStatus : Option String
  proposalReason : Option String
  deduplication : Fields
  attachments : List Fields
  canonicalRepository : Option String
  canonicalAffected : List String
  attempt : Int
  sensitivity : String
  fabricJobId : Option String
  workerId : Option String
  modelId : Option String

/-- The fields of a submission. -/
def submissionFields : List String :=
  ["workId", "submittingConsumer", "project", "repository", "task", "title", "summary", "lane",
    "affectedRepositories", "priority", "dependencies", "capabilityRequirements", "capability",
    "reason", "expectedSemantics", "blockingWorkIds", "evidenceLinks", "sharedCoreImpact",
    "allowedWriteScope", "forbiddenWriteScope", "createdFrom", "constraints", "parentWorkId",
    "fabricJobId", "workerId", "modelId", "attempt", "securitySensitivity", "coordinationState",
    "proposalStatus", "proposalSource", "observationTimestamp", "findingIdentity", "healthStatus",
    "proposalReason", "deduplication", "attachments", "canonicalRepository",
    "canonicalAffectedRepositories"]

/-- The values of `security.sensitivity` that a submission may ask for. -/
def submissionSensitivities : List String :=
  ["public", "restricted", "sensitive", "security-sensitive"]

/-- The lane of a submission, if it asks for one. -/
def readLane (value : Json) : Py (Option String) :=
  match value with
  | .null => .ok none
  | value => do
      let found ← inSet value lanes
      raiseIf (!found) (.workProtocolError "WORK_LANE_INVALID" "lane is unsupported")
      return some value.pyStr

/-- An array of strings. -/
def Json.ofStrings (texts : List String) : Json := .arr (texts.map Json.str)

/-- The first part of `new_work_record`, up to the record it returns. -/
def readSubmission (uuid : String) (request : Fields) : Py WorkSubmission := do
  let text := fun field => optionalText (Fields.get request field) field
  let list := fun field => stringList (Fields.get request field) field
  raiseIf (unknownFields request submissionFields ≠ [])
    (workInvalid "work submission contains unexpected fields")
  let workId := (← text "workId").getD ("work:" ++ uuid)
  raiseIf (!Str.startsWith workId "work:" || 256 < workId.length)
    (workInvalid "workId must start with work:")
  let submitter ← readActor (Fields.get request "submittingConsumer") "submittingConsumer"
  let task ← workText (Fields.get request "task") "task" maxText
  let project ← requiredMapping (Fields.get request "project") "project"
  let repository ← text "repository"
  let constraints ← list "constraints"
  let parentWorkId ← text "parentWorkId"
  let title := (← text "title").getD task
  let summary := (← text "summary").getD task
  let lane ← readLane (Fields.get request "lane")
  let policy := lane.bind WorkLane.ofString?
  let affectedRepositories ← stringList
    ((Fields.get? request "affectedRepositories").getD (Json.ofStrings repository.toList))
    "affectedRepositories"
  let priority ← boundedPriority ((Fields.get? request "priority").getD (.int 100))
  let dependencies ← list "dependencies"
  let capabilityRequirements ← list "capabilityRequirements"
  let capability ← text "capability"
  let reason ← text "reason"
  let expectedSemantics ← text "expectedSemantics"
  let blockingWorkIds ← list "blockingWorkIds"
  let evidenceLinks ← list "evidenceLinks"
  let sharedCore : Bool := lane = some WorkLane.sharedCore.value
  let sharedCoreImpact ← match (Fields.get? request "sharedCoreImpact").getD (.bool sharedCore) with
    | .bool impact => pure impact
    | _ => .error (workInvalid "sharedCoreImpact must be boolean")
  let allowedWriteScope ← stringList ((Fields.get? request "allowedWriteScope").getD
    (Json.ofStrings ((policy.map writeScope).getD []))) "allowedWriteScope"
  let forbiddenWriteScope ← stringList ((Fields.get? request "forbiddenWriteScope").getD
    (Json.ofStrings ((policy.map mustNotModify).getD []))) "forbiddenWriteScope"
  let createdFrom ← list "createdFrom"
  let coordination ← readCoordinationState
    ((Fields.get? request "coordinationState").getD (.str "AVAILABLE"))
  let proposalStatus ← text "proposalStatus"
  let proposalSource ← text "proposalSource"
  let observationTimestamp ← match ← text "observationTimestamp" with
    | none => pure none
    | some raw => (readTimestamp raw).map some
  let findingIdentity ← text "findingIdentity"
  let healthStatus ← text "healthStatus"
  let proposalReason ← text "proposalReason"
  let deduplication ← optionalMapping (Fields.get request "deduplication") "deduplication"
  let attachments ← mappingList (Fields.get request "attachments") "attachments"
  let canonicalRepository ← text "canonicalRepository"
  let canonicalAffected ← list "canonicalAffectedRepositories"
  raiseIf (sharedCore && !sharedCoreImpact)
    (.workProtocolError "WORK_SHARED_CORE_IMPACT_REQUIRED" "SHARED_CORE work must declare impact")
  raiseIf (lane.isSome && !sharedCore && sharedCoreImpact)
    (.workProtocolError "WORK_SAFE_LANE_SHARED_CORE"
      "safe-lane work cannot declare shared-core impact")
  let invalid ← hygieneScopeInvalid
    [("lane", (lane.map Json.str).getD .null), ("repository", (repository.map Json.str).getD .null),
      ("affectedRepositories", Json.ofStrings affectedRepositories),
      ("coordinationState", .str coordination),
      ("canonicalRepository", (canonicalRepository.map Json.str).getD .null),
      ("canonicalAffectedRepositories", Json.ofStrings canonicalAffected)]
  raiseIf invalid hygieneError
  let attempt ← boundedAttempt ((Fields.get? request "attempt").getD (.int 0))
  let sensitivity := (Fields.get? request "securitySensitivity").getD (.str "restricted")
  raiseIf (!(← inSet sensitivity submissionSensitivities))
    (workInvalid "securitySensitivity is invalid")
  let fabricJobId ← text "fabricJobId"
  let workerId ← text "workerId"
  let modelId ← text "modelId"
  return {
    workId, submitter, task, project, repository, constraints, parentWorkId, title, summary, lane
    affectedRepositories, priority, dependencies, capabilityRequirements, capability, reason
    expectedSemantics, blockingWorkIds, evidenceLinks, sharedCoreImpact, allowedWriteScope
    forbiddenWriteScope, createdFrom, coordination, proposalStatus, proposalSource
    observationTimestamp, findingIdentity, healthStatus, proposalReason, deduplication, attachments
    canonicalRepository, canonicalAffected, attempt, fabricJobId, workerId, modelId
    sensitivity := sensitivity.pyStr }

/-- The members that have a value. -/
def present (members : List (String × Option Json)) : Fields :=
  members.filterMap fun member => member.2.map fun value => (member.1, value)

namespace WorkSubmission

/-- The relations of the record. -/
def relationships (submission : WorkSubmission) : List Json :=
  let relation (type target : String) : Json := .obj [("type", .str type), ("target", .str target)]
  submission.dependencies.map (relation "depends_on") ++
    submission.createdFrom.map (relation "derived_from") ++
    submission.parentWorkId.toList.map (relation "depends_on")

/-- The members that only a record with a lane has. -/
def laneDetails (submission : WorkSubmission) : List (String × Option Json) :=
  [("lane", submission.lane.map Json.str),
    ("affectedRepositories", Json.ofStrings submission.affectedRepositories),
    ("priority", Json.int submission.priority),
    ("dependencies", Json.ofStrings submission.dependencies),
    ("capabilityRequirements", Json.ofStrings submission.capabilityRequirements),
    ("blockingWorkIds", Json.ofStrings submission.blockingWorkIds),
    ("evidenceLinks", Json.ofStrings submission.evidenceLinks),
    ("sharedCoreImpact", Json.bool submission.sharedCoreImpact),
    ("allowedWriteScope", Json.ofStrings submission.allowedWriteScope),
    ("forbiddenWriteScope", Json.ofStrings submission.forbiddenWriteScope),
    ("createdFrom", Json.ofStrings submission.createdFrom)]

/-- The further members that only a record with a lane has. -/
def laneTexts (submission : WorkSubmission) : List (String × Option Json) :=
  [("capability", submission.capability.map Json.str), ("reason", submission.reason.map Json.str),
    ("expectedSemantics", submission.expectedSemantics.map Json.str)]

/-- The members of `details`, with those that have no value. -/
def members (submission : WorkSubmission) : List (String × Option Json) :=
  let ifLane (members : List (String × Option Json)) : List (String × Option Json) :=
    if submission.lane.isSome then members else []
  [("objective", some (.str submission.task)), ("title", some (.str submission.title)),
    ("summary", some (.str submission.summary)), ("requestedKind", some (.str "WorkExecution")),
    ("requestState", some (.str "open")), ("workProtocol", some (.str workProtocol)),
    ("workId", some (.str submission.workId)), ("state", some (.str "submitted")),
    ("submittingConsumer", some submission.submitter.json),
    ("project", some (.obj submission.project)),
    ("repository", some ((submission.repository.map Json.str).getD .null)),
    ("constraints", some (Json.ofStrings submission.constraints))] ++
  ifLane submission.laneDetails ++
  [("coordinationState", some (.str submission.coordination)), ("claim", some .null),
    ("blockers", some (.arr [])), ("result", some .null),
    ("attachments", some (.arr (submission.attachments.map Json.obj)))] ++
  ifLane submission.laneTexts ++
  [("proposalStatus", submission.proposalStatus.map Json.str),
    ("proposalSource", submission.proposalSource.map Json.str),
    ("observationTimestamp", submission.observationTimestamp.map Json.str),
    ("findingIdentity", submission.findingIdentity.map Json.str),
    ("healthStatus", submission.healthStatus.map Json.str),
    ("proposalReason", submission.proposalReason.map Json.str),
    ("canonicalRepository", submission.canonicalRepository.map Json.str),
    ("canonicalAffectedRepositories",
      if submission.canonicalAffected = [] then none
      else some (Json.ofStrings submission.canonicalAffected)),
    ("deduplication",
      if submission.deduplication = [] then none else some (.obj submission.deduplication)),
    ("parentWorkId", some ((submission.parentWorkId.map Json.str).getD .null)),
    ("attempt", some (.int submission.attempt)),
    ("routing", some (.obj (present
      [("fabricJobId", submission.fabricJobId.map Json.str),
        ("workerId", submission.workerId.map Json.str),
        ("modelId", submission.modelId.map Json.str)]))),
    ("stateEvent", some (.obj [("from", .null), ("to", .str "submitted"),
      ("actor", submission.submitter.json)])),
    ("authorityBoundary", some (.str workAuthorityBoundary))]

/-- The members of `details`. -/
def details (submission : WorkSubmission) : Fields := present submission.members

/-- The record that `new_work_record` returns. -/
def record (submission : WorkSubmission) (now : String) : Fields :=
  [("apiVersion", .str "commons.mncs.dev/v0alpha1"),
    ("kind", .str "WorkRequest"),
    ("metadata", .obj [("recordId", .str submission.workId), ("createdAt", .str now),
      ("author", submission.submitter.json), ("revision", .int 1),
      ("labels", Json.ofStrings ["durable-work", "untrusted"])]),
    ("subject", .obj [("type", .str "project"),
      ("identity", .str (submission.repository.getD submission.workId))]),
    ("scope", .obj [("context", .obj (present [("project", some (.obj submission.project)),
        ("repository", submission.repository.map Json.str)])),
      ("limitations",
        Json.ofStrings ("record carries no execution authority" :: submission.constraints))]),
    ("statement", .obj [("summary", .str submission.title), ("details", .str submission.summary)]),
    ("evidence", .arr []),
    ("dependencies", Json.ofStrings submission.dependencies),
    ("affectedContracts", .arr []),
    ("provenance", .obj [("producer", submission.submitter.json), ("sourceRecords", .arr [])]),
    ("confidence", .obj [("level", .str "unreported"),
      ("rationale", .str "work state is an untrusted coordination assertion")]),
    ("security", .obj [("sensitivity", .str submission.sensitivity),
      ("executableAttachments", .bool false), ("instructionsAreUntrusted", .bool true),
      ("requiredExternalAuthority", .bool true)]),
    ("lifecycle", .obj [("initialState", .str "proposed"),
      ("reviewWhen", Json.ofStrings ["work state changes"])]),
    ("relationships", .arr submission.relationships),
    ("details", .obj submission.details)]

end WorkSubmission

/-- `new_work_record`. -/
def newWorkRecord (now uuid : String) (request : Fields) : Py Fields := do
  return (← readSubmission uuid request).record now

/-! ## Transitions -/

/-- The fields of a transition. -/
def transitionFields : List String :=
  ["state", "actor", "expectedPreviousDigest", "reason", "fabricJobId", "workerId", "modelId",
    "attempt", "progress", "blockers", "result", "coordinationState", "claim", "followOnRequests",
    "attachments"]

/-- `_request_state`. -/
def requestState (state : String) : String :=
  if state = "completed" then "completed"
  else if state = "failed" then "unable_to_complete"
  else if state = "cancelled" then "withdrawn"
  else if state = "submitted" then "open"
  else "claimed"

/-- The next coordination state: the one asked for, else what the next state stands
for. -/
def nextCoordination (details transition : Fields) (targetState : String) : Py String := do
  let next ← match Fields.get? transition "coordinationState" with
    | some value => do readCoordinationState (.str (← workText value "coordinationState" 32))
    | none => match coordinationOfWorkState.lookup targetState with
        | some coordination => pure coordination
        | none => coordinationState details
  let previous ← coordinationState details
  raiseIf (next ≠ previous && !(allowedCoordinationTransitions previous).contains next)
    (.workProtocolError "WORK_COORDINATION_TRANSITION_REJECTED"
      (previous ++ " -> " ++ next ++ " is not allowed"))
  return next

/-- Set a field to what the transition brings for it, if it brings anything. -/
def bring (transition : Fields) (field : String) (read : Json → Py Json) (details : Fields) :
    Py Fields :=
  match Fields.get? transition field with
  | none => .ok details
  | some value => (read value).map fun value => Fields.set details field value

/-- The claim that a transition brings. -/
def readClaim (value : Json) : Py Json :=
  match value with
  | .null => .ok .null
  | value => (requiredMapping value "claim").map Json.obj

/-- The pairs of type and target of the relations, as a set. -/
def relationPairs (relationships : List Json) : Py (List (Json × Json)) :=
  (relationships.filterMap Json.obj?).mapM fun relation => do
    let type := Fields.get relation "type"
    let target := Fields.get relation "target"
    requireHashable type
    requireHashable target
    return (type, target)

/-- The relations with those to follow-on requests. -/
def withFollowOns (relationships : List Json) (followOns : List String) : Py (List Json) := do
  let existing ← relationPairs relationships
  let added := followOns.filter fun item =>
    !existing.any fun pair => pair.1.str? = some "follows_up" && pair.2.str? = some item
  return relationships ++ added.map fun item =>
    .obj [("type", .str "follows_up"), ("target", .str item)]

/-- The relations of the next revision. -/
def nextRelationships (candidate transition : Fields) : Py Fields :=
  match Fields.get? transition "followOnRequests" with
  | none => .ok candidate
  | some value => do
      let followOns ← stringList value "followOnRequests"
      let relationships ← relationshipsOf candidate
      return Fields.set candidate "relationships" (.arr (← withFollowOns relationships followOns))

/-- The routing of the next revision. -/
def nextRouting (details transition : Fields) : Py Fields := do
  let routing ← optionalMapping (Fields.get details "routing") "routing"
  let routing ← ["fabricJobId", "workerId", "modelId"].foldlM
    (fun routing field =>
      bring transition field (fun value => (workText value field maxText).map Json.str) routing)
    routing
  return Fields.set details "routing" (.obj routing)

/-- Whether the result names its outcome. -/
def hasOutcome (details : Fields) : Bool :=
  (Fields.get details "result").obj?.any fun result => (Fields.get result "terminalOutcome").truthy

/-- Whether the result has evidence. -/
def hasEvidence (details : Fields) : Bool :=
  (Fields.get details "result").obj?.any fun result =>
    (Fields.get result "evidence").arr?.any fun evidence => !evidence.isEmpty

/-- What the next revision must carry in its states. -/
def requireEvidence (details : Fields) (laned : Bool) (targetState coordination : String) :
    Py Unit := do
  let blockers := (Fields.get details "blockers").truthy
  raiseIf (targetState = "blocked" && !blockers) (workInvalid "blocked work requires blockers")
  raiseIf (["completed", "failed"].contains targetState && !hasOutcome details)
    (workInvalid (targetState ++ " work requires result.terminalOutcome"))
  raiseIf (laned && ["CLAIMED", "IN_PROGRESS", "VERIFYING"].contains coordination &&
      !(Fields.get details "claim").isObj)
    (.workProtocolError "WORK_CLAIM_REQUIRED" "active work requires a claim")
  raiseIf (coordination = "BLOCKED" && !blockers) (workInvalid "blocked work requires blockers")
  raiseIf (coordination = "COMPLETE" && laned && !hasEvidence details)
    (.workProtocolError "WORK_COMPLETION_EVIDENCE_REQUIRED"
      "lane work completion requires non-empty result.evidence")

/-- The event of a transition. -/
def nextEvent (transition : Fields) (previousState targetState : String) (actor : Actor) :
    Py Fields := do
  let reason ← optionalText (Fields.get transition "reason") "reason"
  return present [("from", some (.str previousState)), ("to", some (.str targetState)),
    ("actor", some actor.json), ("reason", reason.map Json.str)]

/-- The metadata of the next revision. -/
def nextMetadata (now : String) (metadata : Fields) (actor : Actor) (previousDigest : String) :
    Py Fields := do
  let revision ← toInt ((Fields.get? metadata "revision").getD (.int 1))
  return [("createdAt", .str now), ("author", actor.json), ("revision", .int (revision + 1)),
    ("previousDigest", .str previousDigest)].foldl
      (fun metadata field => Fields.set metadata field.1 field.2) metadata

/-- The states of the next revision, before what the transition brings for other
fields. -/
def nextStates (details event : Fields) (targetState coordination : String) : Fields :=
  [("state", .str targetState), ("requestState", .str (requestState targetState)),
    ("stateEvent", .obj event), ("coordinationState", .str coordination)].foldl
      (fun details field => Fields.set details field.1 field.2) details

/-- The state that a transition asks for, which the present one allows. -/
def readTargetState (details transition : Fields) : Py String := do
  let previousState := (Fields.get details "state").pyStr
  let targetState ← workText ((Fields.get? transition "state").getD (.str previousState)) "state" 32
  raiseIf (!(allowedWorkTransitions previousState).contains targetState &&
      !(targetState = previousState && Fields.has transition "attachments"))
    (.workProtocolError "WORK_TRANSITION_REJECTED"
      (previousState ++ " -> " ++ targetState ++ " is not allowed"))
  return targetState

/-- What the transition brings for the fields that are not states. -/
def bringAll (transition details : Fields) : Py Fields := do
  let strings := fun field value => (stringList value field).map Json.ofStrings
  let mapping := fun field value => (requiredMapping value field).map Json.obj
  let details ← bring transition "followOnRequests" (strings "followOnRequests") details
  let details ← bring transition "attachments"
    (fun value => (mappingList value "attachments").map fun items => .arr (items.map Json.obj))
    details
  let details ← nextRouting details transition
  let details ← bring transition "attempt" (fun value => (boundedAttempt value).map Json.int) details
  let details ← bring transition "progress" (mapping "progress") details
  let details ← bring transition "result" (mapping "result") details
  bring transition "blockers" (strings "blockers") details

/-- `revised_work_record`. -/
def revisedWorkRecord (now : String) (current transition : Fields) : Py Fields := do
  raiseIf (unknownFields transition transitionFields ≠ [])
    (workInvalid "work transition contains unexpected fields")
  match (Fields.get current "details").obj?, (Fields.get current "metadata").obj? with
  | some details, some metadata => do
      let previousDigest := digestOf current
      raiseIf ((Fields.get transition "expectedPreviousDigest").str? ≠ some previousDigest)
        (.workProtocolError "WORK_CONFLICT" "expectedPreviousDigest is stale or missing")
      let previousState := (Fields.get details "state").pyStr
      let targetState ← readTargetState details transition
      let actor ← readActor (Fields.get transition "actor") "actor"
      let metadata ← nextMetadata now metadata actor previousDigest
      let event ← nextEvent transition previousState targetState actor
      let coordination ← nextCoordination details transition targetState
      let next := nextStates details event targetState coordination
      raiseIf (← hygieneScopeInvalid next) hygieneError
      let next ← bring transition "claim" readClaim next
      let candidate := Fields.set (Fields.erase current "contentDigest") "metadata" (.obj metadata)
      let candidate ← nextRelationships candidate transition
      let next ← bringAll transition next
      requireEvidence next (Fields.get details "lane").truthy targetState coordination
      return Fields.set candidate "details" (.obj next)
  | _, _ => .error (workInvalid "current work record is malformed")

end MncsCommons.Protocol
