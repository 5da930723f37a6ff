/-
# Work records

A work record describes requested and observed execution state as a sequence of
revisions of one logical record.  `validateWorkRecord` checks a revision by
itself; `workSemanticDiagnostics` checks it against the earlier revisions of the
same logical record.

Both read the record through key lookups only, which is why the order of keys
does not matter to them (`validateWorkRecord_sortKeys`).
-/

import MncsCommons.Protocol.Lanes
import MncsCommons.Protocol.Family

namespace MncsCommons.Protocol

open MncsCommons.Data

def workProtocol : String := "commons.mncs.dev/work-record/v0alpha1"

def workHygieneScopeCode : String := "WORK_HYGIENE_REPOSITORY_SCOPE_INVALID"

def workAuthorityBoundary : String := "record-only; execution requires external authority"

/-- The longest text of a work record. -/
def maxText : Nat := 16384

/-- The longest list of a work record. -/
def maxItems : Nat := 128

/-! ## States -/

/-- The allowed transitions between coordination states. -/
def coordinationTransitions : List (String × List String) :=
  [("AVAILABLE", ["CLAIMED", "ABANDONED", "SUPERSEDED"]),
    ("CLAIMED", ["IN_PROGRESS", "BLOCKED", "ABANDONED", "SUPERSEDED"]),
    ("IN_PROGRESS", ["BLOCKED", "VERIFYING", "COMPLETE", "ABANDONED", "NEEDS_RECONCILIATION"]),
    ("BLOCKED", ["CLAIMED", "IN_PROGRESS", "ABANDONED", "NEEDS_RECONCILIATION"]),
    ("VERIFYING", ["COMPLETE", "BLOCKED", "NEEDS_RECONCILIATION"]),
    ("NEEDS_RECONCILIATION", ["CLAIMED", "IN_PROGRESS", "ABANDONED"]),
    ("COMPLETE", []),
    ("ABANDONED", []),
    ("SUPERSEDED", [])]

def workCoordinationStates : List String :=
  ["AVAILABLE", "CLAIMED", "IN_PROGRESS", "BLOCKED", "VERIFYING", "COMPLETE", "ABANDONED",
    "SUPERSEDED", "NEEDS_RECONCILIATION"]

/-- The allowed transitions between work states. -/
def workTransitions : List (String × List String) :=
  [("submitted", ["accepted", "assigned", "failed", "cancelled"]),
    ("accepted", ["assigned", "queued", "failed", "cancelled"]),
    ("assigned", ["queued", "running", "blocked", "retrying", "failed", "cancelled"]),
    ("queued", ["assigned", "running", "blocked", "retrying", "failed", "cancelled"]),
    ("running", ["checkpointed", "blocked", "retrying", "completed", "failed", "cancelled"]),
    ("checkpointed", ["running", "blocked", "retrying", "completed", "failed", "cancelled"]),
    ("blocked", ["assigned", "queued", "running", "retrying", "failed", "cancelled"]),
    ("retrying", ["assigned", "queued", "running", "blocked", "failed", "cancelled"]),
    ("completed", []),
    ("failed", []),
    ("cancelled", [])]

def workStates : List String :=
  ["submitted", "accepted", "assigned", "queued", "running", "checkpointed", "blocked",
    "retrying", "completed", "failed", "cancelled"]

def allowedCoordinationTransitions (state : String) : List String :=
  (coordinationTransitions.lookup state).getD []

def allowedWorkTransitions (state : String) : List String :=
  (workTransitions.lookup state).getD []

/-- The coordination state that a work state stands for. -/
def coordinationOfWorkState : List (String × String) :=
  [("submitted", "AVAILABLE"), ("accepted", "AVAILABLE"), ("assigned", "CLAIMED"),
    ("queued", "CLAIMED"), ("running", "IN_PROGRESS"), ("checkpointed", "VERIFYING"),
    ("blocked", "BLOCKED"), ("retrying", "NEEDS_RECONCILIATION"), ("completed", "COMPLETE"),
    ("failed", "ABANDONED"), ("cancelled", "ABANDONED")]

/-- The explicit coordination state, or the one the work state stands for. -/
def coordinationState (details : Fields) : Py String := do
  let explicit := Fields.get details "coordinationState"
  if ← inSet explicit workCoordinationStates then return explicit.pyStr
  else
    return (coordinationOfWorkState.lookup (Fields.get details "state").pyStr).getD "AVAILABLE"

/-! ## Repository scope of hygiene work -/

/-- Whether a value is a string with more than white space. -/
def isText : Json → Bool
  | .str s => !Str.isBlank s
  | _ => false

/-- The repository a spelling resolves to, if the value is one. -/
def resolveRepository (value : Json) : Py (Option String) :=
  match value with
  | .str s => (canonicalProjectIdentity s).map (Option.map ProjectIdentity.repository)
  | _ => .ok none

/-- The repositories of a list, or none when one of them does not resolve. -/
def resolveRepositories : List Json → Py (Option (List String))
  | [] => .ok (some [])
  | item :: items => do
      match ← resolveRepository item with
      | none => return none
      | some repository => return (← resolveRepositories items).map (repository :: ·)

/-- Whether a hygiene request is not local to one canonical repository. -/
def hygieneScopeInvalid (details : Fields) : Py Bool := do
  if (Fields.get details "lane").str? ≠ some WorkLane.repoHygiene.value then return false
  else if (Fields.get details "coordinationState").str? = some "NEEDS_RECONCILIATION" then
    return false
  else
    let canonicalPrimary := Fields.get details "canonicalRepository"
    let primary ← resolveRepository
      (if isText canonicalPrimary then canonicalPrimary else Fields.get details "repository")
    let canonicalAffected := (Fields.get details "canonicalAffectedRepositories").arr?.getD []
    let affected :=
      if canonicalAffected ≠ [] then canonicalAffected
      else (Fields.get details "affectedRepositories").arr?.getD []
    match primary with
    | none => return true
    | some primary =>
        match ← resolveRepositories affected with
        | none => return true
        | some repositories =>
            return repositories.eraseDups.length ≠ 1 || !repositories.contains primary

/-! ## A revision by itself -/

/-- A present field that is not a list of at most `maxItems` non-blank strings. -/
def stringListInvalid (details : Fields) (field : String) : Bool :=
  match Fields.get? details field with
  | none => false
  | some (.arr items) => maxItems < items.length || !items.all isText
  | some _ => true

/-- A present field that is not a non-blank text of at most `maxText` characters. -/
def textFieldInvalid (details : Fields) (field : String) : Bool :=
  match Fields.get? details field with
  | none => false
  | some (.str s) => Str.isBlank s || maxText < s.length
  | some _ => true

/-- Whether a priority is an integer from 0 to 1000. -/
def priorityValid : Json → Bool
  | .int n => 0 ≤ n && n ≤ 1000
  | _ => false

/-- The checks of a state event. -/
def checkStateEvent (value details : Fields) : Py (List Diagnostic) :=
  match (Fields.get details "stateEvent").obj? with
  | none => reportIf true "WORK_EVENT_REQUIRED" "details.stateEvent" "state event is required"
  | some event =>
      let actor := Fields.get event "actor"
      let author := match (Fields.get value "metadata").obj? with
        | some metadata => Fields.get metadata "author"
        | none => .null
      concatChecks
        [reportIf (!(Fields.get event "to").pyEq (Fields.get details "state"))
            "WORK_EVENT_MISMATCH" "details.stateEvent.to" "must equal state",
          reportIf (!actor.obj?.any fun actor =>
              (Fields.get actor "type").truthy && (Fields.get actor "id").truthy)
            "WORK_ACTOR_REQUIRED" "details.stateEvent.actor" "actor is required",
          reportIf (!actor.pyEq author) "WORK_ACTOR_MISMATCH" "metadata.author"
            "revision author must equal the state-event actor"]

/-- The checks of a work identity. -/
def checkWorkId (value details : Fields) : Py (List Diagnostic) :=
  let recordId := match (Fields.get value "metadata").obj? with
    | some metadata => Fields.get metadata "recordId"
    | none => .null
  match (Fields.get details "workId").str?.filter fun workId =>
      Str.startsWith workId "work:" && workId.length ≤ 256 with
  | none => reportIf true "WORK_ID_INVALID" "details.workId" "invalid work identity"
  | some workId =>
      reportIf (recordId.str? ≠ some workId) "WORK_ID_MISMATCH" "metadata.recordId"
        "recordId must equal workId"

/-- The checks of a record that declares a lane. -/
def checkLane (details : Fields) : Py (List Diagnostic) :=
  let coordination := Fields.get details "coordinationState"
  let claim := Fields.get details "claim"
  concatChecks
    [reportUnlessIn (Fields.get details "lane") lanes "WORK_LANE_INVALID" "details.lane"
        "unsupported work lane",
      .ok ((validateLaneRequest details).map fun entry =>
        ⟨entry.1, entry.2, "lane policy combination is invalid"⟩),
      concatChecks (["affectedRepositories", "dependencies", "capabilityRequirements",
          "blockingWorkIds", "evidenceLinks", "allowedWriteScope", "forbiddenWriteScope"].map
        fun field => reportIf (stringListInvalid details field) "WORK_FIELD_INVALID"
          ("details." ++ field) "must be a bounded string list"),
      concatChecks (["capability", "reason", "expectedSemantics"].map
        fun field => reportIf (textFieldInvalid details field) "WORK_FIELD_INVALID"
          ("details." ++ field) "must be bounded text"),
      reportIf (!priorityValid (Fields.get details "priority")) "WORK_PRIORITY_INVALID"
        "details.priority" "priority must be between 0 and 1000",
      reportIf (claim ≠ .null && !claim.isObj) "WORK_CLAIM_INVALID" "details.claim"
        "claim must be an object or null",
      reportIf (coordination.str?.any (["CLAIMED", "IN_PROGRESS", "VERIFYING"].contains ·) &&
          !claim.isObj)
        "WORK_CLAIM_REQUIRED" "details.claim" "active work requires a claim",
      reportIf (coordination.str? = some "BLOCKED" && !(Fields.get details "blockers").truthy)
        "WORK_BLOCKERS_REQUIRED" "details.blockers" "blocked work requires blockers",
      reportIf (coordination.str? = some "COMPLETE" &&
          !(Fields.get details "result").obj?.any fun result =>
            (Fields.get result "terminalOutcome").truthy)
        "WORK_COMPLETION_EVIDENCE_REQUIRED" "details.result" "complete work requires a result",
      (hygieneScopeInvalid details).bind fun invalid =>
        reportIf invalid workHygieneScopeCode "details.affectedRepositories"
          ("REPO_HYGIENE work must be scoped to exactly one " ++
            "canonical repository equal to the primary repository")]

/-- Whether a record opts into the work protocol. -/
def isWorkRecord (value details : Fields) : Bool :=
  (Fields.get value "kind").str? = some "WorkRequest" &&
    (Fields.has details "workProtocol" || Fields.has details "workId" ||
      Fields.has details "stateEvent")

/-- Validate the self-contained part of an opt-in durable work request. -/
def validateWorkRecord (value : Fields) : Py (List Diagnostic) :=
  match (Fields.get value "details").obj? with
  | none => .ok []
  | some details =>
      let coordination := Fields.get details "coordinationState"
      if !isWorkRecord value details then .ok []
      else concatChecks
        [reportIf ((Fields.get details "workProtocol").str? ≠ some workProtocol)
            "WORK_PROTOCOL_UNSUPPORTED" "details.workProtocol" "unsupported protocol",
          checkWorkId value details,
          reportUnlessIn (Fields.get details "state") workStates "WORK_STATE_INVALID"
            "details.state" "unsupported state",
          checkStateEvent value details,
          reportIf ((Fields.get details "authorityBoundary").str? ≠ some workAuthorityBoundary)
            "WORK_AUTHORITY_BOUNDARY_REQUIRED" "details.authorityBoundary"
            "work records must deny execution authority",
          concatChecks (["objective", "requestedKind", "submittingConsumer", "project",
            "constraints"].map fun field =>
              reportIf (!Fields.has details field) "WORK_FIELD_REQUIRED" ("details." ++ field)
                "work field is required"),
          reportUnlessIn coordination workCoordinationStates "WORK_COORDINATION_STATE_INVALID"
            "details.coordinationState" "unsupported coordination state",
          if coordination.str? = some "AVAILABLE" ∧
              (Fields.get details "proposalStatus").str? = some "ACCEPTED" then
            reportUnlessIn (Fields.get details "lane") lanes "WORK_LANE_REQUIRED" "details.lane"
              "claimable work must declare a lane"
          else .ok [],
          if Fields.has details "lane" then checkLane details else .ok [],
          reportIf (!(Fields.get value "security").obj?.any fun security =>
              Fields.get security "instructionsAreUntrusted" = .bool true)
            "WORK_TRUST_BOUNDARY_REQUIRED" "security.instructionsAreUntrusted"
            "work instructions must remain untrusted"]

/-! ## A revision against its history -/

/-- The request fields that no later revision may change. -/
def immutableWorkFields : List String :=
  ["workId", "objective", "title", "summary", "requestedKind", "submittingConsumer", "project",
    "repository", "constraints", "lane", "affectedRepositories", "priority", "dependencies",
    "capabilityRequirements", "capability", "reason", "expectedSemantics", "blockingWorkIds",
    "evidenceLinks", "sharedCoreImpact", "allowedWriteScope", "forbiddenWriteScope",
    "createdFrom", "parentWorkId", "authorityBoundary", "proposalStatus", "proposalSource",
    "observationTimestamp", "findingIdentity", "healthStatus", "proposalReason", "deduplication",
    "canonicalRepository", "canonicalAffectedRepositories"]

/-- `int(item.get("metadata", {}).get("revision", 1))`. -/
def revisionOf (record : Fields) : Py Int := do
  let metadata := (Fields.get? record "metadata").getD (.obj [])
  toInt (← getAttr metadata "revision" (.int 1))

/-- The first item with the greatest key, as `max(items, key=...)` picks it. -/
def maxByRevision : Fields → Int → List Fields → Py (Fields × Int)
  | best, revision, [] => .ok (best, revision)
  | best, revision, item :: items => do
      let other ← revisionOf item
      if revision < other then maxByRevision item other items
      else maxByRevision best revision items

/-- The latest revision among records of one logical identity. -/
def latestRevision : List Fields → Py (Option (Fields × Int))
  | [] => .ok none
  | item :: items => do
      let revision ← revisionOf item
      return some (← maxByRevision item revision items)

/-- The first revision must submit from no prior state. -/
def checkFirstWorkRevision (details : Fields) : Py (List Diagnostic) :=
  let submits : Bool := (Fields.get details "state").str? = some "submitted" &&
    (Fields.get details "stateEvent").obj?.any fun event => Fields.get event "from" = .null
  reportIf (!submits) "WORK_INITIAL_STATE_INVALID" "details.stateEvent"
    "first work revision must submit from no prior state"

/-- A later revision keeps the request and takes an allowed step. -/
def checkNextWorkRevision (details latest : Fields) : Py (List Diagnostic) := do
  let previousState := (Fields.get latest "state").pyStr
  let state := (Fields.get details "state").pyStr
  concatChecks
    [concatChecks (immutableWorkFields.map fun field =>
        reportIf (!(Fields.get details field).pyEq (Fields.get latest field))
          "WORK_REQUEST_MUTATED" ("details." ++ field)
          "submitted work identity and request fields are immutable"),
      reportIf (state ≠ previousState && !(allowedWorkTransitions previousState).contains state)
        "WORK_TRANSITION_REJECTED" "details.state"
        (previousState ++ " -> " ++ state ++ " is not allowed"),
      reportIf (!(Fields.get details "stateEvent").obj?.any fun event =>
          (Fields.get event "from").str? = some previousState)
        "WORK_EVENT_STALE" "details.stateEvent.from"
        "state event does not name the previous state",
      (do
        let previousCoordination ← coordinationState latest
        let nextCoordination ← coordinationState details
        reportIf (nextCoordination ≠ previousCoordination &&
            !(allowedCoordinationTransitions previousCoordination).contains nextCoordination)
          "WORK_COORDINATION_TRANSITION_REJECTED" "details.coordinationState"
          (previousCoordination ++ " -> " ++ nextCoordination ++ " is not allowed"))]

/-- Whether a record follows the work protocol. -/
def followsWorkProtocol (record : Fields) : Bool :=
  (Fields.get record "details").obj?.any fun details =>
    (Fields.get details "workProtocol").str? = some workProtocol

/-- Check immutable request data and state lineage against local history. -/
def workSemanticDiagnostics (candidate : Fields) (existingSameId : List Fields) :
    Py (List Diagnostic) := do
  if !followsWorkProtocol candidate then return []
  else
    let details := (Fields.get candidate "details").obj?.getD []
    match ← latestRevision existingSameId with
    | none => checkFirstWorkRevision details
    | some (latest, _) =>
        if !followsWorkProtocol latest then
          reportIf true "WORK_HISTORY_INVALID" "details.workProtocol"
            "logical identity changed protocol"
        else checkNextWorkRevision details ((Fields.get latest "details").obj?.getD [])

/-! ## Key order -/

/-- The second object has, at the given keys, the values of the first with
their keys in order. -/
def ReadsSorted (keys : List String) (first second : Fields) : Prop :=
  ∀ key ∈ keys, Fields.get? second key = (Fields.get? first key).map Json.sortKeys

theorem ReadsSorted.get {keys : List String} {first second : Fields}
    (h : ReadsSorted keys first second) {key : String} (hkey : key ∈ keys) :
    Fields.get second key = (Fields.get first key).sortKeys := by
  rw [Fields.get, h key hkey, Fields.get]
  cases Fields.get? first key <;> rfl

@[simp]
theorem isText_sortKeys (value : Json) : isText value.sortKeys = isText value := by
  cases value <;> simp [isText]

@[simp]
theorem reportUnlessIn_sortKeys (value : Json) (values : List String)
    (code path message : String) :
    reportUnlessIn value.sortKeys values code path message =
      reportUnlessIn value values code path message := by
  simp [reportUnlessIn]

@[simp]
theorem resolveRepository_sortKeys (value : Json) :
    resolveRepository value.sortKeys = resolveRepository value := by
  cases value <;> simp [resolveRepository]

@[simp]
theorem resolveRepositories_map_sortKeys (items : List Json) :
    resolveRepositories (items.map Json.sortKeys) = resolveRepositories items := by
  induction items with
  | nil => rfl
  | cons item items ih => simp only [List.map_cons, resolveRepositories, resolveRepository_sortKeys, ih]

theorem getD_map_sortKeys (items : Option (List Json)) :
    (items.map (List.map Json.sortKeys)).getD [] = (items.getD []).map Json.sortKeys := by
  cases items <;> rfl

@[simp]
theorem hygieneScopeInvalid_sortKeys (details : Fields) :
    hygieneScopeInvalid (Fields.sortKeys details) = hygieneScopeInvalid details := by
  simp only [hygieneScopeInvalid, Fields.get_sortKeys, Json.str?_sortKeys, isText_sortKeys,
    Json.arr?_sortKeys, getD_map_sortKeys, ne_eq, List.map_eq_nil_iff,
    ← apply_ite (List.map Json.sortKeys), ← apply_ite Json.sortKeys, resolveRepository_sortKeys,
    resolveRepositories_map_sortKeys]

@[simp]
theorem stringListInvalid_sortKeys (details : Fields) (field : String) :
    stringListInvalid (Fields.sortKeys details) field = stringListInvalid details field := by
  rw [stringListInvalid, stringListInvalid, Fields.get?_sortKeys]
  cases Fields.get? details field with
  | none => rfl
  | some value => cases value <;> simp [Function.comp_def]

@[simp]
theorem textFieldInvalid_sortKeys (details : Fields) (field : String) :
    textFieldInvalid (Fields.sortKeys details) field = textFieldInvalid details field := by
  rw [textFieldInvalid, textFieldInvalid, Fields.get?_sortKeys]
  cases Fields.get? details field with
  | none => rfl
  | some value => cases value <;> simp

@[simp]
theorem priorityValid_sortKeys (value : Json) :
    priorityValid value.sortKeys = priorityValid value := by
  cases value <;> simp [priorityValid]

@[simp]
theorem any_map_sortKeys {p : Fields → Bool} (h : ∀ fields, p (Fields.sortKeys fields) = p fields)
    (fields : Option Fields) : (fields.map Fields.sortKeys).any p = fields.any p := by
  cases fields <;> simp [h]

@[simp]
theorem checkLane_sortKeys (details : Fields) :
    checkLane (Fields.sortKeys details) = checkLane details := by
  simp [checkLane]


theorem checkWorkId_sortKeys {value other : Fields} (h : ReadsSorted ["metadata"] value other)
    (details : Fields) :
    checkWorkId other (Fields.sortKeys details) = checkWorkId value details := by
  simp only [checkWorkId, h.get (by simp : "metadata" ∈ _), Json.obj?_sortKeys,
    Fields.get_sortKeys, Json.str?_sortKeys]
  cases (Fields.get value "metadata").obj? <;> simp

theorem checkStateEvent_sortKeys {value other : Fields}
    (h : ReadsSorted ["metadata"] value other) (details : Fields) :
    checkStateEvent other (Fields.sortKeys details) = checkStateEvent value details := by
  simp only [checkStateEvent, h.get (by simp : "metadata" ∈ _), Json.obj?_sortKeys,
    Fields.get_sortKeys]
  cases (Fields.get details "stateEvent").obj? with
  | none => rfl
  | some event => cases (Fields.get value "metadata").obj? <;> simp

/-- Work validation reads four members of the record, through lookups. -/
theorem validateWorkRecord_of_readsSorted {value other : Fields}
    (h : ReadsSorted ["kind", "details", "metadata", "security"] value other) :
    validateWorkRecord other = validateWorkRecord value := by
  have hmetadata : ReadsSorted ["metadata"] value other := fun key hkey => h key (by simp_all)
  simp only [validateWorkRecord, h.get (by simp : "details" ∈ _),
    h.get (by simp : "security" ∈ _), isWorkRecord, h.get (by simp : "kind" ∈ _),
    Json.obj?_sortKeys]
  cases (Fields.get value "details").obj? with
  | none => rfl
  | some details =>
      simp [checkWorkId_sortKeys hmetadata, checkStateEvent_sortKeys hmetadata]

end MncsCommons.Protocol
