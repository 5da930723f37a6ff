/-
# Projecting one pressure

The read-only view of one declaration with the observations and events around
it.  `replay` walks the transitions from the root along `previousEvent` and
checks each against the state before it, the native transition law and the
requirements of its target; `projectOne` adds the material of the observations.

Each transition is checked against the observations visible to it: the ones it
references and the ones with an earlier timestamp.

A document is the members of its JSON object.  The loop is given one turn more
than there are transitions; every turn but the last adds an event identity, so
the turns never run out (`replay_fuel`).
-/

import MncsCommons.Pressure.Kernel
import MncsCommons.Pressure.Repositories
import Mathlib.Data.Prod.Lex

namespace MncsCommons.Pressure

open MncsCommons.Data MncsCommons.Protocol

/-! ## Reading documents -/

/-- `item.get(key, default)`. -/
def member (item : Fields) (key : String) (default : Json) : Json :=
  (Fields.get? item key).getD default

/-- `str(item.get("id", ""))`. -/
def documentId (item : Fields) : String := (member item "id" (.str "")).pyStr

/-- `item[key]`. -/
def requireKey (item : Fields) (key : String) : Py Json :=
  match Fields.get? item key with
  | some value => .ok value
  | none => .error (.keyError key)

/-- `item.get("reproduction", {}).get("status")`. -/
def reproductionStatus (item : Fields) : Py Json :=
  getAttr (member item "reproduction" (.obj [])) "status" .null

/-- `item.get("reproduction", {}).get("status") == status`. -/
def reproductionIs (status : String) (item : Fields) : Py Bool := do
  return (← reproductionStatus item) = .str status

/-- `item.get("workaround", {}).get("removed", "not_needed")`. -/
def workaroundRemoved (item : Fields) : Py Json :=
  getAttr (member item "workaround" (.obj [])) "removed" (.str "not_needed")

/-- `value in {True, "not_needed"}`. -/
def isClosed (value : Json) : Py Bool := do
  requireHashable value
  return value.pyEq (.bool true) || value = .str "not_needed"

/-- Whether the workaround of an observation is removed or was not needed. -/
def workaroundClosed (item : Fields) : Py Bool := do isClosed (← workaroundRemoved item)

/-- `sum(test(item) for item in items)`. -/
def countWhere (test : Fields → Py Bool) (items : List Fields) : Py Nat := do
  return (← filterWhere test items).length

/-- `set(value)`, as the list of its items. -/
def setOf (value : Json) : Py (List Json) := do
  let items ← iterate value
  let _ ← collect requireHashable items
  return items

/-- `str(event.get("reason", "")).strip()` is empty. -/
def lacksReason (event : Fields) : Bool := Str.isBlank (member event "reason" (.str "")).pyStr

/-! ## Verifications -/

/-- Whether the document is a verification. -/
def isVerification (item : Fields) : Bool := Fields.get item "kind" = .str "verification"

section Zone

variable (zone : Int → Py Int)

/-- The place of an observation in time: its instant, then its id. -/
def observationKey (item : Fields) : Py (Int ×ₗ String) := do
  return toLex (← instantKey zone (Fields.get item "observedAt"), documentId item)

/-- The verifications in the order of time. -/
def orderedVerifications (observations : List Fields) : Py (List Fields) := do
  let keyed ← collect (fun item => do return (← observationKey zone item, item))
    (observations.filter isVerification)
  return (sortedBy Prod.fst keyed).map Prod.snd

/-- Assign each item to the repository it names, when that is a known one. -/
def assignByRepository :
    List (String × Fields) → List Fields → Py (List (String × Fields))
  | current, [] => .ok current
  | current, item :: items => do
      match ← normalizeRepository (Fields.get item "repository") with
      | some repository => assignByRepository (Fields.set current repository item) items
      | none => assignByRepository current items

/-- `_current_verifications`: the latest verification of each repository. -/
def currentVerifications (observations : List Fields) : Py (List (String × Fields)) := do
  assignByRepository [] (← orderedVerifications zone observations)

/-! ## The requirements of a transition -/

/-- The requirement of a target that needs a pressure reproduced. -/
def confirmedRequirement (observations : List Fields) : Py (Option String) := do
  let reproduced ← anyWhere
    (fun item =>
      if Fields.get item "kind" = .str "observation" then reproductionIs "PASS" item
      else .ok false)
    observations
  return if reproduced then none
    else some "confirmed requires a PASS pressure reproduction observation"

/-- The requirement of a target that needs an implementation. -/
def availableRequirement (event : Fields) : Option String :=
  match Fields.get event "implementation" with
  | .obj implementation =>
      if Str.isBlank (member implementation "ref" (.str "")).pyStr then
        some "available requires implementation.ref"
      else none
  | _ => some "available requires implementation.ref"

/-- What the verification of one affected repository lacks for a resolution. -/
def repositoryRequirement (verification : List (String × Fields)) (repository : String) :
    Py (Option String) :=
  match Fields.get? verification repository with
  | none => .error (.keyError repository)
  | some item => do
      if !(← reproductionIs "PASS" item) then
        return some ("resolved requires PASS verification from " ++ repository)
      if !(← workaroundClosed item) then
        return some ("resolved requires workaround removal or not_needed from " ++ repository)
      return none

/-- The first repository that lacks something. -/
def firstLack (verification : List (String × Fields)) : List String → Py (Option String)
  | [] => .ok none
  | repository :: repositories => do
      match ← repositoryRequirement verification repository with
      | some lack => return some lack
      | none => firstLack verification repositories

/-- The requirement of a resolution: references to observations of the pressure,
and a closed PASS verification of every affected repository. -/
def resolvedRequirement (observations : List Fields) (ids : List String) (refs : List Json)
    (affected : List String) : Py (Option String) := do
  if refs.isEmpty || !refs.all fun ref => ref.str?.any ids.contains then
    return some "resolved evidenceRefs must point to observations in this pressure"
  let verification ← currentVerifications zone observations
  if affected.isEmpty then
    return some "resolved requires at least one affected repository"
  let missing := (sortedBy id affected).filter fun repository =>
    !Fields.has verification repository
  if !missing.isEmpty then
    return some ("resolved requires verification from every affected repository: " ++
      Str.join ", " missing)
  let items := verification.map Prod.snd
  let passed ← countWhere (reproductionIs "PASS") items
  let failed ← countWhere (reproductionIs "FAIL") items
  let unknown ← countWhere (reproductionIs "UNKNOWN") items
  let removed ← countWhere workaroundClosed items
  let ready := resolutionReady affected.length passed failed unknown removed
  match ← firstLack verification (sortedBy id affected) with
  | some lack => return some lack
  | none =>
      if !ready then
        return some "resolved requires complete PASS verification and workaround closure"
      return none

/-- The requirement of a target that needs a relation. -/
def relationRequirement (target required : String) (relations : List Fields) : Option String :=
  if relations.any fun item => Fields.get item "relation" = .str required then none
  else some (target ++ " requires a " ++ required ++ " relation first")

/-- `_validate_transition_requirements`: what the transition lacks, if anything. -/
def validateTransitionRequirements (observations : List Fields) (affected : List String)
    (relations : List Fields) (event : Fields) : Py (Option String) := do
  let target := (← requireKey event "to").pyStr
  let refs ← setOf (member event "evidenceRefs" (.arr []))
  let ids ← collect (fun item => do return (← requireKey item "id").pyStr) observations
  if ["confirmed", "accepted", "available", "resolved"].contains target && refs.isEmpty then
    return some (target ++ " requires evidenceRefs")
  if target = "confirmed" then confirmedRequirement observations
  else if target = "accepted" then
    return if lacksReason event then some "accepted requires a decision reason" else none
  else if target = "implementing" then
    return if lacksReason event then some "implementing requires a work plan reason" else none
  else if target = "available" then return availableRequirement event
  else if target = "resolved" then resolvedRequirement zone observations ids refs affected
  else if target = "duplicate" then return relationRequirement target "duplicate_of" relations
  else if target = "superseded" then return relationRequirement target "supersedes" relations
  else if ["rejected", "deferred", "obsolete"].contains target then
    return if lacksReason event then some (target ++ " requires a reason") else none
  else return none

/-! ## What a transition sees -/

/-- Whether a transition with the references at the instant sees an observation. -/
def isVisible (references : List Json) (time : Int) (item : Fields) : Py Bool :=
  if references.contains (.str (documentId item)) then .ok true
  else if isInstant (Fields.get item "observedAt") false then do
    return decide ((← instantKey zone (Fields.get item "observedAt")) < time)
  else .ok false

/-- The observations a transition sees. -/
def visibleObservations (observations : List Fields) (event : Fields) : Py (List Fields) := do
  let references ← setOf (member event "evidenceRefs" (.arr []))
  let time ← instantKey zone (Fields.get event "occurredAt")
  filterWhere (isVisible zone references time) observations

/-- The repositories of the record and of the observations, in order. -/
def affectedRepositories (record : Fields) (observations : List Fields) : Py (List String) := do
  let declared ← collect repositoryName (← iterate (member record "affectedRepositories" (.arr [])))
  let observed ← collect repositoryName
    ((observations.map fun item => Fields.get item "repository").filter Json.isStr)
  return sortedBy id (declared ++ observed).eraseDups

/-- What a transition of the record lacks, by what it sees. -/
def transitionRequirement (record : Fields) (observations relations : List Fields)
    (event : Fields) : Py (Option String) := do
  let visible ← visibleObservations zone observations event
  let affected ← affectedRepositories record visible
  validateTransitionRequirements zone visible affected relations event

end Zone

/-! ## Replaying the transitions -/

/-- `event.get("previousEvent")`, where everything but a string counts as none. -/
def previousEvent (event : Fields) : Option String := (Fields.get event "previousEvent").str?

/-- `by_previous.get(previous, [])`. -/
def candidatesAfter (transitions : List Fields) (previous : Option String) : List Fields :=
  transitions.filter fun event => previousEvent event = previous

/-- `repr` of an identity or none. -/
def reprPrevious : Option String → String
  | none => "None"
  | some previous => String.ofList (reprString previous)

/-- The native transition law on the names of two statuses; the kernel refuses
names that are no variant. -/
def nativeTransitionAllowed (current target : String) : Py Bool :=
  match PressureStatus.ofVariant? (Str.upper current),
      PressureStatus.ofVariant? (Str.upper target) with
  | some current, some target => .ok (transitionAllowedState current target)
  | _, _ => .error (.valueError "native lifecycle policy failed closed")

/-- The diagnostics of a history that is not one allowed chain. -/
def historyCodes : List String :=
  ["CONCURRENT_TRANSITIONS", "EVENT_CYCLE", "STALE_TRANSITION", "INVALID_TRANSITION",
    "INVALID_TRANSITION_REQUIREMENTS", "DANGLING_TRANSITION"]

/-- How far a replay has come. -/
structure Replay where
  state : String
  chain : List Fields
  seen : List String
  diagnostics : List Diagnostic

section Replay

variable (zone : Int → Py Int) (recordId : String) (record : Fields)
  (observations relations : List Fields)

/-- What is wrong with the next event in the state before it. -/
def checkEvent (state : String) (event : Fields) : Py (Option Diagnostic) := do
  let path := "pressure[" ++ recordId ++ "].events[" ++ documentId event ++ "]"
  let expected := Fields.get event "from"
  if expected ≠ .str state then
    return some ⟨"STALE_TRANSITION", path ++ ".from", "event expects " ++
      String.ofList (reprValue expected) ++ ", projected state is " ++
      String.ofList (reprString state)⟩
  let target := (member event "to" (.str "")).pyStr
  if !(← nativeTransitionAllowed state target) then
    return some ⟨"INVALID_TRANSITION", path,
      state ++ " -> " ++ target ++ " is not an allowed transition"⟩
  match ← transitionRequirement zone record observations relations event with
  | some requirement => return some ⟨"INVALID_TRANSITION_REQUIREMENTS", path, requirement⟩
  | none => return none

/-- The loop over the transitions from the one after `previous`. -/
def replay (transitions : List Fields) : Nat → Option String → Replay → Py Replay
  | 0, _, reached => .ok reached
  | fuel + 1, previous, reached =>
      match candidatesAfter transitions previous with
      | [] => .ok reached
      | [event] =>
          if reached.seen.contains (documentId event) then
            .ok { reached with
              diagnostics := reached.diagnostics ++ [⟨"EVENT_CYCLE",
                "pressure[" ++ recordId ++ "].events", "transition event chain cycles"⟩] }
          else do
            let seen := reached.seen ++ [documentId event]
            match ← checkEvent zone recordId record observations relations reached.state event with
            | some diagnostic =>
                return { reached with
                  seen := seen
                  diagnostics := reached.diagnostics ++ [diagnostic] }
            | none =>
                replay transitions fuel (some (documentId event))
                  { reached with
                    state := (member event "to" (.str "")).pyStr
                    chain := reached.chain ++ [event]
                    seen := seen }
      | candidates =>
          .ok { reached with
            diagnostics := reached.diagnostics ++ [⟨"CONCURRENT_TRANSITIONS",
              "pressure[" ++ recordId ++ "].events",
              toString candidates.length ++ " transitions claim previous event " ++
                reprPrevious previous ++ "; rebase one branch"⟩] }

end Replay

/-! ## Reconciliation -/

/-- The classes of a reconciliation. -/
def reconciliationClasses : List String :=
  ["STILL_REPRODUCES", "PARTIALLY_RESOLVED", "CAPABILITY_AVAILABLE_CONSUMER_NOT_MIGRATED",
    "BACKEND_ONLY", "CONSUMER_DEBT", "OBSOLETE", "DUPLICATE", "RESOLVED", "UNRECONCILED"]

/-- The labels of older observations. -/
def reconciliationAliases : List (String × String) :=
  [("still_real", "STILL_REPRODUCES"), ("still_reproduces", "STILL_REPRODUCES"),
    ("partially_resolved", "PARTIALLY_RESOLVED"), ("resolved_upstream", "RESOLVED"),
    ("reframed", "PARTIALLY_RESOLVED")]

/-- The class an observation states. -/
def classificationOf (item : Fields) : Option String := do
  let metadata ← (Fields.get item "metadata").obj?
  let raw ← (Fields.get metadata "classification").str?
  let stripped := Str.strip raw
  let normalized := (Fields.get? reconciliationAliases (Str.lower stripped)).getD
    (Str.upper stripped)
  if !reconciliationClasses.contains normalized || normalized = "UNRECONCILED" then none
  else some normalized

/-- The first candidate with the greatest key. -/
def latestCandidate {α : Type} : List ((Int ×ₗ String) × α) → Option ((Int ×ₗ String) × α)
  | [] => none
  | candidate :: candidates => match latestCandidate candidates with
      | none => some candidate
      | some latest => if candidate.1 < latest.1 then some latest else some candidate

/-- `_reconciliation`: the latest class that an observation states. -/
def reconciliationOf (zone : Int → Py Int) (observations : List Fields) : Py Fields := do
  let stated := observations.filterMap fun item =>
    (classificationOf item).map fun classification => (classification, item)
  let candidates ← collect
    (fun entry : String × Fields => do return (← observationKey zone entry.2, entry)) stated
  match latestCandidate candidates with
  | none => return [("classification", .str "UNRECONCILED")]
  | some (_, classification, item) =>
      return [("classification", .str classification), ("observationId", .str (documentId item)),
        ("observedAt", Fields.get item "observedAt"), ("repository", Fields.get item "repository"),
        ("summary", member item "summary" (.str ""))]

/-! ## The projection -/

/-- A materialised view of one declaration. -/
structure PressureProjection where
  data : Fields
  events : List Fields
  observations : List Fields
  relations : List Fields
  diagnostics : List Diagnostic
  transitionMaterial : List Fields

namespace PressureProjection

/-- Every diagnostic of a projection is an error. -/
def valid (projection : PressureProjection) : Bool := projection.diagnostics.isEmpty

def status (projection : PressureProjection) : String :=
  (member projection.data "status" (.str "conflicted")).pyStr

end PressureProjection

/-- The observations of a pressure, by id. -/
def relevantObservations (recordId : String) (observations : List Fields) : List Fields :=
  sortedBy documentId (observations.filter fun item => Fields.get item "pressureId" = .str recordId)

/-- The events of a pressure, by id. -/
def relevantEvents (recordId : String) (events : List Fields) : List Fields :=
  sortedBy documentId (events.filter fun item =>
    Fields.get item "pressureId" = .str recordId ||
      Fields.get item "sourcePressure" = .str recordId ||
      Fields.get item "targetPressure" = .str recordId)

/-- The relations of a pressure, in which it is the source or the target. -/
def relationsOf (recordId : String) (events : List Fields) : List Fields :=
  (relevantEvents recordId events).filter fun item => Fields.get item "kind" = .str "PressureRelation"

/-- The transitions of a pressure. -/
def transitionMaterial (recordId : String) (events : List Fields) : List Fields :=
  (relevantEvents recordId events).filter fun item =>
    Fields.get item "kind" = .str "PressureTransition"

/-- The statuses a pressure does not leave by itself. -/
def terminalStatuses : List String := ["resolved", "duplicate", "rejected", "superseded", "obsolete"]

/-- One item of a sequence of pairs; a key that is no string is kept as its text. -/
def pairOf (item : Json) : Py (String × Json) := do
  match ← iterate item with
  | [key, value] => do
      requireHashable key
      return (key.pyStr, value)
  | _ => .error (.valueError "dictionary update sequence element has the wrong length")

/-- `dict(value)`. -/
def dictOf (value : Json) : Py Fields :=
  match value with
  | .obj fields => .ok fields
  | _ => do return Fields.ofPairs (← collect pairOf (← iterate value))

/-- The implementation of the last transition that has one. -/
def latestImplementation (chain : List Fields) : Py Fields :=
  match chain.reverse.find? fun item => (Fields.get item "implementation").truthy with
  | some item => dictOf (Fields.get item "implementation")
  | none => .ok []

/-- The material of the observations that a projection adds to the declaration. -/
def projectionMaterial (zone : Int → Py Int) (record : Fields) (observations : List Fields)
    (chain : List Fields) (status : String) : Py Fields := do
  let reporter ← repositoryName (Fields.get record "discoveredBy")
  let affected ← affectedRepositories record observations
  let named ← collect repositoryName
    ((observations.map fun item => Fields.get item "repository").filter Json.isStr)
  let reporters := sortedBy id (((reporter :: named).eraseDups).filter (· ≠ "None"))
  let evidence := (← collect (fun item => iterate (member item "evidence" (.arr [])))
    observations).flatten
  let keyed ← collect
    (fun entry => do return ((← getAttr entry "id" (.str "")).pyStr, entry)) evidence
  let current ← currentVerifications zone observations
  let reconciliation ← reconciliationOf zone observations
  let implementation ← latestImplementation chain
  let items := current.map Prod.snd
  let passed ← countWhere (reproductionIs "PASS") items
  let failed ← countWhere (reproductionIs "FAIL") items
  let unknown ← countWhere (reproductionIs "UNKNOWN") items
  return [("status", .str status), ("reporters", .arr (reporters.map .str)),
    ("affectedRepositories", .arr (affected.map .str)),
    ("evidence", .arr ((sortedBy Prod.fst keyed).map Prod.snd)),
    ("verification", .arr ((sortedBy documentId (observations.filter isVerification)).map .obj)),
    ("verificationCurrent", .arr ((sortedBy Prod.fst current).map fun entry => .obj entry.2)),
    ("workarounds", .arr ((sortedBy documentId (observations.filter fun item =>
      match Fields.get item "workaround" with
      | .obj workaround => !workaround.isEmpty
      | _ => false)).map .obj)),
    ("reconciliation", .obj reconciliation), ("implementation", .obj implementation),
    ("unresolved", .bool (!terminalStatuses.contains status)),
    ("verificationSummary", .obj [("affected", .int affected.length), ("pass", .int passed),
      ("fail", .int failed), ("unknown", .int unknown)])]

/-- `_project_one`, replaying the given transitions. -/
def projectFrom (zone : Int → Py Int) (recordId : String) (record : Fields)
    (observations events : List Fields) (allRecordIds : List String) (transitions : List Fields) :
    Py PressureProjection := do
  let relevant := relevantObservations recordId observations
  let relations := relationsOf recordId events
  let initial : Replay :=
    ⟨(member record "initialStatus" (.str "discovered")).pyStr, [], [], []⟩
  let reached ← replay zone recordId record relevant relations transitions
    (transitions.length + 1) none initial
  let dangling : List Diagnostic :=
    if reached.seen.length ≠ transitions.length then
      [⟨"DANGLING_TRANSITION", "pressure[" ++ recordId ++ "].events",
        "one or more transition events are not on the single append-only head"⟩]
    else []
  let missing : List Diagnostic :=
    if allRecordIds.contains recordId then []
    else [⟨"MISSING_RECORD", recordId, "pressure declaration is missing"⟩]
  let diagnostics := reached.diagnostics ++ dangling ++ missing
  let material ← projectionMaterial zone record relevant reached.chain
    (if diagnostics.isEmpty then reached.state else "conflicted")
  return ⟨Fields.update record material, reached.chain, relevant, relations, diagnostics,
    transitionMaterial recordId events⟩

/-- `_project_one` with the replay of its history. -/
def projectOne (zone : Int → Py Int) (recordId : String) (record : Fields)
    (observations events : List Fields) (allRecordIds : List String) : Py PressureProjection :=
  projectFrom zone recordId record observations events allRecordIds
    (transitionMaterial recordId events)

/-- `_project_one` for a read query, which leaves the history to the kernel. -/
def readOne (zone : Int → Py Int) (recordId : String) (record : Fields)
    (observations events : List Fields) (allRecordIds : List String) : Py PressureProjection :=
  projectFrom zone recordId record observations events allRecordIds []

end MncsCommons.Pressure
