/-
# Work projection

What a reader makes of the stored revisions of work records.  `projectWorkHistory`
orders the revisions of one work record and checks that they are a history,
`listWork` projects all of them, and `nextWork` selects and ranks what is
available.  A single history that is none fails the whole list.

A Python set is visited in no fixed order.  Where that is visible, because a
dependency is not a string, the set is visited here in order of first appearance.
-/

import MncsCommons.Protocol.WorkHistory
import MncsCommons.Protocol.Lifecycle
import Mathlib.Data.Prod.Lex

namespace MncsCommons.Protocol

open MncsCommons.Data

/-- The members of `metadata`; none when it is no object. -/
def metadataOf (record : Fields) : Fields := (Fields.get record "metadata").obj?.getD []

/-- Keep the items that the test accepts. -/
def selectPy {α : Type} (test : α → Py Bool) : List α → Py (List α)
  | [] => .ok []
  | item :: items => do
      let found ← test item
      let rest ← selectPy test items
      return if found then item :: rest else rest

/-- Keep the items that the test accepts, when there are names to test for. -/
def narrow {α : Type} (names : List String) (test : α → Py Bool) (items : List α) : Py (List α) :=
  if names.isEmpty then .ok items else selectPy test items

/-! ## One work record -/

/-- One revision of a projected history. -/
structure WorkRevision where
  revision : Nat
  digest : String
  createdAt : Json
  state : String
  event : Json

/-- What `project_work_history` returns. -/
structure WorkProjection where
  workId : String
  state : String
  coordinationState : String
  lane : Json
  currentDigest : String
  current : Fields
  history : List WorkRevision
  contentTrust : String := "UNTRUSTED"
  executionAuthority : String := "none"

/-- A revision of the work record. -/
def isRevisionOf (workId : String) (record : Fields) : Bool :=
  followsWorkProtocol record && (Fields.get (detailsOf record) "workId").str? = some workId

/-- `int(item.get("metadata", {}).get("revision", 0))`. -/
def sortRevision (record : Fields) : Py Int := do
  let metadata := (Fields.get? record "metadata").getD (.obj [])
  toInt (← getAttr metadata "revision" (.int 0))

/-- A history that is none. -/
def historyInvalid (message : String) : PyError := .workProtocolError "WORK_HISTORY_INVALID" message

/-- The next revision of a history, after one with the given digest and state. -/
def projectRevision (expected : Nat) (previous : Option (String × String)) (record : Fields) :
    Py WorkRevision := do
  let metadata := metadataOf record
  let details := detailsOf record
  let state := (Fields.get details "state").pyStr
  let event := (Fields.get? details "stateEvent").getD (.obj [])
  raiseIf (!(Fields.get metadata "revision").pyEq (.int expected))
    (historyInvalid "work revisions are not contiguous")
  match previous with
  | none =>
      raiseIf (Fields.get metadata "previousDigest" ≠ .null || state ≠ "submitted")
        (historyInvalid "first work revision is invalid")
  | some (previousDigest, previousState) =>
      raiseIf ((Fields.get metadata "previousDigest").str? ≠ some previousDigest)
        (historyInvalid "work revision lineage is broken")
      raiseIf (state ≠ previousState && !(allowedWorkTransitions previousState).contains state)
        (historyInvalid "work state history is invalid")
      raiseIf (!event.obj?.any fun event => (Fields.get event "from").str? = some previousState)
        (historyInvalid "work state event is stale")
  return ⟨expected, digestOf record, Fields.get metadata "createdAt", state, event⟩

/-- The revisions of a history, from the given number on. -/
def projectRevisions (expected : Nat) (previous : Option (String × String)) :
    List Fields → Py (List WorkRevision)
  | [] => .ok []
  | record :: records => do
      let revision ← projectRevision expected previous record
      return revision :: (← projectRevisions (expected + 1) (some (revision.digest, revision.state))
        records)

/-- `project_work_history`. -/
def projectWorkHistory (records : List Fields) (workId : String) : Py WorkProjection := do
  let selected := records.filter (isRevisionOf workId)
  raiseIf selected.isEmpty (.workProtocolError "WORK_NOT_FOUND" "work record was not found")
  let keyed ← selected.mapM fun item => do return (← sortRevision item, item)
  let ordered := (sortedBy Prod.fst keyed).map Prod.snd
  let history ← projectRevisions 1 none ordered
  let current := ordered.getLastD []
  let last := history.getLast?
  return {
    workId, current, history
    state := (last.map WorkRevision.state).getD "None"
    coordinationState := ← coordinationState (detailsOf current)
    lane := Fields.get (detailsOf current) "lane"
    currentDigest := (last.map WorkRevision.digest).getD "None" }

/-! ## All work records -/

/-- The identities of the stored work records, in order. -/
def storedWorkIds (records : List Fields) : List String :=
  sortedBy id (records.filterMap fun record =>
    if followsWorkProtocol record then (Fields.get (detailsOf record) "workId").str?
    else none).eraseDups

/-- `list_work`; no names select everything. -/
def listWork (records : List Fields) (states lanes coordinationStates : List String) :
    Py (List WorkProjection) := do
  let projected ← (storedWorkIds records).mapM (projectWorkHistory records)
  let result := projected.filter fun item => states.isEmpty || states.contains item.state
  let result ← narrow lanes
    (fun item => inSet (Fields.get (detailsOf item.current) "lane") lanes) result
  narrow coordinationStates (fun item => do
    return coordinationStates.contains (← coordinationState (detailsOf item.current))) result

/-! ## What is available -/

/-- The coordination states of claimed work. -/
def activeCoordinationStates : List String := ["CLAIMED", "IN_PROGRESS", "VERIFYING"]

/-- The items a loop over `details.get(field, [])` visits. -/
def fieldItems (details : Fields) (field : String) : Py (List Json) :=
  iterate ((Fields.get? details field).getD (.arr []))

/-- The repositories that work names, as it spells them. -/
def namedRepositories (details : Fields) : Py (List String) := do
  let affected ← fieldItems details "affectedRepositories"
  let canonical ← fieldItems details "canonicalAffectedRepositories"
  return affected.filterMap Json.str? ++ canonical.filterMap Json.str? ++
    (Fields.get details "canonicalRepository").str?.toList

/-- The names of the repositories up to the first that cannot be resolved. -/
def resolvedAliases : List String → List String
  | [] => []
  | repository :: repositories => match canonicalProjectIdentity repository with
      | .error _ => []
      | .ok none => resolvedAliases repositories
      | .ok (some identity) =>
          identity.repository :: identity.projectId :: resolvedAliases repositories

/-- The repositories of active work, with their aliases. -/
def activeRepositories (item : WorkProjection) : Py (List String) := do
  let details := detailsOf item.current
  let named ← namedRepositories details
  let affected ← fieldItems details "affectedRepositories"
  return named ++ resolvedAliases (affected.filterMap Json.str?)

/-- The repository that the filter resolves to, if it does. -/
def canonicalFilter (repository : String) : Option String :=
  (canonicalProjectIdentity repository).toOption.join.map ProjectIdentity.repository

/-- Whether work touches the repository, by its spelling or resolved. -/
def touchesRepository (details : Fields) (repository : String) : Bool :=
  let affected := ((Fields.get? details "affectedRepositories").getD (.arr [])).arr?.getD []
  let canonicalAffected :=
    ((Fields.get? details "canonicalAffectedRepositories").getD (.arr [])).arr?.getD []
  let named (name : String) (items : List Json) := items.any fun item => item.str? = some name
  named repository affected ||
    (canonicalFilter repository).any fun canonical => canonical ≠ "" &&
      (named canonical canonicalAffected ||
        (Fields.get details "canonicalRepository").str? = some canonical ||
        (affected.filterMap Json.str?).any fun spelling => canonicalFilter spelling = some canonical)

/-- Whether a work dependency is not complete. -/
def waitsFor (completed : List String) : List Json → Py Bool
  | [] => .ok false
  | .str dependency :: dependencies =>
      if Str.startsWith dependency "work:" && !completed.contains dependency then .ok true
      else waitsFor completed dependencies
  | dependency :: _ =>
      .error (.attributeError ("'" ++ typeName dependency ++ "' object has no attribute 'startswith'"))

/-- Hash every item, as `set(items)` does. -/
def requireHashables (items : List Json) : Py Unit := items.forM requireHashable

/-- Whether work can be offered to a worker with the capabilities. -/
def isEligible (repository : Option String) (capabilities completed : List String)
    (item : WorkProjection) : Py Bool := do
  let details := detailsOf item.current
  if repository.any fun repository => repository ≠ "" && !touchesRepository details repository then
    return false
  else
    let required ← fieldItems details "capabilityRequirements"
    requireHashables required
    if !required.all fun item => item.str?.any (capabilities.contains ·) then return false
    else
      let dependencies ← fieldItems details "dependencies"
      requireHashables dependencies
      let parent := Fields.get details "parentWorkId"
      let waits ← waitsFor completed
        (dependencies ++ if parent.truthy then [.str parent.pyStr] else [])
      return !waits

/-- The order of offers: priority, unblocking value, quiet repositories, age and
identity. -/
abbrev WorkRank := Int ×ₗ Int ×ₗ Int ×ₗ String ×ₗ String

/-- The rank of work among offers. -/
def workRank (dependents active : List String) (item : WorkProjection) : Py WorkRank := do
  let details := detailsOf item.current
  let priority ← toInt ((Fields.get? details "priority").getD (.int 100))
  let repositories ← namedRepositories details
  let quiet : Int := if repositories.any (active.contains ·) then 0 else -1
  let createdAt := ((Fields.get? (metadataOf item.current) "createdAt").getD (.str "")).pyStr
  return toLex (priority, toLex (-(dependents.count item.workId : Int),
    toLex (quiet, toLex (createdAt, item.workId))))

/-- `next_work`. -/
def nextWork (records : List Fields) (lane repository : Option String)
    (capabilities : List String) (limit : Int) : Py (List WorkProjection) := do
  raiseIf (lane.any fun lane => !lanes.contains lane)
    (.workProtocolError "WORK_LANE_INVALID" "lane is unsupported")
  let projected ← listWork records [] lane.toList ["AVAILABLE"]
  let completed := (← listWork records [] [] ["COMPLETE"]).map WorkProjection.workId
  let active := (← (← listWork records [] [] activeCoordinationStates).mapM activeRepositories).flatten
  let dependents ← (← listWork records [] [] []).mapM fun item =>
    fieldItems (detailsOf item.current) "dependencies"
  let eligible ← selectPy (isEligible repository capabilities completed) projected
  let ranked ← eligible.mapM fun item => do
    return (← workRank (dependents.flatten.map Json.pyStr) active item, item)
  return ((sortedBy Prod.fst ranked).map Prod.snd).take (max 1 (min limit 1000)).toNat

end MncsCommons.Protocol
