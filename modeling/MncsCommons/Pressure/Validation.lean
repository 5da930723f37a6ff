/-
# Validating a registry

A registry is what its directories hold, by file name without the `.json`
ending: the members of a JSON object, or something that cannot be read as one.
Validation checks every document by itself, the `duplicate_of` relations for a
cycle, and the projection of every record.

The documents of a directory are visited in the order of their file names.  The
checks of one document run in the order of the source, so the first value that
a check cannot handle raises.
-/

import MncsCommons.Pressure.Documents

namespace MncsCommons.Pressure

open MncsCommons.Data MncsCommons.Protocol

/-- The documents of a directory by name; none for a file that cannot be read. -/
abbrev Directory := List (String × Option Fields)

/-- What a registry holds. -/
structure Registry where
  /-- The directories and `repositories.json` exist. -/
  complete : Bool
  manifest : Option Fields
  records : Directory
  observations : Directory
  events : Directory
  deriving DecidableEq

/-- What the registry takes from its host: the conversion of local time to UTC
and the packaged view of the family's repositories. -/
structure Host where
  zone : Int → Py Int
  knownRepositories : List Json

/-- The documents of one directory, which are read in the order of their names. -/
def readDirectory (directory : Directory) : Py (List (String × Fields)) :=
  collect
    (fun entry => match entry.2 with
      | some document => .ok (entry.1, document)
      | none => .error (.valueError ("cannot read " ++ entry.1 ++ ".json")))
    (sortedBy (fun entry => entry.1 ++ ".json") directory)

/-- The documents of a registry. -/
structure Documents where
  records : List (String × Fields)
  observations : List (String × Fields)
  events : List (String × Fields)

/-- `_documents`. -/
def documents (registry : Registry) : Py Documents := do
  let records ← readDirectory registry.records
  let observations ← readDirectory registry.observations
  let events ← readDirectory registry.events
  return ⟨records, observations, events⟩

/-- `value in documents`. -/
def isNameIn (value : Json) (documents : List (String × Fields)) : Py Bool :=
  inSet value (Fields.keys documents)

/-! ## Checks of one document -/

/-- The checks that every document has in common. -/
def commonChecks (document : Fields) (schema path subject digestSubject : String) :
    List (Py (List Diagnostic)) :=
  [reportIf (Fields.get document "schema" ≠ .str schema ||
      Fields.get document "version" ≠ .str pressureVersion)
      "SCHEMA_MISMATCH" path (subject ++ " schema/version is invalid"),
    reportIf (Fields.get document "contentDigest" ≠
        .str (hashDocument (Fields.erase document "contentDigest")))
      "DIGEST_MISMATCH" path
      (digestSubject ++ " contentDigest does not match canonical content")]

/-- A diagnostic unless the value names a known repository. -/
def reportUnlessRepository (value : Json) (path message : String) : Py (List Diagnostic) := do
  let repository ← normalizeRepository value
  reportIf repository.isNone "UNKNOWN_REPOSITORY" path message

/-- What the identity of a record must be. -/
def expectedIdentity (record : Fields) : Json :=
  .obj [("target", Fields.get record "target"), ("domain", Fields.get record "domain"),
    ("capability", Fields.get record "capability"),
    ("reproducerSignature", match Fields.get record "reproducer" with
      | .obj reproducer => Fields.get reproducer "signature"
      | _ => .null)]

/-- The check of a text that a record must have. -/
def checkRequiredField (record : Fields) (path field : String) : Py (List Diagnostic) :=
  reportIf ((Fields.get record field).str?.all Str.isBlank) "MISSING_FIELD" (path ++ "." ++ field)
    "required field is missing"

/-- The check of a record's vocabulary. -/
def checkVocabulary (record : Fields) (path : String) : Py (List Diagnostic) := do
  let target ← inSet (Fields.get record "target") targets
  let severity ← if target then inSet (Fields.get record "severity") severities else .ok false
  reportIf (!severity) "INVALID_VOCABULARY" path
    "target or severity is not in the protocol vocabulary"

/-- The check that a record's id is derived from its identity fields. -/
def checkDerivedId (record : Fields) (path : String) : Py (List Diagnostic) := do
  let target ← inSet (Fields.get record "target") targets
  match target, Fields.get record "reproducer" with
  | true, .obj reproducer => do
      let expected ← pressureId (Fields.get record "target").pyStr
        (member record "domain" (.str "")).pyStr (member record "capability" (.str "")).pyStr
        (member reproducer "signature" (.str "")).pyStr
      reportIf (Fields.get record "id" ≠ .str expected &&
          !(Fields.get record "allowCustomId").truthy)
        "ID_NOT_DERIVED" path "id is not derived from stable pressure identity fields"
  | _, _ => .ok []

/-- The checks of a record before its aliases. -/
def recordHead (name : String) (record : Fields) : List (Py (List Diagnostic)) :=
  let path := "records/" ++ name ++ ".json"
  commonChecks record pressureSchema path "pressure declaration" "pressure declaration" ++
    [reportIf (Fields.get record "id" ≠ .str name || !isPressureId name) "INVALID_ID" path
        "filename and pressure id must match the global id pattern",
      reportIf (!(Fields.get record "identity").pyEq (expectedIdentity record))
        "IDENTITY_MISMATCH" (path ++ ".identity")
        "identity must mirror the stable top-level pressure fields"] ++
    ["title", "target", "domain", "capability", "summary", "requiredBehavior"].map
      (checkRequiredField record path) ++
    [checkVocabulary record path,
      reportIf (Fields.get record "initialStatus" ≠ .str "discovered") "INVALID_INITIAL_STATE"
        (path ++ ".initialStatus") "initialStatus must be discovered",
      reportUnlessRepository (Fields.get record "discoveredBy") (path ++ ".discoveredBy")
        "repository is not in the family identity view",
      reportIf (!isInstant (Fields.get record "discoveredAt") true) "INVALID_TIMESTAMP"
        (path ++ ".discoveredAt") "timestamp must be UTC RFC3339 or null"]

/-- The check of one alias of a record, with the owners of the aliases so far. -/
def checkAlias (path : String) (recordId : Json) (owners : List (String × String)) (entry : Json) :
    List Diagnostic × List (String × String) :=
  match entry with
  | .str name =>
      if !isAlias name then
        ([⟨"INVALID_ALIAS", path ++ ".legacyIds", "alias is malformed"⟩], owners)
      else match Fields.get? owners name with
        | some owner =>
            if recordId ≠ .str owner then
              ([⟨"ALIAS_COLLISION", path ++ ".legacyIds", "alias " ++
                String.ofList (reprString name) ++ " is also owned by " ++ owner⟩], owners)
            else ([], Fields.set owners name recordId.pyStr)
        | none => ([], Fields.set owners name recordId.pyStr)
  | _ => ([⟨"INVALID_ALIAS", path ++ ".legacyIds", "alias is malformed"⟩], owners)

/-- The checks of the aliases of a record. -/
def checkAliases (path : String) (recordId : Json) :
    List (String × String) → List Json → List Diagnostic × List (String × String)
  | owners, [] => ([], owners)
  | owners, entry :: entries =>
      let first := checkAlias path recordId owners entry
      let rest := checkAliases path recordId first.2 entries
      (first.1 ++ rest.1, rest.2)

/-- The checks of a record after its aliases. -/
def recordTail (name : String) (record : Fields) : Py (List Diagnostic) := do
  let path := "records/" ++ name ++ ".json"
  let affected ← iterate (member record "affectedRepositories" (.arr []))
  let unknown ← concatChecks (affected.map fun repository =>
    reportUnlessRepository repository (path ++ ".affectedRepositories")
      ("unknown repository " ++ String.ofList (reprValue repository)))
  return unknown ++ (← checkDerivedId record path)

/-- The checks of the records, with the owners of the aliases so far. -/
def checkRecords : List (String × String) → List (String × Fields) → Py (List Diagnostic)
  | _, [] => .ok []
  | owners, (name, record) :: records => do
      let first ← concatChecks (recordHead name record)
      let aliases ← iterate (member record "legacyIds" (.arr []))
      let checked := checkAliases ("records/" ++ name ++ ".json") (Fields.get record "id") owners
        aliases
      let tail ← recordTail name record
      let rest ← checkRecords checked.2 records
      return first ++ checked.1 ++ tail ++ rest

/-- The check of one entry of an observation's evidence. -/
def checkEvidence (path : String) (index : Nat) (entry : Json) : Py (List Diagnostic) :=
  match entry with
  | .obj evidence => do
      let known ← hasEvidenceStatus evidence
      reportIf (!known) "INVALID_EVIDENCE" (itemPath (path ++ ".evidence") index)
        "evidence status must remain PASS, FAIL, or UNKNOWN"
  | _ => reportIf true "INVALID_EVIDENCE" (itemPath (path ++ ".evidence") index)
      "evidence status must remain PASS, FAIL, or UNKNOWN"

/-- The check that an observation's id is derived from its content. -/
def checkObservationId (observation : Fields) (path : String) : Py (List Diagnostic) :=
  match Fields.get observation "id", Fields.get observation "pressureId" with
  | .str id, .str pressure =>
      reportIf (id ≠ observationId pressure
          (Fields.erase (Fields.erase observation "id") "contentDigest"))
        "OBSERVATION_ID_NOT_DERIVED" path
        "observation id is not derived from its immutable content"
  | _, _ => .ok []

/-- The check of an observation's reproduction. -/
def checkReproduction (observation : Fields) (path : String) : Py (List Diagnostic) := do
  let known ← match Fields.get observation "reproduction" with
    | .obj reproduction => inSet (Fields.get reproduction "status") evidenceStatuses
    | _ => .ok false
  reportIf (!known) "INVALID_OBSERVATION_STATUS" (path ++ ".reproduction.status")
    "status must be PASS, FAIL, or UNKNOWN"

/-- The checks of an observation. -/
def checkObservation (records : List (String × Fields)) (name : String) (observation : Fields) :
    Py (List Diagnostic) := do
  let path := "observations/" ++ name ++ ".json"
  let first ← concatChecks
    (commonChecks observation observationSchema path "observation" "observation" ++
      [reportIf (Fields.get observation "id" ≠ .str name || !isObservationId name)
          "INVALID_OBSERVATION_ID" path "observation id and filename are invalid",
        checkObservationId observation path,
        (do
          let known ← isNameIn (Fields.get observation "pressureId") records
          reportIf (!known) "DANGLING_OBSERVATION" path "observation points to a missing pressure"),
        reportUnlessRepository (Fields.get observation "repository") (path ++ ".repository")
          "observation repository is not known",
        reportIf (!isInstant (Fields.get observation "observedAt") true) "INVALID_TIMESTAMP"
          (path ++ ".observedAt") "timestamp must be UTC RFC3339 or null",
        checkReproduction observation path])
  let evidence ← iterate (member observation "evidence" (.arr []))
  return first ++ (← concatChecks (evidence.mapIdx fun index entry =>
    checkEvidence path index entry))

/-- The check that an event's id is derived from its content. -/
def checkEventId (event : Fields) (path : String) : Py (List Diagnostic) :=
  match Fields.get event "id" with
  | .str id =>
      reportIf (id ≠ eventId (Fields.erase (Fields.erase event "id") "contentDigest"))
        "EVENT_ID_NOT_DERIVED" path "event id is not derived from its immutable content"
  | _ => .ok []

/-- The checks of the actor and the time of an event. -/
def checkActor (event : Fields) (path subject time : String) : List (Py (List Diagnostic)) :=
  [reportUnlessRepository (Fields.get event "actor") (path ++ ".actor")
      (subject ++ " actor is not known"),
    reportIf (!isInstant (Fields.get event "occurredAt") false) "INVALID_TIMESTAMP"
      (path ++ ".occurredAt") (time ++ " timestamp must be UTC RFC3339")]

/-- The checks of a relation. -/
def checkRelation (records : List (String × Fields)) (event : Fields) (path : String) :
    Py (List Diagnostic) :=
  let source := Fields.get event "sourcePressure"
  let target := Fields.get event "targetPressure"
  concatChecks
    ((do
        let known ← isNameIn source records
        let known ← if known then isNameIn target records else .ok false
        reportIf (!known) "DANGLING_RELATION" path "relation points to a missing pressure") ::
      (do
        let known ← inSet (Fields.get event "relation") relationKinds
        reportIf (!known || source.pyEq target) "INVALID_RELATION" path
          "relation type or endpoint is invalid") ::
      checkActor event path "relation" "relation")

/-- The checks of a transition. -/
def checkTransition (records observations : List (String × Fields)) (event : Fields)
    (path : String) : Py (List Diagnostic) := do
  let first ← concatChecks
    ((do
        let known ← isNameIn (Fields.get event "pressureId") records
        reportIf (!known) "DANGLING_TRANSITION" path "transition points to a missing pressure") ::
      checkActor event path "transition" "event")
  let references ← iterate (member event "evidenceRefs" (.arr []))
  return first ++ (← concatChecks (references.map fun reference => do
    let known ← isNameIn reference observations
    reportIf (!known) "DANGLING_EVIDENCE" (path ++ ".evidenceRefs")
      ("unknown observation " ++ reference.pyStr)))

/-- The checks of an event. -/
def validateEvent (records observations : List (String × Fields)) (name : String) (event : Fields) :
    Py (List Diagnostic) := do
  let path := "events/" ++ name ++ ".json"
  let shaped := (Fields.get event "id").str?.any fun id =>
    Str.startsWith id "EVT-" && id.length == 20
  let first ← concatChecks
    (commonChecks event eventSchema path "event" "event" ++
      [reportIf (Fields.get event "id" ≠ .str name || !shaped) "INVALID_EVENT_ID" path
          "event id and filename are invalid",
        checkEventId event path])
  let rest ←
    if Fields.get event "kind" = .str "PressureRelation" then checkRelation records event path
    else if Fields.get event "kind" = .str "PressureTransition" then
      checkTransition records observations event path
    else reportIf true "UNKNOWN_EVENT" path "event kind is not supported"
  return first ++ rest

/-! ## Duplicate cycles -/

/-- The targets of the `duplicate_of` relations of a source, in order. -/
def duplicateTargets (events : List Fields) (source : String) : List String :=
  sortedBy id (((events.filter fun event =>
    Fields.get event "kind" = .str "PressureRelation" &&
      (Fields.get event "relation").pyStr = "duplicate_of" &&
      (Fields.get event "sourcePressure").pyStr = source).map fun event =>
    (Fields.get event "targetPressure").pyStr).eraseDups)

/-- The sources of the `duplicate_of` relations, in order. -/
def duplicateSources (events : List Fields) : List String :=
  sortedBy id (((events.filter fun event =>
    Fields.get event "kind" = .str "PressureRelation" &&
      (Fields.get event "relation").pyStr = "duplicate_of").map fun event =>
    (Fields.get event "sourcePressure").pyStr).eraseDups)

/-- Visit nodes in order, threading the finished ones through and counting the
cycles met. -/
def visitEach (visitOne : List String → String → List String × Nat) :
    List String → List String → List String × Nat
  | visited, [] => (visited, 0)
  | visited, node :: nodes =>
      let first := visitOne visited node
      let rest := visitEach visitOne first.1 nodes
      (rest.1, first.2 + rest.2)

/-- Visit a node below the ones in `visiting`. -/
def visitDuplicates (events : List Fields) :
    Nat → List String → List String → String → List String × Nat
  | 0, _, visited, _ => (visited, 0)
  | fuel + 1, visiting, visited, node =>
      if visiting.contains node then (visited, 1)
      else if visited.contains node then (visited, 0)
      else
        let below := visitEach (visitDuplicates events fuel (node :: visiting)) visited
          (duplicateTargets events node)
        (node :: below.1, below.2)

/-- The cycles of the `duplicate_of` relations that the search meets. -/
def duplicateCycles (events : List Fields) : List Diagnostic :=
  let sources := duplicateSources events
  List.replicate (visitEach (visitDuplicates events (sources.length + 2) []) [] sources).2
    ⟨"DUPLICATE_CYCLE", "events", "duplicate_of relationships must not cycle"⟩

/-! ## The whole registry -/

/-- `projections`. -/
def projections (host : Host) (documents : Documents) : Py (List PressureProjection) :=
  collect
    (fun entry => projectOne host.zone entry.1 entry.2 (documents.observations.map Prod.snd)
      (documents.events.map Prod.snd) (Fields.keys documents.records))
    (sortedBy Prod.fst documents.records)

/-- Whether the manifest is the packaged view. -/
def isPackagedManifest (host : Host) (manifest : Fields) : Bool :=
  Fields.get manifest "schema" = .str repositorySchema &&
    Fields.get manifest "version" = .str pressureVersion &&
    (Fields.get manifest "repositories").pyEq (.arr host.knownRepositories)

/-- The diagnostics of readable documents. -/
def validateDocuments (host : Host) (manifest : Fields) (documents : Documents) :
    Py (List Diagnostic) := do
  let manifestReport ← reportIf (!isPackagedManifest host manifest) "REPOSITORY_MANIFEST_MISMATCH"
    "repositories.json" "repository identity metadata is not the packaged family view"
  let records ← checkRecords [] documents.records
  let observations ← concatChecks (documents.observations.map fun entry =>
    checkObservation documents.records entry.1 entry.2)
  let events ← concatChecks (documents.events.map fun entry =>
    validateEvent documents.records documents.observations entry.1 entry.2)
  let projected ← projections host documents
  return manifestReport ++ records ++ observations ++ events ++
    duplicateCycles (documents.events.map Prod.snd) ++
    (projected.map PressureProjection.diagnostics).flatten

/-- `validate`: the diagnostics of a registry, each of which makes it invalid. -/
def validate (host : Host) (registry : Registry) : Py (List Diagnostic) :=
  if !registry.complete then
    .ok [⟨"REGISTRY_INCOMPLETE", "registry", "registry is not initialized"⟩]
  else match registry.manifest with
    | none => .ok [⟨"INVALID_JSON", "registry", "cannot read repositories.json"⟩]
    | some manifest => match documents registry with
        | .error error => .ok [⟨"INVALID_JSON", "registry", error.message⟩]
        | .ok documents => validateDocuments host manifest documents

end MncsCommons.Pressure
