/-
# Structural validation

The fail-closed checks of a record and of a lifecycle event.  Each check of the
source is one definition here, with the codes, field paths and messages it
reports.

Two facts carry the store proofs.  A valid envelope with a digest has the right
one (`contentDigest_of_validateRecord`, `contentDigest_of_validateEvent`), and
validity survives what storing and reading back does to an envelope: keys come
back in order, and a canonical copy has its unordered arrays sorted
(`validateRecord_sortKeys`, `validateRecord_canonFields`).

The required details of a kind form a set in the source, so their order here is
one of several; it affects only the order of diagnostics.
-/

import MncsCommons.Data.DateTime
import MncsCommons.Protocol.Work

namespace MncsCommons.Protocol

open MncsCommons.Data

/-! ## Shared checks -/

/-- Check an object, or report that the value is none. -/
def checkObject (value : Json) (path : String) (check : Fields → Py (List Diagnostic)) :
    Py (List Diagnostic) :=
  match value.obj? with
  | none => reportIf true "TYPE_OBJECT" path "must be an object"
  | some fields => check fields

def requireString (value : Json) (path : String) : Py (List Diagnostic) :=
  reportIf (!isText value) "TYPE_STRING" path "must be a non-empty string"

def checkKeys (value : Fields) (allowed : List String) (path : String) : Py (List Diagnostic) :=
  .ok (((Fields.keys value).filter fun key => !allowed.contains key).map fun key =>
    ⟨"UNKNOWN_FIELD", path ++ "." ++ key, "field is not defined by v0alpha1"⟩)

/-- Whether a string is an ISO-8601 timestamp with a time zone. -/
def timestampValid (text : String) : Bool :=
  match DateTime.fromIsoFormat (Str.replaceChar text 'Z' "+00:00").toList with
  | some parsed => parsed.offset.isSome
  | none => false

def checkTimestamp (value : Json) (path : String) : Py (List Diagnostic) :=
  if isText value then
    reportIf (!value.str?.any timestampValid) "INVALID_TIMESTAMP" path
      "must be an ISO-8601 timestamp with timezone"
  else requireString value path

/-- Whether a value is a `sha256:` digest. -/
def validDigest (value : Json) : Bool :=
  value.str?.any fun digest =>
    Str.startsWith digest "sha256:" && digest.length = 71 && (digest.toList.drop 7).all isLowerHex

/-- Whether a value is a list of strings. -/
def isStringList (value : Json) : Bool := value.arr?.any fun items => items.all Json.isStr

/-- Whether a revision is an integer from 1 on. -/
def revisionValid : Json → Bool
  | .int n => 1 ≤ n
  | _ => false

def checkMetadata (value : Json) : Py (List Diagnostic) :=
  checkObject value "metadata" fun metadata => concatChecks
    [checkKeys metadata ["recordId", "createdAt", "author", "labels", "revision", "previousDigest"]
        "metadata",
      checkTimestamp (Fields.get metadata "createdAt") "metadata.createdAt",
      checkObject (Fields.get metadata "author") "metadata.author" fun author => concatChecks
        [requireString (Fields.get author "type") "metadata.author.type",
          requireString (Fields.get author "id") "metadata.author.id"],
      reportIf (Fields.has metadata "labels" && !isStringList (Fields.get metadata "labels"))
        "TYPE_LABELS" "metadata.labels" "must be a list of strings",
      reportIf (Fields.has metadata "revision" && !revisionValid (Fields.get metadata "revision"))
        "INVALID_REVISION" "metadata.revision" "must be a positive integer",
      reportIf (Fields.has metadata "previousDigest" &&
          !validDigest (Fields.get metadata "previousDigest"))
        "INVALID_DIGEST" "metadata.previousDigest" "must be a sha256: digest"]

/-- Check every item of a list. -/
def checkItems (value : Json) (path : String) (check : String → Json → Py (List Diagnostic)) :
    Py (List Diagnostic) :=
  match value.arr? with
  | none => reportIf true "TYPE_ARRAY" path "must be a list"
  | some items => concatChecks (items.mapIdx fun index item => check (itemPath path index) item)

/-- One evidence item. -/
def checkEvidenceItem (path : String) (item : Json) : Py (List Diagnostic) :=
  checkObject item path fun fields => concatChecks
    [requireString (Fields.get fields "id") (path ++ ".id"),
      if Fields.has fields "status" then
        reportUnlessIn (Fields.get fields "status") resultStatuses "INVALID_STATUS"
          (path ++ ".status") "must be PASS, FAIL, or UNKNOWN"
      else .ok []]

def checkEvidence (value : Json) (path : String) : Py (List Diagnostic) :=
  checkItems value path checkEvidenceItem

/-- Whether a relation type is a name with a non-empty namespace. -/
def isExtensionRelation (relation : Json) : Bool :=
  relation.str?.any fun text => text.toList.contains '/' && text.toList.head? ≠ some '/'

/-- One relationship of a record with the given identifier. -/
def checkRelationship (recordId : Json) (path : String) (item : Json) : Py (List Diagnostic) :=
  checkObject item path fun fields => concatChecks
    [do
        let known ← inSet (Fields.get fields "type") relationTypes
        reportIf (!known && !isExtensionRelation (Fields.get fields "type")) "INVALID_RELATION"
          (path ++ ".type") "relationship type is not supported",
      requireString (Fields.get fields "target") (path ++ ".target"),
      reportIf (recordId.truthy && (Fields.get fields "target").pyEq recordId) "SELF_RELATION" path
        "a record cannot relate to itself"]

def checkRelationships (value recordId : Json) : Py (List Diagnostic) :=
  checkItems value "relationships" (checkRelationship recordId)

/-! ## Parts of a record -/

/-- The two named strings of an object. -/
def checkStringPair (value : Json) (path first second : String) : Py (List Diagnostic) :=
  checkObject value path fun fields => concatChecks
    [requireString (Fields.get fields first) (path ++ "." ++ first),
      requireString (Fields.get fields second) (path ++ "." ++ second)]

def checkScope (value : Json) : Py (List Diagnostic) :=
  checkObject value "scope" fun scope => concatChecks
    [checkKeys scope ["context", "limitations", "reviewAt"] "scope",
      reportIf (Fields.has scope "context" && !(Fields.get scope "context").isObj) "TYPE_OBJECT"
        "scope.context" "must be an object",
      reportIf (Fields.has scope "limitations" && !isStringList (Fields.get scope "limitations"))
        "TYPE_ARRAY_STRINGS" "scope.limitations" "must be a list of strings",
      if Fields.has scope "reviewAt" then
        checkTimestamp (Fields.get scope "reviewAt") "scope.reviewAt"
      else .ok []]

def checkStatement (value : Json) : Py (List Diagnostic) :=
  checkObject value "statement" fun statement =>
    requireString (Fields.get statement "summary") "statement.summary"

def checkProvenance (value : Json) : Py (List Diagnostic) :=
  checkObject value "provenance" fun provenance =>
    checkStringPair (Fields.get provenance "producer") "provenance.producer" "type" "id"

def checkConfidence (value : Json) : Py (List Diagnostic) :=
  checkObject value "confidence" fun confidence => concatChecks
    [checkKeys confidence ["level", "rationale"] "confidence",
      reportUnlessIn (Fields.get confidence "level") ["low", "medium", "high", "unreported"]
        "INVALID_CONFIDENCE" "confidence.level" "unsupported confidence level",
      requireString (Fields.get confidence "rationale") "confidence.rationale"]

/-- Whether a value is a Boolean. -/
def isBool : Json → Bool
  | .bool _ => true
  | _ => false

def checkSecurity (value : Json) : Py (List Diagnostic) :=
  checkObject value "security" fun security => concatChecks
    [checkKeys security
        ["sensitivity", "executableAttachments", "instructionsAreUntrusted",
          "requiredExternalAuthority"] "security",
      reportUnlessIn (Fields.get security "sensitivity")
        ["public", "restricted", "sensitive", "security-sensitive"] "INVALID_SENSITIVITY"
        "security.sensitivity" "unsupported sensitivity",
      reportIf (!isBool (Fields.get security "executableAttachments")) "TYPE_BOOLEAN"
        "security.executableAttachments" "must be boolean",
      reportIf (Fields.get security "instructionsAreUntrusted" ≠ .bool true)
        "UNTRUSTED_BOUNDARY_REQUIRED" "security.instructionsAreUntrusted" "must be true"]

def checkLifecycle (value : Json) : Py (List Diagnostic) :=
  checkObject value "lifecycle" fun lifecycle => concatChecks
    [checkKeys lifecycle ["initialState", "reviewWhen"] "lifecycle",
      reportIf ((Fields.get lifecycle "initialState").str? ≠ some LifecycleState.proposed.value)
        "INVALID_INITIAL_STATE" "lifecycle.initialState" "records must begin proposed",
      reportIf (Fields.has lifecycle "reviewWhen" &&
          !isStringList (Fields.get lifecycle "reviewWhen"))
        "TYPE_ARRAY_STRINGS" "lifecycle.reviewWhen" "must be a list of strings"]

/-- `metadata.recordId` of a record whose metadata is an object. -/
def recordIdOf (value : Fields) : Json :=
  match (Fields.get value "metadata").obj? with
  | some metadata => Fields.get metadata "recordId"
  | none => .null

def checkReproduction (value : Json) : Py (List Diagnostic) :=
  if value = .null then .ok []
  else checkObject value "reproduction" fun reproduction =>
    reportIf (Fields.has reproduction "procedure" && !(Fields.get reproduction "procedure").isArr)
      "TYPE_ARRAY" "reproduction.procedure" "must be a list; it remains inert data"

def commonRecordChecks (value : Fields) : Py (List Diagnostic) :=
  concatChecks
    [checkMetadata (Fields.get value "metadata"),
      checkStringPair (Fields.get value "subject") "subject" "type" "identity",
      checkScope (Fields.get value "scope"),
      checkStatement (Fields.get value "statement"),
      checkEvidence (Fields.get value "evidence") "evidence",
      reportIf (!isStringList (Fields.get value "dependencies")) "TYPE_ARRAY_STRINGS"
        "dependencies" "must be a list of strings",
      reportIf (!isStringList (Fields.get value "affectedContracts")) "TYPE_ARRAY_STRINGS"
        "affectedContracts" "must be a list of strings",
      checkProvenance (Fields.get value "provenance"),
      checkConfidence (Fields.get value "confidence"),
      checkSecurity (Fields.get value "security"),
      checkLifecycle (Fields.get value "lifecycle"),
      checkRelationships (Fields.get value "relationships") (recordIdOf value),
      checkReproduction (Fields.get value "reproduction")]

/-! ## Details of a kind -/

def checkFamilyReference (value : Json) (path : String) : Py (List Diagnostic) :=
  match value.obj? with
  | none => reportIf true "TYPE_OBJECT" path "must be a producer reference object"
  | some fields => match normalizeProducerReference fields with
      | .ok _ => .ok []
      | .error (.familyRecordError message) =>
          reportIf true "INVALID_PRODUCER_REFERENCE" path message
      | .error error => .error error

/-- Check every item that iterating over `value or []` visits. -/
def checkEntries (value : Json) (path : String) (check : String → Fields → Py (List Diagnostic)) :
    Py (List Diagnostic) := do
  let items ← iterateOrEmpty value
  concatChecks (items.mapIdx fun index item =>
    checkObject item (itemPath path index) (check (itemPath path index)))

/-- One entry of `references`. -/
def checkReferenceEntry (path : String) (entry : Fields) : Py (List Diagnostic) :=
  concatChecks
    [requireString (Fields.get entry "relation") (path ++ ".relation"),
      checkFamilyReference (Fields.get entry "reference") (path ++ ".reference")]

/-- One entry of `actors`. -/
def checkActorEntry (path : String) (actor : Fields) : Py (List Diagnostic) :=
  concatChecks
    [requireString (Fields.get actor "role") (path ++ ".role"),
      checkFamilyReference (Fields.get actor "reference") (path ++ ".reference"),
      reportIf (Fields.get actor "tools" ≠ .null && !isStringList (Fields.get actor "tools"))
        "TYPE_ARRAY_STRINGS" (path ++ ".tools") "must be strings"]

def checkConceptExperiment (details : Fields) : Py (List Diagnostic) :=
  concatChecks
    [reportIf ((Fields.get details "schema").str? ≠ some conceptExperimentSchema)
        "EXPERIMENT_SCHEMA_UNSUPPORTED" "details.schema" "unsupported schema",
      reportUnlessIn (Fields.get details "experimentStatus") experimentStatuses
        "EXPERIMENT_STATUS_INVALID" "details.experimentStatus" "unsupported coordination status",
      concatChecks (["targetProfile", "resourceBudget"].map fun field =>
        reportIf (!(Fields.get details field).isObj) "TYPE_OBJECT" ("details." ++ field)
          "must be an object"),
      concatChecks (["falsifiers", "protectedProperties", "frozenInputs", "hiddenInputs", "actors",
        "references"].map fun field =>
          reportIf (!(Fields.get details field).isArr) "TYPE_ARRAY" ("details." ++ field)
            "must be a list"),
      checkEntries (Fields.get details "actors") "details.actors" checkActorEntry,
      checkEntries (Fields.get details "references") "details.references" checkReferenceEntry]

def checkFailureClassification (details : Fields) : Py (List Diagnostic) :=
  concatChecks
    [reportIf ((Fields.get details "schema").str? ≠ some failureClassificationSchema)
        "FAILURE_SCHEMA_UNSUPPORTED" "details.schema" "unsupported schema",
      reportUnlessIn (Fields.get details "classification") failureClasses "FAILURE_CLASS_INVALID"
        "details.classification" "unsupported class",
      reportUnlessIn (Fields.get details "disposition") classificationDispositions
        "FAILURE_DISPOSITION_INVALID" "details.disposition" "unsupported disposition",
      checkFamilyReference (Fields.get details "failureReference") "details.failureReference",
      checkFamilyReference (Fields.get details "classifier") "details.classifier",
      checkItems (Fields.get details "evidenceReferences") "details.evidenceReferences"
        fun path item => checkFamilyReference item path]

/-- `schema` and `references` are optional here; each must be well formed when
present. -/
def checkReplication (details : Fields) : Py (List Diagnostic) :=
  concatChecks
    [reportIf (Fields.has details "schema" &&
          (Fields.get details "schema").str? ≠ some replicationSchema)
        "REPLICATION_SCHEMA_UNSUPPORTED" "details.schema" "unsupported schema",
      if Fields.has details "references" && !(Fields.get details "references").isArr then
        reportIf true "TYPE_ARRAY" "details.references" "must be a list"
      else checkEntries (Fields.get details "references") "details.references" checkReferenceEntry]

/-- The details a kind requires; none for a kind without rules. -/
def requiredDetails : RecordKind → Option (List String)
  | .conceptExperiment => some ["schema", "conceptId", "languageProfile", "targetProfile",
      "hypothesis", "task", "falsifiers", "protectedProperties", "frozenInputs", "hiddenInputs",
      "resourceBudget", "actors", "references", "experimentStatus", "authorityBoundary"]
  | .failureClassification => some ["schema", "failureReference", "classification", "disposition",
      "classifier", "evidenceReferences", "authorityBoundary"]
  | .observation => some ["outcome"]
  | .claim => some ["outcome", "falsifier"]
  | .finding => some ["basis", "significance"]
  | .question => some ["question", "answerCriteria"]
  | .hypothesis => some ["hypothesis", "falsifier"]
  | .failedApproach => some ["approach", "failureMode", "lesson"]
  | .handoff => some ["objective", "continuation", "authorityBoundary"]
  | .artifactReference => some ["artifactIdentity", "artifactType"]
  | .thread => some ["topic", "status"]
  | .workRequest => some ["objective", "requestedKind", "authorityBoundary"]
  | .replication => some ["targetRecord", "outcome", "independence"]
  | .advisory => some ["severity", "concern"]
  | .decision => some ["domain", "rationale", "authorityScope"]
  | .epoch => some ["windowStart", "workAttempted"]
  | .epochSummary => some ["epochId", "sourceIdentities"]
  | .replicationSeries => some ["target", "passes", "failures", "sourceIdentities"]
  | .observationSeries => some ["sourceIdentities"]
  | .changeset => some ["schema", "changesetId", "baseRevisions", "references",
      "authorityBoundary"]
  | .developmentRecord => none

/-- The checks that one kind adds to the required details. -/
def checkKindDetails (value details : Fields) : RecordKind → Py (List Diagnostic)
  | .replication => concatChecks
      [reportIf (!(Fields.get details "independence").isObj) "TYPE_OBJECT" "details.independence"
          "must preserve correlation metadata",
        checkReplication details]
  | .finding => reportIf (!(Fields.get details "basis").isArr) "TYPE_ARRAY" "details.basis"
      "must be a list of source record or evidence identities"
  | .question => reportIf (!(Fields.get details "answerCriteria").isArr) "TYPE_ARRAY"
      "details.answerCriteria" "must be a list of bounded answer criteria"
  | .handoff => reportIf (!(Fields.get details "continuation").isObj) "TYPE_OBJECT"
      "details.continuation" "must describe bounded continuation state"
  | .thread => reportUnlessIn (Fields.get details "status")
      ["open", "resolved", "superseded", "archived"] "INVALID_THREAD_STATUS" "details.status"
      "unsupported thread status"
  | .workRequest => concatChecks
      [if Fields.has details "requestState" then
          reportUnlessIn (Fields.get details "requestState") workRequestStates
            "INVALID_WORK_REQUEST_STATE" "details.requestState"
            "unsupported WorkRequest coordination state"
        else .ok [],
        validateWorkRecord value]
  | .conceptExperiment => checkConceptExperiment details
  | .failureClassification => checkFailureClassification details
  | _ => .ok []

/-- The details of a record of a kind with rules. -/
def checkDetails (value details : Fields) (kind : RecordKind) (required : List String) :
    Py (List Diagnostic) :=
  concatChecks
    [concatChecks (required.map fun field =>
        reportIf (!Fields.has details field) "REQUIRED_DETAIL" ("details." ++ field)
          ("required for " ++ kind.value)),
      if Fields.has details "outcome" then
        reportUnlessIn (Fields.get details "outcome") resultStatuses "INVALID_STATUS"
          "details.outcome" "must be PASS, FAIL, or UNKNOWN"
      else .ok [],
      checkKindDetails value details kind]

/-! ## Records and events -/

def recordKeys : List String :=
  ["apiVersion", "kind", "contentDigest", "metadata", "subject", "scope", "statement", "evidence",
    "reproduction", "dependencies", "affectedContracts", "provenance", "confidence", "security",
    "lifecycle", "relationships", "details", "extensions"]

def requiredRecordKeys : List String :=
  ["metadata", "subject", "scope", "statement", "evidence", "dependencies", "affectedContracts",
    "provenance", "confidence", "security", "lifecycle", "relationships", "details"]

/-- The wire version must be the supported one. -/
def checkApiVersion (value : Fields) : Py (List Diagnostic) :=
  reportIf ((Fields.get value "apiVersion").pyStr ≠ apiVersion) "UNSUPPORTED_API_VERSION"
    "apiVersion" ("expected " ++ apiVersion)

/-- A digest that is present must look like one. -/
def checkDigestForm (value : Fields) : Py (List Diagnostic) :=
  reportIf (Fields.get value "contentDigest" ≠ .null &&
      !validDigest (Fields.get value "contentDigest"))
    "INVALID_DIGEST" "contentDigest" "must be a sha256: digest"

def checkRequired (value : Fields) (required : List String) : Py (List Diagnostic) :=
  concatChecks (required.map fun field =>
    reportIf (!Fields.has value field) "REQUIRED_FIELD" field "field is required")

/-- The kind of a record, when it is a supported one. -/
def recordKindOf (value : Fields) : Option RecordKind :=
  (Fields.get value "kind").str?.bind RecordKind.ofString?

/-- The details of a record; a kind without rules has none to check. -/
def checkRecordDetails (value details : Fields) : Py (List Diagnostic) :=
  match recordKindOf value with
  | none => .ok []
  | some kind => match requiredDetails kind with
      | none => .ok []
      | some required => checkDetails value details kind required

def recordDiagnostics (value : Fields) : Py (List Diagnostic) :=
  concatChecks
    [checkKeys value recordKeys "<root>",
      checkApiVersion value,
      reportUnlessIn (Fields.get value "kind") (RecordKind.all.map RecordKind.value)
        "UNKNOWN_RECORD_KIND" "kind" "record kind is not supported",
      checkDigestForm value,
      checkRequired value requiredRecordKeys,
      commonRecordChecks value,
      checkObject (Fields.get value "details") "details" (checkRecordDetails value)]

def eventKeys : List String :=
  ["apiVersion", "kind", "contentDigest", "metadata", "target", "transition", "authority",
    "evidence", "extensions"]

def checkTarget (value : Json) : Py (List Diagnostic) :=
  checkObject value "target" fun target => concatChecks
    [requireString (Fields.get target "contentDigest") "target.contentDigest",
      reportIf (!validDigest (Fields.get target "contentDigest")) "INVALID_DIGEST"
        "target.contentDigest" "must be a sha256: digest"]

def checkTransition (value : Json) : Py (List Diagnostic) :=
  checkObject value "transition" fun transition => concatChecks
    [reportUnlessIn (Fields.get transition "from") (LifecycleState.all.map LifecycleState.value)
        "INVALID_STATE" "transition.from" "unknown lifecycle state",
      reportUnlessIn (Fields.get transition "to") (LifecycleState.all.map LifecycleState.value)
        "INVALID_STATE" "transition.to" "unknown lifecycle state"]

def checkAuthority (value : Json) : Py (List Diagnostic) :=
  checkObject value "authority" fun authority => concatChecks
    [requireString (Fields.get authority "domain") "authority.domain",
      requireString (Fields.get authority "actor") "authority.actor",
      requireString (Fields.get authority "rationale") "authority.rationale"]

def eventDiagnostics (value : Fields) : Py (List Diagnostic) :=
  concatChecks
    [checkKeys value eventKeys "<root>",
      checkApiVersion value,
      reportIf ((Fields.get value "kind").str? ≠ some eventKind) "INVALID_EVENT_KIND" "kind"
        ("expected " ++ eventKind),
      checkRequired value ["metadata", "target", "transition", "authority", "evidence"],
      checkMetadata (Fields.get value "metadata"),
      checkTarget (Fields.get value "target"),
      checkTransition (Fields.get value "transition"),
      checkAuthority (Fields.get value "authority"),
      checkEvidence (Fields.get value "evidence") "evidence",
      checkDigestForm value]

/-- An envelope without other faults must name its own digest, if it names one. -/
def checkDigest (value : Fields) (diagnostics : List Diagnostic) : Py (List Diagnostic) :=
  if diagnostics = [] then
    reportIf (Fields.get value "contentDigest" ≠ .null &&
        Fields.get value "contentDigest" ≠ .str (canonicalDigest value))
      "DIGEST_MISMATCH" "contentDigest" ("expected " ++ canonicalDigest value)
  else .ok diagnostics

/-- The diagnostics of `validate_record` for an object. -/
def validateRecord (value : Fields) : Py (List Diagnostic) := do
  checkDigest value (← recordDiagnostics value)

/-- The diagnostics of `validate_event` for an object. -/
def validateEvent (value : Fields) : Py (List Diagnostic) := do
  checkDigest value (← eventDiagnostics value)

end MncsCommons.Protocol
