/-
# Producer references

A record names records of other producers by exact references.  Normalising a
reference checks its fields and strips its texts; `producerReferences` collects
the well-formed references of a record and skips the others.

Only the parts of the family record module that validation and the store's
semantic checks use are here.
-/

import MncsCommons.Protocol.Canonical

namespace MncsCommons.Protocol

open MncsCommons.Data

def familyReferenceSchema : String := "commons.mncs.dev/producer-reference/v0alpha1"

def conceptExperimentSchema : String := "commons.mncs.dev/concept-experiment/v0alpha1"

def failureClassificationSchema : String := "commons.mncs.dev/failure-classification/v0alpha1"

def replicationSchema : String := "commons.mncs.dev/replication/v0alpha1"

def experimentStatuses : List String :=
  ["DEFINED", "FROZEN", "SCHEDULED", "RUNNING", "COLLECTING_EVIDENCE", "TERMINAL", "PUBLISHED",
    "FAILED", "STOPPED", "UNKNOWN"]

def failureClasses : List String :=
  ["implementation_error", "language_expressivity_gap", "semantic_model_gap",
    "compiler_lowering_gap", "verifier_evaluator_gap", "tooling_orchestration_gap",
    "target_portability_gap", "specification_ambiguity", "unresolved_insufficient_evidence"]

def classificationDispositions : List String :=
  ["OBSERVED", "CLAIMED", "SUPPORTED", "CONTRADICTED", "UNRESOLVED"]

/-- A text that is a non-blank string of at most `maximum` characters without
NUL. -/
def boundedText (value : Json) (maximum : Nat) : Option String :=
  match value with
  | .str s =>
      if Str.isBlank s || maximum < s.length || s.toList.contains '\x00' then none
      else some (Str.strip s)
  | _ => none

/-- `_text` of the family module. -/
def familyText (value : Json) (field : String) (maximum : Nat) : Py String :=
  match boundedText value maximum with
  | some text => .ok text
  | none => .error (.familyRecordError (field ++ " must be bounded non-empty text"))

/-- A normalised artifact reference. -/
structure ArtifactReference where
  identity : String
  kind : String
  digest : Option String
  location : Option String
  deriving DecidableEq

/-- A normalised producer reference; its schema is `familyReferenceSchema`. -/
structure ProducerReference where
  producer : String
  recordKind : String
  schemaVersion : String
  stableId : String
  contentDigest : Option String
  artifact : Option ArtifactReference
  scope : Option Fields

/-- The fields that are not allowed, sorted. -/
def unknownFields (fields : Fields) (allowed : List String) : List String :=
  sortedBy id ((Fields.keys fields).filter fun key => !allowed.contains key)

/-- The text of an optional field: absent and `null` alike give none. -/
def optionalFamilyText (value : Json) (field : String) (maximum : Nat) : Py (Option String) :=
  match value with
  | .null => .ok none
  | value => (familyText value field maximum).map some

/-- The digest of a reference, when it has one. -/
def normalizeReferenceDigest (value : Json) : Py (Option String) := do
  match ← optionalFamilyText value "contentDigest" 80 with
  | none => return none
  | some digest =>
      raiseIf (!Str.startsWith digest "sha256:" || digest.length ≠ 71)
        (.familyRecordError "contentDigest must be a sha256: identity")
      raiseIf (!(digest.toList.drop 7).all isLowerHex)
        (.familyRecordError "contentDigest must be lowercase hexadecimal")
      return some digest

/-- The artifact of a reference, when it has one. -/
def normalizeArtifact (value : Json) : Py (Option ArtifactReference) :=
  match value with
  | .null => .ok none
  | .obj artifact => do
      let unknown := unknownFields artifact ["identity", "kind", "digest", "location"]
      raiseIf (unknown ≠ [])
        (.familyRecordError ("artifact reference has unknown fields: " ++ Str.join ", " unknown))
      let identity ← familyText (Fields.get artifact "identity") "artifact.identity" 2048
      let kind ← familyText (Fields.get artifact "kind") "artifact.kind" 256
      let digest ← optionalFamilyText (Fields.get artifact "digest") "artifact.digest" 256
      let location ← optionalFamilyText (Fields.get artifact "location") "artifact.location" 4096
      return some ⟨identity, kind, digest, location⟩
  | _ => .error (.familyRecordError "artifact must be an object")

/-- The scope of a reference, when it has one. -/
def normalizeReferenceScope (value : Json) : Py (Option Fields) :=
  match value with
  | .null => .ok none
  | .obj scope => .ok (some scope)
  | _ => .error (.familyRecordError "scope must be an object")

/-- Validate and normalise one exact reference to a producer's record. -/
def normalizeProducerReference (value : Fields) : Py ProducerReference := do
  let unknown := unknownFields value
    ["schema", "producer", "recordKind", "schemaVersion", "stableId", "contentDigest", "artifact",
      "scope"]
  raiseIf (unknown ≠ [])
    (.familyRecordError ("producer reference has unknown fields: " ++ Str.join ", " unknown))
  raiseIf
    (((Fields.get? value "schema").getD (.str familyReferenceSchema)).str? ≠
      some familyReferenceSchema)
    (.familyRecordError "producer reference schema is unsupported")
  let producer ← familyText (Fields.get value "producer") "producer" 256
  let recordKind ← familyText (Fields.get value "recordKind") "recordKind" 256
  let schemaVersion ← familyText (Fields.get value "schemaVersion") "schemaVersion" 256
  let stableId ← familyText (Fields.get value "stableId") "stableId" 2048
  let contentDigest ← normalizeReferenceDigest (Fields.get value "contentDigest")
  let artifact ← normalizeArtifact (Fields.get value "artifact")
  let scope ← normalizeReferenceScope (Fields.get value "scope")
  return ⟨producer, recordKind, schemaVersion, stableId, contentDigest, artifact, scope⟩

/-- The reference objects inside a list of entries. -/
def entryReferences (entries : List Json) : List Fields :=
  entries.filterMap fun entry => entry.obj?.bind fun fields => (Fields.get fields "reference").obj?

/-- The well-formed references among the given objects. -/
def normalizeReferences (raw : List Fields) : List ProducerReference :=
  raw.filterMap fun reference => (normalizeProducerReference reference).toOption

/-- The reference objects a record names, well formed or not. -/
def rawReferences (details : Fields) : Py (List Fields) := do
  let references ← iterateOrEmpty (Fields.get details "references")
  let actors ← iterateOrEmpty (Fields.get details "actors")
  let evidence ← iterateOrEmpty (Fields.get details "evidenceReferences")
  return entryReferences references ++ entryReferences actors ++
    ["failureReference", "classifier"].filterMap (fun key => (Fields.get details key).obj?) ++
    evidence.filterMap Json.obj?

/-- The normalised references of a record, without reading what they name. -/
def producerReferences (record : Fields) : Py (List ProducerReference) :=
  match (Fields.get record "details").obj? with
  | none => .ok []
  | some details => (rawReferences details).map normalizeReferences

/-! ## Key order -/

@[simp]
theorem requireHashable_sortKeys (value : Json) :
    requireHashable value.sortKeys = requireHashable value := by
  cases value <;> simp [requireHashable]

@[simp]
theorem inSet_sortKeys (value : Json) (values : List String) :
    inSet value.sortKeys values = inSet value values := by
  simp [inSet]

@[simp]
theorem boundedText_sortKeys (value : Json) (maximum : Nat) :
    boundedText value.sortKeys maximum = boundedText value maximum := by
  cases value <;> simp [boundedText]

@[simp]
theorem familyText_sortKeys (value : Json) (field : String) (maximum : Nat) :
    familyText value.sortKeys field maximum = familyText value field maximum := by
  simp [familyText]

@[simp]
theorem optionalFamilyText_sortKeys (value : Json) (field : String) (maximum : Nat) :
    optionalFamilyText value.sortKeys field maximum = optionalFamilyText value field maximum := by
  cases value <;> simp [optionalFamilyText, familyText, boundedText]

@[simp]
theorem normalizeReferenceDigest_sortKeys (value : Json) :
    normalizeReferenceDigest value.sortKeys = normalizeReferenceDigest value := by
  simp [normalizeReferenceDigest]

@[simp]
theorem unknownFields_sortKeys (fields : Fields) (allowed : List String) :
    unknownFields (Fields.sortKeys fields) allowed = unknownFields fields allowed :=
  sortedBy_eq_of_perm ((Fields.keys_sortKeys_perm fields).filter _) fun _ _ _ _ h => h

@[simp]
theorem normalizeArtifact_sortKeys (value : Json) :
    normalizeArtifact value.sortKeys = normalizeArtifact value := by
  cases value <;> simp [normalizeArtifact]

/-- The reference with its scope in key order. -/
def ProducerReference.sortKeys (reference : ProducerReference) : ProducerReference :=
  { reference with scope := reference.scope.map Fields.sortKeys }

theorem normalizeReferenceScope_sortKeys (value : Json) :
    normalizeReferenceScope value.sortKeys =
      Option.map Fields.sortKeys <$> normalizeReferenceScope value := by
  cases value <;> simp [normalizeReferenceScope]

theorem normalizeProducerReference_sortKeys (value : Fields) :
    normalizeProducerReference (Fields.sortKeys value) =
      ProducerReference.sortKeys <$> normalizeProducerReference value := by
  have hschema : ((Fields.get? (Fields.sortKeys value) "schema").getD
      (.str familyReferenceSchema)).str? =
        ((Fields.get? value "schema").getD (.str familyReferenceSchema)).str? := by
    rw [Fields.get?_sortKeys]
    cases Fields.get? value "schema" <;> simp
  simp only [normalizeProducerReference, unknownFields_sortKeys, hschema, Fields.get_sortKeys,
    familyText_sortKeys, normalizeReferenceDigest_sortKeys, normalizeArtifact_sortKeys,
    normalizeReferenceScope_sortKeys, map_bind, map_pure, bind_map_left]
  rfl

end MncsCommons.Protocol
