/-
# Retention classes and compaction plans

A record is kept for good, as evidence, or for a time, by its kind and its outcome.  What
must stay retrievable is what the canonical records lead to, in any order in which the
references are followed (`protectionGraph_least`), and the plan picks the records past
their time that are neither protected nor pinned.
-/

import MncsCommons.Data.DateTime
import MncsCommons.Data.Saturation
import MncsCommons.Data.Updates
import MncsCommons.Protocol.Projection
import MncsCommons.Protocol.RequestRecords
import MncsCommons.Protocol.WorkHistory

namespace MncsCommons.Retention

open MncsCommons.Data MncsCommons.Protocol

/-! ## Classes -/

/-- The retention classes. -/
inductive RetentionClass where
  | canonical | evidence | diagnostic | ephemeral
  deriving DecidableEq, Repr

def RetentionClass.value : RetentionClass → String
  | .canonical => "canonical"
  | .evidence => "evidence"
  | .diagnostic => "diagnostic"
  | .ephemeral => "ephemeral"

/-- `PROTECTED_KINDS`. -/
def protectedKinds : List String :=
  [RecordKind.conceptExperiment, .failureClassification, .claim, .decision, .finding, .question,
    .hypothesis, .failedApproach, .handoff, .thread, .epoch, .epochSummary, .replicationSeries,
    .observationSeries].map RecordKind.value

/-- `str(value or default)`. -/
def textOr (value : Json) (default : String) : String :=
  if value.truthy then value.pyStr else default

/-- The labels of a record. -/
def labelsOf (record : Fields) : List Json :=
  match Fields.get record "metadata" with
  | .obj metadata => (Fields.get metadata "labels").arr?.getD []
  | _ => []

/-- `classify_record`. -/
def classifyRecord (record : Fields) : RetentionClass :=
  let kind := textOr (Fields.get record "kind") ""
  let outcome := textOr (Fields.get (detailsOf record) "outcome") ""
  if protectedKinds.contains kind then .canonical
  else if kind = RecordKind.workRequest.value then
    let state := textOr (Fields.get (detailsOf record) "requestState") "open"
    if ["open", "claimed", "responded"].contains state then .canonical else .diagnostic
  else if kind = RecordKind.advisory.value then .diagnostic
  else if kind = RecordKind.artifactReference.value then .evidence
  else if kind = RecordKind.replication.value then
    if outcome = "FAIL" then .evidence else .ephemeral
  else if kind = RecordKind.observation.value then
    if ["FAIL", "UNKNOWN"].contains outcome then .diagnostic
    else if (labelsOf record).contains (.str "canonical") then .canonical
    else if (labelsOf record).contains (.str "evidence") then .evidence
    else .ephemeral
  else .diagnostic

/-! ## References -/

/-- The value, if it is a digest. -/
def asDigest : Json → List String
  | .str text => if Str.startsWith text "sha256:" then [text] else []
  | _ => []

/-- The digests that two members of a mapping name. -/
def digestsAt (first second : String) : Json → List String
  | .obj fields => asDigest (Fields.get fields first) ++ asDigest (Fields.get fields second)
  | _ => []

/-- The members of the details that name digests. -/
def referringFields : List String :=
  ["targetRecord", "epochId", "sourceIdentities", "representativeEvidence", "notableFailures"]

/-- `referenced_digests`. -/
def referencedDigests (record : Fields) : Py (List String) := do
  let provenance := (Fields.get record "provenance").obj?.getD []
  let sources ← iterateOrEmpty (Fields.get provenance "sourceRecords")
  let relations ← iterateOrEmpty (Fields.get record "relationships")
  let named := referringFields.flatMap fun field =>
    match Fields.get (detailsOf record) field with
    | .arr items => items.flatMap asDigest
    | value => asDigest value
  let evidence := (Fields.get record "evidence").arr?.getD []
  return asDigest (Fields.get record "contentDigest") ++ sources.flatMap asDigest ++
    relations.flatMap (digestsAt "target" "contentDigest") ++ named ++
    evidence.flatMap (digestsAt "id" "contentDigest")

/-- `by_digest`: the last record of each digest. -/
def byDigest (records : List Fields) : List (String × Fields) :=
  Fields.update [] (records.filterMap fun record =>
    (Fields.get record "contentDigest").str?.map fun digest => (digest, record))

/-- A record that is kept for good. -/
def isRoot (record : Fields) : Bool :=
  classifyRecord record = .canonical ||
    protectedKinds.contains (Fields.get record "kind").pyStr

def protectedRoots (records : List Fields) : List String :=
  Fields.keys ((byDigest records).filter fun entry => isRoot entry.2)

/-- What a digest leads to: the references of its record, if there is one. -/
def references (records : List Fields) (digest : String) : Py (List String) :=
  match Fields.get? (byDigest records) digest with
  | none => .ok []
  | some record => referencedDigests record

/-- The digests that can come up. -/
def digestPool (records : List Fields) : List String :=
  Fields.keys (byDigest records) ++
    (byDigest records).flatMap fun entry => (referencedDigests entry.2).toOption.getD []

/-- `protection_graph`. -/
def protectionGraph (records : List Fields) : Py (List String) :=
  Saturation.saturate (references records) (digestPool records).length (protectedRoots records)
    (protectedRoots records)

/-! ## Times -/

/-- `_now` of a text. -/
def instantOf (text : String) : Py Int :=
  let text := Str.replaceChar text 'Z' "+00:00"
  match DateTime.fromIsoFormat text.toList with
  | none => .error (.valueError ("Invalid isoformat string: " ++ String.ofList (reprString text)))
  | some parsed => match parsed.offset with
      | none => .ok parsed.micros
      | some _ => match parsed.toUtc with
          | some micros => .ok micros
          | none => .error (.overflowError "date value out of range")

/-- `_created_at`: what raises a `ValueError` counts as no time. -/
def createdAt (record : Fields) : Py (Option Int) :=
  match Fields.get record "metadata" with
  | .obj metadata => match Fields.get metadata "createdAt" with
      | .str text => match instantOf text with
          | .ok micros => .ok (some micros)
          | .error error => if error.isValueError then .ok none else .error error
      | _ => .ok none
  | _ => .ok none

/-- The age of a record in days; one without a time is new. -/
def ageDays (current : Int) (record : Fields) : Py Int := do
  return ((← createdAt record).map (DateTime.daysBetween · current)).getD 0

/-! ## Plans -/

/-- The times to live of a policy. -/
structure RetentionPolicy where
  ephemeralTtlDays : Int
  diagnosticTtlDays : Int

/-- What makes a record a candidate. -/
def ttlReason (policy : RetentionPolicy) (retention : RetentionClass) (age : Int) :
    Option String :=
  match retention with
  | .ephemeral => if policy.ephemeralTtlDays ≤ age then some "ephemeral-ttl" else none
  | .diagnostic => if policy.diagnosticTtlDays ≤ age then some "diagnostic-ttl" else none
  | _ => none

/-- A record that a plan offers to remove. -/
structure Candidate where
  contentDigest : String
  kind : Json
  retention : RetentionClass
  reason : String
  bytes : Nat
  deriving DecidableEq

/-- One record of a plan. -/
def planRecord (policy : RetentionPolicy) (current : Int) (kept : List String)
    (record : Fields) : Py (Option Candidate) := do
  let digest := textOr (Fields.get record "contentDigest") ""
  let retention := classifyRecord record
  let age ← ageDays current record
  if kept.contains digest then return none
  else return (ttlReason policy retention age).map fun reason =>
    ⟨digest, Fields.get record "kind", retention, reason,
      Text.byteSize (canonicalJson (.obj record))⟩

/-- What a plan reports of the records. -/
structure Plan where
  protectedCount : Nat
  candidateCount : Nat
  reclaimableBytes : Nat
  candidates : List Candidate
  blocked : List String
  deriving DecidableEq

/-- The candidates of a plan, in the order of the records. -/
def plannedRows (policy : RetentionPolicy) (pins : List String) (now : Py Int)
    (records : List Fields) : Py (List String × List Candidate) := do
  let found ← protectionGraph records
  let kept := found ∪ pins
  let current ← now
  let rows ← collect (planRecord policy current kept) records
  return (kept, rows.filterMap id)

/-- `plan`, without the usage of the store. -/
def plan (policy : RetentionPolicy) (pins : List String) (now : Py Int) (records : List Fields) :
    Py Plan := do
  let (kept, candidates) ← plannedRows policy pins now records
  return ⟨kept.length, candidates.length, (candidates.map Candidate.bytes).sum,
    candidates.take 200,
    if candidates.isEmpty then ["no TTL-eligible unreferenced records"] else []⟩

/-- One record of `_all_candidates`. -/
def selectRecord (policy : RetentionPolicy) (current : Int) (kept : List String)
    (record : Fields) : Py (Option (String × RetentionClass)) := do
  let digest := textOr (Fields.get record "contentDigest") ""
  let retention := classifyRecord record
  let age ← ageDays current record
  if kept.contains digest then return none
  else if retention = .ephemeral && policy.ephemeralTtlDays ≤ age then
    return some (digest, retention)
  else if retention = .diagnostic && policy.diagnosticTtlDays ≤ age then
    return some (digest, retention)
  else return none

/-- `_all_candidates`. -/
def allCandidates (policy : RetentionPolicy) (pins : List String) (now : Py Int)
    (records : List Fields) : Py (List (String × RetentionClass)) := do
  let found ← protectionGraph records
  let kept := found ∪ pins
  let current ← now
  let rows ← collect (selectRecord policy current kept) records
  return rows.filterMap id

/-- The records that compaction keeps. -/
def keptRecords (candidates : List (String × RetentionClass)) (records : List Fields) :
    Py (List Fields) :=
  filterWhere (fun record => do
    return !(← inSet (Fields.get record "contentDigest") (candidates.map Prod.fst))) records

/-! ## What is protected -/

/-- The record that a digest leads to: the last one with it. -/
def holderOf (records : List Fields) (digest : String) : Option Fields :=
  (records.filter fun record => Fields.get record "contentDigest" = .str digest).getLast?

/-- The digest is in every set with the digests of the roots that has the references of
each digest in it. -/
def Protects (records : List Fields) (digest : String) : Prop :=
  ∀ closed : String → Prop,
    (∀ root record, holderOf records root = some record → isRoot record = true → closed root) →
    (∀ source record named, closed source → holderOf records source = some record →
      referencedDigests record = .ok named → ∀ other ∈ named, closed other) → closed digest

theorem get?_byDigest (records : List Fields) (digest : String) :
    Fields.get? (byDigest records) digest = holderOf records digest := by
  rw [byDigest, Fields.get?_update, Fields.get?, Option.or_none, holderOf]
  induction records using List.reverseRecOn with
  | nil => rfl
  | append_singleton records record ih =>
      rw [List.filterMap_append, List.reverse_append, Fields.get?_append, ih, List.filter_append,
        List.getLast?_append]
      congr 1
      cases hdigest : Fields.get record "contentDigest" with
      | str text =>
          by_cases htext : text = digest
          · simp [hdigest, htext, Json.str?, Fields.get?]
          · simp [hdigest, htext, Json.str?, Fields.get?]
      | null | bool _ | int _ | decimal _ | arr _ | obj _ => simp [hdigest, Json.str?, Fields.get?]

theorem nodup_keys_byDigest (records : List Fields) : (Fields.keys (byDigest records)).Nodup :=
  Fields.nodup_keys_update (show (Fields.keys ([] : List (String × Fields))).Nodup from
    List.nodup_nil) _

theorem mem_byDigest_iff {records : List Fields} {entry : String × Fields} :
    entry ∈ byDigest records ↔ holderOf records entry.1 = some entry.2 := by
  rw [← get?_byDigest]
  exact ⟨Fields.get?_eq_some_of_mem (nodup_keys_byDigest records), Fields.mem_of_get?_eq_some⟩

theorem mem_protectedRoots_iff {records : List Fields} {digest : String} :
    digest ∈ protectedRoots records ↔
      ∃ record, holderOf records digest = some record ∧ isRoot record = true := by
  rw [protectedRoots, Fields.keys, List.mem_map]
  constructor
  · rintro ⟨entry, hentry, rfl⟩
    obtain ⟨hmem, hroot⟩ := List.mem_filter.mp hentry
    exact ⟨entry.2, mem_byDigest_iff.mp hmem, hroot⟩
  · rintro ⟨record, hholder, hroot⟩
    exact ⟨(digest, record), List.mem_filter.mpr ⟨mem_byDigest_iff.mpr hholder, hroot⟩, rfl⟩

theorem nodup_protectedRoots (records : List Fields) : (protectedRoots records).Nodup :=
  (nodup_keys_byDigest records).sublist (List.filter_sublist.map _)

theorem references_eq (records : List Fields) (digest : String) :
    references records digest =
      ((holderOf records digest).map referencedDigests).getD (.ok []) := by
  rw [references, get?_byDigest]
  cases holderOf records digest <;> rfl

section Order

variable {records : List Fields} {roots : List String} {order : String → List String → List String}

/-- The references in another order. -/
def inOrder (records : List Fields) (order : String → List String → List String)
    (digest : String) : Py (List String) :=
  (references records digest).map (order digest)

theorem step_inOrder_iff (horder : ∀ digest named other, other ∈ order digest named ↔ other ∈ named)
    {digest other : String} :
    Saturation.Step (inOrder records order) digest other ↔
      ∃ record named, holderOf records digest = some record ∧
        referencedDigests record = .ok named ∧ other ∈ named := by
  rw [Saturation.Step, inOrder, references_eq]
  cases hholder : holderOf records digest with
  | none =>
      constructor
      · rintro ⟨named, hnamed, hother⟩
        obtain rfl := Except.ok.inj hnamed
        rw [horder] at hother
        cases hother
      · rintro ⟨record, _, hrecord, -⟩
        cases hrecord
  | some record =>
      constructor
      · rintro ⟨named, hnamed, hother⟩
        obtain ⟨inner, hinner, rfl⟩ := map_eq_ok_iff.mp hnamed
        exact ⟨record, inner, rfl, hinner, (horder _ _ _).mp hother⟩
      · rintro ⟨_, named, hrecord, hnamed, hother⟩
        obtain rfl := Option.some.inj hrecord
        exact ⟨_, map_eq_ok_iff.mpr ⟨named, hnamed, rfl⟩, (horder _ _ _).mpr hother⟩

/-- What the roots lead to is what is protected. -/
theorem reached_iff_protects
    (horder : ∀ digest named other, other ∈ order digest named ↔ other ∈ named)
    (hroots : roots.Perm (protectedRoots records)) {digest : String} :
    Saturation.Reached (inOrder records order) roots digest ↔ Protects records digest := by
  rw [Saturation.reached_iff_least]
  constructor
  · intro h closed hroot hstep
    refine h closed (fun root hmem => ?_) fun source other hsource hother => ?_
    · obtain ⟨record, hholder, hkept⟩ := mem_protectedRoots_iff.mp (hroots.mem_iff.mp hmem)
      exact hroot root record hholder hkept
    · obtain ⟨record, named, hholder, hnamed, hmem⟩ := (step_inOrder_iff horder).mp hother
      exact hstep source record named hsource hholder hnamed other hmem
  · intro h closed hroot hstep
    refine h closed (fun root record hholder hkept => ?_)
      fun source record named hsource hholder hnamed other hmem => ?_
    · exact hroot root (hroots.mem_iff.mpr (mem_protectedRoots_iff.mpr ⟨record, hholder, hkept⟩))
    · exact hstep source other hsource
        ((step_inOrder_iff horder).mpr ⟨record, named, hholder, hnamed, hmem⟩)

/-- Everything that is protected can come up. -/
theorem mem_digestPool_of_protects {digest : String} (h : Protects records digest) :
    digest ∈ digestPool records := by
  refine h (· ∈ digestPool records) (fun root record hholder _ => ?_)
    fun source record named _ hholder hnamed other hother => ?_
  · have hmem : (root, record) ∈ byDigest records := mem_byDigest_iff.mpr hholder
    exact List.mem_append_left _ (List.mem_map.mpr ⟨_, hmem, rfl⟩)
  · have hmem : (source, record) ∈ byDigest records := mem_byDigest_iff.mpr hholder
    refine List.mem_append_right _ (List.mem_flatMap.mpr ⟨_, hmem, ?_⟩)
    rw [hnamed]
    exact hother

/-- The loop finds the protected digests and nothing else, whatever the order. -/
theorem mem_saturate_inOrder (hroots : roots.Perm (protectedRoots records))
    (horder : ∀ digest named other, other ∈ order digest named ↔ other ∈ named)
    {found : List String}
    (h : Saturation.saturate (inOrder records order) (digestPool records).length roots roots =
      .ok found) (digest : String) : digest ∈ found ↔ Protects records digest := by
  have hpool : ∀ other, Saturation.Reached (inOrder records order) roots other →
      other ∈ digestPool records := fun other hreached =>
    mem_digestPool_of_protects ((reached_iff_protects horder hroots).mp hreached)
  rw [Saturation.mem_saturate_iff (hroots.nodup_iff.mpr (nodup_protectedRoots records)) hpool
    le_rfl h, reached_iff_protects horder hroots]

/-- The loop returns exactly when the references of every protected record can be read. -/
theorem exists_saturate_inOrder_iff (hroots : roots.Perm (protectedRoots records))
    (horder : ∀ digest named other, other ∈ order digest named ↔ other ∈ named) :
    (∃ found, Saturation.saturate (inOrder records order) (digestPool records).length roots roots =
        .ok found) ↔
      ∀ digest record, Protects records digest → holderOf records digest = some record →
        ∃ named, referencedDigests record = .ok named := by
  have hpool : ∀ other, Saturation.Reached (inOrder records order) roots other →
      other ∈ digestPool records := fun other hreached =>
    mem_digestPool_of_protects ((reached_iff_protects horder hroots).mp hreached)
  rw [Saturation.exists_saturate_iff (hroots.nodup_iff.mpr (nodup_protectedRoots records)) hpool
    le_rfl]
  constructor
  · intro h digest record hprotects hholder
    obtain ⟨named, hnamed⟩ := h digest ((reached_iff_protects horder hroots).mpr hprotects)
    rw [inOrder, references_eq, hholder] at hnamed
    obtain ⟨inner, hinner, -⟩ := map_eq_ok_iff.mp hnamed
    exact ⟨inner, hinner⟩
  · intro h digest hreached
    rw [inOrder, references_eq]
    cases hholder : holderOf records digest with
    | none => exact ⟨_, rfl⟩
    | some record =>
        obtain ⟨named, hnamed⟩ := h digest record
          ((reached_iff_protects horder hroots).mp hreached) hholder
        exact ⟨_, map_eq_ok_iff.mpr ⟨named, hnamed, rfl⟩⟩

/-- The loop over the references finds the least set with the digests of the records kept
for good that is closed under references, in whatever order the sets are walked. -/
theorem protectionGraph_least (hroots : roots.Perm (protectedRoots records))
    (horder : ∀ digest named other, other ∈ order digest named ↔ other ∈ named) :
    ((∃ found, Saturation.saturate (inOrder records order) (digestPool records).length roots roots =
        .ok found) ↔
      ∀ digest record, Protects records digest → holderOf records digest = some record →
        ∃ named, referencedDigests record = .ok named) ∧
    ∀ found, Saturation.saturate (inOrder records order) (digestPool records).length roots roots =
      .ok found → ∀ digest, digest ∈ found ↔ Protects records digest :=
  ⟨exists_saturate_inOrder_iff hroots horder, fun _ => mem_saturate_inOrder hroots horder⟩

end Order

/-- A claim that names an observation, that observation, and one that nothing names. -/
def agedRecords : List Fields :=
  [[("contentDigest", .str "sha256:a"), ("kind", .str "Claim"),
      ("relationships", .arr [.obj [("target", .str "sha256:b")]])],
    [("contentDigest", .str "sha256:b"), ("kind", .str "Observation"),
      ("metadata", .obj [("createdAt", .str "2024-01-01T00:00:00Z")])],
    [("contentDigest", .str "sha256:c"), ("kind", .str "Observation"),
      ("metadata", .obj [("createdAt", .str "2024-01-01T00:00:00Z")])]]

/-- The roots and the references in the opposite order. -/
theorem protectionGraph_least_backwards :
    ((∃ found, Saturation.saturate (inOrder agedRecords fun _ => List.reverse)
        (digestPool agedRecords).length (protectedRoots agedRecords).reverse
        (protectedRoots agedRecords).reverse = .ok found) ↔
      ∀ digest record, Protects agedRecords digest → holderOf agedRecords digest = some record →
        ∃ named, referencedDigests record = .ok named) ∧
    ∀ found, Saturation.saturate (inOrder agedRecords fun _ => List.reverse)
      (digestPool agedRecords).length (protectedRoots agedRecords).reverse
      (protectedRoots agedRecords).reverse = .ok found →
        ∀ digest, digest ∈ found ↔ Protects agedRecords digest :=
  protectionGraph_least (List.reverse_perm _) fun _ _ _ => List.mem_reverse

/-- The loop with the roots and the references as they come. -/
theorem protectionGraph_eq (records : List Fields) :
    protectionGraph records =
      Saturation.saturate (inOrder records fun _ named => named) (digestPool records).length
        (protectedRoots records) (protectedRoots records) := by
  rw [protectionGraph]
  congr 1
  funext digest
  rw [inOrder]
  cases references records digest <;> rfl

theorem mem_protectionGraph {records : List Fields} {found : List String}
    (h : protectionGraph records = .ok found) (digest : String) :
    digest ∈ found ↔ Protects records digest := by
  rw [protectionGraph_eq] at h
  exact mem_saturate_inOrder (.refl _) (fun _ _ _ => Iff.rfl) h digest

theorem nodup_protectionGraph {records : List Fields} {found : List String}
    (h : protectionGraph records = .ok found) : found.Nodup :=
  Saturation.nodup_saturate (nodup_protectedRoots records) h

theorem exists_protectionGraph_iff {records : List Fields} :
    (∃ found, protectionGraph records = .ok found) ↔
      ∀ digest record, Protects records digest → holderOf records digest = some record →
        ∃ named, referencedDigests record = .ok named := by
  rw [protectionGraph_eq]
  exact exists_saturate_inOrder_iff (.refl _) fun _ _ _ => Iff.rfl

end MncsCommons.Retention
