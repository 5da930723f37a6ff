/-
# Valid work records

The checks of a work record and of its lane, read as structures: a record is valid
exactly when they hold (`recordDiagnostics_work_iff`).  The logical identity of a
valid work record is its work identity (`ValidWork.logicalId`).
-/

import MncsCommons.Protocol.RequestRecords
import MncsCommons.Protocol.Revisions

namespace MncsCommons.Protocol

open MncsCommons.Data

/-! ## The checks of one revision -/

/-- The checks of a record that declares a lane, without findings. -/
structure ValidLane (details : Fields) : Prop where
  lane : ∃ lane ∈ lanes, Fields.get details "lane" = .str lane
  policy : validateLaneRequest details = []
  lists : ∀ field ∈ ["affectedRepositories", "dependencies", "capabilityRequirements",
    "blockingWorkIds", "evidenceLinks", "allowedWriteScope", "forbiddenWriteScope"],
    stringListInvalid details field = false
  texts : ∀ field ∈ ["capability", "reason", "expectedSemantics"],
    textFieldInvalid details field = false
  priority : priorityValid (Fields.get details "priority") = true
  claim : Fields.get details "claim" = .null ∨ (Fields.get details "claim").isObj = true
  claimed : ∀ state ∈ ["CLAIMED", "IN_PROGRESS", "VERIFYING"],
    Fields.get details "coordinationState" = .str state → (Fields.get details "claim").isObj = true
  blocked : Fields.get details "coordinationState" = .str "BLOCKED" →
    (Fields.get details "blockers").truthy = true
  complete : Fields.get details "coordinationState" = .str "COMPLETE" → hasOutcome details = true
  scope : hygieneScopeInvalid details = .ok false

theorem claimed_iff (coordination : Json) (claimed : Bool) (states : List String) :
    (coordination.str?.any (states.contains ·) && !claimed) = false ↔
      ∀ state ∈ states, coordination = .str state → claimed = true := by
  cases coordination with
  | str text =>
      rw [Json.str?, Option.any_some]
      constructor
      · intro h state hstate heq
        obtain rfl := Json.str.inj heq
        simpa [hstate] using h
      · intro h
        by_cases hmem : text ∈ states
        · simp [h text hmem rfl]
        · simp [hmem]
  | _ => simp [Json.str?]

theorem checkLane_eq_nil_iff {details : Fields} :
    checkLane details = .ok [] ↔ ValidLane details := by
  have hscope : ((hygieneScopeInvalid details).bind fun invalid =>
      reportIf invalid workHygieneScopeCode "details.affectedRepositories"
        ("REPO_HYGIENE work must be scoped to exactly one " ++
          "canonical repository equal to the primary repository")) = .ok [] ↔
      hygieneScopeInvalid details = .ok false := by
    cases hygieneScopeInvalid details with
    | error error => simp [Except.bind]
    | ok invalid => cases invalid <;> simp [Except.bind]
  have hclaimed := claimed_iff (Fields.get details "coordinationState")
    (Fields.get details "claim").isObj ["CLAIMED", "IN_PROGRESS", "VERIFYING"]
  rw [checkLane, concatChecks_eq_nil_iff]
  simp only [List.forall_mem_cons, concatChecks_eq_nil_iff, List.forall_mem_map,
    reportIf_eq_nil_iff, reportUnlessIn_eq_nil_iff, hscope, Except.ok.injEq, List.map_eq_nil_iff]
  constructor
  · rintro ⟨hlane, hpolicy, hlists, htexts, hpriority, hclaim, hclaim', hblocked, hcomplete, hscope,
      -⟩
    refine ⟨hlane, hpolicy, ?_, ?_, by simpa using hpriority, ?_, hclaimed.mp hclaim', ?_, ?_, hscope⟩
    · simpa only [List.forall_mem_cons] using hlists
    · simpa only [List.forall_mem_cons] using htexts
    · simpa [or_iff_not_imp_left] using hclaim
    · simpa [Json.str?_eq_some_iff] using hblocked
    · simpa [Json.str?_eq_some_iff, hasOutcome] using hcomplete
  · intro h
    refine ⟨h.lane, h.policy, ?_, ?_, by simp [h.priority], ?_, hclaimed.mpr h.claimed, ?_, ?_, h.scope, by simp⟩
    · simpa only [List.forall_mem_cons] using h.lists
    · simpa only [List.forall_mem_cons] using h.texts
    · simpa [or_iff_not_imp_left] using h.claim
    · simpa [Json.str?_eq_some_iff] using h.blocked
    · simpa [Json.str?_eq_some_iff, hasOutcome] using h.complete

/-- The identity is checked against the identifier of the record. -/
theorem checkWorkId_eq (value details : Fields) :
    checkWorkId value details =
      match (Fields.get details "workId").str?.filter fun workId =>
          Str.startsWith workId "work:" && workId.length ≤ 256 with
      | none => reportIf true "WORK_ID_INVALID" "details.workId" "invalid work identity"
      | some workId =>
          reportIf ((recordIdOf value).str? ≠ some workId) "WORK_ID_MISMATCH" "metadata.recordId"
            "recordId must equal workId" := rfl

/-- The self-contained checks of a work record, without findings. -/
structure ValidWork (value details : Fields) : Prop where
  protocol : Fields.get details "workProtocol" = .str workProtocol
  workId : checkWorkId value details = .ok []
  state : ∃ state ∈ workStates, Fields.get details "state" = .str state
  event : checkStateEvent value details = .ok []
  boundary : Fields.get details "authorityBoundary" = .str workAuthorityBoundary
  required : ∀ field ∈ ["objective", "requestedKind", "submittingConsumer", "project",
    "constraints"], Fields.has details field = true
  coordination : ∃ state ∈ workCoordinationStates,
    Fields.get details "coordinationState" = .str state
  claimable : Fields.get details "coordinationState" = .str "AVAILABLE" →
    Fields.get details "proposalStatus" = .str "ACCEPTED" →
      ∃ lane ∈ lanes, Fields.get details "lane" = .str lane
  lane : Fields.has details "lane" = true → ValidLane details
  trust : (Fields.get value "security").obj?.any fun security =>
    Fields.get security "instructionsAreUntrusted" = .bool true

theorem validateWorkRecord_eq_nil_iff {value details : Fields}
    (hdetails : Fields.get value "details" = .obj details)
    (hwork : isWorkRecord value details = true) :
    validateWorkRecord value = .ok [] ↔ ValidWork value details := by
  have hobj : (Fields.get value "details").obj? = some details := by
    rw [hdetails]
    rfl
  have hclaimable : (if (Fields.get details "coordinationState").str? = some "AVAILABLE" ∧
        (Fields.get details "proposalStatus").str? = some "ACCEPTED" then
      reportUnlessIn (Fields.get details "lane") lanes "WORK_LANE_REQUIRED" "details.lane"
        "claimable work must declare a lane"
      else .ok []) = .ok [] ↔
      (Fields.get details "coordinationState" = .str "AVAILABLE" →
        Fields.get details "proposalStatus" = .str "ACCEPTED" →
          ∃ lane ∈ lanes, Fields.get details "lane" = .str lane) := by
    rw [← and_imp, ← Json.str?_eq_some_iff, ← Json.str?_eq_some_iff]
    split
    · next h => rw [reportUnlessIn_eq_nil_iff, forall_prop_of_true h]
    · next h => simp [h]
  have hlane : (if Fields.has details "lane" = true then checkLane details else .ok []) = .ok [] ↔
      (Fields.has details "lane" = true → ValidLane details) := by
    split
    · next h => rw [checkLane_eq_nil_iff, forall_prop_of_true h]
    · next h => simp [h]
  rw [validateWorkRecord, hobj]
  simp only [hwork, Bool.not_true, Bool.false_eq_true, if_false, concatChecks_eq_nil_iff,
    List.forall_mem_cons, reportIf_eq_nil_iff, reportUnlessIn_eq_nil_iff, hclaimable, hlane,
    List.forall_mem_map]
  constructor
  · rintro ⟨hprotocol, hworkId, hstate, hevent, hboundary, hrequired, hcoordination, hclaimable,
      hlane, htrust, -⟩
    refine ⟨by simpa [Json.str?_eq_some_iff] using hprotocol, hworkId, hstate, hevent,
      by simpa [Json.str?_eq_some_iff] using hboundary, ?_, hcoordination, hclaimable, hlane,
      by simpa using htrust⟩
    simpa [List.forall_mem_cons] using hrequired
  · intro h
    refine ⟨by simp [h.protocol, Json.str?], h.workId, h.state, h.event,
      by simp [h.boundary, Json.str?], ?_, h.coordination, h.claimable, h.lane,
      by simpa using h.trust, by simp⟩
    simpa [List.forall_mem_cons] using h.required

/-! ## The record -/

theorem workId_of_check {value details : Fields} (h : checkWorkId value details = .ok []) :
    ∃ workId, recordIdOf value = .str workId ∧ Fields.get details "workId" = .str workId ∧
      Str.startsWith workId "work:" = true := by
  rw [checkWorkId_eq] at h
  cases hfilter : (Fields.get details "workId").str?.filter fun workId =>
      Str.startsWith workId "work:" && workId.length ≤ 256 with
  | none =>
      rw [hfilter] at h
      exact absurd h (by simp)
  | some workId =>
      rw [hfilter] at h
      obtain ⟨hread, hform⟩ := Option.filter_eq_some_iff.mp hfilter
      rw [Bool.and_eq_true] at hform
      refine ⟨workId, ?_, Json.str?_eq_some_iff.mp hread, hform.1⟩
      simpa [Json.str?_eq_some_iff] using h

theorem logicalId_of_recordId {value : Fields} {id : String} (h : recordIdOf value = .str id)
    (hne : id ≠ "") : logicalId value = id := by
  rw [recordIdOf] at h
  rw [logicalId]
  cases hmetadata : (Fields.get value "metadata").obj? with
  | none =>
      rw [hmetadata] at h
      cases h
  | some metadata =>
      rw [hmetadata] at h
      simp only at h ⊢
      rw [h]
      simp [Json.truthy, hne]

/-- The logical identity of a valid work record is its work identity. -/
theorem ValidWork.logicalId {value details : Fields} (h : ValidWork value details) :
    recordIdOf value = .str (logicalId value) ∧ Fields.get details "workId" = .str (logicalId value) ∧
      Str.startsWith (Protocol.logicalId value) "work:" = true := by
  obtain ⟨workId, hid, hwork, hform⟩ := workId_of_check h.workId
  have hne : workId ≠ "" := by
    rintro rfl
    exact absurd hform (by decide)
  rw [logicalId_of_recordId hid hne]
  exact ⟨hid, hwork, hform⟩

/-- What the checks of a valid record establish, apart from those of its details. -/
structure ValidEnvelope (value : Fields) : Prop where
  keys : ∀ key ∈ Fields.keys value, key ∈ recordKeys
  version : checkApiVersion value = .ok []
  digest : checkDigestForm value = .ok []
  required : ∀ key ∈ requiredRecordKeys, Fields.has value key = true
  common : commonRecordChecks value = .ok []

theorem recordDiagnostics_work_iff {value details : Fields}
    (hkind : Fields.get value "kind" = .str "WorkRequest")
    (hdetails : Fields.get value "details" = .obj details)
    (hwork : isWorkRecord value details = true) :
    recordDiagnostics value = .ok [] ↔ ValidEnvelope value ∧
      (∀ field ∈ ["objective", "requestedKind", "authorityBoundary"],
        Fields.has details field = true) ∧
      (Fields.has details "outcome" = true →
        ∃ outcome ∈ resultStatuses, Fields.get details "outcome" = .str outcome) ∧
      (Fields.has details "requestState" = true →
        ∃ state ∈ workRequestStates, Fields.get details "requestState" = .str state) ∧
      ValidWork value details := by
  have hwhen : ∀ field values code path message,
      (if Fields.has details field = true then
        reportUnlessIn (Fields.get details field) values code path message else .ok []) = .ok [] ↔
      (Fields.has details field = true → ∃ text ∈ values, Fields.get details field = .str text) := by
    intro field values code path message
    split
    · next h => rw [reportUnlessIn_eq_nil_iff, forall_prop_of_true h]
    · next h => simp [h]
  have hkindOf : recordKindOf value = some .workRequest := by
    rw [recordKindOf, hkind]
    rfl
  have hmember : ∃ kind ∈ RecordKind.all.map RecordKind.value,
      Fields.get value "kind" = .str kind := ⟨"WorkRequest", by decide, hkind⟩
  have hchecked : checkRecordDetails value details =
      checkDetails value details .workRequest ["objective", "requestedKind", "authorityBoundary"] := by
    rw [checkRecordDetails, hkindOf]
    rfl
  have hobject : checkObject (Fields.get value "details") "details" (checkRecordDetails value) =
      checkRecordDetails value details := by
    rw [checkObject, hdetails]
    rfl
  rw [recordDiagnostics, hobject, hchecked, checkDetails, checkKindDetails]
  simp only [concatChecks_eq_nil_iff, List.forall_mem_cons, List.forall_mem_map,
    reportUnlessIn_eq_nil_iff, hwhen, validateWorkRecord_eq_nil_iff hdetails hwork, checkRequired,
    reportIf_eq_nil_iff, Bool.not_eq_false', checkKeys_eq_nil_iff, List.not_mem_nil,
    false_implies, implies_true, and_true]
  constructor
  · rintro ⟨hkeys, hversion, -, hdigest, hrequired, hcommon, hfields, houtcome, hstate, hvalid⟩
    refine ⟨⟨hkeys, hversion, hdigest, ?_, hcommon⟩, hfields, houtcome, hstate, hvalid⟩
    exact fun key hkey => hrequired key hkey
  · rintro ⟨⟨hkeys, hversion, hdigest, hrequired, hcommon⟩, hfields, houtcome, hstate, hvalid⟩
    exact ⟨hkeys, hversion, hmember, hdigest, hrequired, hcommon, hfields, houtcome, hstate, hvalid⟩

/-- A work identity is not empty. -/
theorem ValidWork.named {value details : Fields} (h : ValidWork value details) :
    Protocol.logicalId value ≠ "" := by
  obtain ⟨-, -, hform⟩ := h.logicalId
  intro hempty
  rw [hempty] at hform
  exact absurd hform (by decide)

theorem identity_of_recordId {value : Fields} {id : String} (h : recordIdOf value = .str id)
    (hne : id ≠ "") (hdigest : Fields.get value "contentDigest" = .null) : identity value = id := by
  rw [recordIdOf] at h
  rw [identity, hdigest]
  cases hmetadata : (Fields.get value "metadata").obj? with
  | none =>
      rw [hmetadata] at h
      cases h
  | some metadata =>
      rw [hmetadata] at h
      simp only at h
      simp [Json.str?, h, Json.truthy, hne]

/-- The digest of a valid record that has one. -/
theorem digestOf_of_form {value : Fields} {digest : String} (h : checkDigestForm value = .ok [])
    (hdigest : Fields.get value "contentDigest" = .str digest) :
    digestOf value = digest ∧ validDigest (.str digest) = true := by
  have hvalid : validDigest (.str digest) = true := by
    rw [checkDigestForm, reportIf_eq_nil_iff, hdigest] at h
    simpa using h
  refine ⟨?_, hvalid⟩
  have hne : digest ≠ "" := by
    rintro rfl
    exact absurd hvalid (by decide)
  simp [digestOf, hdigest, Json.truthy, hne]

/-- A valid record that opts into the work protocol passes its checks. -/
theorem work_of_validateRecord {value details : Fields}
    (hdetails : Fields.get value "details" = .obj details)
    (hwork : isWorkRecord value details = true) (h : validateRecord value = .ok []) :
    Fields.get value "kind" = .str "WorkRequest" ∧ ValidWork value details := by
  have hkind : Fields.get value "kind" = .str "WorkRequest" := by
    rw [isWorkRecord, Bool.and_eq_true, decide_eq_true_eq] at hwork
    exact Json.str?_eq_some_iff.mp hwork.1
  obtain ⟨-, -, -, -, hvalid⟩ := (recordDiagnostics_work_iff hkind hdetails hwork).mp
    (validateRecord_eq_nil_iff.mp h).1
  exact ⟨hkind, hvalid⟩

/-! ### With a digest -/

/-- A digest of the right form changes nothing about a record that has none. -/
theorem recordDiagnostics_set_digest {value details : Fields} {digest : String}
    (hkind : Fields.get value "kind" = .str "WorkRequest")
    (hdetails : Fields.get value "details" = .obj details)
    (hwork : isWorkRecord value details = true) (hnone : Fields.get? value "contentDigest" = none)
    (hdigest : validDigest (.str digest) = true) :
    recordDiagnostics (Fields.set value "contentDigest" (.str digest)) = .ok [] ↔
      recordDiagnostics value = .ok [] := by
  have hget : ∀ {key}, key ≠ "contentDigest" →
      Fields.get (Fields.set value "contentDigest" (.str digest)) key = Fields.get value key := by
    intro key hkey
    rw [Fields.get, get?_set_of_ne hkey, Fields.get]
  have hhas : ∀ {key}, key ≠ "contentDigest" →
      Fields.has (Fields.set value "contentDigest" (.str digest)) key = Fields.has value key := by
    intro key hkey
    rw [Fields.has, get?_set_of_ne hkey, Fields.has]
  have hrecordId : recordIdOf (Fields.set value "contentDigest" (.str digest)) = recordIdOf value := by
    rw [recordIdOf, recordIdOf, hget (by decide)]
  have hcommon : commonRecordChecks (Fields.set value "contentDigest" (.str digest)) =
      commonRecordChecks value := by
    simp only [commonRecordChecks, hrecordId, hget (by decide : "metadata" ≠ _),
      hget (by decide : "subject" ≠ _), hget (by decide : "scope" ≠ _),
      hget (by decide : "statement" ≠ _), hget (by decide : "evidence" ≠ _),
      hget (by decide : "dependencies" ≠ _), hget (by decide : "affectedContracts" ≠ _),
      hget (by decide : "provenance" ≠ _), hget (by decide : "confidence" ≠ _),
      hget (by decide : "security" ≠ _), hget (by decide : "lifecycle" ≠ _),
      hget (by decide : "relationships" ≠ _), hget (by decide : "reproduction" ≠ _)]
  have hvalidWork : ValidWork (Fields.set value "contentDigest" (.str digest)) details ↔
      ValidWork value details := by
    have hworkId : checkWorkId (Fields.set value "contentDigest" (.str digest)) details =
        checkWorkId value details := by rw [checkWorkId_eq, hrecordId, checkWorkId_eq]
    have hevent : checkStateEvent (Fields.set value "contentDigest" (.str digest)) details =
        checkStateEvent value details := by
      rw [checkStateEvent, hget (by decide), checkStateEvent]
    constructor
    · intro h
      exact ⟨h.protocol, hworkId ▸ h.workId, h.state, hevent ▸ h.event, h.boundary, h.required,
        h.coordination, h.claimable, h.lane, (hget (by decide : "security" ≠ _)) ▸ h.trust⟩
    · intro h
      exact ⟨h.protocol, hworkId.trans h.workId, h.state, hevent.trans h.event, h.boundary,
        h.required, h.coordination, h.claimable, h.lane,
        by rw [hget (by decide : "security" ≠ _)]; exact h.trust⟩
  have henvelope : ValidEnvelope (Fields.set value "contentDigest" (.str digest)) ↔
      ValidEnvelope value := by
    have hversion : checkApiVersion (Fields.set value "contentDigest" (.str digest)) =
        checkApiVersion value := by rw [checkApiVersion, hget (by decide), checkApiVersion]
    have hrequired : ∀ key ∈ requiredRecordKeys, key ≠ "contentDigest" := by decide
    have hform : checkDigestForm value = .ok [] := by
      rw [checkDigestForm, Fields.get, hnone]
      simp
    constructor
    · intro h
      refine ⟨fun key hkey => h.keys key (Fields.mem_keys_set.mpr (.inl hkey)), hversion ▸ h.version,
        hform, fun key hkey => ?_, hcommon ▸ h.common⟩
      rw [← hhas (hrequired key hkey)]
      exact h.required key hkey
    · intro h
      refine ⟨fun key hkey => ?_, hversion.trans h.version, ?_, fun key hkey => ?_,
        hcommon.trans h.common⟩
      · rcases Fields.mem_keys_set.mp hkey with hold | rfl
        · exact h.keys key hold
        · decide
      · rw [checkDigestForm, Fields.get, Fields.get?_set, if_pos rfl]
        simpa using hdigest
      · rw [hhas (hrequired key hkey)]
        exact h.required key hkey
  have hwork' : isWorkRecord (Fields.set value "contentDigest" (.str digest)) details = true := by
    rw [isWorkRecord, hget (by decide)]
    exact hwork
  rw [recordDiagnostics_work_iff ((hget (by decide)).trans hkind)
    ((hget (by decide)).trans hdetails) hwork', henvelope, hvalidWork,
    recordDiagnostics_work_iff hkind hdetails hwork]

end MncsCommons.Protocol
