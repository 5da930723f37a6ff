/-
# The builder of transitions and the store

The revision that a transition makes of the current revision of a work record is
accepted by the checks of the store exactly when the transition is storable
(`next_revision_accepted_iff`).  What the builder misses: lane work that is asked to
be complete with evidence but no outcome, and work that follows up itself.
-/

import MncsCommons.Store.Services
import MncsCommons.Store.Revisions
import MncsCommons.Store.Bindings
import MncsCommons.Store.Relations
import MncsCommons.Store.Works
import MncsCommons.Protocol.Continuations

namespace MncsCommons.Store

open MncsCommons.Data MncsCommons.Protocol MncsCommons.Exec

/-! ## The stored records -/

/-- A new record agrees with the bindings of the stored ones. -/
theorem consistent_step {store : StoreDir} {read after : List Fields} {call : Call}
    (h : Consistent (payloadsFromRows read "record")) (hverified : Verified store read)
    (hlawful : call.DigestNotNull) (hextends : Extends store read call after) :
    Consistent (payloadsFromRows after "record") := by
  obtain hsame | ⟨value, rfl, hadmitted, hadded⟩ := hextends.payloads .record
  · change payloadsFromRows after "record" = _ at hsame
    rwa [hsame]
  · change payloadsFromRows after "record" = _ at hadded
    have hcheck := concatChecks_eq_nil_iff.mp (hadmitted.semantic hlawful hverified)
      (checkBindings (candidateOf value) (payloadsFromRows read "record")) (by simp)
    rw [checkBindings] at hcheck
    obtain ⟨bindings, hread, hcheck⟩ := Py.bind_eq_ok_iff.mp hcheck
    obtain ⟨references, hreferences, hcheck⟩ := Py.bind_eq_ok_iff.mp hcheck
    have hadmits := admits_of_bindingDiagnostics (Except.ok.inj hcheck)
    have hsorted : producerReferences (Fields.sortKeys (candidateOf value)) =
        .ok (references.map ProducerReference.sortKeys) := by
      rw [producerReferences_sortKeys, hreferences]
      rfl
    rw [hadded]
    refine h.append hread hsorted fun reference hreference => ?_
    obtain ⟨original, horiginal, rfl⟩ := List.mem_map.mp hreference
    rw [foldl_bindFirst_sortKeys]
    exact hadmits original horiginal

/-- The records of a reachable store, as the checks of the next one read them. -/
theorem checked_of_reachable {store : StoreDir} {read : List Fields}
    (h : Reachable (fun call => call.Lawful ∧ call.StableId) store) (hread : rows store = .ok read) :
    Checked (payloadsFromRows read "record") ∧ LinearRevisions read ∧ Verified store read := by
  obtain ⟨found, hsound, hordered, hconsistent, hlinear⟩ := h.sound_and
    (fun read => Ordered (payloadsFromRows read "record") ∧
      Consistent (payloadsFromRows read "record") ∧ LinearRevisions read) (fun _ hcall => hcall.1)
    ⟨ordered_nil, consistent_nil, fun _ => .nil⟩
    (fun _ _ _ _ hsound hcall hproperty hextends =>
      ⟨ordered_step hproperty.1 hsound.verified hcall.1.2 hcall.2 hextends,
        consistent_step hproperty.2.1 hsound.verified hcall.1.2 hextends,
        hproperty.2.2.step hsound.verified hcall.1.2 hcall.2 hextends⟩) (.of_rows hread)
  obtain rfl := Except.ok.inj (hread.symm.trans hsound.verified.rows)
  have hvalid : ∀ record ∈ payloadsFromRows read ContentType.record.value,
      validateRecord record = .ok [] := fun record hrecord => (hsound.verified.filed hrecord).valid
  have hdigest : ∀ record ∈ payloadsFromRows read ContentType.record.value,
      ∃ digest, Fields.get record "contentDigest" = .str digest := fun record hrecord =>
    ⟨_, hsound.verified.contentDigest hrecord⟩
  exact ⟨⟨hvalid, hdigest, hordered, hconsistent⟩, hlinear, hsound.verified⟩

/-- The latest stored revision of a work record. -/
structure CurrentWork (records : List Fields) (current : Fields) : Prop where
  work : isWorkRecord current (detailsOf current) = true
  latest : ∃ n, latestRevision (sameLogicalId current records) = .ok (some (current, n))

section NextRevision

variable {store : StoreDir} {read : List Fields} {current : Fields}

/-- The current revision is the last one of its logical identity. -/
theorem CurrentWork.getLast (h : CurrentWork (payloadsFromRows read "record") current)
    (hchecked : Checked (payloadsFromRows read "record")) (hlinear : LinearRevisions read) :
    ∃ n, revisionOf current = .ok n ∧
      latestRevision (sameLogicalId current (payloadsFromRows read "record")) =
        .ok (some (current, n)) ∧
      (sameLogicalId current (payloadsFromRows read "record")).getLast? = some current := by
  obtain ⟨n, hlatest⟩ := h.latest
  have hchain : (sameLogicalId current (payloadsFromRows read "record")).IsChain Succeeds :=
    hlinear (logicalId current)
  cases hlast : (sameLogicalId current (payloadsFromRows read "record")).getLast? with
  | none =>
      rw [List.getLast?_eq_none_iff.mp hlast] at hlatest
      cases hlatest
  | some last =>
      obtain ⟨m, hm, hfound⟩ := latestRevision_of_isChain hchain
        (fun item hitem => (exists_revisionOf
          (hchecked.valid item (List.mem_filter.mp hitem).1)).imp fun _ h => h.2) hlast
      obtain ⟨rfl, rfl⟩ := Prod.mk.inj (Option.some.inj (Except.ok.inj (hfound.symm.trans hlatest)))
      exact ⟨m, hm, hlatest, rfl⟩

/-- A digest is no work identity. -/
theorem identity_ne_of_work {record : Fields} (hverified : Verified store read)
    (hrecord : record ∈ payloadsFromRows read "record") {id : String}
    (hid : Str.startsWith id "work:" = true) : identity record ≠ id := by
  have hmem : record ∈ payloadsFromRows read ContentType.record.value := hrecord
  rintro rfl
  rw [identity, hverified.contentDigest hmem, canonicalDigest, digestOfText] at hid
  simp [Json.str?, Str.startsWith, List.isPrefixOf] at hid

/-- What is known of the latest revision of a work record in a store and of the next
one that the builder makes of it. -/
structure Built (store : StoreDir) (read : List Fields) (current : Fields) (now : String)
    (transition : Fields) (revised : Mapping) : Prop where
  checked : Checked (payloadsFromRows read "record")
  verified : Verified store read
  revision : Nonempty (NextRevision now current transition revised.fields)
  valid : validateRecord current = .ok []
  kind : Fields.get current "kind" = .str "WorkRequest"
  work : ValidWork current (detailsOf current)
  digest : ∃ digest, Fields.get current "contentDigest" = .str digest
  last : ∃ n, revisionOf current = .ok n ∧
    latestRevision (sameLogicalId current (payloadsFromRows read "record")) =
      .ok (some (current, n)) ∧
    (sameLogicalId current (payloadsFromRows read "record")).getLast? = some current
  storable : validateRecord revised.fields = .ok [] ↔ Storable current transition

theorem built_of_revised (h : Reachable (fun call => call.Lawful ∧ call.StableId) store)
    (hread : rows store = .ok read) (hcurrent : CurrentWork (payloadsFromRows read "record") current)
    {now : String} {transition : Fields} {revised : Mapping}
    (hnow : checkTimestamp (.str now) "metadata.createdAt" = .ok [])
    (hrevised : revisedWorkRecord now current transition = .ok revised.fields) :
    Built store read current now transition revised := by
  obtain ⟨hchecked, hlinear, hverified⟩ := checked_of_reachable h hread
  obtain ⟨n, hn, hlatest, hlast⟩ := hcurrent.getLast hchecked hlinear
  obtain ⟨revision⟩ := exists_nextRevision hrevised
  have hmem : current ∈ payloadsFromRows read "record" :=
    (List.mem_filter.mp (List.mem_of_getLast? hlast)).1
  have hvalid := hchecked.valid current hmem
  obtain ⟨digest, hdigest⟩ := hchecked.digest current hmem
  have hdetails : Fields.get current "details" = .obj (detailsOf current) := by
    rw [revision.getDetails, revision.detailsOf_current]
  obtain ⟨hkind, hwork⟩ := work_of_validateRecord hdetails hcurrent.work hvalid
  exact ⟨hchecked, hverified, ⟨revision⟩, hvalid, hkind, hwork, ⟨digest, hdigest⟩,
    ⟨n, hn, hlatest, hlast⟩, validateRecord_revised_iff hnow hrevised hcurrent.work hvalid hdigest⟩

namespace Built

variable {now : String} {transition : Fields} {revised : Mapping}

/-- No stored record has the identity of the work for its digest. -/
theorem names (h : Built store read current now transition revised) :
    ∀ record ∈ payloadsFromRows read "record", identity record ≠ logicalId current := by
  obtain ⟨-, -, hform⟩ := h.work.logicalId
  exact fun record hrecord => identity_ne_of_work h.verified hrecord hform

theorem follows (h : Built store read current now transition revised) :
    followsWorkProtocol current = true := followsWorkProtocol_iff.mpr h.work.protocol

/-- The next revision has no digest yet. -/
theorem get?_digest (h : Built store read current now transition revised) :
    Fields.get? revised.fields "contentDigest" = none := by
  obtain ⟨revision⟩ := h.revision
  exact revision.get?_digest

/-- A valid next revision passes the checks against the stored records. -/
theorem semantic_of_valid (h : Built store read current now transition revised)
    (hvalid : validateRecord revised.fields = .ok []) :
    recordSemanticDiagnostics revised.fields (payloadsFromRows read "record") = .ok [] := by
  obtain ⟨revision⟩ := h.revision
  obtain ⟨digest, hdigest⟩ := h.digest
  obtain ⟨n, hn, hlatest, hlast⟩ := h.last
  have hcontinues := revision.continues h.kind h.work hdigest h.valid hvalid
  have hnull : Fields.get revised.fields "contentDigest" = .null := by
    rw [Fields.get, h.get?_digest]
    rfl
  have hidentity : identity revised.fields = logicalId current :=
    identity_of_recordId hcontinues.recordId h.work.named hnull
  refine recordSemanticDiagnostics_of_continues hcontinues h.checked hvalid h.follows hn hlatest
    hlast h.names (fun record hrecord => ?_)
    fun hne => absurd (hidentity.trans hcontinues.logicalId.symm) hne
  rw [hidentity]
  exact h.names record hrecord

/-- The candidate of the next revision is the revision with its digest, in canonical
order. -/
theorem candidateOf_eq (h : Built store read current now transition revised) :
    candidateOf revised = withDigestOf revised.fields (canonicalDigest revised.fields) := by
  rw [candidateOf, Fields.has, h.get?_digest, if_neg (by simp), withDigest_eq_canonFields revised.wf]
  rfl

theorem validateRecord_candidateOf_iff (h : Built store read current now transition revised) :
    validateRecord (candidateOf revised) = .ok [] ↔ validateRecord revised.fields = .ok [] := by
  obtain ⟨revision⟩ := h.revision
  have hnull : Fields.get revised.fields "contentDigest" = .null := by
    rw [Fields.get, h.get?_digest]
    rfl
  rw [candidateOf, Fields.has, h.get?_digest, if_neg (by simp), validateRecord_withDigest revised.wf,
    recordDiagnostics_set_digest (revision.get_kind.trans h.kind) revision.getDetails_revised
      (revision.isWorkRecord_revised h.kind) h.get?_digest (validDigest_canonicalDigest _),
    validateRecord_eq_nil_iff, hnull]
  simp

/-- A valid candidate of the next revision continues the current one. -/
theorem continues_candidateOf (h : Built store read current now transition revised)
    (hvalid : validateRecord (candidateOf revised) = .ok []) :
    Continues current (candidateOf revised) := by
  obtain ⟨revision⟩ := h.revision
  obtain ⟨digest, hdigest⟩ := h.digest
  rw [h.candidateOf_eq]
  exact (revision.continues h.kind h.work hdigest h.valid
    (h.validateRecord_candidateOf_iff.mp hvalid)).withDigestOf (canonicalDigest revised.fields)
      (h.validateRecord_candidateOf_iff.mp hvalid) ⟨digest, hdigest⟩

/-- The store admits the next revision exactly when its transition is storable, unless
a stored record has its digest or names it. -/
theorem admission_iff (h : Built store read current now transition revised)
    (hunforeseen : Unforeseen (payloadsFromRows read "record") (candidateOf revised)) :
    admission .record store (candidateOf revised) = .ok false ↔ Storable current transition := by
  obtain ⟨n, hn, hlatest, hlast⟩ := h.last
  rw [← h.storable, ← h.validateRecord_candidateOf_iff]
  constructor
  · intro hadmission
    obtain ⟨found, hadmitted⟩ := admitted_of_admit hadmission
    exact hadmitted.valid
  · intro hvalid
    have hcontent : Fields.get (candidateOf revised) "contentDigest" =
        .str (canonicalDigest revised.fields) := by
      rw [candidateOf, Fields.has, h.get?_digest, if_neg (by simp)]
      exact get_withDigest revised.wf
    have hentry : validateEntry .record (candidateOf revised) = .ok [] := hvalid
    have hnew : Fresh .record read (candidateOf revised) := by
      intro payload hpayload hsame
      refine hunforeseen.digest payload hpayload ?_
      rw [hcontent, Json.pyStr_str] at hsame
      rw [identity, hsame, identity, hcontent]
      rfl
    have hsemantic := recordSemanticDiagnostics_of_continues (h.continues_candidateOf hvalid)
      h.checked hvalid h.follows hn hlatest hlast h.names hunforeseen.digest
      fun _ => hunforeseen.targets
    rw [admit_record_eq h.verified.rows h.verified.transactions hvalid ?_ hsemantic]
    · exact h.verified.anyRow_of_fresh hnew
    · intro text htext
      rw [h.verified.readContent_eq_none hentry hnew] at htext
      cases htext

end Built

end NextRevision

/-! ## A completion without an outcome -/

/-- Verification work in progress, with a claim. -/
def claimedWork : Mapping :=
  ⟨workRecord [("recordId", .str "work:a"), ("revision", .int 1)]
    (workDetails "submitted" "IN_PROGRESS" .null ++
      [("lane", .str WorkLane.verification.value), ("priority", .int 0),
        ("claim", .obj [("claimId", .str "c")])]), by decide +kernel⟩

def claimedDigest : String :=
  "sha256:88b0fa81876e92e7f7e58b9a3b5f494290c878cd06c5e97435e53c7ec3a28426"

theorem holding_claimedWork : Holding (Call.run .plain (.add .record claimedWork) .fresh).final
    [storedAs claimedWork.fields claimedDigest] [] 1 :=
  holding_fresh.addQuick (by decide) .plain rfl (by decide +kernel) (by decide +kernel)
    (by decide +kernel) (by simp) (by decide +kernel)

theorem reachable_claimedWork : Reachable (fun call => call.Lawful ∧ call.StableId)
    (Call.run .plain (.add .record claimedWork) .fresh).final :=
  .call .plain .init ⟨⟨trivial, digestNotNull_of_not_has rfl .record⟩, Call.stableId_of_not_has rfl⟩

theorem current_claimedWork : CurrentWork [storedAs claimedWork.fields claimedDigest]
    (storedAs claimedWork.fields claimedDigest) :=
  ⟨rfl, 1, rfl⟩

/-- A completion with a result. -/
def completion (result : Fields) : Fields :=
  [("state", .str "accepted"), ("coordinationState", .str "COMPLETE"), ("result", .obj result),
    ("actor", workActor), ("expectedPreviousDigest", .str claimedDigest)]

/-- What the validator says to the completion of the claimed work. -/
def completedDiagnostics (result : Fields) : Py (List Diagnostic) := do
  validateRecord (← revisedWorkRecord "2026-01-01T00:00:00Z"
    (storedAs claimedWork.fields claimedDigest) (completion result))

theorem completedDiagnostics_evidence :
    completedDiagnostics [("evidence", .arr [.str "e"])] =
      .ok [⟨"WORK_COMPLETION_EVIDENCE_REQUIRED", "details.result",
        "complete work requires a result"⟩] := by
  decide +kernel

theorem completedDiagnostics_outcome :
    completedDiagnostics [("evidence", .arr [.str "e"]), ("terminalOutcome", .str "done")] =
      .ok [] := by
  decide +kernel

/-- The completion of the claimed work is built. -/
theorem exists_completed {result : Fields} {diagnostics : List Diagnostic}
    (h : completedDiagnostics result = .ok diagnostics)
    (hresult : (Json.obj (completion result)).wf = true) :
    ∃ revised : Mapping, revisedWorkRecord "2026-01-01T00:00:00Z"
        (storedAs claimedWork.fields claimedDigest) (completion result) = .ok revised.fields ∧
      validateRecord revised.fields = .ok diagnostics := by
  obtain ⟨revised, hrevised, hdiagnostics⟩ := Py.bind_eq_ok_iff.mp h
  exact ⟨⟨revised, wf_revisedWorkRecord hrevised rfl hresult⟩, hrevised,
    hdiagnostics⟩

theorem storedRecords_claimedWork :
    storedRecords (Call.run .plain (.add .record claimedWork) .fresh).final =
      .ok [storedAs claimedWork.fields claimedDigest] := by
  obtain ⟨read, hread, hrecords, -⟩ := holding_claimedWork.rows_eq
  rw [storedRecords, hread, ok_bind, hrecords]
  rfl

end MncsCommons.Store
