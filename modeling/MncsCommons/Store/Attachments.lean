/-
# Proposals that attach

What `propose_work` does with an exact duplicate of open work.  It answers that the
proposal is attached, and adds a revision that stands as the one before, exactly when
the proposal can be attached (`attaching_pure_iff`).
-/

import MncsCommons.Store.NextRevisions
import MncsCommons.Store.ServiceRuns
import MncsCommons.Protocol.Attachments

namespace MncsCommons.Store

open MncsCommons.Data MncsCommons.Protocol MncsCommons.Exec

/-! ## The answer of an addition -/

section Addition

variable {host : Host} {value : Mapping} {store : StoreDir} {read after : List Fields}

/-- A transaction over the limit is not committed. -/
theorem result_commit_of_size {type : ContentType} {payload : Fields}
    (h : store.transactions = some []) (hread : rows store = .ok read)
    (hsize : maxTransactionBytes < (nextJournal type payload store read).byteSize) :
    (commit host type payload store).result =
      .error (.storeError "transaction exceeds bounded journal size") := by
  have hstage := stageTransaction_of_size host type payload
    (nextRow type.value payload store read) (position store read) (transactions_refreshed h) hsize
  rw [commit, Program.bind_apply, loadTail_apply hread, Run.andThen_ok, Program.bind_apply,
    ← nextRow, Run.andThen_of_error hstage.2]

/-- An admitted record that is new is added exactly when its journal is within the
limit. -/
theorem exists_addRecord_iff (hverified : Verified store read)
    (hadmission : admission .record store (candidateOf value) = .ok false) :
    (∃ added, (addRecord host value store).result = .ok added) ↔
      (nextJournal .record (candidateOf value) store read).byteSize ≤ maxTransactionBytes := by
  constructor
  · rintro ⟨added, hadded⟩
    have hcommit := commit_ok_of_add host hadded hadmission
    by_contra hlarge
    rw [result_commit_of_size hverified.transactions hverified.rows (not_le.mp hlarge)] at hcommit
    cases hcommit
  · intro hsize
    obtain ⟨found, hadmitted⟩ := admitted_of_admit hadmission
    obtain rfl := Except.ok.inj (hverified.rows.symm.trans hadmitted.rows)
    have hcommit := commit_apply host hverified.transactions hverified.rows (wf_candidateOf value)
      hsize (hverified.readContent_eq_none hadmitted.valid hadmitted.new)
    refine ⟨(candidateOf value, (Fields.get (candidateOf value) "contentDigest").pyStr), ?_⟩
    rw [addRecord, add_of_new host hadmission, hcommit]
    rfl

/-- The records after a new one is added. -/
theorem records_of_addition {added : Fields × String} (hread : rows store = .ok read)
    (hadded : (addRecord host value store).result = .ok added)
    (hnew : Fresh .record read (candidateOf value))
    (hafter : storedRecords (addRecord host value store).final = .ok after) :
    after = payloadsFromRows read "record" ++ [Fields.sortKeys (candidateOf value)] := by
  have hok : (Call.run host (.add .record value) store).result = .ok () :=
    Call.result_run_add.mpr ⟨added, hadded⟩
  obtain ⟨rows, hrows, hpayloads⟩ := Py.bind_eq_ok_iff.mp hafter
  obtain rfl := Except.ok.inj hpayloads
  rw [addRecord, ← (Call.run_add host .record value store).1] at hrows
  rw [Call.rows_run hread hok (not_not.mpr hnew)] at hrows
  have hfits := fits_of_rows_appendLedger hread hrows
  have happended := rows_appendLedger_of_fits hread (wf_nextRow (wf_candidateOf value)) hfits
  obtain rfl := Except.ok.inj (happended.symm.trans hrows)
  rw [payloadsFromRows_append, nextRow, payloadsFromRows_makeLedgerRow]
  rfl

end Addition

/-! ## The answer of a transition -/

section Transition

variable {host : Host} {now uuid workId : String} {transition : Mapping} {store : StoreDir}
  {status : WorkProjection}

/-- What is left of a transition once the status of the work is read. -/
def transitionRest (host : Host) (now workId : String) (status : WorkProjection)
    (transition : Mapping) : StoreM Acknowledgement := do
  let revised ← Program.lift
    (revisedWorkRecord now status.current transition.fields >>= Mapping.of)
  Program.step (Others.none 0)
  let added ← Program.handle (addRecord host revised) fun error =>
    Program.raise (transitionError error)
  return { storedAnswer added with workId }

theorem transitionWork_apply
    (hstatus : (storedRecords store >>= fun records => projectWorkHistory records workId) =
      .ok status) :
    transitionWork host Others.none now workId transition store =
      transitionRest host now workId status transition store := by
  rw [transitionWork, Program.bind_apply, fromRecords_apply, hstatus, Run.andThen_ok]
  rfl

/-- What a transition does with the revision it builds. -/
theorem transitionRest_apply {revised : Mapping}
    (hrevised : revisedWorkRecord now status.current transition.fields = .ok revised.fields) :
    (transitionRest host now workId status transition store).final =
        (addRecord host revised store).final ∧
      ((∃ answer, (transitionRest host now workId status transition store).result = .ok answer) ↔
        ∃ added, (addRecord host revised store).result = .ok added) := by
  have hof : (revisedWorkRecord now status.current transition.fields >>= Mapping.of) =
      .ok revised := by
    rw [hrevised, ok_bind, Mapping.of_of_wf revised.wf]
  rw [transitionRest, Program.bind_apply, Program.lift_apply, hof, Run.andThen_ok,
    Program.bind_apply, Program.step_apply, Run.andThen_ok, Program.bind_apply, Others.none]
  cases hadded : (addRecord host revised store).result with
  | ok added =>
      rw [Program.handle_of_ok hadded, Run.andThen_of_ok hadded]
      exact ⟨rfl, fun _ => ⟨added, rfl⟩, fun _ => ⟨_, rfl⟩⟩
  | error error =>
      rw [Program.handle_of_error hadded, Run.andThen_of_error rfl]
      refine ⟨rfl, ?_⟩
      constructor
      · rintro ⟨answer, hanswer⟩
        cases hanswer
      · rintro ⟨added, hadded⟩
        cases hadded

/-- A transition of work that is there returns exactly when a revision is built and
added. -/
theorem transitionWork_iff
    (hstatus : (storedRecords store >>= fun records => projectWorkHistory records workId) =
      .ok status) :
    (∃ answer, (transitionWork host Others.none now workId transition store).result = .ok answer) ↔
      ∃ revised : Mapping, revisedWorkRecord now status.current transition.fields =
          .ok revised.fields ∧
        ∃ added, (addRecord host revised store).result = .ok added := by
  rw [transitionWork_apply hstatus]
  constructor
  · rintro ⟨answer, hanswer⟩
    obtain ⟨revised, hof, -⟩ := Run.andThen_result_eq_ok_iff.mp hanswer
    obtain ⟨fields, hfields, hmapping⟩ := Py.bind_eq_ok_iff.mp hof
    have hrevised : revisedWorkRecord now status.current transition.fields =
        .ok revised.fields := by
      rw [hfields, Mapping.of_eq_ok hmapping]
    exact ⟨revised, hrevised, (transitionRest_apply hrevised).2.mp ⟨answer, hanswer⟩⟩
  · rintro ⟨revised, hrevised, hadded⟩
    exact (transitionRest_apply hrevised).2.mpr hadded

end Transition

/-! ## Proposals that attach -/

/-- A proposal is attached to work: the answer says so, and what is added after the
stored records is a revision that stands as the current one. -/
def Attaches (host : Host) (lower : String → String) (now uuid : String) (proposal : Mapping)
    (store : StoreDir) (records : List Fields) (current transition : Fields) : Prop :=
  ∃ answer, (proposeWork host Others.none lower now uuid proposal store).result = .ok answer ∧
    answer.proposal = "ATTACHED" ∧
    ∃ revised : Mapping, revisedWorkRecord now current transition = .ok revised.fields ∧
      SameStanding current revised.fields ∧
      ∀ after, storedRecords (proposeWork host Others.none lower now uuid proposal store).final =
        .ok after → after = records ++ [Fields.sortKeys (candidateOf revised)]

/-- A transition of an actor can be attached to work in a store: to the record, and the
transaction of the next revision is within the limit. -/
structure CanAttach (store : StoreDir) (read : List Fields) (now : String)
    (current transition : Fields) : Prop where
  actor : ∃ actor, readActor (Fields.get transition "actor") "actor" = .ok actor
  attachable : Attachable current transition
  bounded : ∀ revised : Mapping, revisedWorkRecord now current transition = .ok revised.fields →
    (nextJournal .record (candidateOf revised) store read).byteSize ≤ maxTransactionBytes

section Attach

variable {host : Host} {lower : String → String} {now uuid workId : String} {proposal : Mapping}
  {store : StoreDir} {read after : List Fields} {work : List WorkProjection} {transition : Fields}

/-- The transition of an attachment, and the work that it is for. -/
theorem attached_of_classify {records : List Fields} (hwork : listWork records [] [] [] = .ok work)
    (hwf : ∀ record ∈ records, (Json.obj record).wf = true)
    (h : classifyProposal lower work proposal.fields = .ok (.attach workId transition)) :
    ∃ status : WorkProjection, projectWorkHistory records workId = .ok status ∧
      openCoordinationStates.contains status.coordinationState = true ∧
      (Json.obj transition).wf = true ∧
      Fields.has transition "attachments" = true ∧
      (∀ key ∈ ["state", "coordinationState", "claim", "followOnRequests"],
        Fields.get? transition key = none) ∧
      (Fields.get transition "expectedPreviousDigest").str? = some (digestOf status.current) := by
  obtain ⟨candidate, reasons, duplicate, hopen, rfl, hcandidate, hattach⟩ := attach_of_classify h
  obtain ⟨hmem, hstate⟩ := List.mem_filter.mp hopen
  have hproject := project_of_listWork hwork hmem
  obtain ⟨hrecord, -⟩ := mem_of_projectWorkHistory hproject
  have hcurrent : (Json.obj (detailsOf duplicate.current)).wf = true := by
    rw [detailsOf]
    cases hdetails : (Fields.get duplicate.current "details").obj? with
    | none => rfl
    | some details =>
        have hget := Json.wf_get (hwf _ hrecord) "details"
        rwa [Json.obj?_eq_some_iff.mp hdetails] at hget
  refine ⟨duplicate, hproject, hstate, wf_attachTransition hattach
    (wf_withCanonicalRepository hcandidate (wf_proposalCandidate proposal.wf)) hcurrent, ?_⟩
  obtain ⟨attachments, capability, -, -, rfl⟩ := attachTransition_eq hattach
  refine ⟨rfl, ?_, ?_⟩
  · have hkeys : ∀ key ∈ ["state", "coordinationState", "claim", "followOnRequests"],
        key ∉ ["actor", "expectedPreviousDigest", "attachments", "reason"] := by
      decide
    exact fun key hkey => Fields.get?_eq_none_iff.mpr (hkeys key hkey)
  · rw [← (currentDigest_of_project hproject).2.2]
    rfl

/-- A proposal that is classified as an attachment does what its transition does. -/
theorem proposeWork_attach {records : List Fields} {transition : Mapping}
    (hrecords : storedRecords store = .ok records) (hwork : listWork records [] [] [] = .ok work)
    (h : classifyProposal lower work proposal.fields = .ok (.attach workId transition.fields)) :
    (proposeWork host Others.none lower now uuid proposal store).final =
        (transitionWork host Others.none now workId transition store).final ∧
      (proposeWork host Others.none lower now uuid proposal store).result =
        (transitionWork host Others.none now workId transition store).result.map
          fun attached => ⟨"ATTACHED", attached⟩ := by
  have hafter : Others.none.after 1 = Others.none := rfl
  have hstep : Others.none 0 store = store := rfl
  rw [proposeWork, Program.bind_apply, fromRecords_apply, hrecords, ok_bind, hwork, Run.andThen_ok,
    Program.bind_apply, Program.lift_apply, h, Run.andThen_ok, Program.bind_apply,
    Program.step_apply, Run.andThen_ok, writeProposal, Program.bind_apply, Program.lift_apply,
    Mapping.of_of_wf transition.wf, Run.andThen_ok, hafter, hstep, Program.bind_apply]
  cases hresult : (transitionWork host Others.none now workId transition store).result with
  | ok attached =>
      rw [Run.andThen_of_ok hresult]
      exact ⟨rfl, rfl⟩
  | error error =>
      rw [Run.andThen_of_error hresult]
      exact ⟨rfl, rfl⟩

/-- It answers exactly when a revision is built and added, and leaves what the addition
leaves. -/
theorem proposeWork_iff {records : List Fields} {transition : Mapping} {status : WorkProjection}
    (hrecords : storedRecords store = .ok records) (hwork : listWork records [] [] [] = .ok work)
    (h : classifyProposal lower work proposal.fields = .ok (.attach workId transition.fields))
    (hstatus : projectWorkHistory records workId = .ok status) :
    ((∃ answer, (proposeWork host Others.none lower now uuid proposal store).result = .ok answer) ↔
      ∃ revised : Mapping, revisedWorkRecord now status.current transition.fields =
          .ok revised.fields ∧ ∃ added, (addRecord host revised store).result = .ok added) ∧
    (∀ answer, (proposeWork host Others.none lower now uuid proposal store).result = .ok answer →
      answer.proposal = "ATTACHED") ∧
    ∀ revised : Mapping, revisedWorkRecord now status.current transition.fields =
        .ok revised.fields →
      (proposeWork host Others.none lower now uuid proposal store).final =
        (addRecord host revised store).final := by
  have hread : (storedRecords store >>= fun records => projectWorkHistory records workId) =
      .ok status := by
    rw [hrecords, ok_bind, hstatus]
  obtain ⟨hfinal, hresult⟩ := @proposeWork_attach host lower now uuid workId proposal store work _
    transition hrecords hwork h
  rw [hfinal, hresult, ← transitionWork_iff hread]
  refine ⟨?_, ?_, fun revised hrevised => ?_⟩
  · cases (transitionWork host Others.none now workId transition store).result with
    | ok attached => exact ⟨fun _ => ⟨attached, rfl⟩, fun _ => ⟨_, rfl⟩⟩
    | error error =>
        constructor
        · rintro ⟨answer, hanswer⟩
          cases hanswer
        · rintro ⟨answer, hanswer⟩
          cases hanswer
  · intro answer hanswer
    obtain ⟨attached, -, rfl⟩ := map_eq_ok_iff.mp hanswer
    rfl
  · rw [transitionWork_apply hread]
    exact (transitionRest_apply hrevised).1

/-- A proposal is attached without a change of standing exactly when it can be
attached. -/
theorem attaches_iff (h : Reachable (fun call => call.Lawful ∧ call.StableId) store)
    (hread : rows store = .ok read) (hnow : checkTimestamp (.str now) "metadata.createdAt" = .ok [])
    (hwork : listWork (payloadsFromRows read "record") [] [] [] = .ok work)
    (hclassified : classifyProposal lower work proposal.fields = .ok (.attach workId transition))
    {status : WorkProjection}
    (hstatus : projectWorkHistory (payloadsFromRows read "record") workId = .ok status)
    (hcurrent : CurrentWork (payloadsFromRows read "record") status.current)
    (hunforeseen : ∀ revised : Mapping, revisedWorkRecord now status.current transition =
      .ok revised.fields → Unforeseen (payloadsFromRows read "record") (candidateOf revised)) :
    Attaches host lower now uuid proposal store (payloadsFromRows read "record") status.current
      transition ↔ CanAttach store read now status.current transition := by
  obtain ⟨hchecked, hlinear, hverified⟩ := checked_of_reachable h hread
  have hrecords : storedRecords store = .ok (payloadsFromRows read "record") := by
    rw [storedRecords, hread]
    rfl
  have hwfRecord : ∀ record ∈ payloadsFromRows read "record", (Json.obj record).wf = true :=
    fun record hrecord => wf_of_payloadsFromRows hread hrecord
  obtain ⟨found, hfound, hopen, hwf, hattachments, hkeeps, hexpected⟩ :=
    attached_of_classify hwork hwfRecord hclassified
  obtain rfl := Except.ok.inj (hfound.symm.trans hstatus)
  obtain ⟨fields, rfl⟩ : ∃ mapping : Mapping, mapping.fields = transition :=
    ⟨⟨transition, hwf⟩, rfl⟩
  obtain ⟨hanswers, hattached, hfinal⟩ := @proposeWork_iff host lower now uuid workId proposal store
    work _ fields found hrecords hwork hclassified hstatus
  obtain ⟨hrecord, -⟩ := mem_of_projectWorkHistory hstatus
  have hvalid := hchecked.valid _ hrecord
  have hstorable : Storable found.current fields.fields := by
    refine ⟨fun _ hasked => ?_, ?_⟩
    · rw [askedCoordination, hkeeps "coordinationState" (by decide)] at hasked
      cases hasked
    · rw [followOnsOf, Fields.get, hkeeps "followOnRequests" (by decide)]
      exact List.not_mem_nil
  -- a revision that is built is added exactly when its transaction is within the limit
  have hadds : ∀ revised : Mapping, revisedWorkRecord now found.current fields.fields =
      .ok revised.fields → ((∃ added, (addRecord host revised store).result = .ok added) ↔
        (nextJournal .record (candidateOf revised) store read).byteSize ≤ maxTransactionBytes) ∧
      Admitted .record store read (candidateOf revised) := by
    intro revised hrevised
    have hadmission := (built_of_revised h hread hcurrent hnow hrevised).admission_iff
      (hunforeseen revised hrevised) |>.mpr hstorable
    obtain ⟨found, hadmitted⟩ := admitted_of_admit hadmission
    obtain rfl := Except.ok.inj (hread.symm.trans hadmitted.rows)
    exact ⟨exists_addRecord_iff hverified hadmission, hadmitted⟩
  constructor
  · rintro ⟨answer, hanswer, -, revised, hrevised, hsame, -⟩
    obtain ⟨revision⟩ := exists_nextRevision hrevised
    have honly : OnlyAttaches found.current fields.fields :=
      ⟨hattachments, fun key hkey => hkeeps key (by
        simp only [List.mem_cons] at hkey ⊢
        tauto), ⟨_, revision.readActor⟩, hexpected⟩
    refine ⟨⟨_, revision.readActor⟩,
      attachable_of_attached hvalid hcurrent.work honly hrevised hsame, fun other hother => ?_⟩
    obtain ⟨built, hbuilt, hadded⟩ := hanswers.mp ⟨answer, hanswer⟩
    have hsameFields : built.fields = other.fields := Except.ok.inj (hbuilt.symm.trans hother)
    obtain rfl : built = other := by
      cases built
      cases other
      cases hsameFields
      rfl
    exact (hadds _ hother).1.mp hadded
  · intro hcan
    have honly : OnlyAttaches found.current fields.fields :=
      ⟨hattachments, fun key hkey => hkeeps key (by
        simp only [List.mem_cons] at hkey ⊢
        tauto), hcan.actor, hexpected⟩
    obtain ⟨-, hcoordination, -⟩ := currentDigest_of_project hstatus
    obtain ⟨revised, hrevised, hsame⟩ := exists_attached_standing hvalid hcurrent.work
      (not_ended_of_aligned hcan.attachable.aligned hcoordination hopen) honly hcan.attachable now
    obtain ⟨mapping, rfl⟩ : ∃ mapping : Mapping, mapping.fields = revised :=
      ⟨⟨revised, wf_revisedWorkRecord hrevised (hwfRecord _ hrecord) fields.wf⟩, rfl⟩
    obtain ⟨hbounded, hadmitted⟩ := hadds mapping hrevised
    obtain ⟨added, hadded⟩ := hbounded.mpr (hcan.bounded mapping hrevised)
    obtain ⟨answer, hanswer⟩ := hanswers.mpr ⟨mapping, hrevised, added, hadded⟩
    refine ⟨answer, hanswer, hattached answer hanswer, mapping, hrevised, hsame,
      fun after hafter => ?_⟩
    rw [hfinal mapping hrevised] at hafter
    exact records_of_addition hread hadded hadmitted.new hafter

end Attach

/-! ## A proposal for a capability -/

deriving instance DecidableEq for WorkRevision, WorkProjection, ProposalOutcome

/-- Submitted work for a capability. -/
def capableWork : Mapping :=
  ⟨workRecord [("recordId", .str "work:a"), ("revision", .int 1)]
    (workDetails "submitted" "AVAILABLE" .null ++
      [("capability", .str "parser.core"), ("repository", .str "mncs-language")]),
    by decide +kernel⟩

def capableDigest : String :=
  "sha256:f3872cf9aa94ab974705e149dfb68956548e6dff30a4309e7bc81881fa6f4d53"

/-- A proposal for the capability. -/
def capabilityProposal : Mapping :=
  ⟨[("lane", .str "VERIFICATION"), ("repository", .str "mncs-language"), ("source", .str "scan"),
    ("evidenceLinks", .arr [.str "e"]), ("capability", .str "parser.core"),
    ("submittingConsumer", workActor)], rfl⟩

/-- The transition that attaches it to a revision of the work. -/
def capabilityAttachment (digest : String) : Fields :=
  [("actor", workActor), ("expectedPreviousDigest", .str digest),
    ("attachments", .arr [.obj [("type", .str "proposal-attachment"), ("consumer", workActor),
      ("evidenceLinks", .arr [.str "e"]), ("dependencies", .arr []),
      ("capability", .str "parser.core"), ("source", .str "scan")]]),
    ("reason", .str "proposal attached to an existing bounded opportunity")]

/-- What is stored of the work. -/
def capableRecord : Fields :=
  [("affectedContracts", .arr []), ("apiVersion", .str "commons.mncs.dev/v0alpha1"),
    ("confidence", .obj [("level", .str "low"), ("rationale", .str "r")]),
    ("contentDigest", .str capableDigest), ("dependencies", .arr []),
    ("details", .obj [("authorityBoundary", .str workAuthorityBoundary),
      ("capability", .str "parser.core"), ("constraints", .arr []),
      ("coordinationState", .str "AVAILABLE"), ("objective", .str "o"), ("project", .obj []),
      ("repository", .str "mncs-language"), ("requestedKind", .str "WorkExecution"),
      ("state", .str "submitted"),
      ("stateEvent", .obj [("actor", .obj [("id", .str "a"), ("type", .str "agent")]),
        ("from", .null), ("to", .str "submitted")]),
      ("submittingConsumer", .obj [("id", .str "a"), ("type", .str "agent")]),
      ("workId", .str "work:a"), ("workProtocol", .str workProtocol)]),
    ("evidence", .arr []), ("kind", .str "WorkRequest"),
    ("lifecycle", .obj [("initialState", .str "proposed")]),
    ("metadata", .obj [("author", .obj [("id", .str "a"), ("type", .str "agent")]),
      ("createdAt", .str "2026-01-01T00:00:00Z"), ("recordId", .str "work:a"),
      ("revision", .int 1)]),
    ("provenance", .obj [("producer", .obj [("id", .str "i"), ("type", .str "t")])]),
    ("relationships", .arr []), ("scope", .obj []),
    ("security", .obj [("executableAttachments", .bool false),
      ("instructionsAreUntrusted", .bool true), ("sensitivity", .str "public")]),
    ("statement", .obj [("summary", .str "s")]),
    ("subject", .obj [("identity", .str "i"), ("type", .str "t")])]

theorem storedAs_capableWork : storedAs capableWork.fields capableDigest = capableRecord := by
  decide +kernel

/-- The status of the work. -/
def capableStatus : WorkProjection :=
  { workId := "work:a", state := "submitted", coordinationState := "AVAILABLE", lane := .null,
    currentDigest := capableDigest, current := capableRecord,
    history := [⟨1, capableDigest, Fields.get (metadataOf capableRecord) "createdAt", "submitted",
      Fields.get (detailsOf capableRecord) "stateEvent"⟩] }

/-- What the attachment makes of the work. -/
def attachedRecord : Fields :=
  [("affectedContracts", .arr []), ("apiVersion", .str "commons.mncs.dev/v0alpha1"),
    ("confidence", .obj [("level", .str "low"), ("rationale", .str "r")]),
    ("dependencies", .arr []),
    ("details", .obj [("authorityBoundary", .str workAuthorityBoundary),
      ("capability", .str "parser.core"), ("constraints", .arr []),
      ("coordinationState", .str "AVAILABLE"), ("objective", .str "o"), ("project", .obj []),
      ("repository", .str "mncs-language"), ("requestedKind", .str "WorkExecution"),
      ("state", .str "submitted"),
      ("stateEvent", .obj [("from", .str "submitted"), ("to", .str "submitted"),
        ("actor", workActor),
        ("reason", .str "proposal attached to an existing bounded opportunity")]),
      ("submittingConsumer", .obj [("id", .str "a"), ("type", .str "agent")]),
      ("workId", .str "work:a"), ("workProtocol", .str workProtocol), ("requestState", .str "open"),
      ("attachments", .arr [.obj [("type", .str "proposal-attachment"), ("consumer", workActor),
        ("evidenceLinks", .arr [.str "e"]), ("dependencies", .arr []),
        ("capability", .str "parser.core"), ("source", .str "scan")]]),
      ("routing", .obj [])]),
    ("evidence", .arr []), ("kind", .str "WorkRequest"),
    ("lifecycle", .obj [("initialState", .str "proposed")]),
    ("metadata", .obj [("author", workActor), ("createdAt", .str "2026-01-01T00:00:00Z"),
      ("recordId", .str "work:a"), ("revision", .int 2), ("previousDigest", .str capableDigest)]),
    ("provenance", .obj [("producer", .obj [("id", .str "i"), ("type", .str "t")])]),
    ("relationships", .arr []), ("scope", .obj []),
    ("security", .obj [("executableAttachments", .bool false),
      ("instructionsAreUntrusted", .bool true), ("sensitivity", .str "public")]),
    ("statement", .obj [("summary", .str "s")]),
    ("subject", .obj [("identity", .str "i"), ("type", .str "t")])]

theorem revised_capableRecord : revisedWorkRecord "2026-01-01T00:00:00Z" capableRecord
    (capabilityAttachment capableDigest) = .ok attachedRecord := by
  decide +kernel

def attachedWork : Mapping :=
  ⟨attachedRecord, wf_revisedWorkRecord revised_capableRecord (by decide +kernel)
    (by decide +kernel)⟩

def attachedDigest : String :=
  "sha256:ce8558ae3f2ff4a7d0b870e4e30aaed82e9950979365a4962e43cabb40c31faa"

theorem canonicalDigest_attachedRecord : canonicalDigest attachedRecord = attachedDigest := by
  rw [canonicalDigest_eq_quickDigest]
  decide +kernel

theorem unforeseen_attachedRecord :
    Unforeseen [capableRecord] (withDigestOf attachedRecord attachedDigest) := by
  have hidentity : identity (withDigestOf attachedRecord attachedDigest) = attachedDigest := by
    decide +kernel
  have hdigest : identity capableRecord ≠ attachedDigest := by decide +kernel
  have hown : attachedDigest ∉ targetsOf (withDigestOf attachedRecord attachedDigest) := by
    decide +kernel
  have htargets : attachedDigest ∉ targetsOf capableRecord := by decide +kernel
  rw [← hidentity] at hdigest hown htargets
  exact ⟨List.forall_mem_singleton.mpr hdigest,
    List.forall_mem_cons.mpr ⟨hown, List.forall_mem_singleton.mpr htargets⟩⟩

theorem size_attachedRecord : (Json.obj attachedRecord).size ≤ 2000 := by
  rw [Json.size_eq_byteSize_quickRender]
  decide +kernel

theorem holding_capableWork : Holding
    (Call.run .plain (.add .record capableWork) .fresh).final [capableRecord] [] 1 := by
  rw [← storedAs_capableWork]
  exact holding_fresh.addQuick (by decide) .plain rfl (by decide +kernel) (by decide +kernel)
    (by decide +kernel) (by simp) (by
      rw [storedAs_capableWork]
      decide +kernel)

theorem reachable_capableWork :
    Reachable (fun call => call.Lawful ∧ call.StableId)
      (Call.run .plain (.add .record capableWork) .fresh).final :=
  .call .plain .init ⟨⟨trivial, digestNotNull_of_not_has rfl .record⟩, Call.stableId_of_not_has rfl⟩

theorem onlyAttaches_capability {current : Fields} {digest : String}
    (h : digestOf current = digest) : OnlyAttaches current (capabilityAttachment digest) := by
  refine ⟨rfl, ?_, ?_, ?_⟩
  · have hkeys : ∀ key ∈ ["state", "coordinationState", "claim"],
        key ∉ ["actor", "expectedPreviousDigest", "attachments", "reason"] := by
      decide
    exact fun key hkey => Fields.get?_eq_none_iff.mpr (hkeys key hkey)
  · have hactor : readActor workActor "actor" = .ok ⟨"agent", "a"⟩ := by decide +kernel
    exact ⟨_, hactor⟩
  · rw [h]
    rfl

theorem attachable_capableRecord :
    Attachable capableRecord (capabilityAttachment capableDigest) := by
  refine ⟨⟨"submitted", "AVAILABLE", by decide +kernel, by decide +kernel, rfl⟩, ?_,
    ⟨by decide +kernel, ?_, ?_, ?_⟩⟩
  · intro hblocked
    have hstate : Fields.get (detailsOf capableRecord) "state" ≠ .str "blocked" := by decide +kernel
    exact absurd hblocked hstate
  · exact exists_of_isOk (by decide +kernel)
  · exact exists_of_isOk (by decide +kernel)
  · intro value hvalue
    have hnone : Fields.get? (capabilityAttachment capableDigest) "blockers" = none := rfl
    rw [hnone] at hvalue
    cases hvalue

end MncsCommons.Store
