/-
# Acknowledged submissions

A submission of work that is stored already is acknowledged as a duplicate when it
agrees with the first revision in the compared fields.  They are fewer than the
fields that the protocol keeps, so a submission can be acknowledged that asks for
something else.
-/

import MncsCommons.Store.Services
import MncsCommons.Protocol.Classification
import MncsCommons.Store.Limits
import MncsCommons.Store.Room

namespace MncsCommons.Store

open MncsCommons.Data MncsCommons.Protocol MncsCommons.Exec

theorem fromRecords_apply {α : Type} (compute : List Fields → Py α) (store : StoreDir) :
    fromRecords compute store = ⟨[], store, storedRecords store >>= compute⟩ := rfl

/-- The acknowledgement of a duplicate, with the status of the work. -/
def duplicateAnswer (record : Fields) (status : WorkProjection) : Acknowledgement where
  workId := (Fields.get (detailsOf record) "workId").pyStr
  state := .str status.state
  currentDigest := status.currentDigest
  duplicate := true
  executionAccepted := status.history.any fun revision => revision.state = "accepted"

/-- The status of the work of a record. -/
def statusOf (record : Fields) (store : StoreDir) : Py WorkProjection :=
  storedRecords store >>= fun records =>
    projectWorkHistory records (Fields.get (detailsOf record) "workId").pyStr

theorem duplicateAck_eq_ok_iff {record prior : Fields} {store : StoreDir}
    {answer : Acknowledgement} :
    (duplicateAck record prior store).result = .ok answer ↔
      ((Fields.get prior "details").obj?.any fun details =>
        agreeIn comparedFields details (detailsOf record)) = true ∧
      ∃ status, statusOf record store = .ok status ∧ answer = duplicateAnswer record status := by
  rw [duplicateAck, Program.bind_apply, Run.andThen_result_eq_ok_iff]
  simp only [Program.lift_apply, raiseIf_eq_ok_iff, Bool.not_eq_false']
  constructor
  · rintro ⟨_, hagrees, h⟩
    rw [Program.bind_apply, Run.andThen_result_eq_ok_iff] at h
    obtain ⟨status, hstatus, h⟩ := h
    exact ⟨hagrees, status, hstatus, (Except.ok.inj h).symm⟩
  · rintro ⟨hagrees, status, hstatus, rfl⟩
    refine ⟨(), hagrees, ?_⟩
    rw [Program.bind_apply, Run.andThen_result_eq_ok_iff]
    exact ⟨status, hstatus, rfl⟩

theorem final_duplicateAck (record prior : Fields) (store : StoreDir) :
    (duplicateAck record prior store).final = store := by
  rw [duplicateAck, Program.bind_apply, Program.lift_apply, Run.andThen]
  split
  · rfl
  · dsimp only
    rw [Program.bind_apply, fromRecords_apply, Run.andThen]
    split <;> rfl

section AddSubmission

variable {host : Host} {others : Others} {workId : String} {record : Mapping} {store : StoreDir}

theorem addSubmission_of_ok {added : Fields × String}
    (h : (addRecord host record store).result = .ok added) :
    (addSubmission host others workId record store).result = .ok (storedAnswer added) ∧
      (addSubmission host others workId record store).final = (addRecord host record store).final := by
  have hrun : (do return storedAnswer (← addRecord host record) : StoreM Acknowledgement) store =
      ⟨(addRecord host record store).trace ++ [], (addRecord host record store).final,
        .ok (storedAnswer added)⟩ :=
    Run.andThen_of_ok h _
  rw [addSubmission, Program.handle_of_ok (congrArg Run.result hrun), hrun]
  exact ⟨rfl, rfl⟩

theorem addSubmission_of_error {error : PyError}
    (h : (addRecord host record store).result = .error error) :
    (addSubmission host others workId record store).result =
        (afterError others workId record error (addRecord host record store).final).result ∧
      (addSubmission host others workId record store).final =
        (afterError others workId record error (addRecord host record store).final).final := by
  have hrun : (do return storedAnswer (← addRecord host record) : StoreM Acknowledgement) store =
      ⟨(addRecord host record store).trace, (addRecord host record store).final, .error error⟩ :=
    Run.andThen_of_error h _
  rw [addSubmission, Program.handle_of_error (congrArg Run.result hrun), hrun]
  exact ⟨rfl, rfl⟩

end AddSubmission

/-- What a submission reads as the record it is about. -/
def submittedRecord (now uuid : String) (request : Mapping) : Py Mapping :=
  newWorkRecord now uuid request.fields >>= Mapping.of

/-- The identity of the work of a record. -/
def workIdOf (record : Fields) : String := (Fields.get (detailsOf record) "workId").pyStr

/-- The first stored revision of the work in a store. -/
def priorIn (store : StoreDir) (workId : String) : Py (Option Fields) :=
  storedRecords store >>= priorSubmission workId

/-- The addition of a record of which nothing was stored when the submission looked. -/
def additionRun (host : Host) (others : Others) (record : Mapping) (store : StoreDir) :
    Run StoreDir PyError (Fields × String) :=
  addRecord host record (others 0 store)

/-- The submission finds the first revision of the work, at once or after it lost the
race to another writer, and reads the status of the work in the store `seen`. -/
inductive Finds (host : Host) (others : Others) (record : Mapping) (store : StoreDir) :
    Fields → StoreDir → Prop
  | atOnce {prior : Fields} (h : priorIn store (workIdOf record.fields) = .ok (some prior)) :
      Finds host others record store prior (others 0 store)
  | afterRejection {prior : Fields} {message : String}
      (h : priorIn store (workIdOf record.fields) = .ok none)
      (hrejected : (additionRun host others record store).result = .error (.storeError message))
      (hprior : priorIn (others 1 (additionRun host others record store).final)
        (workIdOf record.fields) = .ok (some prior)) :
      Finds host others record store prior
        (others 2 (others 1 (additionRun host others record store).final))

section Submissions

variable {host : Host} {others : Others} {now uuid : String} {request : Mapping}
  {store : StoreDir} {record : Mapping}

/-- A submission that finds the first revision answers what the comparison with it
does, and ends where it read the status. -/
theorem Finds.run {prior : Fields} {seen : StoreDir}
    (h : Finds host others record store prior seen)
    (hrecord : submittedRecord now uuid request = .ok record) :
    (submitWork host others now uuid request store).result =
        (duplicateAck record.fields prior seen).result ∧
      (submitWork host others now uuid request store).final = seen := by
  rw [submittedRecord] at hrecord
  cases h with
  | atOnce h =>
      rw [priorIn, workIdOf] at h
      simp only [submitWork, Program.bind_apply, Program.lift_apply, hrecord, Run.andThen_ok,
        fromRecords_apply, h, Program.step_apply]
      exact ⟨trivial, final_duplicateAck _ _ _⟩
  | @afterRejection message h hrejected hprior =>
      rw [priorIn, workIdOf] at h
      rw [priorIn, workIdOf] at hprior
      rw [additionRun] at hrejected hprior ⊢
      simp only [submitWork, Program.bind_apply, Program.lift_apply, hrecord, Run.andThen_ok,
        fromRecords_apply, h, Program.step_apply]
      obtain ⟨hresult, hfinal⟩ := @addSubmission_of_error host (others.after 1) (workIdOf record.fields)
        record (others 0 store) _ hrejected
      rw [workIdOf, afterError] at hresult hfinal
      rw [hresult, hfinal]
      simp only [Program.bind_apply, Program.step_apply, Run.andThen_ok, fromRecords_apply,
        Others.after, Nat.add_zero, hprior]
      exact ⟨trivial, final_duplicateAck _ _ _⟩

/-- A submission that is answered finds the first revision or adds its record. -/
theorem answered_cases {answer : Acknowledgement}
    (h : (submitWork host others now uuid request store).result = .ok answer) :
    ∃ record, submittedRecord now uuid request = .ok record ∧
      ((∃ prior seen, Finds host others record store prior seen) ∨
        ∃ added, (additionRun host others record store).result = .ok added ∧
          answer = storedAnswer added ∧
          (submitWork host others now uuid request store).final =
            (additionRun host others record store).final) := by
  rw [submitWork, Program.bind_apply, Run.andThen_result_eq_ok_iff] at h
  obtain ⟨record, hrecord, h⟩ := h
  refine ⟨record, hrecord, ?_⟩
  rw [Program.bind_apply, Run.andThen_result_eq_ok_iff] at h
  obtain ⟨prior, hprior, h⟩ := h
  have hprior : priorIn store (workIdOf record.fields) = .ok prior := hprior
  cases prior with
  | some prior => exact .inl ⟨prior, _, .atOnce hprior⟩
  | none =>
      simp only [Program.bind_apply, Program.step_apply, Run.andThen_ok] at h
      change (addSubmission host (others.after 1) _ record (others 0 store)).result = _ at h
      cases hadd : (additionRun host others record store).result with
      | ok added =>
          have hstored := @addSubmission_of_ok host (others.after 1) (workIdOf record.fields) record
            (others 0 store) added hadd
          refine .inr ⟨added, rfl, Except.ok.inj (h.symm.trans hstored.1), ?_⟩
          have hrecord : newWorkRecord now uuid request.fields >>= Mapping.of = .ok record := hrecord
          rw [priorIn, workIdOf] at hprior
          simp only [submitWork, Program.bind_apply, Program.lift_apply, hrecord, Run.andThen_ok,
            fromRecords_apply, hprior, Program.step_apply]
          exact hstored.2
      | error error =>
          left
          rw [(addSubmission_of_error hadd).1] at h
          cases error with
          | storeError message =>
              simp only [afterError, Program.bind_apply, Program.step_apply, Run.andThen_ok] at h
              obtain ⟨again, hagain, h⟩ := Run.andThen_result_eq_ok_iff.mp h
              cases again with
              | none => cases h
              | some prior => exact ⟨prior, _, .afterRejection hprior hadd hagain⟩
          | _ => cases h

theorem Finds.unique {first second : Fields} {seen other : StoreDir}
    (hfirst : Finds host others record store first seen)
    (hsecond : Finds host others record store second other) : first = second ∧ seen = other := by
  cases hfirst with
  | atOnce h =>
      cases hsecond with
      | atOnce h' => exact ⟨Option.some.inj (Except.ok.inj (h.symm.trans h')), rfl⟩
      | afterRejection h' _ _ => cases h.symm.trans h'
  | afterRejection h _ hprior =>
      cases hsecond with
      | atOnce h' => cases h.symm.trans h'
      | afterRejection _ _ hprior' =>
          exact ⟨Option.some.inj (Except.ok.inj (hprior.symm.trans hprior')), rfl⟩

end Submissions

/-! ## Truthful acknowledgements -/

/-- The fields that the protocol keeps and the acknowledgement does not compare. -/
def uncomparedFields : List String :=
  immutableWorkFields.filter fun field => !comparedFields.contains field

/-- What the compared and the other fields together say. -/
theorem agreeIn_immutable {prior requested : Fields}
    (hcompared : agreeIn comparedFields prior requested = true) :
    agreeIn immutableWorkFields prior requested = true ↔
      agreeIn uncomparedFields prior requested = true := by
  simp only [agreeIn, uncomparedFields, List.all_eq_true, List.mem_filter] at hcompared ⊢
  constructor
  · exact fun h field hfield => h field hfield.1
  · intro h field hfield
    by_cases hmem : field ∈ comparedFields
    · exact hcompared field hmem
    · exact h field ⟨hfield, by simpa using hmem⟩

/-- The first revision that a submission finds, where it agrees with the request in the
compared fields and the status of the work can be read, agrees with it in the other
fields that the protocol keeps. -/
def PriorAgrees (host : Host) (others : Others) (now uuid : String) (request : Mapping)
    (store : StoreDir) : Prop :=
  ∀ record prior seen status, submittedRecord now uuid request = .ok record →
    Finds host others record store prior seen →
    ((Fields.get prior "details").obj?.any fun details =>
      agreeIn comparedFields details (detailsOf record.fields)) = true →
    statusOf record.fields seen = .ok status →
    agreeIn uncomparedFields (detailsOf prior) (detailsOf record.fields) = true

theorem any_details {record : Fields} (test : Fields → Bool)
    (h : (Fields.get record "details").obj?.any test = true) : test (detailsOf record) = true := by
  rw [detailsOf]
  cases hobj : (Fields.get record "details").obj? with
  | none => rw [hobj] at h; cases h
  | some details => rwa [hobj] at h

/-- A duplicate is acknowledged only if the first stored revision agrees with the request
in every field that the protocol keeps, exactly when `PriorAgrees` holds. -/
theorem duplicate_truthful_iff (host : Host) (others : Others) (now uuid : String)
    (request : Mapping) (store : StoreDir) :
    (∀ answer, (submitWork host others now uuid request store).result = .ok answer →
      answer.duplicate = true →
      ∃ record prior seen, submittedRecord now uuid request = .ok record ∧
        Finds host others record store prior seen ∧
        agreeIn immutableWorkFields (detailsOf prior) (detailsOf record.fields) = true) ↔
      PriorAgrees host others now uuid request store := by
  constructor
  · intro htruthful record prior seen status hrecord hfinds hcompared hstatus
    have hanswer := (hfinds.run hrecord).1.trans
      (duplicateAck_eq_ok_iff.mpr ⟨hcompared, status, hstatus, rfl⟩)
    obtain ⟨record', prior', seen', hrecord', hfinds', hagree⟩ := htruthful _ hanswer rfl
    obtain rfl := Except.ok.inj (hrecord.symm.trans hrecord')
    obtain ⟨rfl, rfl⟩ := hfinds.unique hfinds'
    have hagreed := any_details (fun details => agreeIn comparedFields details _) hcompared
    exact (agreeIn_immutable hagreed).mp hagree
  · intro hagrees answer hanswer hduplicate
    obtain ⟨record, hrecord, ⟨prior, seen, hfinds⟩ | ⟨added, -, rfl, -⟩⟩ := answered_cases hanswer
    · have hack := hanswer
      rw [(hfinds.run hrecord).1] at hack
      obtain ⟨hcompared, status, hstatus, -⟩ := duplicateAck_eq_ok_iff.mp hack
      have hagreed := any_details (fun details => agreeIn comparedFields details _) hcompared
      exact ⟨record, prior, seen, hrecord, hfinds, (agreeIn_immutable hagreed).mpr
        (hagrees record prior seen status hrecord hfinds hcompared hstatus)⟩
    · cases hduplicate

/-! ## Proposals that are stored -/

theorem mem_of_priorSubmission {workId : String} {records : List Fields} {prior : Fields}
    (h : priorSubmission workId records = .ok (some prior)) :
    prior ∈ records ∧ isFirstRevision workId prior = .ok true := by
  induction records with
  | nil => cases h
  | cons item items ih =>
      rw [priorSubmission] at h
      obtain ⟨found, hfound, h⟩ := Py.bind_eq_ok_iff.mp h
      cases found with
      | true =>
          obtain rfl := Option.some.inj (Except.ok.inj h)
          exact ⟨List.mem_cons_self, hfound⟩
      | false =>
          obtain ⟨hmem, hfirst⟩ := ih h
          exact ⟨List.mem_cons_of_mem _ hmem, hfirst⟩

/-- A record with the texts of another among its details. -/
def SameTexts (item record : Fields) : Prop :=
  ∀ key text, Fields.get (detailsOf record) key = .str text →
    Fields.get (detailsOf item) key = .str text

theorem sameTexts_sortKeys (record : Fields) : SameTexts (Fields.sortKeys record) record := by
  intro key text htext
  rw [detailsOf_sortKeys, Fields.get_sortKeys, htext, Json.sortKeys_str]

/-- Records with one encoding have the same texts. -/
theorem sameTexts_of_canonicalJson_eq {item record : Fields} (hitem : (Json.obj item).wf = true)
    (hrecord : (Json.obj record).wf = true)
    (h : canonicalJson (.obj item) = canonicalJson (.obj record)) : SameTexts item record := by
  have hcanon := canon_eq_of_canonicalJson_eq hitem hrecord h
  rw [canon_obj, canon_obj] at hcanon
  have hdetails : Fields.sortKeys (detailsOf item) = Fields.sortKeys (detailsOf record) := by
    have hget : ∀ value, detailsOf (canonFields value) = Fields.sortKeys (detailsOf value) := by
      intro value
      rw [detailsOf, get_canonFields_of_inert (by decide), Json.obj?_sortKeys, detailsOf]
      cases (Fields.get value "details").obj? <;> rfl
    rw [← hget item, ← hget record, Json.obj.inj hcanon]
  intro key text htext
  have hget : (Fields.get (detailsOf item) key).sortKeys = .str text := by
    rw [← Fields.get_sortKeys, hdetails, Fields.get_sortKeys, htext, Json.sortKeys_str]
  exact Json.sortKeys_eq_str.mp hget

theorem fst_of_addRecord {host : Host} {record : Mapping} {store : StoreDir}
    {added : Fields × String} (h : (addRecord host record store).result = .ok added) :
    added.1 = candidateOf record := by
  rw [addRecord] at h
  cases hadmission : admission .record store (candidateOf record) with
  | error error =>
      rw [add_of_error host hadmission] at h
      cases h
  | ok stored =>
      cases stored with
      | true =>
          rw [add_of_stored host hadmission] at h
          rw [← Except.ok.inj h]
      | false =>
          rw [add_of_new host hadmission] at h
          obtain ⟨_, -, h⟩ := Run.andThen_result_eq_ok_iff.mp h
          rw [← Except.ok.inj h]

/-- In a verified store, a record that is added without an error is among the records
that are read afterwards. -/
theorem stored_of_addition {host : Host} {record : Mapping} {store : StoreDir}
    {read records : List Fields} {added : Fields × String} (hverified : Verified store read)
    (h : (addRecord host record store).result = .ok added)
    (hrecords : storedRecords (addRecord host record store).final = .ok records) :
    ∃ item ∈ records, SameTexts item (candidateOf record) := by
  have hok : (Call.run host (.add .record record) store).result = .ok () :=
    Call.result_run_add.mpr ⟨added, h⟩
  obtain ⟨after, hafter, hpayloads⟩ := Py.bind_eq_ok_iff.mp hrecords
  obtain rfl := Except.ok.inj hpayloads
  rw [addRecord, ← (Call.run_add host .record record store).1] at hafter
  obtain ⟨hstored, hfinal⟩ | ⟨hnew, -⟩ := Call.ledger_run hverified.rows hok
  · rw [hfinal] at hafter
    obtain rfl := Except.ok.inj (hverified.rows.symm.trans hafter)
    simp only [Call.Stored, Fresh, not_forall, not_not] at hstored
    obtain ⟨payload, hpayload, hdigest⟩ := hstored
    have hfile := (hverified.filed hpayload).file
    rw [hdigest, Json.pyStr_str] at hfile
    have hcontent : store.readContent .record
        (Fields.get (candidateOf record) "contentDigest").pyStr =
          some (canonicalJson (.obj (candidateOf record))) := by
      cases hadmission : admission .record store (candidateOf record) with
      | error error =>
          rw [addRecord, add_of_error host hadmission] at h
          cases h
      | ok found =>
          rcases readContent_of_admission hadmission with hnone | hsame
          · cases hnone.symm.trans hfile
          · exact hsame
    exact ⟨payload, hpayload, sameTexts_of_canonicalJson_eq
      (wf_of_payloadsFromRows hverified.rows hpayload) (wf_candidateOf record)
      (Option.some.inj (hfile.symm.trans hcontent))⟩
  · rw [Call.rows_run hverified.rows hok hnew] at hafter
    have hfits := fits_of_rows_appendLedger hverified.rows hafter
    have hread := rows_appendLedger_of_fits hverified.rows (wf_nextRow (wf_candidateOf record)) hfits
    obtain rfl := Except.ok.inj (hread.symm.trans hafter)
    refine ⟨Fields.sortKeys (candidateOf record), ?_, sameTexts_sortKeys _⟩
    rw [payloadsFromRows_append]
    refine List.mem_append_right _ ?_
    rw [nextRow, payloadsFromRows_makeLedgerRow]
    exact List.mem_singleton_self _

section Proposals

variable {host : Host} {lower : String → String} {now uuid : String} {request : Mapping}
  {store : StoreDir}

/-- What a sequential submission finds is in the store it reads the status in. -/
theorem Finds.prior {record : Mapping} {prior : Fields} {seen : StoreDir}
    (h : Finds host Others.none record store prior seen) :
    priorIn seen (workIdOf record.fields) = .ok (some prior) := by
  cases h with
  | atOnce h => exact h
  | afterRejection _ _ hprior => exact hprior

theorem detailsOf_candidateOf (value : Mapping) :
    detailsOf (candidateOf value) = detailsOf value.fields ∨
      detailsOf (candidateOf value) = Fields.sortKeys (detailsOf value.fields) := by
  rw [candidateOf]
  split
  · exact .inl rfl
  · right
    rw [withDigest_eq_canonFields value.wf, detailsOf, get_canonFields_of_inert (by decide),
      Json.obj?_sortKeys, detailsOf]
    have hget : Fields.get (Fields.set value.fields "contentDigest"
        (.str (canonicalDigest value.fields))) "details" = Fields.get value.fields "details" := by
      simp [Fields.get, Fields.get?_set]
    rw [hget]
    cases (Fields.get value.fields "details").obj? <;> rfl

theorem sameTexts_candidateOf (value : Mapping) : SameTexts (candidateOf value) value.fields := by
  intro key text htext
  rcases detailsOf_candidateOf value with hdetails | hdetails
  · rwa [hdetails]
  · rw [hdetails, Fields.get_sortKeys, htext, Json.sortKeys_str]

/-- The identity and the status of a record built from a request. -/
theorem texts_of_submittedRecord {record : Mapping} {status : String}
    (hrecord : submittedRecord now uuid request = .ok record)
    (hstatus : Fields.get request.fields "proposalStatus" = .str status)
    (hstrip : Str.strip status = status) :
    (∃ workId, Fields.get (detailsOf record.fields) "workId" = .str workId) ∧
      Fields.get (detailsOf record.fields) "proposalStatus" = .str status := by
  obtain ⟨fields, hfields, hof⟩ := Py.bind_eq_ok_iff.mp hrecord
  obtain ⟨submission, hread, rfl⟩ := exists_submission hfields
  have hdetails : detailsOf record.fields = submission.details := by
    rw [Mapping.of_eq_ok hof]
    rfl
  have hread := hread.proposalStatus
  rw [hstatus] at hread
  rw [hdetails, Fields.get, Fields.get, submission.get?_workId, submission.get?_proposalStatus,
    optionalText_str hread hstrip]
  exact ⟨⟨_, rfl⟩, rfl⟩

/-- A submission whose acknowledgement is truthful leaves a record with its identity
and its status. -/
theorem stored_of_submitWork {read records : List Fields} {answer : Acknowledgement}
    {status : String} (hverified : Verified store read)
    (hagrees : PriorAgrees host Others.none now uuid request store)
    (hstatus : Fields.get request.fields "proposalStatus" = .str status)
    (hstrip : Str.strip status = status)
    (h : (submitWork host Others.none now uuid request store).result = .ok answer)
    (hrecords : storedRecords (submitWork host Others.none now uuid request store).final =
      .ok records) :
    ∃ item ∈ records, Fields.get (detailsOf item) "workId" = .str answer.workId ∧
      Fields.get (detailsOf item) "proposalStatus" = .str status := by
  obtain ⟨record, hrecord, ⟨prior, seen, hfinds⟩ | ⟨added, hadded, rfl, hfinal⟩⟩ := answered_cases h
  · obtain ⟨⟨workId, hworkId⟩, hrequested⟩ := texts_of_submittedRecord hrecord hstatus hstrip
    obtain ⟨hresult, hfinal⟩ := hfinds.run hrecord
    rw [hresult] at h
    obtain ⟨hcompared, found, hfound, rfl⟩ := duplicateAck_eq_ok_iff.mp h
    obtain ⟨seenRecords, hseen, hprior⟩ := Py.bind_eq_ok_iff.mp hfinds.prior
    rw [hfinal] at hrecords
    obtain rfl := Except.ok.inj (hrecords.symm.trans hseen)
    have hothers := hagrees record prior seen found hrecord hfinds hcompared hfound
    have hcompared := any_details (fun details => agreeIn comparedFields details _) hcompared
    rw [agreeIn, List.all_eq_true] at hcompared hothers
    refine ⟨prior, (mem_of_priorSubmission hprior).1, ?_, ?_⟩
    · have hsame := hcompared "workId" (by decide)
      rw [hworkId] at hsame
      rw [duplicateAnswer, hworkId, Json.pyStr_str]
      exact Json.pyEq_str_iff.mp hsame
    · have hsame := hothers "proposalStatus" (by decide)
      rw [hrequested] at hsame
      exact Json.pyEq_str_iff.mp hsame
  · obtain ⟨⟨workId, hworkId⟩, hrequested⟩ := texts_of_submittedRecord hrecord hstatus hstrip
    rw [hfinal] at hrecords
    obtain ⟨item, hitem, htexts⟩ := stored_of_addition hverified hadded hrecords
    have hcandidate := sameTexts_candidateOf record
    refine ⟨item, hitem, ?_, htexts _ _ (hcandidate _ _ hrequested)⟩
    rw [storedAnswer, fst_of_addRecord hadded, hcandidate _ _ hworkId, Json.pyStr_str]
    exact htexts _ _ (hcandidate _ _ hworkId)

/-- What a proposal is classified as in a store. -/
def classifiedIn (lower : String → String) (store : StoreDir) (proposal : Mapping) :
    Py ProposalOutcome :=
  (storedRecords store >>= fun records => listWork records [] [] []) >>= fun work =>
    classifyProposal lower work proposal.fields

/-- A proposal fails before it writes or writes what it is classified as. -/
theorem proposeWork_cases {others : Others} (proposal : Mapping) :
    (∃ error, classifiedIn lower store proposal = .error error ∧
      proposeWork host others lower now uuid proposal store = ⟨[], store, .error error⟩) ∨
    ∃ outcome, classifiedIn lower store proposal = .ok outcome ∧
      (proposeWork host others lower now uuid proposal store).final =
        (writeProposal host (others.after 1) now uuid outcome (others 0 store)).final ∧
      (proposeWork host others lower now uuid proposal store).result =
        (writeProposal host (others.after 1) now uuid outcome (others 0 store)).result := by
  simp only [proposeWork, Program.bind_apply, fromRecords_apply, classifiedIn]
  cases hwork : (storedRecords store >>= fun records => listWork records [] [] []) with
  | error error => exact .inl ⟨error, rfl, rfl⟩
  | ok work =>
      rw [Run.andThen_ok, Program.bind_apply, Program.lift_apply]
      cases houtcome : classifyProposal lower work proposal.fields with
      | error error => exact .inl ⟨error, houtcome, rfl⟩
      | ok outcome => exact .inr ⟨outcome, houtcome, rfl, rfl⟩

/-- The work of a proposal that is accepted or has to be reconciled is stored with that
status, when the acknowledgement of its submission is truthful. -/
theorem stored_of_proposeWork {answer : ProposalAnswer} {proposal : Mapping} {records : List Fields}
    (hverify : verify store = .ok [])
    (hagrees : ∀ candidate request, classifiedIn lower store proposal = .ok (.submit candidate) →
      Mapping.of candidate = .ok request → PriorAgrees host Others.none now uuid request store)
    (h : (proposeWork host Others.none lower now uuid proposal store).result = .ok answer)
    (hstatus : answer.proposal ≠ "ATTACHED")
    (hrecords : storedRecords (proposeWork host Others.none lower now uuid proposal store).final =
      .ok records) :
    ∃ item ∈ records, Fields.get (detailsOf item) "workId" = .str answer.acknowledgement.workId ∧
      Fields.get (detailsOf item) "proposalStatus" = .str answer.proposal := by
  obtain ⟨read, hverified⟩ := verify_eq_nil_iff.mp hverify
  obtain ⟨error, -, hrun⟩ | ⟨outcome, houtcome, hfinal, hresult⟩ :=
    @proposeWork_cases host lower now uuid store Others.none proposal
  · rw [hrun] at h
    cases h
  rw [hresult] at h
  rw [hfinal] at hrecords
  cases outcome with
  | attach workId transition =>
      obtain ⟨transition, -, h⟩ := Run.andThen_result_eq_ok_iff.mp h
      obtain ⟨attached, -, h⟩ := Run.andThen_result_eq_ok_iff.mp h
      obtain rfl := Except.ok.inj h
      exact absurd rfl hstatus
  | submit candidate =>
      obtain ⟨request, hrequest, h⟩ := Run.andThen_result_eq_ok_iff.mp h
      obtain ⟨acknowledgement, hsubmit, h⟩ := Run.andThen_result_eq_ok_iff.mp h
      obtain rfl := Except.ok.inj h
      have hrequest : Mapping.of candidate = .ok request := hrequest
      have hsubmit : (submitWork host Others.none now uuid request store).result =
          .ok acknowledgement := hsubmit
      have hend : (writeProposal host (Others.none.after 1) now uuid (.submit candidate)
          (Others.none 0 store)).final =
            (submitWork host Others.none now uuid request store).final := by
        simp only [writeProposal, Program.bind_apply, Program.lift_apply, hrequest, Run.andThen_ok]
        exact congrArg Run.final (Run.andThen_of_ok hsubmit _)
      rw [hend] at hrecords
      have hcandidate : Fields.get request.fields "proposalStatus" =
          Fields.get candidate "proposalStatus" := by
        rw [Mapping.of_eq_ok hrequest]
      have htruthful := hagrees candidate request houtcome hrequest
      obtain ⟨work, -, hclassified⟩ := Py.bind_eq_ok_iff.mp houtcome
      have hstrip : Str.strip "ACCEPTED" = "ACCEPTED" ∧
          Str.strip "NEEDS_RECONCILIATION" = "NEEDS_RECONCILIATION" := by
        decide
      rcases status_of_submit hclassified with haccepted | hreconcile
      · rw [haccepted] at hcandidate ⊢
        rw [Json.pyStr_str]
        exact stored_of_submitWork hverified htruthful hcandidate hstrip.1 hsubmit hrecords
      · rw [hreconcile] at hcandidate ⊢
        rw [Json.pyStr_str]
        exact stored_of_submitWork hverified htruthful hcandidate hstrip.2 hsubmit hrecords

end Proposals

/-- A request with the given title. -/
def titledRequest (title : String) : Fields :=
  [("workId", .str "work:a"), ("submittingConsumer", (Actor.mk "agent" "a").json),
    ("project", .obj []), ("task", .str "t"), ("title", .str title)]

/-- The submission that the request is read as. -/
def titledSubmission (title : String) : WorkSubmission where
  workId := "work:a"
  submitter := ⟨"agent", "a"⟩
  task := "t"
  project := []
  repository := none
  constraints := []
  parentWorkId := none
  title := title
  summary := "t"
  lane := none
  affectedRepositories := []
  priority := 100
  dependencies := []
  capabilityRequirements := []
  capability := none
  reason := none
  expectedSemantics := none
  blockingWorkIds := []
  evidenceLinks := []
  sharedCoreImpact := false
  allowedWriteScope := []
  forbiddenWriteScope := []
  createdFrom := []
  coordination := "AVAILABLE"
  proposalStatus := none
  proposalSource := none
  observationTimestamp := none
  findingIdentity := none
  healthStatus := none
  proposalReason := none
  deduplication := []
  attachments := []
  canonicalRepository := none
  canonicalAffected := []
  attempt := 0
  sensitivity := "restricted"
  fabricJobId := none
  workerId := none
  modelId := none

/-- The record of the first submission, titled "first". -/
def titledRecord : Mapping :=
  ⟨(titledSubmission "first").record "2026-01-01T00:00:00Z",
    WorkSubmission.WellFormed.record ⟨rfl, rfl, by simp [titledSubmission]⟩ _⟩

def titledRecordDigest : String :=
  "sha256:20cc0c29b2785fc3a5fbfd52653c26a5c41ad0a7cbdb58c9f099b47dcc8c99b9"

/-- The first revision as it is stored. -/
def storedTitle : Fields := storedAs titledRecord.fields titledRecordDigest

theorem holding_titledRecord :
    Holding (Call.run .plain (.add .record titledRecord) .fresh).final
      [storedAs titledRecord.fields titledRecordDigest] [] 1 :=
  holding_fresh.addQuick (by decide) .plain rfl (by decide +kernel) (by decide +kernel)
    (by decide +kernel) (by simp) (by decide +kernel)

/-- A store with the first revision. -/
theorem exists_titledStore : ∃ store, storedRecords store = .ok [storedTitle] := by
  obtain ⟨read, hread, hrecords, -⟩ := holding_titledRecord.rows_eq
  refine ⟨_, Py.bind_eq_ok_iff.mpr ⟨read, hread, ?_⟩⟩
  rw [hrecords, storedTitle]
  rfl

/-- The second request, titled "second". -/
def changedRequest : Mapping := ⟨titledRequest "second", rfl⟩

/-- The record of the second request. -/
def changedRecord : Mapping :=
  ⟨(titledSubmission "second").record "2026-01-01T00:00:00Z",
    WorkSubmission.WellFormed.record ⟨rfl, rfl, by simp [titledSubmission]⟩ _⟩

theorem submittedRecord_changedRequest :
    submittedRecord "2026-01-01T00:00:00Z" "u" changedRequest = .ok changedRecord := by
  have hrecord : newWorkRecord "2026-01-01T00:00:00Z" "u" changedRequest.fields =
      .ok changedRecord.fields := by
    decide +kernel
  rw [submittedRecord, hrecord]
  exact Mapping.of_of_wf changedRecord.wf

/-- The first revision agrees with the second request in the compared fields, not in the
others. -/
theorem storedTitle_agrees :
    priorSubmission (workIdOf changedRecord.fields) [storedTitle] = .ok (some storedTitle) ∧
    ((Fields.get storedTitle "details").obj?.any fun details =>
      agreeIn comparedFields details (detailsOf changedRecord.fields)) = true ∧
    agreeIn immutableWorkFields (detailsOf storedTitle) (detailsOf changedRecord.fields) = false := by
  decide +kernel

theorem exists_status :
    ∃ status, projectWorkHistory [storedTitle] (workIdOf changedRecord.fields) = .ok status := by
  have hok : (projectWorkHistory [storedTitle] (workIdOf changedRecord.fields)).isOk = true := by
    decide +kernel
  cases hstatus : projectWorkHistory [storedTitle] (workIdOf changedRecord.fields) with
  | error error =>
      rw [hstatus] at hok
      cases hok
  | ok status => exact ⟨status, rfl⟩

end MncsCommons.Store
