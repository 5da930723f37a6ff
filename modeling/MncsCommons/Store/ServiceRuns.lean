/-
# Runs of the services

All a sequential service does to a store is to add a record.  Which records a service
can add is said once for each (`ServiceCall.Writes`), so a property of the rows that
each such addition keeps holds after every run of services
(`ServiceReachable.keeps`).
-/

import MncsCommons.Store.Acknowledgements

namespace MncsCommons.Store

open MncsCommons.Data MncsCommons.Protocol MncsCommons.Exec

/-! ## What a service does to the store -/

theorem final_afterError (workId : String) (record : Mapping) (error : PyError)
    (store : StoreDir) : (afterError Others.none workId record error store).final = store := by
  cases error with
  | storeError message =>
      rw [afterError]
      obtain h | ⟨_, -, h⟩ := Program.final_bind_cases
        (rfl : (Program.step (Others.none 0) store).final = store)
      · exact h
      rw [h]
      obtain h | ⟨found, -, h⟩ := Program.final_bind_cases
        (rfl : (fromRecords (priorSubmission workId) store).final = store)
      · exact h
      rw [h]
      cases found with
      | none => rfl
      | some prior => exact final_duplicateAck record.fields prior store
  | _ => rfl

section Services

variable {host : Host} {now uuid workId : String} {store : StoreDir}

theorem final_addRecord (record : Mapping) :
    (addRecord host record store).final = (Call.run host (.add .record record) store).final :=
  (Call.run_add host .record record store).1.symm

theorem final_addSubmission (record : Mapping) :
    (addSubmission host Others.none workId record store).final =
      (Call.run host (.add .record record) store).final := by
  rw [← final_addRecord, addSubmission, Program.final_handle_of_keeps
    fun error state => final_afterError workId record error state]
  exact Program.final_bind_of_keeps (fun _ _ => rfl) store

/-- A submission leaves the store or adds the record of its request. -/
theorem final_submitWork (request : Mapping) :
    (submitWork host Others.none now uuid request store).final = store ∨
      ∃ record, newWorkRecord now uuid request.fields = .ok record.fields ∧
        (submitWork host Others.none now uuid request store).final =
          (Call.run host (.add .record record) store).final := by
  rw [submitWork]
  obtain h | ⟨record, hrecord, h⟩ := Program.final_bind_cases
    (rfl : (Program.lift (newWorkRecord now uuid request.fields >>= Mapping.of) store).final = store)
  · exact .inl h
  rw [h]
  obtain h | ⟨found, -, h⟩ := Program.final_bind_cases
    (rfl : (fromRecords (priorSubmission _) store).final = store)
  · exact .inl h
  rw [h]
  cases found with
  | some prior => exact .inl (final_duplicateAck record.fields prior store)
  | none =>
      obtain ⟨fields, hfields, hof⟩ := Py.bind_eq_ok_iff.mp hrecord
      refine .inr ⟨record, ?_, final_addSubmission record⟩
      rw [hfields, Mapping.of_eq_ok hof]

/-- A transition leaves the store or adds the next revision of the work. -/
theorem final_transitionWork (transition : Mapping) :
    (transitionWork host Others.none now workId transition store).final = store ∨
      ∃ status record, (storedRecords store >>= fun records => projectWorkHistory records workId) =
          .ok status ∧
        revisedWorkRecord now status.current transition.fields = .ok record.fields ∧
        (transitionWork host Others.none now workId transition store).final =
          (Call.run host (.add .record record) store).final := by
  rw [transitionWork]
  obtain h | ⟨status, hstatus, h⟩ := Program.final_bind_cases
    (rfl : (fromRecords (fun records => projectWorkHistory records workId) store).final = store)
  · exact .inl h
  rw [h]
  obtain h | ⟨record, hrecord, h⟩ := Program.final_bind_cases
    (rfl : (Program.lift (revisedWorkRecord now status.current transition.fields >>= Mapping.of)
      store).final = store)
  · exact .inl h
  rw [h]
  obtain ⟨fields, hfields, hof⟩ := Py.bind_eq_ok_iff.mp hrecord
  refine .inr ⟨status, record, hstatus, by rw [hfields, Mapping.of_eq_ok hof], ?_⟩
  rw [← final_addRecord, Program.bind_apply, Program.step_apply, Run.andThen_ok]
  refine (Program.final_bind_of_keeps (fun _ _ => rfl) _).trans ?_
  exact Program.final_handle_of_keeps (fun _ _ => rfl) store

end Services

/-! ## Runs of services -/

/-- A call of a service, with what the host supplies to it. -/
inductive ServiceCall
  | submit (now uuid : String) (request : Mapping)
  | propose (lower : String → String) (now uuid : String) (proposal : Mapping)
  | claim (claimedAt now workId : String) (actor : Json) (expectedPreviousDigest : String)
      (sessionId lane : Option String)
  | transition (now workId : String) (transition : Mapping)
  | addRecord (value : Mapping)

namespace ServiceCall

/-- The store after the call, with nothing between its steps. -/
def final (host : Host) (store : StoreDir) : ServiceCall → StoreDir
  | submit now uuid request => (submitWork host Others.none now uuid request store).final
  | propose lower now uuid proposal =>
      (proposeWork host Others.none lower now uuid proposal store).final
  | claim claimedAt now workId actor expectedPreviousDigest sessionId lane =>
      (claimWork host Others.none claimedAt now workId actor expectedPreviousDigest sessionId lane
        store).final
  | transition now workId change =>
      (transitionWork host Others.none now workId change store).final
  | addRecord value => (Store.addRecord host value store).final

/-- The records that a call can add to a store with the given ones. -/
inductive Writes (records : List Fields) : ServiceCall → Mapping → Prop
  | submit {now uuid : String} {request value : Mapping}
      (h : newWorkRecord now uuid request.fields = .ok value.fields) :
      Writes records (.submit now uuid request) value
  | transition {now workId : String} {transition value : Mapping} {status : WorkProjection}
      (hstatus : projectWorkHistory records workId = .ok status)
      (h : revisedWorkRecord now status.current transition.fields = .ok value.fields) :
      Writes records (.transition now workId transition) value
  | claim {claimedAt now workId expectedPreviousDigest : String} {actor : Json}
      {sessionId lane : Option String} {claimant : Actor} {transition value : Mapping}
      (hclaim : checkClaim records records workId actor lane = .ok claimant)
      (htransition : transition.fields =
        claimTransition claimedAt claimant sessionId expectedPreviousDigest)
      (h : Writes records (.transition now workId transition) value) :
      Writes records (.claim claimedAt now workId actor expectedPreviousDigest sessionId lane) value
  | attach {lower : String → String} {now uuid workId : String} {proposal transition value : Mapping}
      {work : List WorkProjection} (hwork : listWork records [] [] [] = .ok work)
      (hclassified : classifyProposal lower work proposal.fields =
        .ok (.attach workId transition.fields))
      (h : Writes records (.transition now workId transition) value) :
      Writes records (.propose lower now uuid proposal) value
  | propose {lower : String → String} {now uuid : String} {proposal request value : Mapping}
      {work : List WorkProjection} (hwork : listWork records [] [] [] = .ok work)
      (hclassified : classifyProposal lower work proposal.fields = .ok (.submit request.fields))
      (h : Writes records (.submit now uuid request) value) :
      Writes records (.propose lower now uuid proposal) value
  | addRecord (value : Mapping) : Writes records (.addRecord value) value

variable {host : Host} {store : StoreDir} {records : List Fields}

theorem final_claim (claimedAt now workId : String) (actor : Json) (expectedPreviousDigest : String)
    (sessionId lane : Option String) :
    (claimWork host Others.none claimedAt now workId actor expectedPreviousDigest sessionId lane
        store).final = store ∨
      ∃ claimant transition,
        (∀ records, storedRecords store = .ok records →
          checkClaim records records workId actor lane = .ok claimant) ∧
        transition.fields = claimTransition claimedAt claimant sessionId expectedPreviousDigest ∧
        (claimWork host Others.none claimedAt now workId actor expectedPreviousDigest sessionId lane
          store).final = (transitionWork host Others.none now workId transition store).final := by
  rw [claimWork]
  obtain h | ⟨status, hstatus, h⟩ := Program.final_bind_cases
    (rfl : (fromRecords (fun records => projectWorkHistory records workId) store).final = store)
  · exact .inl h
  rw [h]
  obtain h | ⟨_, hclaimable, h⟩ := Program.final_bind_cases
    (rfl : (Program.lift (checkClaimable (detailsOf status.current) lane) store).final = store)
  · exact .inl h
  rw [h]
  obtain h | ⟨claimant, hclaimant, h⟩ := Program.final_bind_cases
    (rfl : (Program.lift (readClaimant actor) store).final = store)
  · exact .inl h
  rw [h]
  obtain h | ⟨_, -, h⟩ := Program.final_bind_cases
    (rfl : (Program.step (Others.none 0) store).final = store)
  · exact .inl h
  rw [h]
  obtain h | ⟨active, hactive, h⟩ := Program.final_bind_cases
    (rfl : (fromRecords (fun records => listWork records [] [] activeCoordinationStates)
      store).final = store)
  · exact .inl h
  rw [h]
  obtain h | ⟨_, hexclusive, h⟩ := Program.final_bind_cases
    (rfl : (Program.lift (checkExclusive workId (detailsOf status.current) claimant active)
      store).final = store)
  · exact .inl h
  rw [h]
  obtain h | ⟨transition, htransition, h⟩ := Program.final_bind_cases
    (rfl : (Program.lift (Mapping.of (claimTransition claimedAt claimant sessionId
      expectedPreviousDigest)) store).final = store)
  · exact .inl h
  rw [h]
  obtain h | ⟨_, -, h⟩ := Program.final_bind_cases
    (rfl : (Program.step (Others.none 1) store).final = store)
  · exact .inl h
  rw [h]
  refine .inr ⟨claimant, transition, fun records hrecords => ?_, Mapping.of_eq_ok htransition, rfl⟩
  rw [fromRecords_apply, hrecords] at hstatus hactive
  refine Py.bind_eq_ok_iff.mpr ⟨status, hstatus, ?_⟩
  refine Py.bind_eq_ok_iff.mpr ⟨(), hclaimable, ?_⟩
  refine Py.bind_eq_ok_iff.mpr ⟨claimant, hclaimant, ?_⟩
  refine Py.bind_eq_ok_iff.mpr ⟨active, hactive, ?_⟩
  exact Py.bind_eq_ok_iff.mpr ⟨(), hexclusive, rfl⟩

theorem final_attach (now uuid workId : String) (fields : Fields) :
    (writeProposal host Others.none now uuid (.attach workId fields) store).final = store ∨
      ∃ change : Mapping, change.fields = fields ∧
        (writeProposal host Others.none now uuid (.attach workId fields) store).final =
          (transitionWork host Others.none now workId change store).final := by
  rw [writeProposal]
  obtain h | ⟨change, hchange, h⟩ := Program.final_bind_cases
    (rfl : (Program.lift (Mapping.of fields) store).final = store)
  · exact .inl h
  · rw [h]
    exact .inr ⟨change, Mapping.of_eq_ok hchange, Program.final_bind_of_keeps (fun _ _ => rfl) store⟩

theorem final_submitted (now uuid : String) (fields : Fields) :
    (writeProposal host Others.none now uuid (.submit fields) store).final = store ∨
      ∃ request : Mapping, request.fields = fields ∧
        (writeProposal host Others.none now uuid (.submit fields) store).final =
          (submitWork host Others.none now uuid request store).final := by
  rw [writeProposal]
  obtain h | ⟨request, hrequest, h⟩ := Program.final_bind_cases
    (rfl : (Program.lift (Mapping.of fields) store).final = store)
  · exact .inl h
  · rw [h]
    exact .inr ⟨request, Mapping.of_eq_ok hrequest,
      Program.final_bind_of_keeps (fun _ _ => rfl) store⟩

/-- A service leaves the store or adds a record that it can write. -/
theorem final_cases (host : Host) (store : StoreDir) (call : ServiceCall) :
    call.final host store = store ∨ ∃ value,
      (∀ records, storedRecords store = .ok records → Writes records call value) ∧
      call.final host store = (Call.run host (.add .record value) store).final := by
  cases call with
  | submit now uuid request =>
      refine (final_submitWork request).imp_right ?_
      rintro ⟨record, hrecord, h⟩
      exact ⟨record, fun _ _ => .submit hrecord, h⟩
  | transition now workId change =>
      refine (final_transitionWork change).imp_right ?_
      rintro ⟨status, record, hstatus, hrecord, h⟩
      refine ⟨record, fun records hrecords => ?_, h⟩
      rw [hrecords] at hstatus
      exact .transition hstatus hrecord
  | claim claimedAt now workId actor expectedPreviousDigest sessionId lane =>
      obtain h | ⟨claimant, change, hclaim, hchange, h⟩ := @final_claim host store claimedAt now
        workId actor expectedPreviousDigest sessionId lane
      · exact .inl h
      refine (final_transitionWork change).imp h.trans ?_
      rintro ⟨status, record, hstatus, hrecord, hfinal⟩
      refine ⟨record, fun records hrecords => ?_, h.trans hfinal⟩
      rw [hrecords] at hstatus
      exact .claim (hclaim records hrecords) hchange (.transition hstatus hrecord)
  | addRecord value => exact .inr ⟨value, fun _ _ => .addRecord value, final_addRecord value⟩
  | propose lower now uuid proposal =>
      obtain ⟨error, -, h⟩ | ⟨outcome, houtcome, h, -⟩ :=
        @proposeWork_cases host lower now uuid store Others.none proposal
      · exact .inl (congrArg Run.final h)
      obtain ⟨work, hwork, hclassified⟩ := Py.bind_eq_ok_iff.mp houtcome
      have hlisted : ∀ records, storedRecords store = .ok records →
          listWork records [] [] [] = .ok work := by
        intro records hrecords
        rwa [hrecords] at hwork
      rw [final, h]
      cases outcome with
      | attach workId fields =>
          obtain h | ⟨change, rfl, h⟩ := @final_attach host store now uuid workId fields
          · exact .inl h
          refine (final_transitionWork change).imp h.trans ?_
          rintro ⟨status, record, hstatus, hrecord, hfinal⟩
          refine ⟨record, fun records hrecords => ?_, h.trans hfinal⟩
          rw [hrecords] at hstatus
          exact .attach (hlisted records hrecords) hclassified (.transition hstatus hrecord)
      | submit fields =>
          obtain h | ⟨request, rfl, h⟩ := @final_submitted host store now uuid fields
          · exact .inl h
          refine (final_submitWork request).imp h.trans ?_
          rintro ⟨record, hrecord, hfinal⟩
          exact ⟨record, fun records hrecords =>
            .propose (hlisted records hrecords) hclassified (.submit hrecord), h.trans hfinal⟩

/-- A service leaves the ledger or extends it by whole lines. -/
theorem grows_final (host : Host) (store : StoreDir) (call : ServiceCall) :
    Grows store (call.final host store) := by
  obtain h | ⟨value, -, h⟩ := final_cases host store call
  · rw [h]
    exact Std.Refl.refl store
  · rw [h]
    exact grows_run host _ store

end ServiceCall

/-- The stores that services lead to from a new one, each called where it is permitted. -/
inductive ServiceReachable (permitted : StoreDir → ServiceCall → Prop) : StoreDir → Prop
  | init : ServiceReachable permitted .fresh
  | call {store : StoreDir} (host : Host) {call : ServiceCall}
      (h : ServiceReachable permitted store) (hpermitted : permitted store call) :
      ServiceReachable permitted (call.final host store)

namespace ServiceReachable

variable {permitted : StoreDir → ServiceCall → Prop} {store : StoreDir}

theorem addRecord (h : ServiceReachable permitted store) (host : Host) (value : Mapping)
    (hpermitted : permitted store (.addRecord value)) :
    ServiceReachable permitted (Call.run host (.add .record value) store).final := by
  rw [← final_addRecord]
  exact .call host h hpermitted

theorem endsLine (h : ServiceReachable permitted store) : EndsLine (store.ledger.getD []) := by
  induction h with
  | init => exact endsLine_fresh
  | @call store host call _ _ ih =>
      obtain ⟨more, hmore, hledger⟩ := ServiceCall.grows_final host store call
      rw [hledger]
      exact ih.append hmore

/-- A property of the rows that holds of no rows, and that the addition of any record
that a permitted service writes keeps, holds of the rows of every store that services
lead to. -/
theorem keeps (property : List Fields → Prop) (hinit : property [])
    (hstep : ∀ store read call value after, Readable store read → permitted store call →
      call.Writes (payloadsFromRows read "record") value → property read →
      Extends store read (.add .record value) after → property after)
    (h : ServiceReachable permitted store) (hlimits : WithinLimits store) :
    ∃ read, Readable store read ∧ property read := by
  induction h with
  | init => exact ⟨[], readable_fresh, hinit⟩
  | @call store host call h hpermitted ih =>
      obtain ⟨read, hread, hproperty⟩ :=
        ih (hlimits.of_grows h.endsLine (ServiceCall.grows_final host store call))
      obtain hsame | ⟨value, hwrites, hfinal⟩ := ServiceCall.final_cases host store call
      · rw [hsame]
        exact ⟨read, hread, hproperty⟩
      · rw [hfinal] at hlimits ⊢
        obtain ⟨after, hafter, hextends⟩ := hread.step host value hlimits
        have hrecords : storedRecords store = .ok (payloadsFromRows read "record") := by
          rw [storedRecords, hread.rows]
          rfl
        exact ⟨after, hafter, hstep _ _ _ _ _ hread hpermitted (hwrites _ hrecords) hproperty
          hextends⟩

end ServiceReachable

end MncsCommons.Store
