/-
# Rejected and repeated writes

A write that raises before it is staged, or that finds its entry stored, touches
nothing, and one whose journal is too large removes what it staged.  What is left is
an entry that passes every check as a new one although it is not: an event whose
content file is there with another text is staged, raises, and leaves its
transaction pending; an entry whose digest is `null` is not found among the stored
ones and is appended again (`refused_unchanged_iff`).
-/

import MncsCommons.Store.TailFile
import MncsCommons.Store.Transitions

namespace MncsCommons.Store

open MncsCommons.Data MncsCommons.Protocol MncsCommons.Exec

/-! ## Rejected and repeated writes -/

/-- An entry of the type with the digest of the candidate is stored. -/
def AlreadyStored (type : ContentType) (store : StoreDir) (candidate : Fields) : Prop :=
  ∃ read, rows store = .ok read ∧ ∃ payload ∈ payloadsFromRows read type.value,
    (Fields.get payload "contentDigest").pyEq (Fields.get candidate "contentDigest") = true

/-- The call raises a store error, or its entry is stored. -/
def Refused (host : Host) (type : ContentType) (value : Mapping) (store : StoreDir) : Prop :=
  (∃ message, (add host type value store).result = .error (.storeError message)) ∨
    AlreadyStored type store (candidateOf value)

/-- A valid entry that passes every check as a new one, although its digest is `null`
as that of a stored entry is, or its content file is there with another text. -/
structure PassesAsNew (type : ContentType) (store : StoreDir) (candidate : Fields) (read : List Fields) :
    Prop where
  readable : rows store = .ok read
  admitted : admission type store candidate = .ok false
  size : (nextJournal type candidate store read).byteSize ≤ maxTransactionBytes
  present : (Fields.get candidate "contentDigest" = .null ∧
      ∃ payload ∈ payloadsFromRows read type.value, Fields.get payload "contentDigest" = .null) ∨
    ∃ text, store.readContent type (Fields.get candidate "contentDigest").pyStr = some text ∧
      text ≠ canonicalJson (.obj candidate)

theorem extended_ne {base store : StoreDir} (h : base.ledger = store.ledger) (row : Fields) :
    base.extended row ≠ store := by
  intro heq
  have hledger := congrArg StoreDir.ledgerBytes heq
  have hbytes : (base.extended row).ledgerBytes = store.ledgerBytes + (rowLine row).byteSize := by
    simp [StoreDir.ledgerBytes, StoreDir.extended, StoreDir.tailAt, h]
  rw [hbytes, byteSize_rowLine] at hledger
  omega

theorem pending_ne {store : StoreDir} (h : store.transactions = some []) (name : String)
    (files : Dir) : store.pending name files ≠ store := by
  intro heq
  have htransactions := congrArg StoreDir.transactions heq
  rw [h] at htransactions
  cases htransactions

/-- Without a crash, a write that is rejected or repeated changes nothing, except for
an entry that passes as new. -/
theorem refused_unchanged_iff {store : StoreDir} (h : CrashFree store) (host : Host)
    (type : ContentType) (value : Mapping) :
    (Refused host type value store → (add host type value store).final = store) ↔
      ¬ ∃ read, PassesAsNew type store (candidateOf value) read := by
  have hcached := h.cached
  constructor
  · rintro hunchanged ⟨read, hread, hadmission, hsize, hpresent⟩
    obtain ⟨found, hadmitted⟩ := admitted_of_admit hadmission
    by_cases hfile : ∀ text, store.readContent type
        (Fields.get (candidateOf value) "contentDigest").pyStr = some text →
          text = canonicalJson (.obj (candidateOf value))
    · obtain ⟨-, base, hledger, -, hfinal⟩ := add_appends hcached host hadmission hread hsize hfile
      obtain ⟨hnull, payload, hpayload, hother⟩ : Fields.get (candidateOf value) "contentDigest" =
          .null ∧ ∃ payload ∈ payloadsFromRows read type.value,
            Fields.get payload "contentDigest" = .null := by
        refine hpresent.resolve_right ?_
        rintro ⟨text, hsome, hne⟩
        exact hne (hfile text hsome)
      have hrefused : Refused host type value store :=
        .inr ⟨read, hread, payload, hpayload, by rw [hnull, hother, Json.pyEq_self]⟩
      exact extended_ne hledger _ (hfinal.symm.trans (hunchanged hrefused))
    · push Not at hfile
      obtain ⟨text, hsome, hother⟩ := hfile
      obtain ⟨hfinal, herror⟩ := add_collides hcached host hadmission hread hsize hsome hother
      exact pending_ne hadmitted.transactions _ _ (hfinal.symm.trans (hunchanged (.inl herror)))
  · intro hnew hrefused
    cases hadmission : admission type store (candidateOf value) with
    | error error => rw [add_of_error host hadmission]
    | ok stored =>
        cases stored with
        | true => rw [add_of_stored host hadmission]
        | false =>
            obtain ⟨read, hadmitted⟩ := admitted_of_admit hadmission
            have hread := hadmitted.rows
            rcases lt_or_ge maxTransactionBytes
              (nextJournal type (candidateOf value) store read).byteSize with hsize | hsize
            · exact final_add_of_size hcached host hadmission hread hsize
            exfalso
            refine hnew ⟨read, hread, hadmission, hsize, ?_⟩
            by_contra hpresent
            push Not at hpresent
            obtain ⟨hnull, hfile⟩ := hpresent
            obtain ⟨⟨out, hout⟩, -⟩ := add_appends hcached host hadmission hread hsize hfile
            rcases hrefused with ⟨message, herror⟩ | ⟨found, hfound, payload, hpayload, hsame⟩
            · rw [hout] at herror
              cases herror
            · obtain rfl := Except.ok.inj (hread.symm.trans hfound)
              rcases validateEntry_digest hadmitted.valid with hdigest | hdigest
              · rw [hdigest] at hsame
                exact hnull hdigest payload hpayload (by simpa using hsame)
              · refine hadmitted.new payload hpayload ?_
                rw [hdigest] at hsame
                rw [hdigest, Json.pyStr_str]
                simpa using hsame

/-- The store after its first record. -/
theorem crashFree_firstRecord :
    CrashFree (Call.run .plain (.add .record firstRecord) .fresh).final :=
  .operation .plain (.write (.add .record firstRecord)) .init

/-- Writing the first record again changes nothing. -/
theorem firstRecord_again_unchanged :
    (add .plain .record firstRecord
        (Call.run .plain (.add .record firstRecord) .fresh).final).final =
      (Call.run .plain (.add .record firstRecord) .fresh).final := by
  obtain ⟨read, hread, hrecords, -⟩ := (holding_firstRecord .plain).rows_eq
  have hstored : Fields.sortKeys (candidateOf firstRecord) ∈
      payloadsFromRows read ContentType.record.value := by
    rw [ContentType.value, hrecords]
    exact List.mem_singleton_self _
  have hdigest : Fields.get (candidateOf firstRecord) "contentDigest" =
      .str (canonicalDigest firstRecord.fields) := by
    rw [candidateOf, if_neg (by decide), get_withDigest firstRecord.wf]
  refine (refused_unchanged_iff crashFree_firstRecord .plain .record firstRecord).mpr ?_ ?_
  · rintro ⟨found, hfound, hadmission, -⟩
    obtain ⟨other, hadmitted⟩ := admitted_of_admit hadmission
    obtain rfl := Except.ok.inj (hread.symm.trans hadmitted.rows)
    refine hadmitted.new _ hstored ?_
    rw [get_candidateOf_firstRecord, hdigest, Json.pyStr_str]
  · refine .inr ⟨read, hread, _, hstored, ?_⟩
    rw [get_candidateOf_firstRecord, hdigest, Json.pyEq_self]

/-! ## Two events without a digest -/

/-- The reproduction of the first record in a domain, with `null` for its digest. -/
def nullReproduction (domain : String) : Mapping :=
  ⟨Fields.set (reproduction domain).fields "contentDigest" .null, rfl⟩

theorem candidateOf_nullReproduction (domain : String) :
    candidateOf (nullReproduction domain) = (nullReproduction domain).fields :=
  if_pos rfl

theorem parts_nullReproduction (domain : String) (h : Str.isBlank domain = false) :
    EventParts (nullReproduction domain).fields (canonicalDigest firstRecord.fields) domain
      LifecycleState.proposed.value LifecycleState.reproduced.value := by
  rw [canonicalDigest_firstRecord]
  exact ⟨⟨_, rfl, rfl⟩, by decide, ⟨_, rfl, rfl⟩, h, ⟨_, rfl, rfl, rfl⟩⟩

/-- A reproduction without a digest passes the checks while no event has moved the
record in its domain. -/
theorem admission_nullReproduction {store : StoreDir} {read : List Fields} {domain : String}
    (hread : rows store = .ok read) (htransactions : store.transactions = some [])
    (hrecords : payloadsFromRows read "record" = [Fields.sortKeys (candidateOf firstRecord)])
    (hblank : Str.isBlank domain = false)
    (hvalid : validateEvent (nullReproduction domain).fields = .ok [])
    (hnew : anyRow (holdsEntry .event "None") read = .ok false)
    (hstate : (replay (canonicalDigest firstRecord.fields) domain LifecycleState.proposed.value
      (payloadsFromRows read "event")).state = LifecycleState.proposed.value) :
    admission .event store (candidateOf (nullReproduction domain)) = .ok false := by
  have hparts := parts_nullReproduction domain hblank
  have hfind : findTarget read (canonicalDigest firstRecord.fields) =
      some (Fields.sortKeys (candidateOf firstRecord)) := by
    rw [findTarget, hrecords, List.find?_cons_of_pos]
    rw [get_candidateOf_firstRecord]
    simp [Json.str?]
  rw [candidateOf_nullReproduction]
  refine admit_event_eq hread htransactions hvalid hnew ((admitTransition_iff hparts hfind
    validateRecord_sorted_firstRecord).mpr ?_)
  rw [digestOf_firstRecord, hstate]
  exact validateTransition_reproduction hparts

theorem validateEvent_nullReproduction :
    validateEvent (nullReproduction "d").fields = .ok [] ∧
      validateEvent (nullReproduction "e").fields = .ok [] :=
  ⟨validateEvent_eq_nil_iff.mpr ⟨by decide +kernel, .inl rfl⟩,
    validateEvent_eq_nil_iff.mpr ⟨by decide +kernel, .inl rfl⟩⟩

theorem size_nullReproduction_le : ∀ domain ∈ ["d", "e"],
    (Json.obj (candidateOf (nullReproduction domain))).size ≤ 7000 := by
  decide +kernel

/-- The first of the two events leaves the record proposed in the other domain. -/
theorem state_replay_nullReproduction :
    (replay (canonicalDigest firstRecord.fields) "e" LifecycleState.proposed.value
      [Fields.sortKeys (candidateOf (nullReproduction "d"))]).state =
        LifecycleState.proposed.value := by
  rw [candidateOf_nullReproduction]
  have hparts := (parts_nullReproduction "d" (by decide)).sortKeys
  have hdomain := hparts.eventDomain_eq (by decide)
  rw [replay, List.foldl_cons, List.foldl_nil, replayStep]
  simp [hdomain]

/-- A store with the first record and an event without a digest. -/
structure HoldsNull (store : StoreDir) (read : List Fields) : Prop where
  crashFree : CrashFree store
  readable : rows store = .ok read
  transactions : store.transactions = some []
  records : payloadsFromRows read "record" = [Fields.sortKeys (candidateOf firstRecord)]
  events : payloadsFromRows read "event" =
    [Fields.sortKeys (candidateOf (nullReproduction "d"))]
  unnamed : anyRow (holdsEntry .event "None") read = .ok false
  file : store.readContent .event "None" =
    some (canonicalJson (.obj (candidateOf (nullReproduction "d"))))

theorem exists_holdsNull : ∃ store read, HoldsNull store read := by
  obtain ⟨read, hsound, hrecords, hevents, hlength⟩ := (holding_firstRecord .plain).sound
  have hbytes := (holding_firstRecord .plain).bytes
  generalize hfirst : (Call.run .plain (.add .record firstRecord) .fresh).final = first at *
  have hverified := hsound.verified
  have hunnamed : anyRow (holdsEntry .event "None") read = .ok false := by
    refine @Verified.anyRow_of_fresh _ _ hverified .event (nullReproduction "d").fields ?_
    intro payload hpayload
    rw [ContentType.value, hevents] at hpayload
    cases hpayload
  have hadmission := admission_nullReproduction hverified.rows hverified.transactions hrecords
    (by decide) validateEvent_nullReproduction.1 hunnamed
    (by rw [hevents, replay, List.foldl_nil])
  have hsize := size_nullReproduction_le "d" (by simp)
  obtain ⟨hrows, -⟩ := hsound.rows_addSmall .plain hadmission (hsize.trans (by decide))
    (by rw [maxLedgerBytes]; omega) (by rw [maxLedgerRows]; omega)
  obtain ⟨out, -, -, hfinal⟩ := add_of_small .plain hverified hsound.atEnd hadmission
    (hsize.trans (by decide))
  have hcrashFree : CrashFree (Call.run .plain (.add .event (nullReproduction "d")) first).final :=
    .operation .plain (.write (.add .event (nullReproduction "d"))) (hfirst ▸ crashFree_firstRecord)
  rw [(Call.run_add .plain .event (nullReproduction "d") first).1, hfinal] at hrows hcrashFree
  refine ⟨_, _, hcrashFree, hrows, transactions_committed hverified.transactions, ?_, ?_, ?_, ?_⟩
  · rw [payloadsFromRows_append, nextRow, payloadsFromRows_makeLedgerRow, hrecords]
    rfl
  · rw [payloadsFromRows_append, nextRow, payloadsFromRows_makeLedgerRow, hevents]
    rfl
  · refine anyRow_eq_false_iff.mpr fun row hrow => ?_
    rcases List.mem_append.mp hrow with hold | hadded
    · exact anyRow_eq_false_iff.mp hunnamed row hold
    · rw [List.mem_singleton.mp hadded, nextRow, holdsEntry_eq (get_makeLedgerRow _ _ _ _)
        ((get_makeLedgerRow _ _ _ _).trans (Json.sortKeys_obj_eq _)), candidateOf_nullReproduction,
        Fields.get_sortKeys]
      rfl
  · exact @readContent_committed .event (candidateOf (nullReproduction "d")) first read

/-- A second event without a digest passes the checks, is staged, and collides with the
first: the call raises and leaves its transaction pending. -/
theorem refused_write_changes :
    ¬ ∀ store, CrashFree store → ∀ host type value, Refused host type value store →
      (add host type value store).final = store := by
  intro hall
  obtain ⟨store, read, h⟩ := exists_holdsNull
  have hadmission := admission_nullReproduction h.readable h.transactions h.records (by decide)
    validateEvent_nullReproduction.2 h.unnamed (by rw [h.events, state_replay_nullReproduction])
  obtain ⟨found, hadmitted⟩ := admitted_of_admit hadmission
  have hcached := h.crashFree.cached
  obtain ⟨recorded, -, hrecorded, -, -⟩ := id hcached
  obtain rfl := hrecorded.eq_of_rows h.readable
  have hsize := size_nullReproduction_le "e" (by simp)
  have hjournal := byteSize_nextJournal_le h.readable hrecorded.chain
    (hcached.atEnd_position h.readable) hadmitted.valid (hsize.trans (by decide))
  have hother : canonicalJson (.obj (candidateOf (nullReproduction "d"))) ≠
      canonicalJson (.obj (candidateOf (nullReproduction "e"))) := by
    decide +kernel
  obtain ⟨hfinal, herror⟩ := add_collides hcached .plain hadmission h.readable
    (by rw [maxTransactionBytes]; omega) h.file hother
  exact pending_ne h.transactions _ _
    (hfinal.symm.trans (hall store h.crashFree .plain .event _ (.inl herror)))

end MncsCommons.Store
