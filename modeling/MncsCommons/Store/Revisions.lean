/-
# Linear revision chains

In every reachable store the records of one logical identity, in ledger order,
form a chain in which each record succeeds the one before (`revisions_linear`).
The digests of stored records differ, so no two of them after the first name the
same previous digest: of submissions built against one current record at most one
is stored.

The check reads the candidate before its keys are sorted and the stored records
after, so an identifier whose text depends on the order of keys is excluded.
-/

import MncsCommons.Store.Reachable
import MncsCommons.Protocol.Revisions

namespace MncsCommons.Store

open MncsCommons.Data MncsCommons.Protocol MncsCommons.Exec

/-- The records of a logical identity, in ledger order. -/
def revisionsOf (read : List Fields) (id : String) : List Fields :=
  (payloadsFromRows read "record").filter fun record => logicalId record = id

/-- The logical identity of the entry does not depend on the order of keys. -/
def Call.StableId : Call → Prop
  | .add .record value => logicalId (Fields.sortKeys (candidateOf value)) = logicalId (candidateOf value)
  | _ => True

/-! ## One call -/

/-- The payloads of the rows after a call. -/
theorem Extends.payloads {store : StoreDir} {read after : List Fields} {call : Call}
    (h : Extends store read call after) (type : ContentType) :
    payloadsFromRows after type.value = payloadsFromRows read type.value ∨
      ∃ value, call = .add type value ∧ Admitted type store read (candidateOf value) ∧
        payloadsFromRows after type.value =
          payloadsFromRows read type.value ++ [Fields.sortKeys (candidateOf value)] := by
  cases h with
  | unchanged => exact .inl rfl
  | snapshot payload =>
      left
      rw [payloadsFromRows_append, nextRow, payloadsFromRows_makeLedgerRow, if_neg,
        List.append_nil]
      cases type <;> decide
  | @added other value hadmitted =>
      rw [payloadsFromRows_append, nextRow, payloadsFromRows_makeLedgerRow]
      by_cases htype : other = type
      · subst htype
        exact .inr ⟨value, rfl, hadmitted, by rw [if_pos rfl]⟩
      · left
        rw [if_neg fun hvalue => htype (ContentType.value_injective hvalue), List.append_nil]

/-- The rows of one type name different digests. -/
def DistinctDigests (read : List Fields) (type : ContentType) : Prop :=
  ((payloadsFromRows read type.value).map fun payload => Fields.get payload "contentDigest").Nodup

/-- The digest of the entry of a lawful call that passed the checks. -/
theorem Admitted.digest {type : ContentType} {value : Mapping} {store : StoreDir}
    {read : List Fields} (h : Admitted type store read (candidateOf value))
    (hlawful : (Call.add type value).DigestNotNull) :
    Fields.get (candidateOf value) "contentDigest" = .str (canonicalDigest (candidateOf value)) :=
  (validateEntry_digest h.valid).resolve_left fun hnull => hlawful (get_candidateOf_eq_null hnull)

theorem DistinctDigests.step {store : StoreDir} {read after : List Fields} {call : Call}
    {type : ContentType} (h : DistinctDigests read type) (hlawful : call.DigestNotNull)
    (hextends : Extends store read call after) : DistinctDigests after type := by
  rw [DistinctDigests] at h ⊢
  obtain hsame | ⟨value, rfl, hadmitted, hafter⟩ := hextends.payloads type
  · rwa [hsame]
  · rw [hafter, List.map_append, List.map_singleton, Fields.get_sortKeys, hadmitted.digest hlawful,
      Json.sortKeys_str]
    refine List.Nodup.append h (List.nodup_singleton _) ?_
    rw [List.disjoint_singleton]
    intro hmem
    obtain ⟨payload, hpayload, hdigest⟩ := List.mem_map.mp hmem
    refine hadmitted.new payload hpayload ?_
    rw [hdigest, hadmitted.digest hlawful, Json.pyStr_str]

/-- A record that passed the checks and is not stored passed every one of them. -/
theorem Admitted.semantic {value : Mapping} {store : StoreDir} {read : List Fields}
    (h : Admitted .record store read (candidateOf value))
    (hlawful : (Call.add .record value).DigestNotNull) (hverified : Verified store read) :
    concatChecks
      [checkRevision (candidateOf value)
          (sameLogicalId (candidateOf value) (payloadsFromRows read "record")),
        workSemanticDiagnostics (candidateOf value)
          (sameLogicalId (candidateOf value) (payloadsFromRows read "record")),
        checkBindings (candidateOf value) (payloadsFromRows read "record"),
        checkSelfRelation (candidateOf value),
        checkSelfReplication (candidateOf value),
        checkCycle (payloadsFromRows read "record" ++ [candidateOf value])] = .ok [] := by
  have hsemantic := h.record rfl
  have hnew : ¬ (sameLogicalId (candidateOf value) (payloadsFromRows read "record")).any
      (fun item => identity item = identity (candidateOf value)) = true := by
    intro hany
    obtain ⟨item, hitem, hidentity⟩ := List.any_eq_true.mp hany
    have hmem : item ∈ payloadsFromRows read ContentType.record.value :=
      (List.mem_filter.mp hitem).1
    refine h.new item hmem ?_
    rw [decide_eq_true_eq, identity, hverified.contentDigest hmem, identity,
      h.digest hlawful] at hidentity
    rw [hverified.contentDigest hmem, h.digest hlawful, Json.pyStr_str]
    exact congrArg Json.str hidentity
  rwa [recordSemanticDiagnostics, if_neg hnew] at hsemantic

/-- The revisions of every logical identity form a chain. -/
def LinearRevisions (read : List Fields) : Prop := ∀ id, (revisionsOf read id).IsChain Succeeds

/-- What a call does to the revisions of a logical identity: nothing, or one more,
of a record that passed the checks. -/
theorem Extends.revisions {store : StoreDir} {read after : List Fields} {call : Call}
    (h : Extends store read call after) (hstable : call.StableId) (id : String) :
    revisionsOf after id = revisionsOf read id ∨
      ∃ value, call = .add .record value ∧ Admitted .record store read (candidateOf value) ∧
        logicalId (candidateOf value) = id ∧
        revisionsOf after id = revisionsOf read id ++ [Fields.sortKeys (candidateOf value)] := by
  obtain hsame | ⟨value, rfl, hadmitted, hafter⟩ := h.payloads .record
  · exact .inl (congrArg (List.filter fun record => logicalId record = id) hsame)
  have hid : logicalId (Fields.sortKeys (candidateOf value)) = logicalId (candidateOf value) :=
    hstable
  have hrevisions : revisionsOf after id = revisionsOf read id ++
      [Fields.sortKeys (candidateOf value)].filter fun record => logicalId record = id := by
    rw [revisionsOf, revisionsOf, ← List.filter_append]
    exact congrArg (List.filter fun record => logicalId record = id) hafter
  by_cases hlogical : logicalId (candidateOf value) = id
  · refine .inr ⟨value, rfl, hadmitted, hlogical, ?_⟩
    rw [hrevisions, List.filter_singleton, hid, decide_eq_true hlogical, cond_true]
  · refine .inl ?_
    rw [hrevisions, List.filter_singleton, hid, decide_eq_false hlogical, cond_false,
      List.append_nil]

theorem mem_payloads_of_mem_revisionsOf {read : List Fields} {id : String} {record : Fields}
    (h : record ∈ revisionsOf read id) :
    record ∈ payloadsFromRows read ContentType.record.value := (List.mem_filter.mp h).1

/-- A revision that passed the checks succeeds the last one. -/
theorem Admitted.succeeds {value : Mapping} {store : StoreDir} {read : List Fields} {last : Fields}
    (h : Admitted .record store read (candidateOf value))
    (hlawful : (Call.add .record value).DigestNotNull) (hverified : Verified store read)
    (hchain : (revisionsOf read (logicalId (candidateOf value))).IsChain Succeeds)
    (hlast : (revisionsOf read (logicalId (candidateOf value))).getLast? = some last) :
    Succeeds last (candidateOf value) := by
  have hdigest := hverified.contentDigest
    (mem_payloads_of_mem_revisionsOf (List.mem_of_getLast? hlast))
  have hcheck := concatChecks_eq_nil_iff.mp (h.semantic hlawful hverified) _ List.mem_cons_self
  exact (checkRevision_iff h.valid hchain
    (fun item hitem => (hverified.filed (mem_payloads_of_mem_revisionsOf hitem)).valid)
    ⟨_, hdigest⟩ hlast).mp hcheck

theorem LinearRevisions.step {store : StoreDir} {read after : List Fields} {call : Call}
    (h : LinearRevisions read) (hverified : Verified store read) (hlawful : call.DigestNotNull)
    (hstable : call.StableId) (hextends : Extends store read call after) :
    LinearRevisions after := by
  intro id
  obtain hsame | ⟨value, rfl, hadmitted, rfl, hadded⟩ := hextends.revisions hstable id
  · rw [hsame]
    exact h id
  rw [hadded]
  refine List.IsChain.append (h _) (.singleton _) ?_
  intro last hlast next hnext
  obtain rfl := Option.some.inj hnext
  -- the new record was compared with the last one of its chain
  exact (hadmitted.succeeds hlawful hverified (h _) hlast).sortKeys
    (hverified.contentDigest (mem_payloads_of_mem_revisionsOf (List.mem_of_getLast? hlast)))

/-! ## Runs -/

/-- The previous digests of a chain are the digests of all but its last record. -/
theorem map_previousDigestOf_tail {items : List Fields} (h : items.IsChain Succeeds) :
    items.tail.map previousDigestOf =
      items.dropLast.map fun item => Fields.get item "contentDigest" := by
  induction items with
  | nil => rfl
  | cons item items ih =>
      cases items with
      | nil => rfl
      | cons next items =>
          obtain ⟨hsucceeds, hchain⟩ := List.isChain_cons_cons.mp h
          have hrest := ih hchain
          rw [List.tail_cons] at hrest
          rw [List.tail_cons, List.map_cons, List.dropLast_cons_cons, List.map_cons, hrest,
            hsucceeds.previous]

/-- A value without a digest is read back with its keys sorted. -/
theorem Call.stableId_of_not_has {value : Mapping}
    (h : Fields.has value.fields "contentDigest" = false) : (Call.add .record value).StableId := by
  have hsorted : Fields.sortKeys (candidateOf value) = candidateOf value := by
    rw [candidateOf, if_neg (by simp [h]), withDigest_eq value.wf, canonFields,
      Fields.sortKeys_sortKeys]
  exact congrArg logicalId hsorted

/-- The rows after a record whose digest is `null`. -/
theorem rows_add_nullRecord :
    rows (committed .record nullRecord.fields .fresh []) =
      .ok ([] ++ [canonFields (nextRow "record" nullRecord.fields .fresh [])]) :=
  rows_committed verified_fresh.rows nullRecord.wf
    (fits_fresh (by decide) (show (Json.obj nullRecord.fields).size ≤ 2500 by decide +kernel))

/-- The same record is admitted again: the check takes it for the stored one and
the ledger holds no row with its digest. -/
theorem admit_nullRecord_again :
    admission .record (committed .record nullRecord.fields .fresh []) nullRecord.fields = .ok false := by
  have hpayloads : payloadsFromRows
      ([] ++ [canonFields (nextRow "record" nullRecord.fields .fresh [])]) "record" =
        [Fields.sortKeys nullRecord.fields] := by
    rw [payloadsFromRows_append, nextRow, payloadsFromRows_makeLedgerRow, if_pos rfl]
    rfl
  have hplain : Plain nullRecord.fields := plain_observation _ _ _
  have hsemantic : recordSemanticDiagnostics nullRecord.fields [Fields.sortKeys nullRecord.fields] =
      .ok [] := by
    refine (hplain.recordSemanticDiagnostics_eq_nil_iff ?_).mpr (.inl ?_)
    · simpa using hplain.sortKeys
    · refine ⟨Fields.sortKeys nullRecord.fields, List.mem_filter.mpr ⟨by simp, ?_⟩, ?_⟩
      · decide +kernel
      · decide +kernel
  have hstored : anyRow (holdsEntry .record (Fields.get nullRecord.fields "contentDigest").pyStr)
      ([] ++ [canonFields (nextRow "record" nullRecord.fields .fresh [])]) = .ok false := by
    refine anyRow_eq_false_iff.mpr fun row hrow => ?_
    obtain rfl := List.mem_singleton.mp hrow
    have hnull : Fields.get (Fields.sortKeys nullRecord.fields) "contentDigest" = .null := by
      decide +kernel
    rw [nextRow, @holdsEntry_eq .record _ _ _ (get_makeLedgerRow "record" _ _ "entryType")
      ((get_makeLedgerRow "record" _ _ "payload").trans (Json.sortKeys_obj_eq nullRecord.fields)),
      hnull]
    rfl
  have hcontent := @readContent_committed .record nullRecord.fields .fresh []
  rw [admit_record_eq rows_add_nullRecord (transactions_committed verified_fresh.transactions)
    validateRecord_nullRecord (fun text htext => Option.some.inj (htext.symm.trans hcontent))
    (by rw [hpayloads]; exact hsemantic)]
  exact hstored

/-- The rows after a call whose entry is admitted again right after it is stored. -/
theorem rows_add_again (host : Host) {type : ContentType} {value : Mapping} {store : StoreDir}
    {read : List Fields} (h : Verified store read) (hend : AtEnd (position store read) read)
    (hfits : Fits store read (nextRow type.value (candidateOf value) store read))
    (hagain : admission type (committed type (candidateOf value) store read) (candidateOf value) =
      .ok false)
    (hsize : (Json.obj (candidateOf value)).size ≤ 10 ^ 6)
    (hbytes : store.ledgerBytes + 2 * (Json.obj (candidateOf value)).size + 2002 ≤ maxLedgerBytes)
    (hcount : read.length + 1 < maxLedgerRows) :
    ∃ tail, rows (add host type value (committed type (candidateOf value) store read)).final =
      .ok (read ++ [canonFields (nextRow type.value (candidateOf value) store read)] ++
        [canonFields (makeLedgerRow type.value (candidateOf value) tail)]) := by
  have hwf := wf_candidateOf value
  have htype : type.value.length ≤ 8 := by cases type <;> decide
  have hrows := rows_committed h.rows hwf hfits
  have hchain : Chain 1 .null
      (read ++ [canonFields (nextRow type.value (candidateOf value) store read)]) :=
    chain_append_iff.mpr ⟨h.chain, (linked_makeLedgerRow_iff h.chain).mpr hend⟩
  have hnext : AtEnd (position (committed type (candidateOf value) store read)
      (read ++ [canonFields (nextRow type.value (candidateOf value) store read)]))
      (read ++ [canonFields (nextRow type.value (candidateOf value) store read)]) :=
    hchain.atEnd_position fun _ htail => hchain.atEnd_extended htail
  have hline := size_nextRow_le h.chain hend (hcount.le.trans' (Nat.le_succ _)) htype
    (candidateOf value)
  have hledger := ledgerBytes_committed type (candidateOf value) store read
  rw [byteSize_rowLine] at hledger
  have hends : EndsLine ((committed type (candidateOf value) store read).ledger.getD []) := by
    have hstart : EndsLine ((filed type (candidateOf value) store read).ledger.getD []) := by
      simpa [filed] using hfits.endsLine
    exact hstart.append (endsLine_rowLine _)
  have hfitsNext := fits_of_small hchain hnext hends htype hsize
    (by omega) (by simpa using hcount)
  have hfinal := add_of_same host hrows (transactions_committed h.transactions) hchain hnext hagain
    readContent_committed hsize
  exact ⟨_, hfinal ▸ rows_extended hrows (wf_nextRow hwf) hfitsNext⟩

end MncsCommons.Store
