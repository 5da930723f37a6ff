/-
# Read limits

The ledger is read within limits on a line, on its size and on the number of
rows, and none of the writers checks them.  A call that returns leaves a readable
ledger exactly when it appends nothing or appends a row that fits
(`readable_after_iff`).

The size of a journal and of a row is bounded by the size of the payload, so small
payloads pass both kinds of limit (`byteSize_nextJournal_le`, `byteSize_rowLine_le`).
-/

import MncsCommons.Protocol.Size
import MncsCommons.Store.Calls

namespace MncsCommons.Store

open MncsCommons.Data MncsCommons.Protocol MncsCommons.Exec

/-! ## Readable after a call -/

/-- A call that returns found no transaction pending. -/
theorem Call.transactions_of_run {host : Host} {call : Call} {store : StoreDir}
    (hok : (call.run host store).result = .ok ()) : store.transactions = some [] := by
  cases call with
  | add type value =>
      obtain ⟨out, hadd⟩ := Call.result_run_add.mp hok
      rw [Store.add, Program.bind_apply, Program.get_apply, Run.andThen_ok, Program.bind_apply,
        Run.andThen_result_eq_ok_iff, Program.lift_apply] at hadd
      obtain ⟨stored, hadmission, -⟩ := hadd
      cases type with
      | record =>
          simp only [admission, admitRecord, Py.bind_eq_ok_iff] at hadmission
          obtain ⟨_, hinit, _, hpending, -⟩ := hadmission
          exact noPending_of_require hinit hpending
      | event =>
          simp only [admission, admitEvent, Py.bind_eq_ok_iff] at hadmission
          obtain ⟨_, hinit, _, hpending, -⟩ := hadmission
          exact noPending_of_require hinit hpending
  | snapshot payload =>
      simp only [Call.run, addSnapshot, Program.bind_apply, Program.get_apply, Program.lift_apply,
        Run.andThen_ok, Run.andThen_result_eq_ok_iff] at hok
      obtain ⟨_, ⟨_, hinit, _, hpending, -⟩, -⟩ := hok
      exact noPending_of_require hinit hpending

/-- A call that returns and appends a row appends its row. -/
theorem Call.ledger_run {host : Host} {call : Call} {store : StoreDir} {read : List Fields}
    (hread : rows store = .ok read) (hok : (call.run host store).result = .ok ()) :
    (call.Stored read ∧ (call.run host store).final = store) ∨
      ¬ call.Stored read ∧ (call.run host store).final.isInitialized = true ∧
        (call.run host store).final.ledger =
          some (store.ledger.getD [] ++ rowLine (call.row store read)) := by
  have htransactions := Call.transactions_of_run hok
  cases call with
  | snapshot payload =>
      obtain ⟨hfinal, -⟩ := Call.run_snapshot htransactions hread
      have hinit : (refreshed store read).isInitialized = true := by
        rw [refreshed_eq]
        exact (rows_eq_ok_iff.mp hread).1
      refine .inr ⟨id, ?_⟩
      rw [hfinal, StoreDir.extended, StoreDir.tailAt]
      exact ⟨StoreDir.isInitialized_appendLedger hinit
        (rowLine (nextRow "snapshot" payload.fields store read)),
        by simp [Call.row, Call.entryType, Call.payload]⟩
  | add type value =>
      obtain ⟨out, hadd⟩ := Call.result_run_add.mp hok
      rw [(Call.run_add host type value store).1]
      cases hadmission : admission type store (candidateOf value) with
      | error error =>
          rw [add_of_error host hadmission] at hadd
          cases hadd
      | ok stored =>
          cases stored with
          | true =>
              obtain ⟨read', hread', hstored⟩ := stored_of_admit hadmission
              obtain rfl := Except.ok.inj (hread.symm.trans hread')
              exact .inl ⟨hstored, by rw [add_of_stored host hadmission]⟩
          | false =>
              obtain ⟨read', hadmitted⟩ := admitted_of_admit hadmission
              obtain rfl := Except.ok.inj (hread.symm.trans hadmitted.rows)
              refine .inr ⟨fun hstored => hstored hadmitted.new, ?_⟩
              rw [(final_add_of_new host hadmission).1]
              exact ledger_commit host htransactions hread (wf_candidateOf value)
                (commit_ok_of_add host hadd hadmission)

/-- The ledger after a call that returns and appends a row. -/
theorem Call.rows_run {host : Host} {call : Call} {store : StoreDir} {read : List Fields}
    (hread : rows store = .ok read) (hok : (call.run host store).result = .ok ())
    (hnew : ¬ call.Stored read) :
    rows (call.run host store).final =
      rows (store.appendLedger (rowLine (call.row store read))) := by
  obtain ⟨hstored, -⟩ | ⟨-, hinit, hfinal⟩ := Call.ledger_run hread hok
  · exact absurd hstored hnew
  have happended : (store.appendLedger (rowLine (call.row store read))).isInitialized = true :=
    StoreDir.isInitialized_appendLedger (rows_eq_ok_iff.mp hread).1 _
  simp [rows, requireInitialized, hinit, happended, hfinal]

/-- A call that returns leaves a readable ledger exactly when it finds its entry
stored or its row fits. -/
theorem readable_after_iff (host : Host) {call : Call} {store : StoreDir} {read : List Fields}
    (hread : rows store = .ok read) (hok : (call.run host store).result = .ok ()) :
    (∃ after, rows (call.run host store).final = .ok after) ↔
      call.Stored read ∨ Fits store read (call.row store read) := by
  by_cases hstored : call.Stored read
  · obtain ⟨-, hfinal⟩ | ⟨hnew, -⟩ := Call.ledger_run hread hok
    · rw [hfinal]
      exact iff_of_true ⟨read, hread⟩ (.inl hstored)
    · exact absurd hstored hnew
  · rw [Call.rows_run hread hok hstored]
    constructor
    · rintro ⟨after, hafter⟩
      exact .inr (fits_of_rows_appendLedger hread hafter)
    · rintro (hfound | hfits)
      · exact absurd hfound hstored
      · exact ⟨_, rows_appendLedger_of_fits hread (wf_nextRow call.wf_payload) hfits⟩

/-! ## Small payloads -/

theorem byteSize_rowLine (row : Fields) : (rowLine row).byteSize = (Json.obj row).size + 1 := by
  rw [rowLine, Text.byteSize_append, byteSize_canonicalJson]
  rfl

theorem length_digestOfText (text : Text) : (digestOfText text).length = 71 := by
  have hhex : (String.ofList (sha256Hex text)).length = 64 := by
    rw [String.length_ofList, length_sha256Hex]
  rw [digestOfText, String.length_append, hhex]
  rfl

theorem size_digest_le (text : Text) : (Json.str (digestOfText text)).size ≤ 428 := by
  have hsize := Json.stringSize_le (digestOfText text)
  rw [length_digestOfText] at hsize
  exact hsize

theorem Chain.size_lastDigest_le {read : List Fields} (h : Chain 1 .null read) :
    (lastDigest .null read).size ≤ 428 := by
  rcases List.eq_nil_or_concat' read with rfl | ⟨before, row, rfl⟩
  · decide
  · rw [lastDigest_append, (chain_append_iff.mp h).2.digest]
    exact size_digest_le _

/-- The size of a row, from the size of its payload. -/
theorem size_nextRow_le {store : StoreDir} {read : List Fields} (hchain : Chain 1 .null read)
    (hend : AtEnd (position store read) read) (hcount : read.length ≤ maxLedgerRows)
    {entryType : String} (htype : entryType.length ≤ 8) (payload : Fields) :
    (Json.obj (nextRow entryType payload store read)).size ≤ (Json.obj payload).size + 1000 := by
  have hprevious := hchain.size_lastDigest_le
  have hdigest := size_digest_le (canonicalJson (.obj (rowBody entryType payload
    (position store read))))
  have hentryType := Json.stringSize_le entryType
  have hsequence : (Json.int ((position store read).sequence + 1)).size ≤ 7 := by
    rw [hend.sequence]
    refine Json.size_int_le (n := read.length + 1) (by decide) ?_
    rw [maxLedgerRows] at hcount
    omega
  have hkeys : stringSize "sequence" = 10 ∧ stringSize "entryType" = 11 ∧
      stringSize "previousDigest" = 16 ∧ stringSize "payload" = 9 ∧
      stringSize "entryDigest" = 13 := by decide
  rw [Json.size_obj]
  simp only [nextRow, makeLedgerRow, rowBody, List.cons_append, List.nil_append, List.map_cons,
    List.map_nil, List.sum_cons, List.sum_nil, hend.entryDigest, canonicalDigestOfAll,
    Json.size_str] at hdigest ⊢
  rw [hkeys.1, hkeys.2.1, hkeys.2.2.1, hkeys.2.2.2.1, hkeys.2.2.2.2]
  omega

theorem length_contentPath_le (type : ContentType) {digest : String} (h : digest.length ≤ 71) :
    (contentPath type digest).length ≤ 84 := by
  have hleading : (Str.removePrefix digest "sha256:").length ≤ digest.length := by
    rw [Str.removePrefix]
    split
    · rw [String.length_ofList, List.length_drop, String.length_toList]
      exact Nat.sub_le _ _
    · exact le_rfl
  have hdirectory : type.directory.length ≤ 7 := by cases type <;> decide
  have hslash : "/".length = 1 := rfl
  have hjson : ".json".length = 5 := rfl
  rw [contentPath, contentName, String.length_append, String.length_append, String.length_append]
  omega

/-- The digest of a valid entry, present or not, is short. -/
theorem digest_bounds {type : ContentType} {payload : Fields}
    (hvalid : validateEntry type payload = .ok []) :
    (Fields.get payload "contentDigest").size ≤ 428 ∧
      (Fields.get payload "contentDigest").pyStr.length ≤ 71 := by
  rcases validateEntry_digest hvalid with h | h
  · rw [h]
    decide
  · rw [h, Json.pyStr_str, canonicalDigest, length_digestOfText]
    exact ⟨size_digest_le _, le_rfl⟩

/-- The size of a journal, from the size of its payload. -/
theorem byteSize_nextJournal_le {type : ContentType} {payload : Fields} {store : StoreDir}
    {read : List Fields} (hread : rows store = .ok read) (hchain : Chain 1 .null read)
    (hend : AtEnd (position store read) read)
    (hvalid : validateEntry type payload = .ok []) (hsize : (Json.obj payload).size ≤ 10 ^ 7) :
    (nextJournal type payload store read).byteSize ≤ 7 * (Json.obj payload).size + 4000 := by
  obtain ⟨-, -, hbytes, hcount⟩ := rows_eq_ok_iff.mp hread
  obtain ⟨hdigestSize, hdigestLength⟩ := digest_bounds hvalid
  have htype : type.value.length ≤ 8 := by cases type <;> decide
  have hrow := size_nextRow_le hchain hend hcount htype payload
  have htypeSize := Json.stringSize_le type.value
  have hpath := Json.stringSize_le
    (contentPath type (Fields.get payload "contentDigest").pyStr)
  have hpathLength := length_contentPath_le type hdigestLength
  have hcontent := Json.stringSize_le (String.ofList (canonicalJson (.obj payload)))
  have hcontentLength := Json.length_le_byteSize (canonicalJson (.obj payload))
  have hrowDigest := size_digest_le
    (canonicalJson (.obj (nextRow type.value payload store read)))
  have hprevious := hchain.size_lastDigest_le
  have hversion : (Json.int transactionVersion).size = 1 := by decide
  have hsequence : (Json.int ((position store read).sequence + 1)).size ≤ 7 := by
    rw [hend.sequence]
    refine Json.size_int_le (n := read.length + 1) (by decide) ?_
    rw [maxLedgerRows] at hcount
    omega
  have hafter : (Json.int ((refreshed store read).ledgerBytes +
      (rowLine (nextRow type.value payload store read)).byteSize : Nat)).size ≤ 9 := by
    refine Json.size_int_le (by decide) ?_
    rw [StoreDir.ledgerBytes, ledger_refreshed, byteSize_rowLine]
    rw [maxLedgerBytes] at hbytes
    omega
  have hkeys : stringSize "version" = 9 ∧ stringSize "entryType" = 11 ∧
      stringSize "contentDigest" = 15 ∧ stringSize "contentPath" = 13 ∧
      stringSize "content" = 9 ∧ stringSize "ledgerRow" = 11 ∧
      stringSize "ledgerRowBytesDigest" = 22 ∧ stringSize "previousEntryDigest" = 21 ∧
      stringSize "sequence" = 10 ∧ stringSize "ledgerBytesAfter" = 18 := by decide
  rw [String.length_ofList] at hcontent
  rw [byteSize_canonicalJson] at hcontentLength
  rw [nextJournal, journalText, byteSize_canonicalJson, Json.size_obj]
  simp only [journalOf, List.map_cons, List.map_nil, List.sum_cons, List.sum_nil, hend.entryDigest,
    canonicalDigestOfAll, hkeys, hversion, Json.size_str]
  rw [Json.size_str] at hrowDigest
  omega

/-- A small row fits a ledger that has room for it. -/
theorem fits_of_small {store : StoreDir} {read : List Fields} (hchain : Chain 1 .null read)
    (hend : AtEnd (position store read) read) (hends : EndsLine (store.ledger.getD []))
    {entryType : String} (htype : entryType.length ≤ 8) {payload : Fields}
    (hsize : (Json.obj payload).size ≤ 10 ^ 6)
    (hbytes : store.ledgerBytes + (Json.obj payload).size + 1001 ≤ maxLedgerBytes)
    (hcount : read.length < maxLedgerRows) :
    Fits store read (nextRow entryType payload store read) := by
  have hrow := size_nextRow_le hchain hend hcount.le htype payload
  refine ⟨hends, ?_, ?_, hcount⟩
  · rw [byteSize_rowLine, maxLedgerLineBytes]
    omega
  · rw [byteSize_rowLine]
    omega

/-- Adding the digest adds its size. -/
theorem size_candidateOf_le {value : Mapping} (h : Fields.has value.fields "contentDigest" = false) :
    (Json.obj (candidateOf value)).size ≤ (Json.obj value.fields).size + 500 := by
  have hnot : "contentDigest" ∉ Fields.keys value.fields := by
    rw [← Fields.get?_eq_none_iff]
    simpa [Fields.has] using h
  have hdigest := size_digest_le (dumps (.obj (identityProjection value.fields)))
  have hkey : stringSize "contentDigest" = 15 := by decide
  rw [candidateOf, if_neg (by simp [h]), withDigest_eq_canonFields value.wf, canonFields,
    ← Json.sortKeys_obj_eq, Json.size_sortKeys, ← canonicalize_obj, size_canonicalize,
    Fields.set_of_not_mem _ hnot, Json.size_obj, Json.size_obj, List.map_append, List.sum_append]
  simp only [List.map_cons, List.map_nil, List.sum_cons, List.sum_nil, canonicalDigest, hkey]
  omega

/-- A small new entry is committed. -/
theorem add_of_small (host : Host) {type : ContentType} {value : Mapping} {store : StoreDir}
    {read : List Fields} (h : Verified store read) (hend : AtEnd (position store read) read)
    (hadmission : admission type store (candidateOf value) = .ok false)
    (hsize : (Json.obj (candidateOf value)).size ≤ 10 ^ 6) :
    ∃ out, (add host type value store).result = .ok out ∧
      (add host type value store).trace = (commit host type (candidateOf value) store).trace ∧
      (add host type value store).final = committed type (candidateOf value) store read := by
  obtain ⟨read', hadmitted⟩ := admitted_of_admit hadmission
  obtain rfl := Except.ok.inj (h.rows.symm.trans hadmitted.rows)
  have hjournal := byteSize_nextJournal_le h.rows h.chain hend hadmitted.valid (hsize.trans (by decide))
  have hlimit : (nextJournal type (candidateOf value) store read).byteSize ≤
      maxTransactionBytes := by
    rw [maxTransactionBytes]
    omega
  have hcommit := commit_apply host h.transactions h.rows (wf_candidateOf value) hlimit
    (h.readContent_eq_none hadmitted.valid hadmitted.new)
  obtain ⟨hfinal, htrace⟩ := final_add_of_new host hadmission
  refine ⟨(candidateOf value, (Fields.get (candidateOf value) "contentDigest").pyStr), ?_, htrace, ?_⟩
  · rw [add_of_new host hadmission, hcommit]
    rfl
  · rw [hfinal, hcommit]

/-- A small entry that is admitted while its content file is there is committed
without a new file. -/
theorem add_of_same (host : Host) {type : ContentType} {value : Mapping} {store : StoreDir}
    {read : List Fields} (hread : rows store = .ok read) (htransactions : store.transactions = some [])
    (hchain : Chain 1 .null read) (hend : AtEnd (position store read) read)
    (hadmission : admission type store (candidateOf value) = .ok false)
    (hsame : store.readContent type (Fields.get (candidateOf value) "contentDigest").pyStr =
      some (canonicalJson (.obj (candidateOf value))))
    (hsize : (Json.obj (candidateOf value)).size ≤ 10 ^ 6) :
    (add host type value store).final =
      (refreshed store read).extended (nextRow type.value (candidateOf value) store read) := by
  obtain ⟨read', hadmitted⟩ := admitted_of_admit hadmission
  have hjournal := byteSize_nextJournal_le hread hchain hend hadmitted.valid (hsize.trans (by decide))
  have hlimit : (nextJournal type (candidateOf value) store read).byteSize ≤
      maxTransactionBytes := by
    rw [maxTransactionBytes]
    omega
  rw [(final_add_of_new host hadmission).1]
  exact (commit_of_same host htransactions hread (wf_candidateOf value) hlimit hsame).1

/-- A new store has room for every small entry. -/
theorem fits_fresh {entryType : String} (htype : entryType.length ≤ 8) {payload : Fields}
    (hsize : (Json.obj payload).size ≤ 2500) :
    Fits .fresh [] (nextRow entryType payload .fresh []) := by
  have hroom : ∀ n ≤ 2500, StoreDir.fresh.ledgerBytes + n + 1001 ≤ maxLedgerBytes := by
    intro n hn
    rw [ledgerBytes_fresh, maxLedgerBytes]
    omega
  exact fits_of_small verified_fresh.chain atEnd_fresh endsLine_fresh htype (hsize.trans (by decide))
    (hroom _ hsize) (by decide)

/-- A snapshot with a text as long as the longest line. -/
def longSnapshot : Mapping where
  fields := [("schema_version", .str snapshotSchema),
    ("note", .str (String.ofList (List.replicate maxLedgerLineBytes 'a')))]
  wf := rfl

theorem long_snapshot_unreadable :
    rows .fresh = .ok [] ∧ (Call.run .plain (.snapshot longSnapshot) .fresh).result = .ok () ∧
      ¬ ∃ after, rows (Call.run .plain (.snapshot longSnapshot) .fresh).final = .ok after := by
  have hok := (@Call.run_snapshot longSnapshot .plain _ _ verified_fresh.transactions verified_fresh.rows).2
  refine ⟨verified_fresh.rows, hok, ?_⟩
  rintro ⟨after, hafter⟩
  rw [Call.rows_run verified_fresh.rows hok id] at hafter
  have hfits := fits_of_rows_appendLedger verified_fresh.rows hafter
  have hrow : ("payload", Json.obj longSnapshot.fields) ∈
      (Call.snapshot longSnapshot).row .fresh [] := by
    simp [Call.row, nextRow, makeLedgerRow, rowBody, Call.payload]
  have hnote : ("note", Json.str (String.ofList (List.replicate maxLedgerLineBytes 'a'))) ∈
      longSnapshot.fields := by
    simp [longSnapshot]
  have hlong := Json.length_le_stringSize (String.ofList (List.replicate maxLedgerLineBytes 'a'))
  have hpayload := Json.size_le_size_obj hrow
  have htext := Json.size_le_size_obj hnote
  have hline := hfits.line
  rw [byteSize_rowLine] at hline
  rw [String.length_ofList, List.length_replicate] at hlong
  rw [Json.size_str] at htext
  dsimp only at hpayload
  omega

/-- After a short snapshot the ledger is readable. -/
theorem short_snapshot_readable :
    ∃ after, rows (Call.run .plain (.snapshot ⟨[], rfl⟩) .fresh).final = .ok after :=
  (readable_after_iff .plain verified_fresh.rows
    (Call.run_snapshot verified_fresh.transactions verified_fresh.rows).2).mpr
      (.inr (fits_fresh (by decide) (by decide)))

end MncsCommons.Store
