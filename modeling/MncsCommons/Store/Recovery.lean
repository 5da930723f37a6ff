/-
# Crash recovery

What `recover` makes of the states a commit can leave behind.  A state with the
journal is recovered exactly when the entry names its digest, its unordered
arrays are in canonical order, the row fits the read limits, the tail cache the
commit trusted was the end of the ledger, and no earlier row has the digest of
the new one (`recovers_iff`).  A state without the journal, between the creation
of the transaction directory and the journal or between the removal of the
journal and of the directory, is never recovered.
-/

import MncsCommons.Store.Limits

namespace MncsCommons.Store

open MncsCommons.Data MncsCommons.Protocol MncsCommons.Exec

/-! ## Reading the journal -/

section Journal

variable {type : ContentType} {payload row : Fields} {tail : LedgerTail} {size : Nat}
  {store : StoreDir} {name : String} {files : Dir}

theorem get_journal (type : ContentType) (payload row : Fields) (tail : LedgerTail) (size : Nat)
    (key : String) :
    Fields.get (canonFields (journalOf type payload row tail size)) key =
      (Fields.get (journalOf type payload row tail size) key).sortKeys := by
  rw [canonFields_journalOf, Fields.get_sortKeys]

theorem journalType_journalOf :
    journalType (canonFields (journalOf type payload row tail size)) name = .ok type := by
  have hget : Fields.get (canonFields (journalOf type payload row tail size)) "entryType" =
      .str type.value := get_journal type payload row tail size "entryType"
  rw [journalType, hget]
  cases type <;> rfl

theorem journalContent_journalOf :
    journalContent (canonFields (journalOf type payload row tail size)) =
      .ok (canonicalJson (.obj payload)) := by
  have hget : Fields.get (canonFields (journalOf type payload row tail size)) "content" =
      .str (String.ofList (canonicalJson (.obj payload))) :=
    get_journal type payload row tail size "content"
  simp [journalContent, hget]

/-- The path of an entry's content file is a safe one. -/
theorem unsafeContentPath_contentPath (type : ContentType) (payload : Fields) :
    unsafeContentPath (contentPath type (canonicalDigest payload)) = false := by
  obtain ⟨hex, hhex, hdigest⟩ : ∃ hex : Text, '/' ∉ hex ∧
      (contentName (canonicalDigest payload)).toList = hex ++ ".json".toList := by
    refine ⟨sha256Hex (dumps (.obj (identityProjection payload))), fun hmem => ?_, ?_⟩
    · exact absurd (isLowerHex_of_mem_sha256Hex hmem) (by decide)
    · rw [contentName, canonicalDigest, digestOfText, Str.removePrefix_append]
      simp
  have hname : '/' ∉ hex ++ ".json".toList := by
    rw [List.mem_append, not_or]
    exact ⟨hhex, by decide⟩
  have hpath : (contentPath type (canonicalDigest payload)).toList =
      type.directory.toList ++ '/' :: (hex ++ ".json".toList) := by
    rw [contentPath, String.toList_append, String.toList_append, hdigest]
    simp
  have hlength : ∀ text : Text, text.length < 3 → text ≠ hex ++ ['.', 'j', 's', 'o', 'n'] := by
    rintro text htext rfl
    rw [List.length_append] at htext
    exact absurd htext (Nat.not_lt.mpr (Nat.le_add_left_of_le (by decide)))
  rw [unsafeContentPath, hpath, Str.startsWith, hpath]
  cases type <;>
    rw [Str.splitChar_append (by decide), Str.splitChar_of_not_mem hname] <;>
    simp [ContentType.directory, hlength, List.isPrefixOf]

/-- The candidate has its unordered arrays in canonical order. -/
def InOrder (candidate : Fields) : Prop :=
  (Json.obj candidate).pyEq (canon (.obj candidate)) = true

instance (candidate : Fields) : Decidable (InOrder candidate) :=
  inferInstanceAs (Decidable (_ = true))

theorem journalValue_pending (hpayload : (Json.obj payload).wf = true)
    (hrow : (Json.obj row).wf = true) (htail : tail.entryDigest.wf = true)
    (hsize : (canonicalJson (.obj (journalOf type payload row tail size))).byteSize ≤
      maxTransactionBytes)
    (hfile : Fields.get? files "journal.json" =
      some (canonicalJson (.obj (journalOf type payload row tail size)))) :
    journalValue (store.pending name files) name =
      .ok (canonFields (journalOf type payload row tail size)) := by
  have hloads : loads (canonicalJson (.obj (journalOf type payload row tail size))) =
      some (.obj (canonFields (journalOf type payload row tail size))) := by
    rw [loads_canonicalJson (wf_journalOf hpayload hrow htail), canon_obj]
  have hversion : Fields.get (canonFields (journalOf type payload row tail size)) "version" =
      .int transactionVersion := get_journal type payload row tail size "version"
  have hkeys : (["entryType", "contentDigest", "contentPath", "content", "ledgerRow"].all fun key =>
      Fields.has (canonFields (journalOf type payload row tail size)) key) = true := by
    simp only [canonFields_journalOf, Fields.has_sortKeys]
    rfl
  have hread : readTransactionFile (store.pending name files) name "journal.json" =
      .ok (canonicalJson (.obj (journalOf type payload row tail size))) := by
    simp [readTransactionFile, hfile]
  simp only [journalValue, hread, hloads, hversion, hkeys, raiseIf, not_lt.mpr hsize, bind,
    Except.bind, pure, Except.pure, Json.pyEq_self, decide_false, Bool.not_true,
    Bool.false_eq_true, if_false]

theorem journalObjects_journalOf (hpayload : (Json.obj payload).wf = true) :
    journalObjects (canonFields (journalOf type payload row tail size)) name
        (canonicalJson (.obj payload)) = .ok (canonFields payload, Fields.sortKeys row) := by
  have hledgerRow : Fields.get (canonFields (journalOf type payload row tail size)) "ledgerRow" =
      .obj (Fields.sortKeys row) :=
    (get_journal type payload row tail size "ledgerRow").trans (Json.sortKeys_obj_eq row)
  rw [journalObjects, loads_canonicalJson hpayload, canon_obj, hledgerRow]
  rfl

/-- Of the checks of a journal that the store itself wrote, all but two hold. -/
theorem checkJournal_eq_ok_iff (hpayload : (Json.obj payload).wf = true)
    (hvalid : validateEntry type payload = .ok [])
    (hrowType : Fields.get row "entryType" = .str type.value)
    (hrowPayload : Fields.get row "payload" = .obj payload) {found : ContentType} :
    checkJournal (canonFields (journalOf type payload row tail size)) name
        (canonicalJson (.obj payload)) (canonFields payload) (Fields.sortKeys row) = .ok found ↔
      found = type ∧ Fields.get payload "contentDigest" ≠ .null ∧ InOrder payload := by
  have hrowDigest : Fields.get (canonFields (journalOf type payload row tail size))
      "ledgerRowBytesDigest" = .str (canonicalDigestOfAll row) :=
    get_journal type payload row tail size "ledgerRowBytesDigest"
  have hpath : Fields.get (canonFields (journalOf type payload row tail size)) "contentPath" =
      .str (contentPath type (Fields.get payload "contentDigest").pyStr) :=
    get_journal type payload row tail size "contentPath"
  have hdigest : Fields.get (canonFields (journalOf type payload row tail size)) "contentDigest" =
      (Fields.get payload "contentDigest").sortKeys :=
    get_journal type payload row tail size "contentDigest"
  have hcontentDigest : Fields.get (canonFields payload) "contentDigest" =
      (Fields.get payload "contentDigest").sortKeys := get_canonFields_of_inert (by decide) payload
  have hjson : canonicalJson (.obj (canonFields payload)) = canonicalJson (.obj payload) := by
    rw [← canon_obj, canonicalJson_canon]
  have horder : (Fields.get (Fields.sortKeys row) "payload").pyEq (.obj (canonFields payload)) =
      (Json.obj payload).pyEq (canon (.obj payload)) := by
    rw [Fields.get_sortKeys, hrowPayload, Json.pyEq_sortKeys_left, canon_obj]
  simp only [checkJournal, Py.bind_eq_ok_iff, raiseIf_eq_ok_iff, journalType_journalOf, hpath,
    hdigest, hrowDigest, hcontentDigest, hjson, horder, canonicalDigest_canonFields hpayload,
    canonicalDigestOfAll_sortKeys]
  rcases validateEntry_digest hvalid with hnull | hstr
  · simp [hnull]
  · simp [hstr, unsafeContentPath_contentPath, hrowType, InOrder, pure, Except.pure,
      and_comm, eq_comm (a := type)]

/-- The journal of a commit as it is read back. -/
def writtenJournal (type : ContentType) (payload : Fields) (tail : LedgerTail) (size : Nat) :
    Journal :=
  ⟨canonFields (journalOf type payload (makeLedgerRow type.value payload tail) tail size),
    Fields.sortKeys (makeLedgerRow type.value payload tail), canonicalJson (.obj payload)⟩

@[simp]
theorem row_writtenJournal (type : ContentType) (payload : Fields) (tail : LedgerTail)
    (size : Nat) :
    (writtenJournal type payload tail size).row =
      Fields.sortKeys (makeLedgerRow type.value payload tail) := rfl

@[simp]
theorem content_writtenJournal (type : ContentType) (payload : Fields) (tail : LedgerTail)
    (size : Nat) :
    (writtenJournal type payload tail size).content = canonicalJson (.obj payload) := rfl

@[simp]
theorem path_writtenJournal (type : ContentType) (payload : Fields) (tail : LedgerTail)
    (size : Nat) :
    (writtenJournal type payload tail size).path =
      contentPath type (Fields.get payload "contentDigest").pyStr := by
  rw [Journal.path, writtenJournal, get_journal]
  rfl

/-- The journal of a commit is accepted when the entry names its digest and is in
canonical order. -/
theorem verifyJournal_eq_ok_iff (hpayload : (Json.obj payload).wf = true)
    (htail : tail.entryDigest.wf = true) (hvalid : validateEntry type payload = .ok [])
    (hsize : (canonicalJson (.obj (journalOf type payload
      (makeLedgerRow type.value payload tail) tail size))).byteSize ≤ maxTransactionBytes)
    (hfile : Fields.get? files "journal.json" = some (canonicalJson (.obj (journalOf type payload
      (makeLedgerRow type.value payload tail) tail size)))) {journal : Journal} :
    verifyJournal (store.pending name files) name = .ok journal ↔
      journal = writtenJournal type payload tail size ∧
        Fields.get payload "contentDigest" ≠ .null ∧ InOrder payload := by
  have hrow : (Json.obj (makeLedgerRow type.value payload tail)).wf = true :=
    wf_makeLedgerRow hpayload htail
  simp only [verifyJournal, Py.bind_eq_ok_iff,
    journalValue_pending hpayload hrow htail hsize hfile, journalContent_journalOf,
    Except.ok.injEq, exists_eq_left', journalObjects_journalOf hpayload,
    checkJournal_eq_ok_iff hpayload hvalid (rfl : Fields.get (makeLedgerRow type.value payload tail) "entryType" = _) rfl,
    pure, Except.pure]
  constructor
  · rintro ⟨_, ⟨-, hdigest, horder⟩, rfl⟩
    exact ⟨rfl, hdigest, horder⟩
  · rintro ⟨rfl, hdigest, horder⟩
    exact ⟨type, ⟨rfl, hdigest, horder⟩, rfl⟩

end Journal

/-! ## Finishing the transaction -/

theorem rowLine_sortKeys (row : Fields) : rowLine (Fields.sortKeys row) = rowLine row := by
  rw [rowLine, ← Json.sortKeys_obj_eq, canonicalJson_sortKeys, rowLine]

/-- The row of a journal is appended as the row itself. -/
theorem extended_sortKeys (store : StoreDir) (entryType : String) (payload : Fields)
    (tail : LedgerTail) :
    store.extended (Fields.sortKeys (makeLedgerRow entryType payload tail)) =
      store.extended (makeLedgerRow entryType payload tail) := by
  rw [StoreDir.extended, StoreDir.tailAt, rowLine_sortKeys, Fields.get_sortKeys,
    Fields.get_sortKeys]
  rfl

theorem appendRow_writeTail_pending (store : StoreDir) (name : String) (files : Dir)
    (row : Fields) :
    (do appendRow row; writeTail row : StoreM Unit) (store.pending name files) =
      ⟨[(store.appendLedger (rowLine row)).pending name files,
        (store.extended row).pending name files], (store.extended row).pending name files,
        .ok ()⟩ := rfl

section Settle

variable {type : ContentType} {payload : Fields} {tail : LedgerTail} {size : Nat}
  {base : StoreDir} {name : String} {files : Dir} {read : List Fields}

/-- The check of `redo` is that the tail was the end of the ledger. -/
theorem redo_check_iff (hchain : Chain 1 .null read) :
    (!(lastDigest .null read).pyEq
          (Fields.get (writtenJournal type payload tail size).value "previousEntryDigest") ||
        !(Fields.get (writtenJournal type payload tail size).row "sequence").pyEq
          (.int (read.length + 1))) = false ↔ AtEnd tail read := by
  have hprevious : Fields.get (writtenJournal type payload tail size).value "previousEntryDigest" =
      tail.entryDigest.sortKeys := by
    rw [writtenJournal, get_journal]
    rfl
  have hsequence : Fields.get (writtenJournal type payload tail size).row "sequence" =
      .int (tail.sequence + 1) := by
    rw [row_writtenJournal, Fields.get_sortKeys]
    rfl
  have hpyEq : (lastDigest .null read).pyEq tail.entryDigest = true ↔
      tail.entryDigest = lastDigest .null read := by
    rw [Json.pyEq_comm]
    rcases hchain.lastDigest_eq with h | ⟨digest, h⟩ <;> simp [h]
  rw [hprevious, hsequence, Json.pyEq_sortKeys_right, Bool.or_eq_false_iff, Bool.not_eq_false',
    Bool.not_eq_false', hpyEq, Json.pyEq_int_iff]
  exact ⟨fun ⟨hp, hs⟩ => ⟨by omega, hp⟩, fun ⟨hs, hp⟩ => ⟨hp, by omega⟩⟩

/-- The store with the content file, which it may already have. -/
def StoreDir.ensureContent (store : StoreDir) (type : ContentType) (payload : Fields) : StoreDir :=
  match store.readContent type (Fields.get payload "contentDigest").pyStr with
  | some _ => store
  | none => store.withContent type payload

theorem redo_of_not_atEnd (hchain : Chain 1 .null read) (hend : ¬ AtEnd tail read)
    (store : StoreDir) :
    (redo name (writtenJournal type payload tail size) read store).result ≠ .ok () := by
  have hcheck := mt (@redo_check_iff type payload _ size _ hchain).mp hend
  rw [Bool.not_eq_false] at hcheck
  simp only [redo, Program.bind_apply, Program.get_apply, Run.andThen_ok, Program.lift_apply,
    hcheck, raiseIf, if_true, Run.andThen_error]
  intro hok
  cases hok

theorem redo_of_atEnd (hchain : Chain 1 .null read) (hend : AtEnd tail read)
    (hfile : ∀ text, base.readContent type (Fields.get payload "contentDigest").pyStr = some text →
      text = canonicalJson (.obj payload)) :
    ∃ trace, redo name (writtenJournal type payload tail size) read (base.pending name files) =
      ⟨trace, ((base.ensureContent type payload).extended
        (makeLedgerRow type.value payload tail)).pending name files, .ok ()⟩ := by
  have hcheck := (@redo_check_iff type payload _ size _ hchain).mpr hend
  have hsteps : ∀ store : StoreDir, ∃ trace,
      (do appendRow (writtenJournal type payload tail size).row
          writeTail (writtenJournal type payload tail size).row : StoreM Unit)
        (store.pending name files) =
        ⟨trace, (store.extended (makeLedgerRow type.value payload tail)).pending name files,
          .ok ()⟩ := by
    intro store
    rw [appendRow_writeTail_pending, row_writtenJournal, extended_sortKeys]
    exact ⟨_, rfl⟩
  simp only [redo, Program.bind_apply, Program.get_apply, Run.andThen_ok, Program.lift_apply,
    hcheck, raiseIf, path_writtenJournal, content_writtenJournal, readPath_contentPath,
    readContent_pending, Bool.false_eq_true, if_false]
  cases hread : base.readContent type (Fields.get payload "contentDigest").pyStr with
  | some text =>
      obtain ⟨trace, htrace⟩ := hsteps base
      rw [Program.bind_apply] at htrace
      simp only [StoreDir.ensureContent, hread, hfile text hread, ne_eq, not_true, decide_false,
        Bool.false_eq_true, if_false, Program.lift_apply, Run.andThen_ok, Program.bind_apply, htrace]
      exact ⟨_, rfl⟩
  | none =>
      obtain ⟨trace, htrace⟩ := hsteps (base.withContent type payload)
      rw [Program.bind_apply, StoreDir.withContent] at htrace
      simp only [StoreDir.ensureContent, hread, Run.andThen_ok, Program.bind_apply,
        Program.step_apply, writePath_pending, htrace]
      exact ⟨_, rfl⟩

/-- A stored row does not equal one with a new payload. -/
theorem pyEq_row_eq_false (hnew : Fresh type read payload)
    (hdigest : Fields.get payload "contentDigest" = .str (canonicalDigest payload)) {row : Fields}
    (hrow : row ∈ read) :
    (Json.obj row).pyEq (.obj (Fields.sortKeys (makeLedgerRow type.value payload tail))) = false := by
  rw [← Bool.not_eq_true]
  intro h
  have htype := Json.pyEq_get h "entryType"
  have hpayload := Json.pyEq_get h "payload"
  have hnewType : Fields.get (makeLedgerRow type.value payload tail) "entryType" =
      .str type.value := rfl
  have hnewPayload : Fields.get (makeLedgerRow type.value payload tail) "payload" =
      .obj payload := rfl
  rw [Fields.get_sortKeys, Json.pyEq_sortKeys_right] at htype hpayload
  rw [hnewType, Json.pyEq_str_iff] at htype
  rw [hnewPayload] at hpayload
  obtain ⟨old, hold⟩ := Json.exists_obj_of_pyEq hpayload
  refine hnew old (mem_payloadsFromRows_iff.mpr ⟨row, hrow, htype, hold⟩) ?_
  rw [hold] at hpayload
  have hequal := Json.pyEq_get hpayload "contentDigest"
  rw [hdigest, Json.pyEq_str_iff] at hequal
  rw [hequal, hdigest, Json.pyStr_str]

/-- No row has the digest of the new one. -/
def Unique (type : ContentType) (payload : Fields) (tail : LedgerTail) (read : List Fields) : Prop :=
  ∀ row ∈ read, Fields.get row "entryDigest" ≠
    .str (canonicalDigestOfAll (rowBody type.value payload tail))

theorem matches_row_iff {row : Fields} :
    (Fields.get row "entryDigest").pyEq
        (Fields.get (Fields.sortKeys (makeLedgerRow type.value payload tail)) "entryDigest") = true ↔
      Fields.get row "entryDigest" =
        .str (canonicalDigestOfAll (rowBody type.value payload tail)) := by
  rw [Fields.get_sortKeys, Json.pyEq_sortKeys_right]
  exact Json.pyEq_str_iff

theorem Unique.find?_eq_none (hunique : Unique type payload tail read) :
    (read.find? fun item => (Fields.get item "entryDigest").pyEq
      (Fields.get (Fields.sortKeys (makeLedgerRow type.value payload tail)) "entryDigest")) =
        none := by
  rw [List.find?_eq_none]
  exact fun row hrow hmatch => hunique row hrow (matches_row_iff.mp hmatch)

theorem settle_of_unique (hunique : Unique type payload tail read) :
    settle name (writtenJournal type payload tail size) read =
      redo name (writtenJournal type payload tail size) read := by
  rw [settle, row_writtenJournal, hunique.find?_eq_none]

/-- A row with the digest that is not the new row stops the recovery. -/
theorem settle_of_not_unique (hnew : Fresh type read payload)
    (hdigest : Fields.get payload "contentDigest" = .str (canonicalDigest payload))
    (hunique : ¬ Unique type payload tail read) (more : List Fields) (store : StoreDir) :
    (settle name (writtenJournal type payload tail size) (read ++ more) store).result ≠ .ok () := by
  obtain ⟨row, hfind⟩ : ∃ row, (read.find? fun item => (Fields.get item "entryDigest").pyEq
      (Fields.get (Fields.sortKeys (makeLedgerRow type.value payload tail)) "entryDigest")) =
        some row := by
    rw [← Option.isSome_iff_exists, List.find?_isSome]
    by_contra hnone
    exact hunique fun row hrow hrowDigest =>
      hnone ⟨row, hrow, matches_row_iff.mpr hrowDigest⟩
  have hfalse := @pyEq_row_eq_false _ _ tail _ hnew hdigest _ (List.mem_of_find?_eq_some hfind)
  rw [settle, row_writtenJournal, List.find?_append, hfind, Option.some_or]
  simp only [hfalse, Bool.not_false, raiseIf, if_true, Program.lift_apply]
  intro hok
  cases hok

/-- A row that is in the ledger is left there. -/
theorem settle_of_appended (hunique : Unique type payload tail read) (store : StoreDir) :
    settle name (writtenJournal type payload tail size)
        (read ++ [canonFields (makeLedgerRow type.value payload tail)]) store =
      ⟨[], store, .ok ()⟩ := by
  rw [settle, row_writtenJournal, List.find?_append, hunique.find?_eq_none, Option.none_or,
    canonFields_makeLedgerRow]
  simp [raiseIf]

end Settle

/-! ## One transaction -/

section RecoverOne

variable (host : Host) {type : ContentType} {payload : Fields} {tail : LedgerTail} {size : Nat}
  {base : StoreDir} {name : String} {files : Dir}

/-- Without a journal nothing is recovered. -/
theorem recoverOne_of_no_journal (h : Fields.get? files "journal.json" = none) :
    (recoverOne host name (base.pending name files)).result ≠ .ok () := by
  have hread : readTransactionFile (base.pending name files) name "journal.json" =
      .error (.osError ("No such file or directory: " ++ "journal.json")) := by
    simp [readTransactionFile, h]
  have hverify : verifyJournal (base.pending name files) name =
      .error (.osError ("No such file or directory: " ++ "journal.json")) := by
    simp only [verifyJournal, journalValue, hread, bind, Except.bind]
  simp [recoverOne, hverify]

/-- What a recovery of a commit's transaction has established. -/
theorem settled_of_recoverOne (hpayload : (Json.obj payload).wf = true)
    (htail : tail.entryDigest.wf = true) (hvalid : validateEntry type payload = .ok [])
    (hsize : (canonicalJson (.obj (journalOf type payload
      (makeLedgerRow type.value payload tail) tail size))).byteSize ≤ maxTransactionBytes)
    (hfile : Fields.get? files "journal.json" = some (canonicalJson (.obj (journalOf type payload
      (makeLedgerRow type.value payload tail) tail size))))
    (hbase : base.transactions = some [])
    (hok : (recoverOne host name (base.pending name files)).result = .ok ()) :
    Fields.get payload "contentDigest" ≠ .null ∧ InOrder payload ∧
      ∃ current, rows base = .ok current ∧
        (settle name (writtenJournal type payload tail size) current
          (base.pending name files)).result = .ok () := by
  simp only [recoverOne, Program.bind_apply, Program.get_apply, Program.lift_apply, Run.andThen_ok,
    Run.andThen_result_eq_ok_iff, rows_pending base name files hbase] at hok
  obtain ⟨journal, hverify, current, hrows, _, hsettle, -⟩ := hok
  obtain ⟨rfl, hdigest, horder⟩ :=
    (verifyJournal_eq_ok_iff hpayload htail hvalid hsize hfile).mp hverify
  exact ⟨hdigest, horder, current, hrows, hsettle⟩

/-- A settled transaction whose content file is there is removed. -/
theorem recoverOne_of_settled (hpayload : (Json.obj payload).wf = true)
    (htail : tail.entryDigest.wf = true) (hvalid : validateEntry type payload = .ok [])
    (hsize : (canonicalJson (.obj (journalOf type payload
      (makeLedgerRow type.value payload tail) tail size))).byteSize ≤ maxTransactionBytes)
    (hfile : Fields.get? files "journal.json" = some (canonicalJson (.obj (journalOf type payload
      (makeLedgerRow type.value payload tail) tail size))))
    (hbase : base.transactions = some []) (hdigest : Fields.get payload "contentDigest" ≠ .null)
    (horder : InOrder payload) {current : List Fields} (hrows : rows base = .ok current)
    {trace : List StoreDir} {after : StoreDir}
    (hsettle : settle name (writtenJournal type payload tail size) current
      (base.pending name files) = ⟨trace, after.pending name files, .ok ()⟩)
    (hafter : after.transactions = some [])
    (hcontent : after.readContent type (Fields.get payload "contentDigest").pyStr =
      some (canonicalJson (.obj payload))) :
    (recoverOne host name (base.pending name files)).result = .ok () ∧
      (recoverOne host name (base.pending name files)).final = after := by
  have hverify := (@verifyJournal_eq_ok_iff _ _ _ _ base name _ hpayload htail hvalid hsize hfile _).mpr ⟨rfl, hdigest, horder⟩
  have hcheck : (after.pending name files).readPath (writtenJournal type payload tail size).path =
      some (writtenJournal type payload tail size).content := by
    rw [path_writtenJournal, readPath_contentPath, readContent_pending, hcontent]
    rfl
  simp only [recoverOne, Program.bind_apply, Program.get_apply, Program.lift_apply, Run.andThen_ok,
    hverify, rows_pending base name files hbase, hrows, hsettle, hcheck, raiseIf, ne_eq, not_true,
    decide_false, Bool.false_eq_true, if_false, removeTransaction_apply host hafter, and_self]

end RecoverOne

/-! ## The whole recovery -/

theorem recover_result_iff (host : Host) {store : StoreDir} {name : String}
    (hinit : store.isInitialized = true) (hpending : pendingTransactions store = [name]) :
    (recover host store).result = .ok [] ↔
      (recoverOne host name store).result = .ok () ∧
        verify (recoverOne host name store).final = .ok [] := by
  have hrequire : requireInitialized store = .ok () := by
    rw [requireInitialized, raiseIf_eq_ok_iff, hinit]
    rfl
  rw [recover, Program.bind_apply, Program.get_apply, Run.andThen_ok, Program.bind_apply,
    Program.lift_apply, hrequire, Run.andThen_ok, Program.bind_apply, hpending, recoverAll]
  cases hresult : (recoverOne host name store).result with
  | ok _ => simp [Run.andThen, hresult, recoverAll]
  | error error =>
      by_cases hfailure : isRecoveryFailure error = true <;> simp [hresult, hfailure]

theorem recover_final (host : Host) {store : StoreDir} {name : String}
    (hinit : store.isInitialized = true) (hpending : pendingTransactions store = [name])
    (hok : (recoverOne host name store).result = .ok ()) :
    (recover host store).final = (recoverOne host name store).final := by
  have hrequire : requireInitialized store = .ok () := by
    rw [requireInitialized, raiseIf_eq_ok_iff, hinit]
    rfl
  rw [recover, Program.bind_apply, Program.get_apply, Run.andThen_ok, Program.bind_apply,
    Program.lift_apply, hrequire, Run.andThen_ok, Program.bind_apply, hpending, recoverAll]
  simp [Run.andThen, hok, recoverAll]

/-! ## Crashed commits -/

/-- The states of the store beside the transaction directory. -/
inductive CommitStage (type : ContentType) (payload : Fields) (store : StoreDir)
    (read : List Fields) : StoreDir → Prop
  | unchanged : CommitStage type payload store read (refreshed store read)
  | content : CommitStage type payload store read (filed type payload store read)
  | row : CommitStage type payload store read ((filed type payload store read).appendLedger
      (rowLine (nextRow type.value payload store read)))
  | tail : CommitStage type payload store read (committed type payload store read)

/-- A state in which a commit leaves its transaction behind. -/
theorem exists_stage_of_mem_trace (host : Host) {type : ContentType} {payload : Fields}
    {store crashed : StoreDir} {read : List Fields} (h : store.transactions = some [])
    (hread : rows store = .ok read) (hpayload : (Json.obj payload).wf = true)
    (hsize : (nextJournal type payload store read).byteSize ≤ maxTransactionBytes)
    (hnone : store.readContent type (Fields.get payload "contentDigest").pyStr = none)
    (hcrash : crashed ∈ (commit host type payload store).trace)
    (hpending : pendingTransactions crashed ≠ []) :
    ∃ base files, crashed = base.pending host.transactionName files ∧
      CommitStage type payload store read base ∧
      (Fields.get? files "journal.json" = none ∨
        Fields.get? files "journal.json" = some (nextJournal type payload store read)) := by
  have hempty : ∀ base : StoreDir, base.transactions = some [] → pendingTransactions base = [] := by
    intro base hbase
    rw [pendingTransactions, hbase]
    rfl
  have hfiles : Fields.get? (nextFiles type payload store read) "journal.json" =
      some (nextJournal type payload store read) := rfl
  rw [commit_apply host h hread hpayload hsize hnone, loadTail_apply hread] at hcrash
  simp only [List.mem_append, List.mem_cons, List.not_mem_nil, or_false, List.mem_map] at hcrash
  rcases hcrash with hload | (rfl | rfl | rfl) | (rfl | rfl | rfl) | ⟨files, hmem, rfl⟩ | rfl
  · split at hload
    · cases hload
    · obtain rfl := List.mem_singleton.mp hload
      exact absurd (hempty _ (transactions_refreshed h)) hpending
  · exact ⟨_, _, rfl, .unchanged, .inl rfl⟩
  · exact ⟨_, _, rfl, .unchanged, .inr rfl⟩
  · exact ⟨_, _, rfl, .unchanged, .inr hfiles⟩
  · exact ⟨_, _, rfl, .content, .inr hfiles⟩
  · exact ⟨_, _, rfl, .row, .inr hfiles⟩
  · exact ⟨_, _, rfl, .tail, .inr hfiles⟩
  · refine ⟨_, _, rfl, .tail, ?_⟩
    rcases get?_of_mem_removing hmem "journal.json" with hget | hget
    · exact .inr (hget.trans hfiles)
    · exact .inl hget
  · refine absurd (hempty _ ?_) hpending
    simpa [committed, filed, StoreDir.extended, StoreDir.tailAt, StoreDir.appendLedger] using
      transactions_refreshed h

/-- What makes the transaction of a commit recoverable while its journal is there. -/
structure Recoverable (type : ContentType) (candidate : Fields) (store : StoreDir)
    (read : List Fields) : Prop where
  digest : Fields.get candidate "contentDigest" ≠ .null
  inOrder : InOrder candidate
  atEnd : AtEnd (position store read) read
  fits : Fits store read (nextRow type.value candidate store read)
  unique : Unique type candidate (position store read) read

/-- The pending transactions of a state have their journals. -/
def HasJournal (crashed : StoreDir) : Prop :=
  ∀ name ∈ pendingTransactions crashed,
    ((crashed.transaction name).bind fun files => Fields.get? files "journal.json").isSome = true

/-- One call of `recover` on a crashed store: it reports nothing, the ledger is
the old one or the old one with the row of the call, every content file belongs
to a row, and no transaction is pending. -/
def Recovers (host : Host) (type : ContentType) (candidate : Fields) (store : StoreDir)
    (read : List Fields) (crashed : StoreDir) : Prop :=
  (recover host crashed).result = .ok [] ∧
    requireNoPending (recover host crashed).final = .ok () ∧
    ∃ after, rows (recover host crashed).final = .ok after ∧
      (∀ other, Owned (recover host crashed).final after other) ∧
      (after = read ∨
        after = read ++ [canonFields (nextRow type.value candidate store read)])

section Crashed

variable {type : ContentType} {candidate : Fields} {store : StoreDir} {read : List Fields}

theorem verified_refreshed (h : Verified store read) : Verified (refreshed store read) read := by
  rw [refreshed_eq]
  exact h.withTail _

theorem fits_refreshed_iff {row : Fields} :
    Fits (refreshed store read) read row ↔ Fits store read row := by
  constructor <;> rintro ⟨hends, hline, hbytes, hcount⟩ <;>
    exact ⟨by simpa using hends, hline, by simpa [StoreDir.ledgerBytes] using hbytes, hcount⟩

theorem transactions_filed (h : store.transactions = some []) :
    (filed type candidate store read).transactions = some [] := by
  simpa [filed] using transactions_refreshed h

theorem transactions_committed (h : store.transactions = some []) :
    (committed type candidate store read).transactions = some [] := by
  rw [committed, StoreDir.extended, StoreDir.tailAt, StoreDir.appendLedger]
  exact transactions_filed h

theorem readContent_filed :
    (filed type candidate store read).readContent type
      (Fields.get candidate "contentDigest").pyStr = some (canonicalJson (.obj candidate)) :=
  readContent_withContent _ _ _

theorem readContent_committed :
    (committed type candidate store read).readContent type
      (Fields.get candidate "contentDigest").pyStr = some (canonicalJson (.obj candidate)) := by
  rw [committed, StoreDir.extended, StoreDir.tailAt, readContent_withTail, readContent_appendLedger,
    readContent_filed]

/-- The rows after the content file are the rows before it. -/
theorem rows_filed (hread : rows store = .ok read) :
    rows (filed type candidate store read) = .ok read := by
  obtain ⟨hinit, hrest⟩ := rows_eq_ok_iff.mp hread
  refine rows_eq_ok_iff.mpr ⟨isInitialized_withContent _ _ _ ?_, by simpa [filed] using hrest⟩
  rw [refreshed_eq]
  exact hinit

/-- A commit is verified exactly under the conditions on its row. -/
theorem verify_committed_iff (h : Verified store read) (hwf : (Json.obj candidate).wf = true)
    (hvalid : validateEntry type candidate = .ok []) (hnew : Fresh type read candidate) :
    (∃ after, Verified ((filed type candidate store read).appendLedger
        (rowLine (nextRow type.value candidate store read))) after) ↔
      Fields.get candidate "contentDigest" ≠ .null ∧ AtEnd (position store read) read ∧
        Fits store read (nextRow type.value candidate store read) := by
  constructor
  · rintro ⟨after, hafter⟩
    obtain ⟨hdigest, hend, hfits⟩ :=
      (verified_refreshed h).of_committed hwf (wf_position store read) hafter
    exact ⟨hdigest, hend, fits_refreshed_iff.mp hfits⟩
  · rintro ⟨hdigest, hend, hfits⟩
    exact ⟨_, (verified_refreshed h).committed hwf (wf_position store read) hvalid hnew hdigest
      hend (fits_refreshed_iff.mpr hfits)⟩

section Stages

variable (host : Host) {base : StoreDir} {name : String} {files : Dir}
  (h : Verified store read) (hwf : (Json.obj candidate).wf = true)
  (hvalid : validateEntry type candidate = .ok []) (hnew : Fresh type read candidate)
  (hsize : (nextJournal type candidate store read).byteSize ≤ maxTransactionBytes)
  (hfile : Fields.get? files "journal.json" = some (nextJournal type candidate store read))

include h hwf hvalid hsize hfile

/-- A commit that has not appended its row is redone. -/
theorem recoverOne_redone (hbase : base.transactions = some []) (hrows : rows base = .ok read)
    (hcontent : ∀ text, base.readContent type (Fields.get candidate "contentDigest").pyStr =
      some text → text = canonicalJson (.obj candidate))
    (hensure : base.ensureContent type candidate = filed type candidate store read)
    (hdigest : Fields.get candidate "contentDigest" ≠ .null) (horder : InOrder candidate)
    (hend : AtEnd (position store read) read)
    (hunique : Unique type candidate (position store read) read) :
    (recoverOne host name (base.pending name files)).result = .ok () ∧
      (recoverOne host name (base.pending name files)).final =
        committed type candidate store read := by
  obtain ⟨trace, hredo⟩ := @redo_of_atEnd type candidate _ (refreshed store read).ledgerBytes _ name files _ h.chain hend hcontent
  rw [hensure, ← settle_of_unique hunique, ← nextRow, ← committed] at hredo
  rw [nextJournal, journalText, nextRow] at hsize hfile
  exact recoverOne_of_settled host hwf (wf_position store read) hvalid hsize hfile hbase hdigest
    horder hrows hredo (transactions_committed h.transactions) readContent_committed

/-- A commit that has appended its row is only cleaned up. -/
theorem recoverOne_appended (hbase : base.transactions = some [])
    (hrows : rows base = rows ((filed type candidate store read).appendLedger
      (rowLine (nextRow type.value candidate store read))))
    (hcontent : base.readContent type (Fields.get candidate "contentDigest").pyStr =
      some (canonicalJson (.obj candidate)))
    (hdigest : Fields.get candidate "contentDigest" ≠ .null) (horder : InOrder candidate)
    (hfits : Fits (filed type candidate store read) read
      (nextRow type.value candidate store read))
    (hunique : Unique type candidate (position store read) read) :
    (recoverOne host name (base.pending name files)).result = .ok () ∧
      (recoverOne host name (base.pending name files)).final = base := by
  have hread := rows_appendLedger_of_fits (rows_filed h.rows)
    (wf_nextRow hwf) hfits
  rw [nextJournal, journalText, nextRow] at hsize hfile
  exact recoverOne_of_settled host hwf (wf_position store read) hvalid hsize hfile hbase hdigest
    horder (hrows.trans hread) (settle_of_appended hunique _) hbase hcontent

omit hvalid hsize hfile in
/-- The row that a verified result has in its ledger is verified before the tail
is written. -/
theorem recoverable_of_verify {final : StoreDir} (hvalid : validateEntry type candidate = .ok [])
    (hnew : Fresh type read candidate)
    (hfinal : ∃ tail, final = { (filed type candidate store read).appendLedger
      (rowLine (nextRow type.value candidate store read)) with tail := tail })
    (hverify : verify final = .ok []) (horder : InOrder candidate)
    (hunique : Unique type candidate (position store read) read) :
    Recoverable type candidate store read := by
  obtain ⟨tail, rfl⟩ := hfinal
  obtain ⟨after, hafter⟩ := verify_eq_nil_iff.mp hverify
  obtain ⟨hdigest, hend, hfits⟩ := (verify_committed_iff h hwf hvalid hnew).mp
    ⟨after, hafter.withTail ((filed type candidate store read).appendLedger
      (rowLine (nextRow type.value candidate store read))).tail⟩
  exact ⟨hdigest, horder, hend, hfits, hunique⟩

omit hsize hfile in
theorem verified_of_recoverable (hnew : Fresh type read candidate)
    (hrec : Recoverable type candidate store read) (tail : Option Text) :
    Verified { (filed type candidate store read).appendLedger
      (rowLine (nextRow type.value candidate store read)) with tail := tail }
      (read ++ [canonFields (nextRow type.value candidate store read)]) :=
  ((verified_refreshed h).committed hwf (wf_position store read) hvalid hnew hrec.digest hrec.atEnd
    (fits_refreshed_iff.mpr hrec.fits)).withTail tail

/-- Recovery of a commit that has not appended its row. -/
theorem recoverOne_before_iff (hnew : Fresh type read candidate)
    (hbase : base.transactions = some []) (hrows : rows base = .ok read)
    (hcontent : ∀ text, base.readContent type (Fields.get candidate "contentDigest").pyStr =
      some text → text = canonicalJson (.obj candidate))
    (hensure : base.ensureContent type candidate = filed type candidate store read) :
    ((recoverOne host name (base.pending name files)).result = .ok () ∧
        verify (recoverOne host name (base.pending name files)).final = .ok [] ↔
      Recoverable type candidate store read) ∧
    (Recoverable type candidate store read →
      Verified (recoverOne host name (base.pending name files)).final
        (read ++ [canonFields (nextRow type.value candidate store read)])) := by
  have hredone := @recoverOne_redone _ _ _ _ host _ name _ h hwf hvalid hsize hfile hbase hrows
    hcontent hensure
  have hverified : Recoverable type candidate store read →
      Verified (recoverOne host name (base.pending name files)).final
        (read ++ [canonFields (nextRow type.value candidate store read)]) := by
    intro hrec
    rw [(hredone hrec.digest hrec.inOrder hrec.atEnd hrec.unique).2]
    exact verified_of_recoverable h hwf hvalid hnew hrec _
  refine ⟨⟨?_, fun hrec => ⟨(hredone hrec.digest hrec.inOrder hrec.atEnd hrec.unique).1,
    verify_eq_nil_iff.mpr ⟨_, hverified hrec⟩⟩⟩, hverified⟩
  rintro ⟨hok, hverify⟩
  rw [nextJournal, journalText, nextRow] at hsize hfile
  obtain ⟨hdigest, horder, current, hcurrent, hsettle⟩ :=
    settled_of_recoverOne host hwf (wf_position store read) hvalid hsize hfile hbase hok
  obtain rfl := Except.ok.inj (hrows.symm.trans hcurrent)
  have hstr := (validateEntry_digest hvalid).resolve_left hdigest
  have hunique : Unique type candidate (position store read) read := by
    by_contra hnot
    have hstopped := @settle_of_not_unique _ _ _ (refreshed store read).ledgerBytes name _ hnew hstr hnot [] (base.pending name files)
    rw [List.append_nil] at hstopped
    exact hstopped hsettle
  have hend : AtEnd (position store read) read := by
    by_contra hnot
    rw [settle_of_unique hunique] at hsettle
    exact redo_of_not_atEnd h.chain hnot _ hsettle
  rw [(hredone hdigest horder hend hunique).2] at hverify
  exact recoverable_of_verify h hwf hvalid hnew ⟨_, rfl⟩ hverify horder hunique

/-- Recovery of a commit that has appended its row. -/
theorem recoverOne_after_iff (hnew : Fresh type read candidate)
    (hbase : base.transactions = some [])
    (hfinal : ∃ tail, base = { (filed type candidate store read).appendLedger
      (rowLine (nextRow type.value candidate store read)) with tail := tail }) :
    ((recoverOne host name (base.pending name files)).result = .ok () ∧
        verify (recoverOne host name (base.pending name files)).final = .ok [] ↔
      Recoverable type candidate store read) ∧
    (Recoverable type candidate store read →
      Verified (recoverOne host name (base.pending name files)).final
        (read ++ [canonFields (nextRow type.value candidate store read)])) := by
  have hrows : rows base = rows ((filed type candidate store read).appendLedger
      (rowLine (nextRow type.value candidate store read))) := by
    obtain ⟨tail, rfl⟩ := hfinal
    rfl
  have hcontent : base.readContent type (Fields.get candidate "contentDigest").pyStr =
      some (canonicalJson (.obj candidate)) := by
    obtain ⟨tail, rfl⟩ := hfinal
    rw [readContent_withTail, readContent_appendLedger, readContent_filed]
  have happended := @recoverOne_appended _ _ _ _ host _ name _ h hwf hvalid hsize hfile hbase hrows
    hcontent
  have hfits : Recoverable type candidate store read → Fits (filed type candidate store read) read
      (nextRow type.value candidate store read) := fun hrec =>
    ⟨by simpa [filed] using hrec.fits.endsLine, hrec.fits.line,
      by simpa [filed, StoreDir.ledgerBytes] using hrec.fits.bytes, hrec.fits.count⟩
  have hverified : Recoverable type candidate store read →
      Verified (recoverOne host name (base.pending name files)).final
        (read ++ [canonFields (nextRow type.value candidate store read)]) := by
    intro hrec
    rw [(happended hrec.digest hrec.inOrder (hfits hrec) hrec.unique).2]
    obtain ⟨tail, rfl⟩ := hfinal
    exact verified_of_recoverable h hwf hvalid hnew hrec tail
  refine ⟨⟨?_, fun hrec => ⟨(happended hrec.digest hrec.inOrder (hfits hrec) hrec.unique).1,
    verify_eq_nil_iff.mpr ⟨_, hverified hrec⟩⟩⟩, hverified⟩
  rintro ⟨hok, hverify⟩
  rw [nextJournal, journalText, nextRow] at hsize hfile
  obtain ⟨hdigest, horder, current, hcurrent, hsettle⟩ :=
    settled_of_recoverOne host hwf (wf_position store read) hvalid hsize hfile hbase hok
  have hfits' := fits_of_rows_appendLedger (rows_filed h.rows) (hrows.symm.trans hcurrent)
  have hread := rows_appendLedger_of_fits (rows_filed h.rows)
    (wf_nextRow hwf) hfits'
  obtain rfl := Except.ok.inj (hread.symm.trans (hrows.symm.trans hcurrent))
  have hstr := (validateEntry_digest hvalid).resolve_left hdigest
  have hunique : Unique type candidate (position store read) read := by
    by_contra hnot
    exact settle_of_not_unique hnew hstr hnot _ _ hsettle
  rw [(happended hdigest horder hfits' hunique).2] at hverify
  exact recoverable_of_verify h hwf hvalid hnew hfinal hverify horder hunique

end Stages

end Crashed

theorem HasJournal.iff_isSome {base : StoreDir} {name : String} {files : Dir} :
    HasJournal (base.pending name files) ↔ (Fields.get? files "journal.json").isSome = true := by
  simp [HasJournal]

theorem Verified.recovers {host : Host} {type : ContentType} {candidate : Fields}
    {store crashed : StoreDir} {read : List Fields}
    (hok : (recover host crashed).result = .ok [])
    (h : Verified (recover host crashed).final
      (read ++ [canonFields (nextRow type.value candidate store read)])) :
    Recovers host type candidate store read crashed := by
  refine ⟨hok, ?_, _, h.rows, h.owned, .inr rfl⟩
  simp [requireNoPending, h.noPending]

theorem isInitialized_pending {base : StoreDir} (h : base.isInitialized = true) (name : String)
    (files : Dir) : (base.pending name files).isInitialized = true := by
  simp_all [StoreDir.isInitialized, StoreDir.pending]

theorem CommitStage.isInitialized {type : ContentType} {candidate : Fields} {store base : StoreDir}
    {read : List Fields} (hstage : CommitStage type candidate store read base)
    (hread : rows store = .ok read) : base.isInitialized = true := by
  have hfiled := (rows_eq_ok_iff.mp (@rows_filed type candidate _ _ hread)).1
  have hrow := StoreDir.isInitialized_appendLedger hfiled
    (rowLine (nextRow type.value candidate store read))
  cases hstage with
  | unchanged =>
      rw [refreshed_eq]
      exact (rows_eq_ok_iff.mp hread).1
  | content => exact hfiled
  | row => exact hrow
  | tail => exact hrow

/-- From the recovery of the one transaction to the whole recovery. -/
theorem recovers_pending_iff {recovering : Host} {type : ContentType} {candidate : Fields}
    {store base : StoreDir} {read : List Fields} {name : String} {files : Dir}
    (hinit : (base.pending name files).isInitialized = true)
    (hone : ((recoverOne recovering name (base.pending name files)).result = .ok () ∧
        verify (recoverOne recovering name (base.pending name files)).final = .ok [] ↔
      Recoverable type candidate store read) ∧
      (Recoverable type candidate store read →
        Verified (recoverOne recovering name (base.pending name files)).final
          (read ++ [canonFields (nextRow type.value candidate store read)]))) :
    Recovers recovering type candidate store read (base.pending name files) ↔
      Recoverable type candidate store read := by
  have hresult := recover_result_iff recovering hinit (pendingTransactions_pending base name files)
  constructor
  · rintro ⟨hok, -⟩
    exact hone.1.mp (hresult.mp hok)
  · intro hrec
    have hok := hone.1.mpr hrec
    refine Verified.recovers (hresult.mpr hok) ?_
    rw [recover_final recovering hinit (pendingTransactions_pending base name files) hok.1]
    exact hone.2 hrec

theorem recovers_commit_iff (host recovering : Host) {type : ContentType} {candidate : Fields}
    {store crashed : StoreDir} {read : List Fields} (h : Verified store read)
    (hwf : (Json.obj candidate).wf = true) (hvalid : validateEntry type candidate = .ok [])
    (hnew : Fresh type read candidate)
    (hsize : (nextJournal type candidate store read).byteSize ≤ maxTransactionBytes)
    (hcrash : crashed ∈ (commit host type candidate store).trace)
    (hpending : pendingTransactions crashed ≠ []) :
    Recovers recovering type candidate store read crashed ↔
      HasJournal crashed ∧ Recoverable type candidate store read := by
  have hnone := h.readContent_eq_none hvalid hnew
  obtain ⟨base, files, rfl, hstage, hjournal⟩ := exists_stage_of_mem_trace host h.transactions
    h.rows hwf hsize hnone hcrash hpending
  have hinit := isInitialized_pending (hstage.isInitialized h.rows) host.transactionName files
  rw [HasJournal.iff_isSome]
  rcases hjournal with hgone | hfile
  · -- the journal is gone or was never written
    rw [hgone]
    refine iff_of_false (fun hrecovers => ?_) (by simp)
    exact recoverOne_of_no_journal recovering hgone
      ((recover_result_iff recovering hinit (pendingTransactions_pending _ _ _)).mp hrecovers.1).1
  · rw [hfile, Option.isSome_some, eq_self_iff_true, true_and]
    refine recovers_pending_iff hinit ?_
    cases hstage with
    | unchanged =>
        refine recoverOne_before_iff recovering h hwf hvalid hsize hfile hnew
          (transactions_refreshed h.transactions) (verified_refreshed h).rows ?_ ?_
        · intro text htext
          rw [readContent_refreshed, hnone] at htext
          cases htext
        · rw [StoreDir.ensureContent, readContent_refreshed, hnone, filed]
    | content =>
        refine recoverOne_before_iff recovering h hwf hvalid hsize hfile hnew
          (transactions_filed h.transactions) (rows_filed h.rows) ?_ ?_
        · intro text htext
          rw [readContent_filed] at htext
          exact (Option.some.inj htext).symm
        · rw [StoreDir.ensureContent, readContent_filed]
    | row =>
        exact recoverOne_after_iff recovering h hwf hvalid hsize hfile hnew
          (transactions_filed h.transactions) ⟨_, rfl⟩
    | tail =>
        exact recoverOne_after_iff recovering h hwf hvalid hsize hfile hnew
          (transactions_committed h.transactions) ⟨_, rfl⟩

/-- A crashed call is recovered by one `recover` exactly when its journal is
there and the call was recoverable. -/
theorem recovers_iff (host recovering : Host) {type : ContentType} {value : Mapping}
    {store crashed : StoreDir} {read : List Fields} {out : Fields × String}
    (hverify : verify store = .ok []) (hread : rows store = .ok read)
    (hadd : (add host type value store).result = .ok out)
    (hcrash : crashed ∈ (add host type value store).trace)
    (hpending : pendingTransactions crashed ≠ []) :
    Recovers recovering type (candidateOf value) store read crashed ↔
      HasJournal crashed ∧ Recoverable type (candidateOf value) store read := by
  obtain ⟨read', h⟩ := verify_eq_nil_iff.mp hverify
  obtain rfl := Except.ok.inj (hread.symm.trans h.rows)
  cases hadmission : admission type store (candidateOf value) with
  | error error =>
      rw [add_of_error host hadmission] at hadd
      cases hadd
  | ok stored =>
      cases stored with
      | true =>
          rw [add_of_stored host hadmission] at hcrash
          cases hcrash
      | false =>
          obtain ⟨read', hadmitted⟩ := admitted_of_admit hadmission
          obtain rfl := Except.ok.inj (hread.symm.trans hadmitted.rows)
          have hwf := wf_candidateOf value
          have hok := commit_ok_of_add host hadd hadmission
          have hsize := size_of_commit host hadmitted.transactions hread hok
          have hnone := h.readContent_eq_none hadmitted.valid hadmitted.new
          rw [(final_add_of_new host hadmission).2] at hcrash
          exact recovers_commit_iff host recovering h hwf hadmitted.valid hadmitted.new hsize
            hcrash hpending

theorem size_firstRecord_le : (Json.obj (candidateOf firstRecord)).size ≤ 2500 := by
  have hdigest : Fields.has firstRecord.fields "contentDigest" = false := by decide +kernel
  have hvalue : (Json.obj firstRecord.fields).size ≤ 2000 := by
    rw [Json.size_eq_byteSize_quickRender]
    decide +kernel
  have hsize := size_candidateOf_le hdigest
  omega

theorem add_firstRecord (host : Host) :
    ∃ out, (add host .record firstRecord .fresh).result = .ok out ∧
      (add host .record firstRecord .fresh).trace =
        (commit host .record (candidateOf firstRecord) .fresh).trace ∧
      (add host .record firstRecord .fresh).final =
        committed .record (candidateOf firstRecord) .fresh [] := by
  exact add_of_small host verified_fresh atEnd_fresh admit_firstRecord
    (size_firstRecord_le.trans (by decide))

theorem refreshed_fresh : refreshed .fresh [] = .fresh := by
  rw [refreshed, trustedTail_fresh]

/-- The states of the first commit begin with the directory and the journal. -/
theorem commit_firstRecord :
    ∃ rest, (commit .plain .record (candidateOf firstRecord) .fresh).trace =
      StoreDir.fresh.pending "t" [] :: StoreDir.fresh.pending "t"
        [("journal.json", nextJournal .record (candidateOf firstRecord) .fresh [])] :: rest := by
  obtain ⟨out, hok, -, -⟩ := add_firstRecord .plain
  have hcommit := commit_ok_of_add .plain hok admit_firstRecord
  have hname : Host.plain.transactionName = "t" := rfl
  obtain ⟨read, hadmitted⟩ := admitted_of_admit admit_firstRecord
  obtain rfl := Except.ok.inj (verified_fresh.rows.symm.trans hadmitted.rows)
  rw [commit_apply .plain verified_fresh.transactions verified_fresh.rows
    (wf_candidateOf firstRecord) (size_of_commit .plain verified_fresh.transactions
      verified_fresh.rows hcommit) (verified_fresh.readContent_eq_none hadmitted.valid hadmitted.new),
    loadTail_apply verified_fresh.rows, trustedTail_fresh, refreshed_fresh, hname]
  exact ⟨_, rfl⟩

theorem recoverable_firstRecord : Recoverable .record (candidateOf firstRecord) .fresh [] where
  digest := by
    rw [candidateOf, if_neg (by decide), get_withDigest firstRecord.wf]
    intro hnull
    cases hnull
  inOrder := by
    rw [InOrder, candidateOf_firstRecord, ← canon_obj, canon_canon, Json.pyEq_self]
  atEnd := atEnd_fresh
  fits := fits_fresh (by decide) size_firstRecord_le
  unique := by
    intro row hrow
    cases hrow

/-- A crash between the creation of the transaction directory and the journal is
not recovered. -/
theorem crash_without_journal_not_recovered :
    verify .fresh = .ok [] ∧ rows .fresh = .ok [] ∧
      (∃ out, (add .plain .record firstRecord .fresh).result = .ok out) ∧
      StoreDir.fresh.pending "t" [] ∈ (add .plain .record firstRecord .fresh).trace ∧
      pendingTransactions (StoreDir.fresh.pending "t" []) ≠ [] ∧
      ¬ Recovers .plain .record (candidateOf firstRecord) .fresh []
        (StoreDir.fresh.pending "t" []) := by
  obtain ⟨out, hok, htrace, -⟩ := add_firstRecord .plain
  have hinit : (StoreDir.fresh.pending "t" []).isInitialized = true := rfl
  refine ⟨verify_eq_nil_iff.mpr ⟨[], verified_fresh⟩, verified_fresh.rows, ⟨out, hok⟩, ?_, by simp, ?_⟩
  · obtain ⟨rest, hstates⟩ := commit_firstRecord
    rw [htrace, hstates]
    exact List.mem_cons_self
  · rintro ⟨hrecovered, -⟩
    rw [recover_result_iff .plain hinit (pendingTransactions_pending _ _ _)] at hrecovered
    exact recoverOne_of_no_journal .plain rfl hrecovered.1

/-- A crash after the journal is written is recovered. -/
theorem crash_with_journal_recovered :
    Recovers .plain .record (candidateOf firstRecord) .fresh []
      (StoreDir.fresh.pending "t"
        [("journal.json", nextJournal .record (candidateOf firstRecord) .fresh [])]) := by
  obtain ⟨out, hok, htrace, -⟩ := add_firstRecord .plain
  refine (recovers_iff .plain .plain (verify_eq_nil_iff.mpr ⟨[], verified_fresh⟩)
    verified_fresh.rows hok ?_ (by simp)).mpr ⟨HasJournal.iff_isSome.mpr rfl, recoverable_firstRecord⟩
  obtain ⟨rest, hstates⟩ := commit_firstRecord
  rw [htrace, hstates]
  exact List.mem_cons_of_mem _ List.mem_cons_self

end MncsCommons.Store
