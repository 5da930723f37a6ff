/-
# The states a commit passes through

A commit on a store without pending transactions goes through a fixed list of
states (`commit_apply`): the tail cache is refreshed if it is not trusted, then
a transaction directory holds nothing, the journal, the journal and the content
while the store itself has first no change, then the content file, the row and
the new tail, and last the directory is emptied and removed.
-/

import MncsCommons.Store.Append

namespace MncsCommons.Store

open MncsCommons.Data MncsCommons.Protocol MncsCommons.Exec

/-! ## The tail -/

/-- The tail that the next call writes at. -/
def position (store : StoreDir) (read : List Fields) : LedgerTail :=
  (trustedTail store).getD (tailFromRows store read)

/-- The store after the tail is read. -/
def refreshed (store : StoreDir) (read : List Fields) : StoreDir :=
  match trustedTail store with
  | some _ => store
  | none =>
      let tail := tailFromRows store read
      { store with tail := some (tailText (.int tail.sequence) tail.entryDigest store.ledgerBytes) }

theorem refreshed_eq (store : StoreDir) (read : List Fields) :
    refreshed store read = { store with tail := (refreshed store read).tail } := by
  rw [refreshed]
  cases trustedTail store <;> rfl

theorem wf_cachedTail {store : StoreDir} {tail : LedgerTail} (h : cachedTail store = some tail) :
    tail.entryDigest.wf = true := by
  simp only [cachedTail, Option.bind_eq_bind, Option.bind_eq_some_iff,
    Option.ite_none_left_eq_some] at h
  obtain ⟨raw, -, -, value, ⟨_, hloads, hobj⟩, _, -, _, -, h⟩ := h
  obtain rfl := Option.some.inj h
  rw [Json.obj?_eq_some_iff.mp hobj] at hloads
  exact Json.wf_get (wf_of_loads hloads) "entryDigest"

theorem trustedTail_eq_some {store : StoreDir} {tail : LedgerTail}
    (h : trustedTail store = some tail) : cachedTail store = some tail := by
  simp only [trustedTail, Option.bind_eq_bind, Option.bind_eq_some_iff,
    Option.ite_none_right_eq_some] at h
  obtain ⟨cached, hcached, -, h⟩ := h
  split at h
  · rwa [← Option.some.inj h]
  · obtain ⟨_, -, -, h⟩ := Option.bind_eq_some_iff.mp h |>.imp fun _ h => by simpa using h
    rwa [← h]

theorem wf_position (store : StoreDir) (read : List Fields) :
    (position store read).entryDigest.wf = true := by
  rw [position]
  cases htail : trustedTail store with
  | some tail => exact wf_cachedTail (trustedTail_eq_some htail)
  | none =>
      rw [Option.getD_none, tailFromRows]
      cases read.getLast? <;> rfl

theorem loadTail_apply {store : StoreDir} {read : List Fields} (hread : rows store = .ok read) :
    loadTail store =
      ⟨if (trustedTail store).isSome then [] else [refreshed store read], refreshed store read,
        .ok (position store read)⟩ := by
  have hinit : requireInitialized store = .ok () := by
    rw [requireInitialized, raiseIf_eq_ok_iff, (rows_eq_ok_iff.mp hread).1]
    rfl
  cases htail : trustedTail store with
  | some tail => simp [loadTail, hinit, htail, refreshed, position]
  | none => simp [loadTail, hinit, htail, refreshed, position, hread]

/-! ## The transaction directory -/

/-- The store with one pending transaction. -/
def StoreDir.pending (store : StoreDir) (name : String) (files : Dir) : StoreDir :=
  { store with transactions := some [(name, files)] }

theorem setTransaction_of_empty {store : StoreDir} (h : store.transactions = some [])
    (name : String) (files : Dir) : store.setTransaction name files = store.pending name files := by
  simp [StoreDir.setTransaction, StoreDir.pending, h, Fields.set]

section Pending

variable (store : StoreDir) (name : String) (files : Dir)

@[simp]
theorem transaction_pending : (store.pending name files).transaction name = some files := by
  simp [StoreDir.transaction, StoreDir.pending, Fields.get?]

@[simp]
theorem setTransaction_pending (other : Dir) :
    (store.pending name files).setTransaction name other = store.pending name other := by
  simp [StoreDir.setTransaction, StoreDir.pending, Fields.set]

theorem dropTransaction_pending (h : store.transactions = some []) :
    (store.pending name files).dropTransaction name = store := by
  simp [StoreDir.dropTransaction, StoreDir.pending, Fields.erase, ← h]

@[simp]
theorem ledgerBytes_pending : (store.pending name files).ledgerBytes = store.ledgerBytes := rfl

@[simp]
theorem content_pending (type : ContentType) :
    (store.pending name files).content type = store.content type := by
  cases type <;> rfl

@[simp]
theorem readContent_pending (type : ContentType) (digest : String) :
    (store.pending name files).readContent type digest = store.readContent type digest := by
  simp [StoreDir.readContent]

theorem writePath_pending (path : String) (text : Text) :
    (store.pending name files).writePath path text =
      (store.writePath path text).pending name files := by
  rw [StoreDir.writePath, StoreDir.writePath]
  cases splitContentPath path with
  | none => rfl
  | some found => obtain ⟨type, file⟩ := found; cases type <;> rfl

theorem withContent_pending (type : ContentType) (payload : Fields) :
    (store.pending name files).withContent type payload =
      (store.withContent type payload).pending name files :=
  writePath_pending _ _ _ _ _

theorem appendLedger_pending (text : Text) :
    (store.pending name files).appendLedger text = (store.appendLedger text).pending name files :=
  rfl

theorem withTail_pending (tail : Option Text) :
    { store.pending name files with tail := tail } =
      StoreDir.pending { store with tail := tail } name files := rfl

@[simp]
theorem pendingTransactions_pending : pendingTransactions (store.pending name files) = [name] := rfl

theorem rows_pending (h : store.transactions = some []) :
    rows (store.pending name files) = rows store := by
  simp [rows, requireInitialized, StoreDir.isInitialized, StoreDir.pending, h]

end Pending

/-- The files that are left after each removal. -/
def removing : Dir → List String → List Dir
  | _, [] => []
  | files, file :: order => Fields.erase files file :: removing (Fields.erase files file) order

theorem removeTransaction_apply (host : Host) {store : StoreDir} (h : store.transactions = some [])
    (name : String) (files : Dir) :
    removeTransaction host name (store.pending name files) =
      ⟨(removing files (host.listing (Fields.keys files))).map (store.pending name) ++ [store],
        store, .ok ()⟩ := by
  have hloop : ∀ order : List String, ∀ files : Dir, ∃ last,
      Program.forEach order (fun file => Program.step fun store =>
        store.setTransaction name (Fields.erase ((store.transaction name).getD []) file))
          (store.pending name files) =
        (⟨(removing files order).map (store.pending name), store.pending name last, .ok ()⟩ :
          Run StoreDir PyError Unit) := by
    intro order
    induction order with
    | nil => exact fun files => ⟨files, rfl⟩
    | cons file order ih =>
        intro files
        obtain ⟨last, hlast⟩ := ih (Fields.erase files file)
        refine ⟨last, ?_⟩
        simp [removing, hlast]
  obtain ⟨last, hlast⟩ := hloop (host.listing (Fields.keys files)) files
  simp [removeTransaction, hlast, dropTransaction_pending, h]

/-- The journal is among the remaining files or gone. -/
theorem get?_of_mem_removing {files left : Dir} {order : List String} (h : left ∈ removing files order)
    (file : String) : Fields.get? left file = Fields.get? files file ∨ Fields.get? left file = none := by
  induction order generalizing files with
  | nil => cases h
  | cons removed order ih =>
      have hstep : Fields.get? (Fields.erase files removed) file = Fields.get? files file ∨
          Fields.get? (Fields.erase files removed) file = none := by
        rw [Fields.get?_erase]
        split <;> simp
      rcases List.mem_cons.mp h with rfl | h
      · exact hstep
      · rcases ih h with heq | hnone
        · rwa [heq]
        · exact .inr hnone

/-! ## Staging -/

theorem wf_journalOf {type : ContentType} {payload row : Fields} {tail : LedgerTail} {size : Nat}
    (hpayload : (Json.obj payload).wf = true) (hrow : (Json.obj row).wf = true)
    (htail : tail.entryDigest.wf = true) :
    (Json.obj (journalOf type payload row tail size)).wf = true := by
  have hdigest := Json.wf_get hpayload "contentDigest"
  have hscalar : ∀ s : String, (Json.str s).wf = true := fun _ => rfl
  have hint : ∀ n : Int, (Json.int n).wf = true := fun _ => rfl
  rw [Json.wf_obj_iff]
  refine ⟨?_, ?_⟩
  · change ["version", "entryType", "contentDigest", "contentPath", "content", "ledgerRow",
      "ledgerRowBytesDigest", "previousEntryDigest", "sequence", "ledgerBytesAfter"].Nodup
    decide
  · simp only [journalOf, List.forall_mem_cons]
    exact ⟨hint _, hscalar _, hdigest, hscalar _, hscalar _, hrow, hscalar _, htail, hint _, hint _,
      by simp⟩

/-- What a journal reads back as. -/
theorem canonFields_journalOf (type : ContentType) (payload row : Fields) (tail : LedgerTail)
    (size : Nat) :
    canonFields (journalOf type payload row tail size) =
      Fields.sortKeys (journalOf type payload row tail size) := by
  refine canonFields_of_inert_keys ?_
  change ∀ key ∈ ["version", "entryType", "contentDigest", "contentPath", "content", "ledgerRow",
    "ledgerRowBytesDigest", "previousEntryDigest", "sequence", "ledgerBytesAfter"], Inert [key]
  decide

/-- The journal of a row that a store writes next. -/
def journalText (type : ContentType) (payload row : Fields) (tail : LedgerTail)
    (store : StoreDir) : Text :=
  canonicalJson (.obj (journalOf type payload row tail store.ledgerBytes))

/-- The files of a staged transaction. -/
def stagedFiles (type : ContentType) (payload row : Fields) (tail : LedgerTail)
    (store : StoreDir) : Dir :=
  [("journal.json", journalText type payload row tail store),
    ("content.json", canonicalJson (.obj payload))]

/-- The name of a new transaction in a store that has none. -/
def Host.transactionName (host : Host) : String := host.freshName []

section Stage

variable (host : Host) (type : ContentType) (payload row : Fields) (tail : LedgerTail)
  {store : StoreDir}

theorem stageTransaction_apply (h : store.transactions = some [])
    (hsize : (journalText type payload row tail store).byteSize ≤ maxTransactionBytes) :
    stageTransaction host type payload row tail store =
      ⟨[store.pending host.transactionName [],
          store.pending host.transactionName
            [("journal.json", journalText type payload row tail store)],
          store.pending host.transactionName (stagedFiles type payload row tail store)],
        store.pending host.transactionName (stagedFiles type payload row tail store),
        .ok host.transactionName⟩ := by
  have hname : host.freshName (Fields.keys (store.transactions.getD [])) = host.transactionName := by
    rw [h]
    rfl
  have hlimit : ¬ maxTransactionBytes < Text.byteSize
      (canonicalJson (.obj (journalOf type payload row tail store.ledgerBytes))) := by
    simpa [journalText] using hsize
  simp [stageTransaction, hname, setTransaction_of_empty h, hlimit, writeTransactionFile,
    Fields.set, journalText, stagedFiles]

theorem stageTransaction_of_size (h : store.transactions = some [])
    (hsize : maxTransactionBytes < (journalText type payload row tail store).byteSize) :
    (stageTransaction host type payload row tail store).final = store ∧
      (stageTransaction host type payload row tail store).result =
        .error (.storeError "transaction exceeds bounded journal size") := by
  have hlimit : maxTransactionBytes < Text.byteSize
      (canonicalJson (.obj (journalOf type payload row tail store.ledgerBytes))) := hsize
  simp [stageTransaction, setTransaction_of_empty h, hlimit, removeTransaction_apply host h]

end Stage

/-! ## Finishing -/

/-- The store with the tail at a row just appended. -/
def StoreDir.tailAt (store : StoreDir) (row : Fields) : StoreDir :=
  { store with
    tail := some (tailText (Fields.get row "sequence") (Fields.get row "entryDigest")
      store.ledgerBytes) }

/-- The store with a row and the tail at it. -/
def StoreDir.extended (store : StoreDir) (row : Fields) : StoreDir :=
  (store.appendLedger (rowLine row)).tailAt row

section Finish

variable (host : Host) {type : ContentType} {payload row : Fields} {tail : LedgerTail}
  {store : StoreDir}

theorem finishTransaction_reads (hpayload : (Json.obj payload).wf = true)
    (hrow : (Json.obj row).wf = true) (htail : tail.entryDigest.wf = true) (name : String) :
    (readTransactionFile (store.pending name (stagedFiles type payload row tail store)) name
        "journal.json" >>= loadsObject) =
      .ok (Fields.sortKeys (journalOf type payload row tail store.ledgerBytes)) := by
  have hloads : loads (journalText type payload row tail store) =
      some (.obj (Fields.sortKeys (journalOf type payload row tail store.ledgerBytes))) := by
    rw [journalText, loads_canonicalJson (wf_journalOf hpayload hrow htail), canon_obj,
      canonFields_journalOf]
  simp [readTransactionFile, stagedFiles, Fields.get?, bind, Except.bind, loadsObject, hloads]

theorem contentPath_journalOf (type : ContentType) (payload row : Fields) (tail : LedgerTail)
    (size : Nat) :
    (Fields.get (Fields.sortKeys (journalOf type payload row tail size)) "contentPath").pyStr =
      contentPath type (Fields.get payload "contentDigest").pyStr := by
  rw [Fields.get_sortKeys]
  rfl

/-- The steps after the content file. -/
theorem appendRow_writeTail_apply (h : store.transactions = some []) (name : String)
    (files : Dir) (row : Fields) :
    (do appendRow row; writeTail row; removeTransaction host name : StoreM Unit)
        (store.pending name files) =
      ⟨[(store.appendLedger (rowLine row)).pending name files,
          (store.extended row).pending name files] ++
          ((removing files (host.listing (Fields.keys files))).map
            ((store.extended row).pending name) ++ [store.extended row]),
        store.extended row, .ok ()⟩ := by
  have htail : ∀ base : StoreDir,
      ({ base.pending name files with
        tail := some (tailText (Fields.get row "sequence") (Fields.get row "entryDigest")
          (base.pending name files).ledgerBytes) } : StoreDir) =
        (base.tailAt row).pending name files := fun _ => rfl
  have hextended : (store.extended row).transactions = some [] := h
  simp only [Program.bind_apply, appendRow, writeTail, Program.step_apply, Run.andThen_ok,
    appendLedger_pending, htail]
  rw [← StoreDir.extended, removeTransaction_apply host hextended]
  simp

/-- The steps that write a content file, or find it. -/
def contentStep (store : StoreDir) (type : ContentType) (payload : Fields) : StoreM Unit :=
  match store.readContent type (Fields.get payload "contentDigest").pyStr with
  | some text =>
      Program.lift (raiseIf (text ≠ canonicalJson (.obj payload))
        (.storeError ("content path collision for " ++
          (Fields.get payload "contentDigest").sortKeys.pyStr)))
  | none => Program.step fun store => store.withContent type payload

theorem contentStep_of_none
    (hnone : store.readContent type (Fields.get payload "contentDigest").pyStr = none) :
    contentStep store type payload = Program.step fun store => store.withContent type payload := by
  rw [contentStep, hnone]

theorem contentStep_of_some {text : Text}
    (hsome : store.readContent type (Fields.get payload "contentDigest").pyStr = some text) :
    contentStep store type payload =
      Program.lift (raiseIf (text ≠ canonicalJson (.obj payload))
        (.storeError ("content path collision for " ++
          (Fields.get payload "contentDigest").sortKeys.pyStr))) := by
  rw [contentStep, hsome]

theorem finishTransaction_eq (hpayload : (Json.obj payload).wf = true)
    (hrow : (Json.obj row).wf = true) (htail : tail.entryDigest.wf = true) (name : String) :
    finishTransaction host name row
        (store.pending name (stagedFiles type payload row tail store)) =
      ((contentStep store type payload)
        (store.pending name (stagedFiles type payload row tail store))).andThen fun _ =>
          (do appendRow row; writeTail row; removeTransaction host name) := by
  have hcontent : readTransactionFile (store.pending name (stagedFiles type payload row tail store))
      name "content.json" = .ok (canonicalJson (.obj payload)) := by
    simp [readTransactionFile, stagedFiles, Fields.get?]
  have hdigest : Fields.get (Fields.sortKeys (journalOf type payload row tail store.ledgerBytes))
      "contentDigest" = (Fields.get payload "contentDigest").sortKeys := by
    rw [Fields.get_sortKeys]
    rfl
  rw [finishTransaction]
  simp only [Program.bind_apply, Program.get_apply, Run.andThen_ok, Program.lift_apply,
    finishTransaction_reads hpayload hrow htail, hcontent, contentPath_journalOf,
    readPath_contentPath, readContent_pending, List.nil_append, contentStep, hdigest]
  cases store.readContent type (Fields.get payload "contentDigest").pyStr <;> rfl

theorem finishTransaction_apply (h : store.transactions = some [])
    (hpayload : (Json.obj payload).wf = true) (hrow : (Json.obj row).wf = true)
    (htail : tail.entryDigest.wf = true) (name : String)
    (hnone : store.readContent type (Fields.get payload "contentDigest").pyStr = none) :
    finishTransaction host name row
        (store.pending name (stagedFiles type payload row tail store)) =
      ⟨[(store.withContent type payload).pending name (stagedFiles type payload row tail store),
          ((store.withContent type payload).appendLedger (rowLine row)).pending name
            (stagedFiles type payload row tail store),
          ((store.withContent type payload).extended row).pending name
            (stagedFiles type payload row tail store)] ++
          ((removing (stagedFiles type payload row tail store)
            (host.listing ["journal.json", "content.json"])).map
              (((store.withContent type payload).extended row).pending name) ++
            [(store.withContent type payload).extended row]),
        (store.withContent type payload).extended row, .ok ()⟩ := by
  have hafter : (store.withContent type payload).transactions = some [] := by simpa using h
  rw [finishTransaction_eq host hpayload hrow htail, contentStep_of_none hnone, Program.step_apply,
    Run.andThen_ok, withContent_pending, appendRow_writeTail_apply host hafter]
  rfl

/-- A content file that has the content already is kept; then only the row and
the tail are written. -/
theorem finishTransaction_of_same (h : store.transactions = some [])
    (hpayload : (Json.obj payload).wf = true) (hrow : (Json.obj row).wf = true)
    (htail : tail.entryDigest.wf = true) (name : String)
    (hsame : store.readContent type (Fields.get payload "contentDigest").pyStr =
      some (canonicalJson (.obj payload))) :
    (finishTransaction host name row
        (store.pending name (stagedFiles type payload row tail store))).final =
          store.extended row ∧
      (finishTransaction host name row
        (store.pending name (stagedFiles type payload row tail store))).result = .ok () := by
  rw [finishTransaction_eq host hpayload hrow htail, contentStep_of_some hsame]
  simp only [ne_eq, not_true, decide_false, raiseIf, Bool.false_eq_true, if_false,
    Program.lift_apply, Run.andThen_ok, appendRow_writeTail_apply host h]
  exact ⟨trivial, trivial⟩

/-- A content file that is there must have the content. -/
theorem finishTransaction_of_some (h : store.transactions = some [])
    (hpayload : (Json.obj payload).wf = true) (hrow : (Json.obj row).wf = true)
    (htail : tail.entryDigest.wf = true) (name : String) {text : Text}
    (hsome : store.readContent type (Fields.get payload "contentDigest").pyStr = some text)
    (hok : (finishTransaction host name row
      (store.pending name (stagedFiles type payload row tail store))).result = .ok ()) :
    (finishTransaction host name row
      (store.pending name (stagedFiles type payload row tail store))).final =
        store.extended row := by
  by_cases htext : text = canonicalJson (.obj payload)
  · subst htext
    exact (finishTransaction_of_same host h hpayload hrow htail name hsome).1
  · rw [finishTransaction_eq host hpayload hrow htail, contentStep_of_some hsome] at hok
    simp [raiseIf, htext] at hok

end Finish

/-! ## Commits -/

/-- The row that the next call appends. -/
def nextRow (entryType : String) (payload : Fields) (store : StoreDir) (read : List Fields) :
    Fields :=
  makeLedgerRow entryType payload (position store read)

section Commit

variable (host : Host) {type : ContentType} {payload : Fields} {store : StoreDir}
  {read : List Fields}

/-- The journal of the next commit. -/
def nextJournal (type : ContentType) (payload : Fields) (store : StoreDir) (read : List Fields) :
    Text :=
  journalText type payload (nextRow type.value payload store read) (position store read)
    (refreshed store read)

/-- The files of the next commit's transaction. -/
def nextFiles (type : ContentType) (payload : Fields) (store : StoreDir) (read : List Fields) :
    Dir :=
  stagedFiles type payload (nextRow type.value payload store read) (position store read)
    (refreshed store read)

/-- The store after the next commit's content file. -/
def filed (type : ContentType) (payload : Fields) (store : StoreDir) (read : List Fields) :
    StoreDir :=
  (refreshed store read).withContent type payload

/-- The store after the next commit. -/
def committed (type : ContentType) (payload : Fields) (store : StoreDir) (read : List Fields) :
    StoreDir :=
  (filed type payload store read).extended (nextRow type.value payload store read)

theorem wf_nextRow {entryType : String} (hpayload : (Json.obj payload).wf = true) :
    (Json.obj (nextRow entryType payload store read)).wf = true :=
  wf_makeLedgerRow hpayload (wf_position store read)

theorem transactions_refreshed (h : store.transactions = some []) :
    (refreshed store read).transactions = some [] := by
  rw [refreshed_eq]
  exact h

@[simp]
theorem readContent_refreshed (digest : String) :
    (refreshed store read).readContent type digest = store.readContent type digest := by
  rw [refreshed_eq, readContent_withTail]

@[simp]
theorem ledger_refreshed : (refreshed store read).ledger = store.ledger := by
  rw [refreshed_eq]

/-- A commit whose journal is within its limit reads the tail, stages and finishes. -/
theorem commit_eq (h : store.transactions = some []) (hread : rows store = .ok read)
    (hsize : (nextJournal type payload store read).byteSize ≤ maxTransactionBytes) :
    commit host type payload store =
      Run.andThen
        ⟨(loadTail store).trace ++
            [(refreshed store read).pending host.transactionName [],
              (refreshed store read).pending host.transactionName
                [("journal.json", nextJournal type payload store read)],
              (refreshed store read).pending host.transactionName
                (nextFiles type payload store read)],
          (refreshed store read).pending host.transactionName (nextFiles type payload store read),
          .ok ()⟩
        fun _ => finishTransaction host host.transactionName
          (nextRow type.value payload store read) := by
  rw [commit, Program.bind_apply, loadTail_apply hread, Run.andThen_ok, Program.bind_apply,
    ← nextRow, stageTransaction_apply host type payload _ _ (transactions_refreshed h) hsize,
    Run.andThen_ok, Run.andThen_ok, List.append_assoc]
  rfl

theorem size_of_commit (h : store.transactions = some []) (hread : rows store = .ok read)
    (hok : (commit host type payload store).result = .ok ()) :
    (nextJournal type payload store read).byteSize ≤ maxTransactionBytes := by
  by_contra hsize
  have hstage := stageTransaction_of_size host type payload
    (nextRow type.value payload store read) (position store read)
    (transactions_refreshed h) (not_le.mp hsize)
  rw [commit, Program.bind_apply, loadTail_apply hread, Run.andThen_ok, Program.bind_apply,
    ← nextRow, Run.andThen, hstage.2] at hok
  cases hok

/-- The states a commit passes through when its content file is new. -/
theorem commit_apply (h : store.transactions = some []) (hread : rows store = .ok read)
    (hpayload : (Json.obj payload).wf = true)
    (hsize : (nextJournal type payload store read).byteSize ≤ maxTransactionBytes)
    (hnone : store.readContent type (Fields.get payload "contentDigest").pyStr = none) :
    commit host type payload store =
      ⟨(loadTail store).trace ++
          ([(refreshed store read).pending host.transactionName [],
            (refreshed store read).pending host.transactionName
              [("journal.json", nextJournal type payload store read)],
            (refreshed store read).pending host.transactionName
              (nextFiles type payload store read)] ++
          ([(filed type payload store read).pending host.transactionName
              (nextFiles type payload store read),
            ((filed type payload store read).appendLedger
              (rowLine (nextRow type.value payload store read))).pending host.transactionName
                (nextFiles type payload store read),
            (committed type payload store read).pending host.transactionName
              (nextFiles type payload store read)] ++
          ((removing (nextFiles type payload store read)
            (host.listing ["journal.json", "content.json"])).map
              ((committed type payload store read).pending host.transactionName) ++
            [committed type payload store read]))),
        committed type payload store read, .ok ()⟩ := by
  have hfinish := finishTransaction_apply host (@transactions_refreshed _ read h) hpayload
    (@wf_nextRow _ store read type.value hpayload)
    (wf_position store read) host.transactionName (by simpa using hnone)
  rw [commit_eq host h hread hsize, Run.andThen_ok]
  rw [← nextFiles] at hfinish
  rw [hfinish, List.append_assoc]
  rfl

/-- A commit of an entry whose content file is there appends the next row. -/
theorem commit_of_same (h : store.transactions = some []) (hread : rows store = .ok read)
    (hpayload : (Json.obj payload).wf = true)
    (hsize : (nextJournal type payload store read).byteSize ≤ maxTransactionBytes)
    (hsame : store.readContent type (Fields.get payload "contentDigest").pyStr =
      some (canonicalJson (.obj payload))) :
    (commit host type payload store).final =
        (refreshed store read).extended (nextRow type.value payload store read) ∧
      (commit host type payload store).result = .ok () := by
  have hfinish := finishTransaction_of_same host (@transactions_refreshed _ read h)
    hpayload (@wf_nextRow _ store read type.value hpayload)
    (wf_position store read) host.transactionName (by simpa using hsame)
  rw [← nextFiles] at hfinish
  rw [commit_eq host h hread hsize, Run.andThen_ok]
  exact hfinish

/-- A commit that returns has appended the next row. -/
theorem ledger_commit (h : store.transactions = some []) (hread : rows store = .ok read)
    (hpayload : (Json.obj payload).wf = true)
    (hok : (commit host type payload store).result = .ok ()) :
    (commit host type payload store).final.isInitialized = true ∧
      (commit host type payload store).final.ledger =
        some (store.ledger.getD [] ++ rowLine (nextRow type.value payload store read)) := by
  have hinit := (rows_eq_ok_iff.mp hread).1
  have hinit' : (refreshed store read).isInitialized = true := by
    rw [refreshed_eq]
    exact hinit
  have hsize := size_of_commit host h hread hok
  cases hfile : store.readContent type (Fields.get payload "contentDigest").pyStr with
  | none =>
      rw [commit_apply host h hread hpayload hsize hfile, committed, StoreDir.extended, filed]
      refine ⟨?_, by simp [StoreDir.tailAt]⟩
      exact StoreDir.isInitialized_appendLedger (isInitialized_withContent _ _ _ hinit') _
  | some text =>
      rw [commit_eq host h hread hsize, Run.andThen_ok] at hok ⊢
      have hfinal := finishTransaction_of_some host (transactions_refreshed h)
        hpayload (wf_nextRow hpayload) (wf_position store read) host.transactionName
        (by simpa using hfile) hok
      rw [← nextFiles] at hfinal
      dsimp only
      rw [hfinal, StoreDir.extended]
      exact ⟨StoreDir.isInitialized_appendLedger hinit' _, by simp [StoreDir.tailAt]⟩

end Commit

end MncsCommons.Store
