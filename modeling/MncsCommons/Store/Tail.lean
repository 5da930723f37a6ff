/-
# The tail cache and the ledger

The tail cache is a fast path: a writer that trusts it does not read the ledger.
It is trusted only when it has the size of the ledger, and the ledger only grows,
so a cache left behind by a crash between the row and the tail is never trusted.

`Recorded` is the invariant of every state that calls, rebuilt tails, recoveries
and crashes in the middle of any of them lead to: the lines of the ledger are a
chain of rows, whether or not the read limits still admission them, and a cache with
the size of the ledger is the end of the chain.  Recovery appends the row of a
journal, so the journals of pending transactions belong to the invariant
(`TailSafe`).
-/

import MncsCommons.Store.Reachable

namespace MncsCommons.Store

open MncsCommons.Data MncsCommons.Protocol MncsCommons.Exec

/-- `rebuild_tail`. -/
def rebuildTail : StoreM Unit := do
  let store ← Program.get
  let read ← Program.lift (rows store)
  let tail := tailFromRows store read
  Program.step fun store =>
    { store with tail := some (tailText (.int tail.sequence) tail.entryDigest store.ledgerBytes) }

/-! ## The invariant -/

/-- The lines of the ledger are a chain of rows, and a tail cache with the size of
the ledger is the end of the chain. -/
structure Recorded (store : StoreDir) (read : List Fields) : Prop where
  lines : store.ledger = some (read.flatMap rowLine)
  chain : Chain 1 .null read
  settled : ∀ row ∈ read, (Json.obj row).wf = true ∧ canonFields row = row
  tail : ∀ tail, cachedTail store = some tail → tail.ledgerBytes ≤ store.ledgerBytes ∧
    (tail.ledgerBytes = store.ledgerBytes → AtEnd tail read)

/-- The text is the journal of a commit. -/
def IsJournal (text : Text) : Prop :=
  ∃ type payload tail size, (Json.obj payload).wf = true ∧ tail.entryDigest.wf = true ∧
    text = canonicalJson
      (.obj (journalOf type payload (makeLedgerRow type.value payload tail) tail size))

/-- The journals of the pending transactions are those of commits. -/
def Journalled (store : StoreDir) : Prop :=
  ∃ pending, store.transactions = some pending ∧
    ∀ entry ∈ pending, ∀ text, Fields.get? entry.2 "journal.json" = some text → IsJournal text

/-- What every state between two steps has, when the rows of `base` were written
before. -/
def TailSafe (base : List Fields) (store : StoreDir) : Prop :=
  (∃ read, Recorded store read ∧ base <+: read) ∧ Journalled store

theorem endsLine_flatMap_rowLine (read : List Fields) : EndsLine (read.flatMap rowLine) := by
  rcases List.eq_nil_or_concat' read with rfl | ⟨before, row, rfl⟩
  · exact .inl rfl
  · right
    rw [List.flatMap_append, List.flatMap_singleton, rowLine, ← List.append_assoc]
    exact List.getLast?_concat

theorem cachedTail_congr {store after : StoreDir} (h : after.tail = store.tail) :
    cachedTail after = cachedTail store := by
  simp only [cachedTail, h]

namespace Recorded

variable {store after : StoreDir} {read : List Fields}

/-- Only the ledger and the tail cache matter. -/
theorem congr (h : Recorded store read) (hledger : after.ledger = store.ledger)
    (htail : after.tail = store.tail) : Recorded after read where
  lines := hledger.trans h.lines
  chain := h.chain
  settled := h.settled
  tail := by
    rw [cachedTail_congr htail, StoreDir.ledgerBytes, hledger]
    exact h.tail

theorem splitLines_eq (h : Recorded store read) :
    splitLines (store.ledger.getD []) = read.map rowLine := by
  have hlines : ∀ items : List Fields,
      splitLines (items.flatMap rowLine) = items.map rowLine := by
    intro items
    induction items using List.reverseRecOn with
    | nil => rfl
    | append_singleton items item ih =>
        rw [List.flatMap_append, List.flatMap_singleton, List.map_append, List.map_singleton,
          splitLines_append_rowLine (endsLine_flatMap_rowLine items), ih]
  rw [h.lines, Option.getD_some]
  exact hlines read

/-- The rows that are read are those of the chain. -/
theorem eq_of_rows (h : Recorded store read) {found : List Fields}
    (hrows : rows store = .ok found) : found = read := by
  obtain ⟨-, hreads, -, -⟩ := rows_eq_ok_iff.mp hrows
  rw [h.splitLines_eq, List.forall₂_map_left_iff] at hreads
  have heq : List.Forall₂ Eq read found := by
    refine (List.forall₂_iff_get.mpr ?_)
    obtain ⟨hlength, hget⟩ := List.forall₂_iff_get.mp hreads
    refine ⟨hlength, fun index hleft hright => ?_⟩
    obtain ⟨hwf, hcanon⟩ := h.settled _ (List.get_mem read ⟨index, hleft⟩)
    have hrow := ((readsRow_rowLine_iff hwf).mp (hget index hleft hright)).2
    rw [hrow, hcanon]
  exact (List.forall₂_eq_eq_eq ▸ heq : read = found).symm

/-- The lines determine the rows. -/
theorem unique (h : Recorded store read) {other : List Fields} (hother : Recorded store other) :
    read = other := by
  have hsame : read.map rowLine = other.map rowLine := h.splitLines_eq.symm.trans hother.splitLines_eq
  have hback : ∀ {items : List Fields}, Recorded store items →
      items.map (fun row => loads (rowLine row)) = items.map fun row => some (.obj row) := by
    intro items hitems
    refine List.map_congr_left fun row hrow => ?_
    obtain ⟨hwf, hcanon⟩ := hitems.settled row hrow
    rw [loads_rowLine hwf, hcanon]
  have hrows : read.map (fun row => some (Json.obj row)) = other.map fun row => some (.obj row) := by
    have hloads := congrArg (List.map loads) hsame
    rw [List.map_map, List.map_map] at hloads
    rw [← hback h, ← hback hother]
    exact hloads
  exact List.map_injective_iff.mpr (fun _ _ heq => Json.obj.inj (Option.some.inj heq)) hrows

/-- A trusted cache is the end of the ledger. -/
theorem atEnd_trusted (h : Recorded store read) {tail : LedgerTail}
    (htrusted : trustedTail store = some tail) :
    AtEnd tail read ∧ tail.ledgerBytes = store.ledgerBytes := by
  have hbytes : tail.ledgerBytes = store.ledgerBytes := by
    rw [trustedTail, trustedTail_eq_some htrusted, Option.bind_eq_bind, Option.bind_some] at htrusted
    by_contra hne
    rw [if_neg fun hsame => hne hsame.1] at htrusted
    cases htrusted
  exact ⟨(h.tail tail (trustedTail_eq_some htrusted)).2 hbytes, hbytes⟩

/-- Writing the tail at the end of the ledger. -/
theorem withTail (h : Recorded store read) {tail : LedgerTail} (hend : AtEnd tail read) :
    Recorded { store with
      tail := some (tailText (.int tail.sequence) tail.entryDigest store.ledgerBytes) } read where
  lines := h.lines
  chain := h.chain
  settled := h.settled
  tail := by
    intro cached hcached
    refine ⟨?_, fun _ => hend.cached h.chain hcached⟩
    rw [cachedTail_tailText (hend.scalar h.chain).1 hcached]
    exact le_refl _

/-- Appending the row that follows the end of the ledger. -/
theorem append (h : Recorded store read) {entryType : String} {payload : Fields}
    {tail : LedgerTail} (hpayload : (Json.obj payload).wf = true)
    (htail : tail.entryDigest.wf = true) (hend : AtEnd tail read) :
    Recorded (store.appendLedger (rowLine (makeLedgerRow entryType payload tail)))
      (read ++ [canonFields (makeLedgerRow entryType payload tail)]) where
  lines := by
    rw [StoreDir.ledger_appendLedger, h.lines, Option.getD_some, List.flatMap_append,
      List.flatMap_singleton, canonFields_makeLedgerRow, rowLine_sortKeys]
  chain := chain_append_iff.mpr ⟨h.chain, (linked_makeLedgerRow_iff h.chain).mpr hend⟩
  settled := by
    intro row hrow
    rcases List.mem_append.mp hrow with hold | hnew
    · exact h.settled row hold
    · rw [List.mem_singleton.mp hnew]
      refine ⟨wf_canonFields (wf_makeLedgerRow hpayload htail), ?_⟩
      rw [canonFields_makeLedgerRow, canonFields_of_inert_keys, Fields.sortKeys_sortKeys]
      have hinert : ∀ key ∈ Fields.keys (makeLedgerRow entryType payload tail), Inert [key] := by
        rw [keys_makeLedgerRow]
        decide
      exact fun key hkey => hinert key ((Fields.keys_sortKeys_perm _).mem_iff.mp hkey)
  tail := by
    intro cached hcached
    have hold : cached.ledgerBytes ≤ store.ledgerBytes := (h.tail cached hcached).1
    have hgrows : (store.appendLedger (rowLine (makeLedgerRow entryType payload tail))).ledgerBytes =
        store.ledgerBytes + (rowLine (makeLedgerRow entryType payload tail)).byteSize :=
      Text.byteSize_append _ _
    have hpositive : 0 < (rowLine (makeLedgerRow entryType payload tail)).byteSize := by
      rw [byteSize_rowLine]
      exact Nat.succ_pos _
    rw [hgrows]
    refine ⟨by omega, fun hsame => ?_⟩
    omega

end Recorded

/-! ## Pending transactions -/

namespace Journalled

variable {store : StoreDir}

theorem congr {after : StoreDir} (h : Journalled store)
    (htransactions : after.transactions = store.transactions) : Journalled after := by
  rw [Journalled, htransactions]
  exact h

/-- The journal of a transaction. -/
theorem isJournal (h : Journalled store) {name : String} {text : Text}
    (htext : Fields.get? ((store.transaction name).getD []) "journal.json" = some text) :
    IsJournal text := by
  obtain ⟨pending, htransactions, hjournals⟩ := h
  rw [StoreDir.transaction, htransactions, Option.bind_some] at htext
  cases hfiles : Fields.get? pending name with
  | none => rw [hfiles] at htext; cases htext
  | some files =>
      rw [hfiles, Option.getD_some] at htext
      exact hjournals _ (Fields.mem_of_get?_eq_some hfiles) text htext

theorem set (h : Journalled store) (name : String) {files : Dir}
    (hfiles : ∀ text, Fields.get? files "journal.json" = some text → IsJournal text) :
    Journalled (store.setTransaction name files) := by
  obtain ⟨pending, htransactions, hjournals⟩ := h
  refine ⟨Fields.set pending name files, by simp [StoreDir.setTransaction, htransactions], ?_⟩
  intro entry hentry text htext
  rcases Fields.mem_set hentry with hold | hnew
  · exact hjournals entry hold text htext
  · rw [hnew] at htext
    exact hfiles text htext

theorem writeFile (h : Journalled store) (name : String) {file : String} {text : Text}
    (htext : file = "journal.json" → IsJournal text) :
    Journalled (store.setTransaction name
      (Fields.set ((store.transaction name).getD []) file text)) := by
  refine h.set name fun other hother => ?_
  rw [Fields.get?_set] at hother
  split at hother
  · cases hother
    exact htext ‹_›
  · exact h.isJournal hother

theorem eraseFile (h : Journalled store) (name file : String) :
    Journalled (store.setTransaction name
      (Fields.erase ((store.transaction name).getD []) file)) := by
  refine h.set name fun other hother => ?_
  rw [Fields.get?_erase] at hother
  split at hother
  · cases hother
  · exact h.isJournal hother

theorem drop (h : Journalled store) (name : String) : Journalled (store.dropTransaction name) := by
  obtain ⟨pending, htransactions, hjournals⟩ := h
  refine ⟨Fields.erase pending name, by simp [StoreDir.dropTransaction, htransactions], ?_⟩
  exact fun entry hentry => hjournals entry (List.mem_of_mem_filter hentry)

end Journalled

theorem tail_writePath (store : StoreDir) (path : String) (text : Text) :
    (store.writePath path text).tail = store.tail := by
  rw [StoreDir.writePath]
  split <;> simp

theorem transactions_writePath (store : StoreDir) (path : String) (text : Text) :
    (store.writePath path text).transactions = store.transactions := by
  rw [StoreDir.writePath]
  split <;> simp

/-! ## Every step -/

section Steps

variable {base read : List Fields}

theorem tailSafe_of_recorded {store after : StoreDir} {later : List Fields}
    (h : TailSafe base store) (hbefore : Recorded store read) (hafter : Recorded after later)
    (hleading : read <+: later) (hjournalled : Journalled after) : TailSafe base after := by
  obtain ⟨found, hfound, hbase⟩ := h.1
  obtain rfl := hfound.unique hbefore
  exact ⟨⟨later, hafter, hbase.trans hleading⟩, hjournalled⟩

/-- Changing a transaction leaves the ledger and the tail. -/
theorem ensures_transactionStep {change : StoreDir → StoreDir}
    (hsame : ∀ store, (change store).ledger = store.ledger ∧ (change store).tail = store.tail)
    (hjournalled : ∀ store, Journalled store → Journalled (change store)) :
    Program.Ensures (TailSafe base) (fun store => Recorded store read)
      (Program.step change : StoreM Unit) fun _ store => Recorded store read := by
  refine Program.ensures_step fun store hsafe hrecorded => ?_
  have hafter := hrecorded.congr (hsame store).1 (hsame store).2
  exact ⟨tailSafe_of_recorded hsafe hrecorded hafter List.prefix_rfl
    (hjournalled store hsafe.2), hafter⟩

theorem ensures_loadTail :
    Program.Ensures (TailSafe base) (fun store => Recorded store read) loadTail fun tail store =>
      Recorded store read ∧ AtEnd tail read ∧ tail.entryDigest.wf = true ∧
        tail.ledgerBytes = store.ledgerBytes := by
  refine Program.ensures_bind _ Program.ensures_get fun store => ?_
  refine Program.ensures_bind _ (Program.ensures_lift _) fun _ => ?_
  cases htrusted : trustedTail store with
  | some tail =>
      refine Program.ensures_pure ?_
      rintro state - ⟨-, rfl, hrecorded⟩
      obtain ⟨hend, hbytes⟩ := hrecorded.atEnd_trusted htrusted
      exact ⟨hrecorded, hend, wf_cachedTail (trustedTail_eq_some htrusted), hbytes⟩
  | none =>
      refine Program.ensures_bind _ (Program.ensures_lift _) fun found => ?_
      refine Program.ensures_bind
        (fun _ state => Recorded state read ∧ AtEnd (tailFromRows store found) read ∧
          (tailFromRows store found).ledgerBytes = state.ledgerBytes) ?_ fun _ => ?_
      · refine Program.ensures_step ?_
        rintro state hsafe ⟨hrows, -, rfl, hrecorded⟩
        obtain rfl := hrecorded.eq_of_rows hrows
        have hend := hrecorded.chain.atEnd_tailFromRows store
        have hafter := hrecorded.withTail hend
        exact ⟨tailSafe_of_recorded hsafe hrecorded hafter List.prefix_rfl (hsafe.2.congr rfl),
          hafter, hend, rfl⟩
      · refine Program.ensures_pure fun state _ h => ⟨h.1, h.2.1, ?_, h.2.2⟩
        rw [tailFromRows]
        split <;> rfl

theorem ensures_removeTransaction (host : Host) (name : String) :
    Program.Ensures (TailSafe base) (fun store => Recorded store read) (removeTransaction host name)
      fun _ store => Recorded store read := by
  refine Program.ensures_bind (fun _ store => Recorded store read)
    (Program.ensures_get.weaken (fun _ _ h => h) fun _ _ h => h.2) fun store => ?_
  refine Program.ensures_bind _ (Program.ensures_forEach (fun file => ?_) _) fun _ => ?_
  · exact ensures_transactionStep (fun _ => ⟨rfl, rfl⟩) fun _ h => h.eraseFile name file
  · exact ensures_transactionStep (fun _ => ⟨rfl, rfl⟩) fun _ h => h.drop name

section Row

variable {entryType : String} {payload : Fields} {tail : LedgerTail}
  (hpayload : (Json.obj payload).wf = true) (htail : tail.entryDigest.wf = true)
  (hend : AtEnd tail read)

include hpayload htail hend

theorem ensures_appendRow {row : Fields}
    (hline : rowLine row = rowLine (makeLedgerRow entryType payload tail)) :
    Program.Ensures (TailSafe base) (fun store => Recorded store read) (appendRow row) fun _ store =>
      Recorded store (read ++ [canonFields (makeLedgerRow entryType payload tail)]) := by
  refine Program.ensures_step fun store hsafe hrecorded => ?_
  rw [hline]
  have hafter := @Recorded.append _ _ hrecorded entryType _ _ hpayload htail hend
  exact ⟨tailSafe_of_recorded hsafe hrecorded hafter (List.prefix_append _ _)
    (hsafe.2.congr rfl), hafter⟩

omit hpayload htail in
theorem ensures_writeTail {row : Fields}
    (hsequence : Fields.get row "sequence" = .int (tail.sequence + 1))
    (hdigest : Fields.get row "entryDigest" =
      Fields.get (makeLedgerRow entryType payload tail) "entryDigest") :
    Program.Ensures (TailSafe base)
      (fun store => Recorded store (read ++ [canonFields (makeLedgerRow entryType payload tail)]))
      (writeTail row) fun _ store =>
        Recorded store (read ++ [canonFields (makeLedgerRow entryType payload tail)]) := by
  refine Program.ensures_step fun store hsafe hrecorded => ?_
  have hafter := hrecorded.withTail (hend.next hdigest 0)
  rw [hsequence]
  exact ⟨tailSafe_of_recorded hsafe hrecorded hafter List.prefix_rfl (hsafe.2.congr rfl),
    hafter⟩

end Row

section Commit

variable (host : Host) {type : ContentType} {payload : Fields}
  (hpayload : (Json.obj payload).wf = true)

include hpayload

theorem ensures_stageTransaction {tail : LedgerTail} (htail : tail.entryDigest.wf = true) :
    Program.Ensures (TailSafe base) (fun store => Recorded store read)
      (stageTransaction host type payload (makeLedgerRow type.value payload tail) tail)
      fun _ store => Recorded store read := by
  refine Program.ensures_bind (fun _ store => Recorded store read)
    (Program.ensures_get.weaken (fun _ _ h => h) fun _ _ h => h.2) fun store => ?_
  refine Program.ensures_bind _ (ensures_transactionStep (fun _ => ⟨rfl, rfl⟩)
    fun _ h => h.set _ fun _ hnone => (nomatch hnone)) fun _ => ?_
  dsimp only
  split
  · exact Program.ensures_bind _ (ensures_removeTransaction host _)
      fun _ => Program.ensures_raise _
  · refine Program.ensures_bind _ (ensures_transactionStep (fun _ => ⟨rfl, rfl⟩)
      fun _ h => h.writeFile _ fun _ => ⟨type, payload, tail, _, hpayload, htail, rfl⟩) fun _ => ?_
    refine Program.ensures_bind _ (ensures_transactionStep (fun _ => ⟨rfl, rfl⟩)
      fun _ h => h.writeFile _ fun hfile => absurd hfile (by decide)) fun _ => ?_
    exact Program.ensures_pure fun _ _ h => h

theorem ensures_finishTransaction {tail : LedgerTail} (htail : tail.entryDigest.wf = true)
    (hend : AtEnd tail read) (name : String) :
    Program.Ensures (TailSafe base) (fun store => Recorded store read)
      (finishTransaction host name (makeLedgerRow type.value payload tail)) fun _ _ => True := by
  have hrest : Program.Ensures (TailSafe base) (fun store => Recorded store read)
      (do
        appendRow (makeLedgerRow type.value payload tail)
        writeTail (makeLedgerRow type.value payload tail)
        removeTransaction host name : StoreM Unit) fun _ _ => True := by
    refine Program.ensures_bind _ (ensures_appendRow hpayload htail hend rfl) fun _ => ?_
    refine Program.ensures_bind _ (ensures_writeTail hend rfl rfl) fun _ => ?_
    exact (ensures_removeTransaction host name).weaken (fun _ _ h => h) fun _ _ _ => trivial
  refine Program.ensures_bind (fun _ store => Recorded store read)
    (Program.ensures_get.weaken (fun _ _ h => h) fun _ _ h => h.2) fun store => ?_
  refine Program.ensures_bind (fun _ store => Recorded store read)
    ((Program.ensures_lift _).weaken (fun _ _ h => h) fun _ _ h => h.2) fun journal => ?_
  refine Program.ensures_bind (fun _ store => Recorded store read)
    ((Program.ensures_lift _).weaken (fun _ _ h => h) fun _ _ h => h.2) fun content => ?_
  dsimp only
  split
  · exact Program.ensures_bind _
      ((Program.ensures_lift _).weaken (fun _ _ h => h) fun _ _ h => h.2) fun _ => hrest
  · refine Program.ensures_bind _ (ensures_transactionStep
      (fun store => ⟨ledger_writePath store _ _, tail_writePath store _ _⟩)
      fun store h => h.congr (transactions_writePath store _ _)) fun _ => hrest

theorem ensures_commit : Program.Ensures (TailSafe base) (fun store => Recorded store read)
    (commit host type payload) fun _ _ => True := by
  refine Program.ensures_bind _ ensures_loadTail fun tail => ?_
  refine Program.ensures_of_fact (AtEnd tail read ∧ tail.entryDigest.wf = true)
    (fun _ _ h => ⟨h.2.1, h.2.2.1⟩) fun ⟨hend, htail⟩ => ?_
  refine Program.Ensures.weaken ?_ (fun _ _ h => h.1) fun _ _ h => h
  exact Program.ensures_bind _ (ensures_stageTransaction host hpayload htail)
    fun name => ensures_finishTransaction host hpayload htail hend name

end Commit

theorem ensures_add (host : Host) (type : ContentType) (value : Mapping) :
    Program.Ensures (TailSafe base) (fun store => Recorded store read) (add host type value)
      fun _ _ => True := by
  refine Program.ensures_bind (fun _ store => Recorded store read)
    (Program.ensures_get.weaken (fun _ _ h => h) fun _ _ h => h.2) fun store => ?_
  refine Program.ensures_bind (fun _ store => Recorded store read)
    ((Program.ensures_lift _).weaken (fun _ _ h => h) fun _ _ h => h.2) fun stored => ?_
  split
  · exact Program.ensures_pure fun _ _ _ => trivial
  · exact Program.ensures_bind _ (ensures_commit host (wf_candidateOf value))
      fun _ => Program.ensures_pure fun _ _ _ => trivial

theorem ensures_addSnapshot (payload : Mapping) :
    Program.Ensures (TailSafe base) (fun store => Recorded store read) (addSnapshot payload)
      fun _ _ => True := by
  refine Program.ensures_bind (fun _ store => Recorded store read)
    (Program.ensures_get.weaken (fun _ _ h => h) fun _ _ h => h.2) fun store => ?_
  refine Program.ensures_bind (fun _ store => Recorded store read)
    ((Program.ensures_lift _).weaken (fun _ _ h => h) fun _ _ h => h.2) fun _ => ?_
  refine Program.ensures_bind (fun _ store => Recorded store read)
    ((Program.ensures_lift _).weaken (fun _ _ h => h) fun _ _ h => h.2) fun _ => ?_
  refine Program.ensures_bind _ ensures_loadTail fun tail => ?_
  refine Program.ensures_of_fact (AtEnd tail read ∧ tail.entryDigest.wf = true)
    (fun _ _ h => ⟨h.2.1, h.2.2.1⟩) fun ⟨hend, htail⟩ => ?_
  refine Program.Ensures.weaken ?_ (fun _ _ h => h.1) fun _ _ h => h
  refine Program.ensures_bind _ (ensures_appendRow payload.wf htail hend rfl) fun _ => ?_
  exact Program.ensures_bind _ (ensures_writeTail hend rfl rfl)
    fun _ => Program.ensures_pure fun _ _ _ => trivial

theorem ensures_rebuildTail :
    Program.Ensures (TailSafe base) (fun store => Recorded store read) rebuildTail fun _ _ => True := by
  refine Program.ensures_bind _ Program.ensures_get fun store => ?_
  refine Program.ensures_bind _ (Program.ensures_lift _) fun found => ?_
  refine Program.ensures_step ?_
  rintro state hsafe ⟨hrows, rfl, hrecorded⟩
  obtain rfl := hrecorded.eq_of_rows hrows
  have hafter := hrecorded.withTail (hrecorded.chain.atEnd_tailFromRows store)
  exact ⟨tailSafe_of_recorded hsafe hrecorded hafter List.prefix_rfl (hsafe.2.congr rfl),
    trivial⟩

/-! ## Recovery -/

theorem get?_of_readTransactionFile {store : StoreDir} {name file : String} {text : Text}
    (h : readTransactionFile store name file = .ok text) :
    Fields.get? ((store.transaction name).getD []) file = some text := by
  rw [readTransactionFile] at h
  cases hfiles : store.transaction name with
  | none => rw [hfiles] at h; cases h
  | some files =>
      rw [hfiles, Option.bind_some] at h
      cases hget : Fields.get? files file with
      | none => rw [hget] at h; cases h
      | some found => rw [hget] at h; rw [Option.getD_some, hget, Except.ok.inj h]

/-- The members of a journal that is read are those of its file. -/
theorem loads_of_journalValue {store : StoreDir} {name : String} {value : Fields}
    (h : journalValue store name = .ok value) :
    ∃ raw, Fields.get? ((store.transaction name).getD []) "journal.json" = some raw ∧
      loads raw = some (.obj value) := by
  obtain ⟨raw, hraw, h⟩ := Py.bind_eq_ok_iff.mp h
  obtain ⟨_, -, h⟩ := Py.bind_eq_ok_iff.mp h
  refine ⟨raw, get?_of_readTransactionFile hraw, ?_⟩
  dsimp only at h
  split at h
  · cases h
  · next hloads =>
      obtain ⟨members, hmembers, h⟩ := Py.bind_eq_ok_iff.mp h
      obtain ⟨_, -, h⟩ := Py.bind_eq_ok_iff.mp h
      obtain ⟨_, -, h⟩ := Py.bind_eq_ok_iff.mp h
      rw [hloads, Except.ok.inj hmembers, Except.ok.inj h]
  · cases h

theorem ledgerRow_of_journalObjects {value payload row : Fields} {name : String} {content : Text}
    (h : journalObjects value name content = .ok (payload, row)) :
    Fields.get value "ledgerRow" = .obj row := by
  rw [journalObjects] at h
  split at h
  · cases h
  · split at h
    · next hrow =>
        rw [Json.obj?_eq_some_iff] at hrow
        rw [hrow, (Prod.mk.inj (Except.ok.inj h)).2]
    · cases h

theorem ledgerRow_journalOf (type : ContentType) (payload row : Fields) (tail : LedgerTail)
    (size : Nat) : Fields.get (journalOf type payload row tail size) "ledgerRow" = .obj row := rfl

/-- A journal that recovery accepts is read back as its commit wrote it. -/
theorem Journalled.written {store : StoreDir} (h : Journalled store) {name : String}
    {journal : Journal} (hjournal : verifyJournal store name = .ok journal) :
    ∃ type payload tail size, (Json.obj payload).wf = true ∧ tail.entryDigest.wf = true ∧
      journal.value = (writtenJournal type payload tail size).value ∧
      journal.row = (writtenJournal type payload tail size).row := by
  rw [verifyJournal] at hjournal
  obtain ⟨value, hvalue, hjournal⟩ := Py.bind_eq_ok_iff.mp hjournal
  obtain ⟨content, -, hjournal⟩ := Py.bind_eq_ok_iff.mp hjournal
  obtain ⟨⟨contentPayload, row⟩, hobjects, hjournal⟩ := Py.bind_eq_ok_iff.mp hjournal
  obtain ⟨_, -, hjournal⟩ := Py.bind_eq_ok_iff.mp hjournal
  rw [← Except.ok.inj hjournal]
  obtain ⟨raw, hfile, hloads⟩ := loads_of_journalValue hvalue
  obtain ⟨type, payload, tail, size, hpayload, htail, hraw⟩ := h.isJournal hfile
  have hwf := @wf_journalOf type _ _ _ size hpayload
    (@wf_makeLedgerRow type.value _ _ hpayload htail) htail
  rw [hraw, loads_canonicalJson hwf, canon_obj] at hloads
  have hmembers := Json.obj.inj (Option.some.inj hloads)
  have hrow := ledgerRow_of_journalObjects hobjects
  rw [← hmembers, get_journal, ledgerRow_journalOf, Json.sortKeys_obj_eq] at hrow
  refine ⟨type, payload, tail, size, hpayload, htail, ?_, ?_⟩
  · rw [writtenJournal, hmembers]
  · rw [row_writtenJournal, Json.obj.inj hrow]

/-- The row that recovery appends follows the end of the ledger. -/
theorem ensures_redo {name : String} {journal : Journal} {type : ContentType} {payload : Fields}
    {tail : LedgerTail} {size : Nat} (hpayload : (Json.obj payload).wf = true)
    (htail : tail.entryDigest.wf = true)
    (hvalue : journal.value = (writtenJournal type payload tail size).value)
    (hrow : journal.row = (writtenJournal type payload tail size).row) :
    Program.Ensures (TailSafe base) (fun store => Recorded store read) (redo name journal read)
      fun _ store => ∃ after, Recorded store after := by
  refine Program.ensures_bind (fun _ store => Recorded store read)
    (Program.ensures_get.weaken (fun _ _ h => h) fun _ _ h => h.2) fun store => ?_
  refine Program.ensures_bind _ (Program.ensures_lift _) fun _ => ?_
  refine Program.ensures_of_fact (AtEnd tail read) ?_ fun hend => ?_
  · rintro state - ⟨hcheck, hrecorded⟩
    rw [raiseIf_eq_ok_iff, hvalue, hrow] at hcheck
    exact (redo_check_iff hrecorded.chain).mp hcheck
  have hline : rowLine journal.row = rowLine (makeLedgerRow type.value payload tail) := by
    rw [hrow, row_writtenJournal, rowLine_sortKeys]
  have hrest : Program.Ensures (TailSafe base) (fun store => Recorded store read)
      (do
        appendRow journal.row
        writeTail journal.row : StoreM Unit) fun _ store => ∃ after, Recorded store after := by
    refine Program.ensures_bind _ (ensures_appendRow hpayload htail hend hline) fun _ => ?_
    refine (ensures_writeTail hend ?_ ?_).weaken (fun _ _ h => h) fun _ _ h => ⟨_, h⟩
    · rw [hrow, row_writtenJournal, Fields.get_sortKeys]
      rfl
    · rw [hrow, row_writtenJournal, Fields.get_sortKeys]
      rfl
  refine Program.Ensures.weaken ?_ (fun _ _ h => h.2) fun _ _ h => h
  dsimp only
  split
  · exact Program.ensures_bind _
      ((Program.ensures_lift _).weaken (fun _ _ h => h) fun _ _ h => h.2) fun _ => hrest
  · refine Program.ensures_bind _ (ensures_transactionStep
      (fun store => ⟨ledger_writePath store _ _, tail_writePath store _ _⟩)
      fun store h => h.congr (transactions_writePath store _ _)) fun _ => hrest

theorem ensures_settle {store : StoreDir} (hjournalled : Journalled store) {name : String}
    {journal : Journal} (hjournal : verifyJournal store name = .ok journal) :
    Program.Ensures (TailSafe base) (fun store => Recorded store read) (settle name journal read)
      fun _ store => ∃ after, Recorded store after := by
  obtain ⟨type, payload, tail, size, hpayload, htail, hvalue, hrow⟩ :=
    hjournalled.written hjournal
  rw [settle]
  split
  · exact (Program.ensures_lift _).weaken (fun _ _ h => h) fun _ _ h => ⟨read, h.2⟩
  · exact ensures_redo hpayload htail hvalue hrow

theorem ensures_recoverOne (host : Host) (name : String) :
    Program.Ensures (TailSafe base) (fun _ => True) (recoverOne host name) fun _ _ => True := by
  refine Program.ensures_bind _ Program.ensures_get fun store => ?_
  refine Program.ensures_bind _ (Program.ensures_lift _) fun journal => ?_
  refine Program.ensures_bind _ (Program.ensures_lift _) fun found => ?_
  refine Program.ensures_bind (fun _ state => ∃ after, Recorded state after) ?_ fun _ => ?_
  · rintro state hsafe ⟨hrows, hjournal, rfl, -⟩
    obtain ⟨read, hrecorded, -⟩ := hsafe.1
    obtain rfl := hrecorded.eq_of_rows hrows
    exact ensures_settle hsafe.2 hjournal store hsafe hrecorded
  · refine Program.ensures_exists fun after => ?_
    refine Program.ensures_bind (fun _ state => Recorded state after)
      (Program.ensures_get.weaken (fun _ _ h => h) fun _ _ h => h.2) fun current => ?_
    refine Program.ensures_bind (fun _ state => Recorded state after)
      ((Program.ensures_lift _).weaken (fun _ _ h => h) fun _ _ h => h.2) fun _ => ?_
    exact (ensures_removeTransaction host name).weaken (fun _ _ h => h) fun _ _ _ => trivial

theorem ensures_recoverAll (host : Host) (names : List String) :
    Program.Ensures (TailSafe base) (fun _ => True) (recoverAll host names) fun _ _ => True := by
  induction names with
  | nil => exact Program.ensures_pure fun _ _ _ => trivial
  | cons name names ih =>
      intro store hsafe _
      have hone := (ensures_recoverOne host name store hsafe trivial).1
      rw [Program.states, recoverAll]
      dsimp only
      cases hresult : (recoverOne host name store).result with
      | ok value =>
          have hboth := Program.ensures_bind _ (ensures_recoverOne host name) (fun _ => ih)
            store hsafe trivial
          exact ⟨hboth.1, fun _ _ => trivial⟩
      | error error =>
          dsimp only
          split <;> exact ⟨hone, fun _ _ => trivial⟩

theorem ensures_recover (host : Host) :
    Program.Ensures (TailSafe base) (fun _ => True) (recover host) fun _ _ => True := by
  refine Program.ensures_bind (fun _ _ => True)
    (Program.ensures_get.weaken (fun _ _ h => h) fun _ _ _ => trivial) fun store => ?_
  refine Program.ensures_bind (fun _ _ => True)
    ((Program.ensures_lift _).weaken (fun _ _ h => h) fun _ _ _ => trivial) fun _ => ?_
  refine Program.ensures_bind _ (ensures_recoverAll host _) fun failures => ?_
  split
  · exact Program.ensures_pure fun _ _ _ => trivial
  · refine Program.ensures_bind (fun _ _ => True)
      (Program.ensures_get.weaken (fun _ _ h => h) fun _ _ _ => trivial) fun store => ?_
    exact (Program.ensures_lift _).weaken (fun _ _ h => h) fun _ _ _ => trivial

end Steps

/-! ## Runs with crashes -/

/-- What an operator or a writer does to a store. -/
inductive Operation where
  | write (call : Call)
  | rebuildTail
  | recover

/-- Perform the operation. -/
def Operation.run (host : Host) : Operation → StoreM Unit
  | .write call => call.run host
  | .rebuildTail => Store.rebuildTail
  | .recover => do
      let _ ← Store.recover host

/-- The stores that operations lead to from a new one, each of them finished or
cut off by a crash after one of its atomic steps. -/
inductive CrashReachable : StoreDir → Prop
  | init : CrashReachable .fresh
  | operation {store after : StoreDir} (host : Host) {operation : Operation}
      (h : CrashReachable store) (hafter : after ∈ (operation.run host).states store) :
      CrashReachable after

theorem tailSafe_run (host : Host) (operation : Operation) {base : List Fields}
    {store after : StoreDir} (h : TailSafe base store)
    (hafter : after ∈ (operation.run host).states store) : TailSafe base after := by
  obtain ⟨read, hrecorded, -⟩ := h.1
  cases operation with
  | write call =>
      cases call with
      | add type value =>
          exact ((Program.ensures_bind _ (ensures_add host type value)
            fun _ => @Program.ensures_pure _ _ _ _ _ (fun _ _ => True) _ fun _ _ _ => trivial)
            store h hrecorded).1 after hafter
      | snapshot payload =>
          exact ((Program.ensures_bind _ (ensures_addSnapshot payload)
            fun _ => @Program.ensures_pure _ _ _ _ _ (fun _ _ => True) _ fun _ _ _ => trivial)
            store h hrecorded).1 after hafter
  | rebuildTail => exact (ensures_rebuildTail store h hrecorded).1 after hafter
  | recover =>
      exact ((Program.ensures_bind _ (ensures_recover host)
        fun _ => @Program.ensures_pure _ _ _ _ _ (fun _ _ => True) _ fun _ _ _ => trivial)
        store h trivial).1 after hafter

theorem recorded_fresh : Recorded .fresh [] where
  lines := rfl
  chain := trivial
  settled := by simp
  tail := by
    intro tail htail
    have hcached : cachedTail .fresh = some ⟨0, .null, 0⟩ := trustedTail_eq_some trustedTail_fresh
    obtain rfl := Option.some.inj (hcached.symm.trans htail)
    exact ⟨by rw [ledgerBytes_fresh]; exact le_refl _, fun _ => ⟨rfl, rfl⟩⟩

theorem CrashReachable.tailSafe {store : StoreDir} (h : CrashReachable store) :
    TailSafe [] store := by
  induction h with
  | init => exact ⟨⟨[], recorded_fresh, List.nil_prefix⟩, [], rfl, by simp⟩
  | operation host _ hafter ih => exact tailSafe_run host _ ih hafter

/-- What operations and crashes make of a store. -/
inductive Later (store : StoreDir) : StoreDir → Prop
  | refl : Later store store
  | operation {middle after : StoreDir} (host : Host) {operation : Operation}
      (h : Later store middle) (hafter : after ∈ (operation.run host).states middle) :
      Later store after

/-- The rows stay: what is recorded later begins with what was recorded. -/
theorem Later.tailSafe {base : List Fields} {store after : StoreDir} (h : Later store after)
    (hsafe : TailSafe base store) : TailSafe base after := by
  induction h with
  | refl => exact hsafe
  | operation host _ hafter ih => exact tailSafe_run host _ ih hafter

theorem CrashReachable.later {store after : StoreDir} (h : CrashReachable store)
    (hlater : Later store after) : CrashReachable after := by
  induction hlater with
  | refl => exact h
  | operation host _ hafter ih => exact .operation host ih hafter

/-- In every store that operations and crashes lead to, the tail that a writer
loads is the one a full scan gives; and whether or not the limits still admission the
scan, a row written at a loaded tail extends the chain that the lines of the
ledger hold. -/
theorem loadTail_agrees {store : StoreDir} (h : CrashReachable store) :
    (∀ read, rows store = .ok read →
      (loadTail store).result = .ok (tailFromRows store read)) ∧
      ∀ tail, (loadTail store).result = .ok tail →
        tail.ledgerBytes = store.ledgerBytes ∧
        ∃ read, store.ledger = some (read.flatMap rowLine) ∧
          ∀ entryType payload,
            Chain 1 .null (read ++ [canonFields (makeLedgerRow entryType payload tail)]) := by
  obtain ⟨read, hrecorded, -⟩ := h.tailSafe.1
  have hscan : ∀ found, rows store = .ok found →
      (loadTail store).result = .ok (tailFromRows store found) := by
    intro found hrows
    obtain rfl := hrecorded.eq_of_rows hrows
    rw [loadTail_apply hrows, position]
    cases htrusted : trustedTail store with
    | none => rfl
    | some tail =>
        obtain ⟨hend, hbytes⟩ := hrecorded.atEnd_trusted htrusted
        obtain ⟨hsequence, hdigest⟩ := hrecorded.chain.atEnd_tailFromRows store
        obtain ⟨sequence, entryDigest, ledgerBytes⟩ := tail
        have hscanned : tailFromRows store found = ⟨sequence, entryDigest, ledgerBytes⟩ := by
          rw [LedgerTail.mk.injEq]
          exact ⟨hsequence.trans hend.sequence.symm, hdigest.trans hend.entryDigest.symm,
            hbytes.symm⟩
        rw [hscanned]
        rfl
  refine ⟨hscan, fun tail htail => ?_⟩
  obtain ⟨hafter, hend, -, hbytes⟩ :=
    (ensures_loadTail store h.tailSafe hrecorded).2 tail htail
  have hledger : (loadTail store).final.ledger = store.ledger :=
    hafter.lines.trans hrecorded.lines.symm
  refine ⟨by rw [hbytes, StoreDir.ledgerBytes, hledger]; rfl, read, hrecorded.lines, ?_⟩
  exact fun entryType payload => chain_append_iff.mpr
    ⟨hrecorded.chain, (linked_makeLedgerRow_iff hrecorded.chain).mpr hend⟩

/-- The first snapshot of a new store, cut off between its row and the tail. -/
def snapshotCutOff : StoreDir :=
  (refreshed .fresh []).appendLedger (rowLine (nextRow "snapshot" [] .fresh []))

theorem snapshotCutOff_mem_states :
    snapshotCutOff ∈ ((Operation.write (.snapshot ⟨[], rfl⟩)).run .plain).states .fresh := by
  have hrun := @addSnapshot_apply ⟨[], rfl⟩ .fresh _ rfl verified_fresh.rows
  simp only [Operation.run, Call.run, Program.states, Program.bind_apply, hrun, Run.andThen_ok]
  simp [snapshotCutOff]

theorem crashReachable_snapshotCutOff : CrashReachable snapshotCutOff :=
  .operation .plain .init snapshotCutOff_mem_states

theorem rows_snapshotCutOff :
    rows snapshotCutOff = .ok ([] ++ [canonFields (nextRow "snapshot" [] .fresh [])]) :=
  rows_appendLedger_of_fits (verified_refreshed verified_fresh).rows (wf_nextRow rfl)
    (fits_refreshed_iff.mpr (fits_fresh (by decide) (by decide)))

/-- After the crash the tail is rebuilt from the row. -/
theorem loadTail_snapshotCutOff :
    ∃ read, rows snapshotCutOff = .ok read ∧
      (loadTail snapshotCutOff).result = .ok (tailFromRows snapshotCutOff read) :=
  ⟨_, rows_snapshotCutOff,
    (loadTail_agrees crashReachable_snapshotCutOff).1 _ rows_snapshotCutOff⟩

end MncsCommons.Store
