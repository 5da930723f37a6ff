/-
# Extending a verified store

A call appends one row at the position the tail gives.  The row extends the
chain exactly when the tail is the end of the ledger (`linked_makeLedgerRow_iff`),
and a verified store with a new entry, its content file and its row is verified
exactly when the entry names its digest, the row fits the read limits and the
tail is the end of the ledger (`verified_committed_iff`).
-/

import MncsCommons.Store.Invariant

namespace MncsCommons.Store

open MncsCommons.Data MncsCommons.Protocol MncsCommons.Exec

/-! ## The position of a row -/

/-- The tail is the end of the ledger. -/
structure AtEnd (tail : LedgerTail) (read : List Fields) : Prop where
  sequence : tail.sequence = read.length
  entryDigest : tail.entryDigest = lastDigest .null read

theorem Chain.lastDigest_eq {read : List Fields} (h : Chain 1 .null read) :
    lastDigest .null read = .null ∨ ∃ digest, lastDigest .null read = .str digest := by
  rcases List.eq_nil_or_concat' read with rfl | ⟨before, row, rfl⟩
  · exact .inl rfl
  · exact .inr ⟨_, (lastDigest_append .null before row).trans (chain_append_iff.mp h).2.digest⟩

theorem canonicalDigestOfAll_map_sortKeys (fields : Fields) :
    canonicalDigestOfAll (fields.map fun field => (field.1, field.2.sortKeys)) =
      canonicalDigestOfAll fields := by
  have hsorted : Fields.sortKeys (fields.map fun field => (field.1, field.2.sortKeys)) =
      Fields.sortKeys fields := by
    rw [Fields.sortKeys, List.map_map, Fields.sortKeys]
    congr 2
    funext field
    simp
  rw [← canonicalDigestOfAll_sortKeys, hsorted, canonicalDigestOfAll_sortKeys]

theorem get_makeLedgerRow (entryType : String) (payload : Fields) (tail : LedgerTail)
    (key : String) :
    Fields.get (canonFields (makeLedgerRow entryType payload tail)) key =
      (Fields.get (makeLedgerRow entryType payload tail) key).sortKeys := by
  rw [canonFields_makeLedgerRow, Fields.get_sortKeys]

theorem bodyOf_makeLedgerRow (entryType : String) (payload : Fields) (tail : LedgerTail) :
    bodyOf (canonFields (makeLedgerRow entryType payload tail)) =
      (rowBody entryType payload tail).map fun field => (field.1, field.2.sortKeys) := by
  simp only [bodyOf, get_makeLedgerRow]
  rfl

/-- A row continues a ledger that its tail is the end of. -/
theorem linked_makeLedgerRow_iff {read : List Fields} (hchain : Chain 1 .null read)
    {entryType : String} {payload : Fields} {tail : LedgerTail} :
    Linked (1 + read.length) (lastDigest .null read)
        (canonFields (makeLedgerRow entryType payload tail)) ↔ AtEnd tail read := by
  have hsequence : Fields.get (canonFields (makeLedgerRow entryType payload tail)) "sequence" =
      .int (tail.sequence + 1) := get_makeLedgerRow entryType payload tail "sequence"
  have hprevious :
      Fields.get (canonFields (makeLedgerRow entryType payload tail)) "previousDigest" =
        tail.entryDigest.sortKeys := get_makeLedgerRow entryType payload tail "previousDigest"
  have hpyEq : tail.entryDigest.pyEq (lastDigest .null read) = true ↔
      tail.entryDigest = lastDigest .null read := by
    rcases hchain.lastDigest_eq with h | ⟨digest, h⟩ <;> simp [h]
  constructor
  · rintro ⟨hs, hp, -⟩
    rw [hsequence, Json.pyEq_int_iff] at hs
    rw [hprevious, Json.pyEq_sortKeys_left, hpyEq] at hp
    exact ⟨by omega, hp⟩
  · rintro ⟨hs, hp⟩
    refine ⟨?_, ?_, ?_⟩
    · rw [hsequence, Json.pyEq_int_iff]
      omega
    · rw [hprevious, Json.pyEq_sortKeys_left, hpyEq]
      exact hp
    · rw [bodyOf_makeLedgerRow, canonicalDigestOfAll_map_sortKeys]
      exact get_makeLedgerRow entryType payload tail "entryDigest"

theorem payloadsFromRows_makeLedgerRow (entryType other : String) (payload : Fields)
    (tail : LedgerTail) :
    payloadsFromRows [canonFields (makeLedgerRow entryType payload tail)] other =
      if entryType = other then [Fields.sortKeys payload] else [] := by
  have htype : Fields.get (canonFields (makeLedgerRow entryType payload tail)) "entryType" =
      .str entryType := get_makeLedgerRow entryType payload tail "entryType"
  have hpayload : Fields.get (canonFields (makeLedgerRow entryType payload tail)) "payload" =
      .obj (Fields.sortKeys payload) :=
    (get_makeLedgerRow entryType payload tail "payload").trans (Json.sortKeys_obj_eq payload)
  simp only [payloadsFromRows, List.filterMap_cons, List.filterMap_nil, htype, hpayload]
  by_cases h : entryType = other <;> simp [h, Json.str?, Json.obj?]

/-! ## Content files -/

theorem readPath_contentPath (store : StoreDir) (type : ContentType) (digest : String) :
    store.readPath (contentPath type digest) = store.readContent type digest := by
  simp [StoreDir.readPath, splitContentPath_contentPath, StoreDir.readContent]

theorem writePath_contentPath (store : StoreDir) (type : ContentType) (digest : String)
    (text : Text) :
    store.writePath (contentPath type digest) text =
      store.setContent type
        (some (Fields.set ((store.content type).getD []) (contentName digest) text)) := by
  simp [StoreDir.writePath, splitContentPath_contentPath]

/-- The store with the content file of an entry. -/
def StoreDir.withContent (store : StoreDir) (type : ContentType) (payload : Fields) : StoreDir :=
  store.writePath (contentPath type (Fields.get payload "contentDigest").pyStr)
    (canonicalJson (.obj payload))

section WithContent

variable (store : StoreDir) (type : ContentType) (payload : Fields)

theorem content_withContent :
    (store.withContent type payload).content type =
      some (Fields.set ((store.content type).getD [])
        (contentName (Fields.get payload "contentDigest").pyStr) (canonicalJson (.obj payload))) := by
  rw [StoreDir.withContent, writePath_contentPath, StoreDir.content_setContent_self]

theorem content_withContent_of_ne {other : ContentType} (h : other ≠ type) :
    (store.withContent type payload).content other = store.content other := by
  rw [StoreDir.withContent, writePath_contentPath, StoreDir.content_setContent_of_ne store h]

@[simp]
theorem ledger_withContent : (store.withContent type payload).ledger = store.ledger := by
  simp [StoreDir.withContent, writePath_contentPath]

@[simp]
theorem tail_withContent : (store.withContent type payload).tail = store.tail := by
  simp [StoreDir.withContent, writePath_contentPath]

@[simp]
theorem transactions_withContent :
    (store.withContent type payload).transactions = store.transactions := by
  simp [StoreDir.withContent, writePath_contentPath]

theorem isInitialized_withContent (h : store.isInitialized = true) :
    (store.withContent type payload).isInitialized = true := by
  rw [StoreDir.withContent, writePath_contentPath]
  cases type <;> simp_all [StoreDir.isInitialized, StoreDir.setContent]

theorem readContent_withContent :
    (store.withContent type payload).readContent type
        (Fields.get payload "contentDigest").pyStr = some (canonicalJson (.obj payload)) := by
  rw [StoreDir.readContent, content_withContent, Option.bind_some, Fields.get?_set, if_pos rfl]

/-- A new content file leaves the ones that are there. -/
theorem readContent_withContent_of_some
    (hnone : store.readContent type (Fields.get payload "contentDigest").pyStr = none)
    {other : ContentType} {digest : String} {text : Text}
    (h : store.readContent other digest = some text) :
    (store.withContent type payload).readContent other digest = some text := by
  by_cases htype : other = type
  · subst htype
    have hname : contentName (Fields.get payload "contentDigest").pyStr ≠ contentName digest := by
      intro hname
      rw [StoreDir.readContent, ← hname] at h
      rw [StoreDir.readContent, h] at hnone
      cases hnone
    obtain ⟨dir, hdir, hfile⟩ := Option.bind_eq_some_iff.mp h
    rw [StoreDir.readContent, content_withContent, Option.bind_some, Fields.get?_set, if_neg hname,
      hdir, Option.getD_some, hfile]
  · rwa [StoreDir.readContent, content_withContent_of_ne store type payload htype]

end WithContent

/-! ## A new row -/

@[simp]
theorem content_withTail (store : StoreDir) (tail : Option Text) (type : ContentType) :
    StoreDir.content { store with tail := tail } type = store.content type := by
  cases type <;> rfl

@[simp]
theorem content_appendLedger (store : StoreDir) (text : Text) (type : ContentType) :
    (store.appendLedger text).content type = store.content type := by
  cases type <;> rfl

@[simp]
theorem readContent_withTail (store : StoreDir) (tail : Option Text) (type : ContentType)
    (digest : String) :
    StoreDir.readContent { store with tail := tail } type digest =
      store.readContent type digest := by
  simp [StoreDir.readContent]

@[simp]
theorem readContent_appendLedger (store : StoreDir) (text : Text) (type : ContentType)
    (digest : String) :
    (store.appendLedger text).readContent type digest = store.readContent type digest := by
  simp [StoreDir.readContent]

theorem Holds.mono {store after : StoreDir} {row : Fields}
    (hkeep : ∀ type digest text, store.readContent type digest = some text →
      after.readContent type digest = some text) (h : Holds store row) : Holds after row := by
  cases h with
  | snapshot payload htype hpayload hschema => exact .snapshot payload htype hpayload hschema
  | entry type payload htype hpayload hfiled =>
      exact .entry type payload htype hpayload ⟨hfiled.valid, hkeep _ _ _ hfiled.file⟩

theorem referenced_append (read : List Fields) (row : Fields) (type : ContentType) :
    referenced (read ++ [row]) type = referenced read type ++ referenced [row] type := by
  simp [referenced, payloadsFromRows_append]

theorem validateEntry_sortKeys {type : ContentType} {payload : Fields}
    (hwf : (Json.obj payload).wf = true) :
    validateEntry type (Fields.sortKeys payload) = .ok [] ↔ validateEntry type payload = .ok [] := by
  cases type with
  | record => exact validateRecord_sortKeys hwf
  | event => exact validateEvent_sortKeys hwf

/-- The stems of a directory with one more file. -/
theorem mem_contentStems_set {dir : Dir} {digest : String} {text : Text} {stem : String}
    (h : stem ∈ contentStems (Fields.set dir (contentName digest) text)) :
    stem ∈ contentStems dir ∨ stem = Str.removePrefix digest "sha256:" := by
  simp only [contentStems, List.mem_filterMap] at h ⊢
  obtain ⟨name, hname, hstem⟩ := h
  rcases Fields.mem_keys_set.mp hname with hold | rfl
  · exact .inl ⟨name, hold, hstem⟩
  · right
    rw [contentName, if_pos (Str.endsWith_append _ _), Str.removeSuffix_append] at hstem
    exact (Option.some.inj hstem).symm

namespace Verified

variable {store : StoreDir} {read : List Fields}

/-- The tail cache is not part of what is verified. -/
theorem withTail (h : Verified store read) (tail : Option Text) :
    Verified { store with tail := tail } read where
  rows := h.rows
  noPending := h.noPending
  chain := h.chain
  holds := fun row hrow => (h.holds row hrow).mono (by simp)
  owned := fun type => by simpa [Owned] using h.owned type

theorem snapshot (h : Verified store read) {payload : Fields} {tail : LedgerTail}
    (hwf : (Json.obj payload).wf = true) (htail : tail.entryDigest.wf = true)
    (hschema : Fields.get payload "schema_version" = .str snapshotSchema)
    (hend : AtEnd tail read)
    (hfits : Fits store read (makeLedgerRow "snapshot" payload tail)) :
    Verified (store.appendLedger (rowLine (makeLedgerRow "snapshot" payload tail)))
      (read ++ [canonFields (makeLedgerRow "snapshot" payload tail)]) where
  rows := rows_appendLedger_of_fits h.rows (wf_makeLedgerRow hwf htail) hfits
  noPending := h.noPending
  chain := chain_append_iff.mpr ⟨h.chain, (linked_makeLedgerRow_iff h.chain).mpr hend⟩
  holds := by
    intro row hrow
    rcases List.mem_append.mp hrow with hrow | hrow
    · exact (h.holds row hrow).mono (by simp)
    · obtain rfl := List.mem_singleton.mp hrow
      refine .snapshot (Fields.sortKeys payload) (get_makeLedgerRow "snapshot" payload tail _)
        ((get_makeLedgerRow "snapshot" payload tail _).trans (Json.sortKeys_obj_eq _)) ?_
      rw [Fields.get_sortKeys, hschema, Json.sortKeys_str]
  owned := by
    intro type stem hstem
    rw [content_appendLedger] at hstem
    rw [referenced_append]
    exact List.mem_append_left _ (h.owned type stem hstem)

/-- A new entry with its digest, its content file and a row that fits at the end
of the ledger. -/
theorem committed (h : Verified store read) {type : ContentType} {candidate : Fields}
    {tail : LedgerTail} (hwf : (Json.obj candidate).wf = true) (htail : tail.entryDigest.wf = true)
    (hvalid : validateEntry type candidate = .ok []) (hnew : Fresh type read candidate)
    (hdigest : Fields.get candidate "contentDigest" ≠ .null) (hend : AtEnd tail read)
    (hfits : Fits store read (makeLedgerRow type.value candidate tail)) :
    Verified
      ((store.withContent type candidate).appendLedger
        (rowLine (makeLedgerRow type.value candidate tail)))
      (read ++ [canonFields (makeLedgerRow type.value candidate tail)]) := by
  have hstr := (validateEntry_digest hvalid).resolve_left hdigest
  have hnone := h.readContent_eq_none hvalid hnew
  have hrows : Store.rows (store.withContent type candidate) = .ok read := by
    obtain ⟨hinit, hread⟩ := rows_eq_ok_iff.mp h.rows
    exact rows_eq_ok_iff.mpr ⟨isInitialized_withContent _ _ _ hinit, by simpa using hread⟩
  have hfits' : Fits (store.withContent type candidate) read
      (makeLedgerRow type.value candidate tail) :=
    ⟨by simpa using hfits.endsLine, hfits.line,
      by simpa [StoreDir.ledgerBytes] using hfits.bytes, hfits.count⟩
  refine ⟨rows_appendLedger_of_fits hrows (wf_makeLedgerRow hwf htail) hfits', ?_,
    chain_append_iff.mpr ⟨h.chain, (linked_makeLedgerRow_iff h.chain).mpr hend⟩, ?_, ?_⟩
  · simpa [pendingTransactions, StoreDir.appendLedger] using h.noPending
  · intro row hrow
    rcases List.mem_append.mp hrow with hrow | hrow
    · refine (h.holds row hrow).mono fun other digest text hfile => ?_
      rw [readContent_appendLedger]
      exact readContent_withContent_of_some store type candidate hnone hfile
    · obtain rfl := List.mem_singleton.mp hrow
      refine .entry type (Fields.sortKeys candidate) (get_makeLedgerRow type.value candidate tail _)
        ((get_makeLedgerRow type.value candidate tail _).trans (Json.sortKeys_obj_eq _))
        ⟨(validateEntry_sortKeys hwf).mpr hvalid, ?_⟩
      rw [Fields.get_sortKeys, hstr, Json.sortKeys_str, ← Json.sortKeys_obj_eq,
        canonicalJson_sortKeys, ← hstr, readContent_appendLedger]
      exact readContent_withContent store type candidate
  · intro other stem hstem
    rw [referenced_append]
    by_cases hother : other = type
    · subst hother
      rw [content_appendLedger, content_withContent, Option.getD_some] at hstem
      rcases mem_contentStems_set hstem with hold | rfl
      · exact List.mem_append_left _ (h.owned other stem hold)
      · refine List.mem_append_right _ ?_
        rw [referenced, payloadsFromRows_makeLedgerRow, if_pos rfl, List.map_singleton,
          Fields.get_sortKeys, hstr, Json.sortKeys_str, Json.pyStr_str,
          append_removePrefix_canonicalDigest]
        exact List.mem_singleton_self _
    · rw [content_appendLedger, content_withContent_of_ne store type candidate hother] at hstem
      exact List.mem_append_left _ (h.owned other stem hstem)

/-- What a verified store says about the row it was extended by. -/
theorem of_committed (h : Verified store read) {type : ContentType} {candidate : Fields}
    {tail : LedgerTail} {after : List Fields} (hwf : (Json.obj candidate).wf = true)
    (htail : tail.entryDigest.wf = true)
    (hafter : Verified
      ((store.withContent type candidate).appendLedger
        (rowLine (makeLedgerRow type.value candidate tail))) after) :
    Fields.get candidate "contentDigest" ≠ .null ∧ AtEnd tail read ∧
      Fits store read (makeLedgerRow type.value candidate tail) := by
  have hrows : Store.rows (store.withContent type candidate) = .ok read := by
    obtain ⟨hinit, hread⟩ := rows_eq_ok_iff.mp h.rows
    exact rows_eq_ok_iff.mpr ⟨isInitialized_withContent _ _ _ hinit, by simpa using hread⟩
  have hfits := fits_of_rows_appendLedger hrows hafter.rows
  have hread := rows_appendLedger_of_fits hrows (wf_makeLedgerRow hwf htail) hfits
  obtain rfl := Except.ok.inj (hread.symm.trans hafter.rows)
  have hpayload : Fields.sortKeys candidate ∈ payloadsFromRows
      (read ++ [canonFields (makeLedgerRow type.value candidate tail)]) type.value := by
    rw [payloadsFromRows_append, payloadsFromRows_makeLedgerRow, if_pos rfl]
    exact List.mem_append_right _ (List.mem_singleton_self _)
  refine ⟨fun hnull => ?_, (linked_makeLedgerRow_iff h.chain).mp (chain_append_iff.mp hafter.chain).2,
    ⟨by simpa using hfits.endsLine, hfits.line, by simpa [StoreDir.ledgerBytes] using hfits.bytes,
      hfits.count⟩⟩
  have hdigest := hafter.contentDigest hpayload
  rw [Fields.get_sortKeys, hnull] at hdigest
  cases hdigest

end Verified

end MncsCommons.Store
