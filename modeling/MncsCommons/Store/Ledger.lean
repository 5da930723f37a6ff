/-
# Ledger rows and the tail cache

A row carries its sequence number, the digest of the row before it, the entry
and the digest of all that.  The tail cache holds the sequence number and digest
of the last row with the size of the ledger; it is trusted when the size is right
and the last line agrees, and without reading the ledger at all when it says that
the ledger is empty.
-/

import MncsCommons.Store.Disk
import MncsCommons.Protocol.Stability

namespace MncsCommons.Store

open MncsCommons.Data MncsCommons.Protocol MncsCommons.Exec

/-- The line of a row. -/
def rowLine (row : Fields) : Text := canonicalJson (.obj row) ++ ['\n']

/-- Append to the ledger, creating it when it is missing. -/
def StoreDir.appendLedger (store : StoreDir) (text : Text) : StoreDir :=
  { store with ledger := some (store.ledger.getD [] ++ text) }

/-- The size of the ledger in bytes. -/
def StoreDir.ledgerBytes (store : StoreDir) : Nat := Text.byteSize (store.ledger.getD [])

/-! ## The tail -/

/-- The position of the last row. -/
structure LedgerTail where
  sequence : Int
  entryDigest : Json
  ledgerBytes : Int
  deriving DecidableEq

/-- The text of a tail cache. -/
def tailText (sequence entryDigest : Json) (ledgerBytes : Nat) : Text :=
  canonicalJson (.obj
    [("sequence", sequence), ("entryDigest", entryDigest), ("ledgerBytes", .int ledgerBytes)])

/-- The digest of the last row, or the one given when there is none. -/
def lastDigest (previous : Json) (read : List Fields) : Json :=
  match read.getLast? with
  | some row => Fields.get row "entryDigest"
  | none => previous

/-- `_tail_from_rows`. -/
def tailFromRows (store : StoreDir) (read : List Fields) : LedgerTail :=
  ⟨read.length,
    match read.getLast? with
    | some row => .str (Fields.get row "entryDigest").pyStr
    | none => .null,
    store.ledgerBytes⟩

/-- The cached tail, when the file reads as one. -/
def cachedTail (store : StoreDir) : Option LedgerTail := do
  let raw ← store.tail
  if maxTransactionBytes < raw.byteSize then none
  else
    let value ← (loads raw).bind Json.obj?
    let sequence ← (Fields.get? value "sequence").bind Json.pyInt
    let ledgerBytes ← (Fields.get? value "ledgerBytes").bind Json.pyInt
    some ⟨sequence, Fields.get value "entryDigest", ledgerBytes⟩

/-- What `seek` and `read` give of the last `limit` bytes.  A character cut by
the seek leaves bytes that no decoder accepts; the replacement character stands
for them. -/
def lastBytes (limit : Nat) : Text → Text
  | [] => []
  | c :: rest =>
      if Text.byteSize (c :: rest) ≤ limit then c :: rest
      else if Text.byteSize rest < limit then '\uFFFD' :: rest
      else lastBytes limit rest

/-- `bytes.splitlines`. -/
def splitUniversal : Text → List Text
  | [] => []
  | '\r' :: '\n' :: rest => [] :: splitUniversal rest
  | c :: rest =>
      if c = '\n' ∨ c = '\r' then [] :: splitUniversal rest
      else match splitUniversal rest with
        | [] => [[c]]
        | line :: lines => (c :: line) :: lines

/-- The last row as the tail check reads it. -/
def lastLineRow (store : StoreDir) : Option Fields := do
  let last ← (splitUniversal (lastBytes maxLedgerLineBytes (store.ledger.getD []))).getLast?
  (loads last).bind Json.obj?

/-- The cached tail, when `_load_tail_locked` returns it. -/
def trustedTail (store : StoreDir) : Option LedgerTail := do
  let tail ← cachedTail store
  if tail.ledgerBytes = store.ledgerBytes ∧ 0 ≤ tail.sequence then
    if tail.sequence = 0 ∧ tail.entryDigest = .null then some tail
    else
      let last ← lastLineRow store
      if (Fields.get last "sequence").pyEq (.int tail.sequence) &&
          (Fields.get last "entryDigest").pyEq tail.entryDigest then some tail
      else none
  else none

/-- `_load_tail_locked`: the trusted cache, or a tail rebuilt from the rows. -/
def loadTail : StoreM LedgerTail := do
  let store ← Program.get
  Program.lift (requireInitialized store)
  match trustedTail store with
  | some tail => return tail
  | none =>
      let read ← Program.lift (rows store)
      let tail := tailFromRows store read
      Program.step fun store =>
        { store with tail := some (tailText (.int tail.sequence) tail.entryDigest store.ledgerBytes) }
      return tail

/-! ## Rows -/

/-- The members of a row that its digest covers. -/
def rowBody (entryType : String) (payload : Fields) (tail : LedgerTail) : Fields :=
  [("sequence", .int (tail.sequence + 1)), ("entryType", .str entryType),
    ("previousDigest", tail.entryDigest), ("payload", .obj payload)]

/-- `_make_ledger_row`. -/
def makeLedgerRow (entryType : String) (payload : Fields) (tail : LedgerTail) : Fields :=
  let body := rowBody entryType payload tail
  body ++ [("entryDigest", .str (canonicalDigestOfAll body))]

/-- The payloads of the rows of one type. -/
def payloadsFromRows (read : List Fields) (entryType : String) : List Fields :=
  read.filterMap fun row =>
    if (Fields.get row "entryType").str? = some entryType then (Fields.get row "payload").obj?
    else none

/-! ## Rows read back -/

theorem canonicalizeFields_of_inert_keys {fields : Fields}
    (h : ∀ key ∈ Fields.keys fields, Inert [key]) : canonicalizeFields [] fields = fields := by
  rw [canonicalizeFields_eq_map]
  conv_rhs => rw [← List.map_id fields]
  refine List.map_congr_left fun field hfield => ?_
  have hinert : Inert [field.1] := h field.1 (List.mem_map.mpr ⟨field, hfield, rfl⟩)
  simp [canonicalize_of_inert hinert]

theorem canonFields_of_inert_keys {fields : Fields}
    (h : ∀ key ∈ Fields.keys fields, Inert [key]) : canonFields fields = Fields.sortKeys fields := by
  rw [canonFields, canonicalizeFields_of_inert_keys h]

theorem keys_makeLedgerRow (entryType : String) (payload : Fields) (tail : LedgerTail) :
    Fields.keys (makeLedgerRow entryType payload tail) =
      ["sequence", "entryType", "previousDigest", "payload", "entryDigest"] := rfl

/-- What a row reads back as. -/
theorem canonFields_makeLedgerRow (entryType : String) (payload : Fields) (tail : LedgerTail) :
    canonFields (makeLedgerRow entryType payload tail) =
      Fields.sortKeys (makeLedgerRow entryType payload tail) :=
  canonFields_of_inert_keys (by rw [keys_makeLedgerRow]; decide)

theorem wf_makeLedgerRow {entryType : String} {payload : Fields} {tail : LedgerTail}
    (hpayload : (Json.obj payload).wf = true) (htail : tail.entryDigest.wf = true) :
    (Json.obj (makeLedgerRow entryType payload tail)).wf = true := by
  rw [Json.wf_obj_iff, keys_makeLedgerRow]
  refine ⟨by decide, ?_⟩
  have hscalar : ∀ s : String, (Json.str s).wf = true := fun _ => rfl
  have hint : ∀ n : Int, (Json.int n).wf = true := fun _ => rfl
  simp only [makeLedgerRow, rowBody, List.cons_append, List.nil_append, List.forall_mem_cons]
  exact ⟨hint _, hscalar _, htail, hpayload, hscalar _, by simp⟩

theorem loads_rowLine {row : Fields} (hwf : (Json.obj row).wf = true) :
    loads (rowLine row) = some (.obj (canonFields row)) := by
  have hsorted : ((canonicalize [] (.obj row)).sortKeys).wf = true := by
    rw [Json.wf_sortKeys, wf_canonicalize, hwf]
  rw [rowLine, canonicalJson, dumps, loads_render_append hsorted (by simp [isWs])]
  rw [canonicalize_obj, Json.sortKeys_obj_eq, canonFields]

theorem newline_not_mem_canonicalJson (value : Json) : '\n' ∉ canonicalJson value :=
  fun h => absurd (printable_of_mem_dumps h) (by decide)

theorem all_isByteSpace_rowLine (row : Fields) : (rowLine row).all isByteSpace = false := by
  have hbrace : '{' ∈ rowLine row := by
    rw [rowLine, canonicalJson, canonicalize_obj, dumps, Json.sortKeys_obj_eq]
    cases Fields.sortKeys (canonicalizeFields [] row) with
    | nil => simp [render]
    | cons field fields => simp [render]
  rw [← Bool.not_eq_true, List.all_eq_true]
  exact fun hall => absurd (hall '{' hbrace) (by decide)

theorem readsRow_rowLine_iff {row read : Fields} (hwf : (Json.obj row).wf = true) :
    ReadsRow (rowLine row) read ↔
      (rowLine row).byteSize ≤ maxLedgerLineBytes ∧ read = canonFields row := by
  rw [ReadsRow, loads_rowLine hwf]
  simp [all_isByteSpace_rowLine, eq_comm]

/-! ## Appending a row -/

/-- A row fits: the ledger ends its last line, and neither the line, the ledger
nor the number of rows exceeds what `rows` reads. -/
structure Fits (store : StoreDir) (read : List Fields) (row : Fields) : Prop where
  endsLine : EndsLine (store.ledger.getD [])
  line : (rowLine row).byteSize ≤ maxLedgerLineBytes
  bytes : store.ledgerBytes + (rowLine row).byteSize ≤ maxLedgerBytes
  count : read.length < maxLedgerRows

@[simp]
theorem StoreDir.isInitialized_appendLedger {store : StoreDir} (h : store.isInitialized = true)
    (text : Text) : (store.appendLedger text).isInitialized = true := by
  simp_all [StoreDir.isInitialized, StoreDir.appendLedger]

@[simp]
theorem StoreDir.ledger_appendLedger (store : StoreDir) (text : Text) :
    (store.appendLedger text).ledger = some (store.ledger.getD [] ++ text) := rfl

theorem splitLines_append_rowLine {text : Text} (h : EndsLine text) (row : Fields) :
    splitLines (text ++ rowLine row) = splitLines text ++ [rowLine row] := by
  rw [splitLines_append h, rowLine, splitLines_line (newline_not_mem_canonicalJson _)]

theorem rows_appendLedger_of_fits {store : StoreDir} {read : List Fields} {row : Fields}
    (hread : rows store = .ok read) (hwf : (Json.obj row).wf = true) (hfits : Fits store read row) :
    rows (store.appendLedger (rowLine row)) = .ok (read ++ [canonFields row]) := by
  obtain ⟨hinit, hrows, -, -⟩ := rows_eq_ok_iff.mp hread
  refine rows_eq_ok_iff.mpr ⟨StoreDir.isInitialized_appendLedger hinit _, ?_, ?_, ?_⟩
  · rw [StoreDir.ledger_appendLedger, Option.getD_some, splitLines_append_rowLine hfits.endsLine]
    refine List.rel_append hrows (.cons ?_ .nil)
    exact (readsRow_rowLine_iff hwf).mpr ⟨hfits.line, rfl⟩
  · simpa [StoreDir.ledgerBytes] using hfits.bytes
  · simpa using Nat.succ_le_of_lt hfits.count

/-- After appending to a readable ledger the ledger reads again only if the row
fitted: a row joined to an unfinished line makes that line unreadable. -/
theorem fits_of_rows_appendLedger {store : StoreDir} {read after : List Fields} {row : Fields}
    (hread : rows store = .ok read)
    (hafter : rows (store.appendLedger (rowLine row)) = .ok after) : Fits store read row := by
  obtain ⟨-, hrows, -, -⟩ := rows_eq_ok_iff.mp hread
  obtain ⟨-, hrowsAfter, hbytes, hcount⟩ := rows_eq_ok_iff.mp hafter
  rw [StoreDir.ledger_appendLedger, Option.getD_some] at hrowsAfter hbytes
  have hends : EndsLine (store.ledger.getD []) := by
    by_contra hnot
    obtain ⟨lines, last, hsplit, happend⟩ :=
      splitLines_append_of_not_endsLine hnot (newline_not_mem_canonicalJson (.obj row))
    rw [rowLine, happend] at hrowsAfter
    rw [hsplit] at hrows
    obtain ⟨_, lastRow, rfl, -, hlast⟩ := forall₂_concat_left.mp hrows
    obtain ⟨_, joined, rfl, -, hjoined⟩ := forall₂_concat_left.mp hrowsAfter
    obtain ⟨c, tail, hline, hc⟩ : ∃ c tail, canonicalJson (.obj row) ++ ['\n'] = c :: tail ∧
        isWs c = false := by
      obtain ⟨c, tail, hrender, hc⟩ := render_eq_cons (canonicalize [] (.obj row)).sortKeys
      refine ⟨c, tail ++ ['\n'], by rw [canonicalJson, dumps, hrender]; rfl, ?_⟩
      simp only [startsValue, Bool.and_eq_true, Bool.not_eq_true'] at hc
      exact hc.1.1
    have hnone := loads_append_of_obj hlast.2.2 hline hc
    rw [hjoined.2.2] at hnone
    cases hnone
  rw [splitLines_append_rowLine hends] at hrowsAfter
  obtain ⟨before, last, rfl, hbefore, hlast⟩ := forall₂_concat_left.mp hrowsAfter
  refine ⟨hends, hlast.1, by simpa [StoreDir.ledgerBytes] using hbytes, ?_⟩
  rw [List.length_append, List.length_singleton] at hcount
  rw [← hrows.length_eq, hbefore.length_eq]
  exact Nat.lt_of_succ_le hcount

end MncsCommons.Store
