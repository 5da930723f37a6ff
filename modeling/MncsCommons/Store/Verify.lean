/-
# Verification and recovery

`verify` replays the ledger: sequence numbers, hash links, entry digests,
payloads, content files, and content files that no row names.  A store is valid
when nothing is reported.

`recover` finishes the pending transactions from their journals and verifies the
result.  It checks each journal against itself before it touches the store.
-/

import MncsCommons.Store.Commit

namespace MncsCommons.Store

open MncsCommons.Data MncsCommons.Protocol MncsCommons.Exec

def snapshotSchema : String := "commons.mncs.dev/store-snapshot/v0alpha1"

/-! ## Verification -/

/-- The path of a row in diagnostics. -/
def rowPath (sequence : Nat) : String := itemPath "ledger.jsonl" sequence

/-- The members that a row's digest covers, as read. -/
def bodyOf (row : Fields) : Fields :=
  ["sequence", "entryType", "previousDigest", "payload"].map fun key => (key, Fields.get row key)

/-- The position and the hash link of a row. -/
def checkLink (sequence : Nat) (previous : Json) (row : Fields) : Py (List Diagnostic) :=
  let expected := canonicalDigestOfAll (bodyOf row)
  concatChecks
    [reportIf (!(Fields.get row "sequence").pyEq (.int sequence)) "SEQUENCE_MISMATCH"
        (rowPath sequence) "ledger sequence is not contiguous",
      reportIf (!(Fields.get row "previousDigest").pyEq previous) "PREVIOUS_DIGEST_MISMATCH"
        (rowPath sequence) "ledger hash link is broken",
      reportIf (Fields.get row "entryDigest" ≠ .str expected) "ENTRY_DIGEST_MISMATCH"
        (rowPath sequence) ("expected " ++ expected)]

/-- The validator of a type. -/
def validateEntry : ContentType → Fields → Py (List Diagnostic)
  | .record => validateRecord
  | .event => validateEvent

/-- The entry of a row and its content file. -/
def checkEntry (store : StoreDir) (sequence : Nat) (type : ContentType) (payload : Fields) :
    Py (List Diagnostic) := do
  let report ← validateEntry type payload
  let digest := Fields.get payload "contentDigest"
  let path := contentPath type digest.pyStr
  concatChecks
    [.ok (report.map fun item =>
        ⟨item.code, rowPath sequence ++ "." ++ item.path, item.message⟩),
      reportIf (digest.isStr && digest ≠ .str (canonicalDigest payload)) "CONTENT_DIGEST_MISMATCH"
        (rowPath sequence) ("content digest for " ++ type.value ++ " is wrong"),
      match store.readContent type digest.pyStr with
      | none => reportIf true "CONTENT_FILE_MISSING" (rowPath sequence) path
      | some text =>
          reportIf (text ≠ canonicalJson (.obj payload)) "CONTENT_FILE_MISMATCH" (rowPath sequence)
            path]

/-- The payload of a row. -/
def checkPayload (store : StoreDir) (sequence : Nat) (row : Fields) : Py (List Diagnostic) :=
  match (Fields.get row "payload").obj? with
  | none => reportIf true "PAYLOAD_INVALID" (rowPath sequence) "ledger payload must be an object"
  | some payload => match (Fields.get row "entryType").str? with
      | some "snapshot" =>
          reportIf ((Fields.get payload "schema_version").str? ≠ some snapshotSchema)
            "SNAPSHOT_INVALID" (rowPath sequence) "snapshot schema is unsupported"
      | some "record" => checkEntry store sequence .record payload
      | some "event" => checkEntry store sequence .event payload
      | _ => reportIf true "UNKNOWN_ENTRY_TYPE" (rowPath sequence)
          "entry type must be record, event, or snapshot"

/-- The rows from a position and the digest of the row before it. -/
def checkRows (store : StoreDir) : Nat → Json → List Fields → List (Py (List Diagnostic))
  | _, _, [] => []
  | sequence, previous, row :: read =>
      checkLink sequence previous row :: checkPayload store sequence row ::
        checkRows store (sequence + 1) (Fields.get row "entryDigest") read

/-- The digests that the rows of a type refer to. -/
def referenced (read : List Fields) (type : ContentType) : List String :=
  (payloadsFromRows read type.value).map fun payload => (Fields.get payload "contentDigest").pyStr

/-- The content files that `glob("*.json")` finds, by stem. -/
def contentStems (dir : Dir) : List String :=
  (Fields.keys dir).filterMap fun name =>
    if Str.endsWith name ".json" then some (Str.removeSuffix name ".json") else none

/-- Content files that no row refers to. -/
def checkOrphans (store : StoreDir) (read : List Fields) (type : ContentType) :
    Py (List Diagnostic) :=
  let code := match type with
    | .record => "ORPHAN_RECORD"
    | .event => "ORPHAN_EVENT"
  .ok (((contentStems ((store.content type).getD [])).filter fun stem =>
    !(referenced read type).contains ("sha256:" ++ stem)).map fun stem =>
      ⟨code, type.directory ++ "/" ++ stem ++ ".json", "content file is not linked from ledger"⟩)

/-- The diagnostics of `verify`; the store is valid when there are none. -/
def verify (store : StoreDir) : Py (List Diagnostic) :=
  match rows store with
  | .error (.storeError message) => .ok [⟨"LEDGER_READ_FAILED", "ledger.jsonl", message⟩]
  | .error error => .error error
  | .ok read => concatChecks
      ([.ok ((pendingTransactions store).map fun name =>
          ⟨"PENDING_TRANSACTION", name,
            "transaction is recoverable or must be inspected explicitly"⟩)] ++
        checkRows store 1 .null read ++
        [checkOrphans store read .record, checkOrphans store read .event])

/-! ## Recovery -/

/-- The type of a journalled entry. -/
def journalType (value : Fields) (name : String) : Py ContentType := do
  let type := Fields.get value "entryType"
  requireHashable type
  match type.str? with
  | some "record" => return .record
  | some "event" => return .event
  | _ => .error (.storeError ("invalid transaction entry type: " ++ name))

/-- `value["content"]`, which must be a string. -/
def journalContent (value : Fields) : Py Text :=
  match Fields.get value "content" with
  | .str content => .ok content.toList
  | content => .error
      (.attributeError ("'" ++ typeName content ++ "' object has no attribute 'encode'"))

/-- Whether a relative content path leaves the content directories. -/
def unsafeContentPath (path : String) : Bool :=
  let parts := (Str.splitChar '/' path.toList).filter fun part => part ≠ [] && part ≠ ['.']
  Str.startsWith path "/" || parts.contains "..".toList ||
    !parts.head?.any fun part => part = "records".toList || part = "events".toList

/-- The journal of a transaction, when it has the members it must have. -/
def journalValue (store : StoreDir) (name : String) : Py Fields := do
  let raw ← readTransactionFile store name "journal.json"
  raiseIf (maxTransactionBytes < raw.byteSize)
    (.storeError ("transaction journal exceeds bounded read limit: " ++ name))
  let value ← match loads raw with
    | none => .error (.valueError "invalid JSON")
    | some (.obj value) => .ok value
    | some _ => .error (.storeError ("unsupported transaction journal: " ++ name))
  raiseIf (!(Fields.get value "version").pyEq (.int transactionVersion))
    (.storeError ("unsupported transaction journal: " ++ name))
  raiseIf (!(["entryType", "contentDigest", "contentPath", "content", "ledgerRow"].all
      fun key => Fields.has value key))
    (.storeError ("incomplete transaction journal: " ++ name))
  return value

/-- The payload and the row of a journal, which must be objects. -/
def journalObjects (value : Fields) (name : String) (content : Text) : Py (Fields × Fields) :=
  match loads content with
  | none => .error (.valueError "invalid JSON")
  | some payload => match payload.obj?, (Fields.get value "ledgerRow").obj? with
      | some payload, some row => .ok (payload, row)
      | _, _ => .error (.storeError ("invalid transaction payload: " ++ name))

/-- The path, the digests and the row of a journal must agree with its content. -/
def checkJournal (value : Fields) (name : String) (content : Text) (payload row : Fields) :
    Py ContentType := do
  let type ← journalType value name
  let digest := Fields.get value "contentDigest"
  raiseIf (unsafeContentPath (Fields.get value "contentPath").pyStr)
    (.storeError ("unsafe transaction content path: " ++ name))
  raiseIf ((Fields.get value "contentPath").pyStr ≠ contentPath type digest.pyStr)
    (.storeError ("transaction content path mismatch: " ++ name))
  raiseIf (canonicalJson (.obj payload) ≠ content ||
      !(Fields.get payload "contentDigest").pyEq digest)
    (.storeError ("transaction content identity mismatch: " ++ name))
  raiseIf (digest ≠ .str (canonicalDigest payload))
    (.storeError ("transaction content digest mismatch: " ++ name))
  raiseIf (Fields.get value "ledgerRowBytesDigest" ≠ .str (canonicalDigestOfAll row))
    (.storeError ("transaction ledger identity mismatch: " ++ name))
  raiseIf (!(Fields.get row "entryType").pyEq (.str type.value) ||
      !(Fields.get row "payload").pyEq (.obj payload))
    (.storeError ("transaction ledger payload mismatch: " ++ name))
  return type

/-- A journal that agrees with itself. -/
structure Journal where
  /-- The members. -/
  value : Fields
  /-- The row to append. -/
  row : Fields
  /-- The text of the content file. -/
  content : Text

/-- The content path of a journal. -/
def Journal.path (journal : Journal) : String := (Fields.get journal.value "contentPath").pyStr

/-- `_verify_journal`. -/
def verifyJournal (store : StoreDir) (name : String) : Py Journal := do
  let value ← journalValue store name
  let content ← journalContent value
  let (payload, row) ← journalObjects value name content
  let _ ← checkJournal value name content payload row
  return ⟨value, row, content⟩

/-- Finish a transaction whose row is not in the ledger. -/
def redo (name : String) (journal : Journal) (read : List Fields) : StoreM Unit := do
  let store ← Program.get
  Program.lift (raiseIf
    (!(lastDigest .null read).pyEq (Fields.get journal.value "previousEntryDigest") ||
      !(Fields.get journal.row "sequence").pyEq (.int (read.length + 1)))
    (.storeError ("transaction cannot be safely recovered: " ++ name)))
  match store.readPath journal.path with
  | some text =>
      Program.lift (raiseIf (text ≠ journal.content)
        (.storeError ("transaction content collision: " ++ name)))
  | none => Program.step fun store => store.writePath journal.path journal.content
  appendRow journal.row
  writeTail journal.row

/-- The row of a transaction is in the ledger, or is put there. -/
def settle (name : String) (journal : Journal) (read : List Fields) : StoreM Unit :=
  match read.find? fun item =>
      (Fields.get item "entryDigest").pyEq (Fields.get journal.row "entryDigest") with
  | some committed =>
      Program.lift (raiseIf (!(Json.obj committed).pyEq (.obj journal.row))
        (.storeError ("transaction conflicts with committed ledger: " ++ name)))
  | none => redo name journal read

/-- `_recover_one_locked`. -/
def recoverOne (host : Host) (name : String) : StoreM Unit := do
  let store ← Program.get
  let journal ← Program.lift (verifyJournal store name)
  let read ← Program.lift (rows store)
  settle name journal read
  let store ← Program.get
  Program.lift (raiseIf (store.readPath journal.path ≠ some journal.content)
    (.storeError ("transaction content is not committed: " ++ name)))
  removeTransaction host name

/-- The exceptions that `recover` turns into a diagnostic. -/
def isRecoveryFailure : PyError → Bool
  | .osError _ | .storeError _ => true
  | error => error.isValueError

/-- Recover the transactions in order; the diagnostic of the first failure. -/
def recoverAll (host : Host) : List String → StoreM (List Diagnostic)
  | [] => return []
  | name :: names => fun store =>
      match (recoverOne host name store).result with
      | .ok () => (recoverOne host name store).andThen fun _ => recoverAll host names
      | .error error =>
          if isRecoveryFailure error then
            ⟨(recoverOne host name store).trace, (recoverOne host name store).final,
              .ok [⟨"RECOVERY_FAILED", name, error.message⟩]⟩
          else
            ⟨(recoverOne host name store).trace, (recoverOne host name store).final, .error error⟩

/-- `recover`: the diagnostics, of the failed recovery or of the verification. -/
def recover (host : Host) : StoreM (List Diagnostic) := do
  let store ← Program.get
  Program.lift (requireInitialized store)
  let failures ← recoverAll host (pendingTransactions store)
  if failures ≠ [] then return failures
  else do
    let store ← Program.get
    Program.lift (verify store)

end MncsCommons.Store
