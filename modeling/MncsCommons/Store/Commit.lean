/-
# Writing to the store

An accepted record or event is written through a journalled transaction: a
transaction directory with the journal and the content, then the content file,
the ledger row, the tail cache, and the removal of the directory.  Each of these
is one atomic step of the program, so its trace is the list of states a crash can
leave.  A snapshot has no content file and no journal.

The writer lock makes each call atomic with respect to the others; it is not
part of the state.
-/

import MncsCommons.Store.Ledger
import MncsCommons.Protocol.Lifecycle
import MncsCommons.Protocol.Semantic

namespace MncsCommons.Store

open MncsCommons.Data MncsCommons.Protocol MncsCommons.Exec

/-- A mapping that a caller passes: no key occurs twice in it. -/
structure Mapping where
  fields : Fields
  wf : (Json.obj fields).wf = true

/-! ## Files -/

/-- Create the directories and the empty ledger that are missing. -/
def init : StoreM Unit := do
  Program.step fun store => { store with records := some (store.records.getD []) }
  Program.step fun store => { store with events := some (store.events.getD []) }
  Program.step fun store => { store with transactions := some (store.transactions.getD []) }
  Program.step fun store => { store with ledger := some (store.ledger.getD []) }
  Program.step fun store =>
    { store with tail := some (store.tail.getD (tailText (.int 0) .null 0)) }

/-- The pending transactions, by name. -/
def pendingTransactions (store : StoreDir) : List String :=
  sortedBy id (Fields.keys (store.transactions.getD []))

/-- `_require_no_pending`. -/
def requireNoPending (store : StoreDir) : Py Unit :=
  raiseIf (pendingTransactions store ≠ [])
    (.storeError "pending transaction requires explicit store recover")

/-- The files of a transaction. -/
def StoreDir.transaction (store : StoreDir) (name : String) : Option Dir :=
  store.transactions.bind fun transactions => Fields.get? transactions name

/-- Replace the files of a transaction. -/
def StoreDir.setTransaction (store : StoreDir) (name : String) (files : Dir) : StoreDir :=
  { store with transactions := store.transactions.map fun transactions =>
      Fields.set transactions name files }

/-- Remove an empty transaction directory. -/
def StoreDir.dropTransaction (store : StoreDir) (name : String) : StoreDir :=
  { store with transactions := store.transactions.map fun transactions =>
      Fields.erase transactions name }

/-- Write one file of a transaction. -/
def writeTransactionFile (name file : String) (text : Text) : StoreM Unit :=
  Program.step fun store =>
    store.setTransaction name (Fields.set ((store.transaction name).getD []) file text)

/-- `shutil.rmtree` of a transaction directory: the files in the order they are
listed, then the directory. -/
def removeTransaction (host : Host) (name : String) : StoreM Unit := do
  let store ← Program.get
  Program.forEach (host.listing (Fields.keys ((store.transaction name).getD []))) fun file =>
    Program.step fun store =>
      store.setTransaction name (Fields.erase ((store.transaction name).getD []) file)
  Program.step fun store => store.dropTransaction name

/-- `_append_row`. -/
def appendRow (row : Fields) : StoreM Unit :=
  Program.step fun store => store.appendLedger (rowLine row)

/-- Replace the tail cache by the position of a row just appended. -/
def writeTail (row : Fields) : StoreM Unit :=
  Program.step fun store =>
    { store with
      tail := some (tailText (Fields.get row "sequence") (Fields.get row "entryDigest")
        store.ledgerBytes) }

/-! ## Transactions -/

/-- The journal of a transaction. -/
def journalOf (type : ContentType) (payload row : Fields) (tail : LedgerTail)
    (ledgerBytes : Nat) : Fields :=
  [("version", .int transactionVersion), ("entryType", .str type.value),
    ("contentDigest", Fields.get payload "contentDigest"),
    ("contentPath", .str (contentPath type (Fields.get payload "contentDigest").pyStr)),
    ("content", .str (String.ofList (canonicalJson (.obj payload)))),
    ("ledgerRow", .obj row),
    ("ledgerRowBytesDigest", .str (canonicalDigestOfAll row)),
    ("previousEntryDigest", tail.entryDigest),
    ("sequence", .int (tail.sequence + 1)),
    ("ledgerBytesAfter", .int (ledgerBytes + (rowLine row).byteSize : Nat))]

/-- `_stage_transaction`: the directory, the journal and the content. -/
def stageTransaction (host : Host) (type : ContentType) (payload row : Fields)
    (tail : LedgerTail) : StoreM String := do
  let store ← Program.get
  let name := host.freshName (Fields.keys (store.transactions.getD []))
  Program.step fun store => store.setTransaction name []
  let journal := canonicalJson (.obj (journalOf type payload row tail store.ledgerBytes))
  if maxTransactionBytes < journal.byteSize then do
    removeTransaction host name
    Program.raise (.storeError "transaction exceeds bounded journal size")
  else do
    writeTransactionFile name "journal.json" journal
    writeTransactionFile name "content.json" (canonicalJson (.obj payload))
    return name

/-- A file of a transaction that must be there. -/
def readTransactionFile (store : StoreDir) (name file : String) : Py Text :=
  match (store.transaction name).bind fun files => Fields.get? files file with
  | some text => .ok text
  | none => .error (.osError ("No such file or directory: " ++ file))

/-- The text of a file as a JSON object. -/
def loadsObject (text : Text) : Py Fields :=
  match loads text with
  | some (.obj fields) => .ok fields
  | some value => .error (.typeError (typeName value ++ " is not an object"))
  | none => .error (.valueError "invalid JSON")

/-- `_finish_transaction`: the content file, the row, the tail, the removal. -/
def finishTransaction (host : Host) (name : String) (row : Fields) : StoreM Unit := do
  let store ← Program.get
  let journal ← Program.lift (readTransactionFile store name "journal.json" >>= loadsObject)
  let content ← Program.lift (readTransactionFile store name "content.json")
  let path := (Fields.get journal "contentPath").pyStr
  match store.readPath path with
  | some text =>
      Program.lift (raiseIf (text ≠ content)
        (.storeError ("content path collision for " ++ (Fields.get journal "contentDigest").pyStr)))
  | none => Program.step fun store => store.writePath path content
  appendRow row
  writeTail row
  removeTransaction host name

/-- `_commit`. -/
def commit (host : Host) (type : ContentType) (payload : Fields) : StoreM Unit := do
  let tail ← loadTail
  let row := makeLedgerRow type.value payload tail
  let name ← stageTransaction host type payload row tail
  finishTransaction host name row

/-! ## Calls -/

/-- A value after a round trip through its canonical text. -/
def readBack (value : Fields) : Fields :=
  ((loads (canonicalJson (.obj value))).bind Json.obj?).getD []

/-- `_with_digest`. -/
def withDigest (value : Fields) : Fields :=
  let result := readBack value
  readBack (Fields.set result "contentDigest" (.str (canonicalDigest result)))

/-- The envelope a call works on: the value, with its digest if it has none. -/
def candidateOf (value : Mapping) : Fields :=
  if Fields.has value.fields "contentDigest" then value.fields else withDigest value.fields

/-- Whether a row holds an entry of the type with the digest. -/
def holdsEntry (type : ContentType) (digest : String) (row : Fields) : Py Bool := do
  if (Fields.get row "entryType").str? = some type.value then
    let payload := (Fields.get? row "payload").getD (.obj [])
    return (← getAttr payload "contentDigest" .null).str? = some digest
  else return false

/-- `any(...)` over the rows, in order. -/
def anyRow (test : Fields → Py Bool) : List Fields → Py Bool
  | [] => .ok false
  | row :: read => do
      if ← test row then return true
      else anyRow test read

/-- Raise when there are diagnostics. -/
def rejectIf (text : String) (diagnostics : List Diagnostic) : Py Unit :=
  raiseIf (diagnostics ≠ [])
    (.storeError (text ++ Str.join "; " (diagnostics.map Diagnostic.message)))

/-- The checks of `add_record`; whether the record is already stored. -/
def admitRecord (store : StoreDir) (candidate : Fields) : Py Bool := do
  requireInitialized store
  requireNoPending store
  rejectIf "record rejected: " (← validateRecord candidate)
  let digest := (Fields.get candidate "contentDigest").pyStr
  raiseIf ((store.readContent .record digest).any (· ≠ canonicalJson (.obj candidate)))
    (.storeError ("record path collision for " ++ digest))
  let read ← rows store
  rejectIf "record rejected: "
    (← recordSemanticDiagnostics candidate (payloadsFromRows read "record"))
  anyRow (holdsEntry .record digest) read

/-- The state that an event must start from. -/
def currentState (read : List Fields) (target candidate : Fields) : Py String := do
  let view ← deriveLifecycle target (payloadsFromRows read "event")
    (some (authorityDomain candidate))
  return view.transitionState

/-- The stored record an event targets. -/
def findTarget (read : List Fields) (digest : String) : Option Fields :=
  (payloadsFromRows read "record").find? fun item =>
    (Fields.get item "contentDigest").str? = some digest

/-- `str(candidate["target"]["contentDigest"])` of a valid event. -/
def eventTarget (candidate : Fields) : String :=
  (Fields.get ((Fields.get candidate "target").obj?.getD []) "contentDigest").pyStr

/-- `str(candidate["transition"]["to"])` of a valid event. -/
def eventTo (candidate : Fields) : String :=
  (Fields.get ((Fields.get candidate "transition").obj?.getD []) "to").pyStr

/-- The checks of an event whose digest is new. -/
def admitTransition (read : List Fields) (candidate : Fields) : Py Unit := do
  match findTarget read (eventTarget candidate) with
  | none => .error (.storeError "lifecycle event target is not present locally")
  | some target =>
      let current ← currentState read target candidate
      rejectIf "event transition rejected: "
        (validateTransition current (eventTo candidate) candidate)

/-- The checks of `add_event`; whether the event is already stored. -/
def admitEvent (store : StoreDir) (candidate : Fields) : Py Bool := do
  requireInitialized store
  requireNoPending store
  rejectIf "event rejected: " (← validateEvent candidate)
  let read ← rows store
  let stored ← anyRow (holdsEntry .event (Fields.get candidate "contentDigest").pyStr) read
  if stored then return true
  else do
    admitTransition read candidate
    return false

/-- The checks of a call. -/
def admission : ContentType → StoreDir → Fields → Py Bool
  | .record => admitRecord
  | .event => admitEvent

/-- `add_record` and `add_event`: check, and commit what is not stored yet.  The
result is the entry with its digest. -/
def add (host : Host) (type : ContentType) (value : Mapping) : StoreM (Fields × String) := do
  let store ← Program.get
  let candidate := candidateOf value
  let digest := (Fields.get candidate "contentDigest").pyStr
  let stored ← Program.lift (admission type store candidate)
  if stored then return (candidate, digest)
  else do
    commit host type candidate
    return (candidate, digest)

/-- `add_record`. -/
def addRecord (host : Host) : Mapping → StoreM (Fields × String) := add host .record

/-- `add_event`. -/
def addEvent (host : Host) : Mapping → StoreM (Fields × String) := add host .event

/-- `add_snapshot`; the row. -/
def addSnapshot (payload : Mapping) : StoreM Fields := do
  let store ← Program.get
  Program.lift (requireInitialized store)
  Program.lift (requireNoPending store)
  let tail ← loadTail
  let row := makeLedgerRow "snapshot" payload.fields tail
  appendRow row
  writeTail row
  return row

end MncsCommons.Store
