/-
# Mesh nodes

A node keeps a store and a state file, which marks where each record was learned.  It
publishes its own records, and it takes in foreign ones as possession only: a record that
passes the exchange checks and is not held yet is added to the store and marked with its
source.
-/

import MncsCommons.Family.Deltas
import MncsCommons.Mesh.Membership
import MncsCommons.Store.Records

namespace MncsCommons.Mesh

open MncsCommons.Data MncsCommons.Protocol MncsCommons.Store MncsCommons.Exec

/-! ## The exchange checks -/

/-- `ExchangeError`, or another exception. -/
inductive ExchangeError where
  | exchange (code message : String)
  | raised (error : PyError)
  deriving DecidableEq

/-- What a node raises for it. -/
def ExchangeError.asMesh : ExchangeError → MeshError
  | .exchange code message => .mesh code message
  | .raised error => .raised error

/-- The limits of an `ExchangePolicy`, and whether it is a public one. -/
structure ExchangePolicy where
  isPublic : Bool
  maxRecordBytes : Int
  maxRelationships : Int
  maxEvidence : Int

/-- A computation of the records, as the exchange sees it. -/
def ofPy {α : Type} (computation : Py α) : Except ExchangeError α :=
  computation.mapError .raised

/-- Raise when the condition holds. -/
def exchangeIf (condition : Bool) (code message : String) : Except ExchangeError Unit :=
  if condition then .error (.exchange code message) else .ok ()

/-- What the public profile asks. -/
def checkPublic (value : Fields) : Except ExchangeError Unit := do
  let security := (Fields.get? value "security").getD (.obj [])
  let sensitivity ← ofPy (getAttr security "sensitivity" .null)
  exchangeIf (sensitivity ≠ .str "public") "PUBLIC_POLICY_REJECTED"
    "public profile accepts public records only"
  let attachments ← ofPy (getAttr security "executableAttachments" .null)
  exchangeIf (attachments ≠ .bool false) "PUBLIC_POLICY_REJECTED"
    "public profile rejects executable attachments"
  let untrusted ← ofPy (getAttr security "instructionsAreUntrusted" .null)
  exchangeIf (untrusted ≠ .bool true) "PUBLIC_POLICY_REJECTED"
    "untrusted instruction marker is required"

/-- The size of a record as it is sent. -/
def encodedBytes (value : Fields) : Nat := Text.byteSize (canonicalJson (.obj value))

/-- `validate_for_exchange`. -/
def validateForExchange (policy : ExchangePolicy) (value : Fields) : Except ExchangeError Unit := do
  exchangeIf (policy.maxRecordBytes < encodedBytes value) "RECORD_TOO_LARGE"
    "record exceeds the exchange record-size limit"
  let known ← ofPy (inSet (Fields.get value "kind") (RecordKind.all.map RecordKind.value))
  exchangeIf (!known) "UNSUPPORTED_RECORD_VERSION" "only Commons records can be published"
  let diagnostics ← ofPy (validateRecord value)
  exchangeIf (diagnostics ≠ [])
    (if diagnostics.any (·.code = "DIGEST_MISMATCH") then "SEMANTIC_RECORD_ERROR"
      else "INVALID_RECORD")
    "record failed Commons validation"
  let relationships ← ofPy (Family.pyLen ((Fields.get? value "relationships").getD (.arr [])))
  exchangeIf (policy.maxRelationships < relationships) "RECORD_TOO_LARGE"
    "record has too many relationships"
  let evidence ← ofPy (Family.pyLen ((Fields.get? value "evidence").getD (.arr [])))
  exchangeIf (policy.maxEvidence < evidence) "RECORD_TOO_LARGE"
    "record has too many evidence references"
  if policy.isPublic then checkPublic value else return ()

/-! ## Nodes -/

def maxNodeIdLength : Nat := 256

def maxPeers : Nat := 256

def maxSyncRecords : Int := 1000

/-- `MeshPolicy`, without the limits of the evidence blobs and the budgets. -/
structure MeshPolicy where
  maxRecordBytes : Int
  maxSyncRecords : Int
  maxRelationships : Int
  maxEvidence : Int

/-- The policy that a node checks records with. -/
def MeshPolicy.exchange (policy : MeshPolicy) : ExchangePolicy :=
  ⟨false, policy.maxRecordBytes, policy.maxRelationships, policy.maxEvidence⟩

/-- `CommonsNode`: what does not change. -/
structure CommonsNode where
  nodeId : String
  domain : String
  policy : MeshPolicy

/-- The directory of a node: its store and the text of `mesh-state.json`. -/
structure NodeDir where
  store : StoreDir
  meshState : Option Text

/-- What a node asks of the host: the store's calls, the text of an exception for a state
file that does not read, and the record that the archives of the store have for a digest. -/
structure MeshHost where
  host : Host
  unreadable : Option Text → String
  archived : String → Option Fields

/-- A program over the directory of a node. -/
abbrev NodeM := Program NodeDir MeshError

/-- A call of the store. -/
def onStore {α : Type} (program : StoreM α) : NodeM α := fun dir =>
  let run := program dir.store
  ⟨run.trace.map fun store => { dir with store }, { dir with store := run.final },
    run.result.mapError .raised⟩

/-- `_bounded_id` of a text. -/
def boundedId (value name : String) (maximum : Nat) : MeshPy String :=
  if Str.isBlank value || maximum < value.length then
    .error (.mesh "INVALID_NODE" (name ++ " must be a bounded non-empty string"))
  else .ok value

section Node

variable (mesh : MeshHost) (node : CommonsNode)

/-! ## The state file -/

/-- `_read_state`. -/
def readState (dir : NodeDir) : MeshPy Fields :=
  match dir.meshState.bind loads with
  | some (.obj state) => .ok state
  | some _ => .error (.mesh "MESH_STATE_INVALID" "mesh state must be an object")
  | none => .error (.mesh "MESH_STATE_UNREADABLE"
      ("mesh state is unreadable: " ++ mesh.unreadable dir.meshState))

/-- `_write_state`. -/
def writeState (state : Fields) : NodeM Unit :=
  Program.step fun dir => { dir with meshState := some (dumps (.obj state)) }

/-- The marks of a state. -/
def originsOf (state : Fields) : Fields := (Fields.get state "origins").obj?.getD []

/-- `_mark_origin`. -/
def markOrigin (digest origin : String) : NodeM Unit := do
  let state ← Program.lift (readState mesh (← Program.get))
  writeState (Fields.set state "origins" (.obj (Fields.set (originsOf state) digest (.str origin))))

/-- `origin_of`. -/
def originOf (dir : NodeDir) (digest : String) : MeshPy (Option String) := do
  return (Fields.get (originsOf (← readState mesh dir)) digest).str?

/-- `init` of a node. -/
def initNode (node : CommonsNode) : NodeM Unit := do
  onStore Store.init
  if (← Program.get).meshState.isNone then
    writeState [("nodeId", .str node.nodeId), ("peers", .obj []), ("origins", .obj [])]

/-- What `init` leaves in an empty directory. -/
def freshNode (node : CommonsNode) : NodeDir :=
  (initNode node ⟨⟨none, none, none, none, none⟩, none⟩).final

/-! ## Possession -/

/-- `store.get`. -/
def getRecord (store : StoreDir) (digest : String) : Py (Option Fields) := do
  let read ← rows store
  let held := (payloadsFromRows read "record" ++ payloadsFromRows read "event").find? fun item =>
    Fields.get item "contentDigest" = .str digest
  return held.or (mesh.archived digest)

/-- What a node answers to a record. -/
structure PossessionReceipt where
  origin : String
  contentDigest : String
  duplicate : Bool
  domain : String

def originLocal : String := "local"

/-- The exchange checks of a node. -/
def checkExchange (record : Mapping) : NodeM Unit :=
  Program.lift ((validateForExchange node.policy.exchange record.fields).mapError
    ExchangeError.asMesh)

/-- A record is added and marked; its digest. -/
def addMarked (record : Mapping) (origin : String) : NodeM String := do
  let stored ← onStore (addRecord mesh.host record)
  markOrigin mesh stored.2 origin
  return stored.2

/-- `publish_local`. -/
def publishLocal (record : Mapping) : NodeM PossessionReceipt := do
  checkExchange node record
  let digest ← addMarked mesh record originLocal
  return ⟨originLocal, digest, false, node.domain⟩

/-- `ingest_foreign`. -/
def ingestForeign (record : Mapping) (source : String) : NodeM PossessionReceipt := do
  let source ← Program.lift (boundedId source "source" maxNodeIdLength)
  let origin := "foreign:" ++ source
  checkExchange node record
  let digest := canonicalDigest record.fields
  let dir ← Program.get
  match ← Program.lift ((getRecord mesh dir.store digest).mapError .raised) with
  | some _ => return ⟨origin, digest, true, node.domain⟩
  | none => return ⟨origin, ← addMarked mesh record origin, false, node.domain⟩

/-- `note_peer_frontier`. -/
def notePeerFrontier (peerId : String) (frontier : List String) (notedAt : String) :
    NodeM Unit := do
  let peer ← Program.lift (boundedId peerId "peerId" maxNodeIdLength)
  let state ← Program.lift (readState mesh (← Program.get))
  let peers := (Fields.get state "peers").obj?.getD []
  if maxPeers ≤ peers.length && !Fields.has peers peer then
    Program.raise (.mesh "TOO_MANY_PEERS" "peer table is at its bound")
  else
    let noted := ((sortedBy id frontier.eraseDups).take 10000).map Json.str
    writeState (Fields.set state "peers" (.obj (Fields.set peers peer
      (.obj [("frontier", .arr noted), ("notedAt", .str notedAt)]))))

/-! ## Receiving -/

/-- A value that a peer offers: a mapping, or one that is none. -/
inductive Offered where
  | mapping (record : Mapping)
  | other

/-- `items[:bound]`. -/
def upTo {α : Type} (bound : Int) (items : List α) : List α :=
  items.take (if 0 ≤ bound then bound.toNat else items.length - (-bound).toNat)

/-- The counts of a batch. -/
structure SyncTally where
  received : Nat
  duplicates : Nat
  skippedByInterest : Nat
  skippedByPolicy : Nat
  bytesReceived : Nat
  diagnostics : List String

namespace SyncTally

def empty : SyncTally := ⟨0, 0, 0, 0, 0, []⟩

def skipPolicy (tally : SyncTally) (code : String) : SyncTally :=
  { tally with
    skippedByPolicy := tally.skippedByPolicy + 1
    diagnostics := tally.diagnostics ++ [code] }

def skipInterest (tally : SyncTally) : SyncTally :=
  { tally with skippedByInterest := tally.skippedByInterest + 1 }

/-- One more record that is held. -/
def hold (tally : SyncTally) (duplicate : Bool) (bytes : Nat) : SyncTally :=
  let counted := { tally with bytesReceived := tally.bytesReceived + bytes }
  if duplicate then { counted with duplicates := tally.duplicates + 1 }
  else { counted with received := tally.received + 1 }

end SyncTally

/-- `SyncReport`. -/
structure SyncReport where
  peer : String
  offered : Nat
  received : Nat
  sent : Nat
  duplicates : Nat
  skippedByInterest : Nat
  skippedByPolicy : Nat
  bytesReceived : Nat
  bytesSent : Nat
  diagnostics : List String

/-- What the kernel is asked about an offered value: one that is no mapping occupies a
slot of the batch. -/
def Offered.decision (interest : InterestFilter) : Offered → MembershipDecision
  | .mapping record => ⟨record.fields, interest, none⟩
  | .other => ⟨[], interest, none⟩

/-- The gate of a batch: whether the record at an index is wanted. -/
def interestGate (executor : Bool) (interest : Option InterestFilter) (offered : List Offered) :
    MeshPy (Nat → Fields → Bool) :=
  match interest with
  | none => .ok fun _ _ => true
  | some interest =>
      if executor then
        match decideMembership (offered.map (Offered.decision interest)) with
        | some verdicts => .ok fun index _ => verdicts[index]?.getD false
        | none => .error (.executor "unsupported corpus argument type")
      else .ok fun _ record => recordMatches record interest none

/-- A mesh error skips the value; another one ends the batch. -/
def skipRaised (tally : SyncTally) : MeshError → NodeM SyncTally
  | .mesh code _ => return tally.skipPolicy code
  | error => Program.raise error

/-- One offered value of a batch. -/
def receiveOne (source : String) (gate : Nat → Fields → Bool) (index : Nat) (offered : Offered)
    (tally : SyncTally) : NodeM SyncTally :=
  match offered with
  | .other => return tally.skipPolicy "NON_RECORD_SKIPPED"
  | .mapping record =>
      if node.policy.maxRecordBytes < encodedBytes record.fields then
        return tally.skipPolicy "OVERSIZE_RECORD_SKIPPED"
      else if !gate index record.fields then return tally.skipInterest
      else Program.handle
        (do
          let receipt ← ingestForeign mesh node record source
          return tally.hold receipt.duplicate (encodedBytes record.fields))
        (skipRaised tally)

/-- The loop over a batch. -/
def receiveAll (source : String) (gate : Nat → Fields → Bool) :
    Nat → List Offered → SyncTally → NodeM SyncTally
  | _, [], tally => return tally
  | index, offered :: rest, tally => do
      receiveAll source gate (index + 1) rest
        (← receiveOne mesh node source gate index offered tally)

/-- `receive_records`. -/
def receiveRecords (offered : List Offered) (source : String) (interest : Option InterestFilter)
    (executor : Bool) : NodeM SyncReport := do
  let gate ← Program.lift (interestGate executor interest offered)
  let tally ← receiveAll mesh node source gate 0 (upTo node.policy.maxSyncRecords offered) .empty
  return ⟨source, offered.length, tally.received, 0, tally.duplicates, tally.skippedByInterest,
    tally.skippedByPolicy, tally.bytesReceived, 0, tally.diagnostics.take 32⟩

end Node

end MncsCommons.Mesh
