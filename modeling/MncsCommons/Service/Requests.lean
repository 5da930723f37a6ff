/-
# Requests to the local service

How the local service admits a request: the form of the request, its deadline
against the clock, and the memory of the request ids it has recorded, of which
it keeps the last `recentLimit`.  An admitted request is dispatched; what the
operations do to the store is `dispatch`, a parameter.

A request whose id is in the memory is not dispatched, so an id is dispatched
again only after `recentLimit` further ids were recorded
(`served_once_within_memory`).
-/

import MncsCommons.Data.BoundedMemory
import MncsCommons.Data.DateTime
import MncsCommons.Protocol.Canonical

namespace MncsCommons.Service

open MncsCommons.Data MncsCommons.Protocol

/-! ## Requests -/

def serviceRequest : String := "commons.mncs.dev/local-service-request/v0alpha1"

def serviceResponse : String := "commons.mncs.dev/local-service-response/v0alpha1"

def maxArgumentsBytes : Nat := 768 * 1024

def maxText : Nat := 4096

/-- `REQUEST_TTL_SECONDS`, in microseconds. -/
def requestTtl : Int := 30 * DateTime.microsPerSecond

/-- `CONSUMER_OPERATIONS`. -/
def consumerOperations : List String :=
  ["service.status", "service.doctor", "service.descriptor", "commons.describe",
    "commons.validate", "commons.get", "commons.query", "commons.sync", "commons.conversation",
    "commons.experiment", "commons.work", "commons.evidence", "work.status", "work.list",
    "work.next", "work.policy", "work.scope-check", "family.registry", "family.graph",
    "family.coverage", "family.consistency", "store.retention"]

/-- `OPERATOR_OPERATIONS`. -/
def operatorOperations : List String :=
  ["commons.publish", "store.recover", "store.compact", "store.pin", "store.unpin", "work.submit",
    "work.propose", "work.transition", "work.claim", "family.health-sweep"]

/-- What handling a request raises or catches. -/
inductive Fault where
  /-- A `CommonsServiceError`. -/
  | service (code message : String)
  /-- A `WorkProtocolError`. -/
  | work (code message : String)
  /-- One of the other exceptions that are answered with `REQUEST_REJECTED`. -/
  | rejected (message : String)
  /-- An exception that is not caught. -/
  | uncaught (message : String)
  deriving DecidableEq

/-- `_timestamp`: an instant with an offset, in microseconds of UTC. -/
def timestamp (value : Json) (field : String) : Except Fault Int :=
  match value with
  | .str text =>
      if text.length > 64 then .error (.service "PROTOCOL_INVALID" (field ++ " is invalid"))
      else match DateTime.fromIsoFormat (Str.replaceChar text 'Z' "+00:00").toList with
        | none => .error (.service "PROTOCOL_INVALID" (field ++ " is invalid"))
        | some parsed => match parsed.offset with
            | none => .error (.service "PROTOCOL_INVALID" (field ++ " requires a timezone"))
            | some _ => match parsed.toUtc with
                | some instant => .ok instant
                | none => .error (.uncaught "date value out of range")
  | _ => .error (.service "PROTOCOL_INVALID" (field ++ " is invalid"))

/-- A character of a request id. -/
def isIdChar (c : Char) : Bool := c.isAlphanum || ['.', '_', ':', '-'].contains c

/-- `[A-Za-z0-9][A-Za-z0-9._:-]{0,127}`. -/
def isRequestId (text : Text) : Bool :=
  (text.head?.any Char.isAlphanum) && decide (text.length ≤ 128) && text.all isIdChar

/-- Raise the error where the condition fails. -/
def require (condition : Bool) (code message : String) : Except Fault Unit :=
  if condition then .ok () else .error (.service code message)

def requestMembers : List String :=
  ["schemaVersion", "requestId", "operation", "arguments", "createdAt", "expiresAt"]

/-- `_validate_request`. -/
def validateRequest (request : Fields) : Except Fault Unit := do
  require ((Fields.keys request).all requestMembers.contains &&
      requestMembers.all (Fields.keys request).contains &&
      Fields.get request "schemaVersion" = .str serviceRequest)
    "PROTOCOL_UNSUPPORTED" "request schema is unsupported"
  require ((Fields.get request "requestId").str?.any fun id => isRequestId id.toList)
    "PROTOCOL_INVALID" "request identity is invalid"
  require ((Fields.get request "operation").str?.any
      (consumerOperations ++ operatorOperations).contains)
    "OPERATION_UNSUPPORTED" "operation is unsupported"
  require ((Fields.get request "arguments").obj?.any fun arguments => decide (arguments.length ≤ 32))
    "PROTOCOL_INVALID" "arguments must be a bounded object"
  require (decide ((canonicalJson (Fields.get request "arguments")).byteSize ≤ maxArgumentsBytes))
    "REQUEST_LIMIT_EXCEEDED" "arguments exceed their bound"
  let created ← timestamp (Fields.get request "createdAt") "createdAt"
  let expires ← timestamp (Fields.get request "expiresAt") "expiresAt"
  require (decide (created ≤ expires ∧ expires - created ≤ requestTtl))
    "PROTOCOL_INVALID" "request expiry is invalid"

/-- `_response`; `servedAt` is the time of the answer. -/
def response (servedAt requestId : String) (result : Fields) (error : Option (String × String)) :
    Fields :=
  [("schemaVersion", .str serviceResponse), ("requestId", .str requestId),
    ("ok", .bool error.isNone), ("result", .obj result),
    ("error", match error with
      | some (code, message) => .obj [("code", .str code), ("message", .str message)]
      | none => .null),
    ("servedAt", .str servedAt)]

/-! ## Admission -/

/-- `maxlen` of the recorded request ids. -/
def recentLimit : Nat := 4096

/-- One call of `handle`: the clock when the deadline is checked and when it is
answered, the role of the socket and the request. -/
structure Call where
  now : Int
  servedAt : String
  role : String
  request : Fields

/-- What becomes of a well-formed request. -/
inductive Admission where
  | refused (code message : String)
  | served (operation : String) (arguments : Fields)

def Call.requestId (call : Call) : String := (Fields.get call.request "requestId").pyStr

/-- The deadline of a request, which has to be well formed. -/
def readDeadline (request : Fields) : Except Fault Int := do
  validateRequest request
  timestamp (Fields.get request "expiresAt") "expiresAt"

/-- What becomes of a well-formed request, and the ids recorded then. -/
def judge (call : Call) (recent : List String) (expires : Int) : Admission × List String :=
  if expires ≤ call.now then (.refused "REQUEST_EXPIRED" "request deadline expired", recent)
  else if recent.contains call.requestId then
    (.refused "REQUEST_REPLAYED" "request was already served", recent)
  else
    let recent := remember recentLimit recent call.requestId
    let operation := (Fields.get call.request "operation").pyStr
    if ! ["consumer", "operator"].contains call.role then
      (.refused "AUTHORITY_DENIED" "service role is invalid", recent)
    else if operatorOperations.contains operation && call.role ≠ "operator" then
      (.refused "AUTHORITY_DENIED" "operation requires the operator socket", recent)
    else (.served operation ((Fields.get call.request "arguments").obj?.getD []), recent)

/-- `handle` up to the dispatch. -/
def screen (call : Call) (recent : List String) : Except Fault (Admission × List String) := do
  return judge call recent (← readDeadline call.request)

/-! ## Handling -/

section Handling

variable {σ : Type}

/-- The service: the ids it has recorded and its store. -/
structure CommonsService (σ : Type) where
  recent : List String
  store : σ

/-- The answer to what an operation returned or raised. -/
def answer (servedAt requestId : String) : Except Fault Fields → Except Fault Fields
  | .ok result => .ok (response servedAt requestId result none)
  | .error (.service code message) => .ok (response servedAt requestId [] (some (code, message)))
  | .error (.work code message) =>
      .ok (response servedAt requestId [] (some (code, String.ofList (message.toList.take maxText))))
  | .error (.rejected message) =>
      .ok (response servedAt requestId []
        (some ("REQUEST_REJECTED", String.ofList (message.toList.take maxText))))
  | .error (.uncaught message) => .error (.uncaught message)

/-- `handle`. -/
def handle (dispatch : String → Fields → σ → Except Fault Fields × σ) (call : Call)
    (service : CommonsService σ) : Except Fault Fields × CommonsService σ :=
  match screen call service.recent with
  | .error fault => (.error fault, service)
  | .ok (.refused code message, recent) =>
      (.ok (response call.servedAt call.requestId [] (some (code, message))),
        { service with recent := recent })
  | .ok (.served operation arguments, recent) =>
      let result := dispatch operation arguments service.store
      (answer call.servedAt call.requestId result.1, ⟨recent, result.2⟩)

/-- The service after a sequence of calls. -/
def handleAll (dispatch : String → Fields → σ → Except Fault Fields × σ) (calls : List Call)
    (service : CommonsService σ) : CommonsService σ :=
  calls.foldl (fun service call => (handle dispatch call service).2) service

end Handling

end MncsCommons.Service
