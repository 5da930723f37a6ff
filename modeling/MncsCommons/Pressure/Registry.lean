/-
# The pressure registry

The operations on a registry: declaring a pressure, observing and verifying it,
relating two pressures and moving one through its lifecycle.  Each starts by
writing the registry's frame.  `observe` checks everything before it writes;
`add` writes the declaration before its first observation and unlinks it when
that raises; `relate` and `transition` write the event, validate the whole
registry, and unlink the event when the registry is invalid.

A document is written with its keys in order.  `now` is the host's clock.
-/

import MncsCommons.Pressure.Validation
import MncsCommons.Pressure.Agreement
import MncsCommons.Exec.Program

namespace MncsCommons.Pressure

open MncsCommons.Data MncsCommons.Protocol MncsCommons.Exec

/-- A program on a registry. -/
abbrev Op (α : Type) := Program Registry PyError α

/-! ## Files -/

/-- The registry before anything is written. -/
def Registry.fresh : Registry := ⟨false, none, [], [], []⟩

/-- The manifest that `init` writes. -/
def packagedManifest (host : Host) : Fields :=
  Fields.sortKeys [("schema", .str repositorySchema), ("version", .str pressureVersion),
    ("repositories", .arr host.knownRepositories)]

/-- `init`. -/
def init (host : Host) : Op Unit :=
  .step fun registry =>
    { registry with complete := true, manifest := some (packagedManifest host) }

/-- Write the frame, read the documents, check the call against them, and go on
with what the check returns. -/
def checkedCall {α β : Type} (host : Host) (check : Documents → Py β) (next : β → Op α) : Op α := do
  init host
  let registry ← Program.get
  let value ← .lift (documents registry >>= check)
  next value

/-- `_write_json` in the directory of records. -/
def writeRecord (name : String) (document : Fields) : Op Unit :=
  .step fun registry =>
    { registry with
      records := Fields.set registry.records name (some (Fields.sortKeys document)) }

/-- `unlink` in the directory of records. -/
def unlinkRecord (name : String) : Op Unit :=
  .step fun registry => { registry with records := Fields.erase registry.records name }

/-- `_write_json` in the directory of observations. -/
def writeObservation (name : String) (document : Fields) : Op Unit :=
  .step fun registry =>
    { registry with
      observations := Fields.set registry.observations name (some (Fields.sortKeys document)) }

/-- `_write_json` in the directory of events. -/
def writeEvent (name : String) (document : Fields) : Op Unit :=
  .step fun registry =>
    { registry with events := Fields.set registry.events name (some (Fields.sortKeys document)) }

/-- `unlink` in the directory of events. -/
def unlinkEvent (name : String) : Op Unit :=
  .step fun registry => { registry with events := Fields.erase registry.events name }

/-! ## Observing -/

/-- The check of one entry of an observation's evidence. -/
def checkEvidenceEntry (index : Nat) (entry : Json) : Py Unit :=
  match entry with
  | .obj evidence => do
      let field := "evidence[" ++ toString index ++ "]"
      let _ ← requiredText (Fields.get evidence "id") (field ++ ".id") 240
      let known ← hasEvidenceStatus evidence
      raiseIf (!known) (.valueError (field ++ ".status must be PASS, FAIL, or UNKNOWN"))
  | _ => .error (.valueError ("evidence[" ++ toString index ++ "] must be an object"))

/-- The members of a new observation before its id. -/
def observationBody (recordId now : String) (spec : Fields) : Py Fields := do
  let repository ← requireRepository (Fields.get spec "repository") "repository"
  let observedAt := eitherMember spec "observedAt" "observed_at" (.str now)
  raiseIf (!isInstant observedAt true)
    (.valueError "observedAt must be an RFC3339 UTC instant or null")
  match member spec "reproduction" (.obj []) with
  | .obj reproduction => do
      let known ← inSet (member reproduction "status" (.str "UNKNOWN")) evidenceStatuses
      raiseIf (!known) (.valueError "reproduction.status must be PASS, FAIL, or UNKNOWN")
      let evidence ← boundedList (member spec "evidence" (.arr [])) "evidence"
      let _ ← collect (fun entry : Nat × Json => checkEvidenceEntry entry.1 entry.2)
        (evidence.mapIdx Prod.mk)
      let summary ← textOrEmpty (member spec "summary" (.str "")) "summary" 4096
      return [("schema", .str observationSchema), ("version", .str pressureVersion),
        ("kind", .str (member spec "kind" (.str "observation")).pyStr),
        ("pressureId", .str recordId), ("repository", .str repository),
        ("observedAt", observedAt),
        ("sourceRef", eitherMember spec "sourceRef" "source_ref" (.obj [])),
        ("agent", Fields.get spec "agent"), ("runId", eitherMember spec "runId" "run_id" .null),
        ("languageProfile", eitherMember spec "languageProfile" "language_profile" .null),
        ("compiler", Fields.get spec "compiler"), ("summary", .str summary),
        ("reproduction", .obj reproduction), ("evidence", .arr evidence),
        ("workaround", member spec "workaround" (.obj [])),
        ("metadata", member spec "metadata" (.obj []))]
  | _ => .error (.valueError "reproduction must be an object")

/-- A new observation with its id and digest. -/
def newObservation (recordId now : String) (spec : Fields) : Py (String × Fields) := do
  let body ← observationBody recordId now spec
  let id := (member spec "id" (.str (observationId recordId body))).pyStr
  raiseIf (!isObservationId id) (.valueError "observation id is malformed")
  return (id, withDigest (Fields.set body "id" (.str id)))

/-- The checks of `observe`, and the observation it writes. -/
def checkObserveCall (now recordId : String) (spec : Fields) (documents : Documents) :
    Py (String × Fields) := do
  raiseIf (!Fields.has documents.records recordId)
    (.valueError ("pressure not found: " ++ recordId))
  newObservation recordId now spec

/-- Write an observation unless it is there already. -/
def storeObservation (entry : String × Fields) : Op Fields := do
  let registry ← Program.get
  match Fields.get? registry.observations entry.1 with
  | some (some existing) =>
      if Json.pyEq (.obj existing) (.obj entry.2) then return entry.2
      else .raise (.valueError ("observation already exists: " ++ entry.1))
  | some none => .raise (.valueError ("cannot read " ++ entry.1 ++ ".json"))
  | none => do
      writeObservation entry.1 entry.2
      return entry.2

/-- `observe`. -/
def observe (host : Host) (now recordId : String) (spec : Fields) : Op Fields :=
  checkedCall host (checkObserveCall now recordId spec) storeObservation

/-- The specification that `verify` passes to `observe`. -/
structure Verification where
  repository : Json
  status : Json
  evidence : List Json
  workaroundRemoved : Json
  summary : Json
  sourceRef : Json
  languageProfile : Json
  compiler : Json
  observedAt : Json
  metadata : Fields

/-- `value or default`. -/
def orElse (value default : Json) : Json := if value.truthy then value else default

/-- `verify`. -/
def verify (host : Host) (now recordId : String) (call : Verification) : Op Fields := do
  let known ← .lift (inSet call.status evidenceStatuses)
  .lift (raiseIf (!known) (.valueError "verification status must be PASS, FAIL, or UNKNOWN"))
  let closed ← .lift (isClosed call.workaroundRemoved)
  .lift (raiseIf (!(closed || call.workaroundRemoved.pyEq (.bool false)))
    (.valueError "workaround_removed must be true, false, or not_needed"))
  observe host now recordId
    [("kind", .str "verification"), ("repository", call.repository),
      ("observedAt", orElse call.observedAt (.str now)),
      ("sourceRef", orElse call.sourceRef (.obj [])), ("languageProfile", call.languageProfile),
      ("compiler", call.compiler), ("summary", call.summary),
      ("reproduction", .obj [("status", call.status),
        ("instructions", .str "re-run the originating consumer reproducer")]),
      ("evidence", .arr call.evidence), ("workaround", .obj [("removed", call.workaroundRemoved)]),
      ("metadata", .obj call.metadata)]

/-! ## Declaring -/

/-- The reproducer of a specification. -/
def reproducerOf (spec : Fields) : Py Fields :=
  match Fields.get spec "reproducer" with
  | .obj reproducer => .ok reproducer
  | _ => do
      return [("signature", .str
        (← requiredText (Fields.get spec "reproducerSignature") "reproducerSignature" 4096))]

/-- A new declaration: its id and its members. -/
structure Declaration where
  id : String
  repository : String
  discoveredAt : Json
  summary : String
  signature : String
  record : Fields

/-- The repositories a declaration affects, its own among them. -/
def declaredRepositories (spec : Fields) (repository : String) : Py (List String) := do
  let listed := sortedUniqueStrings
    (← iterate (eitherMember spec "affectedRepositories" "affected_repositories" (.arr [])))
  let affected := sortedBy id (listed ++ [repository]).eraseDups
  let _ ← collect (fun item => requireRepository (.str item) "affectedRepositories") affected
  return affected

/-- The legacy ids of a declaration. -/
def declaredAliases (spec : Fields) : Py (List String) := do
  let aliases ← boundedList (eitherMember spec "legacyIds" "legacy_ids" .null) "legacyIds"
  raiseIf (!aliases.all fun item => item.str?.any isAlias)
    (.valueError "legacyIds must contain only bounded identifier strings")
  return sortedBy id ((aliases.filterMap Json.str?).eraseDups)

/-- The id of a declaration, derived unless the specification has its own. -/
def declaredId (spec : Fields) (generated : String) : Py String := do
  let recordId := (member spec "id" (.str generated)).pyStr
  raiseIf (!isPressureId recordId) (.valueError "id must match ^MNCS-[A-Z0-9]+-[A-F0-9]\x7b12\x7d$")
  raiseIf (recordId ≠ generated && !(Fields.get spec "allowCustomId").truthy)
    (.valueError
      "custom ids require allowCustomId=true; generated ids are safer under concurrency")
  return recordId

/-- The checks of `add` up to the existence of the file. -/
def declarationHead (now : String) (spec : Fields) : Py Declaration := do
  let target ← requiredText (Fields.get spec "target") "target" 4096
  raiseIf (!targets.contains target)
    (.valueError ("target must be one of " ++
      String.ofList (reprValue (.arr ((sortedBy id targets).map .str)))))
  let domain ← requiredText (Fields.get spec "domain") "domain" 4096
  let capability ← requiredText (Fields.get spec "capability") "capability" 4096
  let title ← requiredText (Fields.get spec "title") "title" 240
  let summary ← requiredText (Fields.get spec "summary") "summary" 4096
  let required ← requiredText (eitherMember spec "requiredBehavior" "required_behavior" .null)
    "requiredBehavior" 4096
  let reproducer ← reproducerOf spec
  let signature ← requiredText (Fields.get reproducer "signature") "reproducer.signature" 1000
  let severity := (member spec "severity" (.str "major")).pyStr
  raiseIf (!severities.contains severity) (.valueError ("unknown severity: " ++ severity))
  let repository ← requireRepository (eitherMember spec "discoveredBy" "discovered_by" .null)
    "discoveredBy"
  let discoveredAt := eitherMember spec "discoveredAt" "discovered_at" (.str now)
  raiseIf (!isInstant discoveredAt true)
    (.valueError "discoveredAt must be an RFC3339 UTC instant or null")
  let generated ← pressureId target domain capability signature
  let recordId ← declaredId spec generated
  let members : Fields :=
    [("schema", .str pressureSchema), ("version", .str pressureVersion), ("id", .str recordId),
      ("identity", .obj [("target", .str target), ("domain", .str domain),
        ("capability", .str capability), ("reproducerSignature", .str signature)]),
      ("title", .str title), ("target", .str target), ("domain", .str domain),
      ("capability", .str capability), ("severity", .str severity),
      ("initialStatus", .str "discovered"), ("discoveredBy", .str repository),
      ("discoveredAt", discoveredAt), ("summary", .str summary),
      ("requiredBehavior", .str required), ("reproducer", .obj reproducer),
      ("sourceRef", eitherMember spec "sourceRef" "source_ref" (.obj [])),
      ("languageProfile", eitherMember spec "languageProfile" "language_profile" .null),
      ("signals", member spec "signals" (.obj [])), ("notes", Fields.get spec "notes")]
  let custom := if recordId ≠ generated then
    Fields.set members "allowCustomId" (.bool true) else members
  let record := match Fields.get? spec "legacy" with
    | some legacy => Fields.set custom "legacy" legacy
    | none => custom
  return ⟨recordId, repository, discoveredAt, summary, signature, record⟩

/-- A declaration with its repositories and aliases. -/
def completeRecord (members : Fields) (repository : String) (spec : Fields) : Py Fields := do
  let aliases ← declaredAliases spec
  let affected ← declaredRepositories spec repository
  return Fields.set (Fields.set members "affectedRepositories" (.arr (affected.map .str)))
    "legacyIds" (.arr (aliases.map .str))

/-- The checks of `add`, and the declaration it writes. -/
def checkAddCall (now : String) (spec : Fields) (records : Directory) : Py Declaration := do
  let head ← declarationHead now spec
  raiseIf (Fields.has records head.id) (.valueError ("pressure already exists: " ++ head.id))
  let record ← completeRecord head.record head.repository spec
  return { head with record := record }

/-- The first observation of a declaration. -/
def firstObservation (host : Host) (now : String) (spec : Fields) (declaration : Declaration) :
    Op Fields :=
  match Fields.get spec "observation" with
  | .null => observe host now declaration.id
      [("repository", .str declaration.repository), ("observedAt", declaration.discoveredAt),
        ("summary", .str declaration.summary),
        ("reproduction", .obj [("status", .str "UNKNOWN"),
          ("instructions", .str declaration.signature)]),
        ("evidence", .arr [])]
  | .obj observation => observe host now declaration.id observation
  | _ => .raise (.valueError "observation must be an object")

/-- Write a declaration and its first observation; unlink the declaration when
that raises. -/
def storeDeclaration (host : Host) (now : String) (spec : Fields) (declaration : Declaration) :
    Op (Declaration × Fields) := do
  writeRecord declaration.id (withDigest declaration.record)
  let observation ← Program.handle (firstObservation host now spec declaration) fun error => do
    unlinkRecord declaration.id
    .raise error
  return (declaration, observation)

/-- `add`. -/
def add (host : Host) (now : String) (spec : Fields) : Op (Declaration × Fields) := do
  init host
  let registry ← Program.get
  let declaration ← .lift (checkAddCall now spec registry.records)
  storeDeclaration host now spec declaration

/-! ## Relating -/

/-- The first diagnostics of an invalid registry. -/
def diagnosticText (diagnostics : List Diagnostic) : String :=
  Str.join "; " ((diagnostics.take 5).map fun item =>
    item.code ++ " at " ++ item.path ++ ": " ++ item.message)

/-- An event with the id derived from its other members. -/
def withEventId (value : Fields) : String × Fields :=
  let id := eventId (Fields.erase value "id")
  (id, Fields.set value "id" (.str id))

/-- Write an event, validate the registry, and unlink the event when it is
invalid. -/
def writeChecked (host : Host) (subject : String) (value : Fields) : Op Fields := do
  let (id, event) := withEventId value
  writeEvent id (withDigest event)
  let registry ← Program.get
  let report ← .lift (validate host registry)
  if report.isEmpty then return event
  else do
    unlinkEvent id
    .raise (.valueError (subject ++ " would make the registry invalid: " ++ diagnosticText report))

/-- The arguments of `relate`. -/
structure RelateCall where
  recordId : String
  relation : String
  targetId : String
  actor : Json
  evidenceRefs : List Json
  details : Fields
  occurredAt : Json

/-- The relation that a call describes. -/
def relationValue (now : String) (call : RelateCall) (actor : String) : Fields :=
  [("schema", .str eventSchema), ("version", .str pressureVersion),
    ("kind", .str "PressureRelation"), ("id", .str ""), ("sourcePressure", .str call.recordId),
    ("relation", .str call.relation), ("targetPressure", .str call.targetId),
    ("occurredAt", orElse call.occurredAt (.str now)), ("actor", .str actor),
    ("evidenceRefs", .arr ((sortedUniqueStrings call.evidenceRefs).map .str)),
    ("details", .obj call.details)]

/-- The checks of `relate`, and the relation it writes. -/
def checkRelateCall (now : String) (call : RelateCall) (documents : Documents) : Py Fields := do
  raiseIf (!Fields.has documents.records call.recordId ||
      !Fields.has documents.records call.targetId)
    (.valueError "relation endpoints must name existing pressures")
  raiseIf (!relationKinds.contains call.relation)
    (.valueError ("unknown relation: " ++ call.relation))
  raiseIf (call.recordId = call.targetId) (.valueError "a pressure cannot relate to itself")
  let actor ← requireRepository call.actor "actor"
  raiseIf (!isInstant (orElse call.occurredAt (.str now)) false)
    (.valueError "occurredAt must be an RFC3339 UTC instant")
  return relationValue now call actor

/-- `relate`. -/
def relate (host : Host) (now : String) (call : RelateCall) : Op Fields :=
  checkedCall host (checkRelateCall now call) (writeChecked host "relation")

/-! ## Showing a pressure -/

/-- The objects of an array. -/
def objectsOf (value : Json) : List Fields := (value.arr?.getD []).filterMap Json.obj?

/-- The strings of an array. -/
def stringsOf (value : Json) : List String := (value.arr?.getD []).filterMap Json.str?

/-- Whether the kernel has room for each of the texts. -/
def textsFit (texts : List String) : Bool :=
  decide (texts.length ≤ 32) && texts.all fun text => decide ((identityBytes text).length ≤ 256)

/-- Whether the kernel's record contracts admit the members of a row that the
lifecycle does not read. -/
def rowFits (projection : PressureProjection) (languageProfile : String) : Bool :=
  let data := projection.data
  let profiles := sortedBy id ((projection.observations.filterMap fun item =>
    (Fields.get item "languageProfile").str?).eraseDups)
  decide ((identityBytes (Fields.get data "id").pyStr).length ≤ 128) &&
    (targets.map Str.upper).contains (Str.upper (member data "target" (.str "language")).pyStr) &&
    textsFit [(member data "domain" (.str "")).pyStr, languageProfile] &&
    (severities.map Str.upper).contains
      (Str.upper (member data "severity" (.str "minor")).pyStr) &&
    textsFit (stringsOf (Fields.get data "affectedRepositories")) &&
    textsFit (stringsOf (Fields.get data "reporters")) && textsFit profiles

/-- `_projection_row` as the kernel takes it. -/
def encodeRow (projection : PressureProjection) : Py PressureQueryRow := do
  let _ ← countWhere workaroundClosed (objectsOf (Fields.get projection.data "verificationCurrent"))
  match orElse (Fields.get projection.data "languageProfile") (.str "") with
  | .str languageProfile => match projectionRow projection with
      | some row =>
          if rowFits projection languageProfile then return row
          else .error (.valueError "the kernel refuses the row")
      | none => .error (.valueError "the kernel refuses the row")
  | _ => .error (.valueError "language profile must be text at the transport boundary")

/-- What a query materialises of one row: the status and the validity. -/
structure NativeItem where
  id : String
  status : PressureStatus
  valid : Bool

/-- `query` without a filter. -/
def query (host : Host) (documents : Documents) : Py (List NativeItem) := do
  let projections ← collect
    (fun entry => readOne host.zone entry.1 entry.2 (documents.observations.map Prod.snd)
      (documents.events.map Prod.snd) (Fields.keys documents.records))
    (sortedBy Prod.fst documents.records)
  let rows ← collect encodeRow projections
  raiseIf (decide (256 < rows.length)) (.valueError "the kernel refuses the request")
  collect
    (fun entry : PressureProjection × PressureQueryRow => do
      let id ← requireKey entry.1.data "id"
      let _ ← requireKey entry.1.data "title"
      let _ ← requireKey entry.1.data "capability"
      return ⟨id.pyStr, pressureLifecycleStatus entry.2,
        entry.1.valid && !(pressureLifecycleProjection entry.2).conflicted⟩)
    (projections.zip rows)

/-- The diagnostics of a history that `show` does not repeat for the kernel. -/
def hostConflictCodes : List String :=
  ["CONCURRENT_TRANSITIONS", "EVENT_CYCLE", "STALE_TRANSITION", "INVALID_TRANSITION",
    "DANGLING_TRANSITION"]

/-- The first projection with the id. -/
def findProjection (recordId : String) : List PressureProjection → Py PressureProjection
  | [] => .error (.valueError ("pressure not found: " ++ recordId))
  | projection :: rest => do
      let id ← requireKey projection.data "id"
      if id.pyStr = recordId then return projection else findProjection recordId rest

/-- `show`: the host's projection with the kernel's status. -/
def showPressure (host : Host) (documents : Documents) (recordId : String) :
    Py PressureProjection := do
  let projection ← findProjection recordId (← projections host documents)
  match (← query host documents).find? fun item => item.id = recordId with
  | none => .error (.valueError ("native pressure projection omitted " ++ recordId))
  | some native =>
      let conflict : List Diagnostic :=
        if native.status = .conflicted &&
            !(projection.diagnostics.any fun item => hostConflictCodes.contains item.code) then
          [⟨"NATIVE_LIFECYCLE_CONFLICT", "pressure[" ++ recordId ++ "].events",
            "the compiler-owned lifecycle fold rejected this event history"⟩]
        else []
      return { projection with
        data := Fields.set (Fields.set projection.data "status" (.str native.status.value)) "valid"
          (.bool native.valid)
        diagnostics := projection.diagnostics ++ conflict }

/-! ## Moving through the lifecycle -/

/-- The arguments of `transition`. -/
structure TransitionCall where
  recordId : String
  target : String
  actor : Json
  reason : Json
  evidenceRefs : List Json
  implementation : Fields
  details : Fields
  expectedPrevious : Option String
  occurredAt : Json

/-- The head of a history: the id of its last event. -/
def headOf (events : List Fields) : Py Json :=
  match events.getLast? with
  | some event => requireKey event "id"
  | none => .ok .null

/-- The transition that a call describes, from the state shown. -/
def transitionValue (now : String) (call : TransitionCall) (projection : PressureProjection)
    (previous : Json) (actor reason : String) : Fields :=
  [("schema", .str eventSchema), ("version", .str pressureVersion),
    ("kind", .str "PressureTransition"), ("id", .str ""), ("pressureId", .str call.recordId),
    ("previousEvent", previous), ("from", .str projection.status), ("to", .str call.target),
    ("occurredAt", orElse call.occurredAt (.str now)), ("actor", .str actor),
    ("reason", .str reason),
    ("evidenceRefs", .arr ((sortedUniqueStrings call.evidenceRefs).map .str)),
    ("implementation", .obj call.implementation), ("details", .obj call.details)]

/-- The checks of `transition` on what it shows, and the transition it writes. -/
def checkTransitionCall (host : Host) (now : String) (call : TransitionCall)
    (documents : Documents) : Py Fields := do
  let projection ← showPressure host documents call.recordId
  raiseIf (!projection.valid)
    (.valueError ("cannot transition an invalid pressure: " ++
      diagnosticText projection.diagnostics))
  raiseIf ((PressureStatus.ofString? call.target).isNone || call.target = "conflicted")
    (.valueError ("unknown transition target: " ++ call.target))
  let previous ← headOf projection.events
  raiseIf (call.expectedPrevious.any fun expected => previous ≠ .str expected)
    (.valueError ("stale pressure head: expected " ++ reprPrevious call.expectedPrevious ++
      ", current is " ++ String.ofList (reprValue previous)))
  let allowed ← nativeTransitionAllowed projection.status call.target
  raiseIf (!allowed)
    (.valueError (projection.status ++ " -> " ++ call.target ++ " is not an allowed transition"))
  let actor ← requireRepository call.actor "actor"
  let reason ← textOrEmpty call.reason "reason" 4000
  raiseIf (!isInstant (orElse call.occurredAt (.str now)) false)
    (.valueError "occurredAt must be an RFC3339 instant")
  let value := transitionValue now call projection previous actor reason
  match ← validateTransitionRequirements host.zone projection.observations
      (stringsOf (Fields.get projection.data "affectedRepositories")) projection.relations value with
  | some requirement => .error (.valueError requirement)
  | none => return value

/-- `transition`. -/
def transition (host : Host) (now : String) (call : TransitionCall) : Op Fields :=
  checkedCall host (checkTransitionCall host now call) (writeChecked host "transition")

/-! ## Calls -/

/-- A call that changes the registry. -/
inductive RegistryCall where
  | add (spec : Fields)
  | observe (recordId : String) (spec : Fields)
  | verify (recordId : String) (call : Verification)
  | relate (call : RelateCall)
  | transition (call : TransitionCall)

/-- A call with its result forgotten. -/
def forget {α : Type} (program : Op α) : Op Unit := do
  let _ ← program
  return ()

/-- The program of a call. -/
def RegistryCall.run (host : Host) (now : String) : RegistryCall → Op Unit
  | .add spec => forget (Pressure.add host now spec)
  | .observe recordId spec => forget (Pressure.observe host now recordId spec)
  | .verify recordId call => forget (Pressure.verify host now recordId call)
  | .relate call => forget (Pressure.relate host now call)
  | .transition call => forget (Pressure.transition host now call)

end MncsCommons.Pressure
