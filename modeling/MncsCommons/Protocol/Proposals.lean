/-
# Proposals and claims

What `propose_work` and `claim_work` decide from the work records they read.  A
proposal is compared with all unfinished work and becomes an attachment to a
duplicate or a submission of its own.  A claim is checked against the work it is
for and against all active work.

Neither writes here.  Lower case is an argument, since it depends on the tables of
the host language.
-/

import MncsCommons.Protocol.Projection
import MncsCommons.Protocol.Requests

namespace MncsCommons.Protocol

open MncsCommons.Data

/-! ## Capabilities -/

/-- How two capabilities compare. -/
inductive CapabilityOverlap where
  | exact | ambiguous | distinct
  deriving DecidableEq, Repr

def isCapabilitySeparator (c : Char) : Bool := isSpace c || ['_', '.', '/', ':', '-'].contains c

def capabilityAliases : List (String × String) :=
  [("masked", "mask"), ("reduction", "reduce"), ("reductions", "reduce")]

section Capabilities

variable (lower : String → String)

/-- `normalize_capability`. -/
def normalizeCapability (value : Json) : Py String := do
  let text ← workText value "capability" 256
  let parts := ((lower text).toList.splitOnP isCapabilitySeparator).filter (· ≠ [])
  return Str.join "." (parts.map fun part =>
    (capabilityAliases.lookup (String.ofList part)).getD (String.ofList part))

/-- `capability_overlap`. -/
def capabilityOverlap (left right : Json) : Py CapabilityOverlap := do
  let left ← normalizeCapability lower left
  let right ← normalizeCapability lower right
  let common := (Str.splitChar '.' left.toList).eraseDups.filter
    ((Str.splitChar '.' right.toList).contains ·)
  return if left = right then .exact else if 2 ≤ common.length then .ambiguous else .distinct

/-! ## Proposals -/

/-- The coordination states of unfinished work. -/
def openCoordinationStates : List String :=
  ["AVAILABLE", "CLAIMED", "IN_PROGRESS", "BLOCKED", "VERIFYING", "NEEDS_RECONCILIATION"]

/-- The text of a value that is one, stripped. -/
def strippedText (value : Json) : Option String :=
  if isText value then value.str?.map Str.strip else none

/-- The repository that a spelling resolves to, else the spelling. -/
def resolvedOrStripped (value : Json) : Py (Option String) :=
  match strippedText value with
  | none => .ok none
  | some spelling => do
      return some ((← resolveRepository value).getD spelling)

/-- The repositories of work: the canonical ones, else those it names. -/
def repositorySet (details : Fields) : Py (List String) := do
  let canonical := (strippedText (Fields.get details "canonicalRepository")).toList ++
    ((Fields.get details "canonicalAffectedRepositories").arr?.getD []).filterMap strippedText
  if canonical ≠ [] then return canonical
  else
    let primary ← resolvedOrStripped (Fields.get details "repository")
    let affected ← iterateOrEmpty ((Fields.get? details "affectedRepositories").getD (.arr []))
    return primary.toList ++ (← affected.mapM resolvedOrStripped).filterMap id

/-- What a proposal is found to be among the unfinished work. -/
structure ProposalMatch where
  duplicate : Option WorkProjection := none
  ambiguous : List String := []

/-- The search for work that a proposal duplicates, in order. -/
def matchProposal (candidate : Fields) (repositories : List String) :
    List WorkProjection → Py ProposalMatch
  | [] => .ok {}
  | item :: items => do
      let details := detailsOf item.current
      let lane := Fields.get candidate "lane"
      let finding := Fields.get candidate "findingIdentity"
      let capability := Fields.get candidate "capability"
      let existing := Fields.get details "capability"
      let sameRepo := (← repositorySet details).any (repositories.contains ·)
      let sameCore : Bool := lane.str? = some "SHARED_CORE" &&
        (Fields.get details "lane").str? = some "SHARED_CORE"
      if finding.truthy && (Fields.get details "findingIdentity").pyEq finding && sameRepo &&
          (Fields.get details "lane").pyEq lane then
        return { duplicate := some item }
      else if capability.truthy && existing.truthy && (sameCore || sameRepo) then
        match ← capabilityOverlap lower capability existing with
        | .exact => return { duplicate := some item }
        | .distinct => matchProposal candidate repositories items
        | .ambiguous =>
            let rest ← matchProposal candidate repositories items
            return if item.coordinationState = "AVAILABLE" then
              { rest with ambiguous := item.workId :: rest.ambiguous } else rest
      else matchProposal candidate repositories items

end Capabilities

/-- The canonical spellings of the repositories a proposal names. -/
def normalizedAffected (canonical : String) (affected : Json) : Py (List String) :=
  match affected with
  | .arr items => do
      let named := (← items.mapM resolvedOrStripped).filterMap id
      return if named.contains canonical then named else named ++ [canonical]
  | _ => .ok [canonical]

/-- The candidate with its canonical repositories, and why they are none. -/
def withCanonicalRepository (candidate : Fields) : Py (Fields × List String) := do
  let repository := Fields.get candidate "repository"
  if !isText repository then return (candidate, ["repository is unresolved"])
  else
    match ← resolveRepository repository with
    | none => return (candidate, ["repository is outside the canonical family"])
    | some canonical =>
        let affected ← normalizedAffected canonical
          ((Fields.get? candidate "affectedRepositories").getD (.arr []))
        return (Fields.set (Fields.set candidate "canonicalRepository" (.str canonical))
          "canonicalAffectedRepositories" (Json.ofStrings affected), [])

/-- Whether hygiene work is out of scope, when the check of its scope fails. -/
def hygieneFallback (candidate : Fields) : Bool :=
  match (Fields.get candidate "canonicalAffectedRepositories").arr? with
  | none => true
  | some affected =>
      let texts := affected.filterMap Json.str?
      match (Fields.get candidate "canonicalRepository").str? with
      | none => true
      | some primary => texts.eraseDups.length ≠ 1 || !texts.contains primary

/-- Whether hygiene work is out of scope. -/
def hygieneOutOfScope (candidate : Fields) : Bool :=
  let probe := present
    [("lane", some (Fields.get candidate "lane")),
      ("repository", some (Fields.get candidate "repository")),
      ("affectedRepositories",
        some ((Fields.get? candidate "affectedRepositories").getD (.arr []))),
      ("coordinationState", some (.str "AVAILABLE")),
      ("canonicalRepository", Fields.get? candidate "canonicalRepository"),
      ("canonicalAffectedRepositories", Fields.get? candidate "canonicalAffectedRepositories")]
  match hygieneScopeInvalid probe with
  | .ok invalid => invalid
  | .error _ => hygieneFallback candidate

/-- Whether a dependency on work is on none that is known. -/
def hasUnknownDependency (known : List String) (dependencies : Json) : Bool :=
  (dependencies.arr?.getD []).any fun item =>
    Str.startsWith item.pyStr "work:" && !known.contains item.pyStr

/-- Why a proposal cannot become available. -/
def proposalReasons (candidate : Fields) (known repositoryReasons : List String)
    (sourceResolved laneKnown : Bool) : List String :=
  let lane := (Fields.get candidate "lane").str?
  let reason (condition : Bool) (text : String) : List String := if condition then [text] else []
  reason (!laneKnown) "lane is unresolved" ++ repositoryReasons ++
    reason (!sourceResolved) "proposal source is unresolved" ++
    reason (!(Fields.get candidate "evidenceLinks").truthy)
      "proposal requires an evidence/source link" ++
    reason (hasUnknownDependency known ((Fields.get? candidate "dependencies").getD (.arr [])))
      "one or more work dependencies are unresolved" ++
    reason (lane = some "SHARED_CORE" && !(Fields.get candidate "capability").truthy)
      "shared-core proposals require a capability identity" ++
    reason (lane = some "REPO_HYGIENE" && hygieneOutOfScope candidate)
      ("REPO_HYGIENE work must be scoped to exactly one canonical repository equal to the " ++
        "primary repository (" ++ workHygieneScopeCode ++ ")")

/-- What a proposal becomes. -/
inductive ProposalOutcome where
  | attach (workId : String) (transition : Fields)
  | submit (candidate : Fields)

/-- The proposal without what the classification decides, and with its source;
whether it has one. -/
def proposalCandidate (proposal : Fields) : Fields × Bool :=
  let owned := ["proposalStatus", "coordinationState", "proposalReason", "canonicalRepository",
    "canonicalAffectedRepositories", "deduplication"]
  let candidate := owned.foldl Fields.erase proposal
  let popped := Fields.get candidate "source"
  let candidate := Fields.erase candidate "source"
  let source := if popped.truthy then popped else Fields.get candidate "proposalSource"
  (Fields.set candidate "proposalSource" (if isText source then source else .str "worker-discovery"),
    isText source)

/-- The transition that attaches a proposal to its duplicate. -/
def attachTransition (lower : String → String) (candidate : Fields) (duplicate : WorkProjection) :
    Py Fields := do
  let attachments ← fieldItems (detailsOf duplicate.current) "attachments"
  let capability := Fields.get candidate "capability"
  let capability ← if capability.truthy then (normalizeCapability lower capability).map Json.str
    else pure .null
  let attachment : Json := .obj [("type", .str "proposal-attachment"),
    ("consumer", Fields.get candidate "submittingConsumer"),
    ("evidenceLinks", (Fields.get? candidate "evidenceLinks").getD (.arr [])),
    ("dependencies", (Fields.get? candidate "dependencies").getD (.arr [])),
    ("capability", capability),
    ("source", Fields.get candidate "proposalSource")]
  return [("actor", Fields.get candidate "submittingConsumer"),
    ("expectedPreviousDigest", .str duplicate.currentDigest),
    ("attachments", .arr (attachments ++ [attachment])),
    ("reason", .str "proposal attached to an existing bounded opportunity")]

/-- The submission of a proposal that has to be reconciled first. -/
def reconciliationCandidate (candidate : Fields) (reasons ambiguous : List String) : Fields :=
  [("proposalStatus", .str "NEEDS_RECONCILIATION"),
    ("coordinationState", .str "NEEDS_RECONCILIATION"),
    ("proposalReason", .str (Str.join "; " reasons)),
    ("deduplication", .obj [("status", .str "NEEDS_RECONCILIATION"),
      ("candidateWorkIds", Json.ofStrings ambiguous)])].foldl
    (fun candidate field => Fields.set candidate field.1 field.2) candidate

/-- The submission of a proposal that is accepted. -/
def acceptedCandidate (candidate : Fields) : Fields :=
  Fields.set (Fields.set candidate "proposalStatus" (.str "ACCEPTED")) "coordinationState"
    (.str "AVAILABLE")

/-- The part of `propose_work` after it has listed all work. -/
def classifyProposal (lower : String → String) (work : List WorkProjection) (proposal : Fields) :
    Py ProposalOutcome := do
  let (candidate, sourceResolved) := proposalCandidate proposal
  let current := work.filter fun item => openCoordinationStates.contains item.coordinationState
  let laneKnown ← inSet (Fields.get candidate "lane") lanes
  let (candidate, repositoryReasons) ← withCanonicalRepository candidate
  let reasons := proposalReasons candidate (work.map WorkProjection.workId) repositoryReasons
    sourceResolved laneKnown
  let repositories ← repositorySet candidate
  let found ← matchProposal lower candidate repositories current
  let reasons := if found.ambiguous = [] then reasons
    else reasons ++ ["capability overlap is plausible but not proven"]
  match found.duplicate with
  | some duplicate =>
      if reasons = [] then
        return .attach duplicate.workId (← attachTransition lower candidate duplicate)
      else return .submit (reconciliationCandidate candidate reasons found.ambiguous)
  | none =>
      if reasons = [] then return .submit (acceptedCandidate candidate)
      else return .submit (reconciliationCandidate candidate reasons found.ambiguous)

/-! ## Claims -/

/-- Who claims work: both texts stripped. -/
def readClaimant (actor : Json) : Py Actor :=
  let member := fun field => (actor.obj?.bind fun actor => strippedText (Fields.get actor field))
  match member "type", member "id" with
  | some type, some id => .ok ⟨type, id⟩
  | _, _ => .error (.workProtocolError "WORK_ACTOR_REQUIRED" "claim actor type and id are required")

/-- The checks of the work that a claim is for. -/
def checkClaimable (details : Fields) (lane : Option String) : Py Unit := do
  raiseIf (lane.any fun lane => (Fields.get details "lane").str? ≠ some lane)
    (.workProtocolError "WORK_LANE_MISMATCH" "task is outside the requested lane")
  raiseIf (! ["AVAILABLE", "BLOCKED"].contains (← coordinationState details))
    (.workProtocolError "WORK_NOT_AVAILABLE" "task is not claimable")

/-- Whether work is held by another claim of the actor. -/
def ownedBy (workId : String) (actor : Actor) (item : WorkProjection) : Bool :=
  item.workId ≠ workId &&
    (Fields.get (detailsOf item.current) "claim").obj?.any fun claim =>
      (Fields.get claim "actor").pyEq actor.json

/-- The checks of a claim against the active work. -/
def checkExclusive (workId : String) (details : Fields) (actor : Actor)
    (active : List WorkProjection) : Py Unit := do
  raiseIf ((Fields.get details "lane").str? = some "SHARED_CORE" &&
      active.any fun item =>
        (Fields.get (detailsOf item.current) "lane").str? = some "SHARED_CORE")
    (.workProtocolError "WORK_SHARED_CORE_BUSY"
      "SHARED_CORE is single-writer while another core task is active")
  raiseIf (active.any (ownedBy workId actor))
    (.workProtocolError "WORK_ACTIVE_CLAIM_LIMIT" "worker already holds an active substantive claim")

/-- The claim of an actor. -/
def claimOf (now : String) (actor : Actor) (sessionId : Option String) : Fields :=
  present [("actor", some actor.json), ("claimedAt", some (.str now)),
    ("sessionId", sessionId.map Json.str)]

/-- The transition of a claim. -/
def claimTransition (now : String) (actor : Actor) (sessionId : Option String)
    (expectedPreviousDigest : String) : Fields :=
  [("state", .str "assigned"), ("coordinationState", .str "CLAIMED"),
    ("claim", .obj (claimOf now actor sessionId)), ("actor", actor.json),
    ("expectedPreviousDigest", .str expectedPreviousDigest),
    ("reason", .str "worker claimed a lane-scoped Commons opportunity")]

/-- The part of `claim_work` before its transition, from the records that the work
was read from and those that the active work was read from. -/
def checkClaim (records later : List Fields) (workId : String) (actor : Json)
    (lane : Option String) : Py Actor := do
  let status ← projectWorkHistory records workId
  let details := detailsOf status.current
  checkClaimable details lane
  let claimant ← readClaimant actor
  let active ← listWork later [] [] activeCoordinationStates
  checkExclusive workId details claimant active
  return claimant

end MncsCommons.Protocol
