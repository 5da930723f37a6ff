/-
# The plan as a whole

A plan names its own digest, describes the source and the inventory it was made
from, and, when it speaks for a repository, the closure of that repository.  The
stop decision of such a plan is checked against the selected obligations and the
evidence bound to them.
-/

import MncsCommons.Family.Obligations
import MncsCommons.Data.Sorting

namespace MncsCommons.Family

open MncsCommons.Data MncsCommons.Protocol

/-! ## The parts of a plan -/

/-- `obligation_plan_identity`. -/
def obligationPlanIdentity (root : Fields) : String :=
  String.ofList (sha256Hex (dumps (.obj (Fields.erase root "obligation_plan_id"))))

/-- The identity of a plan and of what it was made from. -/
def checkHeader (root : Fields) : Checked Unit := do
  requireThat (decide (Fields.get root "schema_version" = .str obligationPlanSchema))
    (.rejected "SCHEMA_UNSUPPORTED" "schema_version" ("must be " ++ obligationPlanSchema))
  let planId ← planString (Fields.get root "obligation_plan_id") "obligation_plan_id"
  requireThat (decide (planId = obligationPlanIdentity root))
    (.rejected "IDENTITY_MISMATCH" "obligation_plan_id" "does not match canonical identity")
  let _ ← planString (Fields.get root "verification_plan_id") "verification_plan_id"
  let source ← planObject (Fields.get root "source") "source"
  let _ ← planString (Fields.get source "path") "source.path"
  let _ ← planString (Fields.get source "sha256") "source.sha256"
  let _ ← planString (Fields.get root "impact_identity") "impact_identity"

/-- The impact of the change, where the plan states it. -/
def checkImpact (value : Json) : Checked Unit :=
  match value with
  | .null => .ok ()
  | value => do
      let impact ← planObject value "impact"
      let _ ← planStrings ((Fields.get? impact "guarantee_domains").getD (.arr []))
        "impact.guarantee_domains" (some guaranteeDomains)
      let _ ← planStrings ((Fields.get? impact "change_kinds").getD (.arr []))
        "impact.change_kinds" none
      let _ ← planStrings ((Fields.get? impact "roots").getD (.arr [])) "impact.roots" none

/-- The inventory the obligations come from. -/
def checkInventory (value : Json) : Checked Unit := do
  let inventory ← planObject value "inventory"
  let _ ← planString (Fields.get inventory "repository") "inventory.repository"
  let _ ← planString (Fields.get inventory "identity") "inventory.identity"
  let _ ← positiveInt (Fields.get inventory "revision") "inventory.revision"

/-- One inventory of compiler tests, which never speaks for more than its module. -/
def checkCompilerInventory (index : Nat) (value : Json) : Checked Unit := do
  let path := itemPath "repository.compiler_test_inventories" index
  let inventory ← planObject value path
  let _ ← planString (Fields.get inventory "path") (path ++ ".path")
  requireThat (decide (Fields.get inventory "scope" = .str "source_module"))
    (.rejected "PROOF_BOUNDARY_INVALID" (path ++ ".scope")
      "compiler test inventories remain source_module scoped")
  let _ ← planString (Fields.get inventory "identity") (path ++ ".identity")
  let _ ← planStrings (Fields.get inventory "test_case_identities") (path ++ ".test_case_identities")
    none

/-- What a plan says of the closure of its repository. -/
structure RepositoryClosure where
  identity : String
  fingerprint : String
  scope : String
  complete : Bool
  required : List String
  selected : List String
  missing : List String
  deriving DecidableEq

/-- A boolean. -/
def planBool (value : Json) (path : String) : Checked Bool :=
  match value with
  | .bool b => .ok b
  | _ => .error (.rejected "TYPE_BOOLEAN" path "must be boolean")

/-- How far the proof of a repository goes. -/
def planScope (value : Json) : Checked String :=
  match value.str?.filter repositoryPlanScopes.contains with
  | some scope => .ok scope
  | none => .error (.rejected "VOCABULARY_UNKNOWN" "repository.scope"
      "unsupported repository proof scope")

/-- The closure of the repository, where the plan has one. -/
def checkRepository (value : Json) : Checked (Option RepositoryClosure) :=
  match value with
  | .null => .ok none
  | value => do
      let repository ← planObject value "repository"
      let identity ← planString (Fields.get repository "identity") "repository.identity"
      let _ ← planString (Fields.get repository "revision") "repository.revision"
      let fingerprint ← planString (Fields.get repository "fingerprint") "repository.fingerprint"
      let _ ← planString (Fields.get repository "inventory_identity") "repository.inventory_identity"
      let scope ← planScope (Fields.get repository "scope")
      let complete ← planBool (Fields.get repository "complete") "repository.complete"
      let required ← planStrings (Fields.get repository "required_obligation_identities")
        "repository.required_obligation_identities" none
      let selected ← planStrings (Fields.get repository "selected_obligation_identities")
        "repository.selected_obligation_identities" none
      let missing ← planStrings (Fields.get repository "missing_obligation_identities")
        "repository.missing_obligation_identities" none
      let inventories ← planArray
        ((Fields.get? repository "compiler_test_inventories").getD (.arr []))
        "repository.compiler_test_inventories" "must be an array"
      let _ ← checkEach checkCompilerInventory 0 inventories
      requireThat (decide (sortedBy id (required.filter fun identity => !selected.contains identity) =
          sortedBy id missing))
        (.rejected "INVENTORY_MISMATCH" "repository.missing_obligation_identities"
          "must equal the declared required identities absent from the selected set")
      requireThat (!complete || (missing.isEmpty && decide (required = selected)))
        (.rejected "PROOF_BOUNDARY_INVALID" "repository.complete"
          "complete closure must select every declared repository obligation")
      return some { identity, fingerprint, scope, complete, required, selected, missing }

/-- One obligation the plan leaves out. -/
def checkExcludedEntry (index : Nat) (value : Json) : Checked Unit := do
  let path := itemPath "excluded" index
  let entry ← planObject value path
  let _ ← planString (Fields.get entry "identity") (path ++ ".identity")
  requireThat ((Fields.get entry "lifecycle").str?.any lifecycles.contains)
    (.rejected "VOCABULARY_UNKNOWN" (path ++ ".lifecycle") "unsupported lifecycle")
  let _ ← planString (Fields.get entry "reason") (path ++ ".reason")

/-- The obligations the plan leaves out. -/
def checkExcluded (value : Json) : Checked Unit :=
  match value with
  | .null => .ok ()
  | value => do
      let entries ← planArray value "excluded" "must be an array"
      let _ ← checkEach checkExcludedEntry 0 entries

/-- The decision to stop. -/
structure StopDecision where
  sufficient : Bool
  required : List String
  deriving DecidableEq

def checkStop (value : Json) : Checked StopDecision := do
  let stop ← planObject value "stop"
  let sufficient ← planBool (Fields.get stop "sufficient_to_stop") "stop.sufficient_to_stop"
  let required ← planStrings (Fields.get stop "required_obligation_identities")
    "stop.required_obligation_identities" none
  let _ ← planStrings (Fields.get stop "new_execution_required") "stop.new_execution_required" none
  let _ ← planStrings (Fields.get stop "escalation_reasons") "stop.escalation_reasons" none
  let _ ← planString (Fields.get stop "boundary") "stop.boundary"
  return { sufficient, required }

/-! ## The closure of a repository -/

/-- The same members, in whatever order. -/
def sameMembers (first second : List String) : Bool :=
  first.all second.contains && second.all first.contains

/-- `by_identity.get`: the last obligation under an identity. -/
def byIdentity (obligations : List Fields) (identity : String) : Option Fields :=
  obligations.reverse.find? fun item => decide (Fields.get item "identity" = .str identity)

/-- The evidence bound to a selected obligation: that of its identity in which the
repository and every binding are the same. -/
def exactEvidence (closure : RepositoryClosure) (selected : Fields) (evidence : List Fields)
    (identity : String) : List Fields :=
  evidence.filter fun item =>
    (Fields.get item "obligation_identity").truthy &&
    decide (Fields.get item "obligation_identity" = .str identity) &&
    decide (Fields.get item "repository_identity" = .str closure.identity) &&
    decide (Fields.get item "repository_fingerprint" = .str closure.fingerprint) &&
    bindingFields.all fun field => decide (Fields.get item field = Fields.get selected field)

/-- One required obligation of the closure. -/
def checkRequired (closure : RepositoryClosure) (obligations evidence : List Fields)
    (identity : String) : Checked Unit :=
  let absent : PlanFault := .rejected "INVENTORY_MISMATCH" "obligations"
    ("repository obligation " ++ String.ofList (reprString identity) ++
      " is absent or has source-local scope")
  match byIdentity obligations identity with
  | none =>
      -- an open closure may lack the obligations it reports as missing
      if closure.missing.contains identity && !closure.complete then .ok () else .error absent
  | some selected => do
      requireThat (decide (Fields.get selected "scope" = .str "repository_canonical")) absent
      if Fields.get selected "status" = .str "current" then
        let exact := exactEvidence closure selected evidence identity
        requireThat
          (!exact.isEmpty && exact.all fun item => decide (Fields.get item "status" = .str "PASS"))
          (.rejected "EVIDENCE_STALE" ("obligations." ++ identity)
            "current status lacks complete, current identity-bound PASS evidence")
      else .ok ()

/-- Whether every one of the obligations is current. -/
def allCurrent (obligations : List Fields) : List String → Checked Bool
  | [] => .ok true
  | identity :: identities =>
      match byIdentity obligations identity with
      | none => .error (.keyError identity)
      | some selected =>
          if Fields.get selected "status" = .str "current" then allCurrent obligations identities
          else .ok false

/-- The checks of a repository that is proved as a whole. -/
def checkCanonicalClosure (closure : RepositoryClosure) (stop : StopDecision)
    (obligations evidence : List Fields) : Checked Unit := do
  requireThat (closure.complete || !stop.sufficient)
    (.rejected "PROOF_BOUNDARY_INVALID" "stop.sufficient_to_stop"
      "incomplete repository closure cannot establish a proof")
  requireThat (sameMembers closure.required stop.required)
    (.rejected "INVENTORY_MISMATCH" "stop.required_obligation_identities"
      "must equal the repository-canonical obligation set")
  requireThat (sameMembers closure.selected stop.required || !stop.sufficient)
    (.rejected "PROOF_BOUNDARY_INVALID" "stop.sufficient_to_stop"
      "repository closure requires every declared obligation")
  let canonical := (obligations.filter fun item =>
    decide (Fields.get item "scope" = .str "repository_canonical")).filterMap fun item =>
      (Fields.get item "identity").str?
  requireThat (sameMembers canonical closure.selected)
    (.rejected "INVENTORY_MISMATCH" "repository.selected_obligation_identities"
      "must match the selected repository-canonical obligations")
  let _ ← checkEach (fun _ => checkRequired closure obligations evidence) 0 stop.required
  if stop.sufficient then
    let current ← allCurrent obligations stop.required
    requireThat current
      (.rejected "PROOF_BOUNDARY_INVALID" "stop.sufficient_to_stop"
        "all required repository obligations must be current PASS")
  else .ok ()

/-- The stop decision against the closure, the obligations and the evidence. -/
def checkClosure (closure : Option RepositoryClosure) (stop : StopDecision)
    (obligations evidence : List Fields) : Checked Unit :=
  match closure with
  | some closure =>
      if closure.scope = "repository_canonical" then
        checkCanonicalClosure closure stop obligations evidence
      else
        requireThat (!stop.sufficient)
          (.rejected "PROOF_BOUNDARY_INVALID" "stop.sufficient_to_stop"
            "source-module inventory cannot establish repository closure")
  | none =>
      requireThat (!(stop.sufficient && obligations.any fun item =>
          decide (Fields.get item "scope" = .str "repository_canonical")))
        (.rejected "PROOF_BOUNDARY_INVALID" "stop.sufficient_to_stop"
          "repository-canonical obligations require an explicit repository closure object")

/-- `validate_obligation_plan`. -/
def validateObligationPlan (value : Json) : Checked Fields := do
  let root ← planObject value "<root>"
  checkHeader root
  checkImpact (Fields.get root "impact")
  checkInventory (Fields.get root "inventory")
  let closure ← checkRepository (Fields.get root "repository")
  let items ← planArray (Fields.get root "obligations") "obligations" "must be an array"
  let obligations ← checkEach validateSelected 0 items
  requireThat (decide (obligations.map fun item => Fields.get item "identity").Nodup)
    (.rejected "DUPLICATE_IDENTITY" "obligations" "selected identities must be unique")
  checkExcluded (Fields.get root "excluded")
  let entries ← planArray ((Fields.get? root "evidence").getD (.arr [])) "evidence"
    "must be an array"
  let evidence ← checkEach (fun index => validateEvidence (itemPath "evidence" index)) 0 entries
  let stop ← checkStop (Fields.get root "stop")
  checkClosure closure stop obligations evidence
  return root

end MncsCommons.Family
