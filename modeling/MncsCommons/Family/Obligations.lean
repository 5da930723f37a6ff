/-
# Obligation plans

The wire contract of a verification obligation plan: the obligations selected
for a change, the evidence for them, the closure of a repository they belong to,
and the decision to stop.  A document is checked from the top and rejected at
the first fault.
-/

import MncsCommons.Data.Checks
import MncsCommons.Protocol.Canonical

namespace MncsCommons.Family

open MncsCommons.Data MncsCommons.Protocol

/-! ## Vocabularies -/

def obligationPlanSchema : String := "mncs.verification-obligation-plan/1"

def obligationStatuses : List String :=
  ["required", "current", "new_execution_required", "stale", "contradictory",
    "selection_unresolved", "escalation_required", "not_selected"]

def lifecycles : List String := ["permanent", "transitional", "scheduled", "reference_only", "retired"]

def guaranteeDomains : List String :=
  ["semantic", "parser_front_end", "type_system", "compiler", "runtime", "backend_portability",
    "integration", "family_contract"]

def evidenceRoles : List String :=
  ["canonical_regression", "conformance", "differential_oracle", "migration_parity",
    "pressure_reproducer", "historical_reference"]

def executorKinds : List String :=
  ["native_first_class_test", "compile_experiment", "diagnostic_test", "backend_check",
    "differential_oracle", "migration_parity", "external_integration"]

def obligationScopes : List String := ["local", "consumer", "family", "repository_canonical"]

def repositoryPlanScopes : List String := ["source_module", "repository_canonical"]

def identityLength : Nat := 4096

/-- What the validation of a plan raises. -/
inductive PlanFault where
  /-- An `ObligationPlanError`. -/
  | rejected (code path message : String)
  | typeError (message : String)
  | keyError (key : String)
  deriving DecidableEq

/-- A check of a plan. -/
abbrev Checked (α : Type) := Except PlanFault α

/-! ## Values -/

/-- `_string`. -/
def planString (value : Json) (path : String) : Checked String :=
  match value with
  | .str text =>
      if Str.isBlank text then
        .error (.rejected "TYPE_STRING" path "must be a non-empty string")
      else if text.length > identityLength then
        .error (.rejected "BOUND_EXCEEDED" path "string exceeds the contract bound")
      else .ok text
  | _ => .error (.rejected "TYPE_STRING" path "must be a non-empty string")

/-- A string that is not empty. -/
def nonEmptyText (value : Json) : Option String := value.str?.filter (· ≠ "")

/-- `_strings`. -/
def planStrings (value : Json) (path : String) (allowed : Option (List String)) :
    Checked (List String) :=
  match value.arr?.bind fun items => items.mapM nonEmptyText with
  | none => .error (.rejected "TYPE_STRING_ARRAY" path "must be an array of non-empty strings")
  | some texts => do
      requireThat (decide texts.Nodup)
        (.rejected "DUPLICATE_IDENTITY" path "must not contain duplicates")
      let unknown := sortedBy id (texts.filter fun text => !allowed.all (·.contains text))
      requireThat unknown.isEmpty (.rejected "VOCABULARY_UNKNOWN" path (Str.join ", " unknown))
      return texts

/-- `_object`. -/
def planObject (value : Json) (path : String) : Checked Fields :=
  match value with
  | .obj fields => .ok fields
  | _ => .error (.rejected "TYPE_OBJECT" path "must be an object")

/-- `_positive_int`. -/
def positiveInt (value : Json) (path : String) : Checked Int :=
  match value with
  | .int n =>
      if 1 ≤ n then .ok n
      else .error (.rejected "INTEGER_INVALID" path "must be a positive integer")
  | _ => .error (.rejected "INTEGER_INVALID" path "must be a positive integer")

/-- An array of some length. -/
def planArray (value : Json) (path message : String) : Checked (List Json) :=
  match value with
  | .arr items => .ok items
  | _ => .error (.rejected "TYPE_ARRAY" path message)

/-- A word of a vocabulary. -/
def planWord (value : Json) (allowed : List String) (path subject : String) : Checked String :=
  match value.str?.filter allowed.contains with
  | some word => .ok word
  | none => .error (.rejected "VOCABULARY_UNKNOWN" path
      ("unsupported " ++ subject ++ " " ++ String.ofList (reprValue value)))

/-- A word of a set: looking up what has no hash raises. -/
def planSetWord (value : Json) (allowed : List String) (path subject : String) : Checked String :=
  match value with
  | .arr _ | .obj _ => .error (.typeError ("unhashable type: '" ++ typeName value ++ "'"))
  | _ => planWord value allowed path subject

/-- The named members that are there, checked. -/
def presentMembers (item : Fields) (path : String) (check : Json → String → Checked Json) :
    List String → Checked Fields
  | [] => .ok []
  | field :: fields => do
      let rest := presentMembers item path check fields
      match Fields.get? item field with
      | none => rest
      | some value => return (field, ← check value (path ++ "." ++ field)) :: (← rest)

/-- The named members that are there and not `null`, checked. -/
def givenMembers (item : Fields) (path : String) : List String → Checked Fields
  | [] => .ok []
  | field :: fields => do
      let rest := givenMembers item path fields
      match Fields.get item field with
      | .null => rest
      | value => return (field, .str (← planString value (path ++ "." ++ field))) :: (← rest)

/-! ## Executors -/

/-- A byte of a grant. -/
def checkByte (path : String) (index : Nat) (value : Json) : Checked Json :=
  match value with
  | .int n =>
      if 0 ≤ n ∧ n ≤ 255 then .ok value
      else .error (.rejected "INTEGER_INVALID" (itemPath (path ++ ".bytes") index)
        "must be between 0 and 255")
  | _ => .error (.rejected "INTEGER_INVALID" (itemPath (path ++ ".bytes") index)
      "must be between 0 and 255")

/-- The locator of a grant, which may be empty. -/
def checkLocator (value : Json) (path : String) : Checked String :=
  match value.str?.filter fun text => decide (text.length ≤ identityLength) with
  | some text => .ok text
  | none => .error (.rejected "TYPE_STRING" path "must be a bounded string")

/-- The bytes of a grant, before each is looked at. -/
def checkByteArray (value : Json) (path : String) : Checked (List Json) :=
  match value.arr?.filter fun items => decide (items.length ≤ 4096) with
  | some items => .ok items
  | none => .error (.rejected "TYPE_ARRAY" path "must be a bounded byte array")

/-- One grant of a test case, with the capability and locator it is known by. -/
def checkGrant (path : String) (value : Json) : Checked ((String × String) × Json) := do
  let item ← planObject value path
  requireThat ((Fields.keys item).all ["capability", "locator", "bytes"].contains)
    (.rejected "FIELD_INVALID" path "contains an unsupported grant field")
  let capability ← planString (Fields.get item "capability") (path ++ ".capability")
  let locator ← checkLocator ((Fields.get? item "locator").getD (.str "")) (path ++ ".locator")
  let bytes ← checkByteArray ((Fields.get? item "bytes").getD (.arr [])) (path ++ ".bytes")
  let bytes ← checkEach (checkByte path) 0 bytes
  return ((capability, locator),
    .obj [("capability", .str capability), ("locator", .str locator), ("bytes", .arr bytes)])

/-- The grants of a test case, which differ in capability or locator. -/
def checkGrants (path : String) :
    List (String × String) → Nat → List Json → Checked (List Json)
  | _, _, [] => .ok []
  | seen, index, value :: values => do
      let itemPath := itemPath (path ++ ".grants") index
      let (key, grant) ← checkGrant itemPath value
      requireThat (!seen.contains key)
        (.rejected "DUPLICATE_IDENTITY" itemPath "duplicate capability and locator")
      return grant :: (← checkGrants path (key :: seen) (index + 1) values)

/-- The grant sets of an executor, one for each test case. -/
def checkGrantSets (path : String) : List String → Nat → List Json → Checked (List Json)
  | _, _, [] => .ok []
  | seen, index, value :: values => do
      let grantPath := itemPath (path ++ ".host_grants") index
      let grantSet ← planObject value grantPath
      requireThat ((Fields.keys grantSet).all ["test_case_identity", "grants"].contains &&
          ["test_case_identity", "grants"].all (Fields.keys grantSet).contains)
        (.rejected "FIELD_INVALID" grantPath "must contain only test_case_identity and grants")
      let test ← planString (Fields.get grantSet "test_case_identity")
        (grantPath ++ ".test_case_identity")
      requireThat (!seen.contains test)
        (.rejected "DUPLICATE_IDENTITY" (grantPath ++ ".test_case_identity") "must be unique")
      let raw ← planArray (Fields.get grantSet "grants") (grantPath ++ ".grants")
        "must be a non-empty array"
      requireThat (!raw.isEmpty)
        (.rejected "TYPE_ARRAY" (grantPath ++ ".grants") "must be a non-empty array")
      let grants ← checkGrants grantPath [] 0 raw
      return .obj [("test_case_identity", .str test), ("grants", .arr grants)] ::
        (← checkGrantSets path (test :: seen) (index + 1) values)

/-- `_ordered_strings`. -/
def orderedStrings (value : Json) (path : String) : Checked Json :=
  match (value.arr?.filter (· ≠ [])).bind fun items => items.mapM nonEmptyText with
  | none => .error (.rejected "TYPE_ARRAY" path "must be a non-empty array of non-empty strings")
  | some texts => do
      requireThat (decide (texts.length ≤ 16))
        (.rejected "BOUND_EXCEEDED" path "must contain at most 16 arguments")
      return .arr (texts.map .str)

/-- The time an executor may take. -/
def checkTimeout (value : Json) (path : String) : Checked Json :=
  match value with
  | .int n =>
      if 1 ≤ n ∧ n ≤ 3600 then .ok value
      else .error (.rejected "INTEGER_INVALID" path "must be between 1 and 3600")
  | _ => .error (.rejected "INTEGER_INVALID" path "must be between 1 and 3600")

/-- `_validate_executor`. -/
def validateExecutor (value : Json) (path : String) : Checked Fields := do
  let executor ← planObject value path
  let provider ← planString (Fields.get executor "provider") (path ++ ".provider")
  let kind ← planWord (Fields.get executor "kind") executorKinds (path ++ ".kind") "executor kind"
  let entrypoint ← planString (Fields.get executor "entrypoint") (path ++ ".entrypoint")
  let lists ← presentMembers executor path
    (fun value path => do return .arr ((← planStrings value path none).map .str))
    ["declaration_identities", "test_case_identities", "source_paths", "library_paths"]
  let texts ← presentMembers executor path (fun value path => do return .str (← planString value path))
    ["verifier_identity", "target_identity", "working_directory"]
  let argv ← presentMembers executor path orderedStrings ["argv"]
  let timeout ← presentMembers executor path checkTimeout ["timeout_seconds"]
  let grants ← presentMembers executor path
    (fun value grantPath => do
      return .arr (← checkGrantSets path [] 0 (← planArray value grantPath "must be an array")))
    ["host_grants"]
  return [("provider", .str provider), ("kind", .str kind), ("entrypoint", .str entrypoint)] ++
    lists ++ texts ++ argv ++ timeout ++ grants

/-- The executor of an obligation, where it has one. -/
def executorMember (value : Json) (path : String) : Checked Fields :=
  match value with
  | .null => .ok []
  | value => do return [("executor", .obj (← validateExecutor value path))]

/-! ## Evidence and selected obligations -/

/-- The identities that bind evidence to an obligation. -/
def bindingFields : List String :=
  ["subject_identity", "subject_fingerprint", "definition_identity", "executor_identity",
    "verifier_identity", "invalidation_identity"]

/-- `_validate_evidence`. -/
def validateEvidence (path : String) (value : Json) : Checked Fields := do
  let evidence ← planObject value path
  let status ← planSetWord (Fields.get evidence "status") ["PASS", "FAIL", "UNKNOWN"]
    (path ++ ".status") "evidence status"
  let identity ← planString (Fields.get evidence "evidence_identity") (path ++ ".evidence_identity")
  let given ← givenMembers evidence path
    ["obligation_identity", "repository_identity", "repository_revision", "repository_fingerprint",
      "subject_identity", "subject_fingerprint", "definition_identity", "executor_identity",
      "verifier_identity", "invalidation_identity", "reason"]
  return [("status", .str status), ("evidence_identity", .str identity)] ++ given

/-- `_validate_selected`. -/
def validateSelected (index : Nat) (value : Json) : Checked Fields := do
  let path := itemPath "obligations" index
  let item ← planObject value path
  let status ← planWord (Fields.get item "status") obligationStatuses (path ++ ".status") "status"
  let lifecycle ← planWord (Fields.get item "lifecycle") lifecycles (path ++ ".lifecycle") "lifecycle"
  let domain ← planWord (Fields.get item "guarantee_domain") guaranteeDomains
    (path ++ ".guarantee_domain") "domain"
  let role ← planWord (Fields.get item "evidence_role") evidenceRoles (path ++ ".evidence_role")
    "evidence role"
  let identity ← planString (Fields.get item "identity") (path ++ ".identity")
  let scope := (Fields.get? item "scope").getD (.str "local")
  let reason ← planString (Fields.get item "reason") (path ++ ".reason")
  let evidence ← planStrings ((Fields.get? item "evidence_identities").getD (.arr []))
    (path ++ ".evidence_identities") none
  let tests ← planStrings ((Fields.get? item "test_case_identities").getD (.arr []))
    (path ++ ".test_case_identities") none
  requireThat (scope.str?.any obligationScopes.contains)
    (.rejected "VOCABULARY_UNKNOWN" (path ++ ".scope") "unsupported scope")
  let given ← givenMembers item path ["definition_identity", "subject_identity",
    "subject_fingerprint", "executor_identity", "verifier_identity", "invalidation_identity"]
  let executor ← executorMember (Fields.get item "executor") (path ++ ".executor")
  return [("identity", .str identity), ("scope", scope), ("status", .str status),
    ("lifecycle", .str lifecycle), ("guarantee_domain", .str domain), ("evidence_role", .str role),
    ("reason", .str reason), ("evidence_identities", .arr (evidence.map .str)),
    ("test_case_identities", .arr (tests.map .str))] ++ given ++ executor

end MncsCommons.Family
