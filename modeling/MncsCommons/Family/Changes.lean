/-
# Family changes

The record of a producer's working change.  A record is checked from the top and
rejected at the first fault; what is returned has its defaults filled in and its
unknown members dropped, and the identity it carries must be that of the core of
what is returned.
-/

import MncsCommons.Data.AsciiText
import MncsCommons.Data.Checks
import MncsCommons.Data.Python
import MncsCommons.Data.Sha256
import MncsCommons.Protocol.Models

namespace MncsCommons.Family

open MncsCommons.Data MncsCommons.Protocol

/-! ## Vocabularies -/

def familyChangeSchema : String := "mncs.family-change/1"

/-- `CHANGE_STATES`, without their native codes. -/
def changeStates : List String :=
  ["draft", "observed", "validated", "established", "published", "superseded", "abandoned",
    "conflicted", "invalid"]

/-- `TRANSFORM_OPS`, without their native codes. -/
def transformOps : List String := ["set_json_field", "replace_span", "run_capability"]

def maxSubjects : Nat := 32

def maxSubjectPaths : Nat := 16

def maxContracts : Nat := 16

def maxOperations : Nat := 16

def maxIntentChars : Nat := 280

def maxIdentityString : Nat := 256

def maxPathString : Nat := 512

/-- A check of a change; what it raises is a `FamilyChangeError`. -/
abbrev ChangeChecked (α : Type) := Except String α

/-! ## Values -/

/-- A member, with a default for a missing one. -/
def getOr (fields : Fields) (key : String) (default : Json) : Json :=
  (Fields.get? fields key).getD default

def changeObject (value : Json) (message : String) : ChangeChecked Fields :=
  match value with
  | .obj fields => .ok fields
  | _ => .error message

/-- `_text`. -/
def changeText (value : Json) (field : String) (maximum : Nat) : ChangeChecked String :=
  match value with
  | .str text =>
      if text = "" then .error (field ++ " must be a non-empty string")
      else if maximum < text.length then
        .error (field ++ " exceeds " ++ toString maximum ++ " characters")
      else .ok text
  | _ => .error (field ++ " must be a non-empty string")

/-- `_hex40`. -/
def hex40 (value : Json) (field : String) : ChangeChecked String := do
  let text ← changeText value field 64
  requireThat (text.length == 40 && text.toList.all isLowerHex)
    (field ++ " must be an exact 40-hex revision")
  return text

/-- `_bounded_list`. -/
def boundedList (value : Json) (field : String) (maximum : Nat) : ChangeChecked (List Json) :=
  match value with
  | .arr items =>
      if maximum < items.length then
        .error (field ++ " exceeds " ++ toString maximum ++ " entries")
      else .ok items
  | _ => .error (field ++ " must be a list")

/-- `_non_negative_int`. -/
def nonNegativeInt (value : Json) (field : String) : ChangeChecked Int :=
  match value with
  | .int n =>
      if 0 ≤ n then .ok n else .error (field ++ " must be a non-negative integer")
  | _ => .error (field ++ " must be a non-negative integer")

/-- A list of texts. -/
def boundedTexts (value : Json) (field : String) (maximum textMaximum : Nat) :
    ChangeChecked (List Json) := do
  let items ← boundedList value field maximum
  let _ ← checkEach (fun _ item => changeText item (field ++ "[]") textMaximum) 0 items
  return items

/-! ## Identity -/

/-- `change_identity`. -/
def changeIdentity (core : Fields) : String :=
  "fc:" ++ String.ofList (sha256Hex (dumpsAscii (.obj core)))

/-- `change_core`. -/
def changeCore (record : Fields) : Fields :=
  [("producer", Fields.get record "producer"), ("base", Fields.get record "base"),
    ("subjects", Fields.get record "subjects"),
    ("contracts_changed", Fields.get record "contracts_changed"),
    ("operations", Fields.get record "operations"),
    ("evidence_refs", Fields.get record "evidence_refs"), ("intent", Fields.get record "intent"),
    ("supersedes", getOr record "supersedes" (.arr []))]

/-! ## Parts -/

/-- `validate_operation`. -/
def validateOperation (field : String) (operation : Json) : ChangeChecked Json := do
  let operation ← changeObject operation (field ++ " must be an object")
  let op ← changeText (Fields.get operation "op") (field ++ ".op") 64
  requireThat (transformOps.contains op) (field ++ ".op is not a known transform op")
  let params ← changeObject (Fields.get operation "params") (field ++ ".params must be an object")
  let paths ← boundedTexts (getOr operation "paths" (.arr [])) (field ++ ".paths") maxSubjectPaths
    maxPathString
  let preimage ← changeObject (getOr operation "preimage" (.obj []))
    (field ++ ".preimage must be an object")
  return .obj [("op", .str op), ("params", .obj params), ("paths", .arr paths),
    ("preimage", .obj preimage)]

/-- The producer of a change. -/
def validateProducer (value : Json) : ChangeChecked Json := do
  let producer ← changeObject value "producer must be an object"
  let _ ← checkEach (fun _ key => changeText (Fields.get producer key) ("producer." ++ key)
    maxIdentityString) 0 ["repository", "session", "consumer"]
  let _ ← changeText (getOr producer "checkout_kind" (.str "worktree")) "producer.checkout_kind" 32
  -- a missing member is written as an empty text, also where another default was checked
  return .obj (["repository", "checkout_kind", "session", "consumer", "claim_id"].map fun key =>
    (key, getOr producer key (.str "")))

/-- The base of a change. -/
def validateBase (value : Json) : ChangeChecked Json := do
  let base ← changeObject value "base must be an object"
  let _ ← hex40 (Fields.get base "head") "base.head"
  let _ ← nonNegativeInt (Fields.get base "generation") "base.generation"
  return .obj [("head", Fields.get base "head"), ("generation", Fields.get base "generation")]

/-- The state of a change. -/
def validateState (value : Json) : ChangeChecked Json := do
  let state ← changeText value "state" 32
  requireThat (changeStates.contains state) "state is not a known ChangeState"
  return .str state

/-- A subject of a change. -/
def validateSubject (index : Nat) (subject : Json) : ChangeChecked Json := do
  let path := itemPath "subjects" index
  let subject ← changeObject subject (path ++ " must be an object")
  let _ ← changeText (Fields.get subject "identity") (path ++ ".identity") maxIdentityString
  let _ ← changeText (getOr subject "kind" (.str "source")) (path ++ ".kind") 64
  let paths ← boundedTexts (getOr subject "paths" (.arr [])) (path ++ ".paths") maxSubjectPaths
    maxPathString
  return .obj [("identity", Fields.get subject "identity"),
    ("kind", getOr subject "kind" (.str "source")), ("paths", .arr paths)]

/-- A contract that a change touches. -/
def validateContract (index : Nat) (contract : Json) : ChangeChecked Json := do
  let path := itemPath "contracts_changed" index
  let contract ← changeObject contract (path ++ " must be an object")
  let _ ← changeText (Fields.get contract "contract") (path ++ ".contract") maxIdentityString
  return .obj contract

/-- The intent of a change. -/
def validateIntent (value : Json) : ChangeChecked Json := do
  let intent ← changeObject value "intent must be an object"
  requireThat ((getOr intent "summary" (.str "")).str?.any (·.length ≤ maxIntentChars))
    "intent.summary exceeds bounds"
  return .obj intent

/-! ## Changes -/

/-- `validate_family_change`. -/
def validateFamilyChange (value : Json) : ChangeChecked Fields := do
  let record ← changeObject value "family change must be an object"
  requireThat (Fields.get record "schema_version" = .str familyChangeSchema)
    "family change has an invalid schema version"
  let producer ← validateProducer (Fields.get record "producer")
  let base ← validateBase (Fields.get record "base")
  let state ← validateState (Fields.get record "state")
  let supersedes ← boundedTexts (getOr record "supersedes" (.arr [])) "supersedes" 8
    maxIdentityString
  let subjects ← boundedList (getOr record "subjects" (.arr [])) "subjects" maxSubjects
  let subjects ← checkEach validateSubject 0 subjects
  let contracts ← boundedList (getOr record "contracts_changed" (.arr [])) "contracts_changed"
    maxContracts
  let contracts ← checkEach validateContract 0 contracts
  let operations ← boundedList (getOr record "operations" (.arr [])) "operations" maxOperations
  let operations ← checkEach (fun index => validateOperation (itemPath "operations" index)) 0
    operations
  let evidence ← changeObject (getOr record "evidence_refs" (.obj []))
    "evidence_refs must be an object"
  let verification ← changeObject (getOr record "verification" (.obj []))
    "verification must be an object"
  let intent ← validateIntent (getOr record "intent" (.obj []))
  let validated : Fields :=
    [("schema_version", .str familyChangeSchema), ("producer", producer), ("base", base),
      ("state", state), ("supersedes", .arr supersedes), ("subjects", .arr subjects),
      ("contracts_changed", .arr contracts), ("operations", .arr operations),
      ("evidence_refs", .obj evidence), ("verification", .obj verification), ("intent", intent)]
  let identity ← changeText (Fields.get record "identity") "identity" 72
  requireThat (identity = changeIdentity (changeCore validated))
    "identity does not bind the change core"
  return validated ++ [("identity", .str identity)]

end MncsCommons.Family
