/-
# Family graphs

The overlay of contract edges between repositories: which repositories take
part, the declarations they come from, the edges with their verification, and
what part of the registry is covered.  A graph is checked from the top and
rejected at the first fault; what is returned has the selectors of its edges
normalised.
-/

import MncsCommons.Data.Checks
import MncsCommons.Data.Paths
import MncsCommons.Protocol.Canonical

namespace MncsCommons.Family

open MncsCommons.Data MncsCommons.Protocol

/-! ## Vocabularies -/

def graphSchema : String := "commons.mncs.dev/family-semantic-edges/v1"

def verificationRunners : List String := ["declaration", "mncs-test"]

def maxCheckTestIdentities : Nat := 256

def maxCheckSelectorLength : Nat := 4096

def maxCheckTestIdentityLength : Nat := 512

/-- The members a command-free selector must not have. -/
def executableFields : List String := ["command", "commands", "shell", "script", "argv", "executable"]

/-- What the validation of a graph raises. -/
inductive GraphFault where
  /-- A `FamilyGraphError`. -/
  | rejected (message : String)
  | typeError (message : String)
  deriving DecidableEq

/-- A check of a graph. -/
abbrev GraphChecked (α : Type) := Except GraphFault α

/-! ## Values -/

/-- A value that is a string and not empty. -/
def isFilledText (value : Json) : Bool := value.str?.any (· ≠ "")

def graphObject (value : Json) (message : String) : GraphChecked Fields :=
  match value with
  | .obj fields => .ok fields
  | _ => .error (.rejected message)

def graphArray (value : Json) (message : String) : GraphChecked (List Json) :=
  match value with
  | .arr items => .ok items
  | _ => .error (.rejected message)

/-- Each of the members is a string and not empty. -/
def requireTexts (fields : Fields) (path : String) : List String → GraphChecked Unit
  | [] => .ok ()
  | field :: rest => do
      requireThat (isFilledText (Fields.get fields field))
        (.rejected (path ++ "." ++ field ++ " must be non-empty"))
      requireTexts fields path rest

/-- A word of a frozen set: looking up what has no hash raises. -/
def isWordOf (value : Json) (words : List String) : GraphChecked Bool :=
  match value with
  | .arr _ | .obj _ => .error (.typeError ("unhashable type: '" ++ typeName value ++ "'"))
  | _ => .ok (value.str?.any words.contains)

/-- `sha256:` and 64 more characters. -/
def isDigestText (value : Json) : Bool :=
  value.str?.any fun text => Str.startsWith text "sha256:" && text.length == "sha256:".length + 64

/-- Sixty-four lower-case hexadecimal digits. -/
def isHexIdentity (value : Json) : Bool :=
  value.str?.any fun text => text.length == 64 && text.toList.all isLowerHex

/-! ## Identities -/

/-- `edge_fingerprint`. -/
def edgeFingerprint (edge : Fields) : String :=
  String.ofList (sha256Hex (dumps (.obj (Fields.erase edge "fingerprint"))))

/-- An edge without its fingerprint. -/
def stripFingerprint : Json → Json
  | .obj edge => .obj (Fields.erase edge "fingerprint")
  | edge => edge

/-- What the identity of a graph covers.  The edges are an array wherever it is taken. -/
def graphProjection (graph : Fields) : Fields :=
  let projection := Fields.erase graph "graph_identity"
  match Fields.get? projection "edges" with
  | some (.arr edges) => Fields.set projection "edges" (.arr (edges.map stripFingerprint))
  | _ => projection

def graphText (graph : Fields) : Text := dumps (.obj (graphProjection graph))

/-- `graph_identity`. -/
def graphIdentity (graph : Fields) : String := String.ofList (sha256Hex (graphText graph))

/-! ## Repositories and declarations -/

/-- The repositories from the given index on, after those with the given ids. -/
def checkGraphRepositories : Nat → List String → List Json → GraphChecked (List String)
  | _, ids, [] => .ok ids
  | index, ids, repository :: rest => do
      let path := itemPath "repositories" index
      let repository ← graphObject repository (path ++ " must be an object")
      match (Fields.get repository "id").str?.filter fun id => id ≠ "" && !ids.contains id with
      | none => .error (.rejected (path ++ ".id must be unique"))
      | some id => do
          requireTexts repository path ["repository", "revision", "manifest_identity"]
          checkGraphRepositories (index + 1) (ids ++ [id]) rest

/-- The evidence of one kind: digests by path. -/
def isEvidenceOfKind (entry : String × Json) : Bool :=
  ["provides", "consumes", "verification"].contains entry.1 &&
    entry.2.obj?.any fun values =>
      values.all fun digest => digest.1 ≠ "" && isDigestText digest.2

/-- The declarations from the given index on, after those of the given repositories. -/
def checkGraphDeclarations : Nat → List String → List Json → GraphChecked (List String)
  | _, ids, [] => .ok ids
  | index, ids, declaration :: rest => do
      let path := itemPath "source.declarations" index
      let declaration ← graphObject declaration (path ++ " must be an object")
      match (Fields.get declaration "repository_id").str?.filter fun id =>
          id ≠ "" && !ids.contains id && isFilledText (Fields.get declaration "identity") &&
            isFilledText (Fields.get declaration "path") with
      | none => .error (.rejected (path ++ " is invalid"))
      | some id => do
          let evidence ← graphObject ((Fields.get? declaration "evidence_digests").getD (.obj []))
            (path ++ ".evidence_digests must be an object")
          requireThat (evidence.all isEvidenceOfKind)
            (.rejected (path ++ ".evidence_digests is invalid"))
          checkGraphDeclarations (index + 1) (ids ++ [id]) rest

/-- The source of a graph: declarations of its repositories and no others. -/
def checkGraphSource (source : Json) (ids : List String) : GraphChecked Unit := do
  let source ← graphObject source "family graph source must be an object"
  requireThat (Fields.get source "kind" = .str "repository_contract_declarations")
    (.rejected "family graph source kind is invalid")
  let declarations ← graphArray (Fields.get source "declarations")
    "family graph source declarations must be an array"
  let sourceIds ← checkGraphDeclarations 0 [] declarations
  requireThat (sourceIds.all ids.contains && ids.all sourceIds.contains)
    (.rejected "family graph source declarations must cover repositories")

/-! ## Edges -/

/-- A relative path of bounded length that does not lead up. -/
def isManifestPath (value : Json) : Bool :=
  value.str?.any fun text =>
    text ≠ "" && text.length ≤ maxCheckSelectorLength && !Str.startsWith text "/" &&
      !text.toList.contains '\\' && !(Path.segments text.toList).contains ['.', '.']

/-- The names of tests, when there are some, not too many, and each once. -/
def testIdentities (value : Json) : Option (List String) :=
  (value.arr?.bind fun items => items.mapM Json.str?).filter fun tests =>
    !tests.isEmpty && tests.length ≤ maxCheckTestIdentities &&
      tests.all (fun test => test ≠ "" && test.length ≤ maxCheckTestIdentityLength) &&
      decide tests.Nodup

/-- `_validate_mncs_test_selector`. -/
def validateTestSelector (selector : Json) (context : String) : GraphChecked Fields := do
  let selector ← graphObject selector (context ++ ".selector is required for mncs-test")
  let unknown := (Fields.keys selector).filter fun key =>
    ! ["manifest", "inventory_identity", "test_identities"].contains key
  requireThat unknown.isEmpty (.rejected (context ++ ".selector contains unsupported fields: " ++
    Str.join ", " (sortedBy id unknown)))
  requireThat (isManifestPath (Fields.get selector "manifest"))
    (.rejected (context ++ ".selector.manifest must be a bounded relative path"))
  requireThat (isHexIdentity (Fields.get selector "inventory_identity"))
    (.rejected (context ++ ".selector.inventory_identity must be a lowercase digest"))
  match testIdentities (Fields.get selector "test_identities") with
  | none => .error (.rejected
      (context ++ ".selector.test_identities must be a bounded unique non-empty array"))
  | some tests => .ok [("manifest", Fields.get selector "manifest"),
      ("inventory_identity", Fields.get selector "inventory_identity"),
      ("test_identities", .arr ((sortedBy id tests).map .str))]

/-- The names and repositories of an edge. -/
def checkEdgeNames (ids : List String) (path : String) (edge : Fields) : GraphChecked Unit := do
  requireTexts edge path ["producer_repository", "consumer_repository", "contract_identity",
    "contract_revision", "consuming_identity", "provenance"]
  requireThat ((Fields.get edge "producer_repository").str?.any ids.contains &&
      (Fields.get edge "consumer_repository").str?.any ids.contains)
    (.rejected (path ++ " references an unknown repository"))
  requireTexts edge path
    ["producer_manifest_identity", "consumer_manifest_identity", "provider_identity"]

/-- The verification of an edge, up to its selector. -/
def checkEdgeVerification (path : String) (contract : Json) (verification : Fields) :
    GraphChecked Unit := do
  requireTexts verification (path ++ ".verification")
    ["check_identity", "executor", "surface", "evidence"]
  let known ← isWordOf (Fields.get verification "runner") verificationRunners
  requireThat known (.rejected (path ++ ".verification.runner is unknown: " ++
    (Fields.get verification "runner").pyStr))
  requireThat (Fields.get verification "contract_identity" = .null ||
      Fields.get verification "contract_identity" = contract)
    (.rejected (path ++ ".verification.contract_identity does not match the edge"))

/-- The verification with its selector normalised; only tests have one. -/
def checkEdgeSelector (path : String) (verification : Fields) : GraphChecked Fields :=
  if Fields.get verification "runner" = .str "mncs-test" then do
    let selector ← validateTestSelector (Fields.get verification "selector")
      (path ++ ".verification")
    return Fields.set verification "selector" (.obj selector)
  else do
    requireThat (Fields.get verification "selector" = .null)
      (.rejected (path ++ ".verification.selector is only valid for mncs-test"))
    return verification

/-- No member that could be run. -/
def checkNotExecutable (path : String) (verification : Fields) (selector : Json) :
    List String → GraphChecked Unit
  | [] => .ok ()
  | forbidden :: rest => do
      requireThat (!(Fields.has verification forbidden ||
          selector.obj?.any fun selector => Fields.has selector forbidden))
        (.rejected (path ++ ".verification cannot carry executable field " ++
          String.ofList (reprString forbidden)))
      checkNotExecutable path verification selector rest

/-- The digests and the fingerprint of an edge. -/
def checkEdgeDigests (path : String) (edge : Fields) : GraphChecked Unit := do
  requireThat (isDigestText (Fields.get edge "verification_evidence_sha256"))
    (.rejected (path ++ ".verification_evidence_sha256 is invalid"))
  requireThat ((Fields.get? edge "provider_evidence_sha256").all isDigestText)
    (.rejected (path ++ ".provider_evidence_sha256 is invalid"))
  requireThat ((Fields.get? edge "consumer_evidence_sha256").all isDigestText)
    (.rejected (path ++ ".consumer_evidence_sha256 is invalid"))
  requireThat (Fields.get edge "fingerprint" = .str (edgeFingerprint edge))
    (.rejected (path ++ ".fingerprint does not match the edge"))

/-- One edge, with its selector normalised. -/
def checkEdge (ids : List String) (index : Nat) (raw : Json) : GraphChecked Json := do
  let path := itemPath "edges" index
  let edge ← graphObject raw (path ++ " must be an object")
  checkEdgeNames ids path edge
  let verification ← graphObject (Fields.get edge "verification")
    (path ++ ".verification is required")
  checkEdgeVerification path (Fields.get edge "contract_identity") verification
  let selected ← checkEdgeSelector path verification
  -- the edge keeps its own verification when there is no selector to normalise
  let edge := Fields.set edge "verification" (.obj selected)
  checkNotExecutable path selected (Fields.get verification "selector") executableFields
  checkEdgeDigests path edge
  return .obj edge

/-! ## Coverage -/

/-- A count. -/
def graphCount (coverage : Fields) (field : String) : GraphChecked Int :=
  match Fields.get coverage field with
  | .int count =>
      if 0 ≤ count then .ok count
      else .error (.rejected ("family graph coverage." ++ field ++
        " must be a non-negative integer"))
  | _ => .error (.rejected ("family graph coverage." ++ field ++
      " must be a non-negative integer"))

/-- An array of names, each once. -/
def graphNames (coverage : Fields) (field : String) : GraphChecked (List String) :=
  match ((Fields.get coverage field).arr?.bind fun items => items.mapM Json.str?).filter
      fun names => names.all (· ≠ "") && decide names.Nodup with
  | some names => .ok names
  | none => .error (.rejected ("family graph coverage." ++ field ++
      " must be a unique string array"))

/-- The coverage of a graph with the given repositories. -/
def checkGraphCoverage (coverage : Json) (ids : List String) : GraphChecked Unit := do
  let coverage ← graphObject coverage "family graph coverage must be an object"
  requireThat (isHexIdentity (Fields.get coverage "registry_identity"))
    (.rejected "family graph coverage.registry_identity must be a lower-case SHA-256 identity")
  let registered ← graphCount coverage "registered_family_project_count"
  let classified ← graphCount coverage "classified_project_count"
  let participants ← graphCount coverage "semantic_graph_participant_count"
  let nonparticipants ← graphCount coverage "explicit_nonparticipant_count"
  let unclassified ← graphCount coverage "unclassified_project_count"
  requireThat (participants = ids.length)
    (.rejected "family graph coverage participant count does not match repositories")
  requireThat (registered = classified + unclassified)
    (.rejected "family graph coverage registered count must equal classified plus unclassified")
  let participating ← graphNames coverage "semantic_graph_participants"
  requireThat (participating.all ids.contains && ids.all participating.contains)
    (.rejected "family graph coverage.semantic_graph_participants does not match repositories")
  let explicit ← graphNames coverage "explicit_nonparticipants"
  let unknown ← graphNames coverage "unclassified_repositories"
  requireThat (nonparticipants = explicit.length)
    (.rejected "family graph coverage nonparticipant count is inconsistent")
  requireThat (unclassified = unknown.length)
    (.rejected "family graph coverage unclassified count is inconsistent")
  requireThat (← isWordOf (Fields.get coverage "coverage_status") ["complete", "incomplete"])
    (.rejected "family graph coverage.coverage_status is invalid")
  requireThat (Fields.get coverage "topology_status" = .str "complete_among_declared_participants")
    (.rejected "family graph coverage.topology_status is invalid")

/-- What is said about the graph as a whole. -/
def checkGraphScope (complete limitations : Json) : GraphChecked Unit := do
  requireThat (complete matches .bool _) (.rejected "family graph complete must be boolean")
  requireThat (limitations.arr?.any (·.all isFilledText))
    (.rejected "family graph limitations must be non-empty strings")

/-! ## Graphs -/

/-- `validate_graph`. -/
def validateGraph (value : Json) : GraphChecked Fields := do
  let graph ← graphObject value ("family graph must be " ++ graphSchema)
  requireThat (Fields.get graph "schema_version" = .str graphSchema)
    (.rejected ("family graph must be " ++ graphSchema))
  let repositories ← graphArray (Fields.get graph "repositories")
    "family graph repositories must be non-empty"
  requireThat (!repositories.isEmpty) (.rejected "family graph repositories must be non-empty")
  let ids ← checkGraphRepositories 0 [] repositories
  checkGraphSource (Fields.get graph "source") ids
  let edges ← graphArray (Fields.get graph "edges") "family graph edges must be an array"
  let normalized ← checkEach (checkEdge ids) 0 edges
  checkGraphScope (Fields.get graph "complete") (Fields.get graph "limitations")
  checkGraphCoverage (Fields.get graph "coverage") ids
  requireThat (Fields.get graph "graph_identity" = .str (graphIdentity graph))
    (.rejected "family graph graph_identity does not match its content")
  return Fields.set (Fields.set graph "repositories" (.arr repositories)) "edges" (.arr normalized)

end MncsCommons.Family
