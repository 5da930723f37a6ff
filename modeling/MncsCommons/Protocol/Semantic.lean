/-
# Checks against local history

What a record must satisfy relative to the records already stored: revisions of
one logical record form a chain, work records follow their protocol, a producer
identity keeps one binding, and supersession and dependency stay acyclic.

The cycle search is depth first with the set of finished nodes threaded through.
Every level of the recursion enters a node that no outer level has entered, so
one more level than there are sources always suffices as fuel.
-/

import MncsCommons.Protocol.Stability

namespace MncsCommons.Protocol

open MncsCommons.Data

/-- The digest of a record, or its identifier when it has none. -/
def identity (record : Fields) : String :=
  match (Fields.get record "contentDigest").str? with
  | some digest => digest
  | none => match (Fields.get record "metadata").obj? with
      | some metadata =>
          let recordId := Fields.get metadata "recordId"
          if recordId.truthy then recordId.pyStr else ""
      | none => ""

/-- The identifier of a record, or its digest when it has none. -/
def logicalId (record : Fields) : String :=
  match (Fields.get record "metadata").obj? with
  | some metadata =>
      let recordId := Fields.get metadata "recordId"
      if recordId.truthy then recordId.pyStr else identity record
  | none => identity record

/-! ## Relation graph -/

/-- A directed graph as successors by source. -/
abbrev Edges := List (String × List String)

/-- The successors of a node. -/
def Edges.targets (edges : Edges) (node : String) : List String :=
  (edges.lookup node).getD []

/-- Add an edge. -/
def Edges.add : Edges → String → String → Edges
  | [], source, target => [(source, [target])]
  | (node, targets) :: edges, source, target =>
      if node = source then
        (node, if targets.contains target then targets else targets ++ [target]) :: edges
      else (node, targets) :: Edges.add edges source target

/-- The node a reference names; later records take over a name. -/
def knownNodes (records : List Fields) : List (String × String) :=
  (records.flatMap fun record =>
    [(identity record, identity record), (logicalId record, identity record)]).reverse

/-- The target of a relation that orders records, when it is known. -/
def orderingTarget (known : List (String × String)) (relation : Json) : Py (Option String) :=
  match relation.obj? with
  | none => .ok none
  | some relation => do
      if ← inSet (Fields.get relation "type") ["supersedes", "depends_on"] then
        return known.lookup (Fields.get relation "target").pyStr
      else return none

/-- `record.get("relationships", [])` as a loop visits it. -/
def relationshipsOf (record : Fields) : Py (List Json) :=
  iterate ((Fields.get? record "relationships").getD (.arr []))

/-- The supersession and dependency edges between records. -/
def relationEdges (records : List Fields) : Py Edges :=
  let known := knownNodes records
  records.foldlM (fun edges record => do
    let relations ← relationshipsOf record
    relations.foldlM (fun edges relation => do
      match ← orderingTarget known relation with
      | none => return edges
      | some target => return edges.add (identity record) target) edges) []

/-- Visit nodes in order, threading the finished ones through. -/
def visitAll (visitOne : List String → String → Option (List String)) :
    List String → List String → Option (List String)
  | visited, [] => some visited
  | visited, node :: nodes =>
      match visitOne visited node with
      | none => none
      | some visited => visitAll visitOne visited nodes

/-- Visit a node: none when a cycle is found, else the finished nodes. -/
def visit (edges : Edges) : Nat → List String → List String → String → Option (List String)
  | 0, _, _, _ => none
  | fuel + 1, visiting, visited, node =>
      if visiting.contains node then none
      else if visited.contains node then some visited
      else
        (visitAll (visit edges fuel (node :: visiting)) visited (edges.targets node)).map (node :: ·)

/-- Whether the graph has a directed cycle. -/
def hasCycle (edges : Edges) : Bool :=
  (visitAll (visit edges (edges.length + 2) []) [] (edges.map Prod.fst)).isNone

/-! ## Producer bindings -/

/-- What a stable identity is bound to. -/
structure Binding where
  producer : String
  recordKind : String
  schemaVersion : String
  contentDigest : Option String
  deriving DecidableEq

/-- The binding a reference asks for. -/
def ProducerReference.binding (reference : ProducerReference) : Binding :=
  ⟨reference.producer, reference.recordKind, reference.schemaVersion, reference.contentDigest⟩

/-- Bindings by stable identity; the first one stays. -/
def bindFirst (bindings : List (String × Binding)) (reference : ProducerReference) :
    List (String × Binding) :=
  if (bindings.lookup reference.stableId).isSome then bindings
  else bindings ++ [(reference.stableId, reference.binding)]

/-- The bindings that the stored records make. -/
def referenceBindings (records : List Fields) : Py (List (String × Binding)) :=
  records.foldlM (fun bindings record => do
    return (← producerReferences record).foldl bindFirst bindings) []

/-- The checks of a candidate's references, in order; one that conflicts binds
nothing. -/
def bindingDiagnostics : Nat → List (String × Binding) → List ProducerReference → List Diagnostic
  | _, _, [] => []
  | index, bindings, reference :: references =>
      let path := "details.producerReferences[" ++ toString index ++ "]"
      let current := reference.binding
      match bindings.lookup reference.stableId with
      | none => bindingDiagnostics (index + 1) (bindFirst bindings reference) references
      | some prior =>
          if (prior.producer, prior.recordKind, prior.schemaVersion) ≠
              (current.producer, current.recordKind, current.schemaVersion) then
            ⟨"PRODUCER_REFERENCE_CONFLICT", path,
              "stable producer identity is already bound to different producer metadata"⟩ ::
              bindingDiagnostics (index + 1) bindings references
          else if prior.contentDigest.isSome ∧ current.contentDigest.isSome ∧
              prior.contentDigest ≠ current.contentDigest then
            ⟨"PRODUCER_DIGEST_CONFLICT", path,
              "stable producer identity is already bound to a different content digest"⟩ ::
              bindingDiagnostics (index + 1) bindings references
          else bindingDiagnostics (index + 1) bindings references

/-! ## The checks -/

/-- The next revision must follow the latest one. -/
def checkRevision (candidate : Fields) (existingSameId : List Fields) : Py (List Diagnostic) := do
  match ← latestRevision existingSameId with
  | none => return []
  | some (latest, revision) =>
      let metadata := (Fields.get candidate "metadata").obj?.getD []
      reportIf (!((Fields.get metadata "revision").pyEq (.int (revision + 1)) &&
          (Fields.get metadata "previousDigest").pyEq (.str (identity latest))))
        "REVISION_REQUIRED" "metadata"
        "a changed logical record requires the next revision and previousDigest"

/-- A producer identity keeps its first binding. -/
def checkBindings (candidate : Fields) (records : List Fields) : Py (List Diagnostic) := do
  let bindings ← referenceBindings records
  return bindingDiagnostics 0 bindings (← producerReferences candidate)

/-- No relation may target the record itself. -/
def checkSelfRelation (candidate : Fields) : Py (List Diagnostic) := do
  let relations ← relationshipsOf candidate
  concatChecks (relations.mapIdx fun index relation =>
    let target := (relation.obj?.map fun relation =>
      ((Fields.get? relation "target").getD (.str "")).pyStr)
    reportIf (target.any fun target => target = identity candidate || target = logicalId candidate)
      "SELF_RELATION" (itemPath "relationships" index) "relation target is the record itself")

/-- A replication may not target itself. -/
def checkSelfReplication (candidate : Fields) : Py (List Diagnostic) :=
  let target := (Fields.get candidate "details").obj?.map fun details =>
    (Fields.get details "targetRecord").pyStr
  reportIf ((Fields.get candidate "kind").str? = some "Replication" &&
      target.any fun target => target = identity candidate || target = logicalId candidate)
    "SELF_REPLICATION" "details.targetRecord" "a replication cannot target itself"

/-- Supersession and dependency must stay acyclic. -/
def checkCycle (records : List Fields) : Py (List Diagnostic) := do
  let edges ← relationEdges records
  reportIf (hasCycle edges) "RELATION_CYCLE" "relationships"
    "supersedes and depends_on relationships must remain acyclic"

/-- The stored records of the same logical identity. -/
def sameLogicalId (candidate : Fields) (records : List Fields) : List Fields :=
  records.filter fun item => logicalId item = logicalId candidate

/-- The checks that need the stored records. A record that is already stored
under its logical identity passes all of them. -/
def recordSemanticDiagnostics (candidate : Fields) (records : List Fields) :
    Py (List Diagnostic) :=
  let existingSameId := sameLogicalId candidate records
  if existingSameId.any fun item => identity item = identity candidate then .ok []
  else concatChecks
    [checkRevision candidate existingSameId,
      workSemanticDiagnostics candidate existingSameId,
      checkBindings candidate records,
      checkSelfRelation candidate,
      checkSelfReplication candidate,
      checkCycle (records ++ [candidate])]

/-! ## Observations without references -/

/-- An observation that relates to no other record. -/
structure Plain (record : Fields) : Prop where
  kind : Fields.get record "kind" = .str "Observation"
  relationships : Fields.get? record "relationships" = some (.arr [])
  details : ∃ outcome, Fields.get record "details" = .obj [("outcome", .str outcome)]

namespace Plain

variable {candidate : Fields} {records : List Fields}

theorem producerReferences (h : Plain candidate) : Protocol.producerReferences candidate = .ok [] := by
  obtain ⟨outcome, hdetails⟩ := h.details
  rw [Protocol.producerReferences, hdetails]
  rfl

theorem referenceBindings (h : ∀ record ∈ records, Plain record)
    (bindings : List (String × Binding)) :
    records.foldlM (fun bindings record => do
      return (← Protocol.producerReferences record).foldl bindFirst bindings) bindings =
        (.ok bindings : Py (List (String × Binding))) := by
  induction records generalizing bindings with
  | nil => rfl
  | cons record records ih =>
      rw [List.foldlM_cons, (h record (by simp)).producerReferences]
      exact ih (fun other hother => h other (by simp [hother])) bindings

theorem relationEdges (h : ∀ record ∈ records, Plain record) :
    Protocol.relationEdges records = .ok [] := by
  have hfold : ∀ known : List (String × String), ∀ edges : Edges,
      records.foldlM (fun edges record => do
        let relations ← relationshipsOf record
        relations.foldlM (fun edges relation => do
          match ← orderingTarget known relation with
          | none => return edges
          | some target => return edges.add (identity record) target) edges) edges =
        (.ok edges : Py Edges) := by
    intro known
    induction records with
    | nil => exact fun _ => rfl
    | cons record records ih =>
        intro edges
        have hrelationships : relationshipsOf record = .ok [] := by
          rw [relationshipsOf, (h record (by simp)).relationships]
          rfl
        rw [List.foldlM_cons, hrelationships]
        exact ih (fun other hother => h other (by simp [hother])) edges
  exact hfold (knownNodes records) []

/-- For observations without references only the revision chain is checked. -/
theorem recordSemanticDiagnostics_eq_nil_iff (h : Plain candidate)
    (hrecords : ∀ record ∈ records, Plain record) :
    recordSemanticDiagnostics candidate records = .ok [] ↔
      (∃ item ∈ sameLogicalId candidate records, identity item = identity candidate) ∨
        checkRevision candidate (sameLogicalId candidate records) = .ok [] := by
  have hwork : workSemanticDiagnostics candidate (sameLogicalId candidate records) = .ok [] := by
    obtain ⟨outcome, hdetails⟩ := h.details
    have hfollows : followsWorkProtocol candidate = false := by
      rw [followsWorkProtocol, hdetails]
      rfl
    simp [workSemanticDiagnostics, hfollows, pure, Except.pure]
  have hbindings : checkBindings candidate records = .ok [] := by
    rw [checkBindings, Protocol.referenceBindings, referenceBindings hrecords,
      h.producerReferences]
    rfl
  have hself : checkSelfRelation candidate = .ok [] := by
    rw [checkSelfRelation, relationshipsOf, h.relationships]
    rfl
  have hreplication : checkSelfReplication candidate = .ok [] := by
    rw [checkSelfReplication, h.kind]
    rfl
  have hcycle : checkCycle (records ++ [candidate]) = .ok [] := by
    rw [checkCycle, relationEdges]
    · rfl
    · intro record hrecord
      rcases List.mem_append.mp hrecord with hold | hnew
      · exact hrecords record hold
      · rwa [List.mem_singleton.mp hnew]
  rw [recordSemanticDiagnostics]
  by_cases hsame : ∃ item ∈ sameLogicalId candidate records, identity item = identity candidate
  · have hany : ((sameLogicalId candidate records).any fun item =>
        identity item = identity candidate) = true := by simpa using hsame
    simp [hany, hsame]
  · have hany : ((sameLogicalId candidate records).any fun item =>
        identity item = identity candidate) = false := by simpa using hsame
    simp [hany, hsame, concatChecks_eq_nil_iff, hwork, hbindings, hself, hreplication, hcycle]

protected theorem sortKeys (h : Plain candidate) : Plain (Fields.sortKeys candidate) where
  kind := by rw [Fields.get_sortKeys, h.kind, Json.sortKeys_str]
  relationships := by
    rw [Fields.get?_sortKeys, h.relationships]
    rfl
  details := by
    obtain ⟨outcome, hdetails⟩ := h.details
    exact ⟨outcome, by rw [Fields.get_sortKeys, hdetails]; rfl⟩

protected theorem canonFields (h : Plain candidate) : Plain (canonFields candidate) where
  kind := by rw [get_canonFields_of_inert (by decide), h.kind, Json.sortKeys_str]
  relationships := by
    rw [Protocol.canonFields, Fields.get?_sortKeys, get?_canonicalizeFields, h.relationships]
    rfl
  details := by
    obtain ⟨outcome, hdetails⟩ := h.details
    exact ⟨outcome, by rw [get_canonFields_of_inert (by decide), hdetails]; rfl⟩

end Plain

end MncsCommons.Protocol
