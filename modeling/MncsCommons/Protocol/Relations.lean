/-
# The relation graph

The cycle search of the store is the depth-first search, so it reports exactly
the graphs with a directed cycle (`hasCycle_iff`).  The graph of the records is
read from their identities and relations only, and both are the same before and
after the keys of a record are sorted (`relationEdges_append_sortKeys`).
-/

import MncsCommons.Data.Search
import MncsCommons.Protocol.Revisions

namespace MncsCommons.Protocol

open MncsCommons.Data

/-! ## The search -/

/-- The graph has a directed cycle. -/
def Edges.Cyclic (edges : Edges) : Prop :=
  ∃ node, Relation.TransGen (Search.Step edges.targets) node node

theorem visitAll_eq (visitOne : List String → String → Option (List String))
    (visited nodes : List String) :
    visitAll visitOne visited nodes = Search.visitAll visitOne visited nodes := by
  induction nodes generalizing visited with
  | nil => rfl
  | cons node nodes ih =>
      rw [visitAll, Search.visitAll]
      cases visitOne visited node with
      | none => rfl
      | some visited => exact ih visited

/-- The search of the store is the depth-first search. -/
theorem visit_eq (edges : Edges) (fuel : Nat) (visiting visited : List String) (node : String) :
    visit edges fuel visiting visited node =
      Search.visit edges.targets fuel visiting visited node := by
  induction fuel generalizing visiting visited node with
  | zero => rfl
  | succ fuel ih =>
      have hbelow : visit edges fuel (node :: visiting) =
          Search.visit edges.targets fuel (node :: visiting) := by
        funext visited next
        exact ih _ visited next
      rw [visit, Search.visit, hbelow, visitAll_eq]

/-- Only sources have successors. -/
theorem mem_sources_of_targets_ne_nil {edges : Edges} {node : String}
    (h : edges.targets node ≠ []) : node ∈ edges.map Prod.fst := by
  rw [Edges.targets] at h
  cases hlookup : edges.lookup node with
  | none => simp [hlookup] at h
  | some targets =>
      obtain ⟨before, after, rfl, -⟩ := List.lookup_eq_some_iff.mp hlookup
      simp

/-- The search reports a cycle exactly when there is one. -/
theorem hasCycle_iff {edges : Edges} : hasCycle edges = true ↔ edges.Cyclic := by
  have hvisit : visit edges (edges.length + 2) [] =
      Search.visit edges.targets (edges.length + 2) [] := by
    funext visited node
    exact visit_eq _ _ _ _ _
  rw [hasCycle, visitAll_eq, hvisit]
  exact Search.search_isNone_iff (fun _ => mem_sources_of_targets_ne_nil) (by simp)

/-! ## The graph of the records -/

/-- The edges with those of one more record. -/
def addRelations (known : List (String × String)) (edges : Edges) (record : Fields) : Py Edges := do
  let relations ← relationshipsOf record
  relations.foldlM (fun edges relation => do
    match ← orderingTarget known relation with
    | none => return edges
    | some target => return edges.add (identity record) target) edges

theorem relationEdges_eq (records : List Fields) :
    relationEdges records = records.foldlM (addRelations (knownNodes records)) [] := rfl

theorem orderingTarget_sortKeys (known : List (String × String)) {recordId relation : Json}
    (h : RelationshipOk recordId relation) :
    orderingTarget known relation.sortKeys = orderingTarget known relation := by
  obtain ⟨fields, rfl, -, htext, -⟩ := h
  cases htarget : Fields.get fields "target" with
  | str target =>
      rw [Json.sortKeys_obj_eq]
      simp only [orderingTarget, Json.obj?, Fields.get_sortKeys, inSet_sortKeys, htarget,
        Json.sortKeys_str]
  | _ => simp [htarget, isText] at htext

section SortKeys

variable {record : Fields}

/-- A valid record and its relations. -/
theorem exists_relationships (h : validateRecord record = .ok []) :
    ∃ items, Fields.get? record "relationships" = some (.arr items) ∧
      ∀ item ∈ items, RelationshipOk (recordIdOf record) item := by
  have hrecord := (validateRecord_eq_nil_iff.mp h).1
  rw [recordDiagnostics, concatChecks_eq_nil_iff] at hrecord
  have hcommon := hrecord (commonRecordChecks record) (by simp)
  rw [commonRecordChecks, concatChecks_eq_nil_iff] at hcommon
  obtain ⟨items, hitems, hok⟩ := checkRelationships_eq_nil_iff.mp
    (hcommon (checkRelationships (Fields.get record "relationships") (recordIdOf record)) (by simp))
  exact ⟨items, Fields.get?_of_get hitems (by simp), hok⟩

theorem addRelations_sortKeys (h : validateRecord record = .ok [])
    (hidentity : identity (Fields.sortKeys record) = identity record)
    (known : List (String × String)) (edges : Edges) :
    addRelations known edges (Fields.sortKeys record) = addRelations known edges record := by
  obtain ⟨items, hitems, hok⟩ := exists_relationships h
  have hrelations : relationshipsOf record = .ok items := by
    rw [relationshipsOf, hitems]
    rfl
  have hsorted : relationshipsOf (Fields.sortKeys record) = .ok (items.map Json.sortKeys) := by
    rw [relationshipsOf, Fields.get?_sortKeys, hitems]
    simp [iterate]
  rw [addRelations, addRelations, hrelations, hsorted, hidentity]
  simp only [bind, Except.bind]
  clear hitems hrelations hsorted
  induction items generalizing edges with
  | nil => rfl
  | cons item items ih =>
      rw [List.map_cons, List.foldlM_cons, List.foldlM_cons,
        orderingTarget_sortKeys known (hok item List.mem_cons_self)]
      refine congrArg (_ >>= ·) (funext fun edges => ?_)
      exact ih edges fun other hother => hok other (List.mem_cons_of_mem _ hother)

/-- The graph does not change when the keys of the last record are sorted. -/
theorem relationEdges_append_sortKeys (h : validateRecord record = .ok [])
    (hidentity : identity (Fields.sortKeys record) = identity record)
    (hlogical : logicalId (Fields.sortKeys record) = logicalId record) (records : List Fields) :
    relationEdges (records ++ [Fields.sortKeys record]) = relationEdges (records ++ [record]) := by
  have hknown : knownNodes (records ++ [Fields.sortKeys record]) =
      knownNodes (records ++ [record]) := by
    simp [knownNodes, hidentity, hlogical]
  rw [relationEdges_eq, relationEdges_eq, hknown, List.foldlM_append, List.foldlM_append]
  refine congrArg (_ >>= ·) (funext fun edges => ?_)
  rw [List.foldlM_cons, List.foldlM_cons, addRelations_sortKeys h hidentity]

end SortKeys

/-! ## Records in order -/

/-- The supersession and dependency graph of the records has no directed cycle. -/
def Ordered (records : List Fields) : Prop :=
  ∃ edges, relationEdges records = .ok edges ∧ ¬ edges.Cyclic

theorem ordered_nil : Ordered [] :=
  ⟨[], rfl, fun ⟨_, hcycle⟩ => by
    obtain ⟨_, hstep, -⟩ := Relation.TransGen.head'_iff.mp hcycle
    exact nomatch hstep⟩

theorem checkCycle_eq_nil_iff {records : List Fields} :
    checkCycle records = .ok [] ↔ Ordered records := by
  rw [checkCycle, Ordered, Py.bind_eq_ok_iff]
  refine exists_congr fun edges => and_congr_right fun _ => ?_
  rw [reportIf_eq_nil_iff, ← hasCycle_iff, Bool.not_eq_true]

end MncsCommons.Protocol
