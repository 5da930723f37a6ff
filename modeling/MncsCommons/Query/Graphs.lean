/-
# Bounded graphs

The traversal of typed relationships in both directions, with a bound on the
depth and one on the number of records.  Edges lead from the record that states a
relationship to whatever its target names, which may be nothing, and are followed
either way.

What is shown is that the bound on the number of records only cuts the traversal
short: there is one order of the records within the depth, nearest first, and a
graph holds the first of them and is truncated exactly when there are more.
-/

import MncsCommons.Bundle.Names
import MncsCommons.Data.Breadth
import MncsCommons.Data.Checks
import Mathlib.Data.List.Perm.Subperm
import Mathlib.Data.Prod.Lex

namespace MncsCommons.Query

open MncsCommons.Data MncsCommons.Protocol MncsCommons.Bundle

/-! ## Edges -/

structure GraphEdge where
  source : String
  target : String
  type : String
  deriving DecidableEq

structure GraphTraversal where
  records : List Fields
  edges : List GraphEdge
  unresolved : List String
  truncated : Bool

/-- The edges that a record states. -/
def recordEdges (record : Fields) : Py (List GraphEdge) := do
  let relations ← iterate ((Fields.get? record "relationships").getD (.arr []))
  return relations.filterMap fun relation => relation.obj?.map fun fields =>
    ⟨recordRef record, ((Fields.get? fields "target").getD (.str "")).pyStr,
      ((Fields.get? fields "type").getD (.str "")).pyStr⟩

/-- The digests next to a node: at the other end of an edge whose target is a record. -/
def adjacent (names : List (String × Fields)) (rows : List GraphEdge) (node : String) :
    List String :=
  sortedBy id (rows.flatMap fun edge =>
    match Fields.get? names edge.target with
    | none => []
    | some resolved =>
        (if edge.source = node then [recordRef resolved] else []) ++
          if recordRef resolved = node then [edge.source] else []).eraseDups

/-! ## The traversal -/

/-- What a node puts into the queue: the nodes next to it, unless it is as deep as allowed. -/
def further (next : String → List String) (maxDepth : Nat) (node : String) (depth : Nat) :
    List (String × Nat) :=
  (if depth < maxDepth then next node else []).map fun item => (item, depth + 1)

/-- The loop over the queue: the selected nodes, and whether one more was found.  The set `seen`
holds the selected nodes. -/
def selectNodes (next : String → List String) (maxDepth maxNodes : Nat) (selected : List String) :
    List (String × Nat) → List String × Bool
  | [] => (selected, false)
  | (node, depth) :: queue =>
      if selected.contains node then selectNodes next maxDepth maxNodes selected queue
      else if maxNodes ≤ selected.length then (selected, true)
      else selectNodes next maxDepth maxNodes (selected ++ [node])
        (queue ++ further next maxDepth node depth)
  termination_by queue => (maxNodes - selected.length, queue.length)
  decreasing_by
    · exact Prod.Lex.right _ (Nat.lt_succ_self _)
    · apply Prod.Lex.left
      rw [List.length_append, List.length_singleton]
      omega

/-- The key that the records of a graph are sorted by. -/
def graphKey (record : Fields) : String :=
  ((Fields.get? record "contentDigest").getD (.str "")).pyStr

/-- `by_ref[node]`. -/
def lookUp (names : List (String × Fields)) (node : String) : Py Fields :=
  match Fields.get? names node with
  | some record => .ok record
  | none => .error (.keyError node)

/-- `bounded_graph`. -/
def boundedGraph (records : List Fields) (roots : List String) (maxDepth maxNodes : Int) :
    Py GraphTraversal := do
  raiseIf (decide (maxDepth < 0) || decide (maxNodes < 1))
    (.valueError "graph bounds must be non-negative depth and positive node count")
  let names := byReference records
  let edges ← collect recordEdges records
  let rows := sortedBy (fun edge => toLex (edge.source, toLex (edge.type, edge.target)))
    edges.flatten
  let digests := sortedBy id (roots.filterMap (resolveDigest records)).eraseDups
  let (selected, truncated) := selectNodes (adjacent names edges.flatten) maxDepth.toNat
    maxNodes.toNat [] (digests.map fun item => (item, 0))
  let found ← collect (lookUp names) selected
  return {
    records := sortedBy graphKey found
    edges := rows.filter fun edge => selected.contains edge.source ||
      (selected.contains edge.target && Fields.has names edge.target)
    unresolved := sortedBy id ((edges.flatten.map GraphEdge.target).filter fun target =>
      !Fields.has names target).eraseDups
    truncated }

/-! ## Distances -/

/-- A record of the first digest states a relationship to a record of the second. -/
def States (records : List Fields) (source target : String) : Prop :=
  ∃ record ∈ records, ∃ edges, recordEdges record = .ok edges ∧ ∃ edge ∈ edges,
    edge.source = source ∧ ∃ named, Resolves records edge.target named ∧ recordRef named = target

/-- A relationship joins the records, in either direction. -/
def Joined (records : List Fields) (digest other : String) : Prop :=
  States records digest other ∨ States records other digest

/-- So many relationships lead to the record from a root. -/
abbrev AtHops (records : List Fields) (roots : List String) : Nat → String → Prop :=
  Breadth.Hops (Rooted records roots) (Joined records)

theorem mem_adjacent_iff {records : List Fields} {edges : List (List GraphEdge)}
    (h : collect recordEdges records = .ok edges) {node other : String} :
    other ∈ adjacent (byReference records) edges.flatten node ↔ Joined records node other := by
  have stated : ∀ source target : String, States records source target ↔
      ∃ edge ∈ edges.flatten, edge.source = source ∧
        ∃ named, Fields.get? (byReference records) edge.target = some named ∧
          recordRef named = target := by
    intro source target
    simp only [States, List.mem_flatten, mem_collect h, get?_byReference, Resolves]
    constructor
    · rintro ⟨record, hrecord, list, hlist, edge, hedge, hsource, hnamed⟩
      exact ⟨edge, ⟨list, ⟨record, hrecord, hlist⟩, hedge⟩, hsource, hnamed⟩
    · rintro ⟨edge, ⟨list, ⟨record, hrecord, hlist⟩, hedge⟩, hsource, hnamed⟩
      exact ⟨record, hrecord, list, hlist, edge, hedge, hsource, hnamed⟩
  rw [Joined, stated, stated, adjacent, mem_sortedBy, List.mem_eraseDups, List.mem_flatMap,
    ← exists_or]
  apply exists_congr
  intro edge
  rw [← and_or_left]
  apply and_congr_right
  intro _
  cases Fields.get? (byReference records) edge.target with
  | none => simp
  | some named =>
      by_cases hsource : edge.source = node <;> by_cases hnamed : recordRef named = node <;>
        simp [hsource, hnamed, eq_comm (a := other)]

/-! ## The loop -/

section Loop

variable {next : String → List String} {first : String → Prop} {step : String → String → Prop}
  {bound : Nat} {selected : List String} {queue : List (String × Nat)}

/-- The loop is a breadth-first search, which has come to its end unless it was cut short. -/
theorem exists_search (limit : Nat) (hnext : ∀ node other, step node other ↔ other ∈ next node)
    {marks : List (String × Nat)} (hselected : selected = marks.map Prod.fst)
    (h : Breadth.Search some first step bound marks queue) :
    ∃ marks rest, (selectNodes next bound limit selected queue).1 = marks.map Prod.fst ∧
      Breadth.Search some first step bound marks rest ∧
      ((selectNodes next bound limit selected queue).2 = false → rest = []) := by
  fun_induction selectNodes next bound limit selected queue generalizing marks with
  | case1 selected => exact ⟨marks, [], hselected, h, fun _ => rfl⟩
  | case2 selected node depth queue hseen ih =>
      apply ih hselected
      apply h.drop
      intro other hother
      rw [← Option.some.inj hother, ← hselected]
      exact List.contains_iff_mem.mp hseen
  | case3 selected node depth queue hnew hfull =>
      exact ⟨marks, _, hselected, h, fun hcut => (nomatch hcut)⟩
  | case4 selected node depth queue hnew hroom ih =>
      have unseen : node ∉ marks.map Prod.fst := by
        rw [← hselected]
        exact fun hmem => hnew (List.contains_iff_mem.mpr hmem)
      refine ih (?_ : _ = (marks ++ [(node, depth)]).map Prod.fst) ?_
      · rw [List.map_append, hselected]
        rfl
      · apply h.visit rfl unseen
        · intro hbound other
          rw [if_pos hbound, hnext]
          simp
        · intro hbound
          exact if_neg hbound

/-- The loop only adds to what is selected. -/
theorem prefix_selectNodes (next : String → List String) (bound limit : Nat)
    (selected : List String) (queue : List (String × Nat)) :
    selected <+: (selectNodes next bound limit selected queue).1 := by
  fun_induction selectNodes next bound limit selected queue with
  | case1 => exact List.prefix_refl _
  | case2 _ _ _ _ _ ih => exact ih
  | case3 => exact List.prefix_refl _
  | case4 _ _ _ _ _ _ ih => exact (List.prefix_append _ _).trans ih

theorem le_length_of_truncated {limit : Nat}
    (h : (selectNodes next bound limit selected queue).2 = true) :
    limit ≤ (selectNodes next bound limit selected queue).1.length := by
  fun_induction selectNodes next bound limit selected queue with
  | case1 => cases h
  | case2 _ _ _ _ _ ih => exact ih h
  | case3 _ _ _ _ _ hfull => exact hfull
  | case4 _ _ _ _ _ _ ih => exact ih h

/-- A smaller limit selects the first of what a larger one does, and truncates what is longer. -/
theorem selectNodes_of_le {fewer limit : Nat} (hle : fewer ≤ limit)
    (hselected : selected.length ≤ fewer) :
    selectNodes next bound fewer selected queue =
      ((selectNodes next bound limit selected queue).1.take fewer,
        (selectNodes next bound limit selected queue).2 ||
          decide (fewer < (selectNodes next bound limit selected queue).1.length)) := by
  fun_induction selectNodes next bound limit selected queue with
  | case1 selected =>
      rw [selectNodes, List.take_of_length_le hselected]
      simp [hselected]
  | case2 selected node depth queue hseen ih =>
      rw [selectNodes, if_pos hseen, ih hselected]
  | case3 selected node depth queue hnew hfull =>
      rw [selectNodes, if_neg hnew, if_pos (hle.trans hfull), List.take_of_length_le hselected]
      rfl
  | case4 selected node depth queue hnew hroom ih =>
      by_cases hfull : fewer ≤ selected.length
      · have same : fewer = selected.length := le_antisymm hfull hselected
        obtain ⟨later, hlater⟩ := prefix_selectNodes next bound limit (selected ++ [node])
          (queue ++ further next bound node depth)
        rw [selectNodes, if_neg hnew, if_pos hfull, ← hlater, same, List.append_assoc,
          List.take_left]
        simp
      · rw [selectNodes, if_neg hnew, if_neg hfull]
        apply ih
        rw [List.length_append, List.length_singleton]
        omega

end Loop

/-! ## The graph -/

/-- No record has another record's digest as its identifier. -/
def Unclashing (records : List Fields) : Prop :=
  ∀ record ∈ records, ∀ other ∈ records,
    recordName other = some (recordRef record) → recordRef other = recordRef record

/-- The digest of a record at most so many relationships from a root. -/
def WithinHops (records : List Fields) (roots : List String) (maxDepth : Nat) (digest : String) :
    Prop :=
  ∃ hops ≤ maxDepth, AtHops records roots hops digest

/-- The first record is no further from the roots than the second. -/
def NoFurther (records : List Fields) (roots : List String) (digest other : String) : Prop :=
  ∀ hops, AtHops records roots hops other → ∃ fewer ≤ hops, AtHops records roots fewer digest

section Graph

variable {records : List Fields} {roots : List String}

theorem source_of_mem_recordEdges {record : Fields} {edges : List GraphEdge}
    (h : recordEdges record = .ok edges) {edge : GraphEdge} (hedge : edge ∈ edges) :
    edge.source = recordRef record := by
  obtain ⟨relations, -, h⟩ := Py.bind_eq_ok_iff.mp h
  obtain rfl := Except.ok.inj h
  obtain ⟨relation, -, hrelation⟩ := List.mem_filterMap.mp hedge
  obtain ⟨fields, -, rfl⟩ := Option.map_eq_some_iff.mp hrelation
  rfl

theorem States.mem_left {source target : String} (h : States records source target) :
    source ∈ records.map recordRef := by
  obtain ⟨record, hrecord, edges, hedges, edge, hedge, rfl, -⟩ := h
  rw [source_of_mem_recordEdges hedges hedge]
  exact List.mem_map_of_mem hrecord

theorem States.mem_right {source target : String} (h : States records source target) :
    target ∈ records.map recordRef := by
  obtain ⟨_, _, _, _, edge, _, _, named, hnamed, rfl⟩ := h
  exact List.mem_map_of_mem hnamed.mem

/-- What is some hops away is a record. -/
theorem mem_of_atHops {hops : Nat} {digest : String} (h : AtHops records roots hops digest) :
    digest ∈ records.map recordRef := by
  cases h with
  | first hrooted =>
      obtain ⟨_, _, record, hrecord, rfl⟩ := hrooted
      exact List.mem_map_of_mem hrecord.mem
  | hop _ hjoined => exact hjoined.elim States.mem_right States.mem_left

/-- A digest names a record of that digest. -/
theorem Unclashing.get?_byReference (h : Unclashing records) {digest : String}
    (hdigest : digest ∈ records.map recordRef) :
    ∃ record ∈ records, Fields.get? (byReference records) digest = some record ∧
      recordRef record = digest := by
  obtain ⟨record, hrecord, rfl⟩ := List.mem_map.mp hdigest
  have found : (records.reverse.find? (namedBy (recordRef record))).isSome := by
    rw [List.find?_isSome]
    exact ⟨record, List.mem_reverse.mpr hrecord, by simp [namedBy]⟩
  obtain ⟨named, hnamed⟩ := Option.isSome_iff_exists.mp found
  have resolves : Resolves records (recordRef record) named := hnamed
  refine ⟨named, resolves.mem, (Bundle.get?_byReference _ _).trans hnamed, ?_⟩
  have hname := resolves.named
  rw [namedBy, Bool.or_eq_true, decide_eq_true_eq, decide_eq_true_eq] at hname
  rcases hname with hsame | hid
  · exact hsame
  · exact h record hrecord named resolves.mem hid

/-- There is one order of the records within the depth, nearest first, of which every limit selects
the first ones. -/
theorem exists_order (roots : List String) {edges : List (List GraphEdge)}
    (h : collect recordEdges records = .ok edges)
    (maxDepth : Nat) :
    ∃ order : List String, order.Nodup ∧
      (∀ digest, digest ∈ order ↔ WithinHops records roots maxDepth digest) ∧
      order.Pairwise (NoFurther records roots) ∧
      ∀ maxNodes, selectNodes (adjacent (byReference records) edges.flatten) maxDepth maxNodes []
        ((sortedBy id (roots.filterMap (resolveDigest records)).eraseDups).map fun item =>
          (item, 0)) = (order.take maxNodes, decide (maxNodes < order.length)) := by
  set next := adjacent (byReference records) edges.flatten with hnext
  set queue := (sortedBy id (roots.filterMap (resolveDigest records)).eraseDups).map
    fun item => (item, 0) with hqueue
  have init : Breadth.Search some (Rooted records roots) (Joined records) maxDepth [] queue := by
    rw [hqueue]
    apply Breadth.Search.init
    intro digest
    simp [Rooted, resolveDigest_eq_some_iff]
  have joined : ∀ node other, Joined records node other ↔ other ∈ next node :=
    fun node other => (mem_adjacent_iff h).symm
  have start : ([] : List String) = ([] : List (String × Nat)).map Prod.fst := rfl
  have bounded : ∀ limit, (selectNodes next maxDepth limit [] queue).1.length ≤ records.length := by
    intro limit
    obtain ⟨marks, rest, hselected, hsearch, -⟩ := exists_search limit joined start init
    have sub : marks.map Prod.fst ⊆ records.map recordRef := by
      intro digest hdigest
      obtain ⟨mark, hmark, rfl⟩ := List.mem_map.mp hdigest
      exact mem_of_atHops (hsearch.met mark hmark).2
    have short := (List.subperm_of_subset hsearch.nodup sub).length_le
    rw [List.length_map recordRef] at short
    rwa [← hselected] at short
  -- a limit above the number of records is never reached
  have complete : ∀ limit, records.length < limit →
      (selectNodes next maxDepth limit [] queue).2 = false := by
    intro limit hlimit
    by_contra hcut
    rw [Bool.not_eq_false] at hcut
    exact absurd ((le_length_of_truncated hcut).trans (bounded limit)) (Nat.not_le.mpr hlimit)
  obtain ⟨marks, rest, hselected, hsearch, hend⟩ :=
    exists_search (records.length + 1) joined start init
  obtain rfl := hend (complete _ (Nat.lt_succ_self _))
  refine ⟨marks.map Prod.fst, hsearch.nodup, fun digest => hsearch.mem_iff, ?_, ?_⟩
  · rw [List.pairwise_map]
    refine (List.Pairwise.and_mem.mp hsearch.ordered).imp ?_
    rintro earlier later ⟨hearlier, hlater, hle⟩ hops hhops
    exact ⟨earlier.2, hle.trans (hsearch.le_of_hops hlater hhops), (hsearch.met _ hearlier).2⟩
  · intro maxNodes
    rcases Nat.le_total maxNodes (records.length + 1) with few | many
    · rw [selectNodes_of_le few (Nat.zero_le _), complete _ (Nat.lt_succ_self _), hselected,
        Bool.false_or]
    · have short := bounded maxNodes
      have same : selectNodes next maxDepth (records.length + 1) [] queue = _ :=
        selectNodes_of_le many (Nat.zero_le _)
      rw [List.take_of_length_le (short.trans (Nat.le_succ _))] at same
      have order : (selectNodes next maxDepth maxNodes [] queue).1 = marks.map Prod.fst := by
        rw [← hselected, same]
      rw [← order, List.take_of_length_le (by omega), decide_eq_false (by omega)]
      exact Prod.ext rfl (complete _ many)

/-- Looking up the selected digests returns their records. -/
theorem exists_collect_records (hclash : Unclashing records) {digests : List String}
    (h : ∀ digest ∈ digests, digest ∈ records.map recordRef) :
    ∃ found, collect (lookUp (byReference records)) digests = .ok found ∧
      found.map recordRef = digests ∧ ∀ record ∈ found, record ∈ records := by
  induction digests with
  | nil => exact ⟨[], rfl, rfl, by simp⟩
  | cons digest digests ih =>
      obtain ⟨record, hrecord, hnamed, hdigest⟩ :=
        hclash.get?_byReference (h digest List.mem_cons_self)
      obtain ⟨found, hfound, hmap, hmem⟩ :=
        ih fun other hother => h other (List.mem_cons_of_mem _ hother)
      refine ⟨record :: found, ?_, ?_, ?_⟩
      · rw [collect, lookUp, hnamed, hfound]
        rfl
      · rw [List.map_cons, hdigest, hmap]
      · exact List.forall_mem_cons.mpr ⟨hrecord, hmem⟩

end Graph

/-- With records whose relationships can be read and whose identifiers are no other record's
digest, there is one order of the records within the depth, nearest first, and a graph of so many
records holds the first of them and is truncated exactly when there are more. -/
theorem bounded_graph_exact {records : List Fields}
    (hreadable : ∀ record ∈ records, ∃ edges, recordEdges record = .ok edges)
    (hclash : Unclashing records) (roots : List String) (maxDepth : Nat) :
    ∃ order : List String, order.Nodup ∧
      (∀ digest, digest ∈ order ↔ WithinHops records roots maxDepth digest) ∧
      order.Pairwise (NoFurther records roots) ∧
      ∀ maxNodes : Nat, 1 ≤ maxNodes → ∃ traversal,
        boundedGraph records roots maxDepth maxNodes = .ok traversal ∧
        (traversal.records.map recordRef).Perm (order.take maxNodes) ∧
        (∀ record ∈ traversal.records, record ∈ records) ∧
        (traversal.truncated = true ↔ maxNodes < order.length) := by
  obtain ⟨edges, hedges⟩ := exists_collect hreadable
  obtain ⟨order, hnodup, hmem, hordered, hselect⟩ := exists_order roots hedges maxDepth
  refine ⟨order, hnodup, hmem, hordered, fun maxNodes hpositive => ?_⟩
  have known : ∀ digest ∈ order.take maxNodes, digest ∈ records.map recordRef := by
    intro digest hdigest
    obtain ⟨hops, -, hhops⟩ := (hmem digest).mp (List.mem_of_mem_take hdigest)
    exact mem_of_atHops hhops
  obtain ⟨found, hfound, hmap, hkept⟩ := exists_collect_records hclash known
  have bounds : (decide ((maxDepth : Int) < 0) || decide ((maxNodes : Int) < 1)) = false := by
    rw [Bool.or_eq_false_iff, decide_eq_false_iff_not, decide_eq_false_iff_not]
    omega
  obtain ⟨shown, unresolved, hgraph⟩ : ∃ shown unresolved,
      boundedGraph records roots maxDepth maxNodes =
        .ok ⟨sortedBy graphKey found, shown, unresolved, decide (maxNodes < order.length)⟩ := by
    rw [boundedGraph, raiseIf, bounds, if_neg Bool.false_ne_true, ok_bind, hedges, ok_bind]
    simp only [Int.toNat_natCast, hselect]
    rw [hfound]
    exact ⟨_, _, rfl⟩
  refine ⟨_, hgraph, ?_, ?_, decide_eq_true_iff⟩
  · rw [← hmap]
    exact (sortedBy_perm graphKey found).map recordRef
  · intro record hrecord
    exact hkept record (mem_sortedBy.mp hrecord)

/-- Two records that cite each other. -/
def citingRecords : List Fields :=
  [[("contentDigest", .str "a"), ("relationships", .arr [.obj [("target", .str "b"),
      ("type", .str "cites")]])],
    [("contentDigest", .str "b"), ("relationships", .arr [.obj [("target", .str "a"),
      ("type", .str "cites")]])]]

/-- The traversal of a cycle ends, cut short by its limit. -/
theorem citing_graph_exact :
    ∃ (order : List String) (traversal : GraphTraversal), order.Nodup ∧
      boundedGraph citingRecords ["a"] (1 : Nat) (1 : Nat) = .ok traversal ∧
      (traversal.records.map recordRef).Perm (order.take 1) ∧
      (traversal.truncated = true ↔ 1 < order.length) := by
  have readable : ∀ record ∈ citingRecords, ∃ edges, recordEdges record = .ok edges := by
    intro record hrecord
    rcases List.mem_pair.mp hrecord with rfl | rfl <;> exact ⟨_, rfl⟩
  have unclashing : Unclashing citingRecords := by
    unfold Unclashing
    decide
  obtain ⟨order, hnodup, -, -, hgraph⟩ := bounded_graph_exact readable unclashing ["a"] 1
  obtain ⟨traversal, hrun, hperm, -, htruncated⟩ := hgraph 1 le_rfl
  exact ⟨order, traversal, hnodup, hrun, hperm, htruncated⟩

end MncsCommons.Query
