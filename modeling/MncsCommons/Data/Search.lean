/-
# Depth-first search for a cycle

A search that keeps the nodes it is below and the nodes it is done with, and
fails when it meets a node it is below.  Every level enters a node that no outer
level has entered, so with one level more than there are sources the fuel never
runs out, and the search fails exactly when the graph has a directed cycle
(`search_isNone_iff`).
-/

import Mathlib.Data.List.Nodup
import Mathlib.Data.List.Perm.Subperm
import Mathlib.Logic.Relation

namespace MncsCommons.Data.Search

universe u

variable {α : Type u}

/-- Visit nodes in order, threading the finished ones through. -/
def visitAll (visitOne : List α → α → Option (List α)) : List α → List α → Option (List α)
  | visited, [] => some visited
  | visited, node :: nodes =>
      match visitOne visited node with
      | none => none
      | some visited => visitAll visitOne visited nodes

/-- Visit a node below the ones in `visiting`: none when a cycle is found, else the
finished nodes. -/
def visit [DecidableEq α] (successors : α → List α) :
    Nat → List α → List α → α → Option (List α)
  | 0, _, _, _ => none
  | fuel + 1, visiting, visited, node =>
      if visiting.contains node then none
      else if visited.contains node then some visited
      else
        (visitAll (visit successors fuel (node :: visiting)) visited (successors node)).map
          (node :: ·)

/-- One node is a successor of another. -/
def Step (successors : α → List α) (node next : α) : Prop := next ∈ successors node

/-- Nodes that the search is done with: closed under successors and on no cycle. -/
structure Finished (successors : α → List α) (visited : List α) : Prop where
  closed : ∀ node ∈ visited, ∀ next ∈ successors node, next ∈ visited
  acyclic : ∀ node ∈ visited, ¬ Relation.TransGen (Step successors) node node

variable {successors : α → List α} {visited after nodes : List α} {node : α}

theorem finished_nil (successors : α → List α) : Finished successors [] :=
  ⟨by simp, by simp⟩

theorem Finished.reachable (h : Finished successors visited) {next : α}
    (hnode : node ∈ visited) (hpath : Relation.ReflTransGen (Step successors) node next) :
    next ∈ visited := by
  induction hpath with
  | refl => exact hnode
  | tail _ hstep ih => exact h.closed _ ih _ hstep

/-- A node whose successors are all finished is finished. -/
theorem Finished.cons (h : Finished successors visited)
    (hnext : ∀ next ∈ successors node, next ∈ visited) : Finished successors (node :: visited) where
  closed := by
    rintro other (_ | ⟨_, hother⟩) next hstep
    · exact List.mem_cons_of_mem _ (hnext next hstep)
    · exact List.mem_cons_of_mem _ (h.closed other hother next hstep)
  acyclic := by
    rintro other (_ | ⟨_, hother⟩) hcycle
    · -- the cycle leads through a finished successor back to the node
      obtain ⟨next, hstep, hback⟩ := Relation.TransGen.head'_iff.mp hcycle
      exact h.acyclic node (h.reachable (hnext next hstep) hback) hcycle
    · exact h.acyclic other hother hcycle

/-! ## A search that finds no cycle -/

theorem finished_of_visitAll {visitOne : List α → α → Option (List α)}
    (hone : ∀ {visited after node}, Finished successors visited →
      visitOne visited node = some after →
        Finished successors after ∧ node ∈ after ∧ visited ⊆ after)
    (hvisited : Finished successors visited) (h : visitAll visitOne visited nodes = some after) :
    Finished successors after ∧ nodes ⊆ after ∧ visited ⊆ after := by
  induction nodes generalizing visited with
  | nil =>
      obtain rfl := Option.some.inj h
      exact ⟨hvisited, List.nil_subset _, fun _ => id⟩
  | cons node nodes ih =>
      rw [visitAll] at h
      split at h
      · cases h
      · next middle hmiddle =>
        obtain ⟨hfinished, hnode, hsubset⟩ := hone hvisited hmiddle
        obtain ⟨hafter, hnodes, hrest⟩ := ih hfinished h
        exact ⟨hafter, List.cons_subset.mpr ⟨hrest hnode, hnodes⟩, List.Subset.trans hsubset hrest⟩

variable [DecidableEq α] {fuel : Nat} {visiting sources : List α}

theorem finished_of_visit (hvisited : Finished successors visited)
    (h : visit successors fuel visiting visited node = some after) :
    Finished successors after ∧ node ∈ after ∧ visited ⊆ after := by
  induction fuel generalizing visiting visited node after with
  | zero => cases h
  | succ fuel ih =>
      rw [visit] at h
      split at h
      · cases h
      · split at h
        · next hmem =>
          obtain rfl := Option.some.inj h
          exact ⟨hvisited, List.contains_iff_mem.mp hmem, fun _ => id⟩
        · obtain ⟨below, hbelow, rfl⟩ := Option.map_eq_some_iff.mp h
          obtain ⟨hfinished, hnext, hsubset⟩ :=
            finished_of_visitAll (fun hvisited h => ih hvisited h) hvisited hbelow
          exact ⟨hfinished.cons fun next hstep => hnext hstep, List.mem_cons_self,
            List.Subset.trans hsubset (List.subset_cons_self _ _)⟩

/-! ## A search that finds one -/

omit [DecidableEq α] in
theorem exists_of_visitAll_eq_none {visitOne : List α → α → Option (List α)}
    (h : visitAll visitOne visited nodes = none) :
    ∃ node ∈ nodes, ∃ visited, visitOne visited node = none := by
  induction nodes generalizing visited with
  | nil => cases h
  | cons node nodes ih =>
      rw [visitAll] at h
      split at h
      · next hnone => exact ⟨node, List.mem_cons_self, visited, hnone⟩
      · obtain ⟨other, hother, hnone⟩ := ih h
        exact ⟨other, List.mem_cons_of_mem _ hother, hnone⟩

/-- The nodes above are sources that lead to the node, and the fuel covers the
sources that are not above. -/
theorem cycle_of_visit_eq_none (hsources : ∀ node, successors node ≠ [] → node ∈ sources)
    (hreach : ∀ above ∈ visiting, Relation.TransGen (Step successors) above node)
    (hnodup : visiting.Nodup) (hsubset : visiting ⊆ sources)
    (hfuel : sources.length < fuel + visiting.length)
    (h : visit successors fuel visiting visited node = none) :
    ∃ node, Relation.TransGen (Step successors) node node := by
  induction fuel generalizing visiting visited node with
  | zero =>
      have hlength := (List.subperm_of_subset hnodup hsubset).length_le
      omega
  | succ fuel ih =>
      rw [visit] at h
      split at h
      · next hmem => exact ⟨node, hreach node (List.contains_iff_mem.mp hmem)⟩
      · next hnot =>
        split at h
        · cases h
        · obtain ⟨next, hstep, middle, hnone⟩ :=
            exists_of_visitAll_eq_none (Option.map_eq_none_iff.mp h)
          have hnode : node ∈ sources := hsources node (List.ne_nil_of_mem hstep)
          refine ih ?_ ?_ ?_ ?_ hnone
          · rintro above (_ | ⟨_, habove⟩)
            · exact .single hstep
            · exact (hreach above habove).tail hstep
          · exact List.nodup_cons.mpr ⟨fun hmem => hnot (List.contains_iff_mem.mpr hmem), hnodup⟩
          · exact List.cons_subset.mpr ⟨hnode, hsubset⟩
          · simp only [List.length_cons]
            omega

/-! ## The search -/

/-- A search from all sources fails exactly when the graph has a directed cycle. -/
theorem search_isNone_iff (hsources : ∀ node, successors node ≠ [] → node ∈ sources)
    (hfuel : sources.length < fuel) :
    (visitAll (visit successors fuel []) [] sources).isNone = true ↔
      ∃ node, Relation.TransGen (Step successors) node node := by
  rw [Option.isNone_iff_eq_none]
  constructor
  · intro h
    obtain ⟨node, -, visited, hnone⟩ := exists_of_visitAll_eq_none h
    exact cycle_of_visit_eq_none hsources (by simp) List.nodup_nil (List.nil_subset _)
      (by simpa using hfuel) hnone
  · rintro ⟨node, hcycle⟩
    cases hsearch : visitAll (visit successors fuel []) [] sources with
    | none => rfl
    | some visited =>
        obtain ⟨hfinished, hnodes, -⟩ := finished_of_visitAll
          (fun hvisited h => finished_of_visit hvisited h) (finished_nil successors) hsearch
        obtain ⟨next, hstep, -⟩ := Relation.TransGen.head'_iff.mp hcycle
        have hnode := hnodes (hsources node (List.ne_nil_of_mem hstep))
        exact absurd hcycle (hfinished.acyclic node hnode)

end MncsCommons.Data.Search
