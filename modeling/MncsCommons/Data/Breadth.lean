/-
# Breadth-first search

A search that takes references from the front of a queue and puts the references
of a node it has not met before at the back, one hop deeper, as long as the depth
allows it.  References may be dangling, several may name one node, and the graph
may have cycles.

`Search` says what holds of the nodes met so far and of the queue, and the lemmas
below it say that every kind of turn keeps it.  From it: a node is met at its
distance (`Search.le_of_hops`), and what is not met when the search ends is no
closer than anything that was (`Search.exists_queued`); with an empty queue every
node within the depth has been met (`Search.mem_of_hops`).
-/

import Mathlib.Data.List.Nodup

namespace MncsCommons.Data.Breadth

universe u v

variable {ρ : Type u} {ν : Type v}

/-- A walk of so many hops leads to the node from one of the first nodes. -/
inductive Hops (first : ν → Prop) (step : ν → ν → Prop) : Nat → ν → Prop
  | first {node : ν} (h : first node) : Hops first step 0 node
  | hop {hops : Nat} {node next : ν} (h : Hops first step hops node) (hstep : step node next) :
      Hops first step (hops + 1) next

/-- A node is met within a depth, or will be by a reference of that depth. -/
def Covered (resolve : ρ → Option ν) (marks : List (ν × Nat)) (queue : List (ρ × Nat))
    (node : ν) (depth : Nat) : Prop :=
  (∃ met ≤ depth, (node, met) ∈ marks) ∨
    ∃ reference, resolve reference = some node ∧ (reference, depth) ∈ queue

/-- The nodes met so far with their depths, and the references in the queue with theirs. -/
structure Search (resolve : ρ → Option ν) (first : ν → Prop) (step : ν → ν → Prop) (bound : Nat)
    (marks : List (ν × Nat)) (queue : List (ρ × Nat)) : Prop where
  /-- No node is met twice. -/
  nodup : (marks.map Prod.fst).Nodup
  /-- A node met is as many hops away as its depth says. -/
  met : ∀ mark ∈ marks, mark.2 ≤ bound ∧ Hops first step mark.2 mark.1
  /-- So is a node named in the queue. -/
  queued : ∀ entry ∈ queue, entry.2 ≤ bound ∧
    ∀ node, resolve entry.1 = some node → Hops first step entry.2 node
  ordered : marks.Pairwise fun earlier later => earlier.2 ≤ later.2
  /-- The queue spans two depths at most. -/
  level : queue.Pairwise fun earlier later => earlier.2 ≤ later.2 ∧ later.2 ≤ earlier.2 + 1
  before : ∀ mark ∈ marks, ∀ entry ∈ queue, mark.2 ≤ entry.2
  /-- The first nodes are not lost. -/
  firsts : ∀ node, first node → Covered resolve marks queue node 0
  /-- Neither are the nodes next to one that was met. -/
  closed : ∀ mark ∈ marks, mark.2 < bound → ∀ next, step mark.1 next →
    Covered resolve marks queue next (mark.2 + 1)

variable {resolve : ρ → Option ν} {first : ν → Prop} {step : ν → ν → Prop} {bound : Nat}
  {marks : List (ν × Nat)} {queue : List (ρ × Nat)}

namespace Search

/-- The search starts with the roots in the queue. -/
theorem init {roots : List ρ}
    (hroots : ∀ node, first node ↔ ∃ root ∈ roots, resolve root = some node) :
    Search resolve first step bound [] (roots.map fun root => (root, 0)) where
  nodup := List.nodup_nil
  met := by simp
  queued := by
    intro entry hentry
    obtain ⟨root, hroot, rfl⟩ := List.mem_map.mp hentry
    exact ⟨Nat.zero_le _, fun node hnode => .first ((hroots node).mpr ⟨root, hroot, hnode⟩)⟩
  ordered := .nil
  level := by
    rw [List.pairwise_map]
    exact List.pairwise_of_forall fun _ _ => ⟨Nat.le_refl _, Nat.zero_le _⟩
  before := by simp
  firsts := by
    intro node hnode
    obtain ⟨root, hroot, hresolve⟩ := (hroots node).mp hnode
    exact .inr ⟨root, hresolve, List.mem_map.mpr ⟨root, hroot, rfl⟩⟩
  closed := by simp

variable {reference : ρ} {depth : Nat}

/-- A reference that names nothing, or a node met before, may be dropped. -/
theorem drop (h : Search resolve first step bound marks ((reference, depth) :: queue))
    (hknown : ∀ node, resolve reference = some node → node ∈ marks.map Prod.fst) :
    Search resolve first step bound marks queue := by
  have covered : ∀ {node : ν} {reach : Nat},
      Covered resolve marks ((reference, depth) :: queue) node reach →
        Covered resolve marks queue node reach := by
    rintro node reach (hmet | ⟨other, hother, hqueued⟩)
    · exact .inl hmet
    · rcases List.mem_cons.mp hqueued with hsame | hqueued
      · obtain ⟨rfl, rfl⟩ := Prod.mk.inj hsame
        obtain ⟨mark, hmark, rfl⟩ := List.mem_map.mp (hknown node hother)
        exact .inl ⟨mark.2, h.before mark hmark _ List.mem_cons_self, hmark⟩
      · exact .inr ⟨other, hother, hqueued⟩
  exact {
    nodup := h.nodup
    met := h.met
    queued := fun entry hentry => h.queued entry (List.mem_cons_of_mem _ hentry)
    ordered := h.ordered
    level := h.level.of_cons
    before := fun mark hmark entry hentry =>
      h.before mark hmark entry (List.mem_cons_of_mem _ hentry)
    firsts := fun node hnode => covered (h.firsts node hnode)
    closed := fun mark hmark hdepth next hnext => covered (h.closed mark hmark hdepth next hnext) }

/-- A new node is met at the depth of its reference, and its own references go to the back of the
queue unless it is as deep as the search goes. -/
theorem visit (h : Search resolve first step bound marks ((reference, depth) :: queue)) {node : ν}
    (hresolve : resolve reference = some node) (hnew : node ∉ marks.map Prod.fst)
    {more : List ρ}
    (hmore : depth < bound → ∀ next, step node next ↔ ∃ target ∈ more, resolve target = some next)
    (hdeep : ¬ depth < bound → more = []) :
    Search resolve first step bound (marks ++ [(node, depth)])
      (queue ++ more.map fun target => (target, depth + 1)) := by
  have head := h.queued _ List.mem_cons_self
  have behind := (List.pairwise_cons.mp h.level).1
  have covered : ∀ {other : ν} {reach : Nat},
      Covered resolve marks ((reference, depth) :: queue) other reach →
        Covered resolve (marks ++ [(node, depth)])
          (queue ++ more.map fun target => (target, depth + 1)) other reach := by
    rintro other reach (⟨met, hmet, hmark⟩ | ⟨named, hnamed, hqueued⟩)
    · exact .inl ⟨met, hmet, List.mem_append_left _ hmark⟩
    · rcases List.mem_cons.mp hqueued with hsame | hqueued
      · obtain ⟨rfl, rfl⟩ := Prod.mk.inj hsame
        obtain rfl := Option.some.inj (hresolve.symm.trans hnamed)
        exact .inl ⟨reach, Nat.le_refl _, List.mem_append_right _ (List.mem_singleton_self _)⟩
      · exact .inr ⟨named, hnamed, List.mem_append_left _ hqueued⟩
  have added : ∀ entry ∈ more.map fun target => (target, depth + 1),
      entry.1 ∈ more ∧ entry.2 = depth + 1 ∧ depth < bound := by
    intro entry hentry
    obtain ⟨target, htarget, rfl⟩ := List.mem_map.mp hentry
    refine ⟨htarget, rfl, ?_⟩
    by_contra hbound
    rw [hdeep hbound] at htarget
    cases htarget
  constructor
  · rw [List.map_append, List.nodup_append]
    refine ⟨h.nodup, List.nodup_singleton _, ?_⟩
    intro met hmet other hother hsame
    rw [hsame, List.mem_singleton.mp hother] at hmet
    exact hnew hmet
  · intro mark hmark
    rcases List.mem_append.mp hmark with hmark | hmark
    · exact h.met mark hmark
    · obtain rfl := List.mem_singleton.mp hmark
      exact ⟨head.1, head.2 node hresolve⟩
  · intro entry hentry
    rcases List.mem_append.mp hentry with hentry | hentry
    · exact h.queued entry (List.mem_cons_of_mem _ hentry)
    · obtain ⟨hmem, hdepth, hbound⟩ := added entry hentry
      rw [hdepth]
      refine ⟨hbound, fun next hnext => .hop (head.2 node hresolve) ?_⟩
      exact (hmore hbound next).mpr ⟨entry.1, hmem, hnext⟩
  · rw [List.pairwise_append]
    refine ⟨h.ordered, List.pairwise_singleton _ _, ?_⟩
    intro mark hmark other hother
    rw [List.mem_singleton.mp hother]
    exact h.before mark hmark _ List.mem_cons_self
  · rw [List.pairwise_append, List.pairwise_map]
    refine ⟨h.level.of_cons, List.pairwise_of_forall fun _ _ => ⟨Nat.le_refl _, Nat.le_succ _⟩, ?_⟩
    intro entry hentry other hother
    have := behind entry hentry
    have := (added other hother).2.1
    omega
  · intro mark hmark entry hentry
    have low : mark.2 ≤ depth := by
      rcases List.mem_append.mp hmark with hmark | hmark
      · exact h.before mark hmark _ List.mem_cons_self
      · exact Nat.le_of_eq (congrArg Prod.snd (List.mem_singleton.mp hmark))
    have high : depth ≤ entry.2 := by
      rcases List.mem_append.mp hentry with hentry | hentry
      · exact (behind entry hentry).1
      · rw [(added entry hentry).2.1]
        exact Nat.le_succ _
    exact Nat.le_trans low high
  · exact fun first hfirst => covered (h.firsts first hfirst)
  · intro mark hmark hbound next hnext
    rcases List.mem_append.mp hmark with hmark | hmark
    · exact covered (h.closed mark hmark hbound next hnext)
    · obtain rfl := List.mem_singleton.mp hmark
      obtain ⟨target, htarget, hresolved⟩ := (hmore hbound next).mp hnext
      exact .inr ⟨target, hresolved,
        List.mem_append_right _ (List.mem_map.mpr ⟨target, htarget, rfl⟩)⟩

/-! ## What the search has met -/

/-- A node within the depth is met no deeper than it is, or the queue still holds a reference that
is no deeper. -/
theorem exists_queued (h : Search resolve first step bound marks queue) {hops : Nat} {node : ν}
    (hnode : Hops first step hops node) (hbound : hops ≤ bound) :
    (∃ met ≤ hops, (node, met) ∈ marks) ∨ ∃ entry ∈ queue, entry.2 ≤ hops := by
  have settled : ∀ {node : ν} {reach : Nat}, Covered resolve marks queue node reach →
      (∃ met ≤ reach, (node, met) ∈ marks) ∨ ∃ entry ∈ queue, entry.2 ≤ reach := by
    rintro node reach (hmet | ⟨reference, -, hqueued⟩)
    · exact .inl hmet
    · exact .inr ⟨_, hqueued, Nat.le_refl _⟩
  induction hnode with
  | first hfirst => exact settled (h.firsts _ hfirst)
  | @hop hops node next _ hstep ih =>
      rcases ih (by omega) with ⟨met, hmet, hmark⟩ | ⟨entry, hentry, hle⟩
      · rcases settled (h.closed _ hmark (by show met < bound; omega) next hstep) with
          ⟨depth, hdepth, hnext⟩ | ⟨entry, hentry, hle⟩
        · exact .inl ⟨depth, by dsimp only at hdepth; omega, hnext⟩
        · exact .inr ⟨entry, hentry, by dsimp only at hle; omega⟩
      · exact .inr ⟨entry, hentry, by omega⟩

/-- With an empty queue every node within the depth has been met. -/
theorem mem_of_hops (h : Search resolve first step bound marks []) {hops : Nat} {node : ν}
    (hnode : Hops first step hops node) (hbound : hops ≤ bound) : node ∈ marks.map Prod.fst := by
  rcases h.exists_queued hnode hbound with ⟨met, -, hmark⟩ | ⟨entry, hentry, -⟩
  · exact List.mem_map.mpr ⟨_, hmark, rfl⟩
  · cases hentry

/-- With an empty queue the nodes met are those within the depth. -/
theorem mem_iff (h : Search resolve first step bound marks []) {node : ν} :
    node ∈ marks.map Prod.fst ↔ ∃ hops ≤ bound, Hops first step hops node := by
  constructor
  · intro hmem
    obtain ⟨mark, hmark, rfl⟩ := List.mem_map.mp hmem
    exact ⟨mark.2, h.met mark hmark⟩
  · rintro ⟨hops, hbound, hnode⟩
    exact h.mem_of_hops hnode hbound

/-- A node is met at its distance. -/
theorem le_of_hops (h : Search resolve first step bound marks queue) {mark : ν × Nat}
    (hmark : mark ∈ marks) {hops : Nat} (hnode : Hops first step hops mark.1) : mark.2 ≤ hops := by
  by_contra hlt
  have hbound : hops ≤ bound := by
    have := (h.met mark hmark).1
    omega
  rcases h.exists_queued hnode hbound with ⟨met, hmet, hother⟩ | ⟨entry, hentry, hle⟩
  · have same : mark = (mark.1, met) := List.inj_on_of_nodup_map h.nodup hmark hother rfl
    rw [same] at hlt
    exact hlt hmet
  · exact hlt (Nat.le_trans (h.before mark hmark entry hentry) hle)

end Search

end MncsCommons.Data.Breadth
