/-
# Walks along a functional graph

A walk starts at a place, takes the item found there, goes on where the item
leads, and stops at the first place that meets its goal.  Both functions are
deterministic, so there is at most one walk from a place (`Walk.unique`), and no
item is met twice: a walk that met one again would repeat itself and never stop
(`Walk.nodup`).
-/

import Mathlib.Data.List.Chain
import Mathlib.Data.List.Perm.Subperm

namespace MncsCommons.Data

universe u v

variable {κ : Type u} {β : Type v}

/-- The items met on the way from a place to the goal. -/
inductive Walk (find : κ → Option β) (next : β → Option κ) (goal : κ → Prop) :
    κ → List β → Prop
  | stop {place : κ} (reached : goal place) : Walk find next goal place []
  | step {place after : κ} {item : β} {items : List β} (unreached : ¬ goal place)
      (found : find place = some item) (leads : next item = some after)
      (rest : Walk find next goal after items) : Walk find next goal place (item :: items)

namespace Walk

variable {find : κ → Option β} {next : β → Option κ} {goal : κ → Prop} {place : κ}
  {items : List β}

theorem unique {first second : List β} (hfirst : Walk find next goal place first)
    (hsecond : Walk find next goal place second) : first = second := by
  induction hfirst generalizing second with
  | stop reached =>
      cases hsecond with
      | stop _ => rfl
      | step unreached => exact absurd reached unreached
  | step unreached found leads _ ih =>
      cases hsecond with
      | stop reached => exact absurd reached unreached
      | step _ found' leads' rest' =>
          obtain rfl := Option.some.inj (found.symm.trans found')
          obtain rfl := Option.some.inj (leads.symm.trans leads')
          rw [ih rest']

/-- Behind an item of a walk there is a shorter one. -/
theorem exists_after_mem (h : Walk find next goal place items) {item : β} (hitem : item ∈ items) :
    ∃ after later, next item = some after ∧ Walk find next goal after later ∧
      later.length < items.length := by
  induction h with
  | stop _ => cases hitem
  | @step _ after first rest _ _ leads hrest ih =>
      rcases List.mem_cons.mp hitem with rfl | hitem
      · exact ⟨after, rest, leads, hrest, Nat.lt_succ_self _⟩
      · obtain ⟨place, later, hleads, hlater, hlt⟩ := ih hitem
        exact ⟨place, later, hleads, hlater, Nat.lt_succ_of_lt hlt⟩

theorem nodup (h : Walk find next goal place items) : items.Nodup := by
  induction h with
  | stop _ => exact List.nodup_nil
  | step _ _ leads hrest ih =>
      refine List.nodup_cons.mpr ⟨fun again => ?_, ih⟩
      obtain ⟨after, later, leads', hlater, hlt⟩ := hrest.exists_after_mem again
      obtain rfl := Option.some.inj (leads.symm.trans leads')
      rw [hrest.unique hlater] at hlt
      exact Nat.lt_irrefl _ hlt

theorem found_of_mem (h : Walk find next goal place items) {item : β} (hitem : item ∈ items) :
    ∃ place, find place = some item := by
  induction h with
  | stop _ => cases hitem
  | @step place _ _ _ _ found _ _ ih =>
      rcases List.mem_cons.mp hitem with rfl | hitem
      · exact ⟨place, found⟩
      · exact ih hitem

/-- A walk is no longer than the list its items are found in. -/
theorem length_le {pool : List β} (hpool : ∀ place item, find place = some item → item ∈ pool)
    (h : Walk find next goal place items) : items.length ≤ pool.length := by
  apply List.Subperm.length_le
  apply List.subperm_of_subset h.nodup
  intro item hitem
  obtain ⟨place, found⟩ := h.found_of_mem hitem
  exact hpool place item found

/-- Each item is found where the one before it leads. -/
theorem isChain (h : Walk find next goal place items) :
    items.IsChain fun item later => ∃ place, next item = some place ∧ find place = some later := by
  induction h with
  | stop _ => exact .nil
  | @step _ after item rest _ _ leads hrest ih =>
      cases hrest with
      | stop _ => exact .singleton _
      | step _ found _ _ => exact .cons_cons ⟨after, leads, found⟩ ih

theorem find_head (h : Walk find next goal place items) (hne : items ≠ []) :
    find place = some (items.head hne) := by
  cases h with
  | stop _ => exact absurd rfl hne
  | step _ found _ _ => exact found

/-- The last item leads to the goal. -/
theorem goal_getLast (h : Walk find next goal place items) (hne : items ≠ []) :
    ∃ place, next (items.getLast hne) = some place ∧ goal place := by
  induction h with
  | stop _ => exact absurd rfl hne
  | @step _ after item rest _ _ leads hrest ih =>
      cases hrest with
      | stop reached => exact ⟨after, leads, reached⟩
      | step _ _ _ _ =>
          rw [List.getLast_cons (List.cons_ne_nil _ _)]
          exact ih (List.cons_ne_nil _ _)

end Walk

end MncsCommons.Data
