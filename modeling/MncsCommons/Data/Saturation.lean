/-
# Saturation with a stack

A loop that takes an item off a stack, asks what it leads to, and puts what it has not
found yet on the stack.  It finds exactly what the roots lead to
(`mem_saturate_iff`), which is the least set with the roots that is closed
(`reached_iff_least`), so the order in which the roots and the items of a step come
does not matter.  The loop fails exactly when something that the roots lead to fails
(`exists_saturate_iff`).
-/

import Mathlib.Data.List.Nodup
import Mathlib.Data.List.Perm.Subperm
import Mathlib.Logic.Relation

namespace MncsCommons.Data.Saturation

universe u v

variable {α : Type u} {ε : Type v}

/-- One item leads to another. -/
def Step (next : α → Except ε (List α)) (item other : α) : Prop :=
  ∃ items, next item = .ok items ∧ other ∈ items

/-- One of the roots leads to the item. -/
def Reached (next : α → Except ε (List α)) (roots : List α) (item : α) : Prop :=
  ∃ root ∈ roots, Relation.ReflTransGen (Step next) root item

theorem Reached.step {next : α → Except ε (List α)} {roots : List α} {item other : α}
    (h : Reached next roots item) (hstep : Step next item other) : Reached next roots other := by
  obtain ⟨root, hroot, hpath⟩ := h
  exact ⟨root, hroot, hpath.tail hstep⟩

variable [DecidableEq α]

/-- Put the items that are not found yet among the found ones and on the stack. -/
def pushNew (found stack : List α) : List α → List α × List α
  | [] => (found, stack)
  | item :: items =>
      if found.contains item then pushNew found stack items
      else pushNew (item :: found) (item :: stack) items

/-- Empty the stack. -/
def saturate (next : α → Except ε (List α)) : Nat → List α → List α → Except ε (List α)
  | _, found, [] => .ok found
  | 0, found, _ :: _ => .ok found
  | fuel + 1, found, item :: stack =>
      match next item with
      | .error error => .error error
      | .ok items => saturate next fuel (pushNew found stack items).1 (pushNew found stack items).2

theorem pushNew_eq (found stack items : List α) :
    ∃ added : List α, pushNew found stack items = (added ++ found, added ++ stack) ∧
      (found.Nodup → (added ++ found).Nodup) ∧ added ⊆ items ∧ items ⊆ added ++ found := by
  induction items generalizing found stack with
  | nil => exact ⟨[], rfl, id, List.nil_subset _, List.nil_subset _⟩
  | cons item items ih =>
      rw [pushNew]
      split
      · next hfound =>
        obtain ⟨added, heq, hnodup, hadded, hitems⟩ := ih found stack
        refine ⟨added, heq, hnodup, List.subset_cons_of_subset _ hadded, ?_⟩
        exact List.cons_subset.mpr
          ⟨List.mem_append_right _ (List.contains_iff_mem.mp hfound), hitems⟩
      · next hnew =>
        obtain ⟨added, heq, hnodup, hadded, hitems⟩ := ih (item :: found) (item :: stack)
        refine ⟨added ++ [item], ?_, fun hfound => ?_, ?_, ?_⟩
        · rw [heq, List.append_assoc, List.append_assoc, List.singleton_append,
            List.singleton_append]
        · rw [List.append_assoc]
          exact hnodup (List.nodup_cons.mpr
            ⟨fun hmem => hnew (List.contains_iff_mem.mpr hmem), hfound⟩)
        · exact List.append_subset.mpr ⟨List.subset_cons_of_subset _ hadded, by simp⟩
        · rw [List.append_assoc]
          exact List.cons_subset.mpr ⟨by simp, hitems⟩

/-- No item is found twice. -/
theorem nodup_saturate {next : α → Except ε (List α)} {fuel : Nat} {found stack after : List α}
    (hnodup : found.Nodup) (h : saturate next fuel found stack = .ok after) : after.Nodup := by
  induction fuel generalizing found stack with
  | zero =>
      cases stack <;> exact Except.ok.inj h ▸ hnodup
  | succ fuel ih =>
      cases stack with
      | nil => exact Except.ok.inj h ▸ hnodup
      | cons item stack =>
          rw [saturate] at h
          cases hnext : next item with
          | error error =>
              rw [hnext] at h
              cases h
          | ok items =>
              rw [hnext] at h
              obtain ⟨added, heq, hadded, -⟩ := pushNew_eq found stack items
              simp only [heq] at h
              exact ih (hadded hnodup) h

/-! ## The loop -/

/-- What holds whenever the stack is looked at: what is found is reached, and what is
found and not on the stack has been followed. -/
structure Saturating (next : α → Except ε (List α)) (roots found stack : List α) : Prop where
  nodup : found.Nodup
  rooted : roots ⊆ found
  stacked : stack ⊆ found
  reached : ∀ item ∈ found, Reached next roots item
  followed : ∀ item ∈ found, item ∈ stack ∨ ∃ items, next item = .ok items ∧ items ⊆ found

variable {next : α → Except ε (List α)} {roots found stack items pool : List α} {item : α}

omit [DecidableEq α] in
theorem Saturating.init (hnodup : roots.Nodup) : Saturating next roots roots roots where
  nodup := hnodup
  rooted := List.Subset.refl _
  stacked := List.Subset.refl _
  reached item hitem := ⟨item, hitem, .refl⟩
  followed _ hitem := .inl hitem

theorem Saturating.step (h : Saturating next roots found (item :: stack))
    (hnext : next item = .ok items) :
    Saturating next roots (pushNew found stack items).1 (pushNew found stack items).2 ∧
      (pushNew found stack items).2.length + found.length =
        stack.length + (pushNew found stack items).1.length := by
  obtain ⟨added, heq, hnodup, hadded, hitems⟩ := pushNew_eq found stack items
  obtain ⟨hitem, hstack⟩ := List.cons_subset.mp h.stacked
  rw [heq]
  refine ⟨⟨hnodup h.nodup, List.subset_append_of_subset_right _ h.rooted, ?_, ?_, ?_⟩, ?_⟩
  · exact List.append_subset.mpr
      ⟨List.subset_append_left _ _, List.subset_append_of_subset_right _ hstack⟩
  · intro other hother
    rcases List.mem_append.mp hother with hother | hother
    · exact (h.reached item hitem).step ⟨items, hnext, hadded hother⟩
    · exact h.reached other hother
  · intro other hother
    rcases List.mem_append.mp hother with hother | hother
    · exact .inl (List.mem_append_left _ hother)
    · rcases h.followed other hother with hstacked | ⟨others, hothers, hsubset⟩
      · rcases List.mem_cons.mp hstacked with rfl | hstacked
        · exact .inr ⟨items, hnext, hitems⟩
        · exact .inl (List.mem_append_right _ hstacked)
      · exact .inr ⟨others, hothers, List.subset_append_of_subset_right _ hsubset⟩
  · simp only [List.length_append]
    omega

/-- With fuel for everything that can be reached, the loop ends with an empty stack, or
where an item that is reached fails. -/
theorem Saturating.saturate (h : Saturating next roots found stack)
    (hpool : ∀ item, Reached next roots item → item ∈ pool) {fuel : Nat}
    (hfuel : stack.length + pool.length ≤ fuel + found.length) :
    (∃ after, saturate next fuel found stack = .ok after ∧ Saturating next roots after []) ∨
      ∃ item error, Reached next roots item ∧ next item = .error error ∧
        saturate next fuel found stack = .error error := by
  induction fuel generalizing found stack with
  | zero =>
      have hlength : found.length ≤ pool.length :=
        (h.nodup.subperm fun item hitem => hpool item (h.reached item hitem)).length_le
      obtain rfl : stack = [] := List.length_eq_zero_iff.mp (by omega)
      exact .inl ⟨found, rfl, h⟩
  | succ fuel ih =>
      cases stack with
      | nil => exact .inl ⟨found, rfl, h⟩
      | cons item stack =>
          rw [Saturation.saturate]
          cases hnext : next item with
          | error error =>
              exact .inr ⟨item, error, h.reached item (h.stacked List.mem_cons_self), hnext, rfl⟩
          | ok items =>
              obtain ⟨hstep, hlength⟩ := h.step hnext
              rw [List.length_cons] at hfuel
              exact ih hstep (by omega)

/-! ## What the loop finds -/

omit [DecidableEq α] in
/-- An empty stack leaves what the roots lead to. -/
theorem Saturating.mem_iff (h : Saturating next roots found []) :
    item ∈ found ↔ Reached next roots item := by
  constructor
  · exact h.reached item
  · rintro ⟨root, hroot, hpath⟩
    induction hpath with
    | refl => exact h.rooted hroot
    | tail _ hstep ih =>
        obtain ⟨items, hitems, hmem⟩ := hstep
        obtain hstacked | ⟨others, hothers, hsubset⟩ := h.followed _ ih
        · cases hstacked
        · obtain rfl := Except.ok.inj (hitems.symm.trans hothers)
          exact hsubset hmem

variable {fuel : Nat}

theorem mem_saturate_iff (hnodup : roots.Nodup)
    (hpool : ∀ item, Reached next roots item → item ∈ pool)
    (hfuel : pool.length ≤ fuel) (h : saturate next fuel roots roots = .ok found) :
    item ∈ found ↔ Reached next roots item := by
  have hstart : roots.length + pool.length ≤ fuel + roots.length := by omega
  obtain ⟨after, hafter, hdone⟩ | ⟨_, error, -, -, herror⟩ :=
    (Saturating.init hnodup).saturate hpool hstart
  · obtain rfl := Except.ok.inj (hafter.symm.trans h)
    exact hdone.mem_iff
  · rw [herror] at h
    cases h

omit [DecidableEq α] in
/-- What the roots lead to is the least set with the roots that is closed. -/
theorem reached_iff_least :
    Reached next roots item ↔
      ∀ closed : α → Prop, (∀ root ∈ roots, closed root) →
        (∀ item other, closed item → Step next item other → closed other) → closed item := by
  constructor
  · rintro ⟨root, hroot, hpath⟩ closed hroots hstep
    induction hpath with
    | refl => exact hroots root hroot
    | tail _ hlast ih => exact hstep _ _ ih hlast
  · intro h
    exact h (Reached next roots) (fun root hroot => ⟨root, hroot, .refl⟩)
      fun item other hitem hstep => hitem.step hstep

theorem exists_saturate_iff (hnodup : roots.Nodup)
    (hpool : ∀ item, Reached next roots item → item ∈ pool)
    (hfuel : pool.length ≤ fuel) :
    (∃ found, saturate next fuel roots roots = .ok found) ↔
      ∀ item, Reached next roots item → ∃ items, next item = .ok items := by
  have hstart : roots.length + pool.length ≤ fuel + roots.length := by omega
  obtain ⟨after, hafter, hdone⟩ | ⟨item, error, hreached, hnext, herror⟩ :=
    (Saturating.init hnodup).saturate hpool hstart
  · refine ⟨fun _ item hitem => ?_, fun _ => ⟨after, hafter⟩⟩
    obtain hstacked | ⟨items, hitems, -⟩ := hdone.followed item (hdone.mem_iff.mpr hitem)
    · cases hstacked
    · exact ⟨items, hitems⟩
  · constructor
    · rintro ⟨found, hfound⟩
      rw [herror] at hfound
      cases hfound
    · intro hall
      obtain ⟨items, hitems⟩ := hall item hreached
      rw [hnext] at hitems
      cases hitems

end MncsCommons.Data.Saturation
