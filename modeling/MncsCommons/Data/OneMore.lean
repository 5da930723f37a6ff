/-
# One item more

A list that has one item more than another, at some place.  Mapping, filtering
and stable sorting keep the relation, so what is computed from a collection
after an item was added to it differs from what was computed before in that item
only.
-/

import MncsCommons.Data.Sorting

namespace MncsCommons.Data

universe u v w

variable {α : Type u} {β : Type v} {κ : Type w}

/-- The second list is the first with the item put in at one place. -/
def OneMore (item : α) (before after : List α) : Prop :=
  ∃ first rest, before = first ++ rest ∧ after = first ++ item :: rest

namespace OneMore

variable {item other : α} {before after : List α}

theorem append_singleton (item : α) (before : List α) : OneMore item before (before ++ [item]) :=
  ⟨before, [], by simp, rfl⟩

theorem cons (item : α) (before : List α) : OneMore item before (item :: before) :=
  ⟨[], before, rfl, rfl⟩

/-- An item in front of both lists. -/
theorem cons_cons (h : OneMore item before after) (other : α) :
    OneMore item (other :: before) (other :: after) := by
  obtain ⟨first, rest, rfl, rfl⟩ := h
  exact ⟨other :: first, rest, rfl, rfl⟩

theorem mem_iff (h : OneMore item before after) : other ∈ after ↔ other = item ∨ other ∈ before := by
  obtain ⟨first, rest, rfl, rfl⟩ := h
  simp only [List.mem_append, List.mem_cons]
  exact or_left_comm

theorem mem (h : OneMore item before after) : item ∈ after := h.mem_iff.mpr (.inl rfl)

theorem mem_of_mem (h : OneMore item before after) (hmem : other ∈ before) : other ∈ after :=
  h.mem_iff.mpr (.inr hmem)

theorem length_eq (h : OneMore item before after) : after.length = before.length + 1 := by
  obtain ⟨first, rest, rfl, rfl⟩ := h
  simp only [List.length_append, List.length_cons, Nat.add_assoc]

theorem map (h : OneMore item before after) (f : α → β) :
    OneMore (f item) (before.map f) (after.map f) := by
  obtain ⟨first, rest, rfl, rfl⟩ := h
  exact ⟨first.map f, rest.map f, List.map_append, by rw [List.map_append, List.map_cons]⟩

/-- A list of values is one value longer when what it is read from is. -/
theorem of_map {f : β → α} {items : List β} {extra : β} {added : α}
    (h : OneMore added before after) (hbefore : before = items.map f) (hextra : added = f extra) :
    ∃ values, OneMore extra items values ∧ after = values.map f := by
  obtain ⟨first, rest, rfl, rfl⟩ := h
  obtain ⟨left, right, rfl, hleft, hright⟩ := List.append_eq_map_iff.mp hbefore
  refine ⟨left ++ extra :: right, ⟨left, right, rfl, rfl⟩, ?_⟩
  rw [List.map_append, List.map_cons, hleft, hright, hextra]

theorem filter_of_true (h : OneMore item before after) {test : α → Bool} (hitem : test item = true) :
    OneMore item (before.filter test) (after.filter test) := by
  obtain ⟨first, rest, rfl, rfl⟩ := h
  refine ⟨first.filter test, rest.filter test, List.filter_append .., ?_⟩
  rw [List.filter_append, List.filter_cons_of_pos hitem]

theorem filter_of_false (h : OneMore item before after) {test : α → Bool}
    (hitem : test item = false) : after.filter test = before.filter test := by
  obtain ⟨first, rest, rfl, rfl⟩ := h
  rw [List.filter_append, List.filter_append, List.filter_cons_of_neg (by simp [hitem])]

section Sorting

variable [LinearOrder κ] {key : α → κ}

/-- Inserting into an ordered list keeps the item that another list lacks. -/
theorem orderedInsert (h : OneMore item before after)
    (hordered : after.Pairwise fun a b => key a ≤ key b) (other : α) :
    OneMore item (before.orderedInsert (fun a b => key a ≤ key b) other)
      (after.orderedInsert (fun a b => key a ≤ key b) other) := by
  obtain ⟨first, rest, rfl, rfl⟩ := h
  induction first with
  | nil =>
      rw [List.nil_append, List.nil_append] at *
      by_cases hle : key other ≤ key item
      · have hrest : rest.orderedInsert (fun a b => key a ≤ key b) other = other :: rest := by
          cases rest with
          | nil => rfl
          | cons next rest =>
              have hnext := List.rel_of_pairwise_cons hordered (List.mem_cons_self (l := rest))
              rw [List.orderedInsert, if_pos (hle.trans hnext)]
        rw [hrest, List.orderedInsert, if_pos hle]
        exact (cons item rest).cons_cons other
      · rw [List.orderedInsert, if_neg hle]
        exact cons item _
  | cons head first ih =>
      rw [List.cons_append, List.cons_append] at *
      by_cases hle : key other ≤ key head
      · rw [List.orderedInsert, if_pos hle, List.orderedInsert, if_pos hle]
        exact ⟨other :: head :: first, rest, rfl, rfl⟩
      · rw [List.orderedInsert, if_neg hle, List.orderedInsert, if_neg hle]
        exact (ih (List.Pairwise.of_cons hordered)).cons_cons head

theorem sortedBy (h : OneMore item before after) (key : α → κ) :
    OneMore item (sortedBy key before) (sortedBy key after) := by
  obtain ⟨first, rest, rfl, rfl⟩ := h
  induction first with
  | nil =>
      rw [List.nil_append, List.nil_append, Data.sortedBy, Data.sortedBy, List.insertionSort_cons,
        List.orderedInsert_eq_take_drop]
      exact ⟨_, _, (List.takeWhile_append_dropWhile ..).symm, rfl⟩
  | cons head first ih =>
      rw [List.cons_append, List.cons_append, Data.sortedBy, Data.sortedBy, List.insertionSort_cons,
        List.insertionSort_cons]
      exact ih.orderedInsert (pairwise_sortedBy key _) head

end Sorting

end OneMore

end MncsCommons.Data
