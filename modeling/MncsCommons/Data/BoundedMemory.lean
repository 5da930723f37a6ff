/-
# A bounded memory

A memory of the last items, at most `capacity` of them: appending one to a full
memory drops the oldest.  Remembering several items leaves the last `capacity`
of all of them, so an item stays for fewer than `capacity` further ones and is
gone after `capacity` others.
-/

import Mathlib.Data.List.Basic

namespace MncsCommons.Data

variable {α : Type}

/-- Append an item and drop what no longer fits. -/
def remember (capacity : Nat) (recent : List α) (item : α) : List α :=
  (recent ++ [item]).drop ((recent ++ [item]).length - capacity)

theorem length_remember_le (capacity : Nat) (recent : List α) (item : α) :
    (remember capacity recent item).length ≤ capacity := by
  rw [remember, List.length_drop]
  omega

/-- Remembering several items leaves the last ones. -/
theorem foldl_remember {capacity : Nat} (items : List α) {recent : List α}
    (h : recent.length ≤ capacity) :
    items.foldl (remember capacity) recent =
      (recent ++ items).drop ((recent ++ items).length - capacity) := by
  induction items generalizing recent with
  | nil =>
      rw [List.foldl_nil, List.append_nil, Nat.sub_eq_zero_of_le h, List.drop_zero]
  | cons item items ih =>
      have hdrop : (recent ++ [item]).length - capacity ≤ (recent ++ [item]).length := by omega
      rw [List.foldl_cons, ih (length_remember_le capacity recent item), remember,
        ← List.drop_append_of_le_length hdrop, List.drop_drop, List.append_assoc,
        List.singleton_append, List.length_drop]
      congr 1
      simp only [List.length_append, List.length_cons, List.length_nil]
      omega

/-- An item stays while fewer than `capacity` items follow it. -/
theorem mem_foldl_remember {capacity : Nat} {recent items : List α} {item : α}
    (h : recent.length ≤ capacity) (hitems : items.length < capacity) :
    item ∈ items.foldl (remember capacity) (remember capacity recent item) := by
  have hfold := foldl_remember (item :: items) h
  rw [List.foldl_cons] at hfold
  rw [hfold, List.drop_append_of_le_length (by
    rw [List.length_append, List.length_cons]
    omega)]
  exact List.mem_append_right _ List.mem_cons_self

/-- An item is gone when `capacity` others follow it. -/
theorem not_mem_foldl_remember {capacity : Nat} {recent items : List α} {item : α}
    (h : recent.length ≤ capacity) (hitems : capacity ≤ items.length) (hmem : item ∉ items) :
    item ∉ items.foldl (remember capacity) recent := by
  rw [foldl_remember items h, List.length_append, Nat.add_sub_assoc hitems,
    ← List.drop_drop, List.drop_left]
  exact fun hlast => hmem (List.mem_of_mem_drop hlast)

end MncsCommons.Data
