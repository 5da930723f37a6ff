/-
# Sorting by a key

Stable sorting of a list by the value of a key function, as host languages
offer it.  Two facts carry every use of it: the result is an ordered
permutation of the input, and an ordered permutation is unique as soon as the
key separates the elements.
-/

import Mathlib.Data.List.Sort
import Mathlib.Data.List.Nodup
import Mathlib.Order.Defs.LinearOrder

namespace MncsCommons.Data

universe u v w

variable {α : Type u} {β : Type v} {κ : Type w} [LinearOrder κ]

/-- The list in ascending order of `key`; elements with equal keys keep their order. -/
def sortedBy (key : α → κ) (items : List α) : List α :=
  items.insertionSort fun a b => key a ≤ key b

instance totalOfKey (key : α → κ) : Std.Total fun a b => key a ≤ key b where
  total a b := le_total (key a) (key b)

instance isTransOfKey (key : α → κ) : IsTrans α fun a b => key a ≤ key b where
  trans _ _ _ := le_trans

theorem sortedBy_perm (key : α → κ) (items : List α) : (sortedBy key items).Perm items :=
  List.perm_insertionSort _ items

@[simp]
theorem mem_sortedBy {key : α → κ} {items : List α} {item : α} :
    item ∈ sortedBy key items ↔ item ∈ items :=
  (sortedBy_perm key items).mem_iff

@[simp]
theorem length_sortedBy (key : α → κ) (items : List α) :
    (sortedBy key items).length = items.length :=
  (sortedBy_perm key items).length_eq

theorem pairwise_sortedBy (key : α → κ) (items : List α) :
    (sortedBy key items).Pairwise fun a b => key a ≤ key b :=
  List.pairwise_insertionSort _ items

theorem sortedBy_eq_self {key : α → κ} {items : List α}
    (h : items.Pairwise fun a b => key a ≤ key b) : sortedBy key items = items :=
  h.insertionSort_eq

@[simp]
theorem sortedBy_sortedBy (key : α → κ) (items : List α) :
    sortedBy key (sortedBy key items) = sortedBy key items :=
  sortedBy_eq_self (pairwise_sortedBy key items)

/-- Sorting commutes with a map that keeps every key. -/
theorem map_sortedBy {key : α → κ} (key' : β → κ) (f : α → β) {items : List α}
    (h : ∀ item ∈ items, key' (f item) = key item) :
    (sortedBy key items).map f = sortedBy key' (items.map f) := by
  refine List.map_insertionSort _ _ f items fun a ha b hb => ?_
  rw [h a ha, h b hb]

/-- Inserting an item that is filtered out leaves what the filter keeps. -/
theorem filter_orderedInsert {key : α → κ} (test : α → Bool) (item : α) {items : List α}
    (h : items.Pairwise fun a b => key a ≤ key b) :
    (items.orderedInsert (fun a b => key a ≤ key b) item).filter test =
      if test item then (items.filter test).orderedInsert (fun a b => key a ≤ key b) item
      else items.filter test := by
  induction items with
  | nil => cases hitem : test item <;> simp [hitem]
  | cons head items ih =>
      have hrest := ih (List.Pairwise.of_cons h)
      by_cases hle : key item ≤ key head
      · rw [List.orderedInsert, if_pos hle]
        by_cases hitem : test item = true
        · have hleast : ∀ other ∈ (head :: items).filter test, key item ≤ key other := by
            intro other hother
            rcases List.mem_cons.mp (List.mem_filter.mp hother).1 with rfl | hmem
            · exact hle
            · exact hle.trans (List.rel_of_pairwise_cons h hmem)
          rw [List.filter_cons_of_pos hitem, if_pos hitem]
          cases hkept : (head :: items).filter test with
          | nil => rfl
          | cons first kept =>
              rw [List.orderedInsert, if_pos (hleast first (hkept ▸ List.mem_cons_self))]
        · rw [List.filter_cons_of_neg hitem, if_neg hitem]
      · rw [List.orderedInsert, if_neg hle]
        by_cases hhead : test head = true
        · rw [List.filter_cons_of_pos hhead, List.filter_cons_of_pos hhead, hrest]
          split
          · rw [List.orderedInsert, if_neg hle]
          · rfl
        · rw [List.filter_cons_of_neg hhead, List.filter_cons_of_neg hhead, hrest]

/-- Sorting commutes with filtering. -/
theorem filter_sortedBy (key : α → κ) (test : α → Bool) (items : List α) :
    (sortedBy key items).filter test = sortedBy key (items.filter test) := by
  induction items with
  | nil => rfl
  | cons item items ih =>
      have hinsert : sortedBy key (item :: items) =
          (sortedBy key items).orderedInsert (fun a b => key a ≤ key b) item := rfl
      rw [hinsert, filter_orderedInsert test item (pairwise_sortedBy key items), ih]
      by_cases hitem : test item = true
      · rw [if_pos hitem, List.filter_cons_of_pos hitem]
        rfl
      · rw [if_neg hitem, List.filter_cons_of_neg hitem]

/-- Two permutations of one list sort to the same list when the key separates
their elements. -/
theorem sortedBy_eq_of_perm {key : α → κ} {first second : List α} (hperm : first.Perm second)
    (hsep : ∀ a ∈ first, ∀ b ∈ first, key a = key b → a = b) :
    sortedBy key first = sortedBy key second := by
  refine List.Perm.eq_of_pairwise (fun a b ha hb hab hba => ?_)
    (pairwise_sortedBy key first) (pairwise_sortedBy key second)
    ((sortedBy_perm key first).trans (hperm.trans (sortedBy_perm key second).symm))
  exact hsep a (mem_sortedBy.mp ha) b (hperm.mem_iff.mpr (mem_sortedBy.mp hb))
    (le_antisymm hab hba)

/-- Two lists have one image up to order exactly when one of them can be arranged to
have the image of the other. -/
theorem map_perm_map_iff_exists {f : α → β} {first second : List α} :
    (first.map f).Perm (second.map f) ↔
      ∃ arranged : List α, arranged.Perm second ∧ first.map f = arranged.map f := by
  constructor
  · intro hperm
    induction first generalizing second with
    | nil => exact ⟨second, .refl _, (List.nil_perm.mp hperm).symm⟩
    | cons item items ih =>
        obtain ⟨other, hother, himage⟩ :=
          List.mem_map.mp (hperm.subset (List.mem_map_of_mem List.mem_cons_self))
        obtain ⟨before, after, rfl⟩ := List.append_of_mem hother
        have hrest : (items.map f).Perm ((before ++ after).map f) := by
          rw [List.map_cons, ← himage] at hperm
          exact (hperm.trans (List.perm_middle.map f)).cons_inv
        obtain ⟨arranged, harranged, hmap⟩ := ih hrest
        exact ⟨other :: arranged, (harranged.cons other).trans List.perm_middle.symm, by
          rw [List.map_cons, List.map_cons, himage, hmap]⟩
  · rintro ⟨arranged, harranged, hmap⟩
    rw [hmap]
    exact harranged.map f

/-- Sorted images are equal exactly when one list can be arranged to have the image of
the other, provided the key separates the images. -/
theorem sortedBy_map_eq_iff {key : β → κ} {f : α → β} {first second : List α}
    (hsep : ∀ a ∈ first.map f, ∀ b ∈ first.map f, key a = key b → a = b) :
    sortedBy key (first.map f) = sortedBy key (second.map f) ↔
      ∃ arranged : List α, arranged.Perm second ∧ first.map f = arranged.map f := by
  rw [← map_perm_map_iff_exists]
  constructor
  · intro h
    exact (sortedBy_perm key _).symm.trans (h ▸ sortedBy_perm key _)
  · exact fun hperm => sortedBy_eq_of_perm hperm hsep

/-- Removing repetitions leaves none. -/
theorem nodup_eraseDups [DecidableEq α] (items : List α) : items.eraseDups.Nodup := by
  induction hlength : items.length using Nat.strong_induction_on generalizing items with
  | _ length ih =>
      cases items with
      | nil => simp
      | cons item items =>
          rw [List.eraseDups_cons, List.nodup_cons]
          refine ⟨by simp [List.mem_eraseDups], ih _ ?_ _ rfl⟩
          rw [← hlength, List.length_cons]
          exact Nat.lt_succ_of_le (List.length_filter_le _ _)

end MncsCommons.Data
