/-
# Dictionaries written entry by entry

An update assigns pairs in order, so a key has the value of its last pair.  Where all
pairs of a key agree the order does not matter, and where no key repeats the result is
the pairs as they are.
-/

import MncsCommons.Data.Json

namespace MncsCommons.Data.Fields

variable {α : Type} {fields pairs : List (String × α)} {key : String} {value : α}

@[simp]
theorem update_nil (fields : List (String × α)) : update fields [] = fields := rfl

theorem update_cons (fields : List (String × α)) (pair : String × α)
    (pairs : List (String × α)) :
    update fields (pair :: pairs) = update (set fields pair.1 pair.2) pairs := rfl

theorem mem_keys_update : key ∈ keys (update fields pairs) ↔ key ∈ keys fields ∨ key ∈ keys pairs := by
  induction pairs generalizing fields with
  | nil => simp [keys]
  | cons pair pairs ih =>
      rw [update_cons, ih, mem_keys_set, or_assoc]
      simp [keys]

theorem nodup_keys_update (h : (keys fields).Nodup) (pairs : List (String × α)) :
    (keys (update fields pairs)).Nodup := by
  induction pairs generalizing fields with
  | nil => exact h
  | cons pair pairs ih => exact ih (nodup_keys_set _ _ h)

/-- Pairs whose keys are new and distinct are put behind what is there. -/
theorem update_of_nodup (h : (keys fields ++ keys pairs).Nodup) :
    update fields pairs = fields ++ pairs := by
  induction pairs generalizing fields with
  | nil => simp
  | cons pair pairs ih =>
      have hnew : pair.1 ∉ keys fields := by
        intro hmem
        exact (List.nodup_append.mp h).2.2 _ hmem _ (by simp [keys]) rfl
      rw [update_cons, set_of_not_mem _ hnew, ih]
      · simp
      · simpa [keys] using h

theorem get?_update_cases (h : get? (update fields pairs) key = some value) :
    (key, value) ∈ pairs ∨ get? fields key = some value := by
  rw [get?_update, Option.or_eq_some_iff] at h
  rcases h with h | ⟨-, h⟩
  · exact .inl (List.mem_reverse.mp (mem_of_get?_eq_some h))
  · exact .inr h

/-- A key whose pairs agree has their value. -/
theorem get?_update_of_agree (hmem : (key, value) ∈ pairs)
    (hagree : ∀ other, (key, other) ∈ pairs → other = value) :
    get? (update fields pairs) key = some value := by
  have hkey : key ∈ keys pairs.reverse :=
    List.mem_map.mpr ⟨_, List.mem_reverse.mpr hmem, rfl⟩
  rw [get?_update]
  cases hfound : get? pairs.reverse key with
  | none => exact absurd hkey (get?_eq_none_iff.mp hfound)
  | some found =>
      rw [Option.some_or, hagree found (List.mem_reverse.mp (mem_of_get?_eq_some hfound))]

end MncsCommons.Data.Fields
