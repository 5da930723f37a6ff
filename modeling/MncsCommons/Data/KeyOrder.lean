/-
# Objects up to the order of their keys

Two well-formed values have one encoding exactly when they agree up to the order
of keys, and two objects agree so when they agree member by member.  An
assignment to a member changes the object up to key order exactly when it changes
the member.
-/

import MncsCommons.Data.JsonText

namespace MncsCommons.Data

/-! ## Assignments -/

namespace Fields

theorem get_set_self (fields : Fields) (key : String) (value : Json) :
    get (set fields key value) key = value := by
  rw [get, get?_set, if_pos rfl, Option.getD_some]

theorem get_set_of_ne {key other : String} (h : key ≠ other) (fields : Fields) (value : Json) :
    get (set fields key value) other = get fields other := by
  rw [get, get?_set, if_neg h, get]

/-- Assigning the value a member has changes nothing. -/
theorem set_of_get_eq {fields : Fields} {key : String} {value : Json}
    (h : get fields key = value) (hne : value ≠ .null) : set fields key value = fields :=
  set_of_get?_eq_some (get?_of_get h hne)

/-- Removing another member and assigning commute. -/
theorem erase_set_of_ne {key other : String} (h : key ≠ other) (fields : Fields) (value : Json) :
    erase (set fields key value) other = set (erase fields other) key value := by
  induction fields with
  | nil => simp [set, erase, h]
  | cons field fields ih =>
      obtain ⟨name, found⟩ := field
      by_cases hname : name = key
      · subst hname
        simp [set, erase, h]
      · by_cases hother : name = other
        · simpa [set, erase, hname, hother, Ne.symm h] using ih
        · simpa [set, erase, hname, hother] using ih

end Fields

namespace Json

/-! ## Sameness up to key order -/

theorem sortKeys_obj_eq_iff {first second : Fields} (hfirst : (Fields.keys first).Nodup)
    (hsecond : (Fields.keys second).Nodup) :
    sortKeys (.obj first) = sortKeys (.obj second) ↔
      ∀ key, (Fields.get? first key).map sortKeys = (Fields.get? second key).map sortKeys := by
  refine ⟨fun h key => ?_, sortKeys_obj_ext hfirst hsecond⟩
  rw [sortKeys_obj_eq, sortKeys_obj_eq] at h
  rw [← Fields.get?_sortKeys, ← Fields.get?_sortKeys, obj.inj h]

/-- Another value for a member is another object. -/
theorem sortKeys_set_eq_iff {fields : Fields} (hfields : (Fields.keys fields).Nodup) {key : String}
    {value : Json} (hvalue : Fields.get? fields key = some value) (other : Json) :
    sortKeys (.obj (Fields.set fields key other)) = sortKeys (.obj fields) ↔
      sortKeys other = sortKeys value := by
  rw [sortKeys_obj_eq_iff (Fields.nodup_keys_set key other hfields) hfields]
  constructor
  · intro h
    have hkey := h key
    rw [Fields.get?_set, if_pos rfl, hvalue] at hkey
    exact Option.some.inj hkey
  · intro h name
    rw [Fields.get?_set]
    split
    · next hname => rw [← hname, hvalue, Option.map_some, Option.map_some, h]
    · rfl

theorem sortKeys_set_set_iff {fields : Fields} (hfields : (Fields.keys fields).Nodup)
    (key : String) (first second : Json) :
    sortKeys (.obj (Fields.set fields key first)) = sortKeys (.obj (Fields.set fields key second)) ↔
      sortKeys first = sortKeys second := by
  have hvalue : Fields.get? (Fields.set fields key second) key = some second := by
    rw [Fields.get?_set, if_pos rfl]
  rw [← sortKeys_set_eq_iff (Fields.nodup_keys_set key second hfields) hvalue, Fields.set_set]

end Json

/-- Encodings tell well-formed values apart, up to the order of keys. -/
theorem dumps_eq_iff {first second : Json} (hfirst : first.wf = true) (hsecond : second.wf = true) :
    dumps first = dumps second ↔ first.sortKeys = second.sortKeys := by
  constructor
  · intro h
    have hloads := loads_dumps hfirst
    rw [h, loads_dumps hsecond] at hloads
    exact (Option.some.inj hloads).symm
  · intro h
    rw [dumps, h, dumps]

end MncsCommons.Data
