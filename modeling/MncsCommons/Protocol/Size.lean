/-
# The size of canonical text

`size` is the number of bytes of a value's text, computed without writing it
(`byteSize_dumps`).  It does not depend on the order of members or items, so the
canonical order of a value has the size of the value itself.
-/

import MncsCommons.Protocol.Canonical
import Mathlib.Algebra.BigOperators.Group.List.Basic
import Mathlib.Algebra.Order.BigOperators.Group.List

namespace MncsCommons.Data

/-- The number of bytes of a string literal. -/
def stringSize (s : String) : Nat := Text.byteSize (renderString s)

namespace Json

mutual

/-- The number of bytes of the text of a value. -/
def size : Json → Nat
  | .null => 4
  | .bool value => if value then 4 else 5
  | .int n => Text.byteSize (renderInt n)
  | .decimal literal => Text.byteSize literal.text
  | .str s => stringSize s
  | .arr items => 2 + (sizeItems items - 1)
  | .obj fields => 2 + (sizeFields fields - 1)

/-- The items with a separator each. -/
def sizeItems : List Json → Nat
  | [] => 0
  | item :: items => size item + 1 + sizeItems items

/-- The members with their separators. -/
def sizeFields : List (String × Json) → Nat
  | [] => 0
  | (key, value) :: fields => stringSize key + size value + 2 + sizeFields fields

end

theorem sizeItems_eq (items : List Json) :
    sizeItems items = (items.map fun item => size item + 1).sum := by
  induction items with
  | nil => rfl
  | cons item items ih => simp [sizeItems, ih]

theorem sizeFields_eq (fields : Fields) :
    sizeFields fields = (fields.map fun field => stringSize field.1 + size field.2 + 2).sum := by
  induction fields with
  | nil => rfl
  | cons field fields ih => simp [sizeFields, ih]

theorem size_str (s : String) : size (.str s) = stringSize s := rfl

theorem size_arr (items : List Json) :
    size (.arr items) = 2 + ((items.map fun item => size item + 1).sum - 1) := by
  rw [size, sizeItems_eq]

theorem size_obj (fields : Fields) :
    size (.obj fields) =
      2 + ((fields.map fun field => stringSize field.1 + size field.2 + 2).sum - 1) := by
  rw [size, sizeFields_eq]

theorem byteSize_cons (c : Char) (text : Text) :
    Text.byteSize (c :: text) = c.utf8Size + Text.byteSize text := by
  simp [Text.byteSize]

theorem byteSize_renderItems {items : List Json}
    (ih : ∀ item ∈ items, Text.byteSize (render item) = size item) :
    Text.byteSize (renderItems items) = 1 + (items.map fun item => size item + 1).sum := by
  induction items with
  | nil => rfl
  | cons item items ihItems =>
      rw [renderItems, byteSize_cons, Text.byteSize_append, ih item (by simp),
        ihItems fun other hother => ih other (by simp [hother]), List.map_cons, List.sum_cons]
      simp [Char.utf8Size]
      omega

theorem byteSize_renderFields {fields : Fields}
    (ih : ∀ field ∈ fields, Text.byteSize (render field.2) = size field.2) :
    Text.byteSize (renderFields fields) =
      1 + (fields.map fun field => stringSize field.1 + size field.2 + 2).sum := by
  induction fields with
  | nil => rfl
  | cons field fields ihFields =>
      obtain ⟨key, value⟩ := field
      rw [renderFields, byteSize_cons, Text.byteSize_append, byteSize_cons, Text.byteSize_append,
        ih (key, value) (by simp), ihFields fun other hother => ih other (by simp [hother]),
        List.map_cons, List.sum_cons, ← stringSize]
      simp [Char.utf8Size]
      omega

theorem byteSize_render (value : Json) : Text.byteSize (render value) = size value := by
  induction value using inductionOn with
  | null | int | decimal | str => rfl
  | bool value => cases value <;> rfl
  | arr items ih =>
      rw [size_arr]
      cases items with
      | nil => rfl
      | cons item items =>
          rw [render, byteSize_cons, Text.byteSize_append, ih item (by simp),
            byteSize_renderItems fun other hother => ih other (by simp [hother]), List.map_cons,
            List.sum_cons]
          simp [Char.utf8Size]
          omega
  | obj fields ih =>
      rw [size_obj]
      cases fields with
      | nil => rfl
      | cons field fields =>
          obtain ⟨key, value⟩ := field
          rw [render, byteSize_cons, Text.byteSize_append, byteSize_cons, Text.byteSize_append,
            ih (key, value) (by simp),
            byteSize_renderFields fun other hother => ih other (by simp [hother]), List.map_cons,
            List.sum_cons, ← stringSize]
          simp [Char.utf8Size]
          omega

theorem size_eq_byteSize_quickRender (value : Json) :
    size value = Text.byteSize (quickRender value) := by
  rw [quickRender_eq, byteSize_render]

/-! ## Order -/

theorem sum_map_perm {α : Type} {first second : List α} (h : first.Perm second) (f : α → Nat) :
    (first.map f).sum = (second.map f).sum :=
  (h.map f).sum_eq

theorem size_sortKeys (value : Json) : size (sortKeys value) = size value := by
  induction value using inductionOn with
  | null | bool | int | decimal | str => rfl
  | arr items ih =>
      rw [sortKeys_arr, size_arr, size_arr, List.map_map]
      congr 3
      exact List.map_congr_left fun item hitem => by simp [ih item hitem]
  | obj fields ih =>
      rw [sortKeys_obj, size_obj, size_obj, sum_map_perm (sortedBy_perm _ _), List.map_map]
      congr 3
      exact List.map_congr_left fun field hfield => by simp [ih field hfield]

/-! ## Bounds -/

theorem length_le_byteSize (text : Text) : text.length ≤ Text.byteSize text := by
  induction text with
  | nil => exact Nat.zero_le _
  | cons c text ih =>
      have hpos := c.utf8Size_pos
      rw [List.length_cons, byteSize_cons]
      omega

theorem byteSize_escapeChar_le (c : Char) : Text.byteSize (escapeChar c) ≤ 6 := by
  have hdigit : ∀ n < 16, (Nat.digitChar n).utf8Size = 1 := by decide
  have hchar := c.utf8Size_le_four
  by_cases hcontrol : c.toNat < 32
  · have hfirst := hdigit (c.toNat / 16) (by omega)
    have hsecond := hdigit (c.toNat % 16) (Nat.mod_lt _ (by decide))
    rw [escapeChar]
    repeat' split
    all_goals simp only [byteSize_cons, Text.byteSize_nil, hfirst, hsecond]
    all_goals decide
  · rw [escapeChar]
    repeat' split
    all_goals simp only [byteSize_cons, Text.byteSize_nil]
    all_goals first | decide | omega

theorem stringSize_le (s : String) : stringSize s ≤ 6 * s.length + 2 := by
  have hchars : ∀ chars : Text,
      Text.byteSize (chars.flatMap escapeChar) ≤ 6 * chars.length := by
    intro chars
    induction chars with
    | nil => exact Nat.zero_le _
    | cons c chars ih =>
        have hescape := byteSize_escapeChar_le c
        rw [List.flatMap_cons, Text.byteSize_append, List.length_cons]
        omega
  have hlength := hchars s.toList
  rw [String.length_toList] at hlength
  rw [stringSize, renderString, byteSize_cons, Text.byteSize_append]
  have hquote : Char.utf8Size '"' = 1 := by decide
  have hend : Text.byteSize ['"'] = 1 := by decide
  omega

theorem length_le_stringSize (s : String) : s.length ≤ stringSize s := by
  have hchars : ∀ chars : Text, chars.length ≤ (chars.flatMap escapeChar).length := by
    intro chars
    induction chars with
    | nil => exact Nat.zero_le _
    | cons c chars ih =>
        have hescape := escapeChar_length_pos c
        rw [List.flatMap_cons, List.length_append, List.length_cons]
        omega
  have hrender := length_le_byteSize (renderString s)
  have hlength := hchars s.toList
  rw [String.length_toList] at hlength
  rw [renderString, List.length_cons, List.length_append] at hrender
  rw [stringSize, renderString]
  omega

theorem utf8Size_of_isNumberChar {c : Char} (h : isNumberChar c = true) : c.utf8Size = 1 := by
  have hascii : c.val ≤ 127 := by
    simp only [isNumberChar, Char.isDigit, Bool.or_eq_true, Bool.and_eq_true,
      decide_eq_true_eq, beq_iff_eq] at h
    rcases h with ((((⟨-, h⟩ | rfl) | rfl) | rfl) | rfl) | rfl
    · exact UInt32.le_trans h (by decide)
    all_goals decide
  simp [Char.utf8Size, hascii]

/-- A number has at most as many bytes as digits. -/
theorem size_int_le {n k : Nat} (hk : 0 < k) (h : n < 10 ^ k) : size (.int n) ≤ k := by
  have hchars : ∀ text : Text, (∀ c ∈ text, isNumberChar c = true) →
      Text.byteSize text = text.length := by
    intro text htext
    induction text with
    | nil => rfl
    | cons c text ih =>
        rw [byteSize_cons, utf8Size_of_isNumberChar (htext c (by simp)),
          ih fun other hother => htext other (by simp [hother]), List.length_cons, Nat.add_comm]
  rw [size, hchars _ fun c hc => isNumberChar_of_mem_renderInt hc]
  exact (Nat.length_toDigits_le_iff (by decide) hk).mpr h

/-- A member is not larger than the object. -/
theorem size_le_size_obj {fields : Fields} {field : String × Json} (h : field ∈ fields) :
    size field.2 ≤ size (.obj fields) := by
  have hsum := List.single_le_sum (l := fields.map fun field => stringSize field.1 + size field.2 + 2)
    (by simp) _ (List.mem_map_of_mem h)
  rw [size_obj]
  omega

end Json

open Json

theorem byteSize_dumps (value : Json) : Text.byteSize (dumps value) = size value := by
  rw [dumps, byteSize_render, size_sortKeys]

end MncsCommons.Data

namespace MncsCommons.Protocol

open MncsCommons.Data Json

theorem size_canonicalize (path : List String) (value : Json) :
    size (canonicalize path value) = size value := by
  induction value using Json.inductionOn generalizing path with
  | null | bool | int | decimal | str => rfl
  | arr items ih =>
      have hsum : (((items.map (canonicalize path)).map fun item => size item + 1).sum) =
          (items.map fun item => size item + 1).sum := by
        rw [List.map_map]
        congr 1
        exact List.map_congr_left fun item hitem => by simp [ih item hitem]
      by_cases hpath : path ∈ unorderedArrayPaths
      · rw [canonicalize_arr_of_mem hpath, size_arr, size_arr, sum_map_perm (sortedBy_perm _ _), hsum]
      · rw [canonicalize_arr_of_not_mem hpath, size_arr, size_arr, hsum]
  | obj fields ih =>
      rw [canonicalize_obj, canonicalizeFields_eq_map, size_obj, size_obj, List.map_map]
      congr 3
      exact List.map_congr_left fun field hfield => by simp [ih field hfield]

/-- The size of the canonical text is the size of the value. -/
theorem byteSize_canonicalJson (value : Json) : Text.byteSize (canonicalJson value) = size value := by
  rw [canonicalJson, byteSize_dumps, size_canonicalize]

end MncsCommons.Protocol
