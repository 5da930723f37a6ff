/-
# Paths as texts

A path is a text cut at its slashes.  Resolving a path drops its empty and `.`
segments and lets a `..` take back the segment before it; a path that is spelled
without them is resolved already.
-/

import MncsCommons.Data.Python

namespace MncsCommons.Data

namespace Path

/-- The segments of a path. -/
def segments (text : Text) : List Text := Str.splitChar '/' text

/-- The path of some segments. -/
def ofSegments : List Text → Text
  | [] => []
  | [segment] => segment
  | segment :: segments => segment ++ '/' :: ofSegments segments

/-- Follow one segment, from the segments so far in reverse. -/
def follow (done : List Text) (segment : Text) : List Text :=
  if segment = [] ∨ segment = ['.'] then done
  else if segment = ['.', '.'] then
    match done with
    | [] => [segment]
    | last :: rest => if last = ['.', '.'] then segment :: done else rest
  else segment :: done

/-- The segments a path comes down to. -/
def resolve (segments : List Text) : List Text := (segments.foldl follow []).reverse

/-- A segment that resolving leaves alone. -/
def IsPlain (segment : Text) : Prop := segment ≠ [] ∧ segment ≠ ['.'] ∧ segment ≠ ['.', '.']

instance (segment : Text) : Decidable (IsPlain segment) :=
  inferInstanceAs (Decidable (_ ∧ _ ∧ _))

/-! ## Cutting and joining -/

theorem segments_ne_nil (text : Text) : segments text ≠ [] := by
  cases text with
  | nil => simp [segments, Str.splitChar]
  | cons c text =>
      rw [segments, Str.splitChar]
      split
      · exact List.cons_ne_nil _ _
      · split <;> exact List.cons_ne_nil _ _

/-- Segments of two paths with a slash between them. -/
theorem segments_append (first rest : Text) :
    segments (first ++ '/' :: rest) = segments first ++ segments rest := by
  induction first with
  | nil => simp [segments, Str.splitChar]
  | cons c first ih =>
      simp only [segments] at ih ⊢
      rw [List.cons_append, Str.splitChar, Str.splitChar]
      split
      · rw [ih, List.cons_append]
      · cases hfirst : Str.splitChar '/' first with
        | nil => exact absurd hfirst (segments_ne_nil first)
        | cons segment segments => rw [ih, hfirst]; rfl

theorem ofSegments_cons {segments : List Text} (h : segments ≠ []) (segment : Text) :
    ofSegments (segment :: segments) = segment ++ '/' :: ofSegments segments := by
  cases segments with
  | nil => exact absurd rfl h
  | cons next segments => rfl

/-- Joining the segments gives the path back. -/
theorem ofSegments_segments (text : Text) : ofSegments (segments text) = text := by
  induction text with
  | nil => rfl
  | cons c text ih =>
      have hjoin : ofSegments ([] :: segments text) = '/' :: ofSegments (segments text) :=
        ofSegments_cons (segments_ne_nil text) []
      simp only [segments] at ih hjoin ⊢
      rw [Str.splitChar]
      split
      · next hslash => rw [hjoin, ih, hslash]
      · cases htext : Str.splitChar '/' text with
        | nil => exact absurd htext (segments_ne_nil text)
        | cons segment rest =>
            rw [htext] at ih
            rw [← ih]
            cases rest <;> rfl

/-! ## Resolving -/

theorem foldl_follow_of_plain {segments : List Text} (h : ∀ segment ∈ segments, IsPlain segment)
    (done : List Text) : segments.foldl follow done = segments.reverse ++ done := by
  induction segments generalizing done with
  | nil => rfl
  | cons segment segments ih =>
      obtain ⟨hempty, hdot, hdots⟩ := h segment List.mem_cons_self
      have hfollow : follow done segment = segment :: done := by
        simp only [follow, hempty, hdot, hdots, or_self, if_false]
      rw [List.foldl_cons, hfollow,
        ih fun other hother => h other (List.mem_cons_of_mem _ hother), List.reverse_cons,
        List.append_assoc, List.singleton_append]

/-- A path of plain segments is resolved. -/
theorem resolve_of_plain {segments : List Text} (h : ∀ segment ∈ segments, IsPlain segment) :
    resolve segments = segments := by
  rw [resolve, foldl_follow_of_plain h, List.append_nil, List.reverse_reverse]

end Path

/-- `str.replace` of a text that is not empty, after the next `skip` characters. -/
def replaceFrom (old new : Text) : Nat → Text → Text
  | _, [] => []
  | skip + 1, _ :: rest => replaceFrom old new skip rest
  | 0, c :: rest =>
      if old.isPrefixOf (c :: rest) then new ++ replaceFrom old new (old.length - 1) rest
      else c :: replaceFrom old new 0 rest

theorem replaceFrom_length (old new first rest : Text) :
    replaceFrom old new first.length (first ++ rest) = replaceFrom old new 0 rest := by
  induction first with
  | nil => rfl
  | cons c first ih => exact ih

/-- A text that begins with the replaced one begins with the other afterwards. -/
theorem replaceFrom_append {old : Text} (h : old ≠ []) (new rest : Text) :
    replaceFrom old new 0 (old ++ rest) = new ++ replaceFrom old new 0 rest := by
  cases old with
  | nil => exact absurd rfl h
  | cons c old =>
      have hfound : (c :: old).isPrefixOf (c :: (old ++ rest)) = true :=
        List.isPrefixOf_iff_prefix.mpr ⟨rest, rfl⟩
      rw [List.cons_append, replaceFrom, if_pos hfound, List.length_cons, Nat.add_sub_cancel,
        replaceFrom_length]

end MncsCommons.Data
