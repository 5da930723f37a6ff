/-
# Sequences of checks

Validators that stop at the first fault.  A sequence of checks returns exactly
when each of them does, and a check of every item of a list returns the results
in the order of the items.
-/

import Mathlib.Data.List.Forall2

namespace MncsCommons.Data

variable {ε α β : Type}

/-- A sequence returns when both parts do. -/
theorem bind_eq_ok_iff {first : Except ε α} {next : α → Except ε β} {value : β} :
    (first >>= next) = .ok value ↔ ∃ middle, first = .ok middle ∧ next middle = .ok value := by
  cases first <;> simp [bind, Except.bind]

theorem ok_bind (value : α) (next : α → Except ε β) :
    ((Except.ok value : Except ε α) >>= next) = next value := rfl

theorem exists_of_isOk {result : Except ε α} (h : result.isOk = true) :
    ∃ value, result = .ok value := by
  cases result with
  | error error => cases h
  | ok value => exact ⟨value, rfl⟩

/-- Fail unless the condition holds. -/
def requireThat (condition : Bool) (fault : ε) : Except ε Unit :=
  if condition then .ok () else .error fault

@[simp]
theorem requireThat_eq_ok_iff {condition : Bool} {fault : ε} {value : Unit} :
    requireThat condition fault = .ok value ↔ condition = true := by
  cases condition <;> simp [requireThat]

/-- A required condition holds, and the rest goes on. -/
theorem requireThat_bind_eq_ok_iff {condition : Bool} {fault : ε} {next : Unit → Except ε α}
    {value : α} :
    (requireThat condition fault >>= next) = .ok value ↔ condition = true ∧ next () = .ok value := by
  rw [bind_eq_ok_iff]
  constructor
  · rintro ⟨⟨⟩, hcondition, hnext⟩
    exact ⟨requireThat_eq_ok_iff.mp hcondition, hnext⟩
  · rintro ⟨hcondition, hnext⟩
    exact ⟨(), requireThat_eq_ok_iff.mpr hcondition, hnext⟩

/-- Check the items of a list, counting them from `index`. -/
def checkEach (check : Nat → α → Except ε β) : Nat → List α → Except ε (List β)
  | _, [] => .ok []
  | index, item :: items => do
      let value ← check index item
      let values ← checkEach check (index + 1) items
      return value :: values

/-- The results of a list of checks, item by item. -/
theorem forall₂_of_checkEach {check : Nat → α → Except ε β} {index : Nat} {items : List α}
    {values : List β} (h : checkEach check index items = .ok values) :
    List.Forall₂ (fun item value => ∃ position, check position item = .ok value) items values := by
  induction items generalizing index values with
  | nil =>
      obtain rfl := Except.ok.inj h
      exact .nil
  | cons item items ih =>
      obtain ⟨value, hvalue, hrest⟩ := bind_eq_ok_iff.mp h
      obtain ⟨rest, hitems, hvalues⟩ := bind_eq_ok_iff.mp hrest
      obtain rfl := Except.ok.inj hvalues
      exact .cons ⟨index, hvalue⟩ (ih hitems)

/-- Checks that leave their results alone accept them together. -/
theorem checkEach_idem {check : Nat → α → Except ε α}
    (hcheck : ∀ index item value, check index item = .ok value → check index value = .ok value)
    {index : Nat} {items values : List α} (h : checkEach check index items = .ok values) :
    checkEach check index values = .ok values := by
  induction items generalizing index values with
  | nil =>
      obtain rfl := Except.ok.inj h
      rfl
  | cons item items ih =>
      obtain ⟨value, hvalue, h⟩ := bind_eq_ok_iff.mp h
      obtain ⟨rest, hrest, h⟩ := bind_eq_ok_iff.mp h
      obtain rfl := Except.ok.inj h
      rw [checkEach, hcheck index item value hvalue, ok_bind, ih hrest]
      rfl

/-! ## Lists that agree item by item -/

/-- What a list has, the other has beside it. -/
theorem exists_of_mem_left {related : α → β → Prop} {first : List α} {second : List β}
    (h : List.Forall₂ related first second) {item : α} (hitem : item ∈ first) :
    ∃ other ∈ second, related item other := by
  induction h with
  | nil => cases hitem
  | cons hrelated _ ih =>
      rcases List.mem_cons.mp hitem with rfl | hitem
      · exact ⟨_, List.mem_cons_self, hrelated⟩
      · obtain ⟨other, hmem, hother⟩ := ih hitem
        exact ⟨other, List.mem_cons_of_mem _ hmem, hother⟩

theorem exists_of_mem_right {related : α → β → Prop} {first : List α} {second : List β}
    (h : List.Forall₂ related first second) {other : β} (hother : other ∈ second) :
    ∃ item ∈ first, related item other :=
  exists_of_mem_left h.flip hother

end MncsCommons.Data
