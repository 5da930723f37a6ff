/-
# JSON values

The values a JSON document can hold, with objects kept as association lists in
insertion order.  The order of an object's keys is part of the representation
and not part of its meaning, so the module supplies the two views the rest of
the development needs: `sortKeys`, the representative with every object in key
order, and `pyEq`, equality of the values a dynamically typed host would see
(key order ignored, `true` equal to `1`, `1.0` equal to `1`).

A number is either an integer or a decimal literal.  A decimal literal is kept
as its text: it is identified with what is written, not with a binary
approximation of it.

`wf` says that no object repeats a key.  Every value read back from text is
well formed; an ill-formed tree is not the value of any host dictionary.
-/

import MncsCommons.Data.Sorting
import Mathlib.Algebra.Group.Int.Defs
import Mathlib.Algebra.GroupWithZero.Nat
import Mathlib.Data.List.Lex
import Mathlib.Data.String.Basic

namespace MncsCommons.Data

/-- Decoded text. Files, documents and number literals are all lists of
characters here; their size in bytes is the size of their UTF-8 encoding. -/
abbrev Text := List Char

/-- The number of bytes of the UTF-8 encoding. -/
def Text.byteSize (text : Text) : Nat := (text.map Char.utf8Size).sum

@[simp]
theorem Text.byteSize_nil : Text.byteSize [] = 0 := rfl

@[simp]
theorem Text.byteSize_append (first second : Text) :
    Text.byteSize (first ++ second) = Text.byteSize first + Text.byteSize second := by
  simp [Text.byteSize]

/-! ## Number literals -/

/-- The unsigned integer part of a number: `0`, or digits that do not start
with `0`. -/
def scanMagnitude : Text → Option (Text × Text)
  | [] => none
  | '0' :: rest => some (['0'], rest)
  | c :: rest =>
      if c.isDigit then some (c :: rest.takeWhile Char.isDigit, rest.dropWhile Char.isDigit)
      else none

/-- The integer part of a number, with its optional sign. -/
def scanInteger : Text → Option (Text × Text)
  | '-' :: rest => (scanMagnitude rest).map fun (digits, rest) => ('-' :: digits, rest)
  | text => scanMagnitude text

/-- An optional fraction: a point with at least one digit after it. -/
def scanFraction : Text → Text × Text
  | '.' :: rest =>
      if rest.takeWhile Char.isDigit = [] then ([], '.' :: rest)
      else ('.' :: rest.takeWhile Char.isDigit, rest.dropWhile Char.isDigit)
  | text => ([], text)

/-- The digits of an exponent after its sign; none when there is no digit. -/
def scanExponentDigits (mark : Text) (text : Text) (whole : Text) : Text × Text :=
  if text.takeWhile Char.isDigit = [] then ([], whole)
  else (mark ++ text.takeWhile Char.isDigit, text.dropWhile Char.isDigit)

/-- An optional exponent. -/
def scanExponent : Text → Text × Text
  | e :: rest =>
      if e = 'e' ∨ e = 'E' then
        match rest with
        | '+' :: digits => scanExponentDigits [e, '+'] digits (e :: rest)
        | '-' :: digits => scanExponentDigits [e, '-'] digits (e :: rest)
        | digits => scanExponentDigits [e] digits (e :: rest)
      else ([], e :: rest)
  | [] => ([], [])

/-- The longest number at the start of the text: its integer part, its fraction
and exponent, and what follows. -/
def scanNumber (text : Text) : Option (Text × Text × Text) :=
  match scanInteger text with
  | none => none
  | some (integer, afterInteger) =>
      let (fraction, afterFraction) := scanFraction afterInteger
      let (exponent, rest) := scanExponent afterFraction
      some (integer, fraction ++ exponent, rest)

/-- A character that can occur in a number. -/
def isNumberChar (c : Char) : Bool :=
  c.isDigit || c == '.' || c == 'e' || c == 'E' || c == '+' || c == '-'

/-- A whole text that is a number with a fraction or an exponent. -/
def isDecimal (text : Text) : Bool :=
  text.all isNumberChar &&
    match scanNumber text with
    | some (_, tail, []) => !tail.isEmpty
    | _ => false

/-- A number written with a fraction or an exponent, identified with its text. -/
structure Decimal where
  /-- The literal as written. -/
  text : Text
  /-- The literal is one. -/
  isDecimal_text : isDecimal text = true
  deriving DecidableEq

/-- The value of a list of decimal digits. -/
def natOfDigits (digits : Text) : Nat := Nat.ofDigitChars 10 digits 0

/-- The value of an integer literal. -/
def intOfText : Text → Int
  | '-' :: digits => -(natOfDigits digits : Int)
  | digits => (natOfDigits digits : Int)

/-- The integer a decimal literal denotes, when it denotes one. -/
def Decimal.toInt? (literal : Decimal) : Option Int :=
  match scanInteger literal.text with
  | none => none
  | some (integer, afterInteger) =>
      let (fraction, afterFraction) := scanFraction afterInteger
      let exponent := intOfText (afterFraction.drop 1 |>.filter (· ≠ '+'))
      let fractionDigits := fraction.drop 1
      let mantissa := intOfText (integer ++ fractionDigits)
      let shift := exponent - fractionDigits.length
      if 0 ≤ shift then some (mantissa * 10 ^ shift.toNat)
      else if mantissa % 10 ^ (-shift).toNat = 0 then some (mantissa / 10 ^ (-shift).toNat)
      else none

/-! ## Values -/

/-- A JSON value. -/
inductive Json where
  | null
  | bool (value : Bool)
  | int (value : Int)
  | decimal (literal : Decimal)
  | str (value : String)
  | arr (items : List Json)
  | obj (fields : List (String × Json))
  deriving Inhabited

/-- The members of an object, in insertion order. -/
abbrev Fields := List (String × Json)

namespace Json

/-- Induction over a value, with the hypothesis for every item of an array and
for every member of an object. -/
@[elab_as_elim]
theorem inductionOn {motive : Json → Prop} (value : Json)
    (null : motive .null) (bool : ∀ b, motive (.bool b)) (int : ∀ n, motive (.int n))
    (decimal : ∀ d, motive (.decimal d)) (str : ∀ s, motive (.str s))
    (arr : ∀ items, (∀ item ∈ items, motive item) → motive (.arr items))
    (obj : ∀ fields, (∀ field ∈ fields, motive field.2) → motive (.obj fields)) :
    motive value := by
  refine Json.rec (motive_1 := motive)
    (motive_2 := fun items => ∀ item ∈ items, motive item)
    (motive_3 := fun fields => ∀ field ∈ fields, motive field.2)
    (motive_4 := fun field => motive field.2)
    null bool int decimal str arr obj ?_ ?_ ?_ ?_ ?_ value
  · simp
  · intro head tail hhead htail item hitem
    rcases List.mem_cons.mp hitem with rfl | hitem
    · exact hhead
    · exact htail item hitem
  · simp
  · intro head tail hhead htail field hfield
    rcases List.mem_cons.mp hfield with rfl | hfield
    · exact hhead
    · exact htail field hfield
  · intro _ _ h
    exact h

/-! ### Decidable equality -/

mutual

/-- Structural equality test. -/
def beq : Json → Json → Bool
  | .null, .null => true
  | .bool a, .bool b => a == b
  | .int a, .int b => a == b
  | .decimal a, .decimal b => decide (a = b)
  | .str a, .str b => a == b
  | .arr a, .arr b => beqItems a b
  | .obj a, .obj b => beqFields a b
  | _, _ => false

/-- `beq` along two arrays. -/
def beqItems : List Json → List Json → Bool
  | [], [] => true
  | a :: as, b :: bs => beq a b && beqItems as bs
  | _, _ => false

/-- `beq` along two objects, order included. -/
def beqFields : List (String × Json) → List (String × Json) → Bool
  | [], [] => true
  | (k, a) :: as, (l, b) :: bs => k == l && beq a b && beqFields as bs
  | _, _ => false

end

theorem beqItems_iff {items : List Json}
    (h : ∀ item ∈ items, ∀ other, beq item other = true ↔ item = other) (others : List Json) :
    beqItems items others = true ↔ items = others := by
  induction items generalizing others with
  | nil => cases others <;> simp [beqItems]
  | cons item items ih =>
      cases others with
      | nil => simp [beqItems]
      | cons other others =>
          simp only [beqItems, Bool.and_eq_true, List.cons.injEq]
          rw [h item (by simp), ih fun x hx => h x (by simp [hx])]

theorem beqFields_iff {fields : Fields}
    (h : ∀ field ∈ fields, ∀ other, beq field.2 other = true ↔ field.2 = other)
    (others : Fields) : beqFields fields others = true ↔ fields = others := by
  induction fields generalizing others with
  | nil => cases others <;> simp [beqFields]
  | cons field fields ih =>
      obtain ⟨key, value⟩ := field
      cases others with
      | nil => simp [beqFields]
      | cons other others =>
          obtain ⟨otherKey, otherValue⟩ := other
          simp only [beqFields, Bool.and_eq_true, List.cons.injEq, Prod.mk.injEq, beq_iff_eq]
          rw [h (key, value) (by simp), ih fun x hx => h x (by simp [hx])]

theorem beq_iff (value other : Json) : beq value other = true ↔ value = other := by
  induction value using inductionOn generalizing other with
  | null => cases other <;> simp [beq]
  | bool b => cases other <;> simp [beq]
  | int n => cases other <;> simp [beq]
  | decimal d => cases other <;> simp [beq]
  | str s => cases other <;> simp [beq]
  | arr items ih => cases other <;> simp [beq, beqItems_iff ih]
  | obj fields ih => cases other <;> simp [beq, beqFields_iff ih]

instance : DecidableEq Json := fun value other =>
  decidable_of_iff (beq value other = true) (beq_iff value other)

end Json

/-! ## Members by name

The lookups are generic in the value: objects use them, and so does any other
collection of named entries that keeps its insertion order. -/

namespace Fields

variable {α β : Type}

/-- The value of a key, if it is there. -/
def get? : List (String × α) → String → Option α
  | [], _ => none
  | (k, value) :: rest, key => if k = key then some value else get? rest key

/-- The value of a key, with `null` for a missing one. -/
def get (fields : Fields) (key : String) : Json := (get? fields key).getD .null

/-- Whether the key is there. -/
def has (fields : List (String × α)) (key : String) : Bool := (get? fields key).isSome

/-- The keys, in insertion order. -/
def keys (fields : List (String × α)) : List String := fields.map Prod.fst

/-- Assign a key: in place when it is there, at the end otherwise. -/
def set : List (String × α) → String → α → List (String × α)
  | [], key, value => [(key, value)]
  | (k, v) :: rest, key, value =>
      if k = key then (k, value) :: rest else (k, v) :: set rest key value

/-- Remove a key. -/
def erase (fields : List (String × α)) (key : String) : List (String × α) :=
  fields.filter fun field => field.1 ≠ key

/-- The object built by assigning the pairs in order, so that the last value of
a repeated key stays, in the place of its first. -/
def ofPairs (pairs : List (String × Json)) : Fields :=
  pairs.foldl (fun fields pair => set fields pair.1 pair.2) []

/-- `fields.update(pairs)`. -/
def update (fields : List (String × α)) (pairs : List (String × α)) : List (String × α) :=
  pairs.foldl (fun fields pair => set fields pair.1 pair.2) fields

/-- A value other than `null` is there. -/
theorem get?_of_get {fields : Fields} {key : String} {value : Json} (h : get fields key = value)
    (hne : value ≠ .null) : get? fields key = some value := by
  rw [get] at h
  cases hget : get? fields key with
  | none => rw [hget] at h; exact absurd h.symm hne
  | some found => rw [hget, Option.getD_some] at h; rw [h]

theorem get?_eq_none_iff {fields : List (String × α)} {key : String} :
    get? fields key = none ↔ key ∉ keys fields := by
  induction fields with
  | nil => simp [get?, keys]
  | cons field fields ih =>
      obtain ⟨k, v⟩ := field
      by_cases hk : k = key
      · simp [get?, keys, hk]
      · rw [get?, if_neg hk, ih]
        simp [keys, Ne.symm hk]

theorem mem_of_get?_eq_some {fields : List (String × α)} {key : String} {value : α}
    (h : get? fields key = some value) : (key, value) ∈ fields := by
  induction fields with
  | nil => simp [get?] at h
  | cons field fields ih =>
      obtain ⟨k, v⟩ := field
      by_cases hk : k = key
      · simp only [get?, if_pos hk, Option.some.injEq] at h
        simp [hk, h]
      · rw [get?, if_neg hk] at h
        exact List.mem_cons_of_mem _ (ih h)

theorem get?_eq_some_of_mem {fields : List (String × α)} (hnodup : (keys fields).Nodup)
    {key : String} {value : α} (h : (key, value) ∈ fields) :
    get? fields key = some value := by
  induction fields with
  | nil => simp at h
  | cons field fields ih =>
      obtain ⟨k, v⟩ := field
      simp only [keys, List.map_cons, List.nodup_cons] at hnodup
      rcases List.mem_cons.mp h with heq | hmem
      · cases heq
        simp [get?]
      · have hne : k ≠ key := by
          rintro rfl
          exact hnodup.1 (List.mem_map.mpr ⟨(k, value), hmem, rfl⟩)
        rw [get?, if_neg hne]
        exact ih hnodup.2 hmem

theorem get?_map (f : α → β) (fields : List (String × α)) (key : String) :
    get? (fields.map fun field => (field.1, f field.2)) key = (get? fields key).map f := by
  induction fields with
  | nil => rfl
  | cons field fields ih =>
      obtain ⟨k, v⟩ := field
      by_cases hk : k = key
      · simp [get?, hk]
      · simpa [get?, hk] using ih

theorem get?_perm {first second : List (String × α)} (hperm : first.Perm second)
    (hnodup : (keys first).Nodup) (key : String) : get? first key = get? second key := by
  cases h : get? second key with
  | none =>
      rw [get?_eq_none_iff] at h ⊢
      exact fun hmem => h ((hperm.map Prod.fst).mem_iff.mp hmem)
  | some value =>
      exact get?_eq_some_of_mem hnodup (hperm.mem_iff.mpr (mem_of_get?_eq_some h))

theorem get?_set (fields : List (String × α)) (key : String) (value : α) (other : String) :
    get? (set fields key value) other =
      if key = other then some value else get? fields other := by
  induction fields with
  | nil => simp [set, get?]
  | cons field fields ih =>
      obtain ⟨k, v⟩ := field
      by_cases hk : k = key
      · subst hk
        by_cases h : k = other <;> simp [set, get?, h]
      · by_cases h : k = other
        · subst h
          simp [set, get?, hk, Ne.symm hk]
        · simpa [set, get?, hk, h] using ih

theorem get?_append (first second : List (String × α)) (key : String) :
    get? (first ++ second) key = (get? first key).or (get? second key) := by
  induction first with
  | nil => simp [get?]
  | cons field first ih =>
      obtain ⟨k, v⟩ := field
      by_cases hk : k = key
      · simp [get?, hk]
      · simpa [get?, hk] using ih

/-- An update gives the last value of a key in the pairs, else the one from before. -/
theorem get?_update (fields pairs : List (String × α)) (key : String) :
    get? (update fields pairs) key = (get? pairs.reverse key).or (get? fields key) := by
  induction pairs generalizing fields with
  | nil => rfl
  | cons pair pairs ih =>
      rw [show update fields (pair :: pairs) = update (set fields pair.1 pair.2) pairs from rfl, ih,
        List.reverse_cons, get?_append, get?_set, Option.or_assoc]
      congr 1
      simp only [get?]
      split <;> simp

theorem get?_erase (fields : List (String × α)) (key other : String) :
    get? (erase fields key) other = if key = other then none else get? fields other := by
  induction fields with
  | nil => simp [erase, get?]
  | cons field fields ih =>
      obtain ⟨k, v⟩ := field
      simp only [erase] at ih ⊢
      by_cases hk : k = key
      · subst hk
        by_cases h : k = other
        · simpa [get?, h] using ih
        · simpa [get?, h] using ih
      · by_cases h : k = other
        · subst h
          simp [get?, hk, Ne.symm hk]
        · simpa [get?, hk, h] using ih

theorem nodup_keys_erase {fields : List (String × α)} (h : (keys fields).Nodup) (key : String) :
    (keys (erase fields key)).Nodup :=
  h.sublist (List.filter_sublist.map Prod.fst)

theorem set_of_not_mem {fields : List (String × α)} {key : String} (value : α)
    (h : key ∉ keys fields) : set fields key value = fields ++ [(key, value)] := by
  induction fields with
  | nil => rfl
  | cons field fields ih =>
      obtain ⟨k, v⟩ := field
      simp only [keys, List.map_cons, List.mem_cons, not_or] at h
      simp [set, Ne.symm h.1, ih h.2]

theorem keys_set_of_mem {fields : List (String × α)} {key : String} (value : α)
    (h : key ∈ keys fields) : keys (set fields key value) = keys fields := by
  induction fields with
  | nil => simp [keys] at h
  | cons field fields ih =>
      obtain ⟨k, v⟩ := field
      by_cases hk : k = key
      · simp [set, keys, hk]
      · have hmem : key ∈ keys fields := by simpa [keys, Ne.symm hk] using h
        simpa [set, keys, hk] using ih hmem

theorem nodup_keys_set {fields : List (String × α)} (key : String) (value : α)
    (h : (keys fields).Nodup) : (keys (set fields key value)).Nodup := by
  by_cases hmem : key ∈ keys fields
  · rwa [keys_set_of_mem value hmem]
  · rw [set_of_not_mem value hmem]
    simp only [keys, List.map_append, List.map_cons, List.map_nil]
    exact List.concat_eq_append ▸ h.concat hmem

theorem mem_keys_set {fields : List (String × α)} {key : String} {value : α} {name : String} :
    name ∈ keys (set fields key value) ↔ name ∈ keys fields ∨ name = key := by
  by_cases hmem : key ∈ keys fields
  · rw [keys_set_of_mem value hmem]
    exact ⟨.inl, fun h => h.elim id fun h => h ▸ hmem⟩
  · rw [set_of_not_mem value hmem]
    simp [keys, eq_comm]

/-- Assigning the value a key has changes nothing. -/
theorem set_of_get?_eq_some {fields : List (String × α)} {key : String} {value : α}
    (h : get? fields key = some value) : set fields key value = fields := by
  induction fields with
  | nil => exact absurd h (by simp [get?])
  | cons field fields ih =>
      obtain ⟨name, found⟩ := field
      by_cases hname : name = key
      · rw [get?, if_pos hname, Option.some_inj] at h
        rw [set, if_pos hname, h]
      · rw [get?, if_neg hname] at h
        rw [set, if_neg hname, ih h]

theorem set_set (fields : List (String × α)) (key : String) (first second : α) :
    set (set fields key first) key second = set fields key second := by
  induction fields with
  | nil => simp [set]
  | cons field fields ih =>
      obtain ⟨k, v⟩ := field
      by_cases hk : k = key
      · simp [set, hk]
      · simp [set, hk, ih]

theorem mem_set {fields : List (String × α)} {key : String} {value : α} {field : String × α}
    (h : field ∈ set fields key value) : field ∈ fields ∨ field.2 = value := by
  induction fields with
  | nil => simp_all [set]
  | cons head fields ih =>
      obtain ⟨k, v⟩ := head
      by_cases hk : k = key
      · rw [set, if_pos hk] at h
        rcases List.mem_cons.mp h with rfl | h
        · exact .inr rfl
        · exact .inl (List.mem_cons_of_mem _ h)
      · rw [set, if_neg hk] at h
        rcases List.mem_cons.mp h with rfl | h
        · exact .inl (by simp)
        · exact (ih h).imp_left (List.mem_cons_of_mem _)

/-- Assigning pairs with distinct keys builds exactly those pairs. -/
theorem ofPairs_of_nodup {pairs : List (String × Json)} (h : (keys pairs).Nodup) :
    ofPairs pairs = pairs := by
  suffices hfold : ∀ (acc rest : Fields), (keys (acc ++ rest)).Nodup →
      rest.foldl (fun fields pair => set fields pair.1 pair.2) acc = acc ++ rest from
    hfold [] pairs h
  intro acc rest
  induction rest generalizing acc with
  | nil => simp
  | cons pair rest ih =>
      intro hnodup
      have hnew : pair.1 ∉ keys acc := by
        intro hmem
        simp only [keys, List.map_append, List.map_cons] at hnodup
        exact (List.nodup_append.mp hnodup).2.2 _ hmem _ (by simp) rfl
      rw [List.foldl_cons, set_of_not_mem _ hnew, ih]
      · simp
      · simpa using hnodup

theorem nodup_keys_ofPairs (pairs : List (String × Json)) : (keys (ofPairs pairs)).Nodup := by
  suffices hfold : ∀ (acc : Fields), (keys acc).Nodup →
      (keys (pairs.foldl (fun fields pair => set fields pair.1 pair.2) acc)).Nodup from
    hfold [] (by simp [keys])
  induction pairs with
  | nil => exact fun _ h => h
  | cons pair pairs ih => exact fun acc h => ih _ (nodup_keys_set _ _ h)

theorem mem_ofPairs {pairs : List (String × Json)} {field : String × Json}
    (h : field ∈ ofPairs pairs) : ∃ pair ∈ pairs, field.2 = pair.2 := by
  suffices hfold : ∀ (acc : Fields),
      field ∈ pairs.foldl (fun fields pair => set fields pair.1 pair.2) acc →
        field ∈ acc ∨ ∃ pair ∈ pairs, field.2 = pair.2 by
    simpa using hfold [] h
  clear h
  induction pairs with
  | nil => exact fun _ h => .inl h
  | cons pair pairs ih =>
      intro acc h
      rcases ih _ h with h | ⟨other, hmem, heq⟩
      · rcases mem_set h with h | h
        · exact .inl h
        · exact .inr ⟨pair, by simp, h⟩
      · exact .inr ⟨other, by simp [hmem], heq⟩

end Fields

/-! ## Well-formed values -/

namespace Json

mutual

/-- No object in the value repeats a key. -/
def wf : Json → Bool
  | .arr items => wfItems items
  | .obj fields => decide (Fields.keys fields).Nodup && wfFields fields
  | _ => true

/-- `wf` along an array. -/
def wfItems : List Json → Bool
  | [] => true
  | item :: items => wf item && wfItems items

/-- `wf` along an object's members. -/
def wfFields : List (String × Json) → Bool
  | [] => true
  | (_, value) :: fields => wf value && wfFields fields

end

@[simp]
theorem wf_arr_iff {items : List Json} :
    wf (.arr items) = true ↔ ∀ item ∈ items, wf item = true := by
  rw [wf]
  induction items with
  | nil => simp [wfItems]
  | cons item items ih => simp [wfItems, ih]

theorem wf_obj_iff {fields : Fields} :
    wf (.obj fields) = true ↔
      (Fields.keys fields).Nodup ∧ ∀ field ∈ fields, wf field.2 = true := by
  rw [wf, Bool.and_eq_true, decide_eq_true_eq, and_congr_right_iff]
  intro _
  clear ‹(Fields.keys fields).Nodup›
  induction fields with
  | nil => simp [wfFields]
  | cons field fields ih =>
      obtain ⟨key, value⟩ := field
      rw [wfFields, Bool.and_eq_true, List.forall_mem_cons, ih]

theorem wf_get {fields : Fields} (h : wf (.obj fields) = true) (key : String) :
    wf (Fields.get fields key) = true := by
  rw [Fields.get]
  cases hvalue : Fields.get? fields key with
  | none => rfl
  | some value => exact (wf_obj_iff.mp h).2 _ (Fields.mem_of_get?_eq_some hvalue)

theorem wf_set {fields : Fields} {key : String} {value : Json} (hfields : wf (.obj fields) = true)
    (hvalue : wf value = true) : wf (.obj (Fields.set fields key value)) = true := by
  obtain ⟨hnodup, hwf⟩ := wf_obj_iff.mp hfields
  refine wf_obj_iff.mpr ⟨Fields.nodup_keys_set key value hnodup, fun field hfield => ?_⟩
  rcases Fields.mem_set hfield with hold | hnew
  · exact hwf field hold
  · rwa [hnew]

theorem wf_erase {fields : Fields} (h : wf (.obj fields) = true) (key : String) :
    wf (.obj (Fields.erase fields key)) = true := by
  obtain ⟨hnodup, hwf⟩ := wf_obj_iff.mp h
  exact wf_obj_iff.mpr ⟨Fields.nodup_keys_erase hnodup key,
    fun field hfield => hwf field (List.mem_of_mem_filter hfield)⟩

/-! ## Key order -/

mutual

/-- The value with the members of every object in key order. -/
def sortKeys : Json → Json
  | .arr items => .arr (sortKeysItems items)
  | .obj fields => .obj (sortedBy Prod.fst (sortKeysFields fields))
  | value => value

/-- `sortKeys` along an array. -/
def sortKeysItems : List Json → List Json
  | [] => []
  | item :: items => sortKeys item :: sortKeysItems items

/-- `sortKeys` of every member, in the order given. -/
def sortKeysFields : List (String × Json) → List (String × Json)
  | [] => []
  | (key, value) :: fields => (key, sortKeys value) :: sortKeysFields fields

end

@[simp]
theorem sortKeys_arr (items : List Json) :
    sortKeys (.arr items) = .arr (items.map sortKeys) := by
  rw [sortKeys]
  congr 1
  induction items with
  | nil => rfl
  | cons item items ih => simp [sortKeysItems, ih]

theorem sortKeys_obj (fields : Fields) :
    sortKeys (.obj fields) =
      .obj (sortedBy Prod.fst (fields.map fun field => (field.1, sortKeys field.2))) := by
  rw [sortKeys]
  congr 2
  induction fields with
  | nil => rfl
  | cons field fields ih => simp [sortKeysFields, ih]

@[simp]
theorem sortKeys_null : sortKeys .null = .null := rfl

@[simp]
theorem sortKeys_bool (b : Bool) : sortKeys (.bool b) = .bool b := rfl

@[simp]
theorem sortKeys_int (n : Int) : sortKeys (.int n) = .int n := rfl

@[simp]
theorem sortKeys_decimal (d : Decimal) : sortKeys (.decimal d) = .decimal d := rfl

@[simp]
theorem sortKeys_str (s : String) : sortKeys (.str s) = .str s := rfl

end Json

/-- The members of `sortKeys`. -/
def Fields.sortKeys (fields : Fields) : Fields :=
  sortedBy Prod.fst (fields.map fun field => (field.1, Json.sortKeys field.2))

namespace Fields

theorem sortKeys_perm (fields : Fields) :
    (sortKeys fields).Perm (fields.map fun field => (field.1, Json.sortKeys field.2)) :=
  sortedBy_perm _ _

theorem keys_sortKeys_perm (fields : Fields) : (keys (sortKeys fields)).Perm (keys fields) := by
  have h := (sortKeys_perm fields).map Prod.fst
  simpa [keys, Function.comp_def] using h

theorem get?_orderedInsert (field : String × Json) (fields : Fields) (key : String) :
    get? (fields.orderedInsert (fun a b => a.1 ≤ b.1) field) key = get? (field :: fields) key := by
  induction fields with
  | nil => rfl
  | cons head fields ih =>
      by_cases hle : field.1 ≤ head.1
      · rw [List.orderedInsert, if_pos hle]
      · have hne : field.1 ≠ head.1 := fun h => hle (le_of_eq h)
        rw [List.orderedInsert, if_neg hle, get?, ih]
        by_cases hhead : head.1 = key
        · have hfield : field.1 ≠ key := fun h => hne (h.trans hhead.symm)
          simp [get?, hhead, hfield]
        · simp [get?, hhead]

/-- Sorting by key is stable, so the first value of a key stays its first. -/
theorem get?_sortedBy (fields : Fields) (key : String) :
    get? (sortedBy Prod.fst fields) key = get? fields key := by
  induction fields with
  | nil => rfl
  | cons field fields ih =>
      rw [sortedBy, List.insertionSort_cons, get?_orderedInsert, get?, get?]
      simp only [sortedBy] at ih
      rw [ih]

theorem get?_sortKeys (fields : Fields) (key : String) :
    get? (sortKeys fields) key = (get? fields key).map Json.sortKeys := by
  rw [sortKeys, get?_sortedBy, get?_map]

@[simp]
theorem get_sortKeys (fields : Fields) (key : String) :
    get (sortKeys fields) key = (get fields key).sortKeys := by
  cases h : get? fields key <;> simp [get, get?_sortKeys, h]

@[simp]
theorem has_sortKeys (fields : Fields) (key : String) :
    has (sortKeys fields) key = has fields key := by
  simp [has, get?_sortKeys]

theorem erase_sortKeys (fields : Fields) (key : String) :
    erase (sortKeys fields) key = sortKeys (erase fields key) := by
  rw [erase, sortKeys, filter_sortedBy, List.filter_map, sortKeys, erase]
  rfl

/-- Removing a member forgets what was assigned to it. -/
theorem erase_set (fields : List (String × α)) (key : String) (value : α) :
    erase (set fields key value) key = erase fields key := by
  induction fields with
  | nil => simp [set, erase]
  | cons field fields ih =>
      obtain ⟨name, found⟩ := field
      by_cases hname : name = key
      · simp [set, erase, hname]
      · simpa [set, erase, hname] using ih

theorem erase_erase (fields : List (String × α)) (first second : String) :
    erase (erase fields first) second = erase (erase fields second) first := by
  rw [erase, erase, erase, erase, List.filter_comm]

/-- Removing a member that is not there changes nothing. -/
theorem erase_of_not_mem {fields : List (String × α)} {key : String} (h : key ∉ keys fields) :
    erase fields key = fields := by
  rw [erase, List.filter_eq_self]
  intro field hfield
  have hne : field.1 ≠ key := fun heq => h (heq ▸ List.mem_map_of_mem hfield)
  simpa using hne

end Fields

namespace Json

@[simp]
theorem sortKeys_obj_eq (fields : Fields) :
    sortKeys (.obj fields) = .obj (Fields.sortKeys fields) := sortKeys_obj fields

@[simp]
theorem wf_sortKeys (value : Json) : wf (sortKeys value) = wf value := by
  rw [Bool.eq_iff_iff]
  induction value using inductionOn with
  | null | bool | int | decimal | str => rfl
  | arr items ih => simpa using forall₂_congr ih
  | obj fields ih =>
      rw [sortKeys_obj_eq, wf_obj_iff, wf_obj_iff, (Fields.keys_sortKeys_perm fields).nodup_iff]
      refine and_congr_right fun _ => ?_
      constructor
      · intro h field hfield
        refine (ih field hfield).mp (h (field.1, sortKeys field.2) ?_)
        exact (Fields.sortKeys_perm fields).mem_iff.mpr (List.mem_map.mpr ⟨field, hfield, rfl⟩)
      · intro h field hfield
        obtain ⟨source, hsource, rfl⟩ :=
          List.mem_map.mp ((Fields.sortKeys_perm fields).mem_iff.mp hfield)
        exact (ih source hsource).mpr (h source hsource)

@[simp]
theorem sortKeys_sortKeys (value : Json) : sortKeys (sortKeys value) = sortKeys value := by
  induction value using inductionOn with
  | null | bool | int | decimal | str => rfl
  | arr items ih =>
      simp only [sortKeys_arr, List.map_map, arr.injEq]
      exact List.map_congr_left ih
  | obj fields ih =>
      rw [sortKeys_obj, sortKeys_obj]
      have hmap : (sortedBy Prod.fst (fields.map fun field => (field.1, sortKeys field.2))).map
          (fun field => (field.1, sortKeys field.2)) =
          sortedBy Prod.fst (fields.map fun field => (field.1, sortKeys field.2)) := by
        rw [map_sortedBy Prod.fst _ (by simp), List.map_map]
        congr 1
        refine List.map_congr_left fun field hfield => ?_
        simp [ih field hfield]
      rw [hmap, sortedBy_sortedBy]

end Json

@[simp]
theorem Fields.sortKeys_sortKeys (fields : Fields) : 
    sortKeys (sortKeys fields) = sortKeys fields := by
  have h := Json.sortKeys_sortKeys (.obj fields)
  rw [Json.sortKeys_obj_eq, Json.sortKeys_obj_eq] at h
  exact Json.obj.inj h

namespace Json

/-- A well-formed object is determined up to key order by its lookups, so two
orders of the same members have one sorted representative. -/
theorem sortKeys_obj_eq_of_perm {first second : Fields} (hperm : first.Perm second)
    (hnodup : (Fields.keys first).Nodup) :
    sortKeys (.obj first) = sortKeys (.obj second) := by
  rw [sortKeys_obj, sortKeys_obj]
  congr 1
  refine sortedBy_eq_of_perm (hperm.map _) fun a ha b hb hkey => ?_
  obtain ⟨a, hamem, rfl⟩ := List.mem_map.mp ha
  obtain ⟨b, hbmem, rfl⟩ := List.mem_map.mp hb
  have hvalue : Fields.get? first a.1 = some a.2 := Fields.get?_eq_some_of_mem hnodup hamem
  rw [show a.1 = b.1 from hkey, Fields.get?_eq_some_of_mem hnodup hbmem] at hvalue
  obtain rfl : b = a := Prod.ext hkey.symm (Option.some.inj hvalue)
  rfl

/-- Two well-formed objects with the same lookups up to key order have one
sorted representative. -/
theorem sortKeys_obj_ext {first second : Fields} (hfirst : (Fields.keys first).Nodup)
    (hsecond : (Fields.keys second).Nodup)
    (h : ∀ key, (Fields.get? first key).map sortKeys = (Fields.get? second key).map sortKeys) :
    sortKeys (.obj first) = sortKeys (.obj second) := by
  have hkeys : ∀ fields : Fields, (Fields.keys fields).Nodup → (Fields.sortKeys fields).Nodup :=
    fun fields hnodup =>
      List.Nodup.of_map Prod.fst ((Fields.keys_sortKeys_perm fields).nodup_iff.mpr hnodup)
  have hmem : ∀ field, field ∈ Fields.sortKeys first ↔ field ∈ Fields.sortKeys second := by
    have hlookup : ∀ fields : Fields, (Fields.keys fields).Nodup → ∀ field,
        field ∈ Fields.sortKeys fields ↔
          Fields.get? (Fields.sortKeys fields) field.1 = some field.2 := by
      refine fun fields hnodup field => ⟨fun hfield => ?_, Fields.mem_of_get?_eq_some⟩
      exact Fields.get?_eq_some_of_mem
        ((Fields.keys_sortKeys_perm fields).nodup_iff.mpr hnodup) hfield
    intro field
    rw [hlookup first hfirst, hlookup second hsecond, Fields.get?_sortKeys, Fields.get?_sortKeys, h]
  have hperm := (List.perm_ext_iff_of_nodup (hkeys first hfirst) (hkeys second hsecond)).mpr hmem
  have hsorted := sortKeys_obj_eq_of_perm hperm
    ((Fields.keys_sortKeys_perm first).nodup_iff.mpr hfirst)
  rwa [← sortKeys_obj_eq, ← sortKeys_obj_eq, sortKeys_sortKeys, sortKeys_sortKeys] at hsorted

/-! ## Host equality -/

mutual

/-- The representative of a value under host equality: objects in key order,
Booleans and integral decimals as integers. -/
def normal : Json → Json
  | .bool value => .int (if value then 1 else 0)
  | .decimal literal => match literal.toInt? with
      | some value => .int value
      | none => .decimal literal
  | .arr items => .arr (normalItems items)
  | .obj fields => .obj (sortedBy Prod.fst (normalFields fields))
  | value => value

/-- `normal` along an array. -/
def normalItems : List Json → List Json
  | [] => []
  | item :: items => normal item :: normalItems items

/-- `normal` of every member. -/
def normalFields : List (String × Json) → List (String × Json)
  | [] => []
  | (key, value) :: fields => (key, normal value) :: normalFields fields

end

@[simp]
theorem normal_arr (items : List Json) : normal (.arr items) = .arr (items.map normal) := by
  rw [normal]
  congr 1
  induction items with
  | nil => rfl
  | cons item items ih => simp [normalItems, ih]

theorem normal_obj (fields : Fields) :
    normal (.obj fields) =
      .obj (sortedBy Prod.fst (fields.map fun field => (field.1, normal field.2))) := by
  rw [normal]
  congr 2
  induction fields with
  | nil => rfl
  | cons field fields ih => simp [normalFields, ih]

/-- Host equality does not see the order of keys. -/
@[simp]
theorem normal_sortKeys (value : Json) : normal (sortKeys value) = normal value := by
  induction value using inductionOn with
  | null | bool | int | decimal | str => rfl
  | arr items ih =>
      simp only [sortKeys_arr, normal_arr, List.map_map, arr.injEq]
      exact List.map_congr_left ih
  | obj fields ih =>
      rw [sortKeys_obj, normal_obj, normal_obj, map_sortedBy Prod.fst _ (by simp),
        sortedBy_sortedBy, List.map_map]
      congr 2
      refine List.map_congr_left fun field hfield => ?_
      simp [ih field hfield]

/-- Equality as the host computes it. -/
def pyEq (first second : Json) : Bool := decide (normal first = normal second)

example : pyEq (.bool true) (.int 1) = true := by simp [pyEq, normal]

@[simp]
theorem pyEq_sortKeys_left (first second : Json) :
    pyEq first.sortKeys second = pyEq first second := by
  simp [pyEq]

@[simp]
theorem pyEq_sortKeys_right (first second : Json) :
    pyEq first second.sortKeys = pyEq first second := by
  simp [pyEq]

@[simp]
theorem pyEq_self (value : Json) : pyEq value value = true := by
  simp [pyEq]

theorem pyEq_comm (first second : Json) : pyEq first second = pyEq second first := by
  simp [pyEq, eq_comm]

theorem pyEq_trans {first second third : Json} (h : pyEq first second = true)
    (hthird : pyEq second third = true) : pyEq first third = true := by
  rw [pyEq, decide_eq_true_eq] at h hthird ⊢
  exact h.trans hthird

theorem normal_eq_str {value : Json} {s : String} : normal value = .str s ↔ value = .str s := by
  cases value with
  | decimal literal => rw [normal]; cases literal.toInt? <;> simp
  | arr items => simp
  | obj fields => simp [normal_obj]
  | _ => simp [normal]

/-- A string equals only itself. -/
@[simp]
theorem pyEq_str_iff {value : Json} {s : String} : pyEq value (.str s) = true ↔ value = .str s := by
  rw [pyEq, decide_eq_true_eq]
  exact normal_eq_str

theorem normal_eq_null {value : Json} : normal value = .null ↔ value = .null := by
  cases value with
  | decimal literal => rw [normal]; cases literal.toInt? <;> simp
  | arr items => simp
  | obj fields => simp [normal_obj]
  | _ => simp [normal]

@[simp]
theorem pyEq_null_iff {value : Json} : pyEq value .null = true ↔ value = .null := by
  rw [pyEq, decide_eq_true_eq]
  exact normal_eq_null

@[simp]
theorem pyEq_int_iff {first second : Int} : pyEq (.int first) (.int second) = true ↔
    first = second := by
  simp [pyEq, normal]

/-- A value equals at most one integer. -/
theorem eq_of_pyEq_int {value : Json} {first second : Int} (hfirst : pyEq value (.int first) = true)
    (hsecond : pyEq value (.int second) = true) : first = second := by
  rw [pyEq, decide_eq_true_eq] at hfirst hsecond
  rw [← pyEq_int_iff, pyEq, decide_eq_true_eq, ← hfirst, hsecond]

/-- Only objects equal an object. -/
theorem exists_obj_of_pyEq {value : Json} {fields : Fields}
    (h : pyEq value (.obj fields) = true) : ∃ found, value = .obj found := by
  rw [pyEq, decide_eq_true_eq, normal_obj] at h
  cases value with
  | obj found => exact ⟨found, rfl⟩
  | decimal literal =>
      rw [normal] at h
      cases hint : literal.toInt? <;> rw [hint] at h <;> cases h
  | arr items =>
      rw [normal_arr] at h
      cases h
  | _ =>
      simp [normal] at h

/-- Equal objects have equal members. -/
theorem pyEq_get {first second : Fields} (h : pyEq (.obj first) (.obj second) = true)
    (key : String) : pyEq (Fields.get first key) (Fields.get second key) = true := by
  have hlookup : ∀ fields : Fields,
      (Fields.get? (sortedBy Prod.fst (fields.map fun field => (field.1, normal field.2))) key).getD
        .null = normal (Fields.get fields key) := by
    intro fields
    rw [Fields.get?_sortedBy, Fields.get?_map, Fields.get]
    cases Fields.get? fields key <;> rfl
  rw [pyEq, decide_eq_true_eq, normal_obj, normal_obj] at h
  rw [pyEq, decide_eq_true_eq, ← hlookup, ← hlookup, obj.inj h]

@[simp]
theorem sortKeys_eq_str {value : Json} {s : String} :
    sortKeys value = .str s ↔ value = .str s := by
  cases value <;> simp

@[simp]
theorem sortKeys_eq_null {value : Json} : sortKeys value = .null ↔ value = .null := by
  cases value <;> simp

end Json

end MncsCommons.Data
