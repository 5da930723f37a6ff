/-
# Host-language operations on strings and values

The string methods and the conversions of JSON values that a Python program
applies to them: stripping white space, prefixes and suffixes, truth values,
`str` and `int`.

`repr` of a string escapes the control characters and the quotes; the further
characters that Unicode calls unprintable are left as they are.
-/

import MncsCommons.Data.JsonText
import Mathlib.Data.List.DropRight

namespace MncsCommons.Data

/-! ## Strings -/

/-- The white space `str.strip` removes. -/
def isSpace (c : Char) : Bool :=
  let n := c.toNat
  (9 ≤ n && n ≤ 13) || (28 ≤ n && n ≤ 32) || n == 0x85 || n == 0xA0 || n == 0x1680 ||
    (0x2000 ≤ n && n ≤ 0x200A) || n == 0x2028 || n == 0x2029 || n == 0x202F || n == 0x205F ||
    n == 0x3000

/-- Remove the characters that satisfy `p` from both ends. -/
def stripChars (p : Char → Bool) (text : Text) : Text :=
  ((text.dropWhile p).reverse.dropWhile p).reverse

theorem stripChars_eq_nil_iff {p : Char → Bool} {text : Text} :
    stripChars p text = [] ↔ ∀ c ∈ text, p c = true := by
  rw [stripChars, List.reverse_eq_nil_iff, List.dropWhile_eq_nil_iff]
  constructor
  · intro h c hc
    by_contra hnot
    have hmem : c ∈ text.dropWhile p := by
      rw [← List.takeWhile_append_dropWhile (p := p) (l := text)] at hc
      rcases List.mem_append.mp hc with hc | hc
      · exact absurd (List.mem_takeWhile_imp hc) hnot
      · exact hc
    exact hnot (h c (List.mem_reverse.mpr hmem))
  · intro h c hc
    exact h c ((List.dropWhile_sublist p).subset (List.mem_reverse.mp hc))

theorem dropWhile_stripChars (p : Char → Bool) (text : Text) :
    (stripChars p text).dropWhile p = stripChars p text := by
  rw [List.dropWhile_eq_self_iff]
  intro hpos
  have hstart : stripChars p text <+: text.dropWhile p := List.rdropWhile_prefix p _
  have hdrop : 0 < (text.dropWhile p).length := hpos.trans_le hstart.length_le
  rw [hstart.getElem hpos]
  exact List.dropWhile_get_zero_not p text hdrop

@[simp]
theorem stripChars_stripChars (p : Char → Bool) (text : Text) :
    stripChars p (stripChars p text) = stripChars p text := by
  rw [stripChars, dropWhile_stripChars, stripChars, List.reverse_reverse, List.dropWhile_idempotent]

namespace Str

/-- `str.strip()`. -/
def strip (s : String) : String := String.ofList (stripChars isSpace s.toList)

/-- Whether anything but white space is left after stripping. -/
def isBlank (s : String) : Bool := s.toList.all isSpace

@[simp]
theorem strip_strip (s : String) : Str.strip (Str.strip s) = Str.strip s := by
  simp [Str.strip]

@[simp]
theorem isBlank_strip (s : String) : Str.isBlank (Str.strip s) = Str.isBlank s := by
  have hblank : ∀ s, Str.isBlank s = true ↔ stripChars isSpace s.toList = [] := fun s => by
    rw [stripChars_eq_nil_iff, Str.isBlank, List.all_eq_true]
  rw [Bool.eq_iff_iff, hblank, hblank]
  simp [Str.strip]

/-- `str.startswith`. -/
def startsWith (s start : String) : Bool := start.toList.isPrefixOf s.toList

/-- `str.removeprefix`. -/
def removePrefix (s start : String) : String :=
  if startsWith s start then String.ofList (s.toList.drop start.toList.length) else s

/-- `str.endswith`. -/
def endsWith (s suffix : String) : Bool := suffix.toList.isSuffixOf s.toList

/-- `str.removesuffix`. -/
def removeSuffix (s suffix : String) : String :=
  if endsWith s suffix then String.ofList (s.toList.take (s.length - suffix.length)) else s

/-- `str.replace` of one character by a text. -/
def replaceChar (s : String) (old : Char) (new : String) : String :=
  String.ofList (s.toList.flatMap fun c => if c = old then new.toList else [c])

/-- `str.split` at one character. -/
def splitChar (separator : Char) : Text → List Text
  | [] => [[]]
  | c :: rest =>
      if c = separator then [] :: splitChar separator rest
      else match splitChar separator rest with
        | [] => [[c]]
        | part :: parts => (c :: part) :: parts

/-- ASCII lower case. -/
def lower (s : String) : String := String.ofList (s.toList.map Char.toLower)

/-- The upper case of a character where it is ASCII text; a character whose upper
case is not stays as it is. -/
def upperChar (c : Char) : Text :=
  match c.toNat with
  | 0xDF => ['S', 'S']
  | 0x131 => ['I']
  | 0x17F => ['S']
  | 0xFB00 => ['F', 'F']
  | 0xFB01 => ['F', 'I']
  | 0xFB02 => ['F', 'L']
  | 0xFB03 => ['F', 'F', 'I']
  | 0xFB04 => ['F', 'F', 'L']
  | 0xFB05 | 0xFB06 => ['S', 'T']
  | _ => [c.toUpper]

/-- `str.upper`, to be compared with ASCII text. -/
def upper (s : String) : String := String.ofList (s.toList.flatMap upperChar)

/-- `separator.join(parts)`. -/
def join (separator : String) (parts : List String) : String :=
  String.intercalate separator parts

theorem splitChar_of_not_mem {separator : Char} {text : Text} (h : separator ∉ text) :
    splitChar separator text = [text] := by
  induction text with
  | nil => rfl
  | cons c rest ih =>
      simp only [List.mem_cons, not_or] at h
      rw [splitChar, if_neg (Ne.symm h.1), ih h.2]

theorem splitChar_append {separator : Char} {first : Text} (h : separator ∉ first) (rest : Text) :
    splitChar separator (first ++ separator :: rest) = first :: splitChar separator rest := by
  induction first with
  | nil => simp [splitChar]
  | cons c first ih =>
      simp only [List.mem_cons, not_or] at h
      rw [List.cons_append, splitChar, if_neg (Ne.symm h.1), ih h.2]

theorem startsWith_append (start rest : String) : startsWith (start ++ rest) start = true := by
  simp [startsWith, List.isPrefixOf_iff_prefix]

theorem removePrefix_append (start rest : String) :
    removePrefix (start ++ rest) start = rest := by
  simp [removePrefix, startsWith_append]

theorem endsWith_append (rest suffix : String) : endsWith (rest ++ suffix) suffix = true := by
  simp [endsWith, List.isSuffixOf_iff_suffix]

theorem removeSuffix_append (rest suffix : String) :
    removeSuffix (rest ++ suffix) suffix = rest := by
  rw [removeSuffix, if_pos (endsWith_append rest suffix), String.length_append,
    Nat.add_sub_cancel, String.toList_append, List.take_left' String.length_toList, String.ofList_toList]

end Str

/-! ## Values -/

namespace Json

/-- `bool(value)`. -/
def truthy : Json → Bool
  | .null => false
  | .bool value => value
  | .int value => value != 0
  | .decimal literal => literal.toInt? != some 0
  | .str value => value != ""
  | .arr items => !items.isEmpty
  | .obj fields => !fields.isEmpty

/-- The string of a string value. -/
def str? : Json → Option String
  | .str value => some value
  | _ => none

/-- The members of an object. -/
def obj? : Json → Option Fields
  | .obj fields => some fields
  | _ => none

/-- The items of an array. -/
def arr? : Json → Option (List Json)
  | .arr items => some items
  | _ => none

/-- Whether the value is an object. -/
def isObj (value : Json) : Bool := value.obj?.isSome

/-- Whether the value is a string. -/
def isStr (value : Json) : Bool := value.str?.isSome

/-- Whether the value is an array. -/
def isArr (value : Json) : Bool := value.arr?.isSome

/-! The order of keys is not visible to these. -/

@[simp]
theorem str?_sortKeys (value : Json) : value.sortKeys.str? = value.str? := by
  cases value <;> simp [str?]

@[simp]
theorem obj?_sortKeys (value : Json) :
    value.sortKeys.obj? = value.obj?.map Fields.sortKeys := by
  cases value <;> simp [obj?]

@[simp]
theorem arr?_sortKeys (value : Json) :
    value.sortKeys.arr? = value.arr?.map (List.map sortKeys) := by
  cases value <;> simp [arr?]

@[simp]
theorem isObj_sortKeys (value : Json) : value.sortKeys.isObj = value.isObj := by
  simp [isObj]

@[simp]
theorem isStr_sortKeys (value : Json) : value.sortKeys.isStr = value.isStr := by
  simp [isStr]

@[simp]
theorem isArr_sortKeys (value : Json) : value.sortKeys.isArr = value.isArr := by
  simp [isArr]

@[simp]
theorem truthy_sortKeys (value : Json) : value.sortKeys.truthy = value.truthy := by
  cases value with
  | arr items => cases items <;> simp [truthy]
  | obj fields =>
      have h := (Fields.sortKeys_perm fields).length_eq
      rw [sortKeys_obj_eq, truthy, truthy, Bool.not_inj_iff, Bool.eq_iff_iff,
        List.isEmpty_iff_length_eq_zero, List.isEmpty_iff_length_eq_zero, h, List.length_map]
  | _ => rfl

theorem str?_eq_some_iff {value : Json} {s : String} : value.str? = some s ↔ value = .str s := by
  cases value <;> simp [str?]

theorem obj?_eq_some_iff {value : Json} {fields : Fields} :
    value.obj? = some fields ↔ value = .obj fields := by
  cases value <;> simp [obj?]

theorem arr?_eq_some_iff {value : Json} {items : List Json} :
    value.arr? = some items ↔ value = .arr items := by
  cases value <;> simp [arr?]

end Json

/-- One character of `repr` of a string in the given quotes. -/
def reprChar (quote : Char) (c : Char) : Text :=
  if c = quote then ['\\', quote]
  else if c = '\\' then ['\\', '\\']
  else if c = '\n' then ['\\', 'n']
  else if c = '\r' then ['\\', 'r']
  else if c = '\t' then ['\\', 't']
  else if c.toNat < 32 || (127 ≤ c.toNat && c.toNat ≤ 160) || c.toNat == 173 then
    ['\\', 'x', Nat.digitChar (c.toNat / 16), Nat.digitChar (c.toNat % 16)]
  else [c]

/-- `repr` of a string. Double quotes are used only for a string that contains
single quotes and no double ones. -/
def reprString (s : String) : Text :=
  let quote := if s.toList.contains '\'' && !s.toList.contains '"' then '"' else '\''
  quote :: (s.toList.flatMap (reprChar quote) ++ [quote])

mutual

/-- `repr` of a value. -/
def reprValue : Json → Text
  | .null => ['N', 'o', 'n', 'e']
  | .bool true => ['T', 'r', 'u', 'e']
  | .bool false => ['F', 'a', 'l', 's', 'e']
  | .int n => renderInt n
  | .decimal literal => literal.text
  | .str s => reprString s
  | .arr [] => ['[', ']']
  | .arr (item :: items) => '[' :: (reprValue item ++ reprItems items)
  | .obj [] => ['{', '}']
  | .obj ((key, value) :: fields) =>
      '{' :: (reprString key ++ ':' :: ' ' :: (reprValue value ++ reprFields fields))

/-- The items after the first, and the closing bracket. -/
def reprItems : List Json → Text
  | [] => [']']
  | item :: items => ',' :: ' ' :: (reprValue item ++ reprItems items)

/-- The members after the first, and the closing brace. -/
def reprFields : List (String × Json) → Text
  | [] => ['}']
  | (key, value) :: fields =>
      ',' :: ' ' :: (reprString key ++ ':' :: ' ' :: (reprValue value ++ reprFields fields))

end

/-- `str(value)`. -/
def Json.pyStr : Json → String
  | .str s => s
  | value => String.ofList (reprValue value)

@[simp]
theorem Json.pyStr_str (s : String) : Json.pyStr (.str s) = s := rfl

theorem Json.pyStr_null : Json.pyStr .null = "None" := by decide

/-- The first character of the text of a value that is not a string. -/
def startsRepr (c : Char) : Bool := c.isDigit || ['-', 'N', 'T', 'F', '[', '{'].contains c

theorem reprValue_eq_cons {value : Json} (h : value.str? = none) :
    ∃ c text, reprValue value = c :: text ∧ startsRepr c = true := by
  have hnumber : ∀ c : Char, c = '-' ∨ c.isDigit = true → startsRepr c = true := by
    rintro c (rfl | hdigit)
    · decide
    · simp [startsRepr, hdigit]
  cases value with
  | null => exact ⟨_, _, by rw [reprValue], by decide⟩
  | bool b => cases b <;> exact ⟨_, _, by rw [reprValue], by decide⟩
  | int n =>
      obtain ⟨c, text, heq, hc⟩ := renderInt_eq_cons n
      exact ⟨c, text, by rw [reprValue, heq], hnumber c hc⟩
  | decimal literal =>
      obtain ⟨c, text, heq, hc⟩ := literal.text_eq_cons
      exact ⟨c, text, by rw [reprValue, heq], hnumber c hc⟩
  | str s => simp [Json.str?] at h
  | arr items => cases items <;> exact ⟨_, _, by rw [reprValue], by decide⟩
  | obj fields => cases fields <;> exact ⟨_, _, by rw [reprValue], by decide⟩

/-- A text that no other value starts with is the text of that string only. -/
theorem Json.pyStr_eq_iff {value : Json} {s : String}
    (h : s.toList.head?.all fun c => !startsRepr c) :
    value.pyStr = s ↔ value = .str s := by
  constructor
  · intro heq
    cases hstr : value.str? with
    | some text =>
        rw [Json.str?_eq_some_iff] at hstr
        subst hstr
        rw [← heq, Json.pyStr_str]
    | none =>
        exfalso
        obtain ⟨c, text, hrepr, hc⟩ := reprValue_eq_cons hstr
        have hvalue : value.pyStr = String.ofList (reprValue value) := by
          cases value <;> first | rfl | simp [Json.str?] at hstr
        rw [hvalue, hrepr] at heq
        simp [← heq, hc] at h
  · rintro rfl
    rfl

/-- The integer of a sign and digits, as `int` reads a stripped string. -/
def intOfString (s : String) : Option Int :=
  match stripChars isSpace s.toList with
  | '-' :: digits =>
      if digits ≠ [] ∧ digits.all Char.isDigit then some (-(natOfDigits digits : Int)) else none
  | '+' :: digits =>
      if digits ≠ [] ∧ digits.all Char.isDigit then some (natOfDigits digits : Int) else none
  | digits =>
      if digits ≠ [] ∧ digits.all Char.isDigit then some (natOfDigits digits : Int) else none

/-- The integer part of a decimal literal, towards zero. -/
def Decimal.truncate (literal : Decimal) : Int :=
  match scanInteger literal.text with
  | none => 0
  | some (integer, afterInteger) =>
      let (fraction, afterFraction) := scanFraction afterInteger
      let exponent := intOfText (afterFraction.drop 1 |>.filter (· ≠ '+'))
      let fractionDigits := fraction.drop 1
      let mantissa := intOfText (integer ++ fractionDigits)
      let shift := exponent - fractionDigits.length
      if 0 ≤ shift then mantissa * 10 ^ shift.toNat
      else Int.tdiv mantissa (10 ^ (-shift).toNat)

/-- `int(value)`; `none` where the conversion raises. -/
def Json.pyInt : Json → Option Int
  | .int n => some n
  | .bool b => some (if b then 1 else 0)
  | .decimal literal => some literal.truncate
  | .str s => intOfString s
  | _ => none

/-- A literal that denotes an integer is converted to it. -/
theorem Decimal.truncate_eq {literal : Decimal} {n : Int} (h : literal.toInt? = some n) :
    literal.truncate = n := by
  rw [Decimal.toInt?] at h
  rw [Decimal.truncate]
  cases hscan : scanInteger literal.text with
  | none => rw [hscan] at h; cases h
  | some parts =>
      rw [hscan] at h
      dsimp only at h ⊢
      split at h
      · next hshift =>
          rw [if_pos hshift]
          exact Option.some.inj h
      · next hshift =>
          rw [if_neg hshift]
          split at h
          · next hdivides =>
              rw [Int.tdiv_eq_ediv_of_dvd (Int.dvd_of_emod_eq_zero hdivides)]
              exact Option.some.inj h
          · cases h

/-- A value that equals an integer is converted to it. -/
theorem Json.pyInt_of_pyEq {value : Json} {n : Int} (h : value.pyEq (.int n) = true) :
    value.pyInt = some n := by
  rw [Json.pyEq, decide_eq_true_eq, show Json.normal (.int n) = .int n by simp [Json.normal]] at h
  cases value with
  | int m => simpa [Json.normal, Json.pyInt] using h
  | bool b => cases b <;> simpa [Json.normal, Json.pyInt] using h
  | decimal literal =>
      rw [Json.normal] at h
      cases hvalue : literal.toInt? with
      | none => rw [hvalue] at h; cases h
      | some m =>
          rw [hvalue] at h
          rw [Json.pyInt, Decimal.truncate_eq hvalue, Json.int.inj h]
  | null | str | arr | obj => simp [Json.normal] at h

end MncsCommons.Data
