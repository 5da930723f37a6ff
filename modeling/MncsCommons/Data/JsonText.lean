/-
# JSON text

Compact JSON text with sorted keys (`dumps`), the reader for arbitrary JSON
text (`loads`), and the round trip between them: reading what was written gives
back the value with its keys in order.

The reader is a recursive descent over the remaining characters.  Its fuel
bounds the nesting and the number of items; `loads` supplies more than a text
of that length can use.  Besides the round trip two facts about it are used:
written text holds no line break, and a text that reads as an object never
reads as anything once more text follows it.

Escapes that denote half of a surrogate pair have no value here, since a
`Char` is a Unicode scalar value.
-/

import MncsCommons.Data.Json
import Mathlib.Data.List.TakeWhile

namespace MncsCommons.Data

/-! ## Writing -/

/-- One character inside a string literal. Only the quote, the backslash and
the control characters are escaped. -/
def escapeChar (c : Char) : Text :=
  if c = '"' then ['\\', '"']
  else if c = '\\' then ['\\', '\\']
  else if c = '\n' then ['\\', 'n']
  else if c = '\r' then ['\\', 'r']
  else if c = '\t' then ['\\', 't']
  else if c = '\x0c' then ['\\', 'f']
  else if c = '\x08' then ['\\', 'b']
  else if c.toNat < 32 then
    ['\\', 'u', '0', '0', Nat.digitChar (c.toNat / 16), Nat.digitChar (c.toNat % 16)]
  else [c]

/-- A string literal. -/
def renderString (s : String) : Text := '"' :: (s.toList.flatMap escapeChar ++ ['"'])

/-- An integer literal. -/
def renderInt : Int → Text
  | .ofNat n => Nat.toDigits 10 n
  | .negSucc n => '-' :: Nat.toDigits 10 (n + 1)

mutual

/-- The text of a value, members in the order the value holds them. -/
def render : Json → Text
  | .null => ['n', 'u', 'l', 'l']
  | .bool true => ['t', 'r', 'u', 'e']
  | .bool false => ['f', 'a', 'l', 's', 'e']
  | .int n => renderInt n
  | .decimal literal => literal.text
  | .str s => renderString s
  | .arr [] => ['[', ']']
  | .arr (item :: items) => '[' :: (render item ++ renderItems items)
  | .obj [] => ['{', '}']
  | .obj ((key, value) :: fields) =>
      '{' :: (renderString key ++ ':' :: (render value ++ renderFields fields))

/-- The items after the first, and the closing bracket. -/
def renderItems : List Json → Text
  | [] => [']']
  | item :: items => ',' :: (render item ++ renderItems items)

/-- The members after the first, and the closing brace. -/
def renderFields : List (String × Json) → Text
  | [] => ['}']
  | (key, value) :: fields =>
      ',' :: (renderString key ++ ':' :: (render value ++ renderFields fields))

end

/-- Compact text with the members of every object in key order. -/
def dumps (value : Json) : Text := render value.sortKeys

/-! ## Reading -/

/-- White space between tokens. -/
def isWs (c : Char) : Bool := c = ' ' || c = '\t' || c = '\n' || c = '\r'

/-- The text after any white space. -/
def skipWs (text : Text) : Text := text.dropWhile isWs

/-- The value of a hexadecimal digit. -/
def hexValue (c : Char) : Option Nat :=
  if c.isDigit then some (c.toNat - '0'.toNat)
  else if 'a' ≤ c ∧ c ≤ 'f' then some (c.toNat - 'a'.toNat + 10)
  else if 'A' ≤ c ∧ c ≤ 'F' then some (c.toNat - 'A'.toNat + 10)
  else none

/-- Four hexadecimal digits. -/
def parseHex4 : Text → Option (Nat × Text)
  | a :: b :: c :: d :: rest => do
      let a ← hexValue a
      let b ← hexValue b
      let c ← hexValue c
      let d ← hexValue d
      return (((a * 16 + b) * 16 + c) * 16 + d, rest)
  | _ => none

/-- The character of a `\u` escape whose digits have the given value: a scalar
value, or a high surrogate that a low one must follow. -/
def parseUnicode (code : Nat) (rest : Text) : Option (Char × Text) :=
  if 0xD800 ≤ code ∧ code ≤ 0xDBFF then
    match rest with
    | '\\' :: 'u' :: rest => do
        let (low, rest) ← parseHex4 rest
        if 0xDC00 ≤ low ∧ low ≤ 0xDFFF then
          return (Char.ofNat (0x10000 + (code - 0xD800) * 0x400 + (low - 0xDC00)), rest)
        else none
    | _ => none
  else if 0xDC00 ≤ code ∧ code ≤ 0xDFFF then none
  else some (Char.ofNat code, rest)

/-- The character an escape denotes, after its backslash. -/
def parseEscape : Text → Option (Char × Text)
  | '"' :: rest => some ('"', rest)
  | '\\' :: rest => some ('\\', rest)
  | '/' :: rest => some ('/', rest)
  | 'n' :: rest => some ('\n', rest)
  | 'r' :: rest => some ('\r', rest)
  | 't' :: rest => some ('\t', rest)
  | 'f' :: rest => some ('\x0c', rest)
  | 'b' :: rest => some ('\x08', rest)
  | 'u' :: rest => do
      let (code, rest) ← parseHex4 rest
      parseUnicode code rest
  | _ => none

/-- The characters of a string literal, after its opening quote. -/
def parseChars : Nat → Text → Option (Text × Text)
  | 0, _ => none
  | _ + 1, [] => none
  | n + 1, c :: rest =>
      if c = '"' then some ([], rest)
      else if c = '\\' then do
        let (escaped, rest) ← parseEscape rest
        let (chars, rest) ← parseChars n rest
        return (escaped :: chars, rest)
      else if c.toNat < 32 then none
      else do
        let (chars, rest) ← parseChars n rest
        return (c :: chars, rest)

/-- A string literal, after its opening quote. -/
def parseString (text : Text) : Option (String × Text) :=
  (parseChars (text.length + 1) text).map fun (chars, rest) => (String.ofList chars, rest)

/-- The value of a number literal. -/
def numberOfText (literal : Text) : Option Json :=
  if h : isDecimal literal = true then some (.decimal ⟨literal, h⟩)
  else match scanNumber literal with
    | some (integer, [], []) => some (.int (intOfText integer))
    | _ => none

/-- A number. No value can follow a number directly, so the literal is the
longest run of characters that can occur in one. -/
def parseNumber (text : Text) : Option (Json × Text) :=
  (numberOfText (text.takeWhile isNumberChar)).map fun value =>
    (value, text.dropWhile isNumberChar)

mutual

/-- One value at the start of the text, and what follows it. -/
def parseValue : Nat → Text → Option (Json × Text)
  | 0, _ => none
  | n + 1, text =>
      match text with
      | '"' :: rest => (parseString rest).map fun (s, rest) => (.str s, rest)
      | '[' :: rest =>
          match skipWs rest with
          | ']' :: rest => some (.arr [], rest)
          | rest => do
              let (item, rest) ← parseValue n rest
              let (items, rest) ← parseItems n (skipWs rest)
              return (.arr (item :: items), rest)
      | '{' :: rest =>
          match skipWs rest with
          | '}' :: rest => some (.obj [], rest)
          | rest => do
              let (field, rest) ← parseMember n rest
              let (fields, rest) ← parseFields n (skipWs rest)
              return (.obj (Fields.ofPairs (field :: fields)), rest)
      | 'n' :: 'u' :: 'l' :: 'l' :: rest => some (.null, rest)
      | 't' :: 'r' :: 'u' :: 'e' :: rest => some (.bool true, rest)
      | 'f' :: 'a' :: 'l' :: 's' :: 'e' :: rest => some (.bool false, rest)
      | text => parseNumber text

/-- The items after the first one, up to the closing bracket. -/
def parseItems : Nat → Text → Option (List Json × Text)
  | 0, _ => none
  | n + 1, text =>
      match text with
      | ']' :: rest => some ([], rest)
      | ',' :: rest => do
          let (item, rest) ← parseValue n (skipWs rest)
          let (items, rest) ← parseItems n (skipWs rest)
          return (item :: items, rest)
      | _ => none

/-- A key, a colon and a value. -/
def parseMember : Nat → Text → Option ((String × Json) × Text)
  | 0, _ => none
  | n + 1, text =>
      match text with
      | '"' :: rest => do
          let (key, rest) ← parseString rest
          match skipWs rest with
          | ':' :: rest =>
              let (value, rest) ← parseValue n (skipWs rest)
              return ((key, value), rest)
          | _ => none
      | _ => none

/-- The members after the first one, up to the closing brace. -/
def parseFields : Nat → Text → Option (List (String × Json) × Text)
  | 0, _ => none
  | n + 1, text =>
      match text with
      | '}' :: rest => some ([], rest)
      | ',' :: rest => do
          let (field, rest) ← parseMember n (skipWs rest)
          let (fields, rest) ← parseFields n (skipWs rest)
          return (field :: fields, rest)
      | _ => none

end

/-- The value of a whole text. -/
def loads (text : Text) : Option Json :=
  match parseValue (text.length + 1) (skipWs text) with
  | some (value, rest) => if skipWs rest = [] then some value else none
  | none => none

/-! ## Numbers read back -/

/-- What follows a number: nothing, or a character that cannot continue it. -/
def EndsNumber (rest : Text) : Prop := ∀ c ∈ rest.head?, isNumberChar c = false

theorem EndsNumber.cons {c : Char} {rest : Text} (h : isNumberChar c = false) :
    EndsNumber (c :: rest) := by
  simpa [EndsNumber] using h

theorem parseNumber_append {literal rest : Text} (hliteral : ∀ c ∈ literal, isNumberChar c = true)
    (hrest : EndsNumber rest) :
    parseNumber (literal ++ rest) = (numberOfText literal).map fun value => (value, rest) := by
  have htake : rest.takeWhile isNumberChar = [] := by
    cases rest with
    | nil => rfl
    | cons c rest => simp [hrest c (by simp)]
  have hdrop : rest.dropWhile isNumberChar = rest := by
    cases rest with
    | nil => rfl
    | cons c rest => simp [hrest c (by simp)]
  rw [parseNumber, List.takeWhile_append_of_pos hliteral, List.dropWhile_append_of_pos hliteral,
    htake, hdrop, List.append_nil]

theorem parseNumber_decimal {rest : Text} (hrest : EndsNumber rest) (literal : Decimal) :
    parseNumber (literal.text ++ rest) = some (.decimal literal, rest) := by
  have hdecimal := literal.isDecimal_text
  have hchars : ∀ c ∈ literal.text, isNumberChar c = true := by
    simp only [isDecimal, Bool.and_eq_true, List.all_eq_true] at hdecimal
    exact hdecimal.1
  rw [parseNumber_append hchars hrest, numberOfText, dif_pos hdecimal]
  rfl

theorem toDigits_eq_cons (n : Nat) :
    ∃ c digits, Nat.toDigits 10 n = c :: digits ∧ (c = '0' → digits = []) := by
  induction n using Nat.strongRecOn with
  | ind n ih =>
      rw [Nat.toDigits_eq_if (by decide)]
      split
      · exact ⟨_, [], rfl, fun _ => rfl⟩
      · obtain ⟨c, digits, hdigits, hzero⟩ := ih (n / 10) (by omega)
        refine ⟨c, digits ++ [(n % 10).digitChar], by simp [hdigits], fun hc => ?_⟩
        -- a leading zero would make `n / 10` zero
        exfalso
        subst hc
        have hvalue := Nat.ofDigitChars_toDigits (n := n / 10) (b := 10) (by decide) (by decide)
        rw [hdigits, hzero rfl] at hvalue
        have : n / 10 = 0 := by simpa [Nat.ofDigitChars] using hvalue.symm
        omega

theorem scanMagnitude_toDigits (n : Nat) :
    scanMagnitude (Nat.toDigits 10 n) = some (Nat.toDigits 10 n, []) := by
  obtain ⟨c, digits, hdigits, hzero⟩ := toDigits_eq_cons n
  have hall : ∀ d ∈ c :: digits, d.isDigit = true := fun d hd =>
    Nat.isDigit_of_mem_toDigits (b := 10) (n := n) (by decide) (by decide) (hdigits ▸ hd)
  rw [hdigits]
  by_cases hc : c = '0'
  · subst hc
    simp [scanMagnitude, hzero rfl]
  · have htake : digits.takeWhile Char.isDigit = digits :=
      List.takeWhile_eq_self_iff.mpr fun d hd => hall d (by simp [hd])
    have hdrop : digits.dropWhile Char.isDigit = [] :=
      List.dropWhile_eq_nil_iff.mpr fun d hd => hall d (by simp [hd])
    simp [scanMagnitude, hall c (by simp), htake, hdrop]

theorem natOfDigits_toDigits (n : Nat) : natOfDigits (Nat.toDigits 10 n) = n :=
  Nat.ofDigitChars_toDigits (by decide) (by decide)

theorem scanInteger_renderInt (n : Int) :
    scanInteger (renderInt n) = some (renderInt n, []) := by
  cases n with
  | ofNat n =>
      obtain ⟨c, digits, hdigits, _⟩ := toDigits_eq_cons n
      have hdigit : c.isDigit = true :=
        Nat.isDigit_of_mem_toDigits (b := 10) (n := n) (by decide) (by decide) (by simp [hdigits])
      have hsign : c ≠ '-' := by
        rintro rfl
        exact absurd hdigit (by decide)
      have hscan := scanMagnitude_toDigits n
      simp only [renderInt]
      rw [hdigits] at hscan ⊢
      rw [scanInteger, hscan]
      intro rest hrest
      exact hsign (List.cons.inj hrest).1
  | negSucc n => simp [renderInt, scanInteger, scanMagnitude_toDigits]

theorem intOfText_renderInt (n : Int) : intOfText (renderInt n) = n := by
  cases n with
  | ofNat n =>
      obtain ⟨c, digits, hdigits, _⟩ := toDigits_eq_cons n
      have hdigit : c.isDigit = true :=
        Nat.isDigit_of_mem_toDigits (b := 10) (n := n) (by decide) (by decide) (by simp [hdigits])
      have hsign : c ≠ '-' := by
        rintro rfl
        exact absurd hdigit (by decide)
      have hvalue := natOfDigits_toDigits n
      simp only [renderInt]
      rw [hdigits] at hvalue ⊢
      rw [intOfText, hvalue]
      · rfl
      · intro rest hrest
        exact hsign (List.cons.inj hrest).1
  | negSucc n =>
      simp only [renderInt, intOfText, natOfDigits_toDigits]
      omega

theorem isNumberChar_of_mem_renderInt {n : Int} {c : Char} (h : c ∈ renderInt n) :
    isNumberChar c = true := by
  have hdigits {m : Nat} (h : c ∈ Nat.toDigits 10 m) : isNumberChar c = true := by
    simp [isNumberChar, Nat.isDigit_of_mem_toDigits (b := 10) (by decide) (by decide) h]
  cases n with
  | ofNat n => exact hdigits h
  | negSucc n =>
      rcases List.mem_cons.mp h with rfl | h
      · decide
      · exact hdigits h

theorem parseNumber_int {rest : Text} (hrest : EndsNumber rest) (n : Int) :
    parseNumber (renderInt n ++ rest) = some (.int n, rest) := by
  have hscan : scanNumber (renderInt n) = some (renderInt n, [], []) := by
    simp [scanNumber, scanInteger_renderInt, scanFraction, scanExponent]
  rw [parseNumber_append (fun c => isNumberChar_of_mem_renderInt) hrest]
  simp [numberOfText, isDecimal, hscan, intOfText_renderInt]

/-! ## Strings read back -/

theorem hexValue_digitChar {n : Nat} (h : n < 16) : hexValue (Nat.digitChar n) = some n := by
  revert n
  decide

private theorem parseEscape_control {c : Char} (h : c.toNat < 32) (rest : Text) :
    parseEscape ('u' :: '0' :: '0' :: Nat.digitChar (c.toNat / 16) ::
      Nat.digitChar (c.toNat % 16) :: rest) = some (c, rest) := by
  have hzero : hexValue '0' = some 0 := by decide
  have hhigh := hexValue_digitChar (n := c.toNat / 16) (by omega)
  have hlow := hexValue_digitChar (n := c.toNat % 16) (by omega)
  have hcode : ((0 * 16 + 0) * 16 + c.toNat / 16) * 16 + c.toNat % 16 = c.toNat := by omega
  have hchar : parseUnicode c.toNat rest = some (c, rest) := by
    unfold parseUnicode
    rw [if_neg (by omega), if_neg (by omega), Char.ofNat_toNat]
  simp only [parseEscape, parseHex4, hzero, hhigh, hlow, Option.bind_eq_bind, Option.bind_some,
    pure, hcode, hchar]

theorem parseChars_escapeChar (n : Nat) (c : Char) (rest : Text) :
    parseChars (n + 1) (escapeChar c ++ rest) =
      (parseChars n rest).map fun (chars, rest) => (c :: chars, rest) := by
  have hmap : ∀ d : Char, (do let (chars, rest) ← parseChars n rest; pure (d :: chars, rest)) =
      (parseChars n rest).map fun (chars, rest) => (d :: chars, rest) := by
    intro d
    cases parseChars n rest <;> rfl
  have hescape : ∀ (d e : Char), parseEscape (e :: rest) = some (d, rest) →
      parseChars (n + 1) ('\\' :: e :: rest) =
        (parseChars n rest).map fun (chars, rest) => (d :: chars, rest) := by
    intro d e h
    rw [← hmap d]
    simp [parseChars, h]
  unfold escapeChar
  split
  · subst c; exact hescape _ _ rfl
  split
  · subst c; exact hescape _ _ rfl
  split
  · subst c; exact hescape _ _ rfl
  split
  · subst c; exact hescape _ _ rfl
  split
  · subst c; exact hescape _ _ rfl
  split
  · subst c; exact hescape _ _ rfl
  split
  · subst c; exact hescape _ _ rfl
  split
  · rename_i hcontrol
    rw [← hmap c]
    simp [parseChars, parseEscape_control hcontrol]
  · rename_i hquote hbackslash _ _ _ _ _ hprintable
    rw [← hmap c]
    simp [parseChars, hquote, hbackslash, hprintable]

theorem parseChars_flatMap (chars : Text) (n : Nat) (h : chars.length < n) (rest : Text) :
    parseChars n (chars.flatMap escapeChar ++ '"' :: rest) = some (chars, rest) := by
  induction chars generalizing n with
  | nil =>
      obtain ⟨n, rfl⟩ : ∃ m, n = m + 1 := ⟨n - 1, by simp at h; omega⟩
      simp [parseChars]
  | cons c chars ih =>
      obtain ⟨n, rfl⟩ : ∃ m, n = m + 1 := ⟨n - 1, by simp at h; omega⟩
      simp only [List.flatMap_cons, List.append_assoc]
      rw [parseChars_escapeChar, ih n (by simpa using h)]
      rfl

theorem escapeChar_length_pos (c : Char) : 0 < (escapeChar c).length := by
  unfold escapeChar
  split_ifs <;> simp

theorem parseString_renderString (s : String) (rest : Text) :
    parseString (s.toList.flatMap escapeChar ++ '"' :: rest) = some (s, rest) := by
  have hlength : s.toList.length ≤ (s.toList.flatMap escapeChar).length := by
    generalize s.toList = chars
    induction chars with
    | nil => simp
    | cons c chars ih =>
        have := escapeChar_length_pos c
        simp only [List.flatMap_cons, List.length_append, List.length_cons]
        omega
  rw [parseString, parseChars_flatMap]
  · simp
  · simp only [List.length_append, List.length_cons]
    omega

/-! ## Values read back -/

/-- The first character of a written value: never white space, and never one
that closes or separates. -/
def startsValue (c : Char) : Bool := !isWs c && c != ']' && c != '}'

theorem skipWs_cons {c : Char} (h : isWs c = false) (text : Text) :
    skipWs (c :: text) = c :: text := by
  simp [skipWs, h]

theorem renderInt_eq_cons (n : Int) :
    ∃ c text, renderInt n = c :: text ∧ (c = '-' ∨ c.isDigit = true) := by
  cases n with
  | ofNat n =>
      obtain ⟨c, digits, hdigits, _⟩ := toDigits_eq_cons n
      refine ⟨c, digits, hdigits, .inr ?_⟩
      exact Nat.isDigit_of_mem_toDigits (b := 10) (n := n) (by decide) (by decide)
        (by simp [hdigits])
  | negSucc n => exact ⟨'-', _, rfl, .inl rfl⟩

theorem scanMagnitude_eq_cons {text digits after : Text}
    (h : scanMagnitude text = some (digits, after)) :
    ∃ c rest, text = c :: rest ∧ c.isDigit = true := by
  unfold scanMagnitude at h
  split at h
  · cases h
  · exact ⟨'0', _, rfl, by decide⟩
  · rename_i c rest _
    split at h
    · exact ⟨c, rest, rfl, by assumption⟩
    · cases h

theorem scanInteger_eq_cons {text integer after : Text}
    (h : scanInteger text = some (integer, after)) :
    ∃ c rest, text = c :: rest ∧ (c = '-' ∨ c.isDigit = true) := by
  unfold scanInteger at h
  split at h
  · exact ⟨'-', _, rfl, .inl rfl⟩
  · obtain ⟨c, rest, htext, hdigit⟩ := scanMagnitude_eq_cons h
    exact ⟨c, rest, htext, .inr hdigit⟩

theorem scanNumber_eq_cons {text integer tail after : Text}
    (h : scanNumber text = some (integer, tail, after)) :
    ∃ c rest, text = c :: rest ∧ (c = '-' ∨ c.isDigit = true) := by
  unfold scanNumber at h
  split at h
  · cases h
  · exact scanInteger_eq_cons ‹_›

theorem Decimal.text_eq_cons (literal : Decimal) :
    ∃ c text, literal.text = c :: text ∧ (c = '-' ∨ c.isDigit = true) := by
  have hdecimal := literal.isDecimal_text
  simp only [isDecimal, Bool.and_eq_true] at hdecimal
  have hscan := hdecimal.2
  split at hscan
  · exact scanNumber_eq_cons ‹_›
  · cases hscan

theorem numberOfText_eq_cons {literal : Text} {value : Json}
    (h : numberOfText literal = some value) :
    ∃ c text, literal = c :: text ∧ (c = '-' ∨ c.isDigit = true) := by
  unfold numberOfText at h
  split at h
  · rename_i hdecimal
    exact Decimal.text_eq_cons ⟨literal, hdecimal⟩
  · split at h
    · exact scanNumber_eq_cons ‹_›
    · cases h

theorem parseNumber_eq_cons {text rest : Text} {value : Json}
    (h : parseNumber text = some (value, rest)) :
    ∃ c tail, text = c :: tail ∧ (c = '-' ∨ c.isDigit = true) := by
  simp only [parseNumber, Option.map_eq_some_iff, Prod.mk.injEq] at h
  obtain ⟨_, hnumber, _, _⟩ := h
  obtain ⟨c, tail, htake, hc⟩ := numberOfText_eq_cons hnumber
  have hsplit := List.takeWhile_append_dropWhile (p := isNumberChar) (l := text)
  rw [htake] at hsplit
  exact ⟨c, _, hsplit.symm, hc⟩

private theorem number_start {c : Char} (h : c = '-' ∨ c.isDigit = true) :
    startsValue c = true ∧ c ≠ '"' ∧ c ≠ '[' ∧ c ≠ '{' ∧ c ≠ 'n' ∧ c ≠ 't' ∧ c ≠ 'f' := by
  rcases h with rfl | h
  · decide
  · refine ⟨?_, ?_, ?_, ?_, ?_, ?_, ?_⟩
    · simp only [startsValue, isWs, Bool.and_eq_true, Bool.not_eq_true', Bool.or_eq_false_iff,
        decide_eq_false_iff_not, bne_iff_ne]
      refine ⟨⟨⟨⟨⟨?_, ?_⟩, ?_⟩, ?_⟩, ?_⟩, ?_⟩ <;> (rintro rfl; revert h; decide)
    all_goals (rintro rfl; revert h; decide)

theorem render_eq_cons (value : Json) :
    ∃ c text, render value = c :: text ∧ startsValue c = true := by
  match value with
  | .null => exact ⟨_, _, rfl, by decide⟩
  | .bool true => exact ⟨_, _, rfl, by decide⟩
  | .bool false => exact ⟨_, _, rfl, by decide⟩
  | .int n =>
      obtain ⟨c, text, htext, hc⟩ := renderInt_eq_cons n
      exact ⟨c, text, by simp [render, htext], (number_start hc).1⟩
  | .decimal literal =>
      obtain ⟨c, text, htext, hc⟩ := literal.text_eq_cons
      exact ⟨c, text, by simp [render, htext], (number_start hc).1⟩
  | .str s => exact ⟨_, _, rfl, by decide⟩
  | .arr [] => exact ⟨_, _, rfl, by decide⟩
  | .arr (item :: items) => exact ⟨_, _, rfl, by decide⟩
  | .obj [] => exact ⟨_, _, rfl, by decide⟩
  | .obj ((key, value) :: fields) => exact ⟨_, _, rfl, by decide⟩

theorem skipWs_render_append (value : Json) (rest : Text) :
    skipWs (render value ++ rest) = render value ++ rest := by
  obtain ⟨c, text, htext, hc⟩ := render_eq_cons value
  simp only [startsValue, Bool.and_eq_true, Bool.not_eq_true'] at hc
  rw [htext, List.cons_append, skipWs_cons hc.1.1]

/-- A text that starts with a digit or a sign is read as a number. -/
theorem parseValue_of_number {c : Char} (h : c = '-' ∨ c.isDigit = true) (n : Nat)
    (text : Text) : parseValue (n + 1) (c :: text) = parseNumber (c :: text) := by
  obtain ⟨-, hquote, hbracket, hbrace, hn, ht, hf⟩ := number_start h
  unfold parseValue
  split <;> simp_all

/-- Reading a written value gives the value and leaves what follows it. -/
def ReadsBack (value : Json) : Prop :=
  value.wf = true → ∀ (n : Nat) (rest : Text), (render value).length ≤ n → EndsNumber rest →
    parseValue n (render value ++ rest) = some (value, rest)

theorem endsNumber_renderItems (items : List Json) (rest : Text) :
    EndsNumber (renderItems items ++ rest) := by
  cases items <;> exact EndsNumber.cons (by decide)

theorem endsNumber_renderFields (fields : Fields) (rest : Text) :
    EndsNumber (renderFields fields ++ rest) := by
  cases fields with
  | nil => exact EndsNumber.cons (by decide)
  | cons field fields => exact EndsNumber.cons (by decide)

theorem skipWs_renderItems (items : List Json) (rest : Text) :
    skipWs (renderItems items ++ rest) = renderItems items ++ rest := by
  cases items <;> exact skipWs_cons (by decide) _

theorem skipWs_renderFields (fields : Fields) (rest : Text) :
    skipWs (renderFields fields ++ rest) = renderFields fields ++ rest := by
  cases fields with
  | nil => exact skipWs_cons (by decide) _
  | cons field fields => exact skipWs_cons (by decide) _

theorem parseItems_renderItems {items : List Json} (ih : ∀ item ∈ items, ReadsBack item)
    (hwf : ∀ item ∈ items, item.wf = true) (n : Nat) (rest : Text)
    (hn : (renderItems items).length ≤ n) :
    parseItems n (renderItems items ++ rest) = some (items, rest) := by
  induction items generalizing n with
  | nil =>
      obtain ⟨n, rfl⟩ : ∃ m, n = m + 1 := ⟨n - 1, by simp [renderItems] at hn; omega⟩
      rfl
  | cons item items ihItems =>
      simp only [renderItems, List.length_cons, List.length_append] at hn
      obtain ⟨n, rfl⟩ : ∃ m, n = m + 1 := ⟨n - 1, by omega⟩
      have hitem := ih item (by simp) (hwf item (by simp)) n (renderItems items ++ rest)
        (by omega) (endsNumber_renderItems items rest)
      have hitems := ihItems (fun x hx => ih x (by simp [hx])) (fun x hx => hwf x (by simp [hx]))
        n (by omega)
      simp only [renderItems, List.cons_append, List.append_assoc, parseItems,
        skipWs_render_append, hitem, Option.bind_eq_bind, Option.bind_some, skipWs_renderItems,
        hitems, pure]

theorem parseMember_render {value : Json} (ih : ReadsBack value) (hwf : value.wf = true)
    (key : String) (n : Nat) (rest : Text)
    (hn : (renderString key ++ ':' :: render value).length ≤ n) (hrest : EndsNumber rest) :
    parseMember n (renderString key ++ ':' :: (render value ++ rest)) =
      some ((key, value), rest) := by
  simp only [renderString, List.cons_append, List.append_assoc, List.length_cons,
    List.length_append] at hn
  obtain ⟨n, rfl⟩ : ∃ m, n = m + 1 := ⟨n - 1, by omega⟩
  have hvalue := ih hwf n rest (by omega) hrest
  have hkey := parseString_renderString key (':' :: (render value ++ rest))
  have hcolon : skipWs (':' :: (render value ++ rest)) = ':' :: (render value ++ rest) :=
    skipWs_cons (by decide) _
  simp only [renderString, List.cons_append, List.append_assoc, List.nil_append, parseMember,
    hkey, Option.bind_eq_bind, Option.bind_some, hcolon, skipWs_render_append, hvalue, pure]

theorem parseFields_renderFields {fields : Fields} (ih : ∀ field ∈ fields, ReadsBack field.2)
    (hwf : ∀ field ∈ fields, field.2.wf = true) (n : Nat) (rest : Text)
    (hn : (renderFields fields).length ≤ n) :
    parseFields n (renderFields fields ++ rest) = some (fields, rest) := by
  induction fields generalizing n with
  | nil =>
      obtain ⟨n, rfl⟩ : ∃ m, n = m + 1 := ⟨n - 1, by simp [renderFields] at hn; omega⟩
      rfl
  | cons field fields ihFields =>
      obtain ⟨key, value⟩ := field
      simp only [renderFields, List.length_cons, List.length_append] at hn
      obtain ⟨n, rfl⟩ : ∃ m, n = m + 1 := ⟨n - 1, by omega⟩
      have hmember := parseMember_render (ih (key, value) (by simp))
        (hwf (key, value) (by simp)) key n (renderFields fields ++ rest)
        (by simp only [List.length_cons, List.length_append]; omega)
        (endsNumber_renderFields fields rest)
      have hfields := ihFields (fun x hx => ih x (by simp [hx]))
        (fun x hx => hwf x (by simp [hx])) n (by omega)
      have hws : skipWs (renderString key ++ ':' :: (render value ++ (renderFields fields ++ rest)))
          = renderString key ++ ':' :: (render value ++ (renderFields fields ++ rest)) :=
        skipWs_cons (by decide) _
      simp only [renderFields, List.cons_append, List.append_assoc, parseFields, hws, hmember,
        Option.bind_eq_bind, Option.bind_some, skipWs_renderFields, hfields, pure]

theorem readsBack (value : Json) : ReadsBack value := by
  induction value using Json.inductionOn with
  | null =>
      intro _ n rest hn _
      obtain ⟨n, rfl⟩ : ∃ m, n = m + 1 := ⟨n - 1, by simp [render] at hn; omega⟩
      rfl
  | bool b =>
      intro _ n rest hn _
      obtain ⟨n, rfl⟩ : ∃ m, n = m + 1 := ⟨n - 1, by cases b <;> simp [render] at hn <;> omega⟩
      cases b <;> rfl
  | int i =>
      intro _ n rest hn hrest
      obtain ⟨c, text, htext, hc⟩ := renderInt_eq_cons i
      obtain ⟨n, rfl⟩ : ∃ m, n = m + 1 := ⟨n - 1, by simp [render, htext] at hn; omega⟩
      have hnumber := parseNumber_int hrest i
      simp only [render]
      rw [htext, List.cons_append] at hnumber ⊢
      rw [parseValue_of_number hc, hnumber]
  | decimal literal =>
      intro _ n rest hn hrest
      obtain ⟨c, text, htext, hc⟩ := literal.text_eq_cons
      obtain ⟨n, rfl⟩ : ∃ m, n = m + 1 := ⟨n - 1, by simp [render, htext] at hn; omega⟩
      have hnumber := parseNumber_decimal hrest literal
      simp only [render]
      rw [htext, List.cons_append] at hnumber ⊢
      rw [parseValue_of_number hc, hnumber]
  | str s =>
      intro _ n rest hn _
      obtain ⟨n, rfl⟩ : ∃ m, n = m + 1 :=
        ⟨n - 1, by simp [render, renderString] at hn; omega⟩
      simp [render, renderString, parseValue, parseString_renderString]
  | arr items ih =>
      intro hwf n rest hn _
      rw [Json.wf_arr_iff] at hwf
      cases items with
      | nil =>
          obtain ⟨n, rfl⟩ : ∃ m, n = m + 1 := ⟨n - 1, by simp [render] at hn; omega⟩
          rfl
      | cons item items =>
          simp only [render, List.length_cons, List.length_append] at hn
          obtain ⟨n, rfl⟩ : ∃ m, n = m + 1 := ⟨n - 1, by omega⟩
          have hitem := ih item (by simp) (hwf item (by simp)) n (renderItems items ++ rest)
            (by omega) (endsNumber_renderItems items rest)
          have hitems := @parseItems_renderItems items (fun x hx => ih x (by simp [hx]))
            (fun x hx => hwf x (by simp [hx])) n rest (by omega)
          obtain ⟨c, text, htext, hc⟩ := render_eq_cons item
          have hclose : c ≠ ']' := by
            rintro rfl
            exact absurd hc (by decide)
          simp only [render, List.cons_append, List.append_assoc, parseValue,
            skipWs_render_append]
          rw [htext, List.cons_append] at hitem ⊢
          split
          · rename_i hcons
            exact absurd (List.cons.inj hcons).1 hclose
          · simp only [hitem, Option.bind_eq_bind, Option.bind_some, skipWs_renderItems, hitems,
              pure]
  | obj fields ih =>
      intro hwf n rest hn _
      rw [Json.wf_obj_iff] at hwf
      cases fields with
      | nil =>
          obtain ⟨n, rfl⟩ : ∃ m, n = m + 1 := ⟨n - 1, by simp [render] at hn; omega⟩
          rfl
      | cons field fields =>
          obtain ⟨key, value⟩ := field
          simp only [render, List.length_cons, List.length_append] at hn
          obtain ⟨n, rfl⟩ : ∃ m, n = m + 1 := ⟨n - 1, by omega⟩
          have hmember := parseMember_render (ih (key, value) (by simp))
            (hwf.2 (key, value) (by simp)) key n (renderFields fields ++ rest)
            (by simp only [List.length_cons, List.length_append]; omega)
            (endsNumber_renderFields fields rest)
          have hfields := @parseFields_renderFields fields
            (fun x hx => ih x (by simp [hx])) (fun x hx => hwf.2 x (by simp [hx])) n rest (by omega)
          have hws : skipWs (renderString key ++
              ':' :: (render value ++ (renderFields fields ++ rest))) =
              renderString key ++ ':' :: (render value ++ (renderFields fields ++ rest)) :=
            skipWs_cons (by decide) _
          simp only [render, List.cons_append, List.append_assoc, parseValue, hws]
          split
          · rename_i hcons
            simp [renderString] at hcons
          · simp only [hmember, Option.bind_eq_bind, Option.bind_some, skipWs_renderFields,
              hfields, pure, Fields.ofPairs_of_nodup hwf.1]

/-- Reading a written value, possibly with white space after it. -/
theorem loads_render_append {value : Json} (hwf : value.wf = true) {rest : Text}
    (hrest : ∀ c ∈ rest, isWs c = true) : loads (render value ++ rest) = some value := by
  have hends : EndsNumber rest := by
    intro c hc
    have hws := hrest c (List.mem_of_mem_head? hc)
    simp only [isWs, Bool.or_eq_true, decide_eq_true_eq] at hws
    rcases hws with ((rfl | rfl) | rfl) | rfl <;> decide
  have hskip : skipWs rest = [] := List.dropWhile_eq_nil_iff.mpr hrest
  rw [loads, skipWs_render_append,
    readsBack value hwf _ rest (by simp only [List.length_append]; omega) hends]
  simp [hskip]

/-- What was written reads back as the value with its keys in order. -/
theorem loads_dumps {value : Json} (hwf : value.wf = true) :
    loads (dumps value) = some value.sortKeys := by
  have h := @loads_render_append value.sortKeys (by simpa using hwf) [] (by simp)
  simpa [dumps] using h

/-! ## Written text is one line

A control character is written as an escape, so every character of the text is a
blank or comes after it. -/

theorem printable_of_mem_escapeChar {c d : Char} (h : d ∈ escapeChar c) : 32 ≤ d.toNat := by
  have hpair : ∀ letter : Char, 32 ≤ letter.toNat → d ∈ ['\\', letter] → 32 ≤ d.toNat := by
    intro letter hletter hmem
    simp only [List.mem_cons, List.not_mem_nil, or_false] at hmem
    rcases hmem with rfl | rfl
    · decide
    · exact hletter
  unfold escapeChar at h
  split_ifs at h with h1 h2 h3 h4 h5 h6 h7 h8
  · exact hpair _ (by decide) h
  · exact hpair _ (by decide) h
  · exact hpair _ (by decide) h
  · exact hpair _ (by decide) h
  · exact hpair _ (by decide) h
  · exact hpair _ (by decide) h
  · exact hpair _ (by decide) h
  · have hdigit : ∀ n < 16, 32 ≤ (Nat.digitChar n).toNat := by decide
    simp only [List.mem_cons, List.not_mem_nil, or_false] at h
    rcases h with rfl | rfl | rfl | rfl | rfl | rfl
    · decide
    · decide
    · decide
    · decide
    · exact hdigit _ (by omega)
    · exact hdigit _ (by omega)
  · rw [List.mem_singleton.mp h]
    omega

theorem printable_of_mem_renderString {s : String} {d : Char} (h : d ∈ renderString s) :
    32 ≤ d.toNat := by
  simp only [renderString, List.mem_cons, List.mem_append, List.mem_flatMap, List.not_mem_nil,
    or_false] at h
  rcases h with rfl | ⟨c, -, hc⟩ | rfl
  · decide
  · exact printable_of_mem_escapeChar hc
  · decide

theorem printable_of_isNumberChar {d : Char} (h : isNumberChar d = true) : 32 ≤ d.toNat := by
  by_contra hlow
  have hcontrol : ∀ n < 32, isNumberChar (Char.ofNat n) = false := by decide
  have hd := hcontrol d.toNat (by omega)
  rw [Char.ofNat_toNat, h] at hd
  cases hd

theorem printable_of_mem_render {value : Json} {d : Char} (h : d ∈ render value) :
    32 ≤ d.toNat := by
  induction value using Json.inductionOn with
  | null =>
      revert d
      simp only [render, List.forall_mem_cons]
      exact ⟨by decide, by decide, by decide, by decide, by simp⟩
  | bool b =>
      revert d
      cases b
      · simp only [render, List.forall_mem_cons]
        exact ⟨by decide, by decide, by decide, by decide, by decide, by simp⟩
      · simp only [render, List.forall_mem_cons]
        exact ⟨by decide, by decide, by decide, by decide, by simp⟩
  | int n => exact printable_of_isNumberChar (isNumberChar_of_mem_renderInt h)
  | decimal literal =>
      have hdecimal := literal.isDecimal_text
      simp only [isDecimal, Bool.and_eq_true, List.all_eq_true] at hdecimal
      exact printable_of_isNumberChar (hdecimal.1 d h)
  | str s => exact printable_of_mem_renderString h
  | arr items ih =>
      have htail : ∀ rest : List Json, (∀ item ∈ rest, d ∈ render item → 32 ≤ d.toNat) →
          d ∈ renderItems rest → 32 ≤ d.toNat := by
        intro rest hrest hd
        induction rest with
        | nil =>
            rw [List.mem_singleton.mp hd]
            decide
        | cons item rest ihRest =>
            simp only [renderItems, List.mem_cons, List.mem_append] at hd
            rcases hd with rfl | hitem | hlater
            · decide
            · exact hrest item (by simp) hitem
            · exact ihRest (fun x hx => hrest x (by simp [hx])) hlater
      cases items with
      | nil =>
          simp only [render, List.mem_cons, List.not_mem_nil, or_false] at h
          rcases h with rfl | rfl <;> decide
      | cons item items =>
          simp only [render, List.mem_cons, List.mem_append] at h
          rcases h with rfl | hitem | hlater
          · decide
          · exact ih item (by simp) hitem
          · exact htail items (fun x hx => ih x (by simp [hx])) hlater
  | obj fields ih =>
      have htail : ∀ rest : Fields, (∀ field ∈ rest, d ∈ render field.2 → 32 ≤ d.toNat) →
          d ∈ renderFields rest → 32 ≤ d.toNat := by
        intro rest hrest hd
        induction rest with
        | nil =>
            rw [List.mem_singleton.mp hd]
            decide
        | cons field rest ihRest =>
            simp only [renderFields, List.mem_cons, List.mem_append] at hd
            rcases hd with rfl | hkey | rfl | hvalue | hlater
            · decide
            · exact printable_of_mem_renderString hkey
            · decide
            · exact hrest field (by simp) hvalue
            · exact ihRest (fun x hx => hrest x (by simp [hx])) hlater
      cases fields with
      | nil =>
          simp only [render, List.mem_cons, List.not_mem_nil, or_false] at h
          rcases h with rfl | rfl <;> decide
      | cons field fields =>
          simp only [render, List.mem_cons, List.mem_append] at h
          rcases h with rfl | hkey | rfl | hvalue | hlater
          · decide
          · exact printable_of_mem_renderString hkey
          · decide
          · exact ih field (by simp) hvalue
          · exact htail fields (fun x hx => ih x (by simp [hx])) hlater

theorem printable_of_mem_dumps {value : Json} {d : Char} (h : d ∈ dumps value) : 32 ≤ d.toNat :=
  printable_of_mem_render h

/-! ## Reading gives well-formed values -/

theorem wf_of_numberOfText {literal : Text} {value : Json}
    (h : numberOfText literal = some value) : value.wf = true := by
  unfold numberOfText at h
  split at h
  · cases h
    rfl
  · split at h
    · cases h
      rfl
    · cases h

/-- Every reader returns well-formed values, at any fuel. -/
theorem wf_of_parse (n : Nat) :
    (∀ text value rest, parseValue n text = some (value, rest) → value.wf = true) ∧
    (∀ text items rest, parseItems n text = some (items, rest) →
      ∀ item ∈ items, item.wf = true) ∧
    (∀ text field rest, parseMember n text = some (field, rest) → field.2.wf = true) ∧
    (∀ text fields rest, parseFields n text = some (fields, rest) →
      ∀ field ∈ fields, field.2.wf = true) := by
  induction n with
  | zero => simp [parseValue, parseItems, parseMember, parseFields]
  | succ n ih =>
      obtain ⟨ihValue, ihItems, ihMember, ihFields⟩ := ih
      refine ⟨?_, ?_, ?_, ?_⟩
      · intro text value rest h
        unfold parseValue at h
        split at h
        · simp only [Option.map_eq_some_iff, Prod.mk.injEq] at h
          obtain ⟨_, _, rfl, _⟩ := h
          rfl
        · split at h
          · cases h
            rfl
          · simp only [Option.bind_eq_bind, Option.bind_eq_some_iff, pure, Option.some.injEq,
              Prod.mk.injEq] at h
            obtain ⟨⟨item, rest₁⟩, hitem, ⟨items, rest₂⟩, hitems, rfl, _⟩ := h
            rw [Json.wf_arr_iff, List.forall_mem_cons]
            exact ⟨ihValue _ _ _ hitem, ihItems _ _ _ hitems⟩
        · split at h
          · cases h
            rfl
          · simp only [Option.bind_eq_bind, Option.bind_eq_some_iff, pure, Option.some.injEq,
              Prod.mk.injEq] at h
            obtain ⟨⟨field, rest₁⟩, hfield, ⟨fields, rest₂⟩, hfields, rfl, _⟩ := h
            rw [Json.wf_obj_iff]
            refine ⟨Fields.nodup_keys_ofPairs _, fun x hx => ?_⟩
            obtain ⟨pair, hpair, heq⟩ := Fields.mem_ofPairs hx
            rw [heq]
            rcases List.mem_cons.mp hpair with rfl | hpair
            · exact ihMember _ _ _ hfield
            · exact ihFields _ _ _ hfields pair hpair
        · cases h
          rfl
        · cases h
          rfl
        · cases h
          rfl
        · simp only [parseNumber, Option.map_eq_some_iff, Prod.mk.injEq] at h
          obtain ⟨_, hnumber, rfl, _⟩ := h
          exact wf_of_numberOfText hnumber
      · intro text items rest h
        unfold parseItems at h
        split at h
        · cases h
          simp
        · simp only [Option.bind_eq_bind, Option.bind_eq_some_iff, pure, Option.some.injEq,
            Prod.mk.injEq] at h
          obtain ⟨⟨item, rest₁⟩, hitem, ⟨items, rest₂⟩, hitems, rfl, _⟩ := h
          rw [List.forall_mem_cons]
          exact ⟨ihValue _ _ _ hitem, ihItems _ _ _ hitems⟩
        · cases h
      · intro text field rest h
        unfold parseMember at h
        split at h
        · simp only [Option.bind_eq_bind, Option.bind_eq_some_iff] at h
          obtain ⟨⟨key, rest₁⟩, _, h⟩ := h
          split at h
          · simp only [Option.bind_eq_some_iff, pure, Option.some.injEq, Prod.mk.injEq] at h
            obtain ⟨⟨value, rest₂⟩, hvalue, rfl, _⟩ := h
            exact ihValue _ _ _ hvalue
          · cases h
        · cases h
      · intro text fields rest h
        unfold parseFields at h
        split at h
        · cases h
          simp
        · simp only [Option.bind_eq_bind, Option.bind_eq_some_iff, pure, Option.some.injEq,
            Prod.mk.injEq] at h
          obtain ⟨⟨field, rest₁⟩, hfield, ⟨fields, rest₂⟩, hfields, rfl, _⟩ := h
          rw [List.forall_mem_cons]
          exact ⟨ihMember _ _ _ hfield, ihFields _ _ _ hfields⟩
        · cases h

theorem wf_of_loads {text : Text} {value : Json} (h : loads text = some value) :
    value.wf = true := by
  unfold loads at h
  split at h
  · rename_i hparse
    split at h
    · cases h
      exact (wf_of_parse _).1 _ _ _ hparse
    · cases h
  · cases h

/-! ## Text after an object

A reader that has reached the end of an object does not look further, so more
text only adds to what it leaves.  Numbers are the one place where a reader
looks at the character after its literal, and inside an object that character
is always there.
-/

theorem skipWs_append {text : Text} (h : skipWs text ≠ []) (more : Text) :
    skipWs (text ++ more) = skipWs text ++ more := by
  have hempty : (text.dropWhile isWs).isEmpty = false := List.isEmpty_eq_false_iff.mpr h
  rw [skipWs, List.dropWhile_append, hempty]
  rfl

theorem parseHex4_append {text rest : Text} {code : Nat} (h : parseHex4 text = some (code, rest))
    (more : Text) : parseHex4 (text ++ more) = some (code, rest ++ more) := by
  unfold parseHex4 at h
  split at h
  · simp only [Option.bind_eq_bind, Option.bind_eq_some_iff, pure, Option.some.injEq,
      Prod.mk.injEq] at h
    obtain ⟨a, ha, b, hb, c, hc, d, hd, hcode, rfl⟩ := h
    simp [parseHex4, ha, hb, hc, hd, ← hcode]
  · cases h

theorem parseUnicode_append {text rest : Text} {code : Nat} {c : Char}
    (h : parseUnicode code text = some (c, rest)) (more : Text) :
    parseUnicode code (text ++ more) = some (c, rest ++ more) := by
  unfold parseUnicode at h ⊢
  split at h
  · rename_i hhigh
    rw [if_pos hhigh]
    split at h
    · simp only [Option.bind_eq_bind, Option.bind_eq_some_iff] at h
      obtain ⟨⟨low, rest'⟩, hlow, h⟩ := h
      split at h
      · rename_i hrange
        simp only [pure, Option.some.injEq, Prod.mk.injEq] at h
        obtain ⟨rfl, rfl⟩ := h
        simp [parseHex4_append hlow, hrange]
      · cases h
    · cases h
  · rename_i hhigh
    rw [if_neg hhigh]
    split at h
    · cases h
    · rename_i hlow
      cases h
      rw [if_neg hlow]

theorem parseEscape_append {text rest : Text} {c : Char} (h : parseEscape text = some (c, rest))
    (more : Text) : parseEscape (text ++ more) = some (c, rest ++ more) := by
  unfold parseEscape at h
  split at h
  case h_9 =>
    simp only [Option.bind_eq_bind, Option.bind_eq_some_iff] at h
    obtain ⟨⟨code, rest'⟩, hcode, h⟩ := h
    simp [parseEscape, parseHex4_append hcode, parseUnicode_append h]
  all_goals cases h
  all_goals rfl

theorem parseChars_append {n m : Nat} (hnm : n ≤ m) {text chars rest : Text}
    (h : parseChars n text = some (chars, rest)) (more : Text) :
    parseChars m (text ++ more) = some (chars, rest ++ more) := by
  induction n generalizing m text chars with
  | zero => simp [parseChars] at h
  | succ n ih =>
      obtain ⟨m, rfl⟩ : ∃ k, m = k + 1 := ⟨m - 1, by omega⟩
      cases text with
      | nil => simp [parseChars] at h
      | cons c text =>
          rw [parseChars] at h
          rw [List.cons_append, parseChars]
          split at h
          · rename_i hquote
            cases h
            rw [if_pos hquote]
          · rename_i hquote
            rw [if_neg hquote]
            split at h
            · rename_i hbackslash
              simp only [Option.bind_eq_bind, Option.bind_eq_some_iff, pure, Option.some.injEq,
                Prod.mk.injEq] at h
              obtain ⟨⟨escaped, rest₁⟩, hescaped, ⟨chars, rest₂⟩, hchars, rfl, rfl⟩ := h
              rw [if_pos hbackslash]
              have hmore := ih (m := m) (by omega) hchars
              simp [parseEscape_append hescaped, hmore]
            · rename_i hbackslash
              rw [if_neg hbackslash]
              split at h
              · cases h
              · rename_i hcontrol
                simp only [Option.bind_eq_bind, Option.bind_eq_some_iff, pure, Option.some.injEq,
                  Prod.mk.injEq] at h
                obtain ⟨⟨chars, rest₁⟩, hchars, rfl, rfl⟩ := h
                rw [if_neg hcontrol]
                have hmore := ih (m := m) (by omega) hchars
                simp [hmore]

theorem parseString_append {text rest : Text} {s : String}
    (h : parseString text = some (s, rest)) (more : Text) :
    parseString (text ++ more) = some (s, rest ++ more) := by
  simp only [parseString, Option.map_eq_some_iff, Prod.mk.injEq, Prod.exists] at h
  obtain ⟨chars, rest', hchars, rfl, rfl⟩ := h
  rw [parseString, parseChars_append (by simp) hchars]
  rfl

/-- The text goes on, with a character no number contains. -/
def Separated (rest : Text) : Prop := ∃ c tail, rest = c :: tail ∧ isNumberChar c = false

theorem Separated.of_skipWs {rest tail : Text} {c : Char} (h : skipWs rest = c :: tail)
    (hc : isNumberChar c = false) : Separated rest := by
  cases rest with
  | nil => simp [skipWs] at h
  | cons d rest =>
      refine ⟨d, rest, rfl, ?_⟩
      by_cases hws : isWs d = true
      · simp only [isWs, Bool.or_eq_true, decide_eq_true_eq] at hws
        rcases hws with ((rfl | rfl) | rfl) | rfl <;> decide
      · rw [skipWs_cons (by simpa using hws)] at h
        rw [(List.cons.inj h).1]
        exact hc

theorem parseNumber_append_of_separated {text rest : Text} {value : Json}
    (h : parseNumber text = some (value, rest)) (hrest : Separated rest) (more : Text) :
    parseNumber (text ++ more) = some (value, rest ++ more) := by
  obtain ⟨c, tail, rfl, hc⟩ := hrest
  simp only [parseNumber, Option.map_eq_some_iff, Prod.mk.injEq] at h
  obtain ⟨_, hnumber, rfl, hdrop⟩ := h
  have hsplit := List.takeWhile_append_dropWhile (p := isNumberChar) (l := text)
  rw [hdrop] at hsplit
  rw [← hsplit, List.append_assoc, parseNumber_append, hnumber]
  · rfl
  · exact fun d hd => List.mem_takeWhile_imp hd
  · exact EndsNumber.cons hc

theorem parseValue_nil (n : Nat) : parseValue n [] = none := by
  cases n with
  | zero => rfl
  | succ n => rfl

theorem parseMember_nil (n : Nat) : parseMember n [] = none := by
  cases n with
  | zero => rfl
  | succ n => rfl

/-- More text, and more fuel, only add to what a reader leaves. -/
theorem parse_append (n : Nat) :
    (∀ m ≥ n, ∀ text value rest more, parseValue n text = some (value, rest) →
      (Separated rest ∨ ∃ fields, value = .obj fields) →
        parseValue m (text ++ more) = some (value, rest ++ more)) ∧
    (∀ m ≥ n, ∀ text items rest more, parseItems n text = some (items, rest) →
      parseItems m (text ++ more) = some (items, rest ++ more)) ∧
    (∀ m ≥ n, ∀ text field rest more, parseMember n text = some (field, rest) →
      Separated rest → parseMember m (text ++ more) = some (field, rest ++ more)) ∧
    (∀ m ≥ n, ∀ text fields rest more, parseFields n text = some (fields, rest) →
      parseFields m (text ++ more) = some (fields, rest ++ more)) := by
  induction n with
  | zero => simp [parseValue, parseItems, parseMember, parseFields]
  | succ n ih =>
      obtain ⟨ihValue, ihItems, ihMember, ihFields⟩ := ih
      -- a reader that goes on after a value saw the character that follows it
      have hitems : ∀ {text items rest}, parseItems n (skipWs text) = some (items, rest) →
          skipWs text ≠ [] ∧ Separated text := by
        intro text items rest h
        cases n with
        | zero => simp [parseItems] at h
        | succ n =>
            unfold parseItems at h
            split at h
            · exact ⟨by simp_all, .of_skipWs ‹_› (by decide)⟩
            · exact ⟨by simp_all, .of_skipWs ‹_› (by decide)⟩
            · cases h
      have hfields : ∀ {text fields rest}, parseFields n (skipWs text) = some (fields, rest) →
          skipWs text ≠ [] ∧ Separated text := by
        intro text fields rest h
        cases n with
        | zero => simp [parseFields] at h
        | succ n =>
            unfold parseFields at h
            split at h
            · exact ⟨by simp_all, .of_skipWs ‹_› (by decide)⟩
            · exact ⟨by simp_all, .of_skipWs ‹_› (by decide)⟩
            · cases h
      refine ⟨?_, ?_, ?_, ?_⟩
      · intro m hm text value rest more h hrest
        obtain ⟨m, rfl⟩ : ∃ k, m = k + 1 := ⟨m - 1, by omega⟩
        unfold parseValue at h
        split at h
        · simp only [Option.map_eq_some_iff, Prod.mk.injEq, Prod.exists] at h
          obtain ⟨s, rest', hs, rfl, rfl⟩ := h
          simp [parseValue, parseString_append hs]
        · rename_i body
          split at h
          · rename_i hclose
            cases h
            simp [parseValue, @skipWs_append body (by simp [hclose]), hclose]
          · rename_i hclose
            simp only [Option.bind_eq_bind, Option.bind_eq_some_iff, pure, Option.some.injEq,
              Prod.mk.injEq] at h
            obtain ⟨⟨item, rest₁⟩, hitem, ⟨items, rest₂⟩, hrestItems, rfl, rfl⟩ := h
            have hbody : skipWs body ≠ [] := by
              intro hnil
              rw [hnil, parseValue_nil] at hitem
              cases hitem
            obtain ⟨hskip, hsep⟩ := hitems hrestItems
            have hitem' := ihValue m (by omega) _ _ _ more hitem (.inl hsep)
            have hitems' := ihItems m (by omega) _ _ _ more hrestItems
            simp only [List.cons_append, parseValue, skipWs_append hbody]
            split
            · rename_i tail htail
              obtain ⟨c, tail', hcons⟩ := List.exists_cons_of_ne_nil hbody
              rw [hcons] at htail
              exact absurd (by rw [hcons, (List.cons.inj htail).1]) (hclose tail')
            · simp [hitem', skipWs_append hskip, hitems']
        · rename_i body
          split at h
          · rename_i hclose
            cases h
            simp [parseValue, @skipWs_append body (by simp [hclose]), hclose]
          · rename_i hclose
            simp only [Option.bind_eq_bind, Option.bind_eq_some_iff, pure, Option.some.injEq,
              Prod.mk.injEq] at h
            obtain ⟨⟨field, rest₁⟩, hfield, ⟨fields, rest₂⟩, hrestFields, rfl, rfl⟩ := h
            have hbody : skipWs body ≠ [] := by
              intro hnil
              rw [hnil, parseMember_nil] at hfield
              cases hfield
            obtain ⟨hskip, hsep⟩ := hfields hrestFields
            have hfield' := ihMember m (by omega) _ _ _ more hfield hsep
            have hfields' := ihFields m (by omega) _ _ _ more hrestFields
            simp only [List.cons_append, parseValue, skipWs_append hbody]
            split
            · rename_i tail htail
              obtain ⟨c, tail', hcons⟩ := List.exists_cons_of_ne_nil hbody
              rw [hcons] at htail
              exact absurd (by rw [hcons, (List.cons.inj htail).1]) (hclose tail')
            · simp [hfield', skipWs_append hskip, hfields']
        · cases h
          rfl
        · cases h
          rfl
        · cases h
          rfl
        · have hsep : Separated rest := by
            rcases hrest with hsep | ⟨fields, rfl⟩
            · exact hsep
            · simp only [parseNumber, Option.map_eq_some_iff, Prod.mk.injEq] at h
              obtain ⟨_, hnumber, rfl, _⟩ := h
              unfold numberOfText at hnumber
              split at hnumber
              · cases hnumber
              · split at hnumber <;> cases hnumber
          obtain ⟨c, tail, rfl, hc⟩ := parseNumber_eq_cons h
          rw [List.cons_append, parseValue_of_number hc]
          exact parseNumber_append_of_separated h hsep more
      · intro m hm text items rest more h
        obtain ⟨m, rfl⟩ : ∃ k, m = k + 1 := ⟨m - 1, by omega⟩
        unfold parseItems at h
        split at h
        · cases h
          rfl
        · rename_i body
          simp only [Option.bind_eq_bind, Option.bind_eq_some_iff, pure, Option.some.injEq,
            Prod.mk.injEq] at h
          obtain ⟨⟨item, rest₁⟩, hitem, ⟨items, rest₂⟩, hrestItems, rfl, rfl⟩ := h
          have hbody : skipWs body ≠ [] := by
            intro hnil
            rw [hnil, parseValue_nil] at hitem
            cases hitem
          obtain ⟨hskip, hsep⟩ := hitems hrestItems
          have hitem' := ihValue m (by omega) _ _ _ more hitem (.inl hsep)
          have hitems' := ihItems m (by omega) _ _ _ more hrestItems
          simp [parseItems, skipWs_append hbody, hitem', skipWs_append hskip, hitems']
        · cases h
      · intro m hm text field rest more h hsep
        obtain ⟨m, rfl⟩ : ∃ k, m = k + 1 := ⟨m - 1, by omega⟩
        unfold parseMember at h
        split at h
        · simp only [Option.bind_eq_bind, Option.bind_eq_some_iff] at h
          obtain ⟨⟨key, rest₁⟩, hkey, h⟩ := h
          split at h
          · rename_i body hcolon
            simp only [Option.bind_eq_some_iff, pure, Option.some.injEq, Prod.mk.injEq] at h
            obtain ⟨⟨value, rest₂⟩, hvalue, rfl, rfl⟩ := h
            have hbody : skipWs body ≠ [] := by
              intro hnil
              rw [hnil, parseValue_nil] at hvalue
              cases hvalue
            have hvalue' := ihValue m (by omega) _ _ _ more hvalue (.inl hsep)
            have hskip : skipWs (rest₁ ++ more) = ':' :: (body ++ more) := by
              rw [skipWs_append (by simp_all)]
              simp_all
            simp [parseMember, parseString_append hkey, hskip, skipWs_append hbody, hvalue']
          · cases h
        · cases h
      · intro m hm text fields rest more h
        obtain ⟨m, rfl⟩ : ∃ k, m = k + 1 := ⟨m - 1, by omega⟩
        unfold parseFields at h
        split at h
        · cases h
          rfl
        · rename_i body
          simp only [Option.bind_eq_bind, Option.bind_eq_some_iff, pure, Option.some.injEq,
            Prod.mk.injEq] at h
          obtain ⟨⟨field, rest₁⟩, hfield, ⟨fields, rest₂⟩, hrestFields, rfl, rfl⟩ := h
          have hbody : skipWs body ≠ [] := by
            intro hnil
            rw [hnil, parseMember_nil] at hfield
            cases hfield
          obtain ⟨hskip, hsep⟩ := hfields hrestFields
          have hfield' := ihMember m (by omega) _ _ _ more hfield hsep
          have hfields' := ihFields m (by omega) _ _ _ more hrestFields
          simp [parseFields, skipWs_append hbody, hfield', skipWs_append hskip, hfields']
        · cases h

/-- A text that reads as an object does not read at all with a further value
after it. -/
theorem loads_append_of_obj {text more : Text} {fields : Fields}
    (h : loads text = some (.obj fields)) {c : Char} {tail : Text} (hmore : more = c :: tail)
    (hc : isWs c = false) : loads (text ++ more) = none := by
  unfold loads at h
  split at h
  · rename_i value rest hparse
    split at h
    · rename_i hrest
      cases h
      have htext : skipWs text ≠ [] := by
        intro hnil
        rw [hnil, parseValue_nil] at hparse
        cases hparse
      have happend := (parse_append _).1 ((text ++ more).length + 1) (by simp) _ _ _ more hparse
        (.inr ⟨fields, rfl⟩)
      have hleft : skipWs (rest ++ more) = more := by
        have hempty : (rest.dropWhile isWs).isEmpty = true := List.isEmpty_iff.mpr hrest
        rw [skipWs, List.dropWhile_append, hempty, if_pos rfl, hmore]
        exact skipWs_cons hc tail
      rw [loads, skipWs_append htext, happend]
      simp only [hleft]
      rw [if_neg (by simp [hmore])]
    · cases h
  · cases h

end MncsCommons.Data
