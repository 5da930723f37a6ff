/-
# JSON text in ASCII

The encoding that writes every character past the printable ASCII ones as one or
two `\u` escapes.  It is the ordinary encoding with those characters replaced,
and they can be put back (`fromAscii_toAscii`), so two values have one ASCII
encoding exactly when they have one encoding.
-/

import MncsCommons.Data.JsonText

namespace MncsCommons.Data

/-- The `\u` escape of a number below `0x10000`. -/
def unicodeEscape (code : Nat) : Text :=
  ['\\', 'u', Nat.digitChar (code / 4096), Nat.digitChar (code / 256 % 16),
    Nat.digitChar (code / 16 % 16), Nat.digitChar (code % 16)]

/-- One character of the encoding; a character past `0xFFFF` is a pair of surrogates. -/
def asciiChar (c : Char) : Text :=
  if c.toNat < 127 then [c]
  else if c.toNat < 0x10000 then unicodeEscape c.toNat
  else unicodeEscape (0xD800 + (c.toNat - 0x10000) / 0x400) ++
    unicodeEscape (0xDC00 + (c.toNat - 0x10000) % 0x400)

def toAscii (text : Text) : Text := text.flatMap asciiChar

/-- Compact ASCII text with the members of every object in key order,
`ensure_ascii=True`. -/
def dumpsAscii (value : Json) : Text := toAscii (dumps value)

/-! ## Putting characters back -/

/-- The number that four hexadecimal digits give. -/
def hex4 (a b c d : Char) : Nat :=
  (((hexValue a).getD 0 * 16 + (hexValue b).getD 0) * 16 + (hexValue c).getD 0) * 16 +
    (hexValue d).getD 0

/-- The character of an escape, after a high surrogate if there was one. -/
def joined : Option Nat → Nat → Char
  | some high, low => Char.ofNat (0x10000 + (high - 0xD800) * 0x400 + (low - 0xDC00))
  | none, code => Char.ofNat code

/-- The text with its characters put back, after a high surrogate if there was one. -/
def fromAscii : Option Nat → Text → Text
  | high, '\\' :: 'u' :: a :: b :: c :: d :: rest =>
      let code := hex4 a b c d
      if code < 127 then '\\' :: 'u' :: a :: b :: c :: d :: fromAscii none rest
      else if 0xD800 ≤ code ∧ code < 0xDC00 then fromAscii (some code) rest
      else joined high code :: fromAscii none rest
  | _, '\\' :: c :: rest => '\\' :: c :: fromAscii none rest
  | _, c :: rest => c :: fromAscii none rest
  | _, [] => []

/-- Text in which a backslash begins an escape of the encoding. -/
inductive Escaped : Text → Prop
  | nil : Escaped []
  | plain {c : Char} {rest : Text} : c ≠ '\\' → Escaped rest → Escaped (c :: rest)
  | short {c : Char} {rest : Text} : c ≠ 'u' → c.toNat < 127 → Escaped rest →
      Escaped ('\\' :: c :: rest)
  | control {code : Nat} {rest : Text} : code < 32 → Escaped rest →
      Escaped (unicodeEscape code ++ rest)

theorem hex4_unicodeEscape {code : Nat} (h : code < 65536) :
    hex4 (Nat.digitChar (code / 4096)) (Nat.digitChar (code / 256 % 16))
      (Nat.digitChar (code / 16 % 16)) (Nat.digitChar (code % 16)) = code := by
  rw [hex4, hexValue_digitChar (by omega), hexValue_digitChar (by omega),
    hexValue_digitChar (by omega), hexValue_digitChar (by omega)]
  simp only [Option.getD_some]
  omega

theorem toNat_digitChar_lt {n : Nat} (h : n < 16) : (Nat.digitChar n).toNat < 127 := by
  have hall : ∀ n < 16, (Nat.digitChar n).toNat < 127 := by decide
  exact hall n h

theorem toAscii_unicodeEscape {code : Nat} (h : code < 65536) :
    toAscii (unicodeEscape code) = unicodeEscape code := by
  have hkeep : ∀ c : Char, c.toNat < 127 → asciiChar c = [c] := fun c hc => if_pos hc
  rw [toAscii, unicodeEscape]
  simp only [List.flatMap_cons, List.flatMap_nil]
  rw [hkeep '\\' (by decide), hkeep 'u' (by decide), hkeep _ (toNat_digitChar_lt (by omega)),
    hkeep _ (toNat_digitChar_lt (by omega)), hkeep _ (toNat_digitChar_lt (by omega)),
    hkeep _ (toNat_digitChar_lt (by omega))]
  rfl

theorem fromAscii_unicodeEscape (high : Option Nat) {code : Nat} (h : code < 65536) (rest : Text) :
    fromAscii high (unicodeEscape code ++ rest) =
      if code < 127 then unicodeEscape code ++ fromAscii none rest
      else if 0xD800 ≤ code ∧ code < 0xDC00 then fromAscii (some code) rest
      else joined high code :: fromAscii none rest := by
  rw [unicodeEscape]
  simp only [List.cons_append, List.nil_append]
  rw [fromAscii, hex4_unicodeEscape h]

theorem fromAscii_plain (high : Option Nat) {c : Char} (h : c ≠ '\\') (rest : Text) :
    fromAscii high (c :: rest) = c :: fromAscii none rest := by
  rw [fromAscii]
  · exact fun _ _ _ _ _ hc _ => h hc
  · exact fun _ _ hc _ => h hc

theorem fromAscii_short (high : Option Nat) {c : Char} (h : c ≠ 'u') (rest : Text) :
    fromAscii high ('\\' :: c :: rest) = '\\' :: c :: fromAscii none rest := by
  rw [fromAscii]
  exact fun _ _ _ _ _ hc _ => h hc

/-- A character of the encoding is put back. -/
theorem fromAscii_asciiChar {c : Char} (h : c ≠ '\\') (rest : Text) :
    fromAscii none (asciiChar c ++ rest) = c :: fromAscii none rest := by
  have hvalid := c.valid
  have hsize : c.toNat < 0xD800 ∨ 0xDFFF < c.toNat ∧ c.toNat < 0x110000 := hvalid
  rw [asciiChar]
  split
  · exact fromAscii_plain none h rest
  · split
    · rename_i hlow hbasic
      rw [fromAscii_unicodeEscape none (by omega), if_neg hlow, if_neg (by omega)]
      rw [joined, Char.ofNat_toNat]
    · rename_i hlow hbasic
      rw [List.append_assoc, fromAscii_unicodeEscape none (by omega), if_neg (by omega),
        if_pos (by omega), fromAscii_unicodeEscape _ (by omega), if_neg (by omega),
        if_neg (by omega)]
      have hsum : 0x10000 + (0xD800 + (c.toNat - 0x10000) / 0x400 - 0xD800) * 0x400 +
          (0xDC00 + (c.toNat - 0x10000) % 0x400 - 0xDC00) = c.toNat := by omega
      rw [joined, hsum, Char.ofNat_toNat]

/-- Every character of escaped text is put back. -/
theorem fromAscii_toAscii {text : Text} (h : Escaped text) : fromAscii none (toAscii text) = text := by
  induction h with
  | nil => rfl
  | plain hc _ ih =>
      rw [toAscii, List.flatMap_cons, fromAscii_asciiChar hc, ← toAscii, ih]
  | short hc hsmall _ ih =>
      rw [toAscii, List.flatMap_cons, List.flatMap_cons, asciiChar, if_pos (by decide), asciiChar,
        if_pos hsmall, List.singleton_append, List.singleton_append, fromAscii_short none hc,
        ← toAscii, ih]
  | control hcode _ ih =>
      rw [toAscii, List.flatMap_append, ← toAscii, ← toAscii, toAscii_unicodeEscape (by omega),
        fromAscii_unicodeEscape none (by omega), if_pos (by omega), ih]

/-! ## Encodings are escaped text -/

theorem Escaped.append {first second : Text} (hfirst : Escaped first) (hsecond : Escaped second) :
    Escaped (first ++ second) := by
  induction hfirst with
  | nil => exact hsecond
  | plain hc _ ih => exact .plain hc ih
  | short hc hsmall _ ih => exact .short hc hsmall ih
  | control hcode _ ih =>
      rw [List.append_assoc]
      exact .control hcode ih

theorem Escaped.of_notMem {text : Text} (h : '\\' ∉ text) : Escaped text := by
  induction text with
  | nil => exact .nil
  | cons c text ih =>
      rw [List.mem_cons, not_or] at h
      exact .plain (Ne.symm h.1) (ih h.2)

theorem escaped_escapeChar (c : Char) : Escaped (escapeChar c) := by
  unfold escapeChar
  split_ifs with h1 h2 h3 h4 h5 h6 h7 h8
  · exact .short (by decide) (by decide) .nil
  · exact .short (by decide) (by decide) .nil
  · exact .short (by decide) (by decide) .nil
  · exact .short (by decide) (by decide) .nil
  · exact .short (by decide) (by decide) .nil
  · exact .short (by decide) (by decide) .nil
  · exact .short (by decide) (by decide) .nil
  · have hcontrol := @Escaped.control c.toNat [] h8 .nil
    rw [List.append_nil, unicodeEscape] at hcontrol
    have hhigh : c.toNat / 4096 = 0 := by omega
    have hnext : c.toNat / 256 % 16 = 0 := by omega
    have hthird : c.toNat / 16 % 16 = c.toNat / 16 := by omega
    rw [hhigh, hnext, hthird] at hcontrol
    exact hcontrol
  · exact .plain h2 .nil

theorem escaped_renderString (s : String) : Escaped (renderString s) := by
  refine .plain (by decide) (.append ?_ (.plain (by decide) .nil))
  induction s.toList with
  | nil => exact .nil
  | cons c text ih =>
      rw [List.flatMap_cons]
      exact (escaped_escapeChar c).append ih

theorem escaped_number {literal : Text} (h : ∀ c ∈ literal, isNumberChar c = true) :
    Escaped literal :=
  .of_notMem fun hmem => absurd (h _ hmem) (by decide)

theorem escaped_renderItems {items : List Json} (h : ∀ item ∈ items, Escaped (render item)) :
    Escaped (renderItems items) := by
  induction items with
  | nil => exact .plain (by decide) .nil
  | cons item items ih =>
      obtain ⟨hitem, hitems⟩ := List.forall_mem_cons.mp h
      exact .plain (by decide) (hitem.append (ih hitems))

theorem escaped_renderFields {fields : Fields} (h : ∀ field ∈ fields, Escaped (render field.2)) :
    Escaped (renderFields fields) := by
  induction fields with
  | nil => exact .plain (by decide) .nil
  | cons field fields ih =>
      obtain ⟨hfield, hfields⟩ := List.forall_mem_cons.mp h
      exact .plain (by decide) ((escaped_renderString _).append
        (.plain (by decide) (hfield.append (ih hfields))))

theorem escaped_render (value : Json) : Escaped (render value) := by
  induction value using Json.inductionOn with
  | null => exact .of_notMem (by decide)
  | bool b => cases b <;> exact .of_notMem (by decide)
  | int n => exact escaped_number fun c => isNumberChar_of_mem_renderInt
  | decimal literal =>
      have hdecimal := literal.isDecimal_text
      simp only [isDecimal, Bool.and_eq_true, List.all_eq_true] at hdecimal
      exact escaped_number hdecimal.1
  | str s => exact escaped_renderString s
  | arr items ih =>
      cases items with
      | nil => exact .of_notMem (by decide)
      | cons item items =>
          obtain ⟨hitem, hitems⟩ := List.forall_mem_cons.mp ih
          exact .plain (by decide) (hitem.append (escaped_renderItems hitems))
  | obj fields ih =>
      cases fields with
      | nil => exact .of_notMem (by decide)
      | cons field fields =>
          obtain ⟨hfield, hfields⟩ := List.forall_mem_cons.mp ih
          exact .plain (by decide) ((escaped_renderString _).append
            (.plain (by decide) (hfield.append (escaped_renderFields hfields))))

/-- Two values have one ASCII encoding when they have one encoding. -/
theorem dumpsAscii_eq_iff {first second : Json} :
    dumpsAscii first = dumpsAscii second ↔ dumps first = dumps second := by
  constructor
  · intro h
    have hback := congrArg (fromAscii none) h
    rw [dumpsAscii, dumpsAscii, dumps, dumps, fromAscii_toAscii (escaped_render _),
      fromAscii_toAscii (escaped_render _)] at hback
    exact hback
  · intro h
    rw [dumpsAscii, h, dumpsAscii]

end MncsCommons.Data
