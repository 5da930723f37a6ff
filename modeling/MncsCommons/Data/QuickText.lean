/-
# Evaluating JSON text and its hash

Deciding what the encoding of a given value is means decoding every string in it, and
that is most of the work.  Here the characters of a string are read off its bytes where
they are ASCII: `quickDumps` is the encoding with every string read that way
(`dumps_eq_quickDumps`).  `quickHash` is the hash with the rounds of a block on numbers
and not on lists of them (`sha256Hex_eq_quickHash`).
-/

import MncsCommons.Data.JsonText
import MncsCommons.Data.Sha256

namespace MncsCommons.Data

/-! ## Characters -/

/-- The characters of a string, read off its bytes where they are ASCII. -/
def quickChars (s : String) : Text :=
  let bytes := s.toByteArray.data.toList
  if bytes.all (· < 128) then bytes.map fun byte => Char.ofNat byte.toNat else s.toList

theorem bytes_eq_flatMap (s : String) :
    s.toByteArray.data.toList = s.toList.flatMap String.utf8EncodeChar := by
  rw [← String.utf8Encode_toList, List.utf8Encode, List.data_toByteArray]

/-- A character whose bytes are ASCII is its one byte: a longer encoding starts with a
byte past them. -/
theorem map_utf8EncodeChar {c : Char} (h : (String.utf8EncodeChar c).all (· < 128) = true) :
    (String.utf8EncodeChar c).map (fun byte => Char.ofNat byte.toNat) = [c] := by
  have hfew : c.val.toNat ≤ 127 := by
    by_contra hmany
    rw [String.utf8EncodeChar, if_neg hmany] at h
    split at h
    · simp [UInt8.lt_iff_toNat_lt] at h
      omega
    · split at h
      · simp [UInt8.lt_iff_toNat_lt] at h
        omega
      · simp [UInt8.lt_iff_toNat_lt] at h
        omega
  rw [String.utf8EncodeChar, if_pos hfew, List.map_singleton, UInt8.toNat_ofNat',
    Nat.mod_eq_of_lt (by omega)]
  exact congrArg (fun c => [c]) (Char.ofNat_toNat c)

theorem quickChars_eq (s : String) : quickChars s = s.toList := by
  rw [quickChars, bytes_eq_flatMap]
  split
  · rename_i h
    generalize s.toList = chars at h ⊢
    induction chars with
    | nil => rfl
    | cons c chars ih =>
        rw [List.flatMap_cons, List.all_append, Bool.and_eq_true] at h
        rw [List.flatMap_cons, List.map_append, ih h.2, map_utf8EncodeChar h.1]
        rfl
  · rfl

/-! ## Key order -/

mutual

/-- `Json.sortKeys`, with the keys compared by their quick characters. -/
def quickSortKeys : Json → Json
  | .arr items => .arr (quickSortItems items)
  | .obj fields => .obj (sortedBy (fun field => quickChars field.1) (quickSortFields fields))
  | value => value

def quickSortItems : List Json → List Json
  | [] => []
  | item :: items => quickSortKeys item :: quickSortItems items

def quickSortFields : List (String × Json) → List (String × Json)
  | [] => []
  | (key, value) :: fields => (key, quickSortKeys value) :: quickSortFields fields

end

/-- Only the order of the keys matters to a sort. -/
theorem sortedBy_quickChars (fields : Fields) :
    sortedBy (fun field => quickChars field.1) fields = sortedBy Prod.fst fields := by
  have hle : ∀ a ∈ fields, ∀ b ∈ fields, quickChars a.1 ≤ quickChars b.1 ↔ (id a).1 ≤ (id b).1 := by
    intro a _ b _
    rw [quickChars_eq, quickChars_eq, id, id, String.le_iff_toList_le]
  have hsame := List.map_insertionSort _ (fun a b => a.1 ≤ b.1) id fields hle
  rwa [List.map_id, List.map_id] at hsame

mutual

theorem quickSortKeys_eq : ∀ value, quickSortKeys value = value.sortKeys
  | .null => rfl
  | .bool _ => rfl
  | .int _ => rfl
  | .decimal _ => rfl
  | .str _ => rfl
  | .arr items => by rw [quickSortKeys, quickSortItems_eq items, Json.sortKeys]
  | .obj fields => by
      rw [quickSortKeys, quickSortFields_eq fields, sortedBy_quickChars, Json.sortKeys]

theorem quickSortItems_eq : ∀ items, quickSortItems items = Json.sortKeysItems items
  | [] => rfl
  | item :: items => by
      rw [quickSortItems, quickSortKeys_eq item, quickSortItems_eq items, Json.sortKeysItems]

theorem quickSortFields_eq : ∀ fields, quickSortFields fields = Json.sortKeysFields fields
  | [] => rfl
  | (key, value) :: fields => by
      rw [quickSortFields, quickSortKeys_eq value, quickSortFields_eq fields, Json.sortKeysFields]

end

/-! ## Text -/

/-- `renderString`. -/
def quickString (s : String) : Text := '"' :: (quickChars s).flatMap escapeChar ++ ['"']

theorem quickString_eq (s : String) : quickString s = renderString s := by
  rw [quickString, quickChars_eq, renderString, List.cons_append]

mutual

/-- `render`, with quick characters. -/
def quickRender : Json → Text
  | .str s => quickString s
  | .arr [] => ['[', ']']
  | .arr (item :: items) => '[' :: (quickRender item ++ quickRenderItems items)
  | .obj [] => ['{', '}']
  | .obj ((key, value) :: fields) =>
      '{' :: (quickString key ++ ':' :: (quickRender value ++ quickRenderFields fields))
  | value => render value

def quickRenderItems : List Json → Text
  | [] => [']']
  | item :: items => ',' :: (quickRender item ++ quickRenderItems items)

def quickRenderFields : List (String × Json) → Text
  | [] => ['}']
  | (key, value) :: fields =>
      ',' :: (quickString key ++ ':' :: (quickRender value ++ quickRenderFields fields))

end

mutual

theorem quickRender_eq : ∀ value, quickRender value = render value
  | .null => rfl
  | .bool _ => rfl
  | .int _ => rfl
  | .decimal _ => rfl
  | .str s => by rw [quickRender, quickString_eq, render]
  | .arr [] => rfl
  | .arr (item :: items) => by
      rw [quickRender, quickRender_eq item, quickRenderItems_eq items, render]
  | .obj [] => rfl
  | .obj ((key, value) :: fields) => by
      rw [quickRender, quickString_eq, quickRender_eq value, quickRenderFields_eq fields, render]

theorem quickRenderItems_eq : ∀ items, quickRenderItems items = renderItems items
  | [] => rfl
  | item :: items => by
      rw [quickRenderItems, quickRender_eq item, quickRenderItems_eq items, renderItems]

theorem quickRenderFields_eq : ∀ fields, quickRenderFields fields = renderFields fields
  | [] => rfl
  | (key, value) :: fields => by
      rw [quickRenderFields, quickString_eq, quickRender_eq value, quickRenderFields_eq fields,
        renderFields]

end

/-- `dumps`, with quick characters. -/
def quickDumps (value : Json) : Text := quickRender (quickSortKeys value)

theorem dumps_eq_quickDumps (value : Json) : dumps value = quickDumps value := by
  rw [quickDumps, quickSortKeys_eq, quickRender_eq, dumps]

/-! ## Hash -/

open Sha256

/-- `add`, by the operations that the kernel evaluates itself. -/
def quickAdd (a b : Nat) : Nat := Nat.mod (Nat.add a b) 4294967296

/-- `rotr n`, where `m` is the rest of the word. -/
def quickTurn (n m x : Nat) : Nat :=
  Nat.lor (Nat.shiftRight x n) (Nat.mod (Nat.shiftLeft x m) 4294967296)

/-- `rounds`, on the words of the schedule and the working variables themselves. -/
def quickRounds : List Nat → (w0 w1 w2 w3 w4 w5 w6 w7 w8 w9 w10 w11 w12 w13 w14 w15 : Nat) →
    (a b c d e f g h : Nat) → State
  | [], _, _, _, _, _, _, _, _, _, _, _, _, _, _, _, _, a, b, c, d, e, f, g, h =>
      ⟨a, b, c, d, e, f, g, h⟩
  | k :: ks, w0, w1, w2, w3, w4, w5, w6, w7, w8, w9, w10, w11, w12, w13, w14, w15,
      a, b, c, d, e, f, g, h =>
      let big1 := Nat.xor (Nat.xor (quickTurn 6 26 e) (quickTurn 11 21 e)) (quickTurn 25 7 e)
      let chosen := Nat.xor (Nat.land e f) (Nat.land (Nat.sub 4294967295 e) g)
      let t1 := quickAdd (quickAdd (quickAdd h big1) (quickAdd chosen k)) w0
      let big0 := Nat.xor (Nat.xor (quickTurn 2 30 a) (quickTurn 13 19 a)) (quickTurn 22 10 a)
      let most := Nat.xor (Nat.xor (Nat.land a b) (Nat.land a c)) (Nat.land b c)
      let small1 := Nat.xor (Nat.xor (quickTurn 17 15 w14) (quickTurn 19 13 w14))
        (Nat.shiftRight w14 10)
      let small0 := Nat.xor (Nat.xor (quickTurn 7 25 w1) (quickTurn 18 14 w1))
        (Nat.shiftRight w1 3)
      quickRounds ks w1 w2 w3 w4 w5 w6 w7 w8 w9 w10 w11 w12 w13 w14 w15
        (quickAdd (quickAdd small1 w9) (quickAdd small0 w0))
        (quickAdd t1 (quickAdd big0 most)) a b c (quickAdd d t1) e f g

theorem rounds_eq_quickRounds (ks : List Nat)
    (w0 w1 w2 w3 w4 w5 w6 w7 w8 w9 w10 w11 w12 w13 w14 w15 a b c d e f g h : Nat) :
    rounds ks [w0, w1, w2, w3, w4, w5, w6, w7, w8, w9, w10, w11, w12, w13, w14, w15]
        ⟨a, b, c, d, e, f, g, h⟩ =
      quickRounds ks w0 w1 w2 w3 w4 w5 w6 w7 w8 w9 w10 w11 w12 w13 w14 w15 a b c d e f g h := by
  induction ks
    generalizing w0 w1 w2 w3 w4 w5 w6 w7 w8 w9 w10 w11 w12 w13 w14 w15 a b c d e f g h with
  | nil => rfl
  | cons k ks ih => exact ih ..

/-- `compress`, for a whole block by quick rounds. -/
def quickCompress (s : State) (block : List Nat) : State :=
  match block with
  | [w0, w1, w2, w3, w4, w5, w6, w7, w8, w9, w10, w11, w12, w13, w14, w15] =>
      let r := quickRounds roundConstants w0 w1 w2 w3 w4 w5 w6 w7 w8 w9 w10 w11 w12 w13 w14 w15
        s.a s.b s.c s.d s.e s.f s.g s.h
      ⟨add s.a r.a, add s.b r.b, add s.c r.c, add s.d r.d, add s.e r.e, add s.f r.f, add s.g r.g,
        add s.h r.h⟩
  | block => compress s block

theorem quickCompress_eq (s : State) (block : List Nat) :
    quickCompress s block = compress s block := by
  unfold quickCompress
  split
  · rw [compress, ← rounds_eq_quickRounds]
  · rfl

def quickBlocks : Nat → List Nat → State → State
  | 0, _, state => state
  | n + 1, message, state =>
      quickBlocks n (message.drop 16) (quickCompress state (message.take 16))

theorem quickBlocks_eq (n : Nat) (message : List Nat) (state : State) :
    quickBlocks n message state = blocks n message state := by
  induction n generalizing message state with
  | zero => rfl
  | succ n ih => rw [quickBlocks, ih, quickCompress_eq, blocks]

/-- `sha256Hex`, by quick rounds. -/
def quickHash (text : Text) : Text :=
  let message := words (pad (utf8 text))
  let state := quickBlocks (message.length / 16) message initial
  [state.a, state.b, state.c, state.d, state.e, state.f, state.g, state.h].flatMap hexWord

theorem sha256Hex_eq_quickHash (text : Text) : sha256Hex text = quickHash text := by
  rw [quickHash, quickBlocks_eq, sha256Hex]

end MncsCommons.Data
