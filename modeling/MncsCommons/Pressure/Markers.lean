/-
# Markers in source text

A comment in a source file names the pressure that it works around.  The extractor
finds exactly the markers of a text, because no marker starts inside another one
(`mem_extractPressureMarkers_iff`).  It ignores the case of the identity too, so what
it returns are identities of pressures exactly when every marker of the text spells
its identity in upper case (`markers_round_trip_iff`).
-/

import MncsCommons.Data.Lines
import MncsCommons.Data.Matching
import MncsCommons.Pressure.Markdown

namespace MncsCommons.Pressure

open MncsCommons.Data MncsCommons.Protocol

/-! ## Markers -/

/-- A character of `[A-F0-9]` when case is ignored. -/
def isHexLetterOrDigit (c : Char) : Bool := isUpperHex c || ('a' ≤ c && c ≤ 'f')

/-- `_MARKER_RE`. -/
def markerPattern : Pattern :=
  .sequence [.wordEdge, .caseless "mncs-pressure", .many .space, .among ":", .many .space,
    .group (.sequence [.caseless "MNCS-", .oneOrMore (.char isLetterOrDigit), .among "-",
      .between 12 0 (.char isHexLetterOrDigit)]),
    .wordEdge]

/-- `source_marker`. -/
def sourceMarker (pressure : String) : Py String :=
  if isPressureId pressure then .ok ("mncs-pressure: " ++ pressure)
  else .error (.valueError ("invalid pressure id: " ++ pressure))

/-- `extract_pressure_markers`. -/
def extractPressureMarkers (unicode : Unicode) (text : Text) : List String :=
  sortedBy id ((markerPattern.findAll unicode.isWord text).map fun found =>
    String.ofList found.inner).eraseDups

/-! ## What a marker is -/

/-- The text is the other one when case is ignored. -/
def SameLetters (text : String) (part : Text) : Prop :=
  part.map Pattern.caseKey = text.toList.map Pattern.caseKey

/-- An identity in any case. -/
inductive MarkedId : Text → Prop
  | intro (scheme area hash : Text) (hscheme : SameLetters "MNCS-" scheme) (harea : area ≠ [])
      (halnum : ∀ c ∈ area, isLetterOrDigit c = true) (hlength : hash.length = 12)
      (hhex : ∀ c ∈ hash, isHexLetterOrDigit c = true) :
      MarkedId (scheme ++ (area ++ '-' :: hash))

/-- A marker of the identity in any case. -/
inductive IsMarker (id : Text) : Text → Prop
  | intro (label gap space : Text) (hlabel : SameLetters "mncs-pressure" label)
      (hgap : ∀ c ∈ gap, isSpace c = true) (hspace : ∀ c ∈ space, isSpace c = true)
      (hid : MarkedId id) : IsMarker id (label ++ (gap ++ ':' :: (space ++ id)))

/-- A marker stands in the text, with no word character next to it. -/
def Marks (isWord : Char → Bool) (text : Text) (id : Text) : Prop :=
  ∃ before marker after, text = before ++ (marker ++ after) ∧ IsMarker id marker ∧
    before.getLast?.any isWord = false ∧ after.head?.any isWord = false

/-! ## Letters -/

/-- A character folds to itself or from its capital, but for four that fold to `i`, `s`
and `k`. -/
theorem caseKey_cases (c : Char) :
    (c.toNat ∈ [0x130, 0x131, 0x17F, 0x212A] ∧ Pattern.caseKey c ∈ ['i', 's', 'k']) ∨
      (Pattern.caseKey c = c ∧ ¬(65 ≤ c.toNat ∧ c.toNat ≤ 90)) ∨
      65 ≤ c.toNat ∧ c.toNat ≤ 90 ∧ (Pattern.caseKey c).toNat = c.toNat + 32 := by
  unfold Pattern.caseKey
  split
  · rename_i hcode
    rw [hcode]
    exact .inl (by decide)
  · rename_i hcode
    rw [hcode]
    exact .inl (by decide)
  · rename_i hcode
    rw [hcode]
    exact .inl (by decide)
  · rename_i hcode
    rw [hcode]
    exact .inl (by decide)
  · right
    delta Char.toLower
    split
    · rename_i hupper
      have hlow : 65 ≤ c.toNat := hupper.1
      have hhigh : c.toNat ≤ 90 := hupper.2
      refine .inr ⟨hlow, hhigh, ?_⟩
      change (c.val + ('a'.val - 'A'.val)).toNat = c.toNat + 32
      rw [UInt32.toNat_add]
      refine Nat.mod_eq_of_lt ?_
      change c.toNat + 32 < _
      omega
    · rename_i hupper
      exact .inl ⟨rfl, fun hcode => hupper ⟨hcode.1, hcode.2⟩⟩

/-- What folds to another letter is that letter or its capital. -/
theorem eq_of_caseKey {c d : Char} (h : Pattern.caseKey c = d) (hplain : d ∉ ['i', 's', 'k']) :
    c = d ∨ 65 ≤ c.toNat ∧ c.toNat ≤ 90 ∧ c.toNat + 32 = d.toNat := by
  obtain ⟨-, hfolds⟩ | ⟨hself, -⟩ | ⟨hlow, hhigh, hsum⟩ := caseKey_cases c
  · rw [h] at hfolds
    exact absurd hfolds hplain
  · exact .inl (hself.symm.trans h)
  · rw [h] at hsum
    exact .inr ⟨hlow, hhigh, hsum.symm⟩

theorem toNat_of_caseKey_m {c : Char} (h : Pattern.caseKey c = 'm') :
    c.toNat = 109 ∨ c.toNat = 77 := by
  obtain rfl | ⟨-, -, hsum⟩ := eq_of_caseKey h (by decide)
  · exact .inl rfl
  · exact .inr (by simpa using hsum)

theorem eq_dash_of_caseKey {c : Char} (h : Pattern.caseKey c = '-') : c = '-' := by
  obtain rfl | ⟨hlow, -, hsum⟩ := eq_of_caseKey h (by decide)
  · rfl
  · have hdash : c.toNat + 32 = 45 := hsum
    omega

theorem isHexLetterOrDigit_iff {c : Char} :
    isHexLetterOrDigit c = true ↔ (48 ≤ c.toNat ∧ c.toNat ≤ 57) ∨
      (65 ≤ c.toNat ∧ c.toNat ≤ 70) ∨ (97 ≤ c.toNat ∧ c.toNat ≤ 102) := by
  simp only [isHexLetterOrDigit, isUpperHex, Char.isDigit, Bool.or_eq_true, Bool.and_eq_true,
    decide_eq_true_eq, Char.le_def, UInt32.le_iff_toNat_le, or_assoc]
  rfl

theorem isUpperHex_iff {c : Char} :
    isUpperHex c = true ↔ (48 ≤ c.toNat ∧ c.toNat ≤ 57) ∨ (65 ≤ c.toNat ∧ c.toNat ≤ 70) := by
  simp only [isUpperHex, Char.isDigit, Bool.or_eq_true, Bool.and_eq_true, decide_eq_true_eq,
    Char.le_def, UInt32.le_iff_toNat_le]
  rfl

theorem isLetterOrDigit_iff {c : Char} :
    isLetterOrDigit c = true ↔ (65 ≤ c.toNat ∧ c.toNat ≤ 90) ∨ (97 ≤ c.toNat ∧ c.toNat ≤ 122) ∨
      c.toNat ∈ [0x130, 0x131, 0x17F, 0x212A] ∨ (48 ≤ c.toNat ∧ c.toNat ≤ 57) := by
  have hletters : c.isAlpha = (decide (c.val ≥ 'A'.val ∧ c.val ≤ 'Z'.val) ||
      (decide (c.val ≥ 'a'.val) && decide (c.val ≤ 'z'.val))) := rfl
  simp only [isLetterOrDigit, isLetter, hletters, Char.isDigit, Bool.or_eq_true, Bool.and_eq_true,
    decide_eq_true_eq, List.contains_eq_mem, ge_iff_le, UInt32.le_iff_toNat_le, or_assoc]
  rfl

/-- What folds to a lower-case letter is a letter. -/
theorem isLetterOrDigit_of_caseKey {c : Char}
    (h : 97 ≤ (Pattern.caseKey c).toNat ∧ (Pattern.caseKey c).toNat ≤ 122) :
    isLetterOrDigit c = true := by
  rw [isLetterOrDigit_iff]
  obtain ⟨hcode, -⟩ | ⟨hself, -⟩ | ⟨hlow, hhigh, -⟩ := caseKey_cases c
  · exact .inr (.inr (.inl hcode))
  · rw [hself] at h
    exact .inr (.inl h)
  · exact .inl ⟨hlow, hhigh⟩

theorem isSpace_not_m {c : Char} (h : isSpace c = true) : Pattern.caseKey c ≠ 'm' := by
  intro hm
  simp only [isSpace, Bool.or_eq_true, Bool.and_eq_true, decide_eq_true_eq, beq_iff_eq] at h
  obtain hm | hm := toNat_of_caseKey_m hm <;> omega

theorem isSpace_not_letter {c : Char} (h : isSpace c = true) : isLetterOrDigit c = false := by
  rw [Bool.eq_false_iff]
  intro hletter
  rw [isLetterOrDigit_iff] at hletter
  simp only [isSpace, Bool.or_eq_true, Bool.and_eq_true, decide_eq_true_eq, beq_iff_eq] at h
  simp only [List.mem_cons, List.not_mem_nil, or_false] at hletter
  omega

theorem not_isLetterOrDigit_dash : isLetterOrDigit '-' = false := by decide

/-! ## How a marker is read -/

theorem spells_caseless {isWord : Char → Bool} (text : String) :
    Pattern.Spells isWord (.caseless text) (Pattern.textsWith (SameLetters text)) := by
  intro cursor next
  have htests : Pattern.caseless text = Pattern.sequence ((text.toList.map fun c d =>
      decide (Pattern.caseKey d = Pattern.caseKey c)).map .char) := by
    rw [Pattern.caseless, List.map_map]
    rfl
  have hsame : ∀ chars part : Text, List.Forall₂ (fun test c => test c = true)
      (chars.map fun c d => decide (Pattern.caseKey d = Pattern.caseKey c)) part ↔
        part.map Pattern.caseKey = chars.map Pattern.caseKey := by
    intro chars part
    rw [List.forall₂_map_left_iff]
    induction chars generalizing part with
    | nil => cases part <;> simp
    | cons c chars ih =>
        cases part with
        | nil => simp
        | cons d part =>
            rw [List.forall₂_cons, List.map_cons, List.map_cons, List.cons.injEq, ih,
              decide_eq_true_eq]
  rw [htests, Pattern.mem_ways_tests]
  simp only [hsame, Pattern.mem_textsWith, SameLetters]

theorem spells_among {isWord : Char → Bool} (text : String) {char : Char}
    (h : text.toList = [char]) :
    Pattern.Spells isWord (.among text) (Pattern.textsWith (· = [char])) := by
  intro cursor next
  rw [Pattern.among, Pattern.mem_ways_char]
  simp [h]

/-- The pattern of an identity reads identities. -/
theorem spells_markedId {isWord : Char → Bool} :
    Pattern.Spells isWord (.sequence [.caseless "MNCS-", .oneOrMore (.char isLetterOrDigit),
      .among "-", .between 12 0 (.char isHexLetterOrDigit)]) (Pattern.textsWith MarkedId) := by
  have hspells := Pattern.spells_sequence_cons (spells_caseless "MNCS-")
    (Pattern.spells_sequence_cons (Pattern.spells_oneOrMore isLetterOrDigit)
      (Pattern.spells_sequence_cons (@spells_among isWord "-" '-' rfl)
        (Pattern.spells_sequence_cons (Pattern.spells_between 12 0 isHexLetterOrDigit)
          (@Pattern.spells_sequence_nil isWord))))
  convert hspells using 1
  ext id
  constructor
  · rintro ⟨scheme, area, hash, hscheme, harea, halnum, hlength, hhex⟩
    refine Language.append_mem_mul hscheme (Language.append_mem_mul ⟨harea, halnum⟩
      (Language.append_mem_mul (a := ['-']) rfl ?_))
    rw [mul_one]
    exact ⟨hlength.ge, hlength.le, hhex⟩
  · rw [mul_one]
    rintro ⟨scheme, hscheme, _, ⟨area, ⟨harea, halnum⟩, _, ⟨_, rfl, hash,
      ⟨hleast, hmost, hhex⟩, rfl⟩, rfl⟩, rfl⟩
    exact ⟨scheme, area, hash, hscheme, harea, halnum, le_antisymm hmost hleast, hhex⟩

/-- The label and the separator of a marker. -/
theorem spells_label {isWord : Char → Bool} :
    Pattern.Spells isWord (.sequence [.caseless "mncs-pressure", .many .space, .among ":",
      .many .space]) (Pattern.textsWith fun part => ∃ label gap space : Text,
        part = label ++ (gap ++ ':' :: space) ∧ SameLetters "mncs-pressure" label ∧
          (∀ c ∈ gap, isSpace c = true) ∧ ∀ c ∈ space, isSpace c = true) := by
  have hspaces : Pattern.Spells isWord (.many .space) _ := Pattern.spells_many isSpace
  have hspells := Pattern.spells_sequence_cons (spells_caseless "mncs-pressure")
    (Pattern.spells_sequence_cons hspaces
      (Pattern.spells_sequence_cons (@spells_among isWord ":" ':' rfl)
        (Pattern.spells_sequence_cons hspaces (@Pattern.spells_sequence_nil isWord))))
  convert hspells using 1
  ext part
  constructor
  · rintro ⟨label, gap, space, rfl, hlabel, hgap, hspace⟩
    refine Language.append_mem_mul hlabel (Language.append_mem_mul hgap
      (Language.append_mem_mul (a := [':']) rfl ?_))
    rw [mul_one]
    exact hspace
  · rw [mul_one]
    rintro ⟨label, hlabel, _, ⟨gap, hgap, _, ⟨_, rfl, space, hspace, rfl⟩, rfl⟩, rfl⟩
    exact ⟨label, gap, space, rfl, hlabel, hgap, hspace⟩

/-- The ways to read a marker. -/
theorem mem_ways_marker {isWord : Char → Bool} {cursor next : Cursor} :
    next ∈ Pattern.ways isWord markerPattern cursor ↔
      Pattern.atWordEdge isWord cursor = true ∧ Pattern.atWordEdge isWord next = true ∧
        ∃ marker, IsMarker next.group marker ∧ cursor.Passes marker next := by
  have hways : Pattern.ways isWord markerPattern cursor = Pattern.ways isWord
      (.seq .wordEdge (.seq (.sequence [.caseless "mncs-pressure", .many .space, .among ":",
        .many .space]) (.seq (.group (.sequence [.caseless "MNCS-",
          .oneOrMore (.char isLetterOrDigit), .among "-",
          .between 12 0 (.char isHexLetterOrDigit)])) .wordEdge))) cursor := by
    simp [markerPattern, Pattern.sequence, Pattern.ways, List.flatMap_assoc]
  rw [hways]
  simp only [Pattern.mem_ways_seq, Pattern.mem_ways_wordEdge]
  constructor
  · rintro ⟨_, ⟨hstart, rfl⟩, middle, hlabel, last, hgroup, hend, rfl⟩
    obtain ⟨_, ⟨label, gap, space, rfl, hlabel, hgap, hspace⟩, hmiddle⟩ :=
      (spells_label _ _).mp hlabel
    obtain ⟨stop, hstop, rfl⟩ := Pattern.mem_ways_group.mp hgroup
    obtain ⟨id, hid, hreads⟩ := (spells_markedId _ _).mp hstop
    refine ⟨hstart, hend, label ++ (gap ++ ':' :: (space ++ id)), ?_, ?_⟩
    · dsimp only
      rw [Pattern.group_of_reads hreads]
      exact .intro label gap space hlabel hgap hspace hid
    · have hpasses := hmiddle.toPasses.trans hreads.toPasses
      simp only [List.append_assoc, List.cons_append] at hpasses
      exact ⟨hpasses.after, hpasses.before⟩
  · rintro ⟨hstart, hend, _, hmarker, hpasses⟩
    generalize hid : next.group = id at hmarker
    cases hmarker with
    | intro label gap space hlabel hgap hspace hmarked =>
        have hreads : cursor.Reads ((label ++ (gap ++ ':' :: space)) ++ id)
            ⟨next.before, next.after, cursor.group⟩ := by
          refine ⟨⟨?_, ?_⟩, rfl⟩
          · rw [hpasses.after]
            simp only [List.append_assoc, List.cons_append]
          · rw [hpasses.before]
            simp only [List.append_assoc, List.cons_append]
        obtain ⟨hfirst, hsecond⟩ := hreads.split
        refine ⟨cursor, ⟨hstart, rfl⟩, _, (spells_label _ _).mpr
          ⟨_, ⟨label, gap, space, rfl, hlabel, hgap, hspace⟩, hfirst⟩, next,
          Pattern.mem_ways_group.mpr ⟨_, (spells_markedId _ _).mpr ⟨id, hmarked, hsecond⟩, ?_⟩,
          hend, rfl⟩
        rw [Pattern.group_of_reads hsecond, ← hid]

/-! ## One marker at a place -/

theorem SameLetters.length {text : String} {part : Text} (h : SameLetters text part) :
    part.length = text.toList.length := by
  rw [← List.length_map Pattern.caseKey, h, List.length_map]

/-- Texts of the same letters at one place are the same. -/
theorem SameLetters.unique {text : String} {part other rest more : Text} (h : SameLetters text part)
    (hother : SameLetters text other) (heq : part ++ rest = other ++ more) :
    part = other ∧ rest = more :=
  List.append_inj heq (h.length.trans hother.length.symm)

/-- An identity begins with a letter that stands for `m`. -/
theorem MarkedId.head {id : Text} (h : MarkedId id) :
    ∃ c rest, id = c :: rest ∧ Pattern.caseKey c = 'm' := by
  obtain ⟨scheme, area, hash, hscheme, -, -, -, -⟩ := h
  cases scheme with
  | nil => cases hscheme
  | cons c scheme => exact ⟨c, _, rfl, (List.cons.inj hscheme).1⟩

theorem MarkedId.unique {id other rest more : Text} (h : MarkedId id) (hother : MarkedId other)
    (heq : id ++ rest = other ++ more) : id = other ∧ rest = more := by
  obtain ⟨scheme, area, hash, hscheme, -, halnum, hlength, -⟩ := h
  obtain ⟨scheme', area', hash', hscheme', -, halnum', hlength', -⟩ := hother
  simp only [List.append_assoc, List.cons_append] at heq
  obtain ⟨rfl, hareas⟩ := hscheme.unique hscheme' heq
  obtain ⟨rfl, -, hhashes⟩ := append_cons_inj halnum halnum' not_isLetterOrDigit_dash
    not_isLetterOrDigit_dash hareas
  obtain ⟨rfl, rfl⟩ := List.append_inj hhashes (hlength.trans hlength'.symm)
  exact ⟨rfl, rfl⟩

theorem isSpace_of_caseKey_m {c : Char} (h : Pattern.caseKey c = 'm') : isSpace c = false := by
  rw [Bool.eq_false_iff]
  exact fun hspace => isSpace_not_m hspace h

/-- The marker at a place is determined. -/
theorem IsMarker.unique {id other marker marker' rest more : Text} (h : IsMarker id marker)
    (hother : IsMarker other marker') (heq : marker ++ rest = marker' ++ more) :
    id = other ∧ rest = more := by
  obtain ⟨label, gap, space, hlabel, hgap, hspace, hid⟩ := h
  obtain ⟨label', gap', space', hlabel', hgap', hspace', hid'⟩ := hother
  simp only [List.append_assoc, List.cons_append] at heq
  obtain ⟨rfl, hgaps⟩ := hlabel.unique hlabel' heq
  obtain ⟨rfl, -, hspaces⟩ := append_cons_inj hgap hgap' (by decide) (by decide) hgaps
  obtain ⟨c, rest', rfl, hc⟩ := hid.head
  obtain ⟨d, more', rfl, hd⟩ := hid'.head
  obtain ⟨rfl, rfl, hids⟩ := append_cons_inj hspace hspace' (isSpace_of_caseKey_m hc)
    (isSpace_of_caseKey_m hd) hspaces
  exact hid.unique hid' (congrArg (c :: ·) hids)

/-! ## Markers are apart -/

/-- A marker begins with a letter that stands for `m`. -/
theorem IsMarker.head {id marker : Text} (h : IsMarker id marker) :
    ∃ c rest, marker = c :: rest ∧ Pattern.caseKey c = 'm' := by
  obtain ⟨label, gap, space, hlabel, -, -, -⟩ := h
  cases label with
  | nil => cases hlabel
  | cons c label => exact ⟨c, _, rfl, (List.cons.inj hlabel).1⟩

/-- A marker begins with thirteen characters that fold to its label. -/
theorem IsMarker.label {id marker : Text} (h : IsMarker id marker) :
    ∃ front word rest c, marker = front ++ '-' :: (word ++ c :: rest) ∧
      front.map Pattern.caseKey = "mncs".toList ∧ word.map Pattern.caseKey = "pressure".toList ∧
        isLetterOrDigit c = false ∧ c ≠ '-' := by
  obtain ⟨label, gap, space, hlabel, hgap, -, -⟩ := h
  have hkeys : label.map Pattern.caseKey =
      "mncs".toList ++ '-' :: "pressure".toList := hlabel.trans (by decide)
  obtain ⟨front, rest, rfl, hfront, hrest⟩ := List.map_eq_append_iff.mp hkeys
  obtain ⟨dash, word, rfl, hdash, hword⟩ := List.map_eq_cons_iff.mp hrest
  obtain rfl := eq_dash_of_caseKey hdash
  cases gap with
  | nil =>
      exact ⟨front, word, space ++ id, ':', by simp, hfront, hword, by decide, by decide⟩
  | cons c gap =>
      have hc := hgap c List.mem_cons_self
      refine ⟨front, word, gap ++ ':' :: (space ++ id), c, by simp, hfront, hword,
        isSpace_not_letter hc, ?_⟩
      rintro rfl
      cases hc

theorem letters_of_keys {part : Text} {text : String} (h : part.map Pattern.caseKey = text.toList)
    (htext : ∀ c ∈ text.toList, decide (97 ≤ c.toNat ∧ c.toNat ≤ 122) = true) :
    ∀ c ∈ part, isLetterOrDigit c = true := by
  intro c hc
  refine isLetterOrDigit_of_caseKey (of_decide_eq_true (htext _ ?_))
  rw [← h]
  exact List.mem_map_of_mem hc

section Apart

variable {id other first last marker rest more : Text}

/-- A text that begins with an `m` begins after a part without any. -/
theorem exists_after_part {part : Text} (h : first ++ last = part ++ rest)
    (hlast : ∃ c more, last = c :: more ∧ Pattern.caseKey c = 'm')
    (hpart : ∀ c ∈ part, Pattern.caseKey c ≠ 'm') :
    ∃ left, first = part ++ left ∧ left ++ last = rest := by
  obtain ⟨c, more, rfl, hc⟩ := hlast
  obtain ⟨between, rfl, hbetween⟩ | ⟨left, rfl, hleft⟩ := List.append_eq_append_iff.mp h
  · cases between with
    | nil => exact ⟨[], by simp, by simpa using hbetween⟩
    | cons d between =>
        obtain ⟨rfl, -⟩ := List.cons.inj hbetween
        exact absurd hc (hpart c (by simp))
  · exact ⟨left, rfl, hleft.symm⟩

theorem not_m_of_single {d : Char} (h : Pattern.caseKey d ≠ 'm') :
    ∀ c ∈ [d], Pattern.caseKey c ≠ 'm' := by
  intro c hc
  rwa [List.mem_singleton.mp hc]

/-- After the first letter of a text no letter stands for `m`, if none does there. -/
theorem not_m_of_sameLetters {text : String} {c : Char} {part : Text}
    (h : SameLetters text (c :: part))
    (htext : 'm' ∉ (text.toList.map Pattern.caseKey).tail) :
    ∀ d ∈ part, Pattern.caseKey d ≠ 'm' := by
  intro d hd hm
  rw [SameLetters, List.map_cons] at h
  refine htext ?_
  rw [← h, List.tail_cons, ← hm]
  exact List.mem_map_of_mem hd

/-- The identity of a marker is no marker. -/
theorem MarkedId.not_marker (h : MarkedId id) (hmarker : IsMarker other marker)
    (heq : id ++ rest = marker ++ more) : False := by
  obtain ⟨scheme, area, hash, hscheme, -, halnum, -, -⟩ := h
  obtain ⟨front, word, tail, c, rfl, hfront, hword, hc, hdash⟩ := hmarker.label
  have hlength : scheme.length = (front ++ ['-']).length := by
    have hfrontLength : front.length = 4 := by simpa using congrArg List.length hfront
    rw [hscheme.length, List.length_append, hfrontLength]
    rfl
  have hwhole : scheme ++ (area ++ '-' :: (hash ++ rest)) =
      (front ++ ['-']) ++ (word ++ c :: (tail ++ more)) := by
    simpa only [List.append_assoc, List.cons_append, List.nil_append] using heq
  obtain ⟨-, hareas⟩ := List.append_inj hwhole hlength
  obtain ⟨-, hsame, -⟩ := append_cons_inj halnum (letters_of_keys hword (List.all_eq_true.mp rfl))
    not_isLetterOrDigit_dash hc hareas
  exact hdash hsame.symm

/-- What follows the scheme of an identity is no marker. -/
theorem area_not_marker {area hash : Text} (halnum : ∀ c ∈ area, isLetterOrDigit c = true)
    (hlength : hash.length = 12) (hhex : ∀ c ∈ hash, isHexLetterOrDigit c = true)
    (hmarker : IsMarker other marker) (heq : area ++ '-' :: (hash ++ rest) = marker ++ more) :
    False := by
  obtain ⟨front, word, tail, c, rfl, hfront, hword, -, -⟩ := hmarker.label
  have hwhole : area ++ '-' :: (hash ++ rest) = front ++ '-' :: (word ++ c :: (tail ++ more)) := by
    simpa only [List.append_assoc, List.cons_append] using heq
  obtain ⟨-, -, hhashes⟩ := append_cons_inj halnum (letters_of_keys hfront (List.all_eq_true.mp rfl))
    not_isLetterOrDigit_dash not_isLetterOrDigit_dash hwhole
  cases hash with
  | nil => cases hlength
  | cons d hash =>
      cases word with
      | nil => cases hword
      | cons e word =>
          obtain ⟨rfl, -⟩ := List.cons.inj hhashes
          have hp : Pattern.caseKey d = 'p' := (List.cons.inj hword).1
          have hd := isHexLetterOrDigit_iff.mp (hhex d List.mem_cons_self)
          obtain rfl | ⟨-, -, hsum⟩ := eq_of_caseKey hp (by decide)
          · revert hd
            decide
          · have hcode : d.toNat + 32 = 112 := hsum
            omega

theorem any_getLast?_of_append {test : Char → Bool} {part : Text}
    (h : (part ++ first).getLast?.any test = false) : first.getLast?.any test = false := by
  cases hlast : first.getLast? with
  | none => rfl
  | some c =>
      rw [List.getLast?_append, hlast, Option.some_or] at h
      exact h

/-- A marker begins with an `m` wherever it stands. -/
theorem IsMarker.head_of_append (h : IsMarker other marker) (heq : last ++ rest = marker ++ more)
    (hlast : last ≠ []) : ∃ c more, last = c :: more ∧ Pattern.caseKey c = 'm' := by
  obtain ⟨c, tail, rfl, hc⟩ := h.head
  cases last with
  | nil => exact absurd rfl hlast
  | cons d last =>
      obtain ⟨rfl, -⟩ := List.cons.inj heq
      exact ⟨d, last, rfl, hc⟩

/-- No marker starts inside an identity, but after a letter. -/
theorem MarkedId.not_marker_inside (h : MarkedId (first ++ last)) (hmarker : IsMarker other marker)
    (heq : last ++ rest = marker ++ more) (hlast : last ≠ [])
    (hedge : first.getLast?.any isLetterOrDigit = false) : False := by
  have hm := hmarker.head_of_append heq hlast
  cases first with
  | nil => exact h.not_marker hmarker heq
  | cons c first =>
      generalize hwhole : c :: first ++ last = whole at h
      obtain ⟨scheme, area, hash, hscheme, -, halnum, hlength, hhex⟩ := h
      cases scheme with
      | nil => cases hscheme
      | cons d scheme =>
          obtain ⟨inArea, rfl, hareas⟩ := exists_after_part (List.cons.inj hwhole).2 hm
            (not_m_of_sameLetters hscheme (by decide))
          rw [← List.cons_append] at hedge
          have hletter := any_getLast?_of_append hedge
          obtain ⟨inside, rfl, hinside⟩ | ⟨afterArea, rfl, hdashes⟩ :=
            List.append_eq_append_iff.mp hareas
          · cases hend : inArea.getLast? with
            | none =>
                obtain rfl := List.getLast?_eq_none_iff.mp hend
                rw [hinside, List.append_assoc] at heq
                exact area_not_marker halnum hlength hhex hmarker heq
            | some e =>
                -- the character before it is a letter of the area
                rw [hend, Option.any_some] at hletter
                rw [halnum e (List.mem_append_left _ (List.mem_of_getLast? hend))] at hletter
                cases hletter
          · obtain ⟨afterDash, rfl, hhashes⟩ :=
              @exists_after_part afterArea last hash ['-'] hdashes.symm hm (not_m_of_single (by decide))
            obtain ⟨e, tail, rfl, he⟩ := hm
            have hhexed := isHexLetterOrDigit_iff.mp (hhex e (by rw [← hhashes]; simp))
            obtain hcode | hcode := toNat_of_caseKey_m he <;> omega

/-- No marker starts inside another one, but after a letter. -/
theorem IsMarker.not_marker_inside (h : IsMarker id (first ++ last))
    (hmarker : IsMarker other marker) (heq : last ++ rest = marker ++ more) (hfirst : first ≠ [])
    (hlast : last ≠ []) (hedge : first.getLast?.any isLetterOrDigit = false) : False := by
  have hm := hmarker.head_of_append heq hlast
  generalize hwhole : first ++ last = whole at h
  obtain ⟨label, gap, space, hlabel, hgap, hspace, hid⟩ := h
  cases first with
  | nil => exact hfirst rfl
  | cons c first =>
      cases label with
      | nil => cases hlabel
      | cons d label =>
          -- the other marker starts after the label and the separator
          obtain ⟨afterLabel, rfl, hgaps⟩ := exists_after_part (List.cons.inj hwhole).2 hm
            (not_m_of_sameLetters hlabel (by decide))
          obtain ⟨afterGap, rfl, hcolon⟩ := exists_after_part hgaps hm
            fun c hc => isSpace_not_m (hgap c hc)
          obtain ⟨afterColon, rfl, hspaces⟩ :=
            @exists_after_part _ _ _ [':'] hcolon hm (not_m_of_single (by decide))
          obtain ⟨inId, rfl, hids⟩ := exists_after_part hspaces hm
            fun c hc => isSpace_not_m (hspace c hc)
          rw [← hids] at hid
          refine hid.not_marker_inside hmarker heq hlast ?_
          have hedges : (c :: (label ++ (gap ++ ([':'] ++ space))) ++ inId).getLast?.any
              isLetterOrDigit = false := by
            simpa only [List.cons_append, List.append_assoc] using hedge
          exact any_getLast?_of_append hedges

end Apart

/-! ## The markers of a text -/

/-- The letters and digits of the patterns are word characters, as in Unicode. -/
def Unicode.KnowsLetters (unicode : Unicode) : Prop :=
  ∀ c, isLetterOrDigit c = true → unicode.isWord c = true

section Extract

variable {unicode : Unicode} {id marker before after group : Text}

theorem isLetterOrDigit_of_hex {c : Char} (h : isHexLetterOrDigit c = true) :
    isLetterOrDigit c = true := by
  rw [isHexLetterOrDigit_iff] at h
  rw [isLetterOrDigit_iff]
  omega

/-- A marker ends with a letter or a digit. -/
theorem IsMarker.last (h : IsMarker id marker) :
    ∃ front c, marker = front ++ [c] ∧ isLetterOrDigit c = true := by
  obtain ⟨label, gap, space, -, -, -, hid⟩ := h
  obtain ⟨scheme, area, hash, -, -, -, hlength, hhex⟩ := hid
  cases hash using List.reverseRecOn with
  | nil => cases hlength
  | append_singleton hash c _ =>
      refine ⟨label ++ (gap ++ ':' :: (space ++ (scheme ++ (area ++ '-' :: hash)))), c, by simp, ?_⟩
      exact isLetterOrDigit_of_hex (hhex c (by simp))

/-- A marker starts at an edge if no word character is before it. -/
theorem IsMarker.atWordEdge_start (h : IsMarker id marker) (hletters : unicode.KnowsLetters) :
    Pattern.atWordEdge unicode.isWord ⟨before, marker ++ after, group⟩ = true ↔
      before.head?.any unicode.isWord = false := by
  obtain ⟨c, rest, rfl, hc⟩ := h.head
  have hword : unicode.isWord c = true :=
    hletters c (isLetterOrDigit_of_caseKey (by rw [hc]; decide))
  simp [Pattern.atWordEdge, hword]

/-- A marker stops at an edge if no word character is after it. -/
theorem IsMarker.atWordEdge_stop (h : IsMarker id marker) (hletters : unicode.KnowsLetters) :
    Pattern.atWordEdge unicode.isWord ⟨marker.reverse ++ before, after, group⟩ = true ↔
      after.head?.any unicode.isWord = false := by
  obtain ⟨front, c, rfl, hc⟩ := h.last
  simp [Pattern.atWordEdge, hletters c hc]

theorem apart_markerPattern (hletters : unicode.KnowsLetters) :
    Pattern.Apart unicode.isWord markerPattern where
  nonempty cursor stop hstop := by
    obtain ⟨-, -, marker, hmarker, hpasses⟩ := mem_ways_marker.mp hstop
    obtain ⟨c, rest, rfl, -⟩ := hmarker.head
    rw [hpasses.after, List.length_append, List.length_cons]
    omega
  apart before first last rest group hfirst hlast hstop := by
    obtain ⟨-, -, marker, hmarker, hpasses⟩ := mem_ways_marker.mp hstop
    have hmarker' : IsMarker group (first ++ last) := by
      have hwhole : (first ++ last) ++ rest = marker ++ rest := by
        rw [List.append_assoc]
        exact hpasses.after
      rwa [List.append_cancel_right hwhole]
    rw [List.eq_nil_iff_forall_not_mem]
    intro next hnext
    obtain ⟨hedge, -, other, hother, hafter⟩ := mem_ways_marker.mp hnext
    refine hmarker'.not_marker_inside hother hafter.after hfirst hlast ?_
    have hbefore : (first.reverse ++ before).head?.any unicode.isWord = false := by
      have hstart : last ++ rest = other ++ next.after := hafter.after
      rw [hstart] at hedge
      exact (hother.atWordEdge_start hletters).mp hedge
    cases hend : first.getLast? with
    | none => rfl
    | some c =>
        rw [List.head?_append, List.head?_reverse, hend, Option.some_or, Option.any_some] at hbefore
        rw [Option.any_some, Bool.eq_false_iff]
        intro hletter
        rw [hletters c hletter] at hbefore
        cases hbefore

/-- The extractor finds exactly the markers of a text. -/
theorem mem_extractPressureMarkers_iff (hletters : unicode.KnowsLetters) {text : Text}
    {id : String} :
    id ∈ extractPressureMarkers unicode text ↔ Marks unicode.isWord text id.toList := by
  rw [extractPressureMarkers, mem_sortedBy, List.mem_eraseDups, List.mem_map]
  constructor
  · rintro ⟨found, hfound, rfl⟩
    obtain ⟨before, rest, rfl, hmatch⟩ :=
      (Pattern.mem_findAll_iff (apart_markerPattern hletters)).mp hfound
    obtain ⟨hstart, hstop, marker, hmarker, hpasses⟩ :=
      mem_ways_marker.mp (Pattern.mem_ways_of_matchAt hmatch)
    have hrest : rest = marker ++ found.stop.after := hpasses.after
    rw [String.toList_ofList]
    refine ⟨before, marker, found.stop.after, by rw [hrest], hmarker, ?_, ?_⟩
    · rw [hrest] at hstart
      have hedge := (hmarker.atWordEdge_start hletters).mp hstart
      rwa [List.head?_reverse] at hedge
    · have hedge : Pattern.atWordEdge unicode.isWord ⟨marker.reverse ++ before.reverse,
          found.stop.after, found.stop.group⟩ = true := by
        rw [← hpasses.before]
        exact hstop
      exact (hmarker.atWordEdge_stop hletters).mp hedge
  · rintro ⟨before, marker, after, rfl, hmarker, hbefore, hafter⟩
    have hway : (⟨marker.reverse ++ before.reverse, after, id.toList⟩ : Cursor) ∈
        Pattern.ways unicode.isWord markerPattern ⟨before.reverse, marker ++ after, []⟩ := by
      refine mem_ways_marker.mpr ⟨?_, ?_, marker, hmarker, rfl, rfl⟩
      · rw [hmarker.atWordEdge_start hletters, List.head?_reverse]
        exact hbefore
      · exact (hmarker.atWordEdge_stop hletters).mpr hafter
    cases hfirst : (Pattern.ways unicode.isWord markerPattern
        ⟨before.reverse, marker ++ after, []⟩).head? with
    | none =>
        rw [List.head?_eq_none_iff.mp hfirst] at hway
        cases hway
    | some stop =>
        refine ⟨⟨⟨before.reverse, marker ++ after, []⟩, stop⟩,
          (Pattern.mem_findAll_iff (apart_markerPattern hletters)).mpr
            ⟨before, marker ++ after, rfl, Pattern.matchAt_eq_some_iff.mpr ⟨rfl, hfirst⟩⟩, ?_⟩
        obtain ⟨-, -, other, hother, hpasses⟩ := mem_ways_marker.mp (List.mem_of_head? hfirst)
        obtain ⟨hid, -⟩ := hother.unique hmarker (hpasses.after.symm)
        rw [Match.inner, hid, String.ofList_toList]

end Extract

/-! ## Upper case -/

/-- A character of a written identity. -/
def isIdChar (c : Char) : Bool := isUpperAlnum c || c = '-'

theorem isIdChar_iff {c : Char} :
    isIdChar c = true ↔ (48 ≤ c.toNat ∧ c.toNat ≤ 57) ∨ (65 ≤ c.toNat ∧ c.toNat ≤ 90) ∨
      c.toNat = 45 := by
  have hdash : c = '-' ↔ c.toNat = 45 := ⟨fun h => by rw [h]; rfl, fun h => Char.toNat_inj.mp h⟩
  simp only [isIdChar, isUpperAlnum, Char.isDigit, Bool.or_eq_true, Bool.and_eq_true,
    decide_eq_true_eq, Char.le_def, UInt32.le_iff_toNat_le, or_assoc, hdash]
  rfl

/-- How a character of a written identity folds. -/
theorem toNat_caseKey {c : Char} (h : isIdChar c = true) :
    (Pattern.caseKey c).toNat = if 65 ≤ c.toNat then c.toNat + 32 else c.toNat := by
  rw [isIdChar_iff] at h
  obtain ⟨hcode, -⟩ | ⟨hself, hlower⟩ | ⟨hlow, -, hsum⟩ := caseKey_cases c
  · simp only [List.mem_cons, List.not_mem_nil, or_false] at hcode
    omega
  · rw [hself, if_neg (by omega)]
  · rw [hsum, if_pos hlow]

/-- Characters of written identities that fold to the same one are the same. -/
theorem eq_of_caseKey_eq {c d : Char} (hc : isIdChar c = true) (hd : isIdChar d = true)
    (h : Pattern.caseKey c = Pattern.caseKey d) : c = d := by
  have hcodes := congrArg Char.toNat h
  rw [toNat_caseKey hc, toNat_caseKey hd] at hcodes
  rw [isIdChar_iff] at hc hd
  refine Char.toNat_inj.mp ?_
  split at hcodes <;> split at hcodes <;> omega

theorem SameLetters.eq_of_upper {text : String} {part : Text} (h : SameLetters text part)
    (hpart : ∀ c ∈ part, isIdChar c = true) (htext : ∀ c ∈ text.toList, isIdChar c = true) :
    part = text.toList := by
  rw [SameLetters] at h
  generalize text.toList = chars at h htext
  induction part generalizing chars with
  | nil =>
      cases chars with
      | nil => rfl
      | cons d chars => cases h
  | cons c part ih =>
      cases chars with
      | nil => cases h
      | cons d chars =>
          obtain ⟨hhead, htail⟩ := List.cons.inj h
          obtain ⟨hc, hpart⟩ := List.forall_mem_cons.mp hpart
          obtain ⟨hd, hchars⟩ := List.forall_mem_cons.mp htext
          rw [eq_of_caseKey_eq hc hd hhead, ih hpart chars htail hchars]

theorem dash_not_mem {part : Text} {test : Char → Bool} (htest : test '-' = false)
    (h : ∀ c ∈ part, test c = true) : '-' ∉ part := by
  intro hmem
  rw [h _ hmem] at htest
  cases htest

theorem isUpperAlnum_of_hex {c : Char} (h : isUpperHex c = true) : isUpperAlnum c = true := by
  simp only [isUpperHex, isUpperAlnum, Bool.or_eq_true, Bool.and_eq_true, decide_eq_true_eq] at h ⊢
  obtain hdigit | ⟨hlow, hhigh⟩ := h
  · exact .inl hdigit
  · exact .inr ⟨hlow, hhigh.trans (by decide)⟩

/-- The identities that are written. -/
theorem isPressureId_ofList_iff {id : Text} :
    isPressureId (String.ofList id) = true ↔
      ∃ area hash, id = "MNCS".toList ++ '-' :: (area ++ '-' :: hash) ∧ area ≠ [] ∧
        (∀ c ∈ area, isUpperAlnum c = true) ∧ hash.length = 12 ∧
          ∀ c ∈ hash, isUpperHex c = true := by
  rw [isPressureId, String.toList_ofList]
  constructor
  · intro h
    split at h
    · rename_i scheme area hash hparts
      simp only [isShortHash, Bool.and_eq_true, beq_iff_eq, Bool.not_eq_true',
        List.isEmpty_eq_false_iff, List.all_eq_true] at h
      obtain ⟨⟨⟨rfl, harea⟩, halnum⟩, hlength, hhex⟩ := h
      refine ⟨area, hash, ?_, harea, halnum, hlength, hhex⟩
      rw [← Str.intercalate_splitChar '-' id, hparts]
      simp [List.intercalate_cons_cons]
    · cases h
  · rintro ⟨area, hash, rfl, harea, halnum, hlength, hhex⟩
    rw [Str.splitChar_append (by decide), Str.splitChar_append (dash_not_mem (by decide) halnum),
      Str.splitChar_of_not_mem (dash_not_mem (by decide) hhex)]
    simp only [isShortHash, Bool.and_eq_true, beq_iff_eq, Bool.not_eq_true',
      List.isEmpty_eq_false_iff, List.all_eq_true]
    exact ⟨⟨⟨by decide, harea⟩, halnum⟩, hlength, hhex⟩

/-- An identity in any case is one exactly if it is spelled in upper case. -/
theorem MarkedId.isPressureId_iff {id : Text} (h : MarkedId id) :
    isPressureId (String.ofList id) = true ↔ ∀ c ∈ id, isIdChar c = true := by
  obtain ⟨scheme, area, hash, hscheme, harea, halnum, hlength, hhex⟩ := h
  rw [isPressureId_ofList_iff]
  constructor
  · rintro ⟨area', hash', heq, -, halnum', -, hhex'⟩
    have hstart : ∀ c ∈ "MNCS".toList, isIdChar c = true := List.all_eq_true.mp rfl
    rw [heq]
    intro c hc
    rw [List.mem_append, List.mem_cons, List.mem_append, List.mem_cons] at hc
    obtain hc | rfl | hc | rfl | hc := hc
    · exact hstart c hc
    · decide
    · rw [isIdChar, halnum' c hc, Bool.true_or]
    · decide
    · rw [isIdChar, isUpperAlnum_of_hex (hhex' c hc), Bool.true_or]
  · intro hupper
    refine ⟨area, hash, ?_, harea, fun c hc => ?_, hlength, fun c hc => ?_⟩
    · rw [hscheme.eq_of_upper (fun c hc => hupper c (by simp [hc])) (List.all_eq_true.mp rfl)]
      rfl
    · have hid := hupper c (by simp [hc])
      rw [isIdChar, Bool.or_eq_true] at hid
      obtain hid | hid := hid
      · exact hid
      · obtain rfl := of_decide_eq_true hid
        cases halnum _ hc
    · have hid := isIdChar_iff.mp (hupper c (by simp [hc]))
      have hletter := isHexLetterOrDigit_iff.mp (hhex c hc)
      rw [isUpperHex_iff]
      omega

/-! ## The round trip -/

/-- No marker of the text has a character outside `[A-Z0-9-]` in its identity. -/
def UpperCased (unicode : Unicode) (text : Text) : Prop :=
  ∀ id, Marks unicode.isWord text id → ∀ c ∈ id, isIdChar c = true

/-- What is extracted are identities of pressures, in order and each once, among them
those whose marker stands in the text by itself. -/
structure MarkersRoundTrip (unicode : Unicode) (text : Text) : Prop where
  wellFormed : ∀ id ∈ extractPressureMarkers unicode text, ∃ marker, sourceMarker id = .ok marker
  sorted : (extractPressureMarkers unicode text).Pairwise (· < ·)
  found : ∀ id marker before after, sourceMarker id = .ok marker →
    text = before ++ (marker.toList ++ after) → before.getLast?.any unicode.isWord = false →
      after.head?.any unicode.isWord = false → id ∈ extractPressureMarkers unicode text

section RoundTrip

variable {unicode : Unicode} {text : Text}

theorem sourceMarker_eq_ok_iff {id marker : String} :
    sourceMarker id = .ok marker ↔ isPressureId id = true ∧ marker = "mncs-pressure: " ++ id := by
  rw [sourceMarker]
  split
  · rename_i hid
    simp [hid, eq_comm]
  · rename_i hid
    simp [hid]

/-- The marker of an identity is a marker of it. -/
theorem isMarker_sourceMarker {id marker : String} (h : sourceMarker id = .ok marker) :
    IsMarker id.toList marker.toList := by
  obtain ⟨hid, rfl⟩ := sourceMarker_eq_ok_iff.mp h
  rw [← String.ofList_toList (s := id)] at hid
  obtain ⟨area, hash, heq, harea, halnum, hlength, hhex⟩ := isPressureId_ofList_iff.mp hid
  have hmarked : MarkedId id.toList := by
    have hwhole : id.toList = "MNCS-".toList ++ (area ++ '-' :: hash) := heq
    rw [hwhole]
    refine .intro _ area hash rfl harea (fun c hc => ?_) hlength fun c hc => ?_
    · have hid : isIdChar c = true := by rw [isIdChar, halnum c hc, Bool.true_or]
      have hdash : c.toNat ≠ '-'.toNat := by
        intro hcode
        rw [Char.toNat_inj.mp hcode] at hc
        exact dash_not_mem (by decide) halnum hc
      have hcode := isIdChar_iff.mp hid
      rw [isLetterOrDigit_iff]
      simp only [Char.reduceToNat] at hdash
      omega
    · rw [isHexLetterOrDigit, hhex c hc, Bool.true_or]
  rw [String.toList_append]
  exact .intro "mncs-pressure".toList [] [' '] rfl (by simp) (List.all_eq_true.mp rfl) hmarked

theorem pairwise_extractPressureMarkers :
    (extractPressureMarkers unicode text).Pairwise (· < ·) := by
  have hnodup : (extractPressureMarkers unicode text).Nodup :=
    (sortedBy_perm _ _).nodup_iff.mpr (nodup_eraseDups _)
  exact (List.Pairwise.and (pairwise_sortedBy id _) hnodup).imp fun h => lt_of_le_of_ne h.1 h.2

/-- The markers of a text make the round trip exactly if they spell their identities in
upper case. -/
theorem markers_round_trip_iff (hletters : unicode.KnowsLetters) (text : Text) :
    MarkersRoundTrip unicode text ↔ UpperCased unicode text := by
  constructor
  · intro hround id hmarks
    have hmarked : MarkedId id := by
      obtain ⟨_, _, _, -, ⟨_, _, _, -, -, -, hid⟩, -⟩ := hmarks
      exact hid
    obtain ⟨marker, hmarker⟩ := hround.wellFormed (String.ofList id)
      ((mem_extractPressureMarkers_iff hletters).mpr (by rwa [String.toList_ofList]))
    exact hmarked.isPressureId_iff.mp (sourceMarker_eq_ok_iff.mp hmarker).1
  · intro hupper
    refine ⟨fun id hid => ?_, pairwise_extractPressureMarkers, ?_⟩
    · have hmarks := (mem_extractPressureMarkers_iff hletters).mp hid
      have hmarked : MarkedId id.toList := by
        obtain ⟨_, _, _, -, ⟨_, _, _, -, -, -, hid⟩, -⟩ := hmarks
        exact hid
      have hpressure := hmarked.isPressureId_iff.mpr (hupper _ hmarks)
      rw [String.ofList_toList] at hpressure
      exact ⟨_, sourceMarker_eq_ok_iff.mpr ⟨hpressure, rfl⟩⟩
    · intro id marker before after hmarker hsplit hbefore hafter
      exact (mem_extractPressureMarkers_iff hletters).mpr
        ⟨before, marker.toList, after, hsplit, isMarker_sourceMarker hmarker, hbefore, hafter⟩

end RoundTrip

/-! ## Two markers -/

/-- Tables of the letters that the patterns name. -/
def letterTables : Unicode where
  lower text := String.ofList (text.toList.map Char.toLower)
  isWord c := isLetterOrDigit c || c == '_'
  isDigit := Char.isDigit

theorem knowsLetters_letterTables : letterTables.KnowsLetters := by
  intro c hc
  simp [letterTables, hc]

def markedSource (id : String) : Text := ("// mncs-pressure: " ++ id).toList

theorem extract_markedSource : extractPressureMarkers letterTables
    (markedSource "MNCS-LANG-ABCDEF012345") = ["MNCS-LANG-ABCDEF012345"] := by
  decide +kernel

theorem marked_source_round_trip :
    MarkersRoundTrip letterTables (markedSource "MNCS-LANG-ABCDEF012345") := by
  refine (markers_round_trip_iff knowsLetters_letterTables _).mpr fun id hid => ?_
  rw [← String.toList_ofList (l := id), ← mem_extractPressureMarkers_iff knowsLetters_letterTables,
    extract_markedSource, List.mem_singleton] at hid
  rw [← String.toList_ofList (l := id), hid]
  exact List.all_eq_true.mp (by decide +kernel)

/-- A marker in lower case is extracted, and no marker is written for it. -/
theorem lower_case_not_round_trip : ¬ ∀ (unicode : Unicode) (text : Text), unicode.KnowsLetters →
    MarkersRoundTrip unicode text := by
  intro hall
  obtain ⟨marker, hmarker⟩ := (hall letterTables (markedSource "mncs-lang-abcdef012345")
    knowsLetters_letterTables).wellFormed "mncs-lang-abcdef012345" (by decide +kernel)
  have hid : isPressureId "mncs-lang-abcdef012345" = false := by decide +kernel
  rw [(sourceMarker_eq_ok_iff.mp hmarker).1] at hid
  cases hid

end MncsCommons.Pressure
