/-
# Bundles of everything a store has

A bundle reads back as it was written, since the names of its members are plain.  For a
store that verifies the members are its ledger and the content files that its rows name,
so writing them to empty directories gives content that its ledger verifies with
(`Verified.of_restored`).
-/

import MncsCommons.Retention.Archives
import MncsCommons.Data.Updates
import MncsCommons.Data.KeyOrder
import MncsCommons.Store.Append
import Mathlib.Tactic.FinCases

namespace MncsCommons.Retention

open MncsCommons.Data MncsCommons.Protocol MncsCommons.Exec MncsCommons.Store

/-! ## Names of content files -/

/-- The hexadecimal part of a digest. -/
theorem contentPath_toList (type : ContentType) (payload : Fields) :
    ∃ hash : Text, hash ≠ [] ∧ (∀ c ∈ hash, isLowerHex c = true) ∧
      (contentName (canonicalDigest payload)).toList = hash ++ ".json".toList ∧
      (contentPath type (canonicalDigest payload)).toList =
        type.directory.toList ++ '/' :: (hash ++ ".json".toList) := by
  have hname : (contentName (canonicalDigest payload)).toList =
      sha256Hex (dumps (.obj (identityProjection payload))) ++ ".json".toList := by
    rw [contentName, canonicalDigest, digestOfText, Str.removePrefix_append]
    simp
  refine ⟨sha256Hex (dumps (.obj (identityProjection payload))), ?_, ?_, hname, ?_⟩
  · exact List.ne_nil_of_length_pos (by rw [length_sha256Hex]; decide)
  · exact fun c hc => isLowerHex_of_mem_sha256Hex hc
  · rw [contentPath, String.toList_append, String.toList_append, hname]
    simp

/-- A character of a hash is neither a dot nor a slash. -/
theorem isAlphanum_of_isLowerHex {c : Char} (h : isLowerHex c = true) :
    c.isAlphanum = true ∧ c ≠ '.' ∧ c ≠ '/' := by
  refine ⟨?_, ?_, ?_⟩
  · simp only [isLowerHex, Bool.or_eq_true, Bool.and_eq_true, decide_eq_true_eq] at h
    have hkinds : c.isAlphanum = ((c.isUpper || c.isLower) || c.isDigit) := rfl
    have hletters : c.isLower = (decide (c.val ≥ 'a'.val) && decide (c.val ≤ 'z'.val)) := rfl
    rw [hkinds, Bool.or_eq_true, Bool.or_eq_true]
    rcases h with h | ⟨hlow, hhigh⟩
    · exact .inr h
    · left; right
      rw [hletters, Bool.and_eq_true, decide_eq_true_eq, decide_eq_true_eq]
      exact ⟨hlow, le_trans hhigh (by decide)⟩
  · rintro rfl
    exact absurd h (by decide)
  · rintro rfl
    exact absurd h (by decide)

theorem isPlainName_contentPath (type : ContentType) (payload : Fields) :
    isPlainName (contentPath type (canonicalDigest payload)) = true := by
  obtain ⟨hash, -, hhex, -, hpath⟩ := contentPath_toList type payload
  have hne : contentPath type (canonicalDigest payload) ≠ "" := by
    intro hempty
    rw [hempty] at hpath
    exact absurd hpath (by cases type <;> simp [ContentType.directory])
  have hstart : Str.startsWith (contentPath type (canonicalDigest payload)) "/" = false := by
    rw [Str.startsWith, hpath]
    cases type <;> rfl
  have hend : Str.endsWith (contentPath type (canonicalDigest payload)) "/" = false := by
    rw [Str.endsWith, hpath, Bool.eq_false_iff, ne_eq, List.isSuffixOf_iff_suffix]
    rintro ⟨before, hbefore⟩
    have hsplit : type.directory.toList ++ '/' :: (hash ++ ".json".toList) =
        (type.directory.toList ++ '/' :: (hash ++ ".jso".toList)) ++ ['n'] := by
      simp
    rw [hsplit] at hbefore
    exact absurd (List.append_inj' hbefore rfl).2 (by decide)
  have hchars : ∀ c ∈ (contentPath type (canonicalDigest payload)).toList,
      (c.isAlphanum || c = '.' || c = '/') = true := by
    intro c hc
    rw [hpath, List.mem_append, List.mem_cons, List.mem_append] at hc
    rcases hc with hc | rfl | hc | hc
    · cases type <;> fin_cases hc <;> rfl
    · rfl
    · simp [(isAlphanum_of_isLowerHex (hhex c hc)).1]
    · fin_cases hc <;> rfl
  rw [isPlainName, hstart, hend]
  simpa [hne] using hchars

theorem hasDotDot_contentPath (type : ContentType) (payload : Fields) :
    hasDotDot (contentPath type (canonicalDigest payload)) = false := by
  obtain ⟨hash, -, hhex, -, hpath⟩ := contentPath_toList type payload
  have hdots : ∀ text : Text, ['.', '.'] <:+: text → 2 ≤ text.count '.' := by
    intro text h
    exact h.sublist.count_le '.'
  rw [hasDotDot, decide_eq_false_iff_not]
  intro h
  have hcount := hdots _ h
  have hnone : hash.count '.' = 0 := List.count_eq_zero.mpr fun hmem =>
    (isAlphanum_of_isLowerHex (hhex _ hmem)).2.1 rfl
  rw [hpath, List.count_append, List.count_cons, List.count_append, hnone] at hcount
  cases type <;> exact absurd hcount (by decide)

theorem isContentMember_contentPath_iff (type other : ContentType) (payload : Fields) :
    isContentMember other (contentPath type (canonicalDigest payload)) = true ↔ other = type := by
  obtain ⟨hash, -, -, -, hpath⟩ := contentPath_toList type payload
  have hend : Str.endsWith (contentPath type (canonicalDigest payload)) ".json" = true := by
    rw [contentPath, contentName, ← String.append_assoc]
    exact Str.endsWith_append _ _
  rw [isContentMember, hend, Bool.and_true, Str.startsWith, hpath]
  cases type <;> cases other <;> simp [ContentType.directory, List.isPrefixOf]

theorem isContentMember_ledger (type : ContentType) : isContentMember type "ledger.jsonl" = false := by
  cases type <;> decide

theorem contentPath_ne_ledger (type : ContentType) (payload : Fields) :
    contentPath type (canonicalDigest payload) ≠ "ledger.jsonl" := by
  intro hname
  have hmember := (isContentMember_contentPath_iff type type payload).mpr rfl
  rw [hname, isContentMember_ledger] at hmember
  cases hmember

/-- The file name of a content file's path. -/
theorem pathName_contentPath (type : ContentType) (payload : Fields) :
    pathName (contentPath type (canonicalDigest payload)) =
      contentName (canonicalDigest payload) := by
  obtain ⟨hash, hne, hhex, hname, hpath⟩ := contentPath_toList type payload
  have hslash : '/' ∉ hash ++ ".json".toList := by
    intro hmem
    rcases List.mem_append.mp hmem with hmem | hmem
    · exact (isAlphanum_of_isLowerHex (hhex _ hmem)).2.2 rfl
    · exact absurd hmem (by decide)
  have hdirectory : '/' ∉ type.directory.toList := by cases type <;> decide
  have hfile : hash ++ ".json".toList ≠ [] ∧ hash ++ ".json".toList ≠ ['.'] := by
    constructor
    · simp
    · intro heq
      have hlength := congrArg List.length heq
      simp at hlength
  rw [pathName, hpath, Str.splitChar_append hdirectory, Str.splitChar_of_not_mem hslash,
    List.filter_cons, List.filter_cons_of_pos (by simpa using hfile), List.filter_nil]
  have hlast : ∀ first : List Text,
      (first ++ [hash ++ ".json".toList]).getLast? = some (hash ++ ".json".toList) := by
    simp
  split
  · rw [show [type.directory.toList, hash ++ ".json".toList] =
      [type.directory.toList] ++ [hash ++ ".json".toList] from rfl, hlast, Option.getD_some, ← hname,
      String.ofList_toList]
  · rw [show [hash ++ ".json".toList] = [] ++ [hash ++ ".json".toList] from rfl, hlast,
      Option.getD_some, ← hname, String.ofList_toList]

/-- A record's digest is read off its path. -/
theorem append_pathStem_contentPath (type : ContentType) (payload : Fields) :
    "sha256:" ++ pathStem (contentPath type (canonicalDigest payload)) =
      canonicalDigest payload := by
  have hstem : Str.removeSuffix (contentName (canonicalDigest payload)) ".json" =
      Str.removePrefix (canonicalDigest payload) "sha256:" := by
    rw [contentName, Str.removeSuffix_append]
  have hne : Str.removePrefix (canonicalDigest payload) "sha256:" ≠ "" := by
    intro hempty
    have hlength := congrArg (fun digest : String => digest.toList.length)
      (append_removePrefix_canonicalDigest payload)
    rw [hempty, canonicalDigest, digestOfText] at hlength
    simp [length_sha256Hex] at hlength
  rw [pathStem, pathName_contentPath, hstem, if_neg hne, append_removePrefix_canonicalDigest]

/-! ## A bundle read back -/

/-- A member that a bundle may have. -/
structure Bundled (member : String × Text) : Prop where
  plain : isPlainName member.1 = true
  dots : hasDotDot member.1 = false

theorem collectMembers_files {files : Dir} (h : ∀ file ∈ files, Bundled file) (read : Dir) :
    collectMembers read (files.map fun file => ⟨file.1, true, file.2⟩) =
      .ok (Fields.update read files) := by
  induction files generalizing read with
  | nil => rfl
  | cons file files ih =>
      obtain ⟨hfile, hfiles⟩ := List.forall_mem_cons.mp h
      have hstart : Str.startsWith file.1 "/" = false := by
        have hplain := hfile.plain
        simp only [isPlainName, Bool.and_eq_true, Bool.not_eq_true'] at hplain
        exact hplain.1.2
      rw [List.map_cons, collectMembers, hstart, hfile.dots]
      exact ih hfiles _

theorem extractBundle_bundleBytes (packing : Packing) {members : Dir}
    (hmembers : ∀ member ∈ members, Bundled member) (hnodup : (Fields.keys members).Nodup) :
    extractBundle packing (bundleBytes packing members) = .ok (sortedBy Prod.fst members) := by
  have hperm := sortedBy_perm Prod.fst members
  have hsorted : ∀ member ∈ sortedBy Prod.fst members, Bundled member :=
    fun member hmember => hmembers member (hperm.mem_iff.mp hmember)
  have hkeys : (Fields.keys (sortedBy Prod.fst members)).Nodup :=
    (hperm.map Prod.fst).nodup_iff.mpr hnodup
  have hplain : ((sortedBy Prod.fst members).all fun file => isPlainName file.1) = true :=
    List.all_eq_true.mpr fun file hfile => (hsorted file hfile).plain
  rw [extractBundle, bundleBytes, packing.decompress_compress]
  show (do
    let read ← packing.getMembers (packing.tar (sortedBy Prod.fst members))
    collectMembers [] read) = _
  rw [packing.getMembers_tar _ hplain]
  show collectMembers [] _ = _
  rw [collectMembers_files hsorted, Fields.update_of_nodup (by simpa [Fields.keys] using hkeys),
    List.nil_append]

/-! ## The members of an archive of everything -/

/-- The records and the events of a ledger. -/
def payloadsOf (read : List Fields) (type : ContentType) : List Fields :=
  payloadsFromRows read type.value

/-- The members of an archive of all records and events. -/
def fullMembers (ledger : Text) (read : List Fields) : Dir :=
  archiveMembers ledger (payloadsOf read .record) (payloadsOf read .event)

section FullMembers

variable {store : StoreDir} {read : List Fields} (hverified : Verified store read)

include hverified

theorem payloadDigest_eq {type : ContentType} {payload : Fields}
    (h : payload ∈ payloadsOf read type) : payloadDigest payload = canonicalDigest payload := by
  rw [payloadDigest, hverified.contentDigest h, Json.pyStr_str]

theorem contentMember_eq {type : ContentType} {payload : Fields}
    (h : payload ∈ payloadsOf read type) :
    contentMember type payload =
      (contentPath type (canonicalDigest payload), canonicalJson (.obj payload)) := by
  rw [contentMember, payloadDigest_eq hverified h]

/-- Content files with one path have one text. -/
theorem canonicalJson_of_contentPath_eq {type other : ContentType} {payload another : Fields}
    (hpayload : payload ∈ payloadsOf read type) (hanother : another ∈ payloadsOf read other)
    (hpath : contentPath type (canonicalDigest payload) =
      contentPath other (canonicalDigest another)) :
    canonicalJson (.obj payload) = canonicalJson (.obj another) := by
  have hsplit := congrArg splitContentPath hpath
  rw [splitContentPath_contentPath, splitContentPath_contentPath, Option.some_inj,
    Prod.mk.injEq] at hsplit
  obtain ⟨rfl, hname⟩ := hsplit
  have hfirst := (hverified.filed hpayload).file
  have hsecond := (hverified.filed hanother).file
  rw [hverified.contentDigest hpayload, Json.pyStr_str, StoreDir.readContent, hname] at hfirst
  rw [hverified.contentDigest hanother, Json.pyStr_str, StoreDir.readContent] at hsecond
  exact Option.some_inj.mp (hfirst.symm.trans hsecond)

omit hverified in
theorem nodup_keys_fullMembers (ledger : Text) (read : List Fields) :
    (Fields.keys (fullMembers ledger read)).Nodup :=
  Fields.nodup_keys_update (Fields.nodup_keys_update (by simp [Fields.keys]) _) _

omit hverified in
/-- A member is the ledger or a content file. -/
theorem get?_fullMembers_cases {ledger text : Text} {name : String}
    (h : Fields.get? (fullMembers ledger read) name = some text) :
    (name = "ledger.jsonl" ∧ text = ledger) ∨
      ∃ type, ∃ payload ∈ payloadsOf read type, (name, text) = contentMember type payload := by
  rcases Fields.get?_update_cases h with hevent | h
  · obtain ⟨payload, hpayload, heq⟩ := List.mem_map.mp hevent
    exact .inr ⟨.event, payload, hpayload, heq.symm⟩
  rcases Fields.get?_update_cases h with hrecord | h
  · obtain ⟨payload, hpayload, heq⟩ := List.mem_map.mp hrecord
    exact .inr ⟨.record, payload, hpayload, heq.symm⟩
  · left
    rw [Fields.get?] at h
    split at h
    · next hname => exact ⟨hname.symm, (Option.some_inj.mp h).symm⟩
    · cases h

omit hverified in
theorem mem_keys_fullMembers {ledger : Text} {name : String} :
    name ∈ Fields.keys (fullMembers ledger read) ↔
      name = "ledger.jsonl" ∨
        ∃ type, ∃ payload ∈ payloadsOf read type, name = (contentMember type payload).1 := by
  rw [fullMembers, archiveMembers, Fields.mem_keys_update, Fields.mem_keys_update]
  constructor
  · rintro ((hname | hname) | hname)
    · exact .inl (by simpa [Fields.keys] using hname)
    · obtain ⟨_, hmember, rfl⟩ := List.mem_map.mp hname
      obtain ⟨payload, hpayload, rfl⟩ := List.mem_map.mp hmember
      exact .inr ⟨.record, payload, hpayload, rfl⟩
    · obtain ⟨_, hmember, rfl⟩ := List.mem_map.mp hname
      obtain ⟨payload, hpayload, rfl⟩ := List.mem_map.mp hmember
      exact .inr ⟨.event, payload, hpayload, rfl⟩
  · rintro (rfl | ⟨type, payload, hpayload, rfl⟩)
    · exact .inl (.inl (by simp [Fields.keys]))
    · have hmember : (contentMember type payload).1 ∈
          Fields.keys ((payloadsOf read type).map (contentMember type)) :=
        List.mem_map_of_mem (List.mem_map_of_mem hpayload)
      cases type with
      | record => exact .inl (.inr hmember)
      | event => exact .inr hmember

theorem get?_fullMembers_contentPath {type : ContentType} {payload : Fields}
    (h : payload ∈ payloadsOf read type) (ledger : Text) :
    Fields.get? (fullMembers ledger read) (contentPath type (canonicalDigest payload)) =
      some (canonicalJson (.obj payload)) := by
  have hkey : contentPath type (canonicalDigest payload) ∈
      Fields.keys (fullMembers ledger read) := by
    rw [mem_keys_fullMembers]
    exact .inr ⟨type, payload, h, by rw [contentMember_eq hverified h]⟩
  cases hfound : Fields.get? (fullMembers ledger read)
      (contentPath type (canonicalDigest payload)) with
  | none => exact absurd hkey (Fields.get?_eq_none_iff.mp hfound)
  | some text =>
      rcases get?_fullMembers_cases hfound with ⟨hname, -⟩ | ⟨other, another, hanother, heq⟩
      · exact absurd hname (contentPath_ne_ledger type payload)
      · rw [contentMember_eq hverified hanother, Prod.mk.injEq] at heq
        rw [heq.2, canonicalJson_of_contentPath_eq hverified h hanother heq.1]

theorem get?_fullMembers_ledger (ledger : Text) :
    Fields.get? (fullMembers ledger read) "ledger.jsonl" = some ledger := by
  cases hfound : Fields.get? (fullMembers ledger read) "ledger.jsonl" with
  | none => exact absurd (mem_keys_fullMembers.mpr (.inl rfl)) (Fields.get?_eq_none_iff.mp hfound)
  | some text =>
      rcases get?_fullMembers_cases hfound with ⟨-, rfl⟩ | ⟨type, payload, hpayload, heq⟩
      · rfl
      · rw [contentMember_eq hverified hpayload, Prod.mk.injEq] at heq
        exact absurd heq.1.symm (contentPath_ne_ledger type payload)

theorem bundled_fullMembers (ledger : Text) {member : String × Text}
    (h : member ∈ fullMembers ledger read) : Bundled member := by
  rcases mem_keys_fullMembers.mp (List.mem_map_of_mem h) with hname | ⟨type, payload, hpayload, hname⟩
  · exact ⟨by rw [hname]; decide, by rw [hname]; decide⟩
  · rw [contentMember_eq hverified hpayload] at hname
    exact ⟨by rw [hname]; exact isPlainName_contentPath type payload,
      by rw [hname]; exact hasDotDot_contentPath type payload⟩

/-! ## The content directories of a restored store -/

/-- The content directory of a type that the members are written to. -/
def restoredDir (members : Dir) (type : ContentType) : Dir :=
  Fields.update [] ((members.filter fun member => isContentMember type member.1).map
    fun member => (pathName member.1, member.2))

/-- The content members of a type in what a bundle reads back as. -/
theorem mem_restored_iff {ledger : Text} {type : ContentType} {name : String} {text : Text} :
    (name, text) ∈ ((sortedBy Prod.fst (fullMembers ledger read)).filter
        fun member => isContentMember type member.1).map
          (fun member => (pathName member.1, member.2)) ↔
      ∃ payload ∈ payloadsOf read type, name = contentName (canonicalDigest payload) ∧
        text = canonicalJson (.obj payload) := by
  have hnodup := nodup_keys_fullMembers ledger read
  rw [List.mem_map]
  constructor
  · rintro ⟨member, hmember, heq⟩
    obtain ⟨hmember, htype⟩ := List.mem_filter.mp hmember
    have hget := Fields.get?_eq_some_of_mem hnodup (mem_sortedBy.mp hmember)
    rcases get?_fullMembers_cases hget with ⟨hname, -⟩ | ⟨other, payload, hpayload, hfile⟩
    · rw [hname, isContentMember_ledger] at htype
      cases htype
    · rw [contentMember_eq hverified hpayload] at hfile
      obtain ⟨hpath, htext⟩ := Prod.mk.inj hfile
      rw [hpath, isContentMember_contentPath_iff] at htype
      subst htype
      rw [hpath, pathName_contentPath, htext] at heq
      obtain ⟨rfl, rfl⟩ := Prod.mk.inj heq
      exact ⟨payload, hpayload, rfl, rfl⟩
  · rintro ⟨payload, hpayload, rfl, rfl⟩
    have hget := get?_fullMembers_contentPath hverified hpayload ledger
    refine ⟨_, List.mem_filter.mpr ⟨mem_sortedBy.mpr (Fields.mem_of_get?_eq_some hget),
      (isContentMember_contentPath_iff type type payload).mpr rfl⟩, ?_⟩
    rw [pathName_contentPath]

theorem get?_restoredDir {type : ContentType} {payload : Fields}
    (h : payload ∈ payloadsOf read type) (ledger : Text) :
    Fields.get? (restoredDir (sortedBy Prod.fst (fullMembers ledger read)) type)
      (contentName (canonicalDigest payload)) = some (canonicalJson (.obj payload)) := by
  refine Fields.get?_update_of_agree ((mem_restored_iff hverified).mpr ⟨payload, h, rfl, rfl⟩) ?_
  intro other hother
  obtain ⟨another, hanother, hname, rfl⟩ := (mem_restored_iff hverified).mp hother
  refine (canonicalJson_of_contentPath_eq hverified h hanother ?_).symm
  rw [contentPath, contentPath, hname]

theorem mem_keys_restoredDir {ledger : Text} {type : ContentType} {name : String}
    (h : name ∈ Fields.keys (restoredDir (sortedBy Prod.fst (fullMembers ledger read)) type)) :
    ∃ payload ∈ payloadsOf read type, name = contentName (canonicalDigest payload) := by
  rw [restoredDir, Fields.mem_keys_update] at h
  rcases h with h | h
  · simp [Fields.keys] at h
  · obtain ⟨⟨_, text⟩, hmember, rfl⟩ := List.mem_map.mp h
    obtain ⟨payload, hpayload, hname, -⟩ := (mem_restored_iff hverified).mp hmember
    exact ⟨payload, hpayload, hname⟩

/-- The content of the restored directories is that of a store that verifies. -/
theorem Verified.of_restored {restored : StoreDir} {ledger : Text}
    (hledger : restored.ledger = store.ledger) (hinit : restored.isInitialized = true)
    (hpending : pendingTransactions restored = [])
    (hcontent : ∀ type, restored.content type =
      some (restoredDir (sortedBy Prod.fst (fullMembers ledger read)) type)) :
    Verified restored read where
  rows := by
    rw [rows_eq_ok_iff, hledger]
    exact ⟨hinit, (rows_eq_ok_iff.mp hverified.rows).2⟩
  noPending := hpending
  chain := hverified.chain
  holds := by
    intro row hrow
    cases hverified.holds row hrow with
    | snapshot payload htype hpayload hschema => exact .snapshot payload htype hpayload hschema
    | entry type payload htype hpayload hfiled =>
        have hmem : payload ∈ payloadsOf read type :=
          mem_payloadsFromRows_iff.mpr ⟨row, hrow, htype, hpayload⟩
        refine .entry type payload htype hpayload ⟨hfiled.valid, ?_⟩
        rw [hverified.contentDigest hmem, Json.pyStr_str, StoreDir.readContent, hcontent,
          Option.bind_some, get?_restoredDir hverified hmem]
  owned := by
    intro type stem hstem
    rw [hcontent, Option.getD_some, contentStems, List.mem_filterMap] at hstem
    obtain ⟨name, hname, hstem⟩ := hstem
    obtain ⟨payload, hpayload, rfl⟩ := mem_keys_restoredDir hverified hname
    rw [contentName, if_pos (Str.endsWith_append _ _), Str.removeSuffix_append,
      Option.some_inj] at hstem
    rw [← hstem, append_removePrefix_canonicalDigest, mem_referenced_iff]
    exact ⟨payload, hpayload, by rw [hverified.contentDigest hpayload, Json.pyStr_str]⟩

end FullMembers

end MncsCommons.Retention
