/-
# Verified stores

`Verified` says what a store without diagnostics is: every row follows the one
before it by number and digest, every row holds a snapshot or an entry with its
content file, every content file belongs to a row, and nothing is pending
(`verify_eq_nil_iff`).

Its consequences are the facts a writer relies on.  In a verified store every
entry names its own digest, so an entry whose digest no row names has no content
file (`Verified.readContent_eq_none`), and a row with the next number and digest
extends the chain (`Verified.append`).
-/

import MncsCommons.Store.Verify

namespace MncsCommons.Store

open MncsCommons.Data MncsCommons.Protocol MncsCommons.Exec

/-! ## The hash chain -/

/-- A row that has a number, follows a digest and names its own. -/
structure Linked (sequence : Nat) (previous : Json) (row : Fields) : Prop where
  sequence : (Fields.get row "sequence").pyEq (.int sequence) = true
  previous : (Fields.get row "previousDigest").pyEq previous = true
  digest : Fields.get row "entryDigest" = .str (canonicalDigestOfAll (bodyOf row))

theorem checkLink_eq_nil_iff {sequence : Nat} {previous : Json} {row : Fields} :
    checkLink sequence previous row = .ok [] ↔ Linked sequence previous row := by
  simp only [checkLink, concatChecks_eq_nil_iff, List.forall_mem_cons, reportIf_eq_nil_iff,
    Bool.not_eq_false', ne_eq, decide_not, decide_eq_true_eq]
  constructor
  · rintro ⟨hsequence, hprevious, hdigest, -⟩
    exact ⟨hsequence, hprevious, hdigest⟩
  · rintro ⟨hsequence, hprevious, hdigest⟩
    exact ⟨hsequence, hprevious, hdigest, by simp⟩

/-- The rows are numbered from `sequence` on and each follows the one before. -/
def Chain : Nat → Json → List Fields → Prop
  | _, _, [] => True
  | sequence, previous, row :: read =>
      Linked sequence previous row ∧ Chain (sequence + 1) (Fields.get row "entryDigest") read

@[simp]
theorem lastDigest_nil (previous : Json) : lastDigest previous [] = previous := rfl

@[simp]
theorem lastDigest_append (previous : Json) (read : List Fields) (row : Fields) :
    lastDigest previous (read ++ [row]) = Fields.get row "entryDigest" := by
  simp [lastDigest]

theorem lastDigest_cons (previous : Json) (row : Fields) (read : List Fields) :
    lastDigest previous (row :: read) = lastDigest (Fields.get row "entryDigest") read := by
  cases read <;> simp [lastDigest, List.getLast?_cons]

theorem chain_append_iff {sequence : Nat} {previous : Json} {read : List Fields} {row : Fields} :
    Chain sequence previous (read ++ [row]) ↔
      Chain sequence previous read ∧
        Linked (sequence + read.length) (lastDigest previous read) row := by
  induction read generalizing sequence previous with
  | nil => simp [Chain]
  | cons first read ih =>
      rw [List.cons_append, Chain, Chain, ih, lastDigest_cons, List.length_cons, and_assoc,
        Nat.add_right_comm, Nat.add_assoc sequence]

theorem Chain.linked {sequence : Nat} {previous : Json} {read : List Fields}
    (h : Chain sequence previous read) {row : Fields} (hrow : row ∈ read) :
    ∃ index < read.length, ∃ before, Linked (sequence + index) before row := by
  induction read generalizing sequence previous with
  | nil => cases hrow
  | cons first read ih =>
      rcases List.mem_cons.mp hrow with rfl | hrow
      · exact ⟨0, by simp, previous, h.1⟩
      · obtain ⟨index, hindex, before, hlinked⟩ := ih h.2 hrow
        exact ⟨index + 1, by simpa using hindex, before,
          by rwa [Nat.add_comm index, ← Nat.add_assoc]⟩

/-! ## Rows and content files -/

/-- A valid entry with its content file. -/
structure Filed (store : StoreDir) (type : ContentType) (payload : Fields) : Prop where
  valid : validateEntry type payload = .ok []
  file : store.readContent type (Fields.get payload "contentDigest").pyStr =
    some (canonicalJson (.obj payload))

theorem validateEntry_digest {type : ContentType} {payload : Fields}
    (h : validateEntry type payload = .ok []) :
    Fields.get payload "contentDigest" = .null ∨
      Fields.get payload "contentDigest" = .str (canonicalDigest payload) := by
  cases type with
  | record => exact (validateRecord_eq_nil_iff.mp h).2
  | event => exact (validateEvent_eq_nil_iff.mp h).2

theorem checkEntry_eq_nil_iff {store : StoreDir} {sequence : Nat} {type : ContentType}
    {payload : Fields} :
    checkEntry store sequence type payload = .ok [] ↔ Filed store type payload := by
  simp only [checkEntry, Py.bind_eq_ok_iff, concatChecks_eq_nil_iff, List.forall_mem_cons,
    Except.ok.injEq, List.map_eq_nil_iff]
  constructor
  · rintro ⟨_, hvalid, rfl, -, hfile, -⟩
    refine ⟨hvalid, ?_⟩
    split at hfile
    · simp at hfile
    · simpa [*] using hfile
  · rintro ⟨hvalid, hfile⟩
    refine ⟨[], hvalid, rfl, ?_, by simp [hfile], by simp⟩
    rcases validateEntry_digest hvalid with hnull | hdigest
    · simp [hnull, Json.isStr, Json.str?]
    · simp [hdigest]

/-- What a row of a verified store holds. -/
inductive Holds (store : StoreDir) (row : Fields) : Prop
  | snapshot (payload : Fields) (htype : Fields.get row "entryType" = .str "snapshot")
      (hpayload : Fields.get row "payload" = .obj payload)
      (hschema : Fields.get payload "schema_version" = .str snapshotSchema)
  | entry (type : ContentType) (payload : Fields)
      (htype : Fields.get row "entryType" = .str type.value)
      (hpayload : Fields.get row "payload" = .obj payload) (hfiled : Filed store type payload)

theorem checkPayload_eq_nil_iff {store : StoreDir} {sequence : Nat} {row : Fields} :
    checkPayload store sequence row = .ok [] ↔ Holds store row := by
  constructor
  · intro h
    rw [checkPayload] at h
    split at h
    · simp at h
    rename_i payload hpayload
    rw [Json.obj?_eq_some_iff] at hpayload
    split at h
    all_goals rename_i htype; try rw [Json.str?_eq_some_iff] at htype
    · rw [reportIf_eq_nil_iff] at h
      refine .snapshot payload htype hpayload (Json.str?_eq_some_iff.mp ?_)
      simpa using h
    · exact .entry .record payload htype hpayload (checkEntry_eq_nil_iff.mp h)
    · exact .entry .event payload htype hpayload (checkEntry_eq_nil_iff.mp h)
    · simp at h
  · rintro (⟨payload, htype, hpayload, hschema⟩ | ⟨type, payload, htype, hpayload, hfiled⟩)
    · simp [checkPayload, hpayload, htype, hschema, Json.obj?, Json.str?]
    · have hcheck := (@checkEntry_eq_nil_iff _ sequence _ _).mpr hfiled
      cases type <;>
        simpa [checkPayload, hpayload, htype, Json.obj?, Json.str?, ContentType.value] using hcheck

theorem checkRows_eq_nil_iff {store : StoreDir} {sequence : Nat} {previous : Json}
    {read : List Fields} :
    (∀ check ∈ checkRows store sequence previous read, check = .ok []) ↔
      Chain sequence previous read ∧ ∀ row ∈ read, Holds store row := by
  induction read generalizing sequence previous with
  | nil => simp [checkRows, Chain]
  | cons row read ih =>
      rw [checkRows, List.forall_mem_cons, List.forall_mem_cons, ih, checkLink_eq_nil_iff,
        checkPayload_eq_nil_iff, Chain, List.forall_mem_cons]
      tauto

/-- Every content file of the type belongs to a row. -/
def Owned (store : StoreDir) (read : List Fields) (type : ContentType) : Prop :=
  ∀ stem ∈ contentStems ((store.content type).getD []), "sha256:" ++ stem ∈ referenced read type

theorem checkOrphans_eq_nil_iff {store : StoreDir} {read : List Fields} {type : ContentType} :
    checkOrphans store read type = .ok [] ↔ Owned store read type := by
  simp [checkOrphans, Owned]

theorem mem_payloadsFromRows_iff {read : List Fields} {entryType : String} {payload : Fields} :
    payload ∈ payloadsFromRows read entryType ↔
      ∃ row ∈ read, Fields.get row "entryType" = .str entryType ∧
        Fields.get row "payload" = .obj payload := by
  simp only [payloadsFromRows, List.mem_filterMap, Option.ite_none_right_eq_some,
    Json.str?_eq_some_iff, Json.obj?_eq_some_iff]

theorem mem_referenced_iff {read : List Fields} {type : ContentType} {digest : String} :
    digest ∈ referenced read type ↔
      ∃ payload ∈ payloadsFromRows read type.value,
        (Fields.get payload "contentDigest").pyStr = digest := by
  simp [referenced]

theorem payloadsFromRows_append (read : List Fields) (row : Fields) (entryType : String) :
    payloadsFromRows (read ++ [row]) entryType =
      payloadsFromRows read entryType ++ payloadsFromRows [row] entryType := by
  simp [payloadsFromRows]

/-- No row of the type names the digest of the candidate. -/
def Fresh (type : ContentType) (read : List Fields) (candidate : Fields) : Prop :=
  ∀ payload ∈ payloadsFromRows read type.value,
    Fields.get payload "contentDigest" ≠ .str (Fields.get candidate "contentDigest").pyStr

/-- The stem of a content file that exists. -/
theorem mem_contentStems_of_readContent {store : StoreDir} {type : ContentType} {digest : String}
    {text : Text} (h : store.readContent type digest = some text) :
    Str.removePrefix digest "sha256:" ∈ contentStems ((store.content type).getD []) := by
  obtain ⟨dir, hdir, hfile⟩ := Option.bind_eq_some_iff.mp h
  rw [hdir, Option.getD_some, contentStems, List.mem_filterMap]
  refine ⟨contentName digest, List.mem_map.mpr ⟨_, Fields.mem_of_get?_eq_some hfile, rfl⟩, ?_⟩
  simp [contentName, Str.endsWith_append, Str.removeSuffix_append]

/-! ## Verified stores -/

/-- A store that verifies, with the rows of its ledger. -/
structure Verified (store : StoreDir) (read : List Fields) : Prop where
  rows : rows store = .ok read
  noPending : pendingTransactions store = []
  chain : Chain 1 .null read
  holds : ∀ row ∈ read, Holds store row
  owned : ∀ type, Owned store read type

theorem verify_eq_nil_iff {store : StoreDir} :
    verify store = .ok [] ↔ ∃ read, Verified store read := by
  rw [verify]
  constructor
  · intro h
    split at h
    · simp at h
    · cases h
    rename_i read hread
    simp only [concatChecks_eq_nil_iff, List.forall_mem_append, List.forall_mem_cons,
      Except.ok.injEq, List.map_eq_nil_iff, checkRows_eq_nil_iff, checkOrphans_eq_nil_iff] at h
    obtain ⟨⟨⟨hpending, -⟩, hchain, hholds⟩, hrecords, hevents, -⟩ := h
    exact ⟨read, hread, hpending, hchain, hholds,
      fun type => by cases type <;> assumption⟩
  · rintro ⟨read, hread, hpending, hchain, hholds, howned⟩
    simp only [hread, concatChecks_eq_nil_iff, List.forall_mem_append, List.forall_mem_cons,
      Except.ok.injEq, List.map_eq_nil_iff, checkRows_eq_nil_iff, checkOrphans_eq_nil_iff]
    exact ⟨⟨⟨hpending, by simp⟩, hchain, hholds⟩, howned .record, howned .event, by simp⟩

theorem append_removePrefix_canonicalDigest (fields : Fields) :
    "sha256:" ++ Str.removePrefix (canonicalDigest fields) "sha256:" = canonicalDigest fields := by
  rw [canonicalDigest, digestOfText, Str.removePrefix_append]

/-- `None` is no hash. -/
theorem canonicalDigest_ne_none (fields : Fields) : canonicalDigest fields ≠ "sha256:None" := by
  intro h
  have hlength := congrArg (fun digest : String => digest.toList.length) h
  rw [canonicalDigest, digestOfText] at hlength
  simp [length_sha256Hex] at hlength

namespace Verified

variable {store : StoreDir} {read : List Fields}

theorem isInitialized (h : Verified store read) : store.isInitialized = true :=
  (rows_eq_ok_iff.mp h.rows).1

theorem filed (h : Verified store read) {type : ContentType} {payload : Fields}
    (hpayload : payload ∈ payloadsFromRows read type.value) : Filed store type payload := by
  obtain ⟨row, hrow, htype, hobj⟩ := mem_payloadsFromRows_iff.mp hpayload
  cases h.holds row hrow with
  | snapshot _ hsnapshot =>
      rw [htype] at hsnapshot
      cases type <;> exact absurd hsnapshot (by decide)
  | entry other payload' hother hpayload' hfiled =>
      rw [htype, Json.str.injEq] at hother
      rw [hobj, Json.obj.injEq] at hpayload'
      rwa [ContentType.value_injective hother, hpayload']

/-- Every entry names its digest.  One without would be stored as `None`, which
no row of the type could own. -/
theorem contentDigest (h : Verified store read) {type : ContentType} {payload : Fields}
    (hpayload : payload ∈ payloadsFromRows read type.value) :
    Fields.get payload "contentDigest" = .str (canonicalDigest payload) := by
  refine (validateEntry_digest (h.filed hpayload).valid).resolve_left fun hnull => ?_
  have hfile := (h.filed hpayload).file
  rw [hnull, Json.pyStr_null] at hfile
  have howned := h.owned type _ (mem_contentStems_of_readContent hfile)
  obtain ⟨owner, howner, hdigest⟩ := mem_referenced_iff.mp howned
  rcases validateEntry_digest (h.filed howner).valid with hnone | hsome
  · rw [hnone] at hdigest
    exact absurd hdigest (by decide)
  · rw [hsome] at hdigest
    exact canonicalDigest_ne_none owner (hdigest.trans (by decide))

/-- A content file belongs to an entry that names its digest. -/
theorem exists_payload_of_readContent (h : Verified store read) {type : ContentType}
    {digest : String} {text : Text} (hfile : store.readContent type digest = some text) :
    ∃ payload ∈ payloadsFromRows read type.value,
      Fields.get payload "contentDigest" =
        .str ("sha256:" ++ Str.removePrefix digest "sha256:") := by
  have howned := h.owned type _ (mem_contentStems_of_readContent hfile)
  obtain ⟨payload, hpayload, hdigest⟩ := mem_referenced_iff.mp howned
  refine ⟨payload, hpayload, ?_⟩
  rw [h.contentDigest hpayload, Json.pyStr_str] at hdigest
  rw [h.contentDigest hpayload, hdigest]

/-- An entry that no row holds has no content file, whether or not it names its
digest. -/
theorem readContent_eq_none (h : Verified store read) {type : ContentType} {candidate : Fields}
    (hvalid : validateEntry type candidate = .ok []) (hnew : Fresh type read candidate) :
    store.readContent type (Fields.get candidate "contentDigest").pyStr = none := by
  by_contra hsome
  obtain ⟨text, hfile⟩ := Option.ne_none_iff_exists'.mp hsome
  obtain ⟨payload, hpayload, hdigest⟩ := h.exists_payload_of_readContent hfile
  rcases validateEntry_digest hvalid with hnull | hstr
  · rw [hnull, h.contentDigest hpayload, Json.pyStr_null] at hdigest
    exact canonicalDigest_ne_none payload ((Json.str.inj hdigest).trans (by decide))
  · refine hnew payload hpayload ?_
    rw [hdigest, hstr, Json.pyStr_str, append_removePrefix_canonicalDigest]

end Verified

end MncsCommons.Store
