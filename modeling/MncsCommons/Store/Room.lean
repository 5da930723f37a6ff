/-
# Stores with room

A call can be rejected by a limit even when its entry passes every check.  Far
from the limits it is not: a small entry that passes the checks and is new is
appended (`Holding.addRecord`, `Holding.addEvent`).  What a run of small entries
leads to is then a matter of the checks alone.
-/

import MncsCommons.Store.Revisions

namespace MncsCommons.Store

open MncsCommons.Data MncsCommons.Protocol MncsCommons.Exec

/-- A sound store with a number of small rows, and its records and events. -/
structure Holding (store : StoreDir) (records events : List Fields) (count : Nat) : Prop where
  sound : ∃ read, Sound store read ∧ payloadsFromRows read "record" = records ∧
    payloadsFromRows read "event" = events ∧ read.length = count
  bytes : store.ledgerBytes ≤ count * 10000

theorem holding_fresh : Holding .fresh [] [] 0 :=
  ⟨⟨[], sound_fresh, rfl, rfl, rfl⟩, by rw [ledgerBytes_fresh]⟩

namespace Holding

variable {store : StoreDir} {records events : List Fields} {count : Nat}

theorem rows_eq (h : Holding store records events count) :
    ∃ read, rows store = .ok read ∧ payloadsFromRows read "record" = records ∧
      payloadsFromRows read "event" = events := by
  obtain ⟨read, hsound, hrecords, hevents, -⟩ := h.sound
  exact ⟨read, hsound.verified.rows, hrecords, hevents⟩

/-- One more row, of an entry that is admitted. -/
theorem add (h : Holding store records events count) (hcount : count < 1000) (host : Host)
    {type : ContentType} {value : Mapping} (hlawful : (Call.add type value).DigestNotNull)
    (hsize : (Json.obj (candidateOf value)).size ≤ 8000)
    (hadmission : admission type store (candidateOf value) = .ok false) :
    Holding (Call.run host (.add type value) store).final
      (if type = .record then records ++ [Fields.sortKeys (candidateOf value)] else records)
      (if type = .event then events ++ [Fields.sortKeys (candidateOf value)] else events)
      (count + 1) := by
  obtain ⟨read, hsound, hrecords, hevents, hlength⟩ := h.sound
  have hbytes := h.bytes
  obtain ⟨hafter, hgrown⟩ := hsound.addSmall host hadmission hlawful (hsize.trans (by decide))
    (by rw [maxLedgerBytes]; omega) (by rw [maxLedgerRows]; omega)
  refine ⟨⟨_, hafter, ?_, ?_, by simp [hlength]⟩, by omega⟩
  · rw [payloadsFromRows_append, nextRow, payloadsFromRows_makeLedgerRow, hrecords]
    cases type <;> simp [ContentType.value]
  · rw [payloadsFromRows_append, nextRow, payloadsFromRows_makeLedgerRow, hevents]
    cases type <;> simp [ContentType.value]

/-- A record that passes the checks and whose digest is new is admitted. -/
theorem admitRecord (h : Holding store records events count) {candidate : Fields}
    (hvalid : validateRecord candidate = .ok [])
    (hnew : ∀ record ∈ records, Fields.get record "contentDigest" ≠
      .str (Fields.get candidate "contentDigest").pyStr)
    (hsemantic : recordSemanticDiagnostics candidate records = .ok []) :
    admission .record store candidate = .ok false := by
  obtain ⟨read, hsound, hrecords, -⟩ := h.sound
  have hverified := hsound.verified
  have hfresh : Fresh .record read candidate := by
    intro payload hpayload
    exact hnew payload (hrecords ▸ hpayload)
  rw [admit_record_eq hverified.rows hverified.transactions hvalid ?_ (by rwa [hrecords])]
  · exact hverified.anyRow_of_fresh hfresh
  · intro text htext
    rw [@Verified.readContent_eq_none _ _ hverified .record _ hvalid hfresh] at htext
    cases htext

/-- The records after a small record that is admitted, whatever its digest. -/
theorem rows_addRecord (h : Holding store records events count) (hcount : count < 1000) (host : Host)
    {value : Mapping} (hsize : (Json.obj (candidateOf value)).size ≤ 8000)
    (hadmission : admission .record store (candidateOf value) = .ok false) :
    ∃ after, rows (Call.run host (.add .record value) store).final = .ok after ∧
      payloadsFromRows after "record" = records ++ [Fields.sortKeys (candidateOf value)] := by
  obtain ⟨read, hsound, hrecords, -, hlength⟩ := h.sound
  have hbytes := h.bytes
  obtain ⟨hrows, -⟩ := hsound.rows_addSmall host hadmission (hsize.trans (by decide))
    (by rw [maxLedgerBytes]; omega) (by rw [maxLedgerRows]; omega)
  refine ⟨_, hrows, ?_⟩
  rw [payloadsFromRows_append, nextRow, payloadsFromRows_makeLedgerRow, hrecords]
  rfl

/-- A small record that passes the checks and whose digest is new is appended. -/
theorem addRecord (h : Holding store records events count) (hcount : count < 1000) (host : Host)
    {value : Mapping} (hlawful : (Call.add .record value).DigestNotNull)
    (hsize : (Json.obj (candidateOf value)).size ≤ 8000)
    (hvalid : validateRecord (candidateOf value) = .ok [])
    (hnew : ∀ record ∈ records, Fields.get record "contentDigest" ≠
      .str (Fields.get (candidateOf value) "contentDigest").pyStr)
    (hsemantic : recordSemanticDiagnostics (candidateOf value) records = .ok []) :
    Holding (Call.run host (.add .record value) store).final
      (records ++ [Fields.sortKeys (candidateOf value)]) events (count + 1) :=
  h.add hcount host hlawful hsize (h.admitRecord hvalid hnew hsemantic)

/-- A small event that passes the checks and whose digest is new is appended. -/
theorem addEvent (h : Holding store records events count) (hcount : count < 1000) (host : Host)
    {value : Mapping} (hlawful : (Call.add .event value).DigestNotNull)
    (hsize : (Json.obj (candidateOf value)).size ≤ 8000)
    (hadmission : admission .event store (candidateOf value) = .ok false) :
    Holding (Call.run host (.add .event value) store).final records
      (events ++ [Fields.sortKeys (candidateOf value)]) (count + 1) :=
  h.add hcount host hlawful hsize hadmission

end Holding

/-! ## Entries without a digest -/

/-- What is stored of a value that gets the digest. -/
def storedAs (value : Fields) (digest : String) : Fields :=
  canonFields (Fields.set value "contentDigest" (.str digest))

section StoredAs

variable {value : Mapping} {digest : String}

theorem candidateOf_eq_storedAs (hhas : Fields.has value.fields "contentDigest" = false)
    (hdigest : canonicalDigest value.fields = digest) :
    candidateOf value = storedAs value.fields digest := by
  rw [candidateOf, if_neg (by simp [hhas]), withDigest_eq_canonFields value.wf, hdigest, storedAs]

theorem sortKeys_storedAs (value : Fields) (digest : String) :
    Fields.sortKeys (storedAs value digest) = storedAs value digest := by
  rw [storedAs, canonFields, Fields.sortKeys_sortKeys]

theorem get_storedAs (hhas : Fields.has value.fields "contentDigest" = false)
    (hdigest : canonicalDigest value.fields = digest) :
    Fields.get (storedAs value.fields digest) "contentDigest" = .str digest := by
  rw [← candidateOf_eq_storedAs hhas hdigest, candidateOf, if_neg (by simp [hhas]),
    get_withDigest value.wf, hdigest]

theorem digestNotNull_of_not_has (hhas : Fields.has value.fields "contentDigest" = false)
    (type : ContentType) : (Call.add type value).DigestNotNull := by
  rw [Fields.has, Option.isSome_eq_false_iff, Option.isNone_iff_eq_none] at hhas
  simp [Call.DigestNotNull, hhas]

/-- The other members of what is stored are those of the value. -/
theorem get?_storedAs {key : String} (hne : key ≠ "contentDigest") (value : Fields)
    (digest : String) :
    Fields.get? (storedAs value digest) key =
      (Fields.get? value key).map fun member => (canonicalize [key] member).sortKeys := by
  rw [storedAs, canonFields, Fields.get?_sortKeys, get?_canonicalizeFields, Fields.get?_set,
    if_neg (Ne.symm hne), Option.map_map]
  rfl

theorem get_storedAs_of_inert {key : String} (hinert : Inert [key]) (hne : key ≠ "contentDigest")
    (value : Fields) (digest : String) :
    Fields.get (storedAs value digest) key = Fields.get (Fields.sortKeys value) key := by
  rw [Fields.get, Fields.get, get?_storedAs hne, Fields.get?_sortKeys]
  congr 2
  exact funext fun member => by rw [canonicalize_of_inert hinert]

/-- A small record without a digest, whose digest is new and that passes the checks
with it, is stored. -/
theorem Holding.addNew {store : StoreDir} {records events : List Fields} {count : Nat}
    (h : Holding store records events count) (hcount : count < 1000) (host : Host)
    (hhas : Fields.has value.fields "contentDigest" = false)
    (hdigest : canonicalDigest value.fields = digest)
    (hsize : (Json.obj value.fields).size ≤ 7500)
    (hvalid : recordDiagnostics (Fields.set value.fields "contentDigest" (.str digest)) = .ok [])
    (hnew : ∀ record ∈ records, Fields.get record "contentDigest" ≠ .str digest)
    (hsemantic : recordSemanticDiagnostics (storedAs value.fields digest) records = .ok []) :
    Holding (Call.run host (.add .record value) store).final
      (records ++ [storedAs value.fields digest]) events (count + 1) := by
  have hcandidate := candidateOf_eq_storedAs hhas hdigest
  have hadded := h.addRecord hcount host (digestNotNull_of_not_has hhas .record)
    ((size_candidateOf_le hhas).trans (by omega)) ?_ ?_ (by rwa [hcandidate])
  · rwa [hcandidate, sortKeys_storedAs] at hadded
  · rw [candidateOf, if_neg (by simp [hhas]), validateRecord_withDigest value.wf, hdigest]
    exact hvalid
  · rwa [hcandidate, get_storedAs hhas hdigest, Json.pyStr_str]

/-- `addNew`, with the digest and the size in the form in which they are evaluated. -/
theorem Holding.addQuick {store : StoreDir} {records events : List Fields} {count : Nat}
    (h : Holding store records events count) (hcount : count < 1000) (host : Host)
    (hhas : Fields.has value.fields "contentDigest" = false)
    (hdigest : quickDigest value.fields = digest)
    (hsize : Text.byteSize (quickRender (.obj value.fields)) ≤ 7500)
    (hvalid : recordDiagnostics (Fields.set value.fields "contentDigest" (.str digest)) = .ok [])
    (hnew : ∀ record ∈ records, Fields.get record "contentDigest" ≠ .str digest)
    (hsemantic : recordSemanticDiagnostics (storedAs value.fields digest) records = .ok []) :
    Holding (Call.run host (.add .record value) store).final
      (records ++ [storedAs value.fields digest]) events (count + 1) := by
  rw [← canonicalDigest_eq_quickDigest] at hdigest
  rw [← Json.size_eq_byteSize_quickRender] at hsize
  exact h.addNew hcount host hhas hdigest hsize hvalid hnew hsemantic

end StoredAs

end MncsCommons.Store
