/-
# Names of records

Bundles and graphs find records by reference: a digest, or the identifier in a
record's metadata.  What is shown is which record of a list a reference names:
the last one that has it as its digest or its identifier.
-/

import MncsCommons.Bundle.Archive

namespace MncsCommons.Bundle

open MncsCommons.Data MncsCommons.Protocol

/-- The identifier a record may be named by. -/
def recordName (record : Fields) : Option String :=
  ((Fields.get record "metadata").obj?.filter fun metadata =>
    (Fields.get metadata "recordId").truthy).map fun metadata =>
      (Fields.get metadata "recordId").pyStr

/-- Whether the reference is the record's digest or identifier. -/
def namedBy (reference : String) (record : Fields) : Bool :=
  recordRef record = reference || recordName record = some reference

/-- A reference names the last record that it is the digest or the identifier of. -/
def Resolves (stored : List Fields) (reference : String) (record : Fields) : Prop :=
  stored.reverse.find? (namedBy reference) = some record

theorem get?_byReference (records : List Fields) (reference : String) :
    Fields.get? (byReference records) reference = records.reverse.find? (namedBy reference) := by
  induction records using List.reverseRecOn with
  | nil => rfl
  | append_singleton records record ih =>
      rw [List.reverse_append, List.reverse_singleton, List.singleton_append, List.find?_cons,
        byReference, List.foldl_append, List.foldl_cons, List.foldl_nil, ← byReference, ← ih]
      have digest : Fields.get? (Fields.set (byReference records) (recordRef record) record)
          reference = if recordRef record = reference then some record
            else Fields.get? (byReference records) reference := Fields.get?_set _ _ _ _
      unfold namedBy recordName
      cases hmetadata : (Fields.get record "metadata").obj? with
      | none =>
          rw [digest]
          by_cases hdigest : recordRef record = reference <;> simp [hdigest]
      | some metadata =>
          by_cases hnamed : (Fields.get metadata "recordId").truthy = true
          · simp only [hnamed, if_true, Option.filter_some, Option.map_some]
            rw [Fields.get?_set, digest]
            by_cases hid : (Fields.get metadata "recordId").pyStr = reference <;>
              by_cases hdigest : recordRef record = reference <;> simp [hid, hdigest]
          · simp only [hnamed, Bool.false_eq_true, if_false, Option.filter_some]
            rw [digest]
            by_cases hdigest : recordRef record = reference <;> simp [hdigest]

theorem Resolves.named {stored : List Fields} {reference : String} {record : Fields}
    (h : Resolves stored reference record) : namedBy reference record = true :=
  List.find?_some h

theorem Resolves.mem {stored : List Fields} {reference : String} {record : Fields}
    (h : Resolves stored reference record) : record ∈ stored :=
  List.mem_reverse.mp (List.mem_of_find?_eq_some h)

/-- The last record is named by its digest. -/
theorem resolves_getLast {stored : List Fields} (hne : stored ≠ []) :
    Resolves stored (recordRef (stored.getLast hne)) (stored.getLast hne) := by
  have reversed : stored.reverse = stored.getLast hne :: stored.dropLast.reverse := by
    conv_lhs => rw [← List.dropLast_concat_getLast hne]
    rw [List.reverse_append, List.reverse_singleton, List.singleton_append]
  rw [Resolves, reversed]
  simp [namedBy]

/-- The digest of a record that one of the roots names. -/
def Rooted (stored : List Fields) (roots : List String) (digest : String) : Prop :=
  ∃ root ∈ roots, ∃ record, Resolves stored root record ∧ recordRef record = digest

/-- The digest of the record that a reference names. -/
def resolveDigest (stored : List Fields) (reference : String) : Option String :=
  (Fields.get? (byReference stored) reference).map recordRef

theorem resolveDigest_eq_some_iff {stored : List Fields} {reference digest : String} :
    resolveDigest stored reference = some digest ↔
      ∃ record, Resolves stored reference record ∧ recordRef record = digest := by
  rw [resolveDigest, Option.map_eq_some_iff]
  simp only [get?_byReference, Resolves]

end MncsCommons.Bundle
