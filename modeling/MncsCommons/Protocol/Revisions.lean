/-
# Revisions of one record

A record succeeds another when it carries the next revision number and names the
other's digest.  In a chain of such records the last one has the greatest number,
so it is the one the revision check compares a candidate with
(`latestRevision_of_isChain`), and a candidate passes the check exactly when it
succeeds the last record (`checkRevision_iff`).
-/

import MncsCommons.Protocol.Semantic
import Mathlib.Data.List.Chain

namespace MncsCommons.Protocol

open MncsCommons.Data

/-- `metadata.previousDigest`. -/
def previousDigestOf (record : Fields) : Json :=
  Fields.get ((Fields.get record "metadata").obj?.getD []) "previousDigest"

/-- A record is the next revision of another. -/
structure Succeeds (earlier later : Fields) : Prop where
  revision : ∃ n, revisionOf earlier = .ok n ∧ revisionOf later = .ok (n + 1)
  previous : previousDigestOf later = Fields.get earlier "contentDigest"

/-! ## Sorted keys -/

theorem toInt_sortKeys (value : Json) : toInt value.sortKeys = toInt value := by
  cases value <;> simp [toInt, Json.pyInt, typeName]

theorem revisionOf_sortKeys (record : Fields) :
    revisionOf (Fields.sortKeys record) = revisionOf record := by
  rw [revisionOf, revisionOf, Fields.get?_sortKeys]
  cases hmetadata : Fields.get? record "metadata" with
  | none => rfl
  | some metadata =>
      cases metadata with
      | obj fields =>
          rw [Option.map_some, Option.getD_some, Option.getD_some, Json.sortKeys_obj_eq, getAttr,
            getAttr, Fields.get?_sortKeys]
          cases Fields.get? fields "revision" with
          | none => rfl
          | some revision => exact toInt_sortKeys revision
      | _ => simp [getAttr, bind, Except.bind, typeName]

theorem previousDigestOf_sortKeys (record : Fields) :
    previousDigestOf (Fields.sortKeys record) = (previousDigestOf record).sortKeys := by
  rw [previousDigestOf, previousDigestOf, Fields.get_sortKeys, Json.obj?_sortKeys]
  cases (Fields.get record "metadata").obj? with
  | none => rfl
  | some metadata => exact Fields.get_sortKeys metadata "previousDigest"

theorem Succeeds.sortKeys {earlier later : Fields} {digest : String} (h : Succeeds earlier later)
    (hdigest : Fields.get earlier "contentDigest" = .str digest) :
    Succeeds earlier (Fields.sortKeys later) where
  revision := by rw [revisionOf_sortKeys]; exact h.revision
  previous := by rw [previousDigestOf_sortKeys, h.previous, hdigest, Json.sortKeys_str]

/-! ## Valid records -/

theorem checkMetadata_of_validateRecord {record : Fields} (h : validateRecord record = .ok []) :
    checkMetadata (Fields.get record "metadata") = .ok [] := by
  have hrecord := (validateRecord_eq_nil_iff.mp h).1
  rw [recordDiagnostics, concatChecks_eq_nil_iff] at hrecord
  simp only [List.forall_mem_cons] at hrecord
  obtain ⟨-, -, -, -, -, hcommon, -⟩ := hrecord
  rw [commonRecordChecks, concatChecks_eq_nil_iff] at hcommon
  exact hcommon _ List.mem_cons_self

/-- The revision of a valid record is an integer, if it has one. -/
theorem exists_metadata_of_validateRecord {record : Fields} (h : validateRecord record = .ok []) :
    ∃ metadata, Fields.get? record "metadata" = some (.obj metadata) ∧
      (Fields.get? metadata "revision" = none ∨
        ∃ n : Int, 1 ≤ n ∧ Fields.get? metadata "revision" = some (.int n)) := by
  obtain ⟨metadata, hmetadata, hchecks⟩ :=
    checkObject_eq_nil_iff.mp (checkMetadata_of_validateRecord h)
  simp only [concatChecks_eq_nil_iff, List.forall_mem_cons, reportIf_eq_nil_iff] at hchecks
  obtain ⟨-, -, -, -, hrevision, -⟩ := hchecks
  refine ⟨metadata, Fields.get?_of_get hmetadata (by simp), ?_⟩
  cases hget : Fields.get? metadata "revision" with
  | none => exact .inl rfl
  | some value =>
      right
      rw [Fields.has, Fields.get, hget] at hrevision
      cases value with
      | int n => exact ⟨n, by simpa [revisionValid] using hrevision, rfl⟩
      | _ => simp [revisionValid] at hrevision

theorem exists_revisionOf {record : Fields} (h : validateRecord record = .ok []) :
    ∃ n, 1 ≤ n ∧ revisionOf record = .ok n := by
  obtain ⟨metadata, hmetadata, hrevision⟩ := exists_metadata_of_validateRecord h
  rcases hrevision with hnone | ⟨n, hpositive, hsome⟩
  · exact ⟨1, le_rfl, by simp [revisionOf, hmetadata, getAttr, hnone, bind, Except.bind, toInt,
      Json.pyInt]⟩
  · exact ⟨n, hpositive, by simp [revisionOf, hmetadata, getAttr, hsome, bind, Except.bind,
      toInt, Json.pyInt]⟩

/-- A valid record has a revision number when its metadata says so. -/
theorem revisionOf_eq_iff {record : Fields} (h : validateRecord record = .ok []) {n : Int}
    (hn : n ≠ 1) :
    (Fields.get ((Fields.get record "metadata").obj?.getD []) "revision").pyEq (.int n) = true ↔
      revisionOf record = .ok n := by
  obtain ⟨metadata, hmetadata, hrevision⟩ := exists_metadata_of_validateRecord h
  have hfields : (Fields.get record "metadata").obj?.getD [] = metadata := by
    rw [Fields.get, hmetadata]
    rfl
  rw [hfields]
  rcases hrevision with hnone | ⟨m, -, hsome⟩
  · simp [revisionOf, hmetadata, getAttr, hnone, bind, Except.bind, toInt, Json.pyInt, Fields.get,
      hn.symm, Json.pyEq, Json.normal]
  · simp [revisionOf, hmetadata, getAttr, hsome, bind, Except.bind, toInt, Json.pyInt, Fields.get,
      Json.pyEq_int_iff]

/-! ## The latest revision -/

theorem maxByRevision_of_isChain {best : Fields} {revision : Int} {items : List Fields}
    (hbest : revisionOf best = .ok revision) (h : (best :: items).IsChain Succeeds) :
    ∃ last n, (best :: items).getLast? = some last ∧ revisionOf last = .ok n ∧
      maxByRevision best revision items = .ok (last, n) := by
  induction items generalizing best revision with
  | nil => exact ⟨best, revision, rfl, hbest, rfl⟩
  | cons item items ih =>
      obtain ⟨hsucceeds, hchain⟩ := List.isChain_cons_cons.mp h
      obtain ⟨n, hearlier, hlater⟩ := hsucceeds.revision
      obtain rfl := Except.ok.inj (hearlier.symm.trans hbest)
      obtain ⟨last, m, hlast, hrevision, hmax⟩ := ih hlater hchain
      refine ⟨last, m, by rwa [List.getLast?_cons_cons], hrevision, ?_⟩
      have hlt : n < n + 1 := by omega
      simp [maxByRevision, hlater, bind, Except.bind, hlt, hmax]

/-- The latest revision of a chain is its last record. -/
theorem latestRevision_of_isChain {items : List Fields} {last : Fields}
    (h : items.IsChain Succeeds) (hok : ∀ item ∈ items, ∃ n, revisionOf item = .ok n)
    (hlast : items.getLast? = some last) :
    ∃ n, revisionOf last = .ok n ∧ latestRevision items = .ok (some (last, n)) := by
  cases items with
  | nil => cases hlast
  | cons item items =>
      obtain ⟨revision, hrevision⟩ := hok item List.mem_cons_self
      obtain ⟨found, n, hfound, hn, hmax⟩ := maxByRevision_of_isChain hrevision h
      obtain rfl := Option.some.inj (hfound.symm.trans hlast)
      exact ⟨n, hn, by simp [latestRevision, hrevision, hmax, bind, Except.bind, pure, Except.pure]⟩

/-- The revision check compares with the last record of a chain. -/
theorem checkRevision_iff {candidate last : Fields} {items : List Fields}
    (hvalid : validateRecord candidate = .ok []) (h : items.IsChain Succeeds)
    (hitems : ∀ item ∈ items, validateRecord item = .ok [])
    (hdigest : ∃ digest, Fields.get last "contentDigest" = .str digest)
    (hlast : items.getLast? = some last) :
    checkRevision candidate items = .ok [] ↔ Succeeds last candidate := by
  obtain ⟨n, hn, hlatest⟩ := latestRevision_of_isChain h
    (fun item hitem => (exists_revisionOf (hitems item hitem)).imp fun _ h => h.2) hlast
  obtain ⟨digest, hdigest⟩ := hdigest
  have hidentity : identity last = digest := by rw [identity, hdigest]; rfl
  have hpositive : n + 1 ≠ 1 := by
    obtain ⟨m, hm, hrevision⟩ := exists_revisionOf (hitems last (List.mem_of_getLast? hlast))
    obtain rfl := Except.ok.inj (hrevision.symm.trans hn)
    omega
  rw [checkRevision, hlatest]
  simp only [bind, Except.bind, reportIf_eq_nil_iff, Bool.not_eq_false', Bool.and_eq_true,
    revisionOf_eq_iff hvalid hpositive, Json.pyEq_str_iff, hidentity]
  rw [← previousDigestOf, ← hdigest]
  constructor
  · rintro ⟨hrevision, hprevious⟩
    exact ⟨⟨n, hn, hrevision⟩, hprevious⟩
  · rintro ⟨⟨m, hm, hrevision⟩, hprevious⟩
    obtain rfl := Except.ok.inj (hm.symm.trans hn)
    exact ⟨hrevision, hprevious⟩

end MncsCommons.Protocol
