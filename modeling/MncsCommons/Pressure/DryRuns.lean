/-
# Dry runs

The dry run of a migration looks every entry up in the registry as it was, so it lists
an entry again whose local id, or whose pressure, an earlier entry of the same source
has (`dryRun_predicts_iff`).
-/

import MncsCommons.Data.Checks
import MncsCommons.Pressure.Imports
import MncsCommons.Pressure.Failures

namespace MncsCommons.Pressure

open MncsCommons.Data MncsCommons.Protocol MncsCommons.Exec

/-! ## Rows that are kept -/

theorem length_foldl_keepNew_le (rows kept : List RowName) :
    (rows.foldl keepNew kept).length ≤ kept.length + rows.length := by
  induction rows generalizing kept with
  | nil => exact le_rfl
  | cons row rows ih =>
      have hstep : (keepNew kept row).length ≤ kept.length + 1 := by
        rw [keepNew]
        split
        · simp
        · exact Nat.le_succ _
      rw [List.foldl_cons, List.length_cons]
      have hrest := ih (keepNew kept row)
      omega

/-- All rows are kept when they are apart from each other. -/
theorem foldl_keepNew_eq_iff (rows kept : List RowName) :
    rows.foldl keepNew kept = kept ++ rows ↔
      rows.Pairwise RowName.Apart ∧ ∀ other ∈ kept, ∀ row ∈ rows, other.Apart row := by
  induction rows generalizing kept with
  | nil => simp
  | cons row rows ih =>
      rw [List.foldl_cons, keepNew]
      split
      case isTrue hnew =>
        rw [show kept ++ row :: rows = (kept ++ [row]) ++ rows by simp, ih, List.pairwise_cons]
        constructor
        · rintro ⟨hpairwise, hkept⟩
          refine ⟨⟨hkept row (by simp), hpairwise⟩, ?_⟩
          intro other hother next hnext
          rcases List.mem_cons.mp hnext with rfl | hnext
          · exact hnew other hother
          · exact hkept other (List.mem_append_left _ hother) next hnext
        · rintro ⟨⟨hrow, hpairwise⟩, hkept⟩
          refine ⟨hpairwise, ?_⟩
          intro other hother next hnext
          rcases List.mem_append.mp hother with hother | hother
          · exact hkept other hother next (List.mem_cons_of_mem _ hnext)
          · rw [List.mem_singleton.mp hother]
            exact hrow next hnext
      case isFalse hnew =>
        apply iff_of_false
        · intro heq
          have hlength := length_foldl_keepNew_le rows kept
          rw [heq, List.length_append, List.length_cons] at hlength
          omega
        · rintro ⟨-, hkept⟩
          exact hnew fun other hother => hkept other hother row List.mem_cons_self

/-! ## What a dry run predicts -/

/-- Whether the dry run of a call changes nothing and reports what the run imported. -/
def Predicts (unicode : Unicode) (host : Host) (now : String) (call : MigrateCall)
    (registry : Registry) (real : Migration) : Prop :=
  (migrateLegacy unicode host now (call.withDryRun true) registry).final = registry ∧
    ∃ dry, (migrateLegacy unicode host now (call.withDryRun true) registry).result =
        .ok dry ∧
      dry.imported.map ImportedRow.named = real.imported.map ImportedRow.named

section Predictions

variable {unicode : Unicode} {host : Host} {now repository : String} {call : MigrateCall}
  {registry : Registry} {real : Migration}

/-- The entries of the source that are not in the registry yet have different local ids
and would be stored under different ids. -/
def Unrepeated (unicode : Unicode) (repository : String) (call : MigrateCall)
    (records : Directory) : Prop :=
  (sourceEntries unicode (call.source.markdown call.limit)).Pairwise fun first second =>
    ∀ id other, pendingId unicode repository call.target records first = .ok (some id) →
      pendingId unicode repository call.target records second = .ok (some other) →
        first.entry.legacyId ≠ second.entry.legacyId ∧ id ≠ other

theorem unrepeated_iff {records : Directory} :
    Unrepeated unicode repository call records ↔
      ((sourceEntries unicode (call.source.markdown call.limit)).filterMap
        (pendingRow unicode repository call records)).Pairwise RowName.Apart := by
  rw [List.pairwise_filterMap, Unrepeated]
  constructor
  · intro h
    refine h.imp ?_
    rintro first second hapart row hrow other hother
    obtain ⟨id, hid, rfl⟩ := pendingRow_eq_some_iff.mp hrow
    obtain ⟨otherId, hotherId, rfl⟩ := pendingRow_eq_some_iff.mp hother
    exact hapart id otherId hid hotherId
  · intro h
    refine h.imp ?_
    intro first second hapart id other hid hother
    exact hapart _ (pendingRow_eq_some_iff.mpr ⟨id, hid, rfl⟩) _
      (pendingRow_eq_some_iff.mpr ⟨other, hother, rfl⟩)

theorem predicts_iff_pairwise
    (hrepository : requireRepository call.repository "repository" = .ok repository)
    (hreal : (migrateLegacy unicode host now (call.withDryRun false) registry).result =
      .ok real) :
    Predicts unicode host now call registry real ↔
      ((sourceEntries unicode (call.source.markdown call.limit)).filterMap
        (pendingRow unicode repository call registry.records)).Pairwise RowName.Apart := by
  obtain ⟨-, -, hrows, -⟩ := rows_of_real hrepository hreal
  obtain ⟨hfinal, dry, hdry, hlisted⟩ := rows_of_dry hrepository hreal
  set rows := (sourceEntries unicode (call.source.markdown call.limit)).filterMap
    (pendingRow unicode repository call registry.records)
  have hkept : rows.foldl keepNew [] = rows ↔ rows.Pairwise RowName.Apart := by
    simpa using foldl_keepNew_eq_iff rows []
  rw [← hkept, ← hrows]
  constructor
  · rintro ⟨-, other, hother, hsame⟩
    obtain rfl := Except.ok.inj (hdry.symm.trans hother)
    rw [← hsame, hlisted]
  · intro hsame
    exact ⟨hfinal, dry, hdry, hlisted.trans hsame.symm⟩

/-- A dry run reports what the run on the same registry imports, and changes nothing,
exactly when no two entries that are not there share a local id or an id. -/
theorem dryRun_predicts_iff
    (hrepository : requireRepository call.repository "repository" = .ok repository)
    (hreal : (migrateLegacy unicode host now (call.withDryRun false) registry).result =
      .ok real) :
    ((migrateLegacy unicode host now (call.withDryRun true) registry).final = registry ∧
      ∃ dry, (migrateLegacy unicode host now (call.withDryRun true) registry).result =
          .ok dry ∧
        dry.imported.map ImportedRow.named = real.imported.map ImportedRow.named) ↔
      Unrepeated unicode repository call registry.records := by
  rw [unrepeated_iff]
  exact predicts_iff_pairwise hrepository hreal

end Predictions

/-! ## A ledger with a local id twice -/

/-- The tables of Unicode for texts in ASCII. -/
def asciiTables : Unicode where
  lower text := String.ofList (text.toList.map Char.toLower)
  isWord c := c.isAlphanum || c == '_'
  isDigit := Char.isDigit

/-- The migration of a ledger in one file. -/
def ledgerCall (text : String) : MigrateCall where
  repository := .str "mncs-store"
  source := ⟨"ledger.md", false, [⟨["ledger.md"], some text.toList⟩]⟩
  target := "language"
  dryRun := false
  limit := none
  refresh := false

/-- The migration of a ledger with two sections of one local id. -/
def repeatedLedger : MigrateCall := ledgerCall "## P-1 First\n\n## P-1 Again\n"

theorem repository_repeatedLedger :
    requireRepository repeatedLedger.repository "repository" = .ok "mncs-store" := by
  have hname : normalizeRepository (.str "mncs-store") = .ok (some "mncs-store") :=
    of_decide_eq_true (List.all_eq_true.mp repositoryNames_resolved _
      (List.mem_eraseDups.mpr (by decide +kernel)))
  rw [repeatedLedger, ledgerCall, requireRepository, hname]
  rfl

/-- The migration of the ledger completes. -/
theorem exists_repeatedLedger :
    ∃ real, (migrateLegacy asciiTables utcHost "" (repeatedLedger.withDryRun false)
      .fresh).result = .ok real := by
  apply exists_of_isOk
  decide +kernel

/-- Both sections are pending, under one local id. -/
theorem not_pairwise_repeatedLedger :
    ¬ ((sourceEntries asciiTables
        (repeatedLedger.source.markdown repeatedLedger.limit)).filterMap
      (pendingRow asciiTables "mncs-store" repeatedLedger Registry.fresh.records)).Pairwise RowName.Apart := by
  decide +kernel

theorem repeatedLedger_not_predicted :
    ∃ real, (migrateLegacy asciiTables utcHost "" (repeatedLedger.withDryRun false)
        .fresh).result = .ok real ∧
      ¬ ((migrateLegacy asciiTables utcHost "" (repeatedLedger.withDryRun true)
          .fresh).final = .fresh ∧
        ∃ dry, (migrateLegacy asciiTables utcHost "" (repeatedLedger.withDryRun true)
            .fresh).result = .ok dry ∧
          dry.imported.map ImportedRow.named = real.imported.map ImportedRow.named) := by
  obtain ⟨real, hreal⟩ := exists_repeatedLedger
  refine ⟨real, hreal, ?_⟩
  rw [@dryRun_predicts_iff asciiTables utcHost "" "mncs-store" repeatedLedger .fresh real
    repository_repeatedLedger hreal, unrepeated_iff]
  exact not_pairwise_repeatedLedger

/-- The dry run lists both sections, and the run imports the first one. -/
theorem dryRun_lists_repeated :
    ¬ ∀ (unicode : Unicode) (host : Host) (now : String) (call : MigrateCall)
        (registry : Registry) (real : Migration),
      (migrateLegacy unicode host now (call.withDryRun false) registry).result = .ok real →
        (migrateLegacy unicode host now (call.withDryRun true) registry).final = registry ∧
          ∃ dry, (migrateLegacy unicode host now (call.withDryRun true) registry).result =
              .ok dry ∧
            dry.imported.map ImportedRow.named = real.imported.map ImportedRow.named := by
  intro hall
  obtain ⟨real, hreal⟩ := exists_repeatedLedger
  have hpredicts : Predicts asciiTables utcHost "" repeatedLedger .fresh real :=
    hall asciiTables utcHost "" repeatedLedger .fresh real hreal
  rw [predicts_iff_pairwise repository_repeatedLedger hreal] at hpredicts
  exact not_pairwise_repeatedLedger hpredicts

end MncsCommons.Pressure
