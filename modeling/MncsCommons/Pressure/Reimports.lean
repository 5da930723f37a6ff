/-
# Importing a ledger again

After a run every entry of the source is there, so the same source imports nothing.
A source that says the same local ids in other words finds them by their aliases,
when each of the first source has one: an entry is skipped without its alias when a
record that is not about it is stored under the id derived from it, and then other
words derive another id (`migrate_again`).
-/

import MncsCommons.Pressure.DryRuns

namespace MncsCommons.Pressure

open MncsCommons.Data MncsCommons.Protocol MncsCommons.Exec

section Runs

variable {unicode : Unicode} {host : Host} {now repository : String} {call : MigrateCall}
  {registry : Registry} {real : Migration}

/-! ## Skipping -/

/-- A migration that completes, imports nothing and changes nothing. -/
def ImportsNothing (unicode : Unicode) (host : Host) (now : String) (call : MigrateCall)
    (registry : Registry) : Prop :=
  (migrateLegacy unicode host now call registry).final = registry ∧
    ∃ result, (migrateLegacy unicode host now call registry).result = .ok result ∧
      result.imported = []

/-- An entry that is there is skipped. -/
theorem migrateEntry_skips {placed : PlacedEntry}
    (h : pendingId unicode repository call.target registry.records placed = .ok none)
    (done : Migrated) :
    ∃ after, migrateEntry unicode host now repository call done placed registry =
        ⟨[], registry, .ok after⟩ ∧ after.imported = done.imported := by
  obtain ⟨generated, hgenerated, hrest⟩ := Py.bind_eq_ok_iff.mp h
  obtain ⟨id, hid, -⟩ := Py.bind_eq_ok_iff.mp hrest
  rw [pendingId_of_lookups hgenerated hid] at h
  have hhas : Fields.has registry.records id = true := by
    by_contra hfree
    rw [if_neg hfree] at h
    cases h
  rw [migrateEntry_of_lookups hgenerated hid, importEntry, hhas, if_pos rfl]
  exact ⟨_, rfl, rfl⟩

theorem migrateEntries_skips {entries : List PlacedEntry}
    (h : ∀ placed ∈ entries,
      pendingId unicode repository call.target registry.records placed = .ok none)
    (done : Migrated) :
    ∃ after, migrateEntries unicode host now repository call entries done registry =
        ⟨[], registry, .ok after⟩ ∧ after.imported = done.imported := by
  induction entries generalizing done with
  | nil => exact ⟨done, rfl, rfl⟩
  | cons placed entries ih =>
      rw [List.forall_mem_cons] at h
      obtain ⟨middle, hmiddle, hfirst⟩ := @migrateEntry_skips unicode host now repository call
        registry placed h.1 done
      obtain ⟨after, hafter, hrest⟩ := ih h.2 middle
      refine ⟨after, ?_, hrest.trans hfirst⟩
      rw [migrateEntries, Program.bind_apply, hmiddle, Run.andThen_ok, hafter]
      rfl

theorem migrateFiles_skips {files : List SourceFile}
    (hread : ∀ file ∈ files, ∃ text, file.read = .ok text)
    (h : ∀ placed ∈ sourceEntries unicode files,
      pendingId unicode repository call.target registry.records placed = .ok none)
    (done : Migrated) :
    ∃ after, migrateFiles unicode host now repository call files done registry =
        ⟨[], registry, .ok after⟩ ∧ after.imported = done.imported := by
  induction files generalizing done with
  | nil => exact ⟨done, rfl, rfl⟩
  | cons file files ih =>
      rw [sourceEntries, List.flatMap_cons, List.forall_mem_append] at h
      rw [List.forall_mem_cons] at hread
      obtain ⟨text, htext⟩ := hread.1
      obtain ⟨middle, hmiddle, hfirst⟩ : ∃ middle,
          migrateFile unicode host now repository call done file registry =
            ⟨[], registry, .ok middle⟩ ∧ middle.imported = done.imported := by
        rw [migrateFile_of_read htext]
        split
        · exact ⟨_, rfl, rfl⟩
        · exact migrateEntries_skips h.1 done
      obtain ⟨after, hafter, hrest⟩ := ih hread.2 h.2 middle
      refine ⟨after, ?_, hrest.trans hfirst⟩
      rw [migrateFiles, Program.bind_apply, hmiddle, Run.andThen_ok, hafter]
      rfl

/-- A source whose entries are all there imports nothing. -/
theorem importsNothing_of_skips
    (hrepository : requireRepository call.repository "repository" = .ok repository)
    (htarget : targets.contains call.target = true)
    (hread : ∀ file ∈ call.source.markdown call.limit, ∃ text, file.read = .ok text)
    (h : ∀ placed ∈ sourceEntries unicode (call.source.markdown call.limit),
      pendingId unicode repository call.target registry.records placed = .ok none) :
    ImportsNothing unicode host now call registry := by
  obtain ⟨after, hafter, himported⟩ := @migrateFiles_skips unicode host now repository call
    registry _ hread h ⟨[], []⟩
  rw [ImportsNothing, @migrateLegacy_of_checks unicode host now repository call registry ()
    hrepository (raiseIf_eq_ok_iff.mpr (by rw [Bool.not_eq_false']; exact htarget)), hafter]
  exact ⟨rfl, _, rfl, himported⟩

/-! ## What a run leaves -/

/-- A row that was listed was kept, or is not apart from one that was. -/
theorem exists_kept (rows kept : List RowName) :
    (∀ row ∈ kept, row ∈ rows.foldl keepNew kept) ∧
      ∀ row ∈ rows, ∃ other ∈ rows.foldl keepNew kept, ¬ other.Apart row := by
  induction rows generalizing kept with
  | nil => exact ⟨fun row hrow => hrow, by simp⟩
  | cons row rows ih =>
      obtain ⟨hstays, hclash⟩ := ih (keepNew kept row)
      have hkept : ∀ other ∈ kept, other ∈ keepNew kept row := by
        intro other hother
        rw [keepNew]
        split
        · exact List.mem_append_left _ hother
        · exact hother
      refine ⟨fun other hother => hstays other (hkept other hother), ?_⟩
      rw [List.forall_mem_cons]
      refine ⟨?_, hclash⟩
      by_cases hnew : ∀ other ∈ kept, other.Apart row
      · refine ⟨row, hstays row ?_, fun hapart => hapart.1 rfl⟩
        rw [keepNew_of_new hnew]
        exact List.mem_append_right _ List.mem_cons_self
      · push Not at hnew
        obtain ⟨other, hother, hnot⟩ := hnew
        exact ⟨other, hstays other (hkept other hother), hnot⟩

/-- Rows are kept apart. -/
theorem pairwise_foldl_keepNew (rows : List RowName) {kept : List RowName}
    (h : kept.Pairwise RowName.Apart) : (rows.foldl keepNew kept).Pairwise RowName.Apart := by
  induction rows generalizing kept with
  | nil => exact h
  | cons row rows ih =>
      apply ih
      rw [keepNew]
      split
      case isTrue hnew =>
        rw [List.pairwise_append]
        refine ⟨h, List.pairwise_singleton _ _, ?_⟩
        intro other hother next hnext
        rw [List.mem_singleton.mp hnext]
        exact hnew other hother
      case isFalse => exact h

/-- An entry of the source is there after the run. -/
theorem pendingId_after {base records : Directory} {rows : List RowName} {placed : PlacedEntry}
    (h : Extends repository base rows records)
    (hpending : ∃ pending, pendingId unicode repository call.target base placed = .ok pending)
    (hrows : ∀ row, pendingRow unicode repository call base placed = some row →
      ∃ other ∈ rows, ¬ other.Apart row) :
    pendingId unicode repository call.target records placed = .ok none := by
  obtain ⟨pending, hpending⟩ := hpending
  obtain ⟨generated, hgenerated, hrest⟩ := Py.bind_eq_ok_iff.mp hpending
  obtain ⟨id, hid, -⟩ := Py.bind_eq_ok_iff.mp hrest
  by_cases himported : ∃ row ∈ rows, row.legacyId = placed.entry.legacyId
  · obtain ⟨row, hrow, hlegacy⟩ := himported
    obtain ⟨-, existing, hexisting, hhas⟩ := h.again row hrow
    rw [hlegacy] at hexisting
    have hfound : resolveId records (scopedAlias repository placed) generated =
        .ok (Fields.get existing "id").pyStr :=
      resolveId_eq_ok_iff.mpr ⟨some existing, hexisting, rfl⟩
    rw [pendingId_of_lookups hgenerated hfound, if_pos hhas]
  · push Not at himported
    have hsame : resolveId records (scopedAlias repository placed) generated = .ok id := by
      rw [resolveId_eq_ok_iff] at hid ⊢
      rw [scopedAlias] at hid ⊢
      rwa [h.other placed.entry.legacyId himported]
    rw [pendingId_of_lookups hgenerated hsame]
    have hhas : Fields.has records id = true := by
      rw [h.has]
      cases hbase : Fields.has base id with
      | true => exact .inl rfl
      | false =>
          right
          rw [pendingId_of_lookups hgenerated hid, hbase] at hpending
          obtain ⟨other, hother, hclash⟩ := hrows _ (pendingRow_eq_some_iff.mpr
            ⟨id, by rw [pendingId_of_lookups hgenerated hid, hbase]; rfl, rfl⟩)
          refine ⟨other, hother, ?_⟩
          by_contra hne
          exact hclash ⟨himported other hother, hne⟩
    rw [if_pos hhas]

/-! ## Aliases after a run -/

theorem mem_of_findAlias {wanted : String} {files : List (String × Option Fields)}
    {existing : Fields} (h : findAlias wanted files = .ok (some existing)) :
    ∃ name, (name, some existing) ∈ files := by
  induction files with
  | nil => cases h
  | cons entry files ih =>
      obtain ⟨name, contents⟩ := entry
      cases contents with
      | none => cases h
      | some document =>
          obtain ⟨isCarrying, -, hrest⟩ := Py.bind_eq_ok_iff.mp h
          cases isCarrying with
          | true =>
              obtain rfl := Option.some.inj (Except.ok.inj hrest)
              exact ⟨name, List.mem_cons_self⟩
          | false =>
              obtain ⟨other, hother⟩ := ih hrest
              exact ⟨other, List.mem_cons_of_mem _ hother⟩

/-- When nothing is found, no file carries the alias. -/
theorem not_carries_of_findAlias {wanted : String} {files : List (String × Option Fields)}
    (h : findAlias wanted files = .ok none) :
    ∀ entry ∈ files, ∃ document, entry.2 = some document ∧ carries wanted document = .ok false := by
  induction files with
  | nil => simp
  | cons entry files ih =>
      obtain ⟨name, contents⟩ := entry
      cases contents with
      | none => cases h
      | some document =>
          obtain ⟨isCarrying, hcarrying, hrest⟩ := Py.bind_eq_ok_iff.mp h
          cases isCarrying with
          | true => cases hrest
          | false => exact List.forall_mem_cons.mpr ⟨⟨document, rfl, hcarrying⟩, ih hrest⟩

/-- The ids that a source derives are its own: records are stored under their ids, one
that is stored under the id of an entry carries its alias, and no two local ids have
one id. -/
structure OwnIds (unicode : Unicode) (repository : String) (call : MigrateCall)
    (records : Directory) : Prop where
  stored : ∀ name document, (name, some document) ∈ records →
    (Fields.get document "id").pyStr = name
  carried : ∀ placed ∈ sourceEntries unicode (call.source.markdown call.limit), ∀ id,
    generatedId unicode repository call.target placed = .ok id →
      ∀ document, (id, some document) ∈ records →
        carries (scopedAlias repository placed) document = .ok true
  apart : ∀ first ∈ sourceEntries unicode (call.source.markdown call.limit),
    ∀ second ∈ sourceEntries unicode (call.source.markdown call.limit), ∀ id,
      generatedId unicode repository call.target first = .ok id →
        generatedId unicode repository call.target second = .ok id →
          first.entry.legacyId = second.entry.legacyId

/-- An alias that is found names a record that is there. -/
theorem OwnIds.has_of_found {records : Directory} {wanted : String} {existing : Fields}
    (h : OwnIds unicode repository call records)
    (hfound : findAlias wanted (recordFiles records) = .ok (some existing)) :
    Fields.has records (Fields.get existing "id").pyStr = true := by
  obtain ⟨name, hmem⟩ := mem_of_findAlias hfound
  rw [recordFiles, mem_sortedBy] at hmem
  rw [h.stored name existing hmem, Fields.has, Option.isSome_iff_ne_none, ne_eq,
    Fields.get?_eq_none_iff, not_not]
  exact List.mem_map_of_mem hmem

/-- A pending entry has the id derived from it. -/
theorem OwnIds.generatedId_of_pending {records : Directory} {placed : PlacedEntry} {id : String}
    (h : OwnIds unicode repository call records)
    (hpending : pendingId unicode repository call.target records placed = .ok (some id)) :
    generatedId unicode repository call.target placed = .ok id := by
  obtain ⟨generated, hgenerated, hrest⟩ := Py.bind_eq_ok_iff.mp hpending
  obtain ⟨resolved, hresolved, -⟩ := Py.bind_eq_ok_iff.mp hrest
  rw [pendingId_of_lookups hgenerated hresolved] at hpending
  obtain ⟨found, hfound, rfl⟩ := resolveId_eq_ok_iff.mp hresolved
  split at hpending
  case isTrue => cases hpending
  case isFalse hfree =>
    obtain rfl := Option.some.inj (Except.ok.inj hpending)
    cases found with
    | none => exact hgenerated
    | some existing => exact absurd (h.has_of_found hfound) hfree

/-- When nothing carries the alias of an entry, its id is free. -/
theorem OwnIds.has_generatedId {records : Directory} {placed : PlacedEntry} {id : String}
    (h : OwnIds unicode repository call records)
    (hplaced : placed ∈ sourceEntries unicode (call.source.markdown call.limit))
    (hgenerated : generatedId unicode repository call.target placed = .ok id)
    (hfound : findAlias (scopedAlias repository placed) (recordFiles records) = .ok none) :
    Fields.has records id = false := by
  rw [Fields.has, Option.isSome_eq_false_iff, Option.isNone_iff_eq_none, Fields.get?_eq_none_iff]
  intro hmem
  obtain ⟨⟨name, contents⟩, hentry, rfl⟩ := List.mem_map.mp hmem
  obtain ⟨document, hcontents, hnot⟩ := not_carries_of_findAlias hfound (name, contents)
    (by rw [recordFiles, mem_sortedBy]; exact hentry)
  dsimp only at hcontents
  subst hcontents
  rw [h.carried placed hplaced name hgenerated document hentry] at hnot
  cases hnot

/-- The alias of every entry is found after the run. -/
theorem found_after {records : Directory} {rows : List RowName} {placed : PlacedEntry}
    (h : Extends repository registry.records rows records)
    (hown : OwnIds unicode repository call registry.records)
    (hsource : ∀ row ∈ rows, ∃ entry ∈ sourceEntries unicode (call.source.markdown call.limit),
      pendingRow unicode repository call registry.records entry = some row)
    (hplaced : placed ∈ sourceEntries unicode (call.source.markdown call.limit))
    (hpending : ∃ pending,
      pendingId unicode repository call.target registry.records placed = .ok pending)
    (hrows : ∀ row, pendingRow unicode repository call registry.records placed = some row →
      ∃ other ∈ rows, ¬ other.Apart row) :
    ∃ existing, findAlias (repository ++ ":" ++ placed.entry.legacyId) (recordFiles records) =
        .ok (some existing) ∧
      Fields.has records (Fields.get existing "id").pyStr = true := by
  obtain ⟨pending, hpending⟩ := hpending
  obtain ⟨generated, hgenerated, hrest⟩ := Py.bind_eq_ok_iff.mp hpending
  obtain ⟨id, hid, -⟩ := Py.bind_eq_ok_iff.mp hrest
  by_cases himported : ∃ row ∈ rows, row.legacyId = placed.entry.legacyId
  · obtain ⟨row, hrow, hlegacy⟩ := himported
    obtain ⟨-, hagain⟩ := h.again row hrow
    rwa [hlegacy] at hagain
  · push Not at himported
    rw [h.other placed.entry.legacyId himported]
    obtain ⟨found, hfound, rfl⟩ := resolveId_eq_ok_iff.mp hid
    cases found with
    | some existing => exact ⟨existing, hfound, (h.has _).mpr (.inl (hown.has_of_found hfound))⟩
    | none =>
        -- the entry was pending under its own id, which no other local id derives
        exfalso
        have hfree := hown.has_generatedId hplaced hgenerated hfound
        have hsome : pendingId unicode repository call.target registry.records placed =
            .ok (some generated) := by
          rw [pendingId_of_lookups hgenerated hid, Option.elim_none, hfree]
          rfl
        obtain ⟨other, hother, hclash⟩ :=
          hrows _ (pendingRow_eq_some_iff.mpr ⟨generated, hsome, rfl⟩)
        obtain ⟨entry, hentry, hrow⟩ := hsource other hother
        obtain ⟨otherId, hotherId, rfl⟩ := pendingRow_eq_some_iff.mp hrow
        apply hclash
        refine ⟨himported _ hother, fun heq => himported _ hother ?_⟩
        have hotherGenerated := hown.generatedId_of_pending hotherId
        dsimp only at heq
        rw [heq] at hotherGenerated
        exact hown.apart entry hentry placed hplaced generated hotherGenerated hgenerated

/-- The id of an entry can be derived for every target. -/
theorem exists_generatedId {target : String} (h : targets.contains target = true)
    (placed : PlacedEntry) : ∃ id, generatedId unicode repository target placed = .ok id := by
  have hmem : target ∈ Fields.keys prefixes := by simpa [targets] using h
  rw [generatedId, pressureId]
  cases hget : Fields.get? prefixes target with
  | none => exact absurd hmem (Fields.get?_eq_none_iff.mp hget)
  | some area => exact ⟨_, rfl⟩

/-- An entry whose alias is found is skipped. -/
theorem pendingId_of_found {records : Directory} {target : String} {placed : PlacedEntry}
    (htarget : targets.contains target = true)
    (h : ∃ existing, findAlias (repository ++ ":" ++ placed.entry.legacyId) (recordFiles records) =
        .ok (some existing) ∧
      Fields.has records (Fields.get existing "id").pyStr = true) :
    pendingId unicode repository target records placed = .ok none := by
  obtain ⟨generated, hgenerated⟩ := @exists_generatedId unicode repository target htarget placed
  obtain ⟨existing, hexisting, hhas⟩ := h
  have hfound : resolveId records (scopedAlias repository placed) generated =
      .ok (Fields.get existing "id").pyStr :=
    resolveId_eq_ok_iff.mpr ⟨some existing, hexisting, rfl⟩
  rw [pendingId_of_lookups hgenerated hfound, if_pos hhas]

/-! ## The second run -/

theorem mem_foldl_keepNew {rows kept : List RowName} {row : RowName}
    (h : row ∈ rows.foldl keepNew kept) : row ∈ kept ∨ row ∈ rows := by
  induction rows generalizing kept with
  | nil => exact .inl h
  | cons head rows ih =>
      rcases ih h with hkept | hrow
      · rw [keepNew] at hkept
        split at hkept
        · rcases List.mem_append.mp hkept with hkept | hhead
          · exact .inl hkept
          · exact .inr (List.mem_singleton.mp hhead ▸ List.mem_cons_self)
        · exact .inl hkept
      · exact .inr (List.mem_cons_of_mem _ hrow)

/-- The call with another refresh flag. -/
def MigrateCall.withRefresh (call : MigrateCall) (refresh : Bool) : MigrateCall :=
  { call with refresh := refresh }

/-- After a run the same source imports nothing; so does one with the same local ids,
when the ids that the first one derives are its own; and no alias is carried by two of
the records that the run created. -/
theorem migrate_again {after : Registry}
    (hrepository : requireRepository call.repository "repository" = .ok repository)
    (hreal : (migrateLegacy unicode host now (call.withDryRun false) registry).result =
      .ok real)
    (hafter : (migrateLegacy unicode host now (call.withDryRun false) registry).final = after) :
    (∀ later refresh, ImportsNothing unicode host later (call.withRefresh refresh) after) ∧
      (OwnIds unicode repository call registry.records → ∀ later again,
        again.repository = call.repository → again.target = call.target →
        (∀ file ∈ again.source.markdown again.limit, ∃ text, file.read = .ok text) →
        (∀ placed ∈ sourceEntries unicode (again.source.markdown again.limit),
          ∃ first ∈ sourceEntries unicode (call.source.markdown call.limit),
            first.entry.legacyId = placed.entry.legacyId) →
          ImportsNothing unicode host later again after) ∧
      ∀ name other document otherDocument wanted,
        Fields.has registry.records name = false → Fields.has registry.records other = false →
        Fields.get? after.records name = some (some document) →
        Fields.get? after.records other = some (some otherDocument) →
        carries wanted document = .ok true → carries wanted otherDocument = .ok true →
          name = other := by
  obtain ⟨hread, hall, hrows, hext, htarget⟩ := rows_of_real hrepository hreal
  rw [hafter, hrows] at hext
  set listed := (sourceEntries unicode (call.source.markdown call.limit)).filterMap
    (pendingRow unicode repository call registry.records) with hlisted
  obtain ⟨-, hclash⟩ := exists_kept listed []
  have hkept : ∀ placed ∈ sourceEntries unicode (call.source.markdown call.limit), ∀ row,
      pendingRow unicode repository call registry.records placed = some row →
        ∃ other ∈ listed.foldl keepNew [], ¬ other.Apart row := by
    intro placed hplaced row hrow
    exact hclash row (List.mem_filterMap.mpr ⟨placed, hplaced, hrow⟩)
  refine ⟨?_, ?_, ?_⟩
  · intro later refresh
    apply @importsNothing_of_skips unicode host later repository (call.withRefresh refresh) after
      hrepository htarget hread
    intro placed hplaced
    exact pendingId_after hext (hall placed hplaced) (hkept placed hplaced)
  · intro hown later again hsame hsameTarget hreadAgain hids
    apply importsNothing_of_skips (hsame ▸ hrepository) (hsameTarget ▸ htarget) hreadAgain
    intro placed hplaced
    obtain ⟨first, hfirst, hlegacy⟩ := hids placed hplaced
    apply pendingId_of_found (hsameTarget ▸ htarget)
    rw [← hlegacy]
    apply found_after hext hown _ hfirst (hall first hfirst) (hkept first hfirst)
    intro row hrow
    exact List.mem_filterMap.mp ((mem_foldl_keepNew hrow).resolve_left List.not_mem_nil)
  · intro name other document otherDocument wanted hname hother hget hgetOther hcarries hcarriesOther
    obtain ⟨row, hrow, rfl, hdocument⟩ := hext.created name document hget hname
    obtain ⟨otherRow, hotherRow, rfl, hotherDocument⟩ :=
      hext.created other otherDocument hgetOther hother
    rw [hdocument] at hcarries
    rw [hotherDocument] at hcarriesOther
    have hlegacy : row.legacyId = otherRow.legacyId := by
      have hfirst := of_decide_eq_true (Except.ok.inj hcarries)
      have hsecond := of_decide_eq_true (Except.ok.inj hcarriesOther)
      exact alias_inj.mp (hfirst.symm.trans hsecond)
    by_contra hne
    have hpairwise := pairwise_foldl_keepNew listed List.Pairwise.nil
    have hsymm : Std.Symm RowName.Apart := ⟨fun _ _ hapart => ⟨hapart.1.symm, hapart.2.symm⟩⟩
    have hdistinct : row ≠ otherRow := fun heq => hne (congrArg RowName.id heq)
    exact (hpairwise.forall hrow hotherRow hdistinct).1 hlegacy

end Runs

/-! ## A ledger in other words -/

def firstLedger : MigrateCall := ledgerCall "## P-1 First\n"

/-- The title names another domain. -/
def rewordedLedger : MigrateCall := ledgerCall "## P-1 Filesystem\n"

/-- The local ids of the entries. -/
def localIds (call : MigrateCall) : List String :=
  (sourceEntries asciiTables (call.source.markdown call.limit)).map fun placed =>
    placed.entry.legacyId

theorem localIds_repeatedLedger : localIds repeatedLedger = ["P-1", "P-1"] := by decide +kernel

theorem localIds_firstLedger : localIds firstLedger = ["P-1"] := by decide +kernel

theorem localIds_rewordedLedger : localIds rewordedLedger = ["P-1"] := by decide +kernel

theorem ledgerCall_reads (text : String) :
    ∀ file ∈ (ledgerCall text).source.markdown (ledgerCall text).limit,
      ∃ read, file.read = .ok read := by
  intro file hfile
  have hmem : file ∈ [SourceFile.mk ["ledger.md"] (some text.toList)] := hfile
  rw [List.mem_singleton.mp hmem]
  exact ⟨_, rfl⟩

theorem mem_localIds {call : MigrateCall} {placed : PlacedEntry}
    (h : placed ∈ sourceEntries asciiTables (call.source.markdown call.limit)) :
    placed.entry.legacyId ∈ localIds call :=
  List.mem_map_of_mem h

/-- In an empty registry the ids of one local id are its own. -/
theorem ownIds_repeatedLedger :
    OwnIds asciiTables "mncs-store" repeatedLedger Registry.fresh.records where
  stored _ _ hmem := absurd hmem List.not_mem_nil
  carried _ _ _ _ _ hmem := absurd hmem List.not_mem_nil
  apart first hfirst second hsecond _ _ _ := by
    have hone := mem_localIds hfirst
    have hother := mem_localIds hsecond
    rw [localIds_repeatedLedger] at hone hother
    simp only [List.mem_cons, List.not_mem_nil, or_false, or_self] at hone hother
    rw [hone, hother]

theorem repeatedLedger_again :
    ∃ real after, (migrateLegacy asciiTables utcHost "" (repeatedLedger.withDryRun false)
        .fresh).result = .ok real ∧
      (migrateLegacy asciiTables utcHost "" (repeatedLedger.withDryRun false) .fresh).final =
        after ∧
      ImportsNothing asciiTables utcHost "" (repeatedLedger.withRefresh true) after ∧
      ImportsNothing asciiTables utcHost "" rewordedLedger after := by
  obtain ⟨real, hreal⟩ := exists_repeatedLedger
  obtain ⟨hsame, hother, -⟩ := @migrate_again asciiTables utcHost "" "mncs-store" repeatedLedger
    .fresh real _ repository_repeatedLedger hreal rfl
  refine ⟨real, _, hreal, rfl, hsame "" true, ?_⟩
  apply hother ownIds_repeatedLedger "" rewordedLedger rfl rfl (ledgerCall_reads _)
  intro placed hplaced
  have hreworded := mem_localIds hplaced
  rw [localIds_rewordedLedger, List.mem_singleton] at hreworded
  have hfirst : "P-1" ∈ localIds repeatedLedger := by
    rw [localIds_repeatedLedger]
    exact List.mem_cons_self
  obtain ⟨first, hmem, hid⟩ := List.mem_map.mp hfirst
  exact ⟨first, hmem, hid.trans hreworded.symm⟩

/-! ## A record under the id of an entry -/

/-- The signature of a record's reproducer. -/
def recordSignature (document : Fields) : Json :=
  match Fields.get document "reproducer" with
  | .obj reproducer => Fields.get reproducer "signature"
  | _ => .null

/-- Every record with the signature of a local id carries its alias. -/
def SignaturesCarryAliases (repository : String) (records : Directory) : Prop :=
  ∀ name document legacyId, (name, some document) ∈ records →
    recordSignature document = .str ("legacy:" ++ repository ++ ":" ++ legacyId) →
      carries (repository ++ ":" ++ legacyId) document = .ok true

/-- A record with a custom id, which is the one derived from the first ledger. -/
def customRecord : Fields :=
  [("allowCustomId", .bool true), ("capability", .str "directories"), ("domain", .str "io"),
    ("id", .str "MNCS-LANG-329C5D3E9038"),
    ("identity", .obj [("capability", .str "directories"), ("domain", .str "io"),
      ("reproducerSignature", .str "listing"), ("target", .str "language")]),
    ("legacyIds", .arr []), ("reproducer", .obj [("signature", .str "listing")]),
    ("target", .str "language"), ("title", .str "Directory listings")]

/-- The registry with that record. -/
def customRegistry : Registry :=
  { Registry.fresh with records := [("MNCS-LANG-329C5D3E9038", some customRecord)] }

theorem signaturesCarryAliases_customRegistry :
    SignaturesCarryAliases "mncs-store" customRegistry.records := by
  intro name document legacyId hmem hsignature
  obtain ⟨-, hdocument⟩ := Prod.mk.inj (List.mem_singleton.mp hmem)
  obtain rfl := Option.some.inj hdocument
  have hlisting : "listing" = "legacy:" ++ "mncs-store" ++ ":" ++ legacyId :=
    Json.str.inj hsignature
  have hsecond := congrArg (fun text => text.toList.take 2) hlisting
  simp [String.toList_append] at hsecond

/-- The entry of the first ledger is skipped, and the one in other words is pending. -/
theorem pendingRows_customRegistry :
    ((sourceEntries asciiTables (firstLedger.source.markdown firstLedger.limit)).all fun placed =>
        (pendingId asciiTables "mncs-store" firstLedger.target customRegistry.records
          placed).toOption == some none) = true ∧
      (sourceEntries asciiTables (rewordedLedger.source.markdown rewordedLedger.limit)).filterMap
        (pendingRow asciiTables "mncs-store" rewordedLedger customRegistry.records) ≠ [] := by
  decide +kernel

/-- The first ledger imports nothing next to the custom record. -/
theorem firstLedger_imports_nothing :
    ImportsNothing asciiTables utcHost "" firstLedger customRegistry := by
  apply @importsNothing_of_skips asciiTables utcHost "" "mncs-store" firstLedger customRegistry
    repository_repeatedLedger (by decide) (ledgerCall_reads _)
  intro placed hplaced
  have hskipped := List.all_eq_true.mp pendingRows_customRegistry.1 placed hplaced
  cases hpending : pendingId asciiTables "mncs-store" firstLedger.target customRegistry.records
      placed with
  | error error => rw [hpending] at hskipped; cases hskipped
  | ok pending =>
      rw [hpending] at hskipped
      have hnone : some pending = some none := eq_of_beq hskipped
      rw [Option.some.inj hnone]

/-- An entry skipped for a record that is not about it is imported in other words. -/
theorem reworded_imports :
    ¬ ∀ (unicode : Unicode) (host : Host) (now later repository : String)
        (call again : MigrateCall) (registry after : Registry) (real : Migration),
      requireRepository call.repository "repository" = .ok repository →
      SignaturesCarryAliases repository registry.records →
      (migrateLegacy unicode host now (call.withDryRun false) registry).result = .ok real →
      (migrateLegacy unicode host now (call.withDryRun false) registry).final = after →
      again.repository = call.repository → again.target = call.target →
      (∀ file ∈ again.source.markdown again.limit, ∃ text, file.read = .ok text) →
      (sourceEntries unicode (again.source.markdown again.limit)).map
          (fun placed => placed.entry.legacyId) =
        (sourceEntries unicode (call.source.markdown call.limit)).map
          (fun placed => placed.entry.legacyId) →
        ImportsNothing unicode host later again after := by
  intro hall
  obtain ⟨hfinal, real, hreal, -⟩ := firstLedger_imports_nothing
  have hnothing : ImportsNothing asciiTables utcHost "" rewordedLedger customRegistry :=
    hall asciiTables utcHost "" "" "mncs-store" firstLedger rewordedLedger customRegistry
      customRegistry real repository_repeatedLedger signaturesCarryAliases_customRegistry hreal
      hfinal rfl rfl (ledgerCall_reads _) (localIds_rewordedLedger.trans localIds_firstLedger.symm)
  obtain ⟨-, result, hresult, himported⟩ := hnothing
  obtain ⟨-, -, hrows, -⟩ := @rows_of_real asciiTables utcHost "" "mncs-store" rewordedLedger
    customRegistry result repository_repeatedLedger hresult
  obtain ⟨row, hrow⟩ := List.exists_mem_of_ne_nil _ pendingRows_customRegistry.2
  obtain ⟨other, hother, -⟩ := (exists_kept _ []).2 row hrow
  rw [← hrows, himported] at hother
  exact List.not_mem_nil hother

end MncsCommons.Pressure
