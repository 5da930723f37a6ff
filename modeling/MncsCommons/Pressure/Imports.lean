/-
# What an import leaves

A run creates a record for an entry that is not there.  The record carries the alias of
its entry and no other, so the entries of other local ids are looked up as before
(`Extends`), and an entry whose local id or whose pressure was imported before is
skipped.  A dry run looks every entry up in the registry it starts from.
-/

import MncsCommons.Pressure.Migration

namespace MncsCommons.Pressure

open MncsCommons.Data MncsCommons.Protocol MncsCommons.Exec

/-! ## Looking for an alias -/

section Aliases

variable {wanted name id : String} {records : Directory} {document : Fields}

/-- Whether a document carries the alias. -/
def carries (wanted : String) (document : Fields) : Py Bool :=
  isIn wanted (member document "legacyIds" (.arr []))

/-- Files of a name that do not carry the alias are passed over. -/
theorem findAlias_filter_of_not {files : List (String × Option Fields)}
    (h : ∀ entry ∈ files, entry.1 = name →
      ∃ document, entry.2 = some document ∧ carries wanted document = .ok false) :
    findAlias wanted (files.filter fun entry => entry.1 ≠ name) = findAlias wanted files := by
  induction files with
  | nil => rfl
  | cons entry files ih =>
      obtain ⟨other, contents⟩ := entry
      have hrest := ih fun entry hentry => h entry (List.mem_cons_of_mem _ hentry)
      by_cases hname : other = name
      · obtain ⟨document, hcontents, hnot⟩ := h _ List.mem_cons_self hname
        dsimp only at hcontents
        subst hcontents
        rw [List.filter_cons_of_neg (by simpa using hname), hrest, findAlias]
        rw [carries] at hnot
        rw [hnot]
        rfl
      · rw [List.filter_cons_of_pos (by simpa using hname)]
        cases contents with
        | none => rfl
        | some document => rw [findAlias, findAlias, hrest]

/-- A search that ends well without the files of a name ends well with them, when they
carry the alias, and what it finds has the same id. -/
theorem findAlias_of_carries {files : List (String × Option Fields)} {found : Option Fields}
    (hfound : findAlias wanted (files.filter fun entry => entry.1 ≠ name) = .ok found)
    (hid : ∀ existing, found = some existing → (Fields.get existing "id").pyStr = id)
    (hcarries : ∀ entry ∈ files, entry.1 = name → ∃ document, entry.2 = some document ∧
      carries wanted document = .ok true ∧ (Fields.get document "id").pyStr = id)
    (hmem : ∃ entry ∈ files, entry.1 = name) :
    ∃ existing, findAlias wanted files = .ok (some existing) ∧
      (Fields.get existing "id").pyStr = id := by
  induction files with
  | nil => obtain ⟨entry, hentry, -⟩ := hmem; exact absurd hentry List.not_mem_nil
  | cons entry files ih =>
      obtain ⟨other, contents⟩ := entry
      by_cases hname : other = name
      · obtain ⟨document, hcontents, htrue, hdocument⟩ := hcarries _ List.mem_cons_self hname
        dsimp only at hcontents
        subst hcontents
        refine ⟨document, ?_, hdocument⟩
        rw [carries] at htrue
        rw [findAlias, htrue]
        rfl
      · rw [List.filter_cons_of_pos (by simpa using hname)] at hfound
        cases contents with
        | none => exact absurd hfound (by simp [findAlias])
        | some document =>
            rw [findAlias] at hfound ⊢
            obtain ⟨isCarrying, hcarrying, hfound⟩ := Py.bind_eq_ok_iff.mp hfound
            rw [hcarrying]
            cases isCarrying with
            | true =>
                have hsame := Except.ok.inj hfound
                exact ⟨document, rfl, hid document hsame.symm⟩
            | false =>
                refine ih hfound (fun entry hentry => hcarries entry (List.mem_cons_of_mem _ hentry)) ?_
                obtain ⟨entry, hentry, heq⟩ := hmem
                rcases List.mem_cons.mp hentry with rfl | hentry
                · exact absurd heq hname
                · exact ⟨entry, hentry, heq⟩

/-- Without a new file the files are the old ones. -/
theorem filter_recordFiles_set (hfree : Fields.get? records name = none) (contents : Option Fields) :
    (recordFiles (Fields.set records name contents)).filter (fun entry => entry.1 ≠ name) =
      recordFiles records := by
  rw [recordFiles, filter_sortedBy]
  exact congrArg _ (erase_set_of_free contents hfree)

/-- A new file is the only one of its name. -/
theorem mem_recordFiles_set (hfree : Fields.get? records name = none) {contents : Option Fields}
    {entry : String × Option Fields} (hentry : entry ∈ recordFiles (Fields.set records name contents))
    (hname : entry.1 = name) : entry.2 = contents := by
  rw [recordFiles, mem_sortedBy] at hentry
  rcases Fields.mem_set hentry with hold | hnew
  · exact absurd (hname ▸ List.mem_map_of_mem hold) (Fields.get?_eq_none_iff.mp hfree)
  · exact hnew

/-- A record of another alias does not change what is found. -/
theorem findAlias_set_of_not (hfree : Fields.get? records name = none)
    (hnot : carries wanted document = .ok false) :
    findAlias wanted (recordFiles (Fields.set records name (some document))) =
      findAlias wanted (recordFiles records) := by
  rw [← filter_recordFiles_set hfree (some document)]
  symm
  apply findAlias_filter_of_not
  intro entry hentry hname
  exact ⟨document, mem_recordFiles_set hfree hentry hname, hnot⟩

/-- A record of the alias is found, or one of the same id is. -/
theorem findAlias_set_of_carries (hfree : Fields.get? records name = none) {found : Option Fields}
    (hfound : findAlias wanted (recordFiles records) = .ok found)
    (hid : ∀ existing, found = some existing → (Fields.get existing "id").pyStr = id)
    (hcarries : carries wanted document = .ok true)
    (hdocument : (Fields.get document "id").pyStr = id) :
    ∃ existing, findAlias wanted (recordFiles (Fields.set records name (some document))) =
      .ok (some existing) ∧ (Fields.get existing "id").pyStr = id := by
  rw [← filter_recordFiles_set hfree (some document)] at hfound
  apply findAlias_of_carries hfound hid
  · intro entry hentry hname
    exact ⟨document, mem_recordFiles_set hfree hentry hname, hcarries, hdocument⟩
  · refine ⟨(name, some document), ?_, rfl⟩
    rw [recordFiles, mem_sortedBy, Fields.set_of_not_mem _ (Fields.get?_eq_none_iff.mp hfree)]
    exact List.mem_append_right _ List.mem_cons_self

theorem resolveId_eq_ok_iff {generated : String} :
    resolveId records wanted generated = .ok id ↔
      ∃ found, findAlias wanted (recordFiles records) = .ok found ∧
        (found.elim generated fun existing => (Fields.get existing "id").pyStr) = id := by
  rw [resolveId]
  constructor
  · intro h
    obtain ⟨found, hfound, h⟩ := Py.bind_eq_ok_iff.mp h
    refine ⟨found, hfound, ?_⟩
    cases found with
    | none => exact Except.ok.inj h
    | some existing => exact Except.ok.inj h
  · rintro ⟨found, hfound, rfl⟩
    rw [hfound]
    cases found with
    | none => rfl
    | some existing => rfl

end Aliases

/-! ## The record of an entry -/

section Records

variable {unicode : Unicode} {repository target id now : String} {isDir : Bool}
  {placed : PlacedEntry} {records : Directory}

/-- A declaration has the id of its specification in its record. -/
theorem id_declarationHead {spec : Fields} {head : Declaration} {id : String}
    (hid : Fields.get? spec "id" = some (.str id)) (h : declarationHead now spec = .ok head) :
    head.id = id ∧ Fields.get head.record "id" = .str id := by
  unfold declarationHead at h
  obtain ⟨target, -, h⟩ := Py.bind_eq_ok_iff.mp h
  obtain ⟨_, -, h⟩ := Py.bind_eq_ok_iff.mp h
  obtain ⟨domain, -, h⟩ := Py.bind_eq_ok_iff.mp h
  obtain ⟨capability, -, h⟩ := Py.bind_eq_ok_iff.mp h
  obtain ⟨title, -, h⟩ := Py.bind_eq_ok_iff.mp h
  obtain ⟨summary, -, h⟩ := Py.bind_eq_ok_iff.mp h
  obtain ⟨required, -, h⟩ := Py.bind_eq_ok_iff.mp h
  obtain ⟨reproducer, -, h⟩ := Py.bind_eq_ok_iff.mp h
  obtain ⟨signature, -, h⟩ := Py.bind_eq_ok_iff.mp h
  obtain ⟨_, -, h⟩ := Py.bind_eq_ok_iff.mp h
  obtain ⟨repository, -, h⟩ := Py.bind_eq_ok_iff.mp h
  obtain ⟨_, -, h⟩ := Py.bind_eq_ok_iff.mp h
  obtain ⟨generated, -, h⟩ := Py.bind_eq_ok_iff.mp h
  obtain ⟨recordId, hrecordId, h⟩ := Py.bind_eq_ok_iff.mp h
  obtain rfl := Except.ok.inj h
  have hsame : recordId = id := by
    rw [declaredId, member, hid] at hrecordId
    obtain ⟨_, -, h⟩ := Py.bind_eq_ok_iff.mp hrecordId
    obtain ⟨_, -, h⟩ := Py.bind_eq_ok_iff.mp h
    exact (Except.ok.inj h).symm
  subst hsame
  refine ⟨rfl, ?_⟩
  dsimp only
  split
  · split
    · simp [Fields.get, Fields.get?_set, Fields.get?]
    · simp [Fields.get, Fields.get?_set, Fields.get?]
  · split
    · simp [Fields.get, Fields.get?_set, Fields.get?]
    · simp [Fields.get, Fields.get?]

/-- The record of an entry as it is stored: it has the id the entry was given, and its
one alias. -/
theorem record_of_entry {declaration : Declaration}
    (h : checkAddCall now (entrySpec unicode repository target isDir placed id) records =
      .ok declaration) :
    declaration.id = id ∧
      (Fields.get (Fields.sortKeys (withDigest declaration.record)) "id").pyStr = id ∧
      member (Fields.sortKeys (withDigest declaration.record)) "legacyIds" (.arr []) =
        .arr [.str (scopedAlias repository placed)] := by
  obtain ⟨head, hhead, h⟩ := Py.bind_eq_ok_iff.mp h
  obtain ⟨_, -, h⟩ := Py.bind_eq_ok_iff.mp h
  obtain ⟨record, hrecord, h⟩ := Py.bind_eq_ok_iff.mp h
  obtain rfl := Except.ok.inj h
  obtain ⟨aliases, haliases, hrecord⟩ := Py.bind_eq_ok_iff.mp hrecord
  obtain ⟨affected, -, hrecord⟩ := Py.bind_eq_ok_iff.mp hrecord
  obtain rfl := Except.ok.inj hrecord
  obtain ⟨hid, hget⟩ := id_declarationHead rfl hhead
  have haliases : aliases = [scopedAlias repository placed] := by
    obtain ⟨listed, hlisted, haliases⟩ := Py.bind_eq_ok_iff.mp haliases
    have hlist : listed = [.str (scopedAlias repository placed)] := (Except.ok.inj hlisted).symm
    subst hlist
    obtain ⟨_, -, haliases⟩ := Py.bind_eq_ok_iff.mp haliases
    exact (Except.ok.inj haliases).symm
  subst haliases
  refine ⟨hid, ?_, ?_⟩
  · rw [Fields.get_sortKeys]
    simp only [withDigest, Fields.get, Fields.get?_set]
    rw [Fields.get] at hget
    simp [hget]
  · rw [member, Fields.get?_sortKeys]
    simp [withDigest, Fields.get?_set]

/-- The record of an entry carries its alias and no other. -/
theorem carries_of_entry {document : Fields} (wanted : String)
    (h : member document "legacyIds" (.arr []) = .arr [.str (scopedAlias repository placed)]) :
    carries wanted document = .ok (decide (wanted = scopedAlias repository placed)) := by
  rw [carries, h, isIn, List.any_cons, List.any_nil, Bool.or_false]
  apply congrArg
  rw [Bool.eq_iff_iff, Json.pyEq_str_iff, decide_eq_true_iff, Json.str.injEq, eq_comm]

end Records

/-! ## What is imported -/

/-- How an imported entry is reported: its id, its local id and its source. -/
structure RowName where
  id : String
  legacyId : String
  source : String
  deriving DecidableEq

def ImportedRow.named (row : ImportedRow) : RowName := ⟨row.id, row.legacyId, row.source⟩

/-- Two rows that are about different local ids and different pressures. -/
def RowName.Apart (first second : RowName) : Prop :=
  first.legacyId ≠ second.legacyId ∧ first.id ≠ second.id

instance (first second : RowName) : Decidable (first.Apart second) :=
  inferInstanceAs (Decidable (_ ∧ _))

/-- A row is kept when it is apart from those that were kept. -/
def keepNew (rows : List RowName) (row : RowName) : List RowName :=
  if ∀ other ∈ rows, other.Apart row then rows ++ [row] else rows

theorem keepNew_of_new {rows : List RowName} {row : RowName} (h : ∀ other ∈ rows, other.Apart row) :
    keepNew rows row = rows ++ [row] :=
  if_pos h

theorem keepNew_of_clash {rows : List RowName} {row other : RowName} (hother : other ∈ rows)
    (hclash : ¬ other.Apart row) : keepNew rows row = rows :=
  if_neg fun hall => hclash (hall other hother)

/-! ## The registry that a run extends -/

section Runs

variable {unicode : Unicode} {host : Host} {now repository : String} {call : MigrateCall}
  {base : Directory} {registry : Registry} {real : Migration}

/-- The id of an entry that is not there yet. -/
def pendingId (unicode : Unicode) (repository target : String) (records : Directory)
    (placed : PlacedEntry) : Py (Option String) := do
  let generated ← generatedId unicode repository target placed
  let id ← resolveId records (scopedAlias repository placed) generated
  return if Fields.has records id then none else some id

/-- The row of an entry that is not there yet. -/
def pendingRow (unicode : Unicode) (repository : String) (call : MigrateCall)
    (records : Directory) (placed : PlacedEntry) : Option RowName :=
  match pendingId unicode repository call.target records placed with
  | .ok (some id) =>
      some ⟨id, placed.entry.legacyId, entrySource repository call.source.isDir placed⟩
  | _ => none

/-- The records after entries were imported into the base: each imported pressure is
there and found under its alias, and the other aliases are looked up as before. -/
structure Extends (repository : String) (base : Directory) (rows : List RowName)
    (records : Directory) : Prop where
  has : ∀ id, Fields.has records id = true ↔
    Fields.has base id = true ∨ ∃ row ∈ rows, row.id = id
  other : ∀ legacyId, (∀ row ∈ rows, row.legacyId ≠ legacyId) →
    findAlias (repository ++ ":" ++ legacyId) (recordFiles records) =
      findAlias (repository ++ ":" ++ legacyId) (recordFiles base)
  again : ∀ row ∈ rows,
    (∃ found, findAlias (repository ++ ":" ++ row.legacyId) (recordFiles base) = .ok found) ∧
      ∃ existing, findAlias (repository ++ ":" ++ row.legacyId) (recordFiles records) =
        .ok (some existing) ∧ Fields.has records (Fields.get existing "id").pyStr = true
  created : ∀ name document, Fields.get? records name = some (some document) →
    Fields.has base name = false → ∃ row ∈ rows, row.id = name ∧
      ∀ wanted, carries wanted document =
        .ok (decide (wanted = repository ++ ":" ++ row.legacyId))

theorem Extends.refl (repository : String) (base : Directory) : Extends repository base [] base :=
  ⟨by simp, fun _ _ => rfl, by simp, fun name document hget hfree => by simp [Fields.has, hget] at hfree⟩

/-- Local ids are told apart by their aliases. -/
theorem alias_inj {first second : String} :
    repository ++ ":" ++ first = repository ++ ":" ++ second ↔ first = second :=
  String.append_right_inj _

/-- Importing a pending entry extends the records. -/
theorem Extends.add {rows : List RowName} {records : Directory} {row : RowName}
    {document : Fields} {found : Option Fields} {generated : String}
    (h : Extends repository base rows records) (hnew : ∀ other ∈ rows, other.Apart row)
    (hfree : Fields.has records row.id = false)
    (hfound : findAlias (repository ++ ":" ++ row.legacyId) (recordFiles records) = .ok found)
    (hid : (found.elim generated fun existing => (Fields.get existing "id").pyStr) = row.id)
    (hdocument : (Fields.get document "id").pyStr = row.id)
    (hcarries : ∀ wanted, carries wanted document =
      .ok (decide (wanted = repository ++ ":" ++ row.legacyId))) :
    Extends repository base (rows ++ [row]) (Fields.set records row.id (some document)) := by
  have hnone : Fields.get? records row.id = none := by
    rw [Fields.has] at hfree
    simpa using hfree
  have hkept : ∀ id, Fields.has records id = true →
      Fields.has (Fields.set records row.id (some document)) id = true := by
    intro id hid
    rw [Fields.has, Fields.get?_set]
    split
    · rfl
    · exact hid
  have hsame : ∀ legacyId, row.legacyId ≠ legacyId →
      findAlias (repository ++ ":" ++ legacyId)
          (recordFiles (Fields.set records row.id (some document))) =
        findAlias (repository ++ ":" ++ legacyId) (recordFiles records) := by
    intro legacyId hne
    apply findAlias_set_of_not hnone
    rw [hcarries, decide_eq_false]
    intro heq
    exact hne (alias_inj.mp heq).symm
  constructor
  · intro id
    rw [Fields.has, Fields.get?_set]
    by_cases heq : row.id = id
    · simp [heq]
    · have hhas := h.has id
      rw [Fields.has] at hhas
      simp [heq, hhas]
  · intro legacyId hother
    rw [hsame legacyId (hother row (by simp))]
    exact h.other legacyId fun other hmem => hother other (List.mem_append_left _ hmem)
  · intro other hmem
    rcases List.mem_append.mp hmem with hmem | hmem
    · obtain ⟨hbase, existing, hexisting, hhas⟩ := h.again other hmem
      refine ⟨hbase, existing, ?_, hkept _ hhas⟩
      rw [hsame _ (hnew other hmem).1.symm, hexisting]
    · obtain rfl := List.mem_singleton.mp hmem
      refine ⟨⟨found, ?_⟩, ?_⟩
      · rw [← h.other other.legacyId fun row hrow => (hnew row hrow).1, hfound]
      · obtain ⟨existing, hexisting, hsame⟩ :=
          @findAlias_set_of_carries _ _ other.id _ _ hnone _ hfound
            (fun existing hsome => by rw [hsome] at hid; exact hid)
            (by rw [hcarries, decide_eq_true rfl]) hdocument
        refine ⟨existing, hexisting, ?_⟩
        rw [hsame, Fields.has, Fields.get?_set, if_pos rfl]
        rfl
  · intro name other hget hbase
    rw [Fields.get?_set] at hget
    split at hget
    case isTrue hname =>
      obtain rfl := Option.some.inj (Option.some.inj hget)
      exact ⟨row, by simp, hname, hcarries⟩
    case isFalse =>
      obtain ⟨found, hmem, hfound⟩ := h.created name other hget hbase
      exact ⟨found, List.mem_append_left _ hmem, hfound⟩

/-- An entry whose local id was imported is there. -/
theorem Extends.has_of_imported {rows : List RowName} {records : Directory} {row : RowName}
    {generated id : String} (h : Extends repository base rows records) (hrow : row ∈ rows)
    (hid : resolveId records (repository ++ ":" ++ row.legacyId) generated = .ok id) :
    Fields.has records id = true := by
  obtain ⟨-, existing, hexisting, hhas⟩ := h.again row hrow
  obtain ⟨found, hfound, rfl⟩ := resolveId_eq_ok_iff.mp hid
  rw [hexisting] at hfound
  obtain rfl := Except.ok.inj hfound
  exact hhas

theorem pendingRow_eq_some_iff {records : Directory} {placed : PlacedEntry} {row : RowName} :
    pendingRow unicode repository call records placed = some row ↔
      ∃ id, pendingId unicode repository call.target records placed = .ok (some id) ∧
        row = ⟨id, placed.entry.legacyId, entrySource repository call.source.isDir placed⟩ := by
  rw [pendingRow]
  split
  case h_1 id hid => simp [hid, eq_comm]
  case h_2 hnone =>
    apply iff_of_false (by simp)
    rintro ⟨id, hid, -⟩
    exact hnone id hid

/-! ## One entry -/

/-- A computation that returns is followed by the rest of the program. -/
theorem lift_bind_of_ok {σ ε α β : Type} {computation : Except ε α} {value : α}
    (h : computation = .ok value) (next : α → Program σ ε β) (state : σ) :
    (Program.lift computation >>= next) state = next value state := by
  subst h
  rfl

theorem result_lift_bind_eq_ok_iff {σ ε α β : Type} {computation : Except ε α}
    {next : α → Program σ ε β} {state : σ} {value : β} :
    ((Program.lift computation >>= next) state).result = .ok value ↔
      ∃ middle, computation = .ok middle ∧ (next middle state).result = .ok value := by
  rw [Program.bind_apply, Program.lift_apply, Run.andThen_result_eq_ok_iff]

theorem migrateEntry_of_lookups {done : Migrated} {placed : PlacedEntry} {generated id : String}
    (hgenerated : generatedId unicode repository call.target placed = .ok generated)
    (hid : resolveId registry.records (scopedAlias repository placed) generated = .ok id) :
    migrateEntry unicode host now repository call done placed registry =
      importEntry unicode host now repository call done placed registry.records id registry := by
  rw [migrateEntry, lift_bind_of_ok hgenerated]
  exact lift_bind_of_ok hid _ _

theorem pendingId_of_lookups {target : String} {records : Directory} {placed : PlacedEntry}
    {generated id : String} (hgenerated : generatedId unicode repository target placed = .ok generated)
    (hid : resolveId records (scopedAlias repository placed) generated = .ok id) :
    pendingId unicode repository target records placed =
      .ok (if Fields.has records id then none else some id) := by
  rw [pendingId, hgenerated]
  change (resolveId records (scopedAlias repository placed) generated >>= _) = _
  rw [hid]
  rfl

/-- A dry run lists an entry that is not there, and changes nothing. -/
theorem migrateEntry_dry (hdry : call.dryRun = true) {placed : PlacedEntry}
    (h : ∃ pending, pendingId unicode repository call.target registry.records placed = .ok pending)
    (done : Migrated) :
    (migrateEntry unicode host now repository call done placed registry).final = registry ∧
      ∃ after, (migrateEntry unicode host now repository call done placed registry).result =
          .ok after ∧
        after.imported.map ImportedRow.named = done.imported.map ImportedRow.named ++
          (pendingRow unicode repository call registry.records placed).toList := by
  obtain ⟨pending, hpending⟩ := h
  obtain ⟨generated, hgenerated, hrest⟩ := Py.bind_eq_ok_iff.mp hpending
  obtain ⟨id, hid, hrest⟩ := Py.bind_eq_ok_iff.mp hrest
  rw [migrateEntry_of_lookups hgenerated hid, pendingRow, pendingId_of_lookups hgenerated hid,
    importEntry]
  cases Fields.has registry.records id with
  | true => exact ⟨rfl, _, rfl, (List.append_nil _).symm⟩
  | false =>
      rw [if_neg Bool.false_ne_true, if_pos hdry]
      exact ⟨rfl, _, rfl, by simp [ImportedRow.named]⟩

/-- A run that imports an entry reports it, and extends the records with it. -/
theorem importEntry_real (hreal : call.dryRun = false) {placed : PlacedEntry} {generated id : String}
    {done after : Migrated}
    (hext : Extends repository base (done.imported.map ImportedRow.named) registry.records)
    (hid : resolveId registry.records (scopedAlias repository placed) generated = .ok id)
    (hfree : Fields.has registry.records id = false)
    (hnew : ∀ other ∈ done.imported.map ImportedRow.named, other.Apart
      ⟨id, placed.entry.legacyId, entrySource repository call.source.isDir placed⟩)
    (h : (importEntry unicode host now repository call done placed registry.records id
      registry).result = .ok after) :
    after.imported.map ImportedRow.named = done.imported.map ImportedRow.named ++
        [⟨id, placed.entry.legacyId, entrySource repository call.source.isDir placed⟩] ∧
      Extends repository base (after.imported.map ImportedRow.named)
        (importEntry unicode host now repository call done placed registry.records id
          registry).final.records := by
  rw [importEntry, hfree, if_neg Bool.false_ne_true, hreal, if_neg Bool.false_ne_true,
    Program.bind_apply] at h ⊢
  obtain ⟨⟨declaration, observation⟩, hadd, hafter⟩ := Run.andThen_result_eq_ok_iff.mp h
  obtain rfl := Except.ok.inj hafter
  rw [Run.andThen_of_ok hadd]
  have hmap : (done.imported ++ [ImportedRow.mk id placed.entry.legacyId
      (entrySource repository call.source.isDir placed) (some (Fields.get observation "id"))
      call.target]).map ImportedRow.named = done.imported.map ImportedRow.named ++
        [⟨id, placed.entry.legacyId, entrySource repository call.source.isDir placed⟩] := by
    rw [List.map_append]
    rfl
  refine ⟨hmap, ?_⟩
  dsimp only
  rw [hmap]
  rcases add_cases host now
      (entrySpec unicode repository call.target call.source.isDir placed id) registry with
    ⟨-, error, herror⟩ | ⟨declared, _, hcheck, -, -, hrecords⟩
  · rw [hadd] at herror
    cases herror
  · obtain ⟨hdeclared, hdocument, haliases⟩ := record_of_entry hcheck
    obtain ⟨found, hfound, hresolved⟩ := resolveId_eq_ok_iff.mp hid
    have hrun : Extends repository base (done.imported.map ImportedRow.named ++
        [⟨id, placed.entry.legacyId, entrySource repository call.source.isDir placed⟩])
        (Fields.set registry.records id (some (withDigest declared.record).sortKeys)) :=
      Extends.add hext hnew hfree hfound hresolved hdocument
        fun wanted => carries_of_entry wanted haliases
    rw [hdeclared] at hrecords
    rw [← hrecords] at hrun
    exact hrun

/-- A run imports an entry that is not there when its row is apart from those that were
imported, and skips it otherwise. -/
theorem migrateEntry_real (hreal : call.dryRun = false) {placed : PlacedEntry}
    {done after : Migrated}
    (hext : Extends repository base (done.imported.map ImportedRow.named) registry.records)
    (h : (migrateEntry unicode host now repository call done placed registry).result = .ok after) :
    (∃ pending, pendingId unicode repository call.target base placed = .ok pending) ∧
      after.imported.map ImportedRow.named =
        (pendingRow unicode repository call base placed).toList.foldl keepNew
          (done.imported.map ImportedRow.named) ∧
      Extends repository base (after.imported.map ImportedRow.named)
        (migrateEntry unicode host now repository call done placed registry).final.records := by
  have hlookups := h
  rw [migrateEntry] at hlookups
  obtain ⟨generated, hgenerated, hlookups⟩ := result_lift_bind_eq_ok_iff.mp hlookups
  rw [Program.bind_apply, Program.get_apply, Run.andThen_ok] at hlookups
  obtain ⟨id, hid, -⟩ := result_lift_bind_eq_ok_iff.mp hlookups
  rw [migrateEntry_of_lookups hgenerated hid] at h ⊢
  set rows := done.imported.map ImportedRow.named
  by_cases himported : ∃ row ∈ rows, row.legacyId = placed.entry.legacyId
  · -- the local id was imported: the entry is there, whatever the base said
    obtain ⟨row, hrow, hlegacy⟩ := himported
    have hhas : Fields.has registry.records id = true :=
      hext.has_of_imported hrow (by rw [hlegacy]; exact hid)
    rw [importEntry, hhas, if_pos rfl] at h ⊢
    obtain rfl := Except.ok.inj h
    obtain ⟨⟨found, hfound⟩, -⟩ := hext.again row hrow
    rw [hlegacy] at hfound
    have hbase : resolveId base (scopedAlias repository placed) generated =
        .ok (found.elim generated fun existing => (Fields.get existing "id").pyStr) :=
      resolveId_eq_ok_iff.mpr ⟨found, hfound, rfl⟩
    refine ⟨⟨_, pendingId_of_lookups hgenerated hbase⟩, ?_, hext⟩
    rw [pendingRow, pendingId_of_lookups hgenerated hbase]
    split
    · exact (keepNew_of_clash hrow fun hapart => hapart.1 hlegacy).symm
    · rfl
  · push Not at himported
    have hother := hext.other placed.entry.legacyId himported
    have hbase : resolveId base (scopedAlias repository placed) generated = .ok id := by
      rw [resolveId_eq_ok_iff] at hid ⊢
      rw [scopedAlias] at hid ⊢
      rwa [← hother]
    refine ⟨⟨_, pendingId_of_lookups hgenerated hbase⟩, ?_⟩
    rw [pendingRow, pendingId_of_lookups hgenerated hbase]
    cases hhas : Fields.has registry.records id with
    | true =>
        rw [importEntry, hhas, if_pos rfl] at h ⊢
        obtain rfl := Except.ok.inj h
        refine ⟨?_, hext⟩
        cases hstored : Fields.has base id with
        | true => rfl
        | false =>
            obtain ⟨row, hrow, heq⟩ := ((hext.has id).mp hhas).resolve_left (by simp [hstored])
            exact (keepNew_of_clash hrow fun hapart => hapart.2 heq).symm
    | false =>
        have hstored : Fields.has base id = false := by
          rw [← Bool.not_eq_true] at hhas ⊢
          exact fun hbase => hhas ((hext.has id).mpr (.inl hbase))
        have hnew : ∀ other ∈ rows, other.Apart
            ⟨id, placed.entry.legacyId, entrySource repository call.source.isDir placed⟩ := by
          intro other hmem
          refine ⟨himported other hmem, fun heq => ?_⟩
          rw [(hext.has id).mpr (.inr ⟨other, hmem, heq⟩)] at hhas
          cases hhas
        obtain ⟨hmap, hlast⟩ := importEntry_real hreal hext hid hhas hnew h
        rw [hstored, if_neg Bool.false_ne_true]
        exact ⟨hmap.trans (keepNew_of_new hnew).symm, hlast⟩

/-! ## A whole run -/

theorem migrateEntries_dry (hdry : call.dryRun = true) {entries : List PlacedEntry}
    (h : ∀ placed ∈ entries, ∃ pending,
      pendingId unicode repository call.target registry.records placed = .ok pending)
    (done : Migrated) :
    (migrateEntries unicode host now repository call entries done registry).final = registry ∧
      ∃ after, (migrateEntries unicode host now repository call entries done registry).result =
          .ok after ∧
        after.imported.map ImportedRow.named = done.imported.map ImportedRow.named ++
          entries.filterMap (pendingRow unicode repository call registry.records) := by
  induction entries generalizing done with
  | nil => exact ⟨rfl, done, rfl, (List.append_nil _).symm⟩
  | cons placed entries ih =>
      obtain ⟨hfinal, middle, hmiddle, himported⟩ := @migrateEntry_dry unicode host now repository
        call registry hdry placed (h placed List.mem_cons_self) done
      obtain ⟨hlast, after, hafter, hrest⟩ :=
        ih (fun placed hplaced => h placed (List.mem_cons_of_mem _ hplaced)) middle
      rw [migrateEntries, Program.bind_apply, Run.andThen_of_ok hmiddle, hfinal]
      refine ⟨hlast, after, hafter, ?_⟩
      rw [hrest, himported, List.append_assoc, List.filterMap_cons]
      cases pendingRow unicode repository call registry.records placed <;> rfl

theorem migrateEntries_real (hreal : call.dryRun = false) {entries : List PlacedEntry}
    {done after : Migrated}
    (hext : Extends repository base (done.imported.map ImportedRow.named) registry.records)
    (h : (migrateEntries unicode host now repository call entries done registry).result =
      .ok after) :
    (∀ placed ∈ entries, ∃ pending,
      pendingId unicode repository call.target base placed = .ok pending) ∧
      after.imported.map ImportedRow.named =
        (entries.filterMap (pendingRow unicode repository call base)).foldl keepNew
          (done.imported.map ImportedRow.named) ∧
      Extends repository base (after.imported.map ImportedRow.named)
        (migrateEntries unicode host now repository call entries done registry).final.records := by
  induction entries generalizing done registry with
  | nil =>
      obtain rfl := Except.ok.inj h
      exact ⟨by simp, rfl, hext⟩
  | cons placed entries ih =>
      rw [migrateEntries, Program.bind_apply] at h ⊢
      obtain ⟨middle, hmiddle, hafter⟩ := Run.andThen_result_eq_ok_iff.mp h
      obtain ⟨hpending, himported, hstep⟩ := migrateEntry_real hreal hext hmiddle
      obtain ⟨hall, hrest, hlast⟩ := ih hstep hafter
      rw [Run.andThen_of_ok hmiddle]
      refine ⟨List.forall_mem_cons.mpr ⟨hpending, hall⟩, ?_, hlast⟩
      rw [hrest, himported, List.filterMap_cons]
      cases pendingRow unicode repository call base placed <;> rfl

/-- A file that is read adds its entries, and a file without entries adds none. -/
theorem migrateFile_of_read {file : SourceFile} {text : Text} (h : file.read = .ok text)
    (done : Migrated) :
    migrateFile unicode host now repository call done file registry =
      if (fileEntries unicode file).isEmpty then
        ⟨[], registry, .ok { done with skipped := done.skipped ++ ["ignored:" ++ file.name] }⟩
      else
        migrateEntries unicode host now repository call (fileEntries unicode file) done registry := by
  rw [migrateFile, lift_bind_of_ok h, fileEntries, h]
  dsimp only
  split
  · rfl
  · rfl

theorem migrateFile_dry (hdry : call.dryRun = true) {file : SourceFile} {text : Text}
    (hread : file.read = .ok text)
    (h : ∀ placed ∈ fileEntries unicode file, ∃ pending,
      pendingId unicode repository call.target registry.records placed = .ok pending)
    (done : Migrated) :
    (migrateFile unicode host now repository call done file registry).final = registry ∧
      ∃ after, (migrateFile unicode host now repository call done file registry).result =
          .ok after ∧
        after.imported.map ImportedRow.named = done.imported.map ImportedRow.named ++
          (fileEntries unicode file).filterMap
            (pendingRow unicode repository call registry.records) := by
  rw [migrateFile_of_read hread]
  split
  case isTrue hempty =>
    rw [List.isEmpty_iff.mp hempty]
    exact ⟨rfl, _, rfl, (List.append_nil _).symm⟩
  case isFalse => exact migrateEntries_dry hdry h done

theorem migrateFile_real (hreal : call.dryRun = false) {file : SourceFile}
    {done after : Migrated}
    (hext : Extends repository base (done.imported.map ImportedRow.named) registry.records)
    (h : (migrateFile unicode host now repository call done file registry).result = .ok after) :
    (∃ text, file.read = .ok text) ∧
      (∀ placed ∈ fileEntries unicode file, ∃ pending,
        pendingId unicode repository call.target base placed = .ok pending) ∧
      after.imported.map ImportedRow.named =
        ((fileEntries unicode file).filterMap (pendingRow unicode repository call base)).foldl
          keepNew (done.imported.map ImportedRow.named) ∧
      Extends repository base (after.imported.map ImportedRow.named)
        (migrateFile unicode host now repository call done file registry).final.records := by
  obtain ⟨text, hread, -⟩ := result_lift_bind_eq_ok_iff.mp h
  rw [migrateFile_of_read hread] at h ⊢
  split at h
  case isTrue hempty =>
    obtain rfl := Except.ok.inj h
    rw [if_pos hempty, List.isEmpty_iff.mp hempty]
    exact ⟨⟨text, hread⟩, by simp, rfl, hext⟩
  case isFalse hentries =>
    rw [if_neg hentries]
    exact ⟨⟨text, hread⟩, migrateEntries_real hreal hext h⟩

theorem migrateFiles_dry (hdry : call.dryRun = true) {files : List SourceFile}
    (hread : ∀ file ∈ files, ∃ text, file.read = .ok text)
    (h : ∀ placed ∈ sourceEntries unicode files, ∃ pending,
      pendingId unicode repository call.target registry.records placed = .ok pending)
    (done : Migrated) :
    (migrateFiles unicode host now repository call files done registry).final = registry ∧
      ∃ after, (migrateFiles unicode host now repository call files done registry).result =
          .ok after ∧
        after.imported.map ImportedRow.named = done.imported.map ImportedRow.named ++
          (sourceEntries unicode files).filterMap
            (pendingRow unicode repository call registry.records) := by
  induction files generalizing done with
  | nil => exact ⟨rfl, done, rfl, (List.append_nil _).symm⟩
  | cons file files ih =>
      obtain ⟨text, htext⟩ := hread file List.mem_cons_self
      rw [sourceEntries, List.flatMap_cons, List.forall_mem_append] at h
      obtain ⟨hfinal, middle, hmiddle, himported⟩ := @migrateFile_dry unicode host now repository
        call registry hdry file text htext h.1 done
      obtain ⟨hlast, after, hafter, hrows⟩ :=
        ih (fun file hfile => hread file (List.mem_cons_of_mem _ hfile)) h.2 middle
      rw [migrateFiles, Program.bind_apply, Run.andThen_of_ok hmiddle, hfinal]
      refine ⟨hlast, after, hafter, ?_⟩
      rw [hrows, himported, List.append_assoc, sourceEntries, sourceEntries, List.flatMap_cons,
        List.filterMap_append]

theorem migrateFiles_real (hreal : call.dryRun = false) {files : List SourceFile}
    {done after : Migrated}
    (hext : Extends repository base (done.imported.map ImportedRow.named) registry.records)
    (h : (migrateFiles unicode host now repository call files done registry).result = .ok after) :
    (∀ file ∈ files, ∃ text, file.read = .ok text) ∧
      (∀ placed ∈ sourceEntries unicode files, ∃ pending,
        pendingId unicode repository call.target base placed = .ok pending) ∧
      after.imported.map ImportedRow.named =
        ((sourceEntries unicode files).filterMap (pendingRow unicode repository call base)).foldl
          keepNew (done.imported.map ImportedRow.named) ∧
      Extends repository base (after.imported.map ImportedRow.named)
        (migrateFiles unicode host now repository call files done registry).final.records := by
  induction files generalizing done registry with
  | nil =>
      obtain rfl := Except.ok.inj h
      exact ⟨by simp, by simp [sourceEntries], rfl, hext⟩
  | cons file files ih =>
      rw [migrateFiles, Program.bind_apply] at h ⊢
      obtain ⟨middle, hmiddle, hafter⟩ := Run.andThen_result_eq_ok_iff.mp h
      obtain ⟨hfile, hfirst, himported, hstep⟩ := migrateFile_real hreal hext hmiddle
      obtain ⟨hread, hall, hrows, hlast⟩ := ih hstep hafter
      rw [himported] at hrows
      rw [Run.andThen_of_ok hmiddle, sourceEntries, List.flatMap_cons, List.forall_mem_append,
        List.filterMap_append, List.foldl_append]
      exact ⟨List.forall_mem_cons.mpr ⟨hfile, hread⟩, ⟨hfirst, hall⟩, hrows, hlast⟩

/-! ## A migration -/

/-- A migration whose arguments are fine goes through the files. -/
theorem migrateLegacy_of_checks {value : Unit}
    (hrepository : requireRepository call.repository "repository" = .ok repository)
    (htarget : raiseIf (!targets.contains call.target)
      (.valueError ("target must be one of " ++
        String.ofList (reprValue (.arr ((sortedBy id targets).map .str))))) = .ok value) :
    migrateLegacy unicode host now call registry =
      (migrateFiles unicode host now repository call (call.source.markdown call.limit) ⟨[], []⟩
        registry).andThen fun done => pure
          ⟨repository, call.source.root, call.target, call.dryRun, call.refresh, done.imported,
            done.skipped⟩ := by
  rw [migrateLegacy]
  exact (lift_bind_of_ok hrepository _ _).trans (lift_bind_of_ok htarget _ _)

/-- A run that completes has looked up every entry, and imports the pending ones that
are new. -/
theorem rows_of_real
    (hrepository : requireRepository call.repository "repository" = .ok repository)
    (hreal : (migrateLegacy unicode host now (call.withDryRun false) registry).result =
      .ok real) :
    (∀ file ∈ call.source.markdown call.limit, ∃ text, file.read = .ok text) ∧
      (∀ placed ∈ sourceEntries unicode (call.source.markdown call.limit), ∃ pending,
        pendingId unicode repository call.target registry.records placed = .ok pending) ∧
      real.imported.map ImportedRow.named =
        ((sourceEntries unicode (call.source.markdown call.limit)).filterMap
          (pendingRow unicode repository call registry.records)).foldl keepNew [] ∧
      Extends repository registry.records (real.imported.map ImportedRow.named)
        (migrateLegacy unicode host now (call.withDryRun false) registry).final.records ∧
      targets.contains call.target = true := by
  have hchecks := hreal
  obtain ⟨known, hknown, hchecks⟩ := result_lift_bind_eq_ok_iff.mp hchecks
  obtain ⟨_, htarget, -⟩ := result_lift_bind_eq_ok_iff.mp hchecks
  rw [@migrateLegacy_of_checks unicode host now repository (call.withDryRun false) registry _
    hrepository htarget] at hreal ⊢
  obtain ⟨done, hdone, h⟩ := Run.andThen_result_eq_ok_iff.mp hreal
  obtain rfl := Except.ok.inj h
  have hstart : Extends repository registry.records
      ((⟨[], []⟩ : Migrated).imported.map ImportedRow.named) registry.records :=
    Extends.refl repository registry.records
  obtain ⟨hread, hall, hrows, hext⟩ := migrateFiles_real rfl hstart hdone
  rw [Run.andThen_of_ok hdone]
  refine ⟨hread, hall, hrows, hext, ?_⟩
  have hknownTarget := raiseIf_eq_ok_iff.mp htarget
  rwa [Bool.not_eq_false'] at hknownTarget

/-- The dry run of a run that completes lists every entry that is not there. -/
theorem rows_of_dry
    (hrepository : requireRepository call.repository "repository" = .ok repository)
    (hreal : (migrateLegacy unicode host now (call.withDryRun false) registry).result =
      .ok real) :
    (migrateLegacy unicode host now (call.withDryRun true) registry).final = registry ∧
      ∃ dry, (migrateLegacy unicode host now (call.withDryRun true) registry).result =
          .ok dry ∧
        dry.imported.map ImportedRow.named =
          (sourceEntries unicode (call.source.markdown call.limit)).filterMap
            (pendingRow unicode repository call registry.records) := by
  obtain ⟨hread, hall, -, -, htarget⟩ := rows_of_real hrepository hreal
  obtain ⟨hfinal, after, hafter, hlisted⟩ := @migrateFiles_dry unicode host now repository
    (call.withDryRun true) registry rfl
    ((call.withDryRun true).source.markdown (call.withDryRun true).limit) hread hall ⟨[], []⟩
  have hdry := @migrateLegacy_of_checks unicode host now repository (call.withDryRun true) registry
    () hrepository (raiseIf_eq_ok_iff.mpr (by rw [Bool.not_eq_false']; exact htarget))
  rw [hdry, Run.andThen_of_ok hafter, hfinal]
  exact ⟨rfl, _, rfl, hlisted⟩

end Runs

end MncsCommons.Pressure
