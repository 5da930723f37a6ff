/-
# Importing legacy ledgers

`migrate_legacy` goes through the Markdown files of a tree and declares a pressure
for every entry that is not there yet.  An entry is there when the registry has a
record of its id: the id of the first record, in the order of the file names, that
carries the entry's scoped alias, or else the id derived from what the entry says.
A dry run lists what it would declare and writes nothing, so it looks every entry up
in the registry as it was.
-/

import MncsCommons.Pressure.Markdown
import MncsCommons.Pressure.Effects

namespace MncsCommons.Pressure

open MncsCommons.Data MncsCommons.Protocol MncsCommons.Exec

/-! ## The source -/

/-- A file of the source: the parts of its path, and its text when it can be read. -/
structure SourceFile where
  parts : List String
  text : Option Text

/-- What `source` names: a directory with the files below it, or one file. -/
structure Source where
  root : String
  isDir : Bool
  files : List SourceFile

/-- `path.name`. -/
def SourceFile.name (file : SourceFile) : String := file.parts.getLast?.getD ""

/-- `str(path)` relative to the source. -/
def SourceFile.path (file : SourceFile) : String := Str.join "/" file.parts

/-- `files[:limit]`. -/
def takeLimit {α : Type} (limit : Option Int) (items : List α) : List α :=
  match limit with
  | none => items
  | some n => items.take (if 0 ≤ n then n else items.length + n).toNat

/-- The files that are imported, in order. -/
def Source.markdown (source : Source) (limit : Option Int) : List SourceFile :=
  takeLimit limit (if source.isDir then
    sortedBy SourceFile.parts (source.files.filter fun file => Str.endsWith file.name ".md")
  else source.files)

/-! ## The registry -/

/-- `item in value`. -/
def isIn (item : String) (value : Json) : Py Bool :=
  match value with
  | .arr items => .ok (items.any fun entry => entry.pyEq (.str item))
  | .str text => .ok (containsText text.toList item.toList)
  | .obj fields => .ok (Fields.has fields item)
  | _ => .error (.typeError ("argument of type '" ++ typeName value ++ "' is not iterable"))

/-- The first record that carries the alias. -/
def findAlias (wanted : String) : List (String × Option Fields) → Py (Option Fields)
  | [] => .ok none
  | (name, none) :: _ => .error (.valueError ("cannot read " ++ name ++ ".json"))
  | (_, some existing) :: files => do
      if ← isIn wanted (member existing "legacyIds" (.arr [])) then return some existing
      else findAlias wanted files

/-- `_files` of the records. -/
def recordFiles (records : Directory) : List (String × Option Fields) :=
  sortedBy (fun entry => entry.1 ++ ".json") records

/-- The id an entry is stored under: the one of the record that carries its alias, or
the derived one. -/
def resolveId (records : Directory) (wanted generated : String) : Py String := do
  match ← findAlias wanted (recordFiles records) with
  | some existing => return (Fields.get existing "id").pyStr
  | none => return generated

/-! ## The specification of an entry -/

/-- What `migrate_legacy` is told. -/
structure MigrateCall where
  repository : Json
  source : Source
  target : String
  dryRun : Bool
  limit : Option Int
  refresh : Bool

/-- The call as a dry run, or as a run. -/
def MigrateCall.withDryRun (call : MigrateCall) (dryRun : Bool) : MigrateCall :=
  { call with dryRun := dryRun }

/-- An entry of a file with its place: the file, its text, its number in it and how
many entries there are. -/
structure PlacedEntry where
  file : SourceFile
  text : Text
  index : Nat
  count : Nat
  entry : LegacyEntry

/-- The first of the texts that is not empty. -/
def firstText (texts : List Text) : Text := (texts.find? (· ≠ [])).getD []

def jsonText (text : Text) : Json := .str (String.ofList text)

section Entry

variable (unicode : Unicode) (repository target : String) (isDir : Bool) (placed : PlacedEntry)

/-- `<repository>:<legacyId>`. -/
def scopedAlias : String := repository ++ ":" ++ placed.entry.legacyId

/-- `legacy:<repository>:<legacyId>`. -/
def identitySignature : String := "legacy:" ++ repository ++ ":" ++ placed.entry.legacyId

def entryDomain : String := legacyDomain unicode placed.entry.title placed.file.name

def entryCapability : String := legacyCapability unicode placed.entry.legacyId

/-- The id derived from what the entry says. -/
def generatedId : Py String :=
  pressureId target (entryDomain unicode placed) (entryCapability unicode placed)
    (identitySignature repository placed)

/-- The path of the file in the source, scoped by the repository. -/
def entrySource : String :=
  repository ++ ":" ++ if isDir then placed.file.path else placed.file.name

def entryReproducer : Text :=
  let text := placed.entry.text
  let sections := loadLegacySections unicode text
  firstText [sectionText sections "minimal reproducer", sectionText sections "reproducer",
    legacyLabeled unicode text "Minimal reproducer"]

def entryRequired : Text :=
  let text := placed.entry.text
  let sections := loadLegacySections unicode text
  firstText [sectionText sections "required semantics", sectionText sections "desired behavior",
    sectionText sections "desired semantics",
    sectionText sections "what the language/stdlib/runtime/compiler should ideally provide",
    legacyLabeled unicode text "Required semantics", legacyLabeled unicode text "Desired behavior",
    legacyLabeled unicode text "What the language/stdlib/runtime/compiler should ideally provide",
    "Legacy pressure imported; required behavior requires confirmation.".toList]

def entryWorkaround : Text :=
  let text := placed.entry.text
  let sections := loadLegacySections unicode text
  firstText [sectionText sections "workaround used", sectionText sections "current workaround",
    legacyLabeled unicode text "Workaround used", legacyLabeled unicode text "Current workaround"]

/-- `_legacy_status` as it is stored. -/
def entryStatus : Json :=
  match legacyStatus unicode placed.entry.text with
  | some status => jsonText status
  | none => .null

/-- The fallback language as a member, when there is one. -/
def entryFallback : Fields :=
  match legacyFallbackLanguage unicode placed.entry.text with
  | some language => [("fallbackLanguage", .str language)]
  | none => []

/-- The snapshot of the source that is kept with the record. -/
def entrySnapshot : Fields :=
  let kept := if 1 < placed.count then placed.entry.text else placed.text
  [("repository", .str repository), ("legacyId", .str placed.entry.legacyId),
    ("sourcePath", .str (entrySource repository isDir placed)),
    ("historicalStatus", entryStatus unicode placed), ("sourceText", jsonText kept),
    ("sourceDigest", .str (digestOfText kept))] ++
    if 1 < placed.count then
      [("sourceLedgerPath", .str (entrySource repository isDir placed)),
        ("sourceLedgerDigest", .str (digestOfText placed.text))]
    else []

/-- The reference to the source. -/
def entryReference : Json :=
  .obj [("path", .str (entrySource repository isDir placed)), ("kind", .str "legacy-markdown")]

/-- The first observation of an imported pressure. -/
def entryObservation : Fields :=
  let source := entrySource repository isDir placed
  [("repository", .str repository), ("observedAt", .null),
    ("sourceRef", entryReference repository isDir placed),
    ("summary", .str ("Legacy Markdown preserved verbatim; current lifecycle " ++
      "awaits Commons confirmation.")),
    ("reproduction", .obj [("status", .str "UNKNOWN"),
      ("instructions", jsonText ((entryReproducer unicode placed).take 4000))]),
    ("evidence", .arr [.obj [("id", .str (identitySignature repository placed)),
      ("kind", .str "legacy-markdown"), ("status", .str "UNKNOWN"), ("ref", .str source),
      ("summary", .str ("Original pressure wording and evidence are preserved " ++
        "in the legacy snapshot."))]]),
    ("workaround", .obj ([("description", jsonText ((entryWorkaround unicode placed).take 4000)),
      ("active", .bool true), ("legacyStatus", entryStatus unicode placed)] ++
        entryFallback unicode placed)),
    ("metadata", .obj [("legacyId", .str placed.entry.legacyId), ("sourceEntry", .int placed.index),
      ("sourceLedgerDigest", .str (digestOfText placed.text))])]

/-- The specification that `add` gets. -/
def entrySpec (id : String) : Fields :=
  let signature := identitySignature repository placed
  [("id", .str id), ("allowCustomId", .bool true), ("target", .str target),
    ("domain", .str (entryDomain unicode placed)),
    ("capability", .str (entryCapability unicode placed)), ("reproducerSignature", .str signature),
    ("title", .str placed.entry.title),
    ("severity", .str (legacySeverity unicode placed.entry.text)),
    ("discoveredBy", .str repository), ("discoveredAt", .null),
    ("summary", .str ("Imported legacy pressure " ++ placed.entry.legacyId ++ ": " ++
      placed.entry.title ++ ".")),
    ("requiredBehavior", jsonText ((entryRequired unicode placed).take 4000)),
    ("reproducer", .obj [("signature", .str signature),
      ("text", jsonText ((entryReproducer unicode placed).take 4000))]),
    ("legacyIds", .arr [.str (scopedAlias repository placed)]),
    ("sourceRef", entryReference repository isDir placed),
    ("signals", .obj (("migration", .str "legacy-markdown") :: entryFallback unicode placed)),
    ("legacy", .obj (entrySnapshot unicode repository isDir placed)),
    ("observation", .obj (entryObservation unicode repository isDir placed))]

end Entry

/-! ## The import -/

/-- A row of what was imported, or would be. -/
structure ImportedRow where
  id : String
  legacyId : String
  source : String
  observation : Option Json
  target : String
  deriving DecidableEq

/-- What a migration has done so far. -/
structure Migrated where
  imported : List ImportedRow
  skipped : List String

/-- Skip the entry of an id that is there, and import any other. -/
def importEntry (unicode : Unicode) (host : Host) (now repository : String) (call : MigrateCall)
    (done : Migrated) (placed : PlacedEntry) (records : Directory) (id : String) : Op Migrated :=
  let source := entrySource repository call.source.isDir placed
  if Fields.has records id then
    return { done with skipped := done.skipped ++
      [id ++ " (already imported; refresh never rewrites append-only history)"] }
  else if call.dryRun then
    return { done with imported := done.imported ++
      [⟨id, placed.entry.legacyId, source, none, call.target⟩] }
  else do
    let (_, observation) ← add host now
      (entrySpec unicode repository call.target call.source.isDir placed id)
    return { done with imported := done.imported ++
      [⟨id, placed.entry.legacyId, source, some (Fields.get observation "id"), call.target⟩] }

/-- One entry. -/
def migrateEntry (unicode : Unicode) (host : Host) (now repository : String) (call : MigrateCall)
    (done : Migrated) (placed : PlacedEntry) : Op Migrated := do
  let generated ← .lift (generatedId unicode repository call.target placed)
  let registry ← Program.get
  let id ← .lift (resolveId registry.records (scopedAlias repository placed) generated)
  importEntry unicode host now repository call done placed registry.records id

/-- The entries in order. -/
def migrateEntries (unicode : Unicode) (host : Host) (now repository : String)
    (call : MigrateCall) : List PlacedEntry → Migrated → Op Migrated
  | [], done => return done
  | placed :: entries, done => do
      let done ← migrateEntry unicode host now repository call done placed
      migrateEntries unicode host now repository call entries done

/-- The entries of a file with their places. -/
def placedEntries (unicode : Unicode) (file : SourceFile) (text : Text) : List PlacedEntry :=
  let entries := legacyEntries unicode text
  entries.mapIdx fun index entry => ⟨file, text, index, entries.length, entry⟩

/-- `path.read_text`. -/
def SourceFile.read (file : SourceFile) : Py Text :=
  match file.text with
  | some text => .ok text
  | none => .error (.osError ("cannot read " ++ file.path))

/-- One file. -/
def migrateFile (unicode : Unicode) (host : Host) (now repository : String) (call : MigrateCall)
    (done : Migrated) (file : SourceFile) : Op Migrated := do
  let text ← .lift file.read
  let entries := placedEntries unicode file text
  if entries.isEmpty then
    return { done with skipped := done.skipped ++ ["ignored:" ++ file.name] }
  else migrateEntries unicode host now repository call entries done

/-- The files in order. -/
def migrateFiles (unicode : Unicode) (host : Host) (now repository : String)
    (call : MigrateCall) : List SourceFile → Migrated → Op Migrated
  | [], done => return done
  | file :: files, done => do
      let done ← migrateFile unicode host now repository call done file
      migrateFiles unicode host now repository call files done

/-- The entries of a file that can be read. -/
def fileEntries (unicode : Unicode) (file : SourceFile) : List PlacedEntry :=
  match file.read with
  | .ok text => placedEntries unicode file text
  | .error _ => []

/-- The entries of the files, in order. -/
def sourceEntries (unicode : Unicode) (files : List SourceFile) : List PlacedEntry :=
  files.flatMap (fileEntries unicode)

/-- What `migrate_legacy` returns. -/
structure Migration where
  repository : String
  source : String
  target : String
  dryRun : Bool
  refresh : Bool
  imported : List ImportedRow
  skipped : List String

/-- `migrate_legacy`. -/
def migrateLegacy (unicode : Unicode) (host : Host) (now : String) (call : MigrateCall) :
    Op Migration := do
  let repository ← .lift (requireRepository call.repository "repository")
  .lift (raiseIf (!targets.contains call.target)
    (.valueError ("target must be one of " ++
      String.ofList (reprValue (.arr ((sortedBy id targets).map .str))))))
  let done ← migrateFiles unicode host now repository call
    (call.source.markdown call.limit) ⟨[], []⟩
  return ⟨repository, call.source.root, call.target, call.dryRun, call.refresh, done.imported,
    done.skipped⟩

end MncsCommons.Pressure
