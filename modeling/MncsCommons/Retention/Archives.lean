/-
# Cold archives

An archive is a compressed tar file of a ledger with the content of its records and
events, beside a manifest that names the bundle by its digest.  A store keeps its
archives by year and week under the identity of the manifest.

How tar and zstd write bytes is outside the development: a `Packing` is any pair of
them that loses nothing.
-/

import MncsCommons.Store.Sync
import MncsCommons.Store.Services
import MncsCommons.Data.DateTime

namespace MncsCommons.Retention

open MncsCommons.Data MncsCommons.Protocol MncsCommons.Exec MncsCommons.Store

def archiveSchema : String := "commons.mncs.dev/archive-manifest/v0alpha1"

/-! ## Bundles -/

/-- A member of a tar file. -/
structure TarMember where
  name : String
  isFile : Bool
  data : Text

/-- A relative name of letters, digits, dots and slashes. -/
def isPlainName (name : String) : Bool :=
  name ≠ "" && name.toList.all (fun c => c.isAlphanum || c = '.' || c = '/') &&
    !Str.startsWith name "/" && !Str.endsWith name "/"

/-- tar and zstd. -/
structure Packing where
  /-- Write regular files, in order. -/
  tar : List (String × Text) → ByteArray
  /-- Read the members back. -/
  getMembers : ByteArray → Py (List TarMember)
  getMembers_tar : ∀ files, (files.all fun file => isPlainName file.1) = true →
    getMembers (tar files) = .ok (files.map fun file => ⟨file.1, true, file.2⟩)
  compress : ByteArray → ByteArray
  decompress : ByteArray → Py ByteArray
  decompress_compress : ∀ data, decompress (compress data) = .ok data

/-- The digest of the bytes of a bundle. -/
def bundleDigest (bundle : ByteArray) : String :=
  "sha256:" ++ String.ofList (sha256HexBytes (bundle.toList.map UInt8.toNat))

/-- `_bundle_bytes`. -/
def bundleBytes (packing : Packing) (members : Dir) : ByteArray :=
  packing.compress (packing.tar (sortedBy Prod.fst members))

/-- Whether two dots follow each other in a name. -/
def hasDotDot (name : String) : Bool := decide (['.', '.'] <:+: name.toList)

/-- Put members into a dictionary. -/
def collectMembers (read : Dir) : List TarMember → Py Dir
  | [] => .ok read
  | member :: members => do
      raiseIf (!member.isFile || Str.startsWith member.name "/" || hasDotDot member.name)
        (.storeError "archive member path is unsafe")
      collectMembers (Fields.set read member.name member.data) members

/-- `_extract_bundle`. -/
def extractBundle (packing : Packing) (data : ByteArray) : Py Dir := do
  let raw ← packing.decompress data
  let members ← packing.getMembers raw
  collectMembers [] members

/-! ## Archives of a store -/

/-- A directory of the archive tree. -/
structure ArchiveDir where
  year : Nat
  week : Nat
  name : String
  bundle : ByteArray
  manifest : Text

/-- A store directory with its resolved path and its archives, in the order in which a
search finds them. -/
structure Site where
  root : String
  store : StoreDir
  archives : List ArchiveDir

/-- A program on a site. -/
abbrev SiteM := Program Site PyError

/-- Run a program on the store of a site. -/
def onStore {α : Type} (program : StoreM α) : SiteM α := fun site =>
  let run := program site.store
  ⟨run.trace.map fun store => { site with store }, { site with store := run.final }, run.result⟩

/-- Write the files of an archive directory, over those that are there. -/
def putArchive (dirs : List ArchiveDir) (dir : ArchiveDir) : List ArchiveDir :=
  dirs.filter (fun other => !(other.year = dir.year && other.week = dir.week &&
    other.name = dir.name)) ++ [dir]

/-- The usage facts of a store, with the number of its last entry. -/
def usageOf (store : StoreDir) (sequence : Int) : Fields :=
  let files := [ContentType.record, ContentType.event].flatMap fun type =>
    ((store.content type).getD []).filter fun file => Str.endsWith file.1 ".json"
  [("ledgerEntries", .int sequence),
    ("contentBytes", .int (files.map fun file => file.2.byteSize).sum),
    ("contentFiles", .int files.length), ("ledgerBytes", .int store.ledgerBytes)]

/-- `storage_usage` of the store at a resolved path. -/
def storageUsage (root : String) : StoreM Fields := do
  let store ← Program.get
  Program.lift (requireInitialized store)
  let cursor ← currentCursor root
  let store ← Program.get
  match (Fields.get? cursor "sequence").getD (.int 0) with
  | .int sequence => return usageOf store sequence
  | _ => Program.raise (.storeError "store cursor sequence is not an integer")

/-- `now or _utc_now()`. -/
def nowOr (clock : String) (now : Option String) : String :=
  match now with
  | some text => if text = "" then clock else text
  | none => clock

/-- `_iso_week`. -/
def isoWeek (text : String) : Py (Nat × Nat) :=
  match DateTime.fromIsoFormat (Str.replaceChar text 'Z' "+00:00").toList with
  | some value => .ok (DateTime.isoCalendar value)
  | none => .error (.valueError ("Invalid isoformat string: " ++ text))

/-- `str(payload.get("contentDigest"))`. -/
def payloadDigest (payload : Fields) : String := (Fields.get payload "contentDigest").pyStr

/-- The content file of a payload, as a member. -/
def contentMember (type : ContentType) (payload : Fields) : String × Text :=
  (contentPath type (payloadDigest payload), canonicalJson (.obj payload))

/-- The members of the bundle of an archive. -/
def archiveMembers (ledger : Text) (records events : List Fields) : Dir :=
  Fields.update
    (Fields.update [("ledger.jsonl", ledger)] (records.map (contentMember .record)))
    (events.map (contentMember .event))

/-- What the identity of an archive covers. -/
def archiveMaterial (createdAt root : String) (usage : Fields) (records events : List Fields)
    (bundle : ByteArray) : Fields :=
  [("schema_version", .str archiveSchema), ("createdAt", .str createdAt),
    ("storeIdentity", .str (storeIdentity root)),
    ("ledgerEntries", Fields.get usage "ledgerEntries"),
    ("ledgerBytes", Fields.get usage "ledgerBytes"),
    ("recordCount", .int records.length), ("eventCount", .int events.length),
    ("recordIdentities", .arr (records.map fun record => .str (payloadDigest record))),
    ("bundleBytes", .int bundle.size), ("bundleDigest", .str (bundleDigest bundle)),
    ("compression", .str "zstd"), ("format", .str "tar.zst"),
    ("authority", .str "operator-archive"), ("executionAuthority", .str "none")]

/-- The manifest: the material with its identity. -/
def manifestOf (material : Fields) : Fields :=
  Fields.set material "archiveId" (.str (canonicalDigest material))

/-- The directory that holds an archive. -/
def archiveDirOf (week : Nat × Nat) (material : Fields) (bundle : ByteArray) : ArchiveDir where
  year := week.1
  week := week.2
  name := Str.removePrefix (canonicalDigest material) "sha256:"
  bundle := bundle
  manifest := canonicalJson (.obj (manifestOf material))

/-- `create_archive`, with the readings of the clock in order. -/
def createArchive (packing : Packing) (clock : Nat → String) (now : Option String)
    (records events : List Fields) : SiteM Fields := do
  let week ← Program.lift (isoWeek (nowOr (clock 0) now))
  let site ← Program.get
  let bundle := bundleBytes packing
    (archiveMembers (site.store.ledger.getD []) records events)
  let usage ← onStore (storageUsage site.root)
  let material := archiveMaterial (nowOr (clock 1) now) site.root usage records events bundle
  Program.step fun site =>
    { site with archives := putArchive site.archives (archiveDirOf week material bundle) }
  return manifestOf material

/-- `_archive_dir` of an archive identity. -/
def archiveDir (site : Site) (archiveId : String) : Py ArchiveDir :=
  match site.archives.find? fun dir => dir.name = Str.removePrefix archiveId "sha256:" with
  | some dir => .ok dir
  | none => .error (.storeError ("archive not found: " ++ archiveId))

/-- The manifest in an archive directory. -/
def readManifest (dir : ArchiveDir) : Py Fields :=
  match loads dir.manifest with
  | some (.obj manifest) => .ok manifest
  | some value => .error
      (.attributeError ("'" ++ typeName value ++ "' object has no attribute 'get'"))
  | none => .error (.valueError "invalid JSON")

/-- `Path(name).name`. -/
def pathName (name : String) : String :=
  String.ofList ((((Str.splitChar '/' name.toList).filter fun part =>
    part ≠ [] && part ≠ ['.']).getLast?).getD [])

/-- `Path(name).stem` of a name that ends in `.json`. -/
def pathStem (name : String) : String :=
  let stem := Str.removeSuffix (pathName name) ".json"
  if stem = "" then pathName name else stem

/-- Whether a member is a content file of the type. -/
def isContentMember (type : ContentType) (name : String) : Bool :=
  Str.startsWith name (type.directory ++ "/") && Str.endsWith name ".json"

/-- The digests of the archived records. -/
def presentRecords (members : Dir) : List String :=
  ((Fields.keys members).filter (isContentMember .record)).map fun name =>
    "sha256:" ++ pathStem name

/-- `verify_archive`. -/
def verifyArchive (packing : Packing) (site : Site) (archiveId : String) : Py Fields := do
  let dir ← archiveDir site archiveId
  let manifest ← readManifest dir
  let digest := bundleDigest dir.bundle
  raiseIf (Fields.get manifest "bundleDigest" ≠ .str digest)
    (.storeError "ARCHIVE_CORRUPT: bundle digest does not match manifest")
  let members ← extractBundle packing dir.bundle
  raiseIf (!Fields.has members "ledger.jsonl")
    (.storeError "ARCHIVE_CORRUPT: ledger is missing")
  let expected ← iterateOrEmpty (Fields.get manifest "recordIdentities")
  let _ ← expected.mapM requireHashable
  let present := presentRecords members
  raiseIf (!expected.all fun identity => identity.str?.any (present.contains ·))
    (.storeError "ARCHIVE_CORRUPT: archived record set is incomplete")
  return [("valid", .bool true), ("archiveId", Fields.get manifest "archiveId"),
    ("bundleDigest", .str digest), ("recordCount", .int present.eraseDups.length),
    ("bundleBytes", .int dir.bundle.size)]

/-- Write a content file. -/
def writeContent (type : ContentType) (name : String) (text : Text) (store : StoreDir) : StoreDir :=
  store.setContent type (some (Fields.set ((store.content type).getD []) name text))

/-- Write a member where it belongs in the restored store. -/
def restoreMember (member : String × Text) : StoreM Unit :=
  if isContentMember .record member.1 then
    Program.step (writeContent .record (pathName member.1) member.2)
  else if isContentMember .event member.1 then
    Program.step (writeContent .event (pathName member.1) member.2)
  else return ()

/-- `members["ledger.jsonl"]`. -/
def ledgerMember (members : Dir) : Py Text :=
  match Fields.get? members "ledger.jsonl" with
  | some ledger => .ok ledger
  | none => .error (.keyError "ledger.jsonl")

/-- `restore_archive`, on the directory at the destination. -/
def restoreArchive (packing : Packing) (site : Site) (archiveId destination : String) :
    StoreM Fields := do
  let _ ← Program.lift (verifyArchive packing site archiveId)
  let dir ← Program.lift (archiveDir site archiveId)
  let members ← Program.lift (extractBundle packing dir.bundle)
  init
  let ledger ← Program.lift (ledgerMember members)
  Program.step fun store => { store with ledger := some ledger }
  Program.forEach members restoreMember
  rebuildTail
  let restored ← Program.get
  let diagnostics ← Program.lift (verify restored)
  Program.lift (raiseIf (diagnostics ≠ [])
    (.storeError "restored archive failed ledger verification"))
  return [("restored", .str destination), ("valid", .bool true), ("archiveId", .str archiveId)]

end MncsCommons.Retention
