/-
# Bundles

A bundle is a ZIP archive of records, their events and a manifest that lists them.
`createBundle` selects the records that the roots reach and writes what it selected;
`verifyBundle` reads an archive from anywhere and trusts none of it.

An archive is the list of its entries, stored as they are: what is written is what is
read.  The size of the file follows from the entries, a local and a central header
for each and the end record.
-/

import MncsCommons.Store.Verify
import MncsCommons.Protocol.Lifecycle

namespace MncsCommons.Bundle

open MncsCommons.Data MncsCommons.Protocol MncsCommons.Store

def bundleVersion : String := "commons-bundle/v0alpha1"

def maxBundleFiles : Nat := 2000

def maxBundleMemberBytes : Nat := 8 * 1024 * 1024

def maxBundleBytes : Nat := 64 * 1024 * 1024

/-- An entry of an archive: its name, its mode and its content. -/
structure Entry where
  name : String
  mode : Nat
  data : Text
  deriving DecidableEq

/-- The size of the file of an archive. -/
def archiveBytes (archive : List Entry) : Nat :=
  22 + (archive.map fun entry => 76 + 2 * Text.byteSize entry.name.toList + entry.data.byteSize).sum

/-- `_bundle_digest`. -/
def bundleDigest (manifest : Fields) : String :=
  canonicalDigestOfAll (Fields.erase manifest "bundleDigest")

/-- `_safe_member_name`. -/
def safeMemberName (name : String) : Bool :=
  name ≠ "" && !Str.startsWith name "/" && !(Str.splitChar '/' name.toList).contains "..".toList &&
    !name.toList.contains '\\'

/-- `_record_ref`. -/
def recordRef (value : Fields) : String := (Fields.get value "contentDigest").pyStr

/-! ## The records that roots reach -/

/-- The records by digest and by identifier; a later record takes the name over. -/
def byReference (records : List Fields) : List (String × Fields) :=
  records.foldl (fun names record =>
    let names := Fields.set names (recordRef record) record
    match (Fields.get record "metadata").obj? with
    | none => names
    | some metadata =>
        let recordId := Fields.get metadata "recordId"
        if recordId.truthy then Fields.set names recordId.pyStr record else names) []

/-- The targets of a record's relationships. -/
def relationTargets (record : Fields) : Py (List String) := do
  let relations ← iterate ((Fields.get? record "relationships").getD (.arr []))
  return relations.filterMap fun relation =>
    relation.obj?.bind fun fields => (Fields.get fields "target").str?

/-- The named records that are not found yet. -/
def pendingNames (names found : List (String × Fields)) : Nat :=
  names.countP fun entry => !Fields.has found (recordRef entry.2)

theorem pendingNames_append_lt {names found : List (String × Fields)} {reference : String}
    {record : Fields} (hnamed : Fields.get? names reference = some record)
    (hnew : Fields.has found (recordRef record) = false) :
    pendingNames names (found ++ [(recordRef record, record)]) < pendingNames names found := by
  have hsplit : (names.filter fun entry =>
      !Fields.has (found ++ [(recordRef record, record)]) (recordRef entry.2)) =
      (names.filter fun entry => !Fields.has found (recordRef entry.2)).filter fun entry =>
        decide (recordRef record ≠ recordRef entry.2) := by
    rw [List.filter_filter]
    refine List.filter_congr fun entry _ => ?_
    rw [Fields.has, Fields.get?_append, Option.isSome_or, Bool.not_or, Bool.and_comm]
    by_cases hsame : recordRef record = recordRef entry.2 <;> simp [Fields.get?, Fields.has, hsame]
  rw [pendingNames, pendingNames, List.countP_eq_length_filter, List.countP_eq_length_filter, hsplit,
    List.length_filter_lt_length_iff_exists]
  refine ⟨(reference, record), List.mem_filter.mpr ⟨Fields.mem_of_get?_eq_some hnamed, ?_⟩, ?_⟩
  · simp [hnew]
  · simp

/-- Follow the references in the queue, first in first out. -/
def followReferences (names : List (String × Fields)) (maxDepth : Int)
    (found : List (String × Fields)) : List (String × Nat) → Py (List (String × Fields))
  | [] => .ok found
  | (reference, depth) :: queue =>
      match _ : Fields.get? names reference with
      | none => followReferences names maxDepth found queue
      | some record =>
          if _ : Fields.has found (recordRef record) = true then
            followReferences names maxDepth found queue
          else if maxDepth ≤ depth then
            followReferences names maxDepth (found ++ [(recordRef record, record)]) queue
          else
            match relationTargets record with
            | .error error => .error error
            | .ok targets =>
                followReferences names maxDepth (found ++ [(recordRef record, record)])
                  (queue ++ targets.map fun target => (target, depth + 1))
  termination_by queue => (pendingNames names found, queue.length)
  decreasing_by
    · exact Prod.Lex.right _ (Nat.lt_succ_self _)
    · exact Prod.Lex.right _ (Nat.lt_succ_self _)
    · exact Prod.Lex.left _ _ (pendingNames_append_lt ‹_›
        (by simpa using ‹¬Fields.has found _ = true›))
    · exact Prod.Lex.left _ _ (pendingNames_append_lt ‹_›
        (by simpa using ‹¬Fields.has found _ = true›))

/-- `_closure`. -/
def closure (records : List Fields) (roots : Option (List String)) (maxDepth : Int) :
    Py (List Fields) := do
  let chosen := (roots.filter (· ≠ [])).getD (records.map recordRef)
  let found ← followReferences (byReference records) maxDepth []
    ((sortedBy id chosen.eraseDups).map fun reference => (reference, 0))
  return sortedBy recordRef (found.map Prod.snd)

/-! ## Writing -/

/-- What the bundle holds beside its manifest. -/
structure Member where
  type : ContentType
  value : Fields
  /-- The place of an event among the selected ones. -/
  order : Option Nat

namespace Member

def digest (member : Member) : String := recordRef member.value

def path (member : Member) : String :=
  member.type.directory ++ "/" ++ Str.removePrefix member.digest "sha256:" ++ ".json"

def data (member : Member) : Text := canonicalJson (.obj member.value)

/-- The line of the manifest. -/
def listing (member : Member) : Fields :=
  [("path", .str member.path), ("kind", .str member.type.value),
    ("contentDigest", .str member.digest), ("size", .int member.data.byteSize)] ++
    member.order.elim [] fun order => [("order", .int order)]

end Member

/-- Whether an event is about one of the records. -/
def eventSelected (selected : List String) (event : Fields) : Py Bool := do
  let digest ← getAttr ((Fields.get? event "target").getD (.obj [])) "contentDigest" .null
  return selected.contains digest.pyStr

/-- The references of the records and the roots that lead out of the bundle. -/
def externalReferences (roots : Option (List String)) (records : List Fields) : Py (List String) := do
  let selected := records.map recordRef
  let named := (roots.getD []).filter fun reference => !selected.contains reference
  let led ← collect (fun record => do
    let targets ← relationTargets record
    let evidence ← iterate ((Fields.get? record "evidence").getD (.arr []))
    return (targets.filter fun target => !selected.contains target) ++
      evidence.filterMap fun item =>
        item.obj?.bind fun fields => (Fields.get fields "id").str?) records
  return sortedBy id (named ++ led.flatten).eraseDups

/-- The manifest before its digest. -/
def manifestBody (roots : Option (List String)) (maxDepth : Int) (selected : List String)
    (members : List Member) (external : List String) : Fields :=
  let strings (texts : List String) : Json := .arr (texts.map .str)
  [("bundleVersion", .str bundleVersion),
    ("roots", strings (roots.getD (sortedBy id selected.eraseDups))),
    ("maxDepth", .int maxDepth),
    ("members", .arr ((sortedBy Member.path members).map fun member => .obj member.listing)),
    ("externalReferences", strings external),
    ("security", .obj [("instructionsAreUntrusted", .bool true),
      ("fetchExternalReferences", .bool false), ("executeContent", .bool false)])]

/-- A manifest that names its digest. -/
def sealed (body : Fields) : Fields := body ++ [("bundleDigest", .str (bundleDigest body))]

/-- A regular file of an archive. -/
def regularEntry (name : String) (data : Text) : Entry := ⟨name, 0o100644, data⟩

/-- The archive of a manifest and the members it lists. -/
def archiveOf (manifest : Fields) (members : List Member) : List Entry :=
  let content := members.foldl (fun content member =>
    Fields.set content member.path member.data) ([] : List (String × Text))
  regularEntry "manifest.json" (canonicalJson (.obj manifest)) ::
    (sortedBy Prod.fst content).map fun file => regularEntry file.1 file.2

/-- The members that a bundle of the roots holds. -/
def selectMembers (store : StoreDir) (roots : Option (List String)) (maxDepth : Int) :
    Py (List Fields × List Member) := do
  let read ← rows store
  let records ← closure (payloadsFromRows read "record") roots maxDepth
  let events ← filterWhere (eventSelected (records.map recordRef)) (payloadsFromRows read "event")
  return (records, (records.map fun record => ⟨.record, record, none⟩) ++
    events.mapIdx fun order event => ⟨.event, event, some order⟩)

/-- `create_bundle`: the manifest and the archive that is written. -/
def createBundle (store : StoreDir) (destination : String) (present : Bool)
    (roots : Option (List String)) (maxDepth : Int) : Py (Fields × List Entry) := do
  raiseIf (decide (maxDepth < 0)) (.bundleError "bundle graph depth cannot be negative")
  raiseIf present (.bundleError ("bundle already exists: " ++ destination))
  let roots := roots.map fun roots => sortedBy id roots.eraseDups
  let (records, members) ← selectMembers store roots maxDepth
  let external ← externalReferences roots records
  let manifest := sealed (manifestBody roots maxDepth (records.map recordRef) members external)
  return (manifest, archiveOf manifest members)

/-! ## Reading -/

/-- Read the entries, with the names and the size so far. -/
def readEntries (seen : List (String × Text)) (total : Nat) :
    List Entry → Py (List (String × Text))
  | [] => .ok seen
  | entry :: entries => do
      raiseIf (!safeMemberName entry.name || Fields.has seen entry.name)
        (.bundleError ("unsafe or duplicate bundle path: " ++
          String.ofList (reprString entry.name)))
      raiseIf (entry.mode &&& 0o170000 = 0o120000)
        (.bundleError ("symbolic links are not allowed in bundles: " ++ entry.name))
      raiseIf (maxBundleMemberBytes < entry.data.byteSize)
        (.bundleError ("bundle member exceeds size limit: " ++ entry.name))
      raiseIf (maxBundleBytes < total + entry.data.byteSize)
        (.bundleError "bundle members exceed total size limit")
      readEntries (seen ++ [(entry.name, entry.data)]) (total + entry.data.byteSize) entries

/-- `_read_members`. -/
def readMembers (archive : List Entry) : Py (Fields × List (String × Text)) := do
  raiseIf (maxBundleBytes < archiveBytes archive) (.bundleError "bundle exceeds total size limit")
  raiseIf (maxBundleFiles < archive.length) (.bundleError "bundle exceeds file-count limit")
  let data ← readEntries [] 0 archive
  match Fields.get? data "manifest.json" with
  | none => .error (.bundleError "bundle manifest is missing")
  | some text =>
      match loads text with
      | none => .error (.valueError "invalid JSON")
      | some (.obj manifest) => do
          raiseIf (canonicalJson (.obj manifest) ≠ text)
            (.bundleError "bundle manifest is not canonical JSON")
          return (manifest, data)
      | some _ => .error (.bundleError "bundle manifest must be an object")

/-- The path of a listed member, which must be new and lead to an entry. -/
def memberPath (data : List (String × Text)) (seen : List String) (member : Fields) :
    Py (String × Text) := do
  let path := ((Fields.get? member "path").getD (.str "")).pyStr
  raiseIf (!safeMemberName path || seen.contains path)
    (.bundleError ("invalid bundle member path: " ++ String.ofList (reprString path)))
  match Fields.get? data path with
  | none => .error (.bundleError ("bundle member is missing: " ++ path))
  | some raw => do
      raiseIf (path = "manifest.json") (.bundleError ("bundle member is missing: " ++ path))
      return (path, raw)

/-- The type a kind names. -/
def kindType (kind : Json) : Py ContentType := do
  requireHashable kind
  if kind = .str "record" then return .record
  else if kind = .str "event" then return .event
  else .error (.bundleError ("unsupported bundle member kind: " ++ String.ofList (reprValue kind)))

/-- The type of a listed member, which its path must begin with. -/
def memberType (member : Fields) (path : String) : Py ContentType := do
  let type ← kindType (Fields.get member "kind")
  raiseIf (!Str.startsWith path (type.directory ++ "/"))
    (.bundleError ("bundle member path does not match kind: " ++ path))
  return type

/-- The value of an entry, which must be a canonical object. -/
def memberValue (raw : Text) (path : String) : Py Fields :=
  match loads raw with
  | none => .error (.valueError "invalid JSON")
  | some (.obj value) => do
      raiseIf (canonicalJson (.obj value) ≠ raw)
        (.bundleError ("bundle member is not canonical JSON: " ++ path))
      return value
  | some _ => .error (.bundleError ("bundle member is not canonical JSON: " ++ path))

/-- One listed member: its path and what is wrong with its value. -/
def checkMember (data : List (String × Text)) (seen : List String) (item : Json) :
    Py (String × List Diagnostic) :=
  match item with
  | .obj member => do
      let (path, raw) ← memberPath data seen member
      let type ← memberType member path
      raiseIf (!(Fields.get member "size").pyEq (.int raw.byteSize))
        (.bundleError ("bundle member size mismatch: " ++ path))
      let value ← memberValue raw path
      raiseIf (canonicalDigest value ≠ (Fields.get member "contentDigest").pyStr)
        (.bundleError ("bundle member digest mismatch: " ++ path))
      let report ← validateEntry type value
      return (path, report.map fun item => ⟨item.code, path ++ "." ++ item.path, item.message⟩)
  | _ => .error (.bundleError "bundle member must be an object")

/-- The listed members: their paths and what is wrong with them. -/
def checkMembers (data : List (String × Text)) :
    List String → List Json → Py (List String × List Diagnostic)
  | seen, [] => .ok (seen, [])
  | seen, item :: items => do
      let (path, first) ← checkMember data seen item
      let (seen, rest) ← checkMembers data (seen ++ [path]) items
      return (seen, first ++ rest)

structure BundleVerification where
  valid : Bool
  manifest : Option Fields
  diagnostics : List Diagnostic

/-- The verification of an archive that raises nothing. -/
def checkBundle (archive : List Entry) : Py BundleVerification := do
  let (manifest, data) ← readMembers archive
  let version ← reportIf (Fields.get manifest "bundleVersion" ≠ .str bundleVersion)
    "UNSUPPORTED_BUNDLE_VERSION" "bundleVersion" "bundle version is unsupported"
  let digest ← reportIf (Fields.get manifest "bundleDigest" ≠ .str (bundleDigest manifest))
    "BUNDLE_DIGEST_MISMATCH" "bundleDigest" "manifest digest is wrong"
  match Fields.get manifest "members" with
  | .arr items => do
      raiseIf (maxBundleFiles < items.length)
        (.bundleError "bundle members must be a bounded list")
      let (seen, found) ← checkMembers data [] items
      raiseIf (!((Fields.keys data).all fun name => name = "manifest.json" || seen.contains name))
        (.bundleError "bundle contains unlisted content")
      let diagnostics := version ++ digest ++ found
      return ⟨diagnostics.isEmpty, some manifest, diagnostics⟩
  | _ => .error (.bundleError "bundle members must be a bounded list")

/-- The exceptions that make a bundle invalid. -/
def isBundleFailure : PyError → Bool
  | .osError _ | .keyError _ | .typeError _ => true
  | error => error.isValueError

/-- `verify_bundle`. -/
def verifyBundle (path : String) (archive : List Entry) : Py BundleVerification :=
  match checkBundle archive with
  | .ok verification => .ok verification
  | .error error =>
      if isBundleFailure error then
        .ok ⟨false, none, [⟨"BUNDLE_INVALID", path, error.message⟩]⟩
      else .error error

end MncsCommons.Bundle
