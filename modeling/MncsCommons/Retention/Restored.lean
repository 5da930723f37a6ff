/-
# Restored archives

An archive of all records and events of a store that verifies restores it in an empty
directory: the search by identity finds the archive, or one with the same material and
bundle, and what its bundle holds is the same ledger with the content that it names.
-/

import MncsCommons.Retention.Bundles
import MncsCommons.Store.Tail
import MncsCommons.Protocol.NormalForm
import MncsCommons.Data.Checks

namespace MncsCommons.Retention

open MncsCommons.Data MncsCommons.Protocol MncsCommons.Exec MncsCommons.Store

/-! ## Making an archive -/

theorem storageUsage_apply {store : StoreDir} {read : List Fields} (hread : rows store = .ok read)
    (root : String) :
    ∃ trace, storageUsage root store = ⟨trace, refreshed store read,
      .ok (usageOf (refreshed store read) (position store read).sequence)⟩ := by
  have hinit : requireInitialized store = .ok () := by
    rw [requireInitialized, raiseIf_eq_ok_iff, (rows_eq_ok_iff.mp hread).1]
    rfl
  have hcursor : currentCursor root store = ⟨(loadTail store).trace ++ [], refreshed store read,
      .ok (cursorFor root (position store read).sequence (position store read).entryDigest)⟩ := by
    rw [currentCursor, Program.bind_apply, Program.get_apply, Run.andThen_ok, Program.bind_apply,
      Program.lift_apply, hinit, Run.andThen_ok, Program.bind_apply, loadTail_apply hread,
      Run.andThen_ok]
    rfl
  refine ⟨(storageUsage root store).trace, ?_⟩
  rw [storageUsage, Program.bind_apply, Program.get_apply, Run.andThen_ok, Program.bind_apply,
    Program.lift_apply, hinit, Run.andThen_ok, Program.bind_apply, hcursor, Run.andThen_ok]
  rfl

/-- The bundle of an archive of everything. -/
def fullBundle (packing : Packing) (ledger : Text) (read : List Fields) : ByteArray :=
  bundleBytes packing (fullMembers ledger read)

/-- The material of an archive of everything. -/
def fullMaterial (packing : Packing) (createdAt : String) (site : Site) (read : List Fields) :
    Fields :=
  archiveMaterial createdAt site.root
    (usageOf (refreshed site.store read) (position site.store read).sequence)
    (payloadsOf read .record) (payloadsOf read .event)
    (fullBundle packing (site.store.ledger.getD []) read)

/-- The directory of an archive of everything. -/
def fullDir (packing : Packing) (createdAt : String) (week : Nat × Nat) (site : Site)
    (read : List Fields) : ArchiveDir :=
  archiveDirOf week (fullMaterial packing createdAt site read)
    (fullBundle packing (site.store.ledger.getD []) read)

/-- The archived records and events of a store. -/
def storedEvents (store : StoreDir) : Py (List Fields) := do
  return payloadsFromRows (← rows store) "event"

/-- Archive all that a store has. -/
def archiveAll (packing : Packing) (clock : Nat → String) (now : Option String) : SiteM Fields := do
  let site ← Program.get
  let records ← Program.lift (storedRecords site.store)
  let events ← Program.lift (storedEvents site.store)
  createArchive packing clock now records events

theorem storedRecords_eq {store : StoreDir} {read : List Fields} (h : rows store = .ok read) :
    storedRecords store = .ok (payloadsOf read .record) := by
  rw [storedRecords, h]
  rfl

theorem storedEvents_eq {store : StoreDir} {read : List Fields} (h : rows store = .ok read) :
    storedEvents store = .ok (payloadsOf read .event) := by
  rw [storedEvents, h]
  rfl

theorem archiveAll_apply {packing : Packing} {clock : Nat → String} {now : Option String}
    {week : Nat × Nat} (hweek : isoWeek (nowOr (clock 0) now) = .ok week) {site : Site}
    {read : List Fields} (hread : rows site.store = .ok read) :
    ∃ trace, archiveAll packing clock now site =
      ⟨trace, { site with
          store := refreshed site.store read
          archives := putArchive site.archives
            (fullDir packing (nowOr (clock 1) now) week site read) },
        .ok (manifestOf (fullMaterial packing (nowOr (clock 1) now) site read))⟩ := by
  obtain ⟨trace, husage⟩ := storageUsage_apply hread site.root
  refine ⟨(archiveAll packing clock now site).trace, ?_⟩
  rw [archiveAll, Program.bind_apply, Program.get_apply, Run.andThen_ok, Program.bind_apply,
    Program.lift_apply, storedRecords_eq hread, Run.andThen_ok, Program.bind_apply,
    Program.lift_apply, storedEvents_eq hread, Run.andThen_ok, createArchive, Program.bind_apply,
    Program.lift_apply, hweek, Run.andThen_ok, Program.bind_apply, Program.get_apply,
    Run.andThen_ok, Program.bind_apply, onStore, husage, Run.andThen_ok]
  rfl

/-! ## Finding it again -/

/-- The members of a manifest's material. -/
def materialKeys : List String :=
  ["schema_version", "createdAt", "storeIdentity", "ledgerEntries", "ledgerBytes", "recordCount",
    "eventCount", "recordIdentities", "bundleBytes", "bundleDigest", "compression", "format",
    "authority", "executionAuthority"]

/-- The directory is as `create_archive` leaves it for the material. -/
structure ArchiveDir.Intact (dir : ArchiveDir) (material : Fields) : Prop where
  keys : Fields.keys material = materialKeys
  wf : (Json.obj material).wf = true
  name : dir.name = Str.removePrefix (canonicalDigest material) "sha256:"
  manifest : dir.manifest = canonicalJson (.obj (manifestOf material))
  bundle : Fields.get material "bundleDigest" = .str (bundleDigest dir.bundle)

/-- The text that the identity of an archive is the hash of. -/
def identityText (material : Fields) : Text := dumps (.obj (identityProjection material))

/-- The hash confuses neither the manifests nor the bundles of two archives. -/
def ArchiveDir.NoCollision (first second : ArchiveDir) : Prop :=
  (∀ material other, first.Intact material → second.Intact other →
      Protocol.NoCollision (identityText material) (identityText other)) ∧
    (bundleDigest first.bundle = bundleDigest second.bundle → first.bundle = second.bundle)

theorem identityProjection_of_keys {material : Fields} (h : Fields.keys material = materialKeys) :
    identityProjection material = material := by
  have hinert : ∀ key ∈ Fields.keys material, Inert [key] := by
    rw [h]
    decide
  have hnone : ∀ key, key ∉ materialKeys → Fields.get? material key = none := fun key hkey =>
    Fields.get?_eq_none_iff.mpr (h ▸ hkey)
  rw [identityProjection, canonicalizeFields_of_inert_keys hinert, stripSelfDigest,
    hnone "metadata" (by decide)]
  refine List.filter_eq_self.mpr fun field hfield => ?_
  have hkey : field.1 ∈ materialKeys := h ▸ List.mem_map_of_mem hfield
  simp only [decide_eq_true_eq, ne_eq]
  rintro heq
  rw [heq] at hkey
  exact absurd hkey (by decide)

/-- A member of the material, read from the manifest. -/
theorem get_manifestOf {key : String} (hkey : key ∈ materialKeys) (material : Fields) :
    Fields.get (canonFields (manifestOf material)) key = (Fields.get material key).sortKeys := by
  have hinert : ∀ key ∈ materialKeys, Inert [key] := by decide
  have hne : key ≠ "archiveId" := by
    rintro rfl
    exact absurd hkey (by decide)
  rw [get_canonFields_of_inert (hinert key hkey), manifestOf, Fields.get_set_of_ne hne.symm]

namespace ArchiveDir.Intact

variable {dir : ArchiveDir} {material : Fields} (h : dir.Intact material)

include h

/-- The manifest reads back. -/
theorem readManifest : readManifest dir = .ok (canonFields (manifestOf material)) := by
  have hwf : (Json.obj (manifestOf material)).wf = true := Json.wf_set h.wf rfl
  rw [Retention.readManifest, h.manifest, loads_canonicalJson hwf, canon_obj]

/-- Archives of one name have one material, up to the order of its members. -/
theorem get_eq {second : ArchiveDir} {other : Fields} (hsecond : second.Intact other)
    (hfree : dir.NoCollision second) (hname : dir.name = second.name) (key : String) :
    (Fields.get material key).sortKeys = (Fields.get other key).sortKeys := by
  have hdigest : canonicalDigest material = canonicalDigest other := by
    rw [← append_removePrefix_canonicalDigest, ← h.name, hname, hsecond.name,
      append_removePrefix_canonicalDigest]
  have htext : identityText material = identityText other :=
    (digestOfText_eq_iff (hfree.1 material other h hsecond)).mp hdigest
  rw [identityText, identityText, identityProjection_of_keys h.keys,
    identityProjection_of_keys hsecond.keys, dumps_eq_iff h.wf hsecond.wf,
    Json.sortKeys_obj_eq_iff (Json.wf_obj_iff.mp h.wf).1 (Json.wf_obj_iff.mp hsecond.wf).1] at htext
  have hkey := htext key
  cases hfirst : Fields.get? material key with
  | none =>
      rw [hfirst, Option.map_none, eq_comm, Option.map_eq_none_iff] at hkey
      rw [Fields.get, Fields.get, hfirst, hkey]
  | some value =>
      rw [hfirst, Option.map_some, eq_comm, Option.map_eq_some_iff] at hkey
      obtain ⟨found, hfound, hsame⟩ := hkey
      rw [Fields.get, Fields.get, hfirst, hfound, Option.getD_some, Option.getD_some, hsame]

end ArchiveDir.Intact

theorem raiseIf_false (error : PyError) : raiseIf false error = .ok () := rfl

theorem intact_fullDir (packing : Packing) (createdAt : String) (week : Nat × Nat) (site : Site)
    (read : List Fields) :
    (fullDir packing createdAt week site read).Intact (fullMaterial packing createdAt site read) where
  keys := rfl
  wf := by
    have hkeys : Fields.keys (fullMaterial packing createdAt site read) = materialKeys := rfl
    have hidentities : Json.wf (.arr ((payloadsOf read .record).map fun record =>
        .str (payloadDigest record))) = true := by
      rw [Json.wf_arr_iff]
      intro item hitem
      obtain ⟨record, -, rfl⟩ := List.mem_map.mp hitem
      rfl
    rw [Json.wf_obj_iff, hkeys]
    refine ⟨by decide, ?_⟩
    simp only [fullMaterial, archiveMaterial, List.forall_mem_cons]
    exact ⟨rfl, rfl, rfl, rfl, rfl, rfl, rfl, hidentities, rfl, rfl, rfl, rfl, rfl, rfl, by simp⟩
  name := by rw [fullDir, archiveDirOf]
  manifest := by rw [fullDir, archiveDirOf]
  bundle := by simp [fullDir, archiveDirOf, fullMaterial, archiveMaterial, Fields.get, Fields.get?]

theorem mem_putArchive {dirs : List ArchiveDir} {made dir : ArchiveDir}
    (h : dir ∈ putArchive dirs made) : dir ∈ dirs ∨ dir = made := by
  rcases List.mem_append.mp h with h | h
  · exact .inl (List.mem_filter.mp h).1
  · exact .inr (List.mem_singleton.mp h)

theorem mem_putArchive_self (dirs : List ArchiveDir) (made : ArchiveDir) :
    made ∈ putArchive dirs made :=
  List.mem_append_right _ (List.mem_singleton.mpr rfl)

/-- What a search for an archive just made finds: its bundle, and its material in some order. -/
structure Found (site : Site) (made : ArchiveDir) (material : Fields) (dir : ArchiveDir)
    (other : Fields) : Prop where
  found : archiveDir site (canonicalDigest material) = .ok dir
  intact : dir.Intact other
  bundle : dir.bundle = made.bundle
  get : ∀ key, (Fields.get other key).sortKeys = (Fields.get material key).sortKeys

theorem exists_found {dirs : List ArchiveDir} {made : ArchiveDir} {material : Fields}
    (hmade : made.Intact material) (hdirs : ∀ dir ∈ dirs, ∃ material, dir.Intact material)
    (hfree : ∀ dir ∈ dirs, dir.NoCollision made) {site : Site}
    (hsite : site.archives = putArchive dirs made) :
    ∃ dir other, Found site made material dir other := by
  have hsome : (site.archives.find? fun dir =>
      dir.name = Str.removePrefix (canonicalDigest material) "sha256:").isSome := by
    rw [hsite, List.find?_isSome]
    exact ⟨made, mem_putArchive_self dirs made, by simpa using hmade.name⟩
  obtain ⟨dir, hdir⟩ := Option.isSome_iff_exists.mp hsome
  have hname : dir.name = made.name := by
    rw [hmade.name]
    simpa using List.find?_some hdir
  have hfound : archiveDir site (canonicalDigest material) = .ok dir := by
    rw [archiveDir, hdir]
  have hmem := List.mem_of_find?_eq_some hdir
  rw [hsite] at hmem
  rcases mem_putArchive hmem with hold | rfl
  · obtain ⟨other, hother⟩ := hdirs dir hold
    have hget := hother.get_eq hmade (hfree dir hold) hname
    refine ⟨dir, other, hfound, hother, (hfree dir hold).2 ?_, hget⟩
    have hbundle := hget "bundleDigest"
    rw [hother.bundle, hmade.bundle, Json.sortKeys_str, Json.sortKeys_str, Json.str.injEq] at hbundle
    exact hbundle
  · exact ⟨dir, material, hfound, hmade, rfl, fun _ => rfl⟩

section Verified

variable {store : StoreDir} {read : List Fields} (hverified : Verified store read)

include hverified

theorem mem_presentRecords {payload : Fields} (h : payload ∈ payloadsOf read .record)
    (ledger : Text) : canonicalDigest payload ∈
      presentRecords (sortedBy Prod.fst (fullMembers ledger read)) := by
  have hget := get?_fullMembers_contentPath hverified h ledger
  have hkey : contentPath .record (canonicalDigest payload) ∈
      Fields.keys (sortedBy Prod.fst (fullMembers ledger read)) :=
    List.mem_map_of_mem (mem_sortedBy.mpr (Fields.mem_of_get?_eq_some hget))
  refine List.mem_map.mpr ⟨_, List.mem_filter.mpr ⟨hkey, ?_⟩,
    append_pathStem_contentPath .record payload⟩
  exact (isContentMember_contentPath_iff .record .record payload).mpr rfl

/-- The record identities of the manifest, as `verify_archive` reads them. -/
theorem iterateOrEmpty_identities :
    iterateOrEmpty (.arr ((payloadsOf read .record).map fun record =>
      .str (payloadDigest record))) =
        .ok ((payloadsOf read .record).map fun record => .str (canonicalDigest record)) := by
  have hmap : ((payloadsOf read .record).map fun record => Json.str (payloadDigest record)) =
      (payloadsOf read .record).map fun record => .str (canonicalDigest record) :=
    List.map_congr_left fun record hrecord => by rw [payloadDigest_eq hverified hrecord]
  rw [hmap]
  cases payloadsOf read .record <;> rfl

theorem verifyArchive_found {packing : Packing} {site : Site} {ledger : Text} {made dir : ArchiveDir}
    {material other : Fields} (hfound : Found site made material dir other)
    (hbundle : made.bundle = fullBundle packing ledger read)
    (hidentities : Fields.get material "recordIdentities" =
      .arr ((payloadsOf read .record).map fun record => .str (payloadDigest record))) :
    ∃ answer, verifyArchive packing site (canonicalDigest material) = .ok answer := by
  have hmanifest := hfound.intact.readManifest
  have hdigest : Fields.get (canonFields (manifestOf other)) "bundleDigest" =
      .str (bundleDigest dir.bundle) := by
    rw [get_manifestOf (by decide), hfound.intact.bundle, Json.sortKeys_str]
  have hread : Fields.get (canonFields (manifestOf other)) "recordIdentities" =
      .arr ((payloadsOf read .record).map fun record => .str (payloadDigest record)) := by
    rw [get_manifestOf (by decide), hfound.get, hidentities]
    simp [Function.comp_def]
  have hextract : extractBundle packing dir.bundle =
      .ok (sortedBy Prod.fst (fullMembers ledger read)) := by
    rw [hfound.bundle, hbundle, fullBundle]
    exact extractBundle_bundleBytes packing (fun member => bundled_fullMembers hverified ledger)
      (nodup_keys_fullMembers ledger read)
  have hledger : Fields.has (sortedBy Prod.fst (fullMembers ledger read)) "ledger.jsonl" = true := by
    rw [Fields.has, Fields.get?_perm (sortedBy_perm Prod.fst _)
      ((sortedBy_perm Prod.fst (fullMembers ledger read)).map Prod.fst |>.nodup_iff.mpr
        (nodup_keys_fullMembers ledger read)), get?_fullMembers_ledger hverified]
    rfl
  have hhashable : ∀ records : List Fields,
      (records.map fun record => Json.str (canonicalDigest record)).mapM requireHashable =
        .ok (records.map fun _ => ()) := by
    intro records
    induction records with
    | nil => rfl
    | cons record records ih =>
        rw [List.map_cons, List.mapM_cons, ih]
        rfl
  have hpresent : ((payloadsOf read .record).map fun record =>
      Json.str (canonicalDigest record)).all (fun identity => identity.str?.any
        ((presentRecords (sortedBy Prod.fst (fullMembers ledger read))).contains ·)) = true := by
    rw [List.all_map, List.all_eq_true]
    intro record hrecord
    simpa [Json.str?] using mem_presentRecords hverified hrecord ledger
  simp only [verifyArchive, hfound.found, hmanifest, hdigest, hextract, hledger, hread,
    iterateOrEmpty_identities hverified, hhashable, hpresent, ok_bind, ne_eq, not_true_eq_false,
    decide_false, Bool.not_true, raiseIf_false]
  exact ⟨_, rfl⟩

end Verified

/-! ## Restoring -/

/-- The store with a member written where it belongs. -/
def placed (store : StoreDir) (member : String × Text) : StoreDir :=
  if isContentMember .record member.1 then
    writeContent .record (pathName member.1) member.2 store
  else if isContentMember .event member.1 then
    writeContent .event (pathName member.1) member.2 store
  else store

theorem forEach_restoreMember (members : Dir) (store : StoreDir) :
    ∃ trace, Program.forEach members restoreMember store =
      ⟨trace, members.foldl placed store, .ok ()⟩ := by
  induction members generalizing store with
  | nil => exact ⟨[], rfl⟩
  | cons member members ih =>
      obtain ⟨trace, hrest⟩ := ih (placed store member)
      have hmember : ∃ trace, restoreMember member store = ⟨trace, placed store member, .ok ()⟩ := by
        rw [restoreMember, placed]
        split_ifs <;> exact ⟨_, rfl⟩
      obtain ⟨first, hfirst⟩ := hmember
      refine ⟨first ++ trace, ?_⟩
      rw [Program.forEach_cons, hfirst, Run.andThen_ok, hrest, List.foldl_cons]

/-- No name is that of both types of content. -/
theorem isContentMember_unique {type other : ContentType} {name : String}
    (h : isContentMember type name = true) (hother : isContentMember other name = true) :
    type = other := by
  simp only [isContentMember, Str.startsWith, Bool.and_eq_true, List.isPrefixOf_iff_prefix]
    at h hother
  rcases List.prefix_or_prefix_of_prefix h.1 hother.1 with hprefix | hprefix
  all_goals
    cases type <;> cases other <;> first | rfl | exact absurd hprefix (by decide)

theorem content_placed (store : StoreDir) (member : String × Text) (type : ContentType) :
    (placed store member).content type =
      if isContentMember type member.1 then
        some (Fields.set ((store.content type).getD []) (pathName member.1) member.2)
      else store.content type := by
  rw [placed]
  by_cases hrecord : isContentMember .record member.1 = true
  · rw [if_pos hrecord, writeContent]
    cases type with
    | record => rw [if_pos hrecord, StoreDir.content_setContent_self]
    | event =>
        rw [if_neg fun hevent => absurd (isContentMember_unique hrecord hevent) (by decide),
          StoreDir.content_setContent_of_ne _ (by decide)]
  · rw [if_neg hrecord]
    by_cases hevent : isContentMember .event member.1 = true
    · rw [if_pos hevent, writeContent]
      cases type with
      | record => rw [if_neg hrecord, StoreDir.content_setContent_of_ne _ (by decide)]
      | event => rw [if_pos hevent, StoreDir.content_setContent_self]
    · rw [if_neg hevent]
      cases type with
      | record => rw [if_neg hrecord]
      | event => rw [if_neg hevent]

/-- Writing members changes only the content directories. -/
theorem placed_keeps (store : StoreDir) (member : String × Text) :
    (placed store member).ledger = store.ledger ∧
      (placed store member).transactions = store.transactions := by
  rw [placed]
  split_ifs <;> simp [writeContent]

theorem foldl_placed (members : Dir) (store : StoreDir) :
    (members.foldl placed store).ledger = store.ledger ∧
      (members.foldl placed store).transactions = store.transactions ∧
      ∀ type dir, store.content type = some dir →
        (members.foldl placed store).content type = some (Fields.update dir
          ((members.filter fun member => isContentMember type member.1).map
            fun member => (pathName member.1, member.2))) := by
  induction members generalizing store with
  | nil => exact ⟨rfl, rfl, fun type dir h => h⟩
  | cons member members ih =>
      obtain ⟨hledger, htransactions, hcontent⟩ := ih (placed store member)
      obtain ⟨hsameLedger, hsameTransactions⟩ := placed_keeps store member
      refine ⟨hledger.trans hsameLedger, htransactions.trans hsameTransactions, ?_⟩
      intro type dir hdir
      have hplaced := content_placed store member type
      rw [hdir, Option.getD_some] at hplaced
      rw [List.foldl_cons]
      by_cases hmember : isContentMember type member.1 = true
      · rw [if_pos hmember] at hplaced
        rw [hcontent type _ hplaced, List.filter_cons_of_pos (by simpa using hmember),
          List.map_cons, Fields.update_cons]
      · rw [if_neg hmember] at hplaced
        rw [hcontent type _ hplaced, List.filter_cons_of_neg (by simpa using hmember)]

/-! ## The restored store -/

/-- `lifecycle` of a store. -/
def lifecycle (store : StoreDir) (digest : String) (domain : Option String) : Py LifecycleView := do
  let records ← storedRecords store
  match records.find? fun item => (Fields.get item "contentDigest").str? = some digest with
  | none => .error (.storeError ("record not found: " ++ digest))
  | some record => deriveLifecycle record (← storedEvents store) domain

/-- `domain_views` of a store. -/
def storedViews (store : StoreDir) (digest : String) : Py (List (String × LifecycleView)) := do
  let records ← storedRecords store
  match records.find? fun item => (Fields.get item "contentDigest").str? = some digest with
  | none => .error (.storeError ("record not found: " ++ digest))
  | some record => domainViews record (← storedEvents store)

/-- Two stores say the same. -/
structure SaysTheSame (first second : StoreDir) : Prop where
  ledger : first.ledger = second.ledger
  records : storedRecords first = storedRecords second
  events : storedEvents first = storedEvents second
  lifecycle : ∀ digest domain, lifecycle first digest domain = lifecycle second digest domain
  views : ∀ digest, storedViews first digest = storedViews second digest

theorem SaysTheSame.of_rows {first second : StoreDir} (hledger : first.ledger = second.ledger)
    (hrows : rows first = rows second) : SaysTheSame first second where
  ledger := hledger
  records := by rw [storedRecords, hrows, storedRecords]
  events := by rw [storedEvents, hrows, storedEvents]
  lifecycle := by
    intro digest domain
    simp only [Retention.lifecycle, storedRecords, storedEvents, hrows]
  views := by
    intro digest
    simp only [storedViews, storedRecords, storedEvents, hrows]

/-- A directory in which nothing is. -/
def emptyDirectory : StoreDir := ⟨none, none, none, none, none⟩

/-- A new store with a ledger put in its place. -/
def freshWith (ledger : Text) : StoreDir := { StoreDir.fresh with ledger := some ledger }

/-- The restored store before its tail cache is rebuilt. -/
def filled (ledger : Text) (members : Dir) : StoreDir := members.foldl placed (freshWith ledger)

section Restore

variable {store : StoreDir} {read : List Fields} (hverified : Verified store read)

include hverified

theorem verified_filled {ledger : Text} (hledger : store.ledger = some ledger) :
    Verified (filled ledger (sortedBy Prod.fst (fullMembers ledger read))) read := by
  obtain ⟨hsame, htransactions, hcontent⟩ :=
    foldl_placed (sortedBy Prod.fst (fullMembers ledger read)) (freshWith ledger)
  have hrecords := hcontent .record [] rfl
  have hevents := hcontent .event [] rfl
  refine @Verified.of_restored store read hverified _ ledger (hsame.trans hledger.symm) ?_ ?_ ?_
  · rw [StoreDir.isInitialized, filled, hsame, htransactions]
    have hsome : ∀ type, ((filled ledger (sortedBy Prod.fst (fullMembers ledger read))).content
        type).isSome = true := by
      intro type
      cases type with
      | record => rw [filled, hrecords]; rfl
      | event => rw [filled, hevents]; rfl
    exact Bool.and_eq_true_iff.mpr ⟨Bool.and_eq_true_iff.mpr
      ⟨Bool.and_eq_true_iff.mpr ⟨hsome .record, hsome .event⟩, rfl⟩, rfl⟩
  · rw [pendingTransactions, filled, htransactions]
    rfl
  · intro type
    cases type with
    | record => exact hrecords
    | event => exact hevents

omit hverified in
theorem rebuildTail_apply (hread : rows store = .ok read) :
    ∃ text, rebuildTail store =
      ⟨[{ store with tail := some text }], { store with tail := some text }, .ok ()⟩ := by
  refine ⟨tailText (.int (tailFromRows store read).sequence) (tailFromRows store read).entryDigest
    store.ledgerBytes, ?_⟩
  rw [rebuildTail, Program.bind_apply, Program.get_apply, Run.andThen_ok, Program.bind_apply,
    Program.lift_apply, hread, Run.andThen_ok]
  rfl

theorem restoreArchive_found {packing : Packing} {site : Site} {ledger : Text}
    (hledger : store.ledger = some ledger) {made dir : ArchiveDir} {material other : Fields}
    (hfound : Found site made material dir other)
    (hbundle : made.bundle = fullBundle packing ledger read)
    (hidentities : Fields.get material "recordIdentities" =
      .arr ((payloadsOf read .record).map fun record => .str (payloadDigest record)))
    (destination : String) :
    ∃ trace tail, restoreArchive packing site (canonicalDigest material) destination
      emptyDirectory =
        ⟨trace, { filled ledger (sortedBy Prod.fst (fullMembers ledger read)) with tail := tail },
          .ok [("restored", .str destination), ("valid", .bool true),
            ("archiveId", .str (canonicalDigest material))]⟩ := by
  obtain ⟨answer, hverify⟩ := verifyArchive_found hverified hfound hbundle hidentities
  have hextract : extractBundle packing dir.bundle =
      .ok (sortedBy Prod.fst (fullMembers ledger read)) := by
    rw [hfound.bundle, hbundle, fullBundle]
    exact extractBundle_bundleBytes packing (fun member => bundled_fullMembers hverified ledger)
      (nodup_keys_fullMembers ledger read)
  have hmember : ledgerMember (sortedBy Prod.fst (fullMembers ledger read)) = .ok ledger := by
    rw [ledgerMember, Fields.get?_perm (sortedBy_perm Prod.fst _)
      ((sortedBy_perm Prod.fst (fullMembers ledger read)).map Prod.fst |>.nodup_iff.mpr
        (nodup_keys_fullMembers ledger read)), get?_fullMembers_ledger hverified]
  have hfilled := verified_filled hverified hledger
  obtain ⟨trace, hplace⟩ := forEach_restoreMember
    (sortedBy Prod.fst (fullMembers ledger read)) (freshWith ledger)
  have hinit : init emptyDirectory = ⟨(init emptyDirectory).trace, StoreDir.fresh, .ok ()⟩ := rfl
  have hset : (Program.step (fun store => { store with ledger := some ledger }) : StoreM Unit)
      StoreDir.fresh = ⟨[freshWith ledger], freshWith ledger, .ok ()⟩ := rfl
  obtain ⟨text, htail⟩ := rebuildTail_apply hfilled.rows
  have hvalid := verify_eq_nil_iff.mpr ⟨read, hfilled.withTail (some text)⟩
  refine ⟨(restoreArchive packing site (canonicalDigest material) destination
    emptyDirectory).trace, some text, ?_⟩
  rw [restoreArchive, Program.bind_apply, Program.lift_apply, hverify, Run.andThen_ok,
    Program.bind_apply, Program.lift_apply, hfound.found, Run.andThen_ok, Program.bind_apply,
    Program.lift_apply, hextract, Run.andThen_ok, Program.bind_apply, hinit, Run.andThen_ok,
    Program.bind_apply, Program.lift_apply, hmember, Run.andThen_ok, Program.bind_apply, hset,
    Run.andThen_ok, Program.bind_apply, hplace, Run.andThen_ok, ← filled, Program.bind_apply,
    htail, Run.andThen_ok, Program.bind_apply, Program.get_apply, Run.andThen_ok,
    Program.bind_apply, Program.lift_apply, hvalid]
  rfl

end Restore

/-! ## Archives restore the store -/

/-- An archive of everything a verified store has restores it in an empty directory: both calls
succeed, and the restored store has the same ledger, says the same and verifies. -/
theorem archive_restores_store (packing : Packing) {clock : Nat → String} {now : Option String}
    {week : Nat × Nat} (hweek : isoWeek (nowOr (clock 0) now) = .ok week) (destination : String)
    {site : Site} (hvalid : verify site.store = .ok [])
    (harchives : ∀ dir ∈ site.archives, ∃ material, dir.Intact material)
    (hfree : ∀ dir ∈ site.archives, ∀ made ∈ (archiveAll packing clock now site).final.archives,
      dir.NoCollision made) :
    ∃ manifest archiveId, (archiveAll packing clock now site).result = .ok manifest ∧
      Fields.get manifest "archiveId" = .str archiveId ∧
      let restored := restoreArchive packing (archiveAll packing clock now site).final archiveId
        destination emptyDirectory
      restored.result = .ok [("restored", .str destination), ("valid", .bool true),
        ("archiveId", .str archiveId)] ∧
      SaysTheSame restored.final site.store ∧ verify restored.final = .ok [] := by
  obtain ⟨read, hverified⟩ := verify_eq_nil_iff.mp hvalid
  obtain ⟨trace, hmade⟩ := @archiveAll_apply packing clock now week hweek site read hverified.rows
  obtain ⟨ledger, hledger⟩ : ∃ ledger, site.store.ledger = some ledger := by
    have hinit := hverified.isInitialized
    rw [StoreDir.isInitialized, Bool.and_eq_true] at hinit
    exact Option.isSome_iff_exists.mp hinit.2
  have hintact := intact_fullDir packing (nowOr (clock 1) now) week site read
  have hfound : ∀ dir ∈ site.archives,
      dir.NoCollision (fullDir packing (nowOr (clock 1) now) week site read) := by
    intro dir hdir
    refine hfree dir hdir _ ?_
    rw [hmade]
    exact mem_putArchive_self _ _
  obtain ⟨dir, other, hfound⟩ := exists_found hintact harchives hfound
    (show (archiveAll packing clock now site).final.archives = _ by rw [hmade])
  have hbundle : (fullDir packing (nowOr (clock 1) now) week site read).bundle =
      fullBundle packing ledger read := by
    rw [fullDir, archiveDirOf, hledger, Option.getD_some]
  obtain ⟨_, tail, hrun⟩ := restoreArchive_found hverified hledger hfound hbundle rfl destination
  have hrestored := (verified_filled hverified hledger).withTail tail
  refine ⟨manifestOf (fullMaterial packing (nowOr (clock 1) now) site read),
    canonicalDigest (fullMaterial packing (nowOr (clock 1) now) site read), by rw [hmade], Fields.get_set_self _ _ _, ?_⟩
  dsimp only
  rw [hrun]
  have hsame : (filled ledger (sortedBy Prod.fst (fullMembers ledger read))).ledger =
      site.store.ledger := (foldl_placed _ _).1.trans hledger.symm
  exact ⟨rfl, .of_rows hsame (hrestored.rows.trans hverified.rows.symm),
    verify_eq_nil_iff.mpr ⟨read, hrestored⟩⟩

/-- A packing that writes the files as a JSON text. -/
def writtenFiles (files : List (String × Text)) : Json :=
  .arr (files.map fun file => .arr [.str file.1, .str (String.ofList file.2)])

/-- Read a file written as a pair. -/
def readFile : Json → Py TarMember
  | .arr [.str name, .str data] => .ok ⟨name, true, data.toList⟩
  | _ => .error (.valueError "not a file")

/-- Read the files back from the bytes of the JSON text. -/
def readFiles (data : ByteArray) : Py (List TarMember) :=
  match String.fromUTF8? data with
  | none => .error (.valueError "invalid UTF-8")
  | some text => match loads text.toList with
      | some (.arr files) => files.mapM readFile
      | _ => .error (.valueError "not a list of files")

theorem readFiles_writtenFiles (files : List (String × Text)) :
    readFiles (String.ofList (dumps (writtenFiles files))).toUTF8 =
      .ok (files.map fun file => ⟨file.1, true, file.2⟩) := by
  have hwf : (writtenFiles files).wf = true := by
    rw [writtenFiles, Json.wf_arr_iff]
    intro item hitem
    obtain ⟨file, -, rfl⟩ := List.mem_map.mp hitem
    rfl
  have hsort : (writtenFiles files).sortKeys = writtenFiles files := by
    simp [writtenFiles, Function.comp_def]
  have hread : ∀ files : List (String × Text),
      (files.map fun file => Json.arr [.str file.1, .str (String.ofList file.2)]).mapM readFile =
        .ok (files.map fun file => ⟨file.1, true, file.2⟩) := by
    intro files
    induction files with
    | nil => rfl
    | cons file files ih =>
        rw [List.map_cons, List.mapM_cons, ih]
        simp [readFile, bind, Except.bind, pure, Except.pure]
  have hdecode : ∀ text : String, String.fromUTF8? text.toUTF8 = some text := by
    intro text
    have hvalid : text.toUTF8.IsValidUTF8 := text.isValidUTF8
    rw [String.fromUTF8?, dif_pos hvalid]
    rfl
  rw [readFiles, hdecode]
  dsimp only
  rw [String.toList_ofList, loads_dumps hwf, hsort, writtenFiles]
  exact hread files

def jsonPacking : Packing where
  tar files := (String.ofList (dumps (writtenFiles files))).toUTF8
  getMembers := readFiles
  getMembers_tar files _ := readFiles_writtenFiles files
  compress := id
  decompress := .ok
  decompress_compress _ := rfl

/-- A store with no archive yet. -/
def siteWith (store : StoreDir) : Site := ⟨"/store", store, []⟩

theorem store_siteWith (store : StoreDir) : (siteWith store).store = store := rfl

theorem archives_siteWith (store : StoreDir) : (siteWith store).archives = [] := rfl

/-- The store of one record. -/
def firstSite : Site := siteWith (Call.run .plain (.add .record firstRecord) .fresh).final

/-- The archive of one record restores it. -/
theorem first_record_restored :
    ∃ manifest archiveId,
      (archiveAll jsonPacking (fun _ => "2026-08-13T00:00:00Z") none firstSite).result =
        .ok manifest ∧
      Fields.get manifest "archiveId" = .str archiveId ∧
      let restored := restoreArchive jsonPacking
        (archiveAll jsonPacking (fun _ => "2026-08-13T00:00:00Z") none firstSite).final archiveId
        "/restored" emptyDirectory
      restored.result = .ok [("restored", .str "/restored"), ("valid", .bool true),
        ("archiveId", .str archiveId)] ∧
      SaysTheSame restored.final firstSite.store ∧ verify restored.final = .ok [] := by
  have hvalid : verify firstSite.store = .ok [] := by
    rw [firstSite, store_siteWith]
    exact (Reachable.call .plain .init lawful_firstRecord).verify_eq_nil
      (.of_rows rows_add_firstRecord)
  have hweek : isoWeek (nowOr "2026-08-13T00:00:00Z" none) = .ok (2026, 33) := by decide +kernel
  have hnone : ∀ dir, dir ∉ firstSite.archives := by
    rw [firstSite, archives_siteWith]
    exact fun _ => List.not_mem_nil
  exact @archive_restores_store jsonPacking (fun _ => "2026-08-13T00:00:00Z") none _ hweek "/restored"
    firstSite hvalid (fun dir hdir => absurd hdir (hnone dir)) fun dir hdir => absurd hdir (hnone dir)

end MncsCommons.Retention
