/-
# What leaves in a bundle

The records of a bundle are those its roots reach within the depth, each once,
and its events are the stored events about them.  An empty list of roots is taken
for no list at all, so it selects the whole store: that is the one list for which
a bundle is not the closure of its roots.
-/

import MncsCommons.Bundle.Names
import MncsCommons.Bundle.Written
import MncsCommons.Data.Breadth
import MncsCommons.Data.Checks
import MncsCommons.Protocol.Events
import MncsCommons.Store.Relations

namespace MncsCommons.Bundle

open MncsCommons.Data MncsCommons.Protocol MncsCommons.Store MncsCommons.Exec

/-! ## Closures -/

/-- A stored record of the first digest has a relationship to a record of the second. -/
def Refers (stored : List Fields) (digest target : String) : Prop :=
  ∃ record ∈ stored, recordRef record = digest ∧ ∃ targets, relationTargets record = .ok targets ∧
    ∃ reference ∈ targets, ∃ named, Resolves stored reference named ∧ recordRef named = target

/-- The digest of a record that the roots reach within the depth. -/
def Reached (stored : List Fields) (roots : List String) (maxDepth : Nat) (digest : String) : Prop :=
  ∃ hops ≤ maxDepth, Breadth.Hops (Rooted stored roots) (Refers stored) hops digest

/-- The records are those the roots reach, each once. -/
structure HoldsClosure (stored : List Fields) (roots : List String) (maxDepth : Nat)
    (records : List Fields) : Prop where
  kept : ∀ record ∈ records, record ∈ stored
  once : (records.map recordRef).Nodup
  reached : ∀ digest, digest ∈ records.map recordRef ↔ Reached stored roots maxDepth digest

/-- The records of a store: their relationships can be read, and records of one digest have the
same ones. -/
structure Related (stored : List Fields) : Prop where
  readable : ∀ record ∈ stored, ∃ targets, relationTargets record = .ok targets
  agree : ∀ record ∈ stored, ∀ other ∈ stored, recordRef record = recordRef other →
    ∀ {targets others : List String}, relationTargets record = .ok targets →
      relationTargets other = .ok others → ∀ target, target ∈ targets → target ∈ others

/-- What a record refers to is what its relationships name. -/
theorem Related.refers_iff {stored : List Fields} (h : Related stored) {record : Fields}
    (hrecord : record ∈ stored) {targets : List String}
    (htargets : relationTargets record = .ok targets) (next : String) :
    Refers stored (recordRef record) next ↔
      ∃ target ∈ targets, resolveDigest stored target = some next := by
  constructor
  · rintro ⟨other, hother, hsame, others, hothers, reference, hmem, named, hnamed, hnext⟩
    refine ⟨reference, h.agree other hother record hrecord hsame hothers htargets _ hmem, ?_⟩
    exact resolveDigest_eq_some_iff.mpr ⟨named, hnamed, hnext⟩
  · rintro ⟨reference, hmem, hresolve⟩
    obtain ⟨named, hnamed, hnext⟩ := resolveDigest_eq_some_iff.mp hresolve
    exact ⟨record, hrecord, rfl, targets, htargets, reference, hmem, named, hnamed, hnext⟩

/-- The loop of `_closure` is a breadth-first search over the digests. -/
theorem exists_followReferences {stored : List Fields} (h : Related stored) {roots : List String}
    {maxDepth : Nat} {found : List (String × Fields)} {queue : List (String × Nat)}
    {marks : List (String × Nat)} (hfound : Fields.keys found = marks.map Prod.fst)
    (hsearch : Breadth.Search (resolveDigest stored) (Rooted stored roots) (Refers stored) maxDepth
      marks queue) :
    ∃ result marks, followReferences (byReference stored) maxDepth found queue = .ok result ∧
      Fields.keys result = marks.map Prod.fst ∧
      Breadth.Search (resolveDigest stored) (Rooted stored roots) (Refers stored) maxDepth
        marks [] := by
  have known : ∀ {found : List (String × Fields)} {marks : List (String × Nat)} {digest : String},
      Fields.keys found = marks.map Prod.fst →
        (Fields.has found digest = true ↔ digest ∈ marks.map Prod.fst) := by
    intro found marks digest hfound
    rw [← hfound, Fields.has, Option.isSome_iff_ne_none, ne_eq, Fields.get?_eq_none_iff, not_not]
  fun_induction followReferences (byReference stored) maxDepth found queue generalizing marks with
  | case1 found => exact ⟨found, marks, rfl, hfound, hsearch⟩
  | case2 found reference depth queue hnone ih =>
      apply ih hfound
      apply hsearch.drop
      intro digest hdigest
      rw [resolveDigest, hnone] at hdigest
      cases hdigest
  | case3 found reference depth queue record hrecord hknown ih =>
      apply ih hfound
      apply hsearch.drop
      intro digest hdigest
      rw [resolveDigest, hrecord] at hdigest
      rw [← Option.some.inj hdigest]
      exact (known hfound).mp hknown
  | case4 found reference depth queue record hrecord hnew hdeep ih =>
      have hresolve : resolveDigest stored reference = some (recordRef record) := by
        rw [resolveDigest, hrecord]
        rfl
      have unseen : recordRef record ∉ marks.map Prod.fst :=
        fun hmem => hnew ((known hfound).mpr hmem)
      have visited : Breadth.Search (resolveDigest stored) (Rooted stored roots) (Refers stored)
          maxDepth (marks ++ [(recordRef record, depth)])
          (queue ++ ([] : List String).map fun target => (target, depth + 1)) :=
        hsearch.visit hresolve unseen (fun hbound => absurd hbound (by omega)) (fun _ => rfl)
      rw [List.map_nil, List.append_nil] at visited
      refine ih ?_ visited
      rw [Fields.keys, List.map_append, List.map_append, ← Fields.keys, hfound]
      rfl
  | case5 found reference depth queue record hrecord hnew hdeep error herror =>
      have hstored := Resolves.mem ((get?_byReference stored reference).symm.trans hrecord)
      obtain ⟨targets, htargets⟩ := h.readable record hstored
      rw [htargets] at herror
      cases herror
  | case6 found reference depth queue record hrecord hnew hdeep targets htargets ih =>
      have hstored := Resolves.mem ((get?_byReference stored reference).symm.trans hrecord)
      have hresolve : resolveDigest stored reference = some (recordRef record) := by
        rw [resolveDigest, hrecord]
        rfl
      refine ih ?_ (hsearch.visit hresolve (fun hmem => hnew ((known hfound).mpr hmem))
        (fun _ next => h.refers_iff hstored htargets next) (fun hbound => absurd hdeep (by omega)))
      rw [Fields.keys, List.map_append, List.map_append, ← Fields.keys, hfound]
      rfl

/-- The records a found list holds are filed under their own digests. -/
theorem keys_followReferences {names found result : List (String × Fields)} {maxDepth : Int}
    {queue : List (String × Nat)} (hfound : Fields.keys found = found.map fun entry =>
      recordRef entry.2) (h : followReferences names maxDepth found queue = .ok result) :
    Fields.keys result = result.map fun entry => recordRef entry.2 := by
  have more : ∀ {found : List (String × Fields)} {record : Fields},
      (Fields.keys found = found.map fun entry => recordRef entry.2) →
        Fields.keys (found ++ [(recordRef record, record)]) =
          (found ++ [(recordRef record, record)]).map fun entry => recordRef entry.2 := by
    intro found record hfound
    rw [Fields.keys, List.map_append, List.map_append, ← Fields.keys, hfound]
    rfl
  fun_induction followReferences names maxDepth found queue with
  | case1 found =>
      obtain rfl := Except.ok.inj h
      exact hfound
  | case2 found reference depth queue hnone ih => exact ih hfound h
  | case3 found reference depth queue record hrecord hknown ih => exact ih hfound h
  | case4 found reference depth queue record hrecord hnew hdeep ih => exact ih (more hfound) h
  | case5 found reference depth queue record hrecord hnew hdeep error herror => cases h
  | case6 found reference depth queue record hrecord hnew hdeep targets htargets ih =>
      exact ih (more hfound) h

/-- `_closure` of a list of roots that is not empty. -/
theorem exists_closure {stored : List Fields} (h : Related stored) {roots : List String}
    (hroots : roots ≠ []) (maxDepth : Nat) :
    ∃ records, closure stored (some roots) maxDepth = .ok records ∧
      HoldsClosure stored roots maxDepth records := by
  have init : Breadth.Search (resolveDigest stored) (Rooted stored roots) (Refers stored) maxDepth
      [] ((sortedBy id roots.eraseDups).map fun reference => (reference, 0)) := by
    apply Breadth.Search.init
    intro digest
    simp only [mem_sortedBy, List.mem_eraseDups, resolveDigest_eq_some_iff]
    rfl
  have start : Fields.keys ([] : List (String × Fields)) =
      ([] : List (String × Nat)).map Prod.fst := rfl
  obtain ⟨found, marks, hfollow, hkeys, hsearch⟩ := exists_followReferences h start init
  have hrefs := keys_followReferences rfl hfollow
  have hdigests : (sortedBy recordRef (found.map Prod.snd)).map recordRef |>.Perm
      (marks.map Prod.fst) := by
    refine ((sortedBy_perm recordRef _).map recordRef).trans ?_
    rw [List.map_map, ← hkeys, hrefs]
    exact .refl _
  have hclosure : closure stored (some roots) maxDepth =
      .ok (sortedBy recordRef (found.map Prod.snd)) := by
    rw [closure, Option.filter_some, if_pos (decide_eq_true hroots), Option.getD_some, hfollow]
    rfl
  refine ⟨_, hclosure, fun record hrecord => mem_of_closure hclosure hrecord,
    hdigests.nodup_iff.mpr hsearch.nodup, fun digest => ?_⟩
  rw [hdigests.mem_iff]
  exact hsearch.mem_iff

theorem not_reached_nil {stored : List Fields} {maxDepth : Nat} {digest : String} :
    ¬ Reached stored [] maxDepth digest := by
  rintro ⟨hops, -, h⟩
  induction h with
  | first hrooted =>
      obtain ⟨root, hroot, -⟩ := hrooted
      cases hroot
  | hop _ _ ih => exact ih

/-- An empty list of roots selects from the whole store. -/
theorem exists_closure_nil {stored : List Fields} (h : Related stored) (maxDepth : Nat) :
    ∃ records, closure stored (some []) maxDepth = .ok records ∧
      (HoldsClosure stored [] maxDepth records ↔ stored = []) := by
  have same : closure stored (some []) maxDepth =
      closure stored (some (stored.map recordRef)) maxDepth := by
    rw [closure, closure, Option.filter_some, Option.filter_some]
    by_cases hstored : stored = []
    · simp [hstored]
    · simp [hstored]
  by_cases hstored : stored = []
  · subst hstored
    refine ⟨[], Py.bind_eq_ok_iff.mpr ⟨[], followReferences_nil _ _, rfl⟩, ?_⟩
    refine iff_of_true ⟨by simp, List.nodup_nil, fun digest => ?_⟩ rfl
    exact iff_of_false (by simp) not_reached_nil
  · obtain ⟨records, hrecords, hclosure⟩ := exists_closure h (List.map_eq_nil_iff.not.mpr hstored)
      maxDepth
    refine ⟨records, same.trans hrecords, iff_of_false (fun hnil => ?_) hstored⟩
    have reached : Reached stored (stored.map recordRef) maxDepth
        (recordRef (stored.getLast hstored)) :=
      ⟨0, Nat.zero_le _, .first ⟨_, List.mem_map_of_mem (List.getLast_mem hstored), _,
        resolves_getLast hstored, rfl⟩⟩
    exact not_reached_nil ((hnil.reached _).mp ((hclosure.reached _).mpr reached))

/-! ## The records of a store -/

theorem str?_canonicalize (path : List String) (value : Json) :
    (canonicalize path value).str? = value.str? := by
  cases value <;> simp [canonicalize, Json.str?]

theorem obj?_canonicalize (path : List String) (value : Json) :
    (canonicalize path value).obj? = value.obj?.map (canonicalizeFields path) := by
  cases value <;> simp [canonicalize, Json.obj?]

/-- The target of a relationship. -/
def relationTarget (relation : Json) : Option String :=
  relation.obj?.bind fun fields => (Fields.get fields "target").str?

theorem relationTarget_canonicalize (path : List String) (relation : Json) :
    relationTarget (canonicalize path relation).sortKeys = relationTarget relation := by
  rw [relationTarget, relationTarget, Json.obj?_sortKeys, obj?_canonicalize]
  cases relation.obj? with
  | none => rfl
  | some fields =>
      simp only [Option.map_some, Option.bind_some]
      rw [Fields.get_sortKeys, Json.str?_sortKeys, Fields.get, get?_canonicalizeFields, Fields.get]
      cases Fields.get? fields "target" with
      | none => rfl
      | some value => exact str?_canonicalize _ value

theorem relationTargets_of_get? {record : Fields} {items : List Json}
    (h : Fields.get? record "relationships" = some (.arr items)) :
    relationTargets record = .ok (items.filterMap relationTarget) := by
  rw [relationTargets, h]
  rfl

/-- The canonical form of a record has the same targets, in any order. -/
theorem exists_targets_canonFields {record : Fields} (h : validateRecord record = .ok []) :
    ∃ targets others, relationTargets record = .ok targets ∧
      relationTargets (canonFields record) = .ok others ∧ targets.Perm others := by
  obtain ⟨items, hitems, -⟩ := exists_relationships h
  have canonical : Fields.get? (canonFields record) "relationships" = some (.arr
      ((sortedBy dumps (items.map (canonicalize ["relationships"]))).map Json.sortKeys)) := by
    rw [canonFields, Fields.get?_sortKeys, get?_canonicalizeFields, hitems, Option.map_some,
      Option.map_some, List.nil_append, canonicalize_arr_of_mem (by decide), Json.sortKeys_arr]
  refine ⟨_, _, relationTargets_of_get? hitems, relationTargets_of_get? canonical, ?_⟩
  rw [List.filterMap_map]
  refine (((sortedBy_perm dumps _).filterMap _).trans ?_).symm
  rw [List.filterMap_map]
  refine List.Perm.of_eq (List.filterMap_congr fun item _ => ?_)
  exact relationTarget_canonicalize _ item

/-- The records of a verified store can be followed. -/
theorem related_of_verified {store : StoreDir} {read : List Fields} (h : Verified store read) :
    Related (payloadsFromRows read "record") where
  readable := by
    intro record hrecord
    have hfiled : Filed store .record record := h.filed hrecord
    obtain ⟨targets, -, htargets, -⟩ := exists_targets_canonFields hfiled.valid
    exact ⟨targets, htargets⟩
  agree := by
    intro record hrecord other hother hsame targets others htargets hothers target htarget
    have hfiled : Filed store .record record := h.filed hrecord
    have hfiled' : Filed store .record other := h.filed hother
    have same : canonFields record = canonFields other := by
      have hfile := hfiled.file
      rw [← recordRef, hsame, recordRef, hfiled'.file] at hfile
      have hcanon := canon_eq_of_canonicalJson_eq (wf_of_payloadsFromRows h.rows hother)
        (wf_of_payloadsFromRows h.rows hrecord) (Option.some.inj hfile)
      rw [canon_obj, canon_obj] at hcanon
      exact (Json.obj.inj hcanon).symm
    obtain ⟨_, canonical, hfirst, hcanonical, hperm⟩ := exists_targets_canonFields hfiled.valid
    obtain ⟨_, canonical', hsecond, hcanonical', hperm'⟩ := exists_targets_canonFields hfiled'.valid
    rw [same] at hcanonical
    obtain rfl := Except.ok.inj (htargets.symm.trans hfirst)
    obtain rfl := Except.ok.inj (hothers.symm.trans hsecond)
    obtain rfl := Except.ok.inj (hcanonical.symm.trans hcanonical')
    exact hperm'.mem_iff.mpr (hperm.mem_iff.mp htarget)

/-! ## The bundle -/

/-- The digest of the record an event is about. -/
def eventTarget (event : Fields) : Option String :=
  (Fields.get event "target").obj?.bind fun target => (Fields.get target "contentDigest").str?

theorem eventSelected_eq {event : Fields} (h : validateEvent event = .ok [])
    (selected : List String) :
    ∃ target, eventTarget event = some target ∧
      eventSelected selected event = .ok (selected.contains target) := by
  obtain ⟨target, _, _, _, hparts⟩ := exists_parts_of_validateEvent h
  obtain ⟨fields, hfields, hdigest⟩ := hparts.named
  refine ⟨target, ?_, ?_⟩
  · rw [eventTarget, hfields]
    show (Fields.get fields "contentDigest").str? = some target
    rw [hdigest]
    rfl
  · have found : Fields.get? event "target" = some (.obj fields) :=
      Fields.get?_of_get hfields (by simp)
    have named : Fields.get? fields "contentDigest" = some (.str target) :=
      Fields.get?_of_get hdigest (by simp)
    rw [eventSelected, found, Option.getD_some, getAttr, named, Option.getD_some, ok_bind]
    rfl

/-- The stored events about the records, in ledger order. -/
def eventsAbout (records events : List Fields) : List Fields :=
  events.filter fun event => (eventTarget event).any fun target =>
    (records.map recordRef).contains target

/-- The members of a bundle: the records, and the events in their order. -/
def bundleMembers (records events : List Fields) : List Member :=
  (records.map fun record => ⟨.record, record, none⟩) ++
    events.mapIdx fun order event => ⟨.event, event, some order⟩

theorem selectMembers_of_closure {store : StoreDir} {read records : List Fields}
    (h : Verified store read) {roots : Option (List String)} {maxDepth : Int}
    (hclosure : closure (payloadsFromRows read "record") roots maxDepth = .ok records) :
    selectMembers store roots maxDepth =
      .ok (records, bundleMembers records (eventsAbout records (payloadsFromRows read "event"))) := by
  have hevents : filterWhere (eventSelected (records.map recordRef))
      (payloadsFromRows read "event") =
        .ok (eventsAbout records (payloadsFromRows read "event")) := by
    have valid : ∀ event ∈ payloadsFromRows read "event", validateEvent event = .ok [] := by
      intro event hevent
      have hfiled : Filed store .event event := h.filed hevent
      exact hfiled.valid
    apply filterWhere_eq_ok_iff.mpr
    refine ⟨fun event hevent => ?_, List.filter_congr fun event hevent => ?_⟩
    · obtain ⟨target, -, hselected⟩ :=
        eventSelected_eq (valid event hevent) (records.map recordRef)
      exact ⟨_, hselected⟩
    · obtain ⟨target, htarget, hselected⟩ :=
        eventSelected_eq (valid event hevent) (records.map recordRef)
      rw [htarget, hselected, Option.any_some]
      cases (records.map recordRef).contains target <;> rfl
  rw [selectMembers, h.rows]
  exact Py.bind_eq_ok_iff.mpr ⟨_, rfl, Py.bind_eq_ok_iff.mpr ⟨_, hclosure,
    Py.bind_eq_ok_iff.mpr ⟨_, hevents, rfl⟩⟩⟩

/-- A valid record and its evidence. -/
theorem exists_evidence {record : Fields} (h : validateRecord record = .ok []) :
    ∃ items, Fields.get? record "evidence" = some (.arr items) := by
  have hrecord := (validateRecord_eq_nil_iff.mp h).1
  rw [recordDiagnostics, concatChecks_eq_nil_iff] at hrecord
  have hcommon := hrecord (commonRecordChecks record) (by simp)
  rw [commonRecordChecks, concatChecks_eq_nil_iff] at hcommon
  obtain ⟨items, hitems, -⟩ := checkEvidence_eq_nil_iff.mp
    (hcommon (Protocol.checkEvidence (Fields.get record "evidence") "evidence") (by simp))
  exact ⟨items, Fields.get?_of_get hitems (by simp)⟩

theorem exists_externalReferences (roots : Option (List String)) {records : List Fields}
    (h : ∀ record ∈ records, validateRecord record = .ok []) :
    ∃ external, externalReferences roots records = .ok external := by
  have led : ∀ record ∈ records, ∃ references, (do
      let targets ← relationTargets record
      let evidence ← iterate ((Fields.get? record "evidence").getD (.arr []))
      return (targets.filter fun target => !(records.map recordRef).contains target) ++
        evidence.filterMap fun item =>
          item.obj?.bind fun fields => (Fields.get fields "id").str? : Py (List String)) =
        .ok references := by
    intro record hrecord
    obtain ⟨items, hitems, -⟩ := exists_relationships (h record hrecord)
    obtain ⟨evidence, hevidence⟩ := exists_evidence (h record hrecord)
    rw [relationTargets_of_get? hitems, hevidence]
    exact ⟨_, rfl⟩
  obtain ⟨lists, hlists⟩ := exists_collect led
  exact ⟨_, Py.bind_eq_ok_iff.mpr ⟨lists, hlists, rfl⟩⟩

/-- What `create_bundle` writes for roots that select the records. -/
structure Written (read : List Fields) (roots : List String) (maxDepth : Nat)
    (records : List Fields) (manifest : Fields) (archive : List Entry) : Prop where
  manifest_eq : ∃ external, manifest = sealed (manifestBody (some (sortedBy id roots.eraseDups))
    maxDepth (records.map recordRef)
    (bundleMembers records (eventsAbout records (payloadsFromRows read "event"))) external)
  archive_eq : archive = archiveOf manifest
    (bundleMembers records (eventsAbout records (payloadsFromRows read "event")))

theorem rooted_sorted {stored : List Fields} {roots : List String} :
    Rooted stored (sortedBy id roots.eraseDups) = Rooted stored roots := by
  funext digest
  simp only [Rooted, mem_sortedBy, List.mem_eraseDups]

theorem HoldsClosure.of_sorted {stored records : List Fields} {roots : List String}
    {maxDepth : Nat} : HoldsClosure stored (sortedBy id roots.eraseDups) maxDepth records ↔
      HoldsClosure stored roots maxDepth records := by
  constructor <;>
    exact fun h => ⟨h.kept, h.once, by simpa only [Reached, rooted_sorted] using h.reached⟩

/-- A bundle of a verified store is written, and its records are what its roots reach exactly when
there is a root or no record. -/
theorem exists_written {store : StoreDir} {read : List Fields} (h : Verified store read)
    (destination : String) (roots : List String) (maxDepth : Nat) :
    ∃ records manifest archive,
      createBundle store destination false (some roots) maxDepth = .ok (manifest, archive) ∧
      Written read roots maxDepth records manifest archive ∧
      (HoldsClosure (payloadsFromRows read "record") roots maxDepth records ↔
        roots ≠ [] ∨ payloadsFromRows read "record" = []) := by
  have hrelated := related_of_verified h
  have empty_iff : sortedBy id roots.eraseDups = [] ↔ roots = [] := by
    simp only [List.eq_nil_iff_forall_not_mem, mem_sortedBy, List.mem_eraseDups]
  obtain ⟨records, hclosure, hiff⟩ : ∃ records,
      closure (payloadsFromRows read "record") (some (sortedBy id roots.eraseDups)) maxDepth =
        .ok records ∧
      (HoldsClosure (payloadsFromRows read "record") roots maxDepth records ↔
        roots ≠ [] ∨ payloadsFromRows read "record" = []) := by
    by_cases hroots : roots = []
    · obtain ⟨records, hclosure, hiff⟩ := exists_closure_nil hrelated maxDepth
      rw [empty_iff.mpr hroots, hroots]
      exact ⟨records, hclosure, hiff.trans (by simp)⟩
    · obtain ⟨records, hclosure, hholds⟩ := exists_closure hrelated
        (fun hnil => hroots (empty_iff.mp hnil)) maxDepth
      exact ⟨records, hclosure, iff_of_true (HoldsClosure.of_sorted.mp hholds) (.inl hroots)⟩
  have hselect := selectMembers_of_closure h hclosure
  have valid : ∀ record ∈ records, validateRecord record = .ok [] := by
    intro record hrecord
    have hfiled : Filed store .record record := h.filed (mem_of_closure hclosure hrecord)
    exact hfiled.valid
  obtain ⟨external, hexternal⟩ :=
    exists_externalReferences (some (sortedBy id roots.eraseDups)) valid
  refine ⟨records, _, _, ?_, ⟨⟨external, rfl⟩, rfl⟩, hiff⟩
  refine Py.bind_eq_ok_iff.mpr ⟨(), raiseIf_eq_ok_iff.mpr (by simp), ?_⟩
  refine Py.bind_eq_ok_iff.mpr ⟨(), rfl, Py.bind_eq_ok_iff.mpr ⟨_, hselect, ?_⟩⟩
  exact Py.bind_eq_ok_iff.mpr ⟨external, hexternal, rfl⟩

/-! ## Exports -/

/-- `MAX_CARRIER_RECORDS`. -/
def maxCarrierRecords : Nat := 1000

/-- `BundleCarrier.export`. -/
def exportBundle (store : StoreDir) (path : String) (present : Bool) (digests : List String) :
    Py (Fields × List Entry) :=
  createBundle store path present (some (digests.take maxCarrierRecords)) 0

theorem exportBundle_eq (store : StoreDir) (path : String) (present : Bool)
    (digests : List String) :
    exportBundle store path present digests =
      createBundle store path present (some (digests.take maxCarrierRecords)) (0 : Nat) := rfl

/-- A closure of depth zero holds the records its roots name. -/
theorem HoldsClosure.named {stored records : List Fields} {roots : List String}
    (h : HoldsClosure stored roots 0 records) {record : Fields} (hrecord : record ∈ records) :
    ∃ root ∈ roots, ∃ named, Resolves stored root named ∧ recordRef named = recordRef record := by
  obtain ⟨hops, hzero, hreached⟩ := (h.reached _).mp (List.mem_map_of_mem hrecord)
  obtain rfl := Nat.le_zero.mp hzero
  cases hreached with
  | first hrooted => exact hrooted

theorem holdsClosure_nil (stored : List Fields) (maxDepth : Nat) :
    HoldsClosure stored [] maxDepth [] :=
  ⟨by simp, List.nodup_nil, fun _ => iff_of_false (by simp) not_reached_nil⟩

/-- The bundle of a verified store holds the closure of its roots, and an export holds only records
that its digests name, exactly when the list is not empty or nothing is stored. -/
theorem bundle_closure_iff {store : StoreDir} (hstore : verify store = .ok [])
    (destination : String) (roots : List String) (maxDepth : Nat) :
    ∃ read, rows store = .ok read ∧
      (∃ records manifest archive,
        createBundle store destination false (some roots) maxDepth = .ok (manifest, archive) ∧
        Written read roots maxDepth records manifest archive ∧
        (HoldsClosure (payloadsFromRows read "record") roots maxDepth records ↔
          roots ≠ [] ∨ payloadsFromRows read "record" = [])) ∧
      ∃ records manifest archive,
        exportBundle store destination false roots = .ok (manifest, archive) ∧
        Written read (roots.take maxCarrierRecords) 0 records manifest archive ∧
        ((∀ record ∈ records, ∃ digest ∈ roots, ∃ named,
            Resolves (payloadsFromRows read "record") digest named ∧
              recordRef named = recordRef record) ↔
          roots ≠ [] ∨ payloadsFromRows read "record" = []) := by
  obtain ⟨read, hread⟩ := verify_eq_nil_iff.mp hstore
  refine ⟨read, hread.rows, exists_written hread destination roots maxDepth, ?_⟩
  obtain ⟨records, manifest, archive, hexport, hwritten, hiff⟩ :=
    exists_written hread destination (roots.take maxCarrierRecords) 0
  have taken : roots.take maxCarrierRecords ≠ [] ↔ roots ≠ [] := by
    rw [ne_eq, ne_eq, List.take_eq_nil_iff]
    simp [maxCarrierRecords]
  rw [taken] at hiff
  refine ⟨records, manifest, archive, ?_, hwritten, ?_⟩
  · rw [exportBundle_eq, hexport]
  rw [← hiff]
  constructor
  · intro hnamed
    by_cases hroots : roots = []
    · -- no record can be named by an empty list
      have none : records = [] := by
        apply List.eq_nil_iff_forall_not_mem.mpr
        intro record hrecord
        obtain ⟨digest, hdigest, -⟩ := hnamed record hrecord
        rw [hroots] at hdigest
        cases hdigest
      rw [none, hroots]
      exact holdsClosure_nil _ 0
    · exact hiff.mpr (.inl hroots)
  · intro hholds record hrecord
    obtain ⟨digest, hdigest, hnamed⟩ := hholds.named hrecord
    exact ⟨digest, List.mem_of_mem_take hdigest, hnamed⟩

theorem exists_verified_of_holding {store : StoreDir} {records events : List Fields} {count : Nat}
    (h : Holding store records events count) :
    ∃ read, Verified store read ∧ payloadsFromRows read "record" = records := by
  obtain ⟨read, hsound, hrecords, -⟩ := h.sound
  exact ⟨read, hsound.verified, hrecords⟩

/-- The bundle of a record that depends on another one holds both. -/
theorem dependent_bundle_closure :
    ∃ read, rows (Call.run .plain (.add .record dependent)
        (Call.run .plain (.add .record basis) .fresh).final).final = .ok read ∧
      ∃ records manifest archive, createBundle (Call.run .plain (.add .record dependent)
          (Call.run .plain (.add .record basis) .fresh).final).final "out.bundle" false
          (some [dependentDigest]) (1 : Nat) = .ok (manifest, archive) ∧
        HoldsClosure (payloadsFromRows read "record") [dependentDigest] 1 records := by
  obtain ⟨found, hfound, -⟩ := exists_verified_of_holding holding_dependent
  obtain ⟨read, hread, ⟨records, manifest, archive, hcreate, -, hiff⟩, -⟩ :=
    bundle_closure_iff (verify_eq_nil_iff.mpr ⟨found, hfound⟩) "out.bundle" [dependentDigest] 1
  exact ⟨read, hread, records, manifest, archive, hcreate, hiff.mpr (.inl (List.cons_ne_nil _ _))⟩

/-- An export of no digest from a store with a record holds a record. -/
theorem exists_empty_export {store : StoreDir} {read : List Fields} (h : Verified store read)
    (hstored : payloadsFromRows read "record" ≠ []) (path : String) :
    ∃ records manifest archive,
      exportBundle store path false [] = .ok (manifest, archive) ∧
      Written read [] 0 records manifest archive ∧ records ≠ [] ∧
      ¬ HoldsClosure (payloadsFromRows read "record") [] 0 records := by
  obtain ⟨records, manifest, archive, hcreate, hwritten, hiff⟩ := exists_written h path [] 0
  have open_ended : ¬ HoldsClosure (payloadsFromRows read "record") [] 0 records := fun hholds =>
    (hiff.mp hholds).elim (fun hne => hne rfl) hstored
  refine ⟨records, manifest, archive, ?_, hwritten, ?_, open_ended⟩
  · rw [exportBundle_eq, List.take_nil, hcreate]
  · rintro rfl
    exact open_ended (holdsClosure_nil _ 0)

/-- An empty list of digests exports what it does not name. -/
theorem empty_export_holds_records :
    ∃ read, rows (Call.run .plain (.add .record dependent)
        (Call.run .plain (.add .record basis) .fresh).final).final = .ok read ∧
      ∃ records manifest archive, exportBundle (Call.run .plain (.add .record dependent)
          (Call.run .plain (.add .record basis) .fresh).final).final "out.bundle" false [] =
            .ok (manifest, archive) ∧
        Written read [] 0 records manifest archive ∧ records ≠ [] ∧
        ¬ HoldsClosure (payloadsFromRows read "record") [] 0 records := by
  obtain ⟨read, hread, hrecords⟩ := exists_verified_of_holding holding_dependent
  have stored : payloadsFromRows read "record" ≠ [] := by
    rw [hrecords]
    exact List.cons_ne_nil _ _
  exact ⟨read, hread.rows, exists_empty_export hread stored "out.bundle"⟩

end MncsCommons.Bundle
