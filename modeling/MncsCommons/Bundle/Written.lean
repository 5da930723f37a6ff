/-
# Written bundles

A bundle that was written from a verified store holds valid records and events under
their own digests, and a manifest that lists them.  What is shown: it verifies exactly
where no member is listed twice and the reader's limits hold, none of which the writer
looks at.
-/

import MncsCommons.Bundle.Archive
import MncsCommons.Store.Records

namespace MncsCommons.Bundle

open MncsCommons.Data MncsCommons.Protocol MncsCommons.Store

/-! ## What is selected -/

theorem mem_of_byReference {records : List Fields} {entry : String × Fields}
    (h : entry ∈ byReference records) : entry.2 ∈ records := by
  have hset : ∀ (names : List (String × Fields)) (name : String), ∀ record ∈ records,
      (∀ entry ∈ names, entry.2 ∈ records) →
        ∀ entry ∈ Fields.set names name record, entry.2 ∈ records := by
    intro names name record hrecord hall entry hentry
    rcases Fields.mem_set hentry with hmem | rfl
    · exact hall entry hmem
    · exact hrecord
  -- every name that the fold has set is that of a record
  have hall : ∀ entry ∈ byReference records, entry.2 ∈ records := by
    rw [byReference]
    refine List.foldlRecOn (motive := fun names : List (String × Fields) =>
      ∀ entry ∈ names, entry.2 ∈ records) records _ (by simp) fun names hnames record hrecord => ?_
    dsimp only
    split
    · exact hset _ _ record hrecord hnames
    · split
      · exact hset _ _ record hrecord (hset _ _ record hrecord hnames)
      · exact hset _ _ record hrecord hnames
  exact hall entry h

theorem mem_of_followReferences {names found result : List (String × Fields)} {maxDepth : Int}
    {queue : List (String × Nat)} {records : List Fields}
    (hnames : ∀ entry ∈ names, entry.2 ∈ records) (hfound : ∀ entry ∈ found, entry.2 ∈ records)
    (h : followReferences names maxDepth found queue = .ok result) :
    ∀ entry ∈ result, entry.2 ∈ records := by
  have hmore : ∀ {found : List (String × Fields)} {reference : String} {record : Fields},
      (∀ entry ∈ found, entry.2 ∈ records) → Fields.get? names reference = some record →
        ∀ entry ∈ found ++ [(recordRef record, record)], entry.2 ∈ records := by
    intro found reference record hfound hrecord entry hentry
    rcases List.mem_append.mp hentry with hentry | hentry
    · exact hfound entry hentry
    · rw [List.mem_singleton.mp hentry]
      exact hnames (reference, record) (Fields.mem_of_get?_eq_some hrecord)
  fun_induction followReferences names maxDepth found queue with
  | case1 found =>
      obtain rfl := Except.ok.inj h
      exact hfound
  | case2 found reference depth queue hnone ih => exact ih hfound h
  | case3 found reference depth queue record hrecord hknown ih => exact ih hfound h
  | case4 found reference depth queue record hrecord hnew hdeep ih =>
      exact ih (hmore hfound hrecord) h
  | case5 found reference depth queue record hrecord hnew hdeep error herror => cases h
  | case6 found reference depth queue record hrecord hnew hdeep targets htargets ih =>
      exact ih (hmore hfound hrecord) h

/-- What roots reach is among the records. -/
theorem mem_of_closure {records chosen : List Fields} {roots : Option (List String)}
    {maxDepth : Int} (h : closure records roots maxDepth = .ok chosen) {record : Fields}
    (hrecord : record ∈ chosen) : record ∈ records := by
  obtain ⟨found, hfound, h⟩ := Py.bind_eq_ok_iff.mp h
  obtain rfl := Except.ok.inj h
  obtain ⟨entry, hentry, rfl⟩ := List.mem_map.mp (mem_sortedBy.mp hrecord)
  exact mem_of_followReferences (fun entry => mem_of_byReference) (by simp) hfound entry hentry

/-- A member that names its own digest and is valid. -/
structure Sound (member : Member) : Prop where
  wf : (Json.obj member.value).wf = true
  digest : Fields.get member.value "contentDigest" = .str (canonicalDigest member.value)
  valid : validateEntry member.type member.value = .ok []

/-- Members of a verified store are sound. -/
theorem sound_of_selectMembers {store : StoreDir} {read : List Fields}
    (hstore : Verified store read) {roots : Option (List String)} {maxDepth : Int}
    {records : List Fields} {members : List Member}
    (h : selectMembers store roots maxDepth = .ok (records, members)) :
    ∀ member ∈ members, Sound member := by
  have hsound : ∀ (type : ContentType) (order : Option Nat),
      ∀ value ∈ payloadsFromRows read type.value, Sound ⟨type, value, order⟩ :=
    fun type order value hvalue => ⟨wf_of_payloadsFromRows hstore.rows hvalue,
      hstore.contentDigest hvalue, (hstore.filed hvalue).valid⟩
  obtain ⟨rows, hrows, h⟩ := Py.bind_eq_ok_iff.mp h
  obtain rfl := Except.ok.inj (hstore.rows.symm.trans hrows)
  obtain ⟨chosen, hchosen, h⟩ := Py.bind_eq_ok_iff.mp h
  obtain ⟨events, hevents, h⟩ := Py.bind_eq_ok_iff.mp h
  obtain ⟨rfl, rfl⟩ := Prod.mk.inj (Except.ok.inj h)
  intro member hmember
  rcases List.mem_append.mp hmember with hmember | hmember
  · obtain ⟨record, hrecord, rfl⟩ := List.mem_map.mp hmember
    exact hsound .record none record (mem_of_closure hchosen hrecord)
  · obtain ⟨index, hindex, rfl⟩ := List.mem_mapIdx.mp hmember
    exact hsound .event (some index) _
      ((mem_filterWhere hevents).mp (List.getElem_mem hindex)).1

/-! ## Names of members -/

theorem Sound.digest_eq {member : Member} (h : Sound member) :
    member.digest = canonicalDigest member.value := by
  rw [Member.digest, recordRef, h.digest, Json.pyStr_str]

/-- The path of a member is its directory and a hash. -/
theorem Sound.path_eq {member : Member} (h : Sound member) :
    ∃ hash : Text, hash ≠ [] ∧ (∀ c ∈ hash, isLowerHex c = true) ∧
      member.path.toList = member.type.directory.toList ++ '/' :: (hash ++ ".json".toList) := by
  refine ⟨sha256Hex (dumps (.obj (identityProjection member.value))), ?_, ?_, ?_⟩
  · exact List.ne_nil_of_length_pos (by rw [length_sha256Hex]; decide)
  · exact fun c hc => isLowerHex_of_mem_sha256Hex hc
  · rw [Member.path, h.digest_eq, canonicalDigest, digestOfText, Str.removePrefix_append]
    simp

theorem Sound.safe {member : Member} (h : Sound member) :
    safeMemberName member.path = true ∧ member.path ≠ "manifest.json" ∧
      Str.startsWith member.path (member.type.directory ++ "/") = true := by
  obtain ⟨hash, hne, hhex, hpath⟩ := h.path_eq
  have hslash : '/' ∉ hash ++ ".json".toList := by
    intro hmem
    rcases List.mem_append.mp hmem with hmem | hmem
    · exact absurd (hhex _ hmem) (by decide)
    · exact absurd hmem (by decide)
  have hback : '\\' ∉ hash ++ ".json".toList := by
    intro hmem
    rcases List.mem_append.mp hmem with hmem | hmem
    · exact absurd (hhex _ hmem) (by decide)
    · exact absurd hmem (by decide)
  have hdots : hash ++ ".json".toList ≠ "..".toList := by
    intro heq
    have hlength := congrArg List.length heq
    simp at hlength
  refine ⟨?_, ?_, ?_⟩
  · have hstart : Str.startsWith member.path "/" = false := by
      rw [Str.startsWith, hpath]
      cases member.type <;> rfl
    have hparts : (Str.splitChar '/' member.path.toList).contains "..".toList = false := by
      rw [hpath, Str.splitChar_append (by cases member.type <;> decide),
        Str.splitChar_of_not_mem hslash, Bool.eq_false_iff, ne_eq, List.contains_iff_mem]
      intro hmem
      rcases List.mem_pair.mp hmem with heq | heq
      · exact absurd heq.symm (by cases member.type <;> decide)
      · exact hdots heq.symm
    have hnoback : member.path.toList.contains '\\' = false := by
      rw [hpath, Bool.eq_false_iff, ne_eq, List.contains_iff_mem, List.mem_append, List.mem_cons]
      rintro (hmem | heq | hmem)
      · exact absurd hmem (by cases member.type <;> decide)
      · exact absurd heq (by decide)
      · exact hback hmem
    have hnonempty : member.path ≠ "" := by
      intro hempty
      rw [hempty] at hpath
      exact absurd hpath (by cases member.type <;> simp [ContentType.directory])
    rw [safeMemberName, hstart, hparts, hnoback]
    simpa using hnonempty
  · intro hname
    rw [hname] at hpath
    have hmem : '/' ∈ "manifest.json".toList := by
      rw [hpath]
      simp
    exact absurd hmem (by decide)
  · rw [Str.startsWith, hpath, List.isPrefixOf_iff_prefix]
    exact ⟨hash ++ ".json".toList, by simp⟩

/-! ## The files of an archive -/

theorem foldl_set_of_nodup (members : List Member) (content : List (String × Text))
    (h : (Fields.keys content ++ members.map Member.path).Nodup) :
    members.foldl (fun content member => Fields.set content member.path member.data) content =
      content ++ members.map fun member => (member.path, member.data) := by
  induction members generalizing content with
  | nil => simp
  | cons member members ih =>
      have hnew : member.path ∉ Fields.keys content := fun hmem =>
        (List.nodup_append.mp h).2.2 _ hmem _ (by simp) rfl
      rw [List.foldl_cons, Fields.set_of_not_mem _ hnew, ih]
      · simp
      · simpa [Fields.keys] using h

/-- The files of members with distinct paths, in the order of the paths. -/
def memberEntries (members : List Member) : List Entry :=
  (sortedBy Member.path members).map fun member => regularEntry member.path member.data

theorem archiveOf_of_nodup {manifest : Fields} {members : List Member}
    (h : (members.map Member.path).Nodup) :
    archiveOf manifest members =
      regularEntry "manifest.json" (canonicalJson (.obj manifest)) :: memberEntries members := by
  rw [archiveOf, foldl_set_of_nodup members [] (by simpa [Fields.keys] using h), List.nil_append,
    ← map_sortedBy Prod.fst (fun member : Member => (member.path, member.data)) fun _ _ => rfl,
    List.map_map, memberEntries]
  rfl

/-- What the files of an archive must be for reading it. -/
structure Readable (entry : Entry) : Prop where
  safe : safeMemberName entry.name = true
  regular : entry.mode &&& 0o170000 ≠ 0o120000
  size : entry.data.byteSize ≤ maxBundleMemberBytes

/-- One file is read after another. -/
theorem readEntries_cons_eq_ok_iff {seen data : List (String × Text)} {total : Nat} {entry : Entry}
    {entries : List Entry} :
    readEntries seen total (entry :: entries) = .ok data ↔
      Readable entry ∧ Fields.has seen entry.name = false ∧
      total + entry.data.byteSize ≤ maxBundleBytes ∧
      readEntries (seen ++ [(entry.name, entry.data)]) (total + entry.data.byteSize) entries =
        .ok data := by
  rw [readEntries]
  constructor
  · intro h
    obtain ⟨⟨⟩, hname, h⟩ := Py.bind_eq_ok_iff.mp h
    obtain ⟨⟨⟩, hmode, h⟩ := Py.bind_eq_ok_iff.mp h
    obtain ⟨⟨⟩, hsize, h⟩ := Py.bind_eq_ok_iff.mp h
    obtain ⟨⟨⟩, htotal, h⟩ := Py.bind_eq_ok_iff.mp h
    obtain ⟨hsafe, hnew⟩ := Bool.or_eq_false_iff.mp (raiseIf_eq_ok_iff.mp hname)
    exact ⟨⟨by simpa using hsafe, of_decide_eq_false (raiseIf_eq_ok_iff.mp hmode),
      Nat.le_of_not_lt (of_decide_eq_false (raiseIf_eq_ok_iff.mp hsize))⟩, hnew,
      Nat.le_of_not_lt (of_decide_eq_false (raiseIf_eq_ok_iff.mp htotal)), h⟩
  · rintro ⟨⟨hsafe, hmode, hsize⟩, hnew, htotal, h⟩
    refine Py.bind_eq_ok_iff.mpr ⟨(), raiseIf_eq_ok_iff.mpr (by rw [hsafe, hnew]; rfl), ?_⟩
    refine Py.bind_eq_ok_iff.mpr ⟨(), raiseIf_eq_ok_iff.mpr (decide_eq_false hmode), ?_⟩
    refine Py.bind_eq_ok_iff.mpr
      ⟨(), raiseIf_eq_ok_iff.mpr (decide_eq_false (Nat.not_lt.mpr hsize)), ?_⟩
    exact Py.bind_eq_ok_iff.mpr
      ⟨(), raiseIf_eq_ok_iff.mpr (decide_eq_false (Nat.not_lt.mpr htotal)), h⟩

theorem has_append_single {seen : List (String × Text)} {name other : String} {text : Text} :
    Fields.has (seen ++ [(name, text)]) other = false ↔
      Fields.has seen other = false ∧ name ≠ other := by
  rw [Fields.has, Fields.get?_append, Option.isSome_or, Bool.or_eq_false_iff, Fields.has]
  by_cases hsame : name = other <;> simp [Fields.get?, hsame]

/-- Files are read when each is readable, no name repeats and all fit together. -/
theorem readEntries_eq_ok_iff {seen data : List (String × Text)} {total : Nat}
    {entries : List Entry} (htotal : total ≤ maxBundleBytes) :
    readEntries seen total entries = .ok data ↔
      (∀ entry ∈ entries, Readable entry ∧ Fields.has seen entry.name = false) ∧
      (entries.map Entry.name).Nodup ∧
      total + (entries.map fun entry => entry.data.byteSize).sum ≤ maxBundleBytes ∧
      data = seen ++ entries.map fun entry => (entry.name, entry.data) := by
  induction entries generalizing seen total with
  | nil =>
      constructor
      · intro h
        obtain rfl := Except.ok.inj h
        exact ⟨by simp, List.nodup_nil, by simpa using htotal, by simp⟩
      · rintro ⟨-, -, -, hdata⟩
        rw [hdata, List.map_nil, List.append_nil]
        rfl
  | cons entry entries ih =>
      rw [readEntries_cons_eq_ok_iff, List.forall_mem_cons, List.map_cons, List.nodup_cons,
        List.map_cons, List.sum_cons, List.map_cons, ← Nat.add_assoc]
      constructor
      · rintro ⟨hentry, hnew, hfits, h⟩
        obtain ⟨hall, hnodup, hsum, hdata⟩ := (ih hfits).mp h
        refine ⟨⟨⟨hentry, hnew⟩, fun other hother => ⟨(hall other hother).1,
          (has_append_single.mp (hall other hother).2).1⟩⟩, ⟨?_, hnodup⟩, hsum, by simpa using hdata⟩
        intro hmem
        obtain ⟨other, hother, hname⟩ := List.mem_map.mp hmem
        exact (has_append_single.mp (hall other hother).2).2 hname.symm
      · rintro ⟨⟨⟨hentry, hnew⟩, hall⟩, ⟨hfirst, hnodup⟩, hsum, hdata⟩
        have hfits : total + entry.data.byteSize ≤ maxBundleBytes :=
          le_trans (Nat.le_add_right _ _) hsum
        refine ⟨hentry, hnew, hfits, (ih hfits).mpr ⟨fun other hother => ⟨(hall other hother).1,
          has_append_single.mpr ⟨(hall other hother).2, fun heq => hfirst ?_⟩⟩, hnodup, hsum,
          by simpa using hdata⟩⟩
        exact List.mem_map.mpr ⟨other, hother, heq.symm⟩

/-! ## The listed members -/

/-- The line of a member, as it is read back. -/
def readListing (member : Member) : Json := .obj (Fields.sortKeys member.listing)

theorem get?_readListing (member : Member) (name : String)
    (h : name ∈ ["path", "kind", "contentDigest", "size"]) :
    Fields.get? (Fields.sortKeys member.listing) name = Fields.get? member.listing name := by
  rw [Fields.get?_sortKeys]
  simp only [List.mem_cons, List.not_mem_nil, or_false] at h
  rcases h with rfl | rfl | rfl | rfl <;> rfl

theorem get_readListing (member : Member) {name : String}
    (h : name ∈ ["path", "kind", "contentDigest", "size"]) :
    Fields.get (Fields.sortKeys member.listing) name = Fields.get member.listing name := by
  rw [Fields.get, Fields.get, get?_readListing member name h]

theorem memberPath_eq_ok {data : List (String × Text)} {seen : List String} {member : Member}
    {path : String} {raw : Text}
    (h : memberPath data seen (Fields.sortKeys member.listing) = .ok (path, raw)) :
    path = member.path ∧ member.path ∉ seen := by
  rw [memberPath, get?_readListing member "path" (by simp)] at h
  obtain ⟨⟨⟩, hnew, h⟩ := Py.bind_eq_ok_iff.mp h
  have hpath : ((Fields.get? member.listing "path").getD (.str "")).pyStr = member.path := rfl
  rw [hpath] at hnew h
  have hseen := (Bool.or_eq_false_iff.mp (raiseIf_eq_ok_iff.mp hnew)).2
  refine ⟨?_, fun hmem => by simp [hmem] at hseen⟩
  split at h
  · cases h
  · obtain ⟨⟨⟩, -, h⟩ := Py.bind_eq_ok_iff.mp h
    exact (Prod.mk.inj (Except.ok.inj h)).1.symm

theorem memberPath_readListing {data : List (String × Text)} {seen : List String}
    {member : Member} (hsound : Sound member)
    (hdata : Fields.get? data member.path = some member.data) (hnew : member.path ∉ seen) :
    memberPath data seen (Fields.sortKeys member.listing) = .ok (member.path, member.data) := by
  obtain ⟨hsafe, hmanifest, -⟩ := hsound.safe
  have hpath : ((Fields.get? member.listing "path").getD (.str "")).pyStr = member.path := rfl
  rw [memberPath, get?_readListing member "path" (by simp), hpath, hdata]
  refine Py.bind_eq_ok_iff.mpr ⟨(), raiseIf_eq_ok_iff.mpr (by simp [hsafe, hnew]), ?_⟩
  exact Py.bind_eq_ok_iff.mpr ⟨(), raiseIf_eq_ok_iff.mpr (by simpa using hmanifest), rfl⟩

theorem memberType_readListing {member : Member} (hsound : Sound member) :
    memberType (Fields.sortKeys member.listing) member.path = .ok member.type := by
  have hkind : Fields.get member.listing "kind" = .str member.type.value := rfl
  have hstart := hsound.safe.2.2
  rw [memberType, get_readListing member (by simp), hkind]
  refine Py.bind_eq_ok_iff.mpr ⟨member.type, by cases member.type <;> decide, ?_⟩
  exact Py.bind_eq_ok_iff.mpr ⟨(), raiseIf_eq_ok_iff.mpr (by rw [hstart]; rfl), rfl⟩

theorem memberValue_data {member : Member} (hsound : Sound member) :
    memberValue member.data member.path = .ok (canonFields member.value) := by
  have hloads : loads member.data = some (.obj (canonFields member.value)) := by
    rw [Member.data, loads_canonicalJson hsound.wf, canon_obj]
  have hcanonical : canonicalJson (.obj (canonFields member.value)) = member.data := by
    rw [← canon_obj, canonicalJson_canon, Member.data]
  rw [memberValue, hloads]
  exact Py.bind_eq_ok_iff.mpr ⟨(), raiseIf_eq_ok_iff.mpr (by simp [hcanonical]), rfl⟩

/-- The line of a sound member checks where its file is there. -/
theorem checkMember_readListing {data : List (String × Text)} {seen : List String}
    {member : Member} (hsound : Sound member)
    (hdata : Fields.get? data member.path = some member.data) (hnew : member.path ∉ seen) :
    checkMember data seen (readListing member) = .ok (member.path, []) := by
  have hsize : Fields.get member.listing "size" = .int member.data.byteSize := rfl
  have hdigest : (Fields.get member.listing "contentDigest").pyStr =
      canonicalDigest member.value := hsound.digest_eq
  have hvalid : validateEntry member.type (canonFields member.value) = .ok [] := by
    have hmember := hsound.valid
    revert hmember
    cases member.type with
    | record => exact (validateRecord_canonFields hsound.wf).mpr
    | event => exact (validateEvent_canonFields hsound.wf).mpr
  rw [readListing, checkMember]
  refine Py.bind_eq_ok_iff.mpr ⟨_, memberPath_readListing hsound hdata hnew, ?_⟩
  refine Py.bind_eq_ok_iff.mpr ⟨_, memberType_readListing hsound, ?_⟩
  refine Py.bind_eq_ok_iff.mpr ⟨(), raiseIf_eq_ok_iff.mpr ?_, ?_⟩
  · rw [get_readListing member (by simp), hsize, Json.pyEq_self]
    rfl
  refine Py.bind_eq_ok_iff.mpr ⟨_, memberValue_data hsound, ?_⟩
  refine Py.bind_eq_ok_iff.mpr ⟨(), raiseIf_eq_ok_iff.mpr ?_, ?_⟩
  · rw [get_readListing member (by simp), hdigest, canonicalDigest_canonFields hsound.wf]
    simp
  exact Py.bind_eq_ok_iff.mpr ⟨[], hvalid, rfl⟩

/-- The lines of sound members check when no path repeats. -/
theorem checkMembers_readListing {data : List (String × Text)} {seen : List String}
    {members : List Member} (hsound : ∀ member ∈ members, Sound member)
    (hdata : ∀ member ∈ members, Fields.get? data member.path = some member.data)
    (hnodup : (seen ++ members.map Member.path).Nodup) :
    checkMembers data seen (members.map readListing) =
      .ok (seen ++ members.map Member.path, []) := by
  induction members generalizing seen with
  | nil => simp [checkMembers]
  | cons member members ih =>
      have hnew : member.path ∉ seen := fun hmem =>
        (List.nodup_append.mp hnodup).2.2 _ hmem _ (by simp) rfl
      have hrest := @ih (seen ++ [member.path])
        (fun other hother => hsound other (List.mem_cons_of_mem _ hother))
        (fun other hother => hdata other (List.mem_cons_of_mem _ hother)) (by simpa using hnodup)
      rw [List.map_cons, checkMembers]
      refine Py.bind_eq_ok_iff.mpr ⟨_, checkMember_readListing (hsound member List.mem_cons_self)
        (hdata member List.mem_cons_self) hnew, ?_⟩
      refine Py.bind_eq_ok_iff.mpr ⟨_, hrest, ?_⟩
      simp [pure, Except.pure]

/-- Lines that check repeat no path. -/
theorem nodup_of_checkMembers {data : List (String × Text)} {seen : List String}
    {members : List Member} {result : List String × List Diagnostic}
    (h : checkMembers data seen (members.map readListing) = .ok result) (hseen : seen.Nodup) :
    (seen ++ members.map Member.path).Nodup := by
  induction members generalizing seen result with
  | nil => simpa using hseen
  | cons member members ih =>
      rw [List.map_cons, checkMembers] at h
      obtain ⟨⟨path, first⟩, hfirst, h⟩ := Py.bind_eq_ok_iff.mp h
      obtain ⟨rest, hrest, -⟩ := Py.bind_eq_ok_iff.mp h
      rw [readListing, checkMember] at hfirst
      obtain ⟨⟨found, raw⟩, hpath, hfirst⟩ := Py.bind_eq_ok_iff.mp hfirst
      obtain ⟨_, -, hfirst⟩ := Py.bind_eq_ok_iff.mp hfirst
      obtain ⟨⟨⟩, -, hfirst⟩ := Py.bind_eq_ok_iff.mp hfirst
      obtain ⟨_, -, hfirst⟩ := Py.bind_eq_ok_iff.mp hfirst
      obtain ⟨⟨⟩, -, hfirst⟩ := Py.bind_eq_ok_iff.mp hfirst
      obtain ⟨_, -, hfirst⟩ := Py.bind_eq_ok_iff.mp hfirst
      obtain ⟨rfl, -⟩ := Prod.mk.inj (Except.ok.inj hfirst)
      obtain ⟨rfl, hnew⟩ := memberPath_eq_ok hpath
      have hnodup := ih hrest (List.nodup_append.mpr ⟨hseen, List.nodup_singleton _, by
        rintro name hname _ hlast rfl
        exact hnew (List.mem_singleton.mp hlast ▸ hname)⟩)
      simpa using hnodup

/-! ## The manifest -/

theorem wf_strings (texts : List String) : (Json.arr (texts.map .str)).wf = true := by
  rw [Json.wf_arr_iff]
  simp [Json.wf]

theorem wf_listing (member : Member) : (Json.obj member.listing).wf = true := by
  rw [Json.wf_obj_iff, Member.listing]
  cases member.order <;> simp [Fields.keys, Json.wf]

section Manifest

variable {roots : Option (List String)} {maxDepth : Int} {selected external : List String}
  {members : List Member}

theorem wf_sealed :
    (Json.obj (sealed (manifestBody roots maxDepth selected members external))).wf = true := by
  have hmembers : (Json.arr ((sortedBy Member.path members).map fun member =>
      .obj member.listing)).wf = true := by
    rw [Json.wf_arr_iff]
    intro item hitem
    obtain ⟨member, -, rfl⟩ := List.mem_map.mp hitem
    exact wf_listing member
  rw [Json.wf_obj_iff]
  refine ⟨by simp [sealed, manifestBody, Fields.keys], ?_⟩
  simp only [sealed, manifestBody, List.forall_mem_append, List.forall_mem_cons, hmembers,
    wf_strings, true_and]
  simp [Json.wf, Json.wfFields, Fields.keys]

/-- What the manifest reads back as. -/
theorem loads_manifest :
    loads (canonicalJson (.obj (sealed (manifestBody roots maxDepth selected members external)))) =
      some (.obj (Fields.sortKeys
        (sealed (manifestBody roots maxDepth selected members external)))) := by
  rw [loads_canonicalJson wf_sealed, canon_obj, canonFields_of_inert_keys]
  show ∀ key ∈ ["bundleVersion", "roots", "maxDepth", "members", "externalReferences", "security",
    "bundleDigest"], Inert [key]
  decide

theorem bundleDigest_sortKeys_sealed :
    bundleDigest (Fields.sortKeys
      (sealed (manifestBody roots maxDepth selected members external))) =
      bundleDigest (manifestBody roots maxDepth selected members external) := by
  rw [bundleDigest, Fields.erase_sortKeys, canonicalDigestOfAll_sortKeys]
  rfl

theorem members_sortKeys_sealed :
    Fields.get (Fields.sortKeys (sealed (manifestBody roots maxDepth selected members external)))
      "members" = .arr ((sortedBy Member.path members).map readListing) := by
  rw [Fields.get_sortKeys]
  show (Json.arr ((sortedBy Member.path members).map fun member =>
    .obj member.listing)).sortKeys = _
  rw [Json.sortKeys_arr, List.map_map]
  congr 1
  refine List.map_congr_left fun member _ => ?_
  exact Json.sortKeys_obj_eq member.listing

end Manifest

/-! ## The limits of a reader -/

/-- The file of a member. -/
def Member.entry (member : Member) : Entry := regularEntry member.path member.data

/-- The manifest and the members are within the limits of a reader. -/
structure Fits (manifest : Fields) (members : List Member) : Prop where
  files : members.length + 1 ≤ maxBundleFiles
  manifestBytes : (canonicalJson (.obj manifest)).byteSize ≤ maxBundleMemberBytes
  memberBytes : ∀ member ∈ members, member.data.byteSize ≤ maxBundleMemberBytes
  bytes : archiveBytes (regularEntry "manifest.json" (canonicalJson (.obj manifest)) ::
    members.map Member.entry) ≤ maxBundleBytes

theorem memberEntries_perm (members : List Member) :
    (memberEntries members).Perm (members.map Member.entry) :=
  (sortedBy_perm Member.path members).map _

theorem archiveBytes_perm {first second : List Entry} (h : first.Perm second) :
    archiveBytes first = archiveBytes second := by
  rw [archiveBytes, archiveBytes, (h.map _).sum_eq]

theorem sum_byteSize_le_archiveBytes (archive : List Entry) :
    (archive.map fun entry => entry.data.byteSize).sum ≤ archiveBytes archive := by
  rw [archiveBytes]
  refine le_trans (List.sum_le_sum fun entry _ => ?_) (Nat.le_add_left _ _)
  exact Nat.le_add_left _ _

theorem regular_mode : 0o100644 &&& 0o170000 ≠ 0o120000 := by decide

section Reading

variable {manifest : Fields} {members : List Member}

/-- The archive of sound members is read when it is within the limits. -/
theorem readEntries_archiveOf (hsound : ∀ member ∈ members, Sound member)
    (hnodup : (members.map Member.path).Nodup) (hfits : Fits manifest members) :
    readEntries [] 0 (archiveOf manifest members) =
      .ok ((archiveOf manifest members).map fun entry => (entry.name, entry.data)) := by
  have hperm := memberEntries_perm members
  rw [archiveOf_of_nodup hnodup, readEntries_eq_ok_iff (Nat.zero_le _), Nat.zero_add]
  refine ⟨fun entry hentry => ⟨?_, rfl⟩, ?_, ?_, (List.nil_append _).symm⟩
  · rcases List.mem_cons.mp hentry with rfl | hentry
    · exact ⟨show safeMemberName "manifest.json" = true by decide, regular_mode,
        hfits.manifestBytes⟩
    · obtain ⟨member, hmember, rfl⟩ := List.mem_map.mp (hperm.mem_iff.mp hentry)
      exact ⟨(hsound member hmember).safe.1, regular_mode, hfits.memberBytes member hmember⟩
  · rw [List.map_cons, List.nodup_cons, (hperm.map Entry.name).nodup_iff, List.map_map,
      (hperm.map Entry.name).mem_iff, List.map_map]
    refine ⟨fun hmem => ?_, hnodup⟩
    obtain ⟨member, hmember, hname⟩ := List.mem_map.mp hmem
    exact (hsound member hmember).safe.2.1 hname
  · refine le_trans (sum_byteSize_le_archiveBytes _) ?_
    rw [archiveBytes_perm (hperm.cons _)]
    exact hfits.bytes

/-- What is read of an archive is within the limits. -/
theorem fits_of_readEntries {data : List (String × Text)}
    (hnodup : (members.map Member.path).Nodup)
    (hbytes : archiveBytes (archiveOf manifest members) ≤ maxBundleBytes)
    (hfiles : (archiveOf manifest members).length ≤ maxBundleFiles)
    (h : readEntries [] 0 (archiveOf manifest members) = .ok data) : Fits manifest members := by
  have hperm := memberEntries_perm members
  rw [archiveOf_of_nodup hnodup] at hbytes hfiles h
  obtain ⟨hreadable, -, -, -⟩ := (readEntries_eq_ok_iff (Nat.zero_le _)).mp h
  refine ⟨?_, (hreadable _ List.mem_cons_self).1.size, fun member hmember => ?_, ?_⟩
  · rwa [List.length_cons, hperm.length_eq, List.length_map] at hfiles
  · have hentry : member.entry ∈ memberEntries members :=
      hperm.mem_iff.mpr (List.mem_map_of_mem hmember)
    exact (hreadable _ (List.mem_cons_of_mem _ hentry)).1.size
  · rwa [archiveBytes_perm (hperm.cons _)] at hbytes

end Reading

/-- The file of the manifest is the first. -/
theorem get?_manifest {manifest : Fields} {members : List Member} {data : List (String × Text)}
    (h : readEntries [] 0 (archiveOf manifest members) = .ok data) :
    Fields.get? data "manifest.json" = some (canonicalJson (.obj manifest)) := by
  obtain ⟨-, -, -, rfl⟩ := (readEntries_eq_ok_iff (Nat.zero_le _)).mp h
  rfl

section Verification

variable {roots : Option (List String)} {maxDepth : Int} {selected external : List String}
  {members : List Member} {manifest : Fields}

/-- What is read of a written archive. -/
theorem readMembers_archiveOf
    (hmanifest : manifest = sealed (manifestBody roots maxDepth selected members external))
    (hsound : ∀ member ∈ members, Sound member) (hnodup : (members.map Member.path).Nodup)
    (hfits : Fits manifest members) :
    readMembers (archiveOf manifest members) = .ok (Fields.sortKeys manifest,
      (archiveOf manifest members).map fun entry => (entry.name, entry.data)) := by
  have hread := readEntries_archiveOf hsound hnodup hfits
  have hperm := memberEntries_perm members
  have hbytes : archiveBytes (archiveOf manifest members) ≤ maxBundleBytes := by
    rw [archiveOf_of_nodup hnodup, archiveBytes_perm (hperm.cons _)]
    exact hfits.bytes
  have hfiles : (archiveOf manifest members).length ≤ maxBundleFiles := by
    rw [archiveOf_of_nodup hnodup, List.length_cons, hperm.length_eq, List.length_map]
    exact hfits.files
  rw [readMembers]
  refine Py.bind_eq_ok_iff.mpr
    ⟨(), raiseIf_eq_ok_iff.mpr (decide_eq_false (Nat.not_lt.mpr hbytes)), ?_⟩
  refine Py.bind_eq_ok_iff.mpr
    ⟨(), raiseIf_eq_ok_iff.mpr (decide_eq_false (Nat.not_lt.mpr hfiles)), ?_⟩
  refine Py.bind_eq_ok_iff.mpr ⟨_, hread, ?_⟩
  rw [get?_manifest hread]
  subst hmanifest
  simp only [loads_manifest]
  refine Py.bind_eq_ok_iff.mpr ⟨(), raiseIf_eq_ok_iff.mpr ?_, rfl⟩
  rw [← Json.sortKeys_obj_eq, canonicalJson_sortKeys]
  simp

/-- What was read of a written archive was within the limits. -/
theorem readMembers_eq_ok
    (hmanifest : manifest = sealed (manifestBody roots maxDepth selected members external))
    {found : Fields} {data : List (String × Text)}
    (h : readMembers (archiveOf manifest members) = .ok (found, data)) :
    found = Fields.sortKeys manifest ∧
      archiveBytes (archiveOf manifest members) ≤ maxBundleBytes ∧
      (archiveOf manifest members).length ≤ maxBundleFiles ∧
      readEntries [] 0 (archiveOf manifest members) = .ok data := by
  rw [readMembers] at h
  obtain ⟨⟨⟩, hbytes, h⟩ := Py.bind_eq_ok_iff.mp h
  obtain ⟨⟨⟩, hfiles, h⟩ := Py.bind_eq_ok_iff.mp h
  obtain ⟨read, hread, h⟩ := Py.bind_eq_ok_iff.mp h
  rw [get?_manifest hread] at h
  subst hmanifest
  simp only [loads_manifest] at h
  obtain ⟨⟨⟩, -, h⟩ := Py.bind_eq_ok_iff.mp h
  obtain ⟨rfl, rfl⟩ := Prod.mk.inj (Except.ok.inj h)
  exact ⟨rfl, Nat.le_of_not_lt (of_decide_eq_false (raiseIf_eq_ok_iff.mp hbytes)),
    Nat.le_of_not_lt (of_decide_eq_false (raiseIf_eq_ok_iff.mp hfiles)), hread⟩

/-- A written archive checks when no path repeats and it is within the limits. -/
theorem checkBundle_archiveOf
    (hmanifest : manifest = sealed (manifestBody roots maxDepth selected members external))
    (hsound : ∀ member ∈ members, Sound member) (hnodup : (members.map Member.path).Nodup)
    (hfits : Fits manifest members) :
    ∃ verification, checkBundle (archiveOf manifest members) = .ok verification ∧
      verification.valid = true := by
  have hperm := memberEntries_perm members
  have hsorted := sortedBy_perm Member.path members
  have hread := readMembers_archiveOf hmanifest hsound hnodup hfits
  have hdata : ∀ member ∈ members, Fields.get? ((archiveOf manifest members).map fun entry =>
      (entry.name, entry.data)) member.path = some member.data := by
    intro member hmember
    obtain ⟨-, hnames, -, -⟩ := (readEntries_eq_ok_iff (Nat.zero_le _)).mp
      (readEntries_archiveOf hsound hnodup hfits)
    refine Fields.get?_eq_some_of_mem ?_ (List.mem_map.mpr ⟨member.entry, ?_, rfl⟩)
    · rw [Fields.keys, List.map_map]
      exact hnames
    · rw [archiveOf_of_nodup hnodup]
      exact List.mem_cons_of_mem _ (hperm.mem_iff.mpr (List.mem_map_of_mem hmember))
  have hmembers := @checkMembers_readListing ((archiveOf manifest members).map fun entry =>
      (entry.name, entry.data)) [] (sortedBy Member.path members)
    (fun member hmember => hsound member (hsorted.mem_iff.mp hmember))
    (fun member hmember => hdata member (hsorted.mem_iff.mp hmember))
    (by simpa using ((hsorted.map Member.path).nodup_iff).mpr hnodup)
  have hversion : Fields.get (Fields.sortKeys manifest) "bundleVersion" = .str bundleVersion := by
    rw [Fields.get_sortKeys, hmanifest]
    rfl
  have hdigest : Fields.get (Fields.sortKeys manifest) "bundleDigest" =
      .str (bundleDigest (Fields.sortKeys manifest)) := by
    rw [hmanifest, bundleDigest_sortKeys_sealed, Fields.get_sortKeys]
    rfl
  have hlisted : Fields.get (Fields.sortKeys manifest) "members" =
      .arr ((sortedBy Member.path members).map readListing) := by
    rw [hmanifest, members_sortKeys_sealed]
  refine ⟨⟨true, some (Fields.sortKeys manifest), []⟩, ?_, rfl⟩
  rw [checkBundle]
  refine Py.bind_eq_ok_iff.mpr ⟨_, hread, ?_⟩
  refine Py.bind_eq_ok_iff.mpr ⟨[], reportIf_eq_nil_iff.mpr (by simp [hversion]), ?_⟩
  refine Py.bind_eq_ok_iff.mpr ⟨[], reportIf_eq_nil_iff.mpr (by simp [← hdigest]), ?_⟩
  simp only [hlisted]
  refine Py.bind_eq_ok_iff.mpr ⟨(), raiseIf_eq_ok_iff.mpr (decide_eq_false ?_), ?_⟩
  · rw [List.length_map, length_sortedBy]
    exact Nat.not_lt.mpr (le_trans (Nat.le_succ _) hfits.files)
  refine Py.bind_eq_ok_iff.mpr ⟨_, hmembers, ?_⟩
  refine Py.bind_eq_ok_iff.mpr ⟨(), raiseIf_eq_ok_iff.mpr ?_, rfl⟩
  rw [Bool.not_eq_false', List.all_eq_true]
  intro name hname
  rw [archiveOf_of_nodup hnodup, Fields.keys, List.map_map, List.map_cons] at hname
  rw [Bool.or_eq_true, decide_eq_true_eq, List.contains_iff_mem]
  rcases List.mem_cons.mp hname with rfl | hname
  · exact .inl rfl
  · obtain ⟨entry, hentry, rfl⟩ := List.mem_map.mp hname
    obtain ⟨member, hmember, rfl⟩ := List.mem_map.mp hentry
    exact .inr (List.mem_map_of_mem hmember)

/-- What checks repeats no path and is within the limits. -/
theorem fits_of_checkBundle
    (hmanifest : manifest = sealed (manifestBody roots maxDepth selected members external))
    {verification : BundleVerification}
    (h : checkBundle (archiveOf manifest members) = .ok verification) :
    (members.map Member.path).Nodup ∧ Fits manifest members := by
  rw [checkBundle] at h
  obtain ⟨⟨found, data⟩, hread, h⟩ := Py.bind_eq_ok_iff.mp h
  obtain ⟨rfl, hbytes, hfiles, hentries⟩ := readMembers_eq_ok hmanifest hread
  obtain ⟨_, -, h⟩ := Py.bind_eq_ok_iff.mp h
  obtain ⟨_, -, h⟩ := Py.bind_eq_ok_iff.mp h
  have hlisted : Fields.get (Fields.sortKeys manifest) "members" =
      .arr ((sortedBy Member.path members).map readListing) := by
    rw [hmanifest, members_sortKeys_sealed]
  simp only [hlisted] at h
  obtain ⟨_, -, h⟩ := Py.bind_eq_ok_iff.mp h
  obtain ⟨_, hchecked, -⟩ := Py.bind_eq_ok_iff.mp h
  have hnodup : (members.map Member.path).Nodup := by
    have hpaths := nodup_of_checkMembers hchecked List.nodup_nil
    exact ((sortedBy_perm Member.path members).map Member.path).nodup_iff.mp (by simpa using hpaths)
  exact ⟨hnodup, fits_of_readEntries hnodup hbytes hfiles hentries⟩

end Verification

/-- What a bundle is made of. -/
theorem parts_of_createBundle {store : StoreDir} {destination : String} {present : Bool}
    {roots : Option (List String)} {maxDepth : Int} {manifest : Fields} {archive : List Entry}
    (h : createBundle store destination present roots maxDepth = .ok (manifest, archive)) :
    ∃ records members external,
      selectMembers store (roots.map fun roots => sortedBy id roots.eraseDups) maxDepth =
        .ok (records, members) ∧
      manifest = sealed (manifestBody (roots.map fun roots => sortedBy id roots.eraseDups) maxDepth
        (records.map recordRef) members external) ∧
      archive = archiveOf manifest members := by
  obtain ⟨_, -, h⟩ := Py.bind_eq_ok_iff.mp h
  obtain ⟨_, -, h⟩ := Py.bind_eq_ok_iff.mp h
  obtain ⟨⟨records, members⟩, hselect, h⟩ := Py.bind_eq_ok_iff.mp h
  obtain ⟨external, -, h⟩ := Py.bind_eq_ok_iff.mp h
  obtain ⟨rfl, rfl⟩ := Prod.mk.inj (Except.ok.inj h)
  exact ⟨records, members, external, hselect, rfl, rfl⟩

theorem followReferences_nil (maxDepth : Int) (queue : List (String × Nat)) :
    followReferences [] maxDepth [] queue = .ok [] := by
  induction queue with
  | nil => simp [followReferences]
  | cons reference queue ih =>
      obtain ⟨reference, depth⟩ := reference
      rw [followReferences]
      simpa [Fields.get?] using ih

theorem selectMembers_fresh (roots : Option (List String)) (maxDepth : Int) :
    selectMembers .fresh roots maxDepth = .ok ([], []) := by
  rw [selectMembers, verified_fresh.rows]
  refine Py.bind_eq_ok_iff.mpr ⟨[], rfl, Py.bind_eq_ok_iff.mpr ⟨[], ?_, rfl⟩⟩
  exact Py.bind_eq_ok_iff.mpr ⟨[], followReferences_nil maxDepth _, rfl⟩

/-- The manifest of a bundle of a new store. -/
def newManifest (roots : Option (List String)) (maxDepth : Int) : Fields :=
  sealed (manifestBody roots maxDepth [] [] (sortedBy id (roots.getD []).eraseDups))

theorem createBundle_fresh (destination : String) (roots : Option (List String)) {maxDepth : Int}
    (h : 0 ≤ maxDepth) :
    createBundle .fresh destination false roots maxDepth =
      .ok (newManifest (roots.map fun roots => sortedBy id roots.eraseDups) maxDepth,
        archiveOf (newManifest (roots.map fun roots => sortedBy id roots.eraseDups) maxDepth) []) := by
  have hexternal : ∀ roots, externalReferences roots [] =
      .ok (sortedBy id (roots.getD []).eraseDups) := by
    intro roots
    simp [externalReferences, collect, bind, Except.bind, pure, Except.pure]
  rw [createBundle]
  refine Py.bind_eq_ok_iff.mpr ⟨(), raiseIf_eq_ok_iff.mpr (by simpa using h), ?_⟩
  refine Py.bind_eq_ok_iff.mpr ⟨(), rfl, Py.bind_eq_ok_iff.mpr ⟨_, selectMembers_fresh _ _, ?_⟩⟩
  exact Py.bind_eq_ok_iff.mpr ⟨_, hexternal _, rfl⟩

theorem byteSize_newManifest :
    (canonicalJson (.obj (newManifest none 2))).byteSize ≤ 1000 := by
  rw [canonicalJson, dumps_eq_quickDumps]
  decide +kernel

/-- A root longer than a file may be makes the manifest too long to be read. -/
theorem not_valid_of_long_root {root : String} (h : maxBundleMemberBytes < root.length)
    {path : String} {verification : BundleVerification}
    (hverify : verifyBundle path (archiveOf (newManifest (some [root]) 0) []) = .ok verification) :
    verification.valid = false := by
  cases hchecked : checkBundle (archiveOf (newManifest (some [root]) 0) []) with
  | ok checked =>
      have hfits : (canonicalJson (.obj (newManifest (some [root]) 0))).byteSize ≤
          maxBundleMemberBytes := (fits_of_checkBundle rfl hchecked).2.manifestBytes
      have hlisted : ("roots", Json.arr [.str root]) ∈ newManifest (some [root]) 0 := by
        simp [newManifest, sealed, manifestBody]
      have hsize := Json.size_le_size_obj hlisted
      have hlong := Json.length_le_stringSize root
      rw [byteSize_canonicalJson] at hfits
      rw [Json.size_arr, List.map_singleton, List.sum_singleton, Json.size_str] at hsize
      omega
  | error error =>
      simp only [verifyBundle, hchecked] at hverify
      split at hverify
      · obtain rfl := Except.ok.inj hverify
        rfl
      · cases hverify

end MncsCommons.Bundle
