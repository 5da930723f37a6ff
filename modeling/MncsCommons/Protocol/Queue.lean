/-
# Reading the work queue

A projection checks the revisions of a work record again, by its own notion of a
history.  A `Lineage` is what that notion asks for: a work history whose records
are numbered from 1 and name each other's digests.  A lineage is projected to its
last record (`Lineage.project`).

The queue is read as a whole, so one record that cannot be read fails it for all
others.  `QueueRecord` says what the readers take from a record; a list of
lineages of such records is read by all of them (`QueueReadable`).
-/

import MncsCommons.Protocol.Proposals
import MncsCommons.Protocol.RequestRecords

namespace MncsCommons.Protocol

open MncsCommons.Data

/-! ## Computations over lists -/

section Lists

variable {α β : Type}

/-- A selection of items returns when the test does for every item. -/
theorem exists_selectPy {test : α → Py Bool} {items : List α}
    (h : ∀ item ∈ items, ∃ found, test item = .ok found) :
    ∃ found, selectPy test items = .ok found ∧
      ∀ item, item ∈ found ↔ item ∈ items ∧ test item = .ok true := by
  induction items with
  | nil => exact ⟨[], rfl, by simp⟩
  | cons item items ih =>
      rw [List.forall_mem_cons] at h
      obtain ⟨first, hfirst⟩ := h.1
      obtain ⟨rest, hrest, hmem⟩ := ih h.2
      refine ⟨if first then item :: rest else rest, by rw [selectPy, hfirst, hrest]; rfl, ?_⟩
      cases first <;> grind

theorem exists_narrow {names : List String} {test : α → Py Bool} {items : List α}
    (h : ∀ item ∈ items, ∃ found, test item = .ok found) :
    ∃ found, narrow names test items = .ok found ∧
      ∀ item, item ∈ found ↔ item ∈ items ∧ (names = [] ∨ test item = .ok true) := by
  by_cases hnames : names = []
  · exact ⟨items, by rw [narrow, hnames]; rfl, by simp [hnames]⟩
  · obtain ⟨found, hfound, hmem⟩ := exists_selectPy h
    exact ⟨found, by rw [narrow, List.isEmpty_eq_false_iff.mpr hnames, hfound]; rfl, by simp [hnames, hmem]⟩

end Lists

/-! ## Lineages -/

/-- A work history whose records are numbered from 1 and name each other's
digests. -/
structure Lineage (items : List Fields) : Prop where
  history : WorkHistory items
  numbered : ∀ (index : Nat) record, items[index]? = some record →
    Fields.get (metadataOf record) "revision" = .int (index + 1 : Nat)
  first : ∀ first ∈ items.head?, Fields.get (metadataOf first) "previousDigest" = .null
  linked : items.IsChain fun earlier later =>
    Fields.get (metadataOf later) "previousDigest" = .str (digestOf earlier)

/-- What a history shows of a revision. -/
def revisionView (number : Nat) (record : Fields) : WorkRevision :=
  ⟨number, digestOf record, Fields.get (metadataOf record) "createdAt", (stateOf record).pyStr,
    (Fields.get? (detailsOf record) "stateEvent").getD (.obj [])⟩

theorem projectRevision_first {record : Fields}
    (hnumber : Fields.get (metadataOf record) "revision" = .int 1)
    (hprevious : Fields.get (metadataOf record) "previousDigest" = .null)
    (hstate : stateOf record = .str "submitted") :
    projectRevision 1 none record = .ok (revisionView 1 record) := by
  rw [stateOf] at hstate
  simp [projectRevision, revisionView, stateOf, hnumber, hprevious, hstate, raiseIf, Json.pyEq_self,
    bind, Except.bind, pure, Except.pure]

theorem projectRevision_next {number : Nat} {earlier later : Fields}
    (hnumber : Fields.get (metadataOf later) "revision" = .int number)
    (hprevious : Fields.get (metadataOf later) "previousDigest" = .str (digestOf earlier))
    (hstep : WorkStep earlier later) :
    projectRevision number (some (digestOf earlier, (stateOf earlier).pyStr)) later =
      .ok (revisionView number later) := by
  obtain ⟨before, after, hbefore, hafter, hallowed⟩ := hstep.state
  obtain ⟨event, hevent, hfrom⟩ := hstep.event
  have hget := Fields.get?_of_get hevent (by simp)
  have hmove : ¬ (¬after = before ∧ after ∉ allowedWorkTransitions before) :=
    fun hbad => hbad.2 (hallowed.resolve_left hbad.1)
  rw [stateOf] at hbefore hafter hfrom
  rw [hbefore] at hfrom
  simp [projectRevision, revisionView, stateOf, hnumber, hprevious, hafter, hget, hbefore, hfrom,
    Json.str?, Json.obj?, raiseIf, Json.pyEq_self, bind, Except.bind, pure, Except.pure, if_neg hmove]

/-- One more revision in front. -/
theorem projectRevisions_cons {number : Nat} {item : Fields} {items : List Fields}
    (h : projectRevisions (number + 1) (some (digestOf item, (stateOf item).pyStr)) items =
      .ok (items.mapIdx fun index => revisionView (number + 1 + index))) :
    (do
        let revision ← (.ok (revisionView number item) : Py WorkRevision)
        return revision :: (← projectRevisions (number + 1)
          (some (revision.digest, revision.state)) items)) =
      (.ok ((item :: items).mapIdx fun index => revisionView (number + index)) :
        Py (List WorkRevision)) := by
  show (projectRevisions (number + 1) (some (digestOf item, (stateOf item).pyStr)) items >>= _) = _
  rw [h]
  simp [bind, Except.bind, pure, Except.pure, List.mapIdx_cons, Nat.add_assoc, Nat.add_comm 1]

/-- The revisions after one of a lineage. -/
theorem projectRevisions_next {items : List Fields} {number : Nat} {earlier : Fields}
    (hnumbered : ∀ index record, items[index]? = some record →
      Fields.get (metadataOf record) "revision" = .int (number + index : Nat))
    (hsteps : (earlier :: items).IsChain WorkStep)
    (hlinked : (earlier :: items).IsChain fun earlier later =>
      Fields.get (metadataOf later) "previousDigest" = .str (digestOf earlier)) :
    projectRevisions number (some (digestOf earlier, (stateOf earlier).pyStr)) items =
      .ok (items.mapIdx fun index => revisionView (number + index)) := by
  induction items generalizing number earlier with
  | nil => rfl
  | cons item items ih =>
      obtain ⟨hstep, hsteps⟩ := List.isChain_cons_cons.mp hsteps
      obtain ⟨hlink, hlinked⟩ := List.isChain_cons_cons.mp hlinked
      have hrest := @ih (number + 1) item
        (fun index record hrecord => by
          rw [hnumbered (index + 1) record (by simpa using hrecord), Nat.add_assoc, Nat.add_comm 1])
        hsteps hlinked
      have hitem := projectRevision_next (hnumbered 0 item rfl) hlink hstep
      rw [projectRevisions, ← Nat.add_zero number, hitem]
      exact projectRevisions_cons hrest

namespace Lineage

variable {items : List Fields}

theorem projectRevisions (h : Lineage items) :
    Protocol.projectRevisions 1 none items =
      .ok (items.mapIdx fun index => revisionView (1 + index)) := by
  cases items with
  | nil => rfl
  | cons item items =>
      have hfirst := projectRevision_first (h.numbered 0 item rfl) (h.first item rfl)
        (h.history.submitted item rfl)
      have hrest := @projectRevisions_next items 2 item
        (fun index record hrecord => by
          rw [h.numbered (index + 1) record (by simpa using hrecord), Nat.add_comm 2])
        h.history.steps h.linked
      rw [Protocol.projectRevisions, hfirst]
      exact projectRevisions_cons hrest

/-- The revisions of a lineage are sorted. -/
theorem sortRevision_eq (h : Lineage items) {index : Nat} {record : Fields}
    (hrecord : items[index]? = some record) : sortRevision record = .ok (index + 1 : Nat) := by
  have hnumber := h.numbered index record hrecord
  obtain ⟨metadata, hmetadata⟩ : ∃ metadata, Fields.get record "metadata" = .obj metadata := by
    cases hvalue : (Fields.get record "metadata").obj? with
    | none => rw [metadataOf, hvalue] at hnumber; cases hnumber
    | some metadata => exact ⟨metadata, Json.obj?_eq_some_iff.mp hvalue⟩
  have hfields : metadataOf record = metadata := by rw [metadataOf, hmetadata]; rfl
  rw [hfields] at hnumber
  rw [sortRevision, Fields.get?_of_get hmetadata (by simp)]
  simp [getAttr, Fields.get?_of_get hnumber (by simp), bind, Except.bind, toInt, Json.pyInt]

/-- A lineage is sorted by its numbers. -/
theorem sorted (h : Lineage items) :
    ∃ keyed, (items.mapM fun item => do return (← sortRevision item, item)) = .ok keyed ∧
      (sortedBy Prod.fst keyed).map Prod.snd = items := by
  have hkeyed : (items.mapM fun item => do return (← sortRevision item, item)) =
      .ok (items.mapIdx fun index item => (((index + 1 : Nat) : Int), item)) := by
    rw [mapM_eq_ok_iff, List.forall₂_iff_get]
    refine ⟨by simp, fun index hindex hother => ?_⟩
    have hget : items[index]? = some items[index] := List.getElem?_eq_getElem hindex
    simp [h.sortRevision_eq hget, bind, Except.bind, pure, Except.pure]
  refine ⟨_, hkeyed, ?_⟩
  rw [sortedBy_eq_self]
  · apply List.ext_getElem <;> simp
  · rw [List.pairwise_iff_getElem]
    intro first second hfirst hsecond hlt
    simp
    omega

end Lineage

/-! ## Projections -/

/-- A projection shows a record as the last revision of work. -/
structure ProjectedAs (projection : WorkProjection) (workId : String) (last : Fields) : Prop where
  workId : projection.workId = workId
  current : projection.current = last
  state : projection.state = (stateOf last).pyStr
  digest : projection.currentDigest = digestOf last
  coordination : coordinationState (detailsOf last) = .ok projection.coordinationState

theorem exists_coordinationState {details : Fields}
    (h : requireHashable (Fields.get details "coordinationState") = .ok ()) :
    ∃ state, coordinationState details = .ok state := by
  rw [coordinationState, inSet, h]
  by_cases hfound : (Fields.get details "coordinationState").str?.any
      (workCoordinationStates.contains ·) = true
  · exact ⟨_, by simp only [bind, Except.bind, pure, Except.pure, hfound, if_true]; rfl⟩
  · exact ⟨_, by simp only [bind, Except.bind, pure, Except.pure, hfound]; rfl⟩

/-- A lineage is projected to its last record. -/
theorem Lineage.project {records items : List Fields} {workId : String} {last : Fields}
    (h : Lineage items) (hitems : records.filter (isRevisionOf workId) = items)
    (hlast : items.getLast? = some last)
    (hhashable : requireHashable (Fields.get (detailsOf last) "coordinationState") = .ok ()) :
    ∃ projection, projectWorkHistory records workId = .ok projection ∧
      ProjectedAs projection workId last := by
  obtain ⟨keyed, hkeyed, hsorted⟩ := h.sorted
  obtain ⟨state, hstate⟩ := exists_coordinationState hhashable
  have hne : items ≠ [] := by rintro rfl; cases hlast
  have hview : (items.mapIdx fun index => revisionView (1 + index)).getLast? =
      some (revisionView (1 + (items.length - 1)) last) := by
    rw [List.getLast?_eq_getElem?] at hlast ⊢
    simp [hlast]
  have hcurrent : items.getLastD [] = last := by rw [List.getLastD_eq_getLast?, hlast]; rfl
  refine ⟨⟨workId, (stateOf last).pyStr, state, Fields.get (detailsOf last) "lane", digestOf last,
    last, items.mapIdx fun index => revisionView (1 + index), "UNTRUSTED", "none"⟩, ?_,
    rfl, rfl, rfl, rfl, hstate⟩
  rw [projectWorkHistory, hitems]
  show (raiseIf items.isEmpty _ >>= fun _ => (items.mapM fun item => do
    return (← sortRevision item, item)) >>= _) = _
  rw [hkeyed, List.isEmpty_eq_false_iff.mpr hne]
  simp only [raiseIf, bind, Except.bind, hsorted, h.projectRevisions, hview, hcurrent, hstate,
    Bool.false_eq_true, if_false, pure, Except.pure, Option.map_some, Option.getD_some, revisionView]

/-! ## Records that the queue can show -/

/-- What the readers take from the details of a record that may be stored work. -/
structure ReadableWork (details : Fields) : Prop where
  lane : requireHashable (Fields.get details "lane") = .ok ()
  coordination : requireHashable (Fields.get details "coordinationState") = .ok ()
  priority : ∃ n, toInt ((Fields.get? details "priority").getD (.int 100)) = .ok n
  affected : ∃ items, fieldItems details "affectedRepositories" = .ok items
  canonicalAffected : ∃ items, fieldItems details "canonicalAffectedRepositories" = .ok items
  dependencies : ∃ items, fieldItems details "dependencies" = .ok items ∧
    ∀ item ∈ items, item.isStr = true
  capabilities : ∃ items, fieldItems details "capabilityRequirements" = .ok items ∧
    ∀ item ∈ items, requireHashable item = .ok ()
  attachments : ∃ items, fieldItems details "attachments" = .ok items
  repositories : ∃ names, repositorySet details = .ok names
  capability : (Fields.get details "capability").truthy = true →
    (boundedText (Fields.get details "capability") 256).isSome = true

/-- A record that the queue can show as a revision of the work. -/
structure QueueRecord (workId : String) (record : Fields) : Prop where
  isWorkId : Str.startsWith workId "work:" = true
  recordId : Fields.get (metadataOf record) "recordId" = .str workId
  readable : ReadableWork (detailsOf record)

/-- The stored work is a lineage for every identity, of records that the queue can
show. -/
structure WorkLineages (records : List Fields) : Prop where
  lineage : ∀ workId, Lineage (records.filter (isRevisionOf workId))
  shown : ∀ record ∈ records, ∀ workId, isRevisionOf workId record = true →
    QueueRecord workId record

theorem mem_storedWorkIds_iff {records : List Fields} {workId : String} :
    workId ∈ storedWorkIds records ↔ ∃ record ∈ records, isRevisionOf workId record = true := by
  rw [storedWorkIds, mem_sortedBy, List.mem_eraseDups, List.mem_filterMap]
  simp [isRevisionOf]

namespace WorkLineages

variable {records : List Fields}

/-- Stored work is projected to a stored record of it. -/
theorem project (h : WorkLineages records) {workId : String} (hstored : workId ∈ storedWorkIds records) :
    ∃ last projection, projectWorkHistory records workId = .ok projection ∧
      ProjectedAs projection workId last ∧
      (records.filter (isRevisionOf workId)).getLast? = some last := by
  obtain ⟨record, hrecord, hrevision⟩ := mem_storedWorkIds_iff.mp hstored
  have hmem : record ∈ records.filter (isRevisionOf workId) := List.mem_filter.mpr ⟨hrecord, hrevision⟩
  have hlast := List.getLast?_eq_some_getLast (List.ne_nil_of_mem hmem)
  generalize (records.filter (isRevisionOf workId)).getLast _ = last at hlast
  have hstoredLast := List.mem_filter.mp (List.mem_of_getLast? hlast)
  obtain ⟨projection, hproject, hshown⟩ := (h.lineage workId).project rfl hlast
    (h.shown last hstoredLast.1 workId hstoredLast.2).readable.coordination
  exact ⟨last, projection, hproject, hshown, hlast⟩

/-- The items of a list of work. -/
structure Listed (records : List Fields) (states lanes coordinationStates : List String)
    (item : WorkProjection) : Prop where
  stored : item.workId ∈ storedWorkIds records
  projected : projectWorkHistory records item.workId = .ok item
  state : states = [] ∨ item.state ∈ states
  lane : lanes = [] ∨ inSet (Fields.get (detailsOf item.current) "lane") lanes = .ok true
  coordination : coordinationStates = [] ∨ item.coordinationState ∈ coordinationStates

/-- What a projection of stored work shows. -/
theorem shows (h : WorkLineages records) {workId : String} {item : WorkProjection}
    (hstored : workId ∈ storedWorkIds records)
    (hproject : projectWorkHistory records workId = .ok item) :
    item.workId = workId ∧ ReadableWork (detailsOf item.current) ∧
      coordinationState (detailsOf item.current) = .ok item.coordinationState := by
  obtain ⟨last, projection, hfound, hshown, hlast⟩ := h.project hstored
  obtain rfl := Except.ok.inj (hfound.symm.trans hproject)
  have hmem := List.mem_filter.mp (List.mem_of_getLast? hlast)
  rw [hshown.current]
  exact ⟨hshown.workId, (h.shown last hmem.1 workId hmem.2).readable, hshown.coordination⟩

/-- All stored work is listed. -/
theorem list (h : WorkLineages records) (states lanes coordinationStates : List String) :
    ∃ work, listWork records states lanes coordinationStates = .ok work ∧
      ∀ item, item ∈ work ↔ Listed records states lanes coordinationStates item := by
  have hproject : ∀ workId ∈ storedWorkIds records,
      ∃ projection, projectWorkHistory records workId = .ok projection := by
    intro workId hstored
    obtain ⟨_, projection, hproject, -⟩ := h.project hstored
    exact ⟨projection, hproject⟩
  obtain ⟨projected, hprojected⟩ := exists_mapM hproject
  have hmem : ∀ item, item ∈ projected ↔ item.workId ∈ storedWorkIds records ∧
      projectWorkHistory records item.workId = .ok item := by
    intro item
    constructor
    · intro hitem
      obtain ⟨workId, hstored, hproject⟩ := mem_of_mapM hprojected hitem
      rw [(h.shows hstored hproject).1]
      exact ⟨hstored, hproject⟩
    · rintro ⟨hstored, hproject⟩
      obtain ⟨found, hfound, heq⟩ := mem_results_of_mapM hprojected hstored
      obtain rfl := Except.ok.inj (heq.symm.trans hproject)
      exact hfound
  have hread : ∀ item ∈ projected, ReadableWork (detailsOf item.current) ∧
      coordinationState (detailsOf item.current) = .ok item.coordinationState :=
    fun item hitem => (h.shows ((hmem item).mp hitem).1 ((hmem item).mp hitem).2).2
  obtain ⟨selected, hselected, hlanes⟩ := @exists_narrow _ lanes
    (fun item => inSet (Fields.get (detailsOf item.current) "lane") lanes)
    (projected.filter fun item => states.isEmpty || states.contains item.state)
    (fun item hitem => by
      rw [inSet, (hread item (List.mem_of_mem_filter hitem)).1.lane]
      exact ⟨_, rfl⟩)
  have hsub : ∀ item ∈ selected, item ∈ projected :=
    fun item hitem => List.mem_of_mem_filter ((hlanes item).mp hitem).1
  obtain ⟨work, hwork, hcoordination⟩ := @exists_narrow _ coordinationStates
    (fun item => do
      return coordinationStates.contains (← coordinationState (detailsOf item.current)))
    selected (fun item hitem => by
      rw [(hread item (hsub item hitem)).2]
      exact ⟨_, rfl⟩)
  refine ⟨work, ?_, fun item => ?_⟩
  · rw [listWork, hprojected]
    show (narrow lanes _ _ >>= _) = _
    rw [hselected]
    exact hwork
  · rw [hcoordination, hlanes, List.mem_filter]
    constructor
    · rintro ⟨⟨⟨hprojected, hstate⟩, hlane⟩, hcoordination⟩
      refine ⟨((hmem item).mp hprojected).1, ((hmem item).mp hprojected).2, ?_, hlane, ?_⟩
      · simpa using hstate
      · rw [(hread item hprojected).2] at hcoordination
        simpa [bind, Except.bind, pure, Except.pure] using hcoordination
    · intro hlisted
      have hitem := (hmem item).mpr ⟨hlisted.stored, hlisted.projected⟩
      refine ⟨⟨⟨hitem, by simpa using hlisted.state⟩, hlisted.lane⟩, ?_⟩
      rw [(hread item hitem).2]
      simpa [bind, Except.bind, pure, Except.pure] using hlisted.coordination

end WorkLineages

end MncsCommons.Protocol
