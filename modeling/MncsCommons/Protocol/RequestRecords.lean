/-
# The records that requests build

What `readSubmission` has established about a submission it returns, and the shape
of the record built from it: no key occurs twice in it, and each member of its
details is the one that the submission has for it.
-/

import MncsCommons.Protocol.Requests

namespace MncsCommons.Protocol

open MncsCommons.Data

/-! ## Computations over lists -/

section Lists

variable {α β : Type}

theorem map_eq_ok_iff {f : α → β} {first : Py α} {value : β} :
    first.map f = .ok value ↔ ∃ middle, first = .ok middle ∧ f middle = value := by
  cases first <;> simp [Except.map]

theorem mapM_eq_ok_iff {f : α → Py β} {items : List α} {results : List β} :
    items.mapM f = .ok results ↔ List.Forall₂ (fun item result => f item = .ok result) items results := by
  induction items generalizing results with
  | nil => cases results <;> simp [pure, Except.pure]
  | cons item items ih =>
      rw [List.mapM_cons, Py.bind_eq_ok_iff, List.forall₂_cons_left_iff]
      constructor
      · rintro ⟨first, hfirst, hrest⟩
        obtain ⟨rest, hrest, hpure⟩ := Py.bind_eq_ok_iff.mp hrest
        exact ⟨first, rest, hfirst, ih.mp hrest, (Except.ok.inj hpure).symm⟩
      · rintro ⟨first, rest, hfirst, hrest, rfl⟩
        exact ⟨first, hfirst, Py.bind_eq_ok_iff.mpr ⟨rest, ih.mpr hrest, rfl⟩⟩

/-- A computation over a list returns when it does for every item. -/
theorem exists_mapM {f : α → Py β} {items : List α}
    (h : ∀ item ∈ items, ∃ result, f item = .ok result) : ∃ results, items.mapM f = .ok results := by
  induction items with
  | nil => exact ⟨[], rfl⟩
  | cons item items ih =>
      rw [List.forall_mem_cons] at h
      obtain ⟨first, hfirst⟩ := h.1
      obtain ⟨rest, hrest⟩ := ih h.2
      exact ⟨first :: rest, by rw [List.mapM_cons, hfirst, hrest]; rfl⟩

theorem mem_of_mapM {f : α → Py β} {items : List α} {results : List β}
    (h : items.mapM f = .ok results) {result : β} (hresult : result ∈ results) :
    ∃ item ∈ items, f item = .ok result := by
  induction mapM_eq_ok_iff.mp h with
  | nil => cases hresult
  | @cons item _ items results hitem hrest ih =>
      rcases List.mem_cons.mp hresult with rfl | hmem
      · exact ⟨item, List.mem_cons_self, hitem⟩
      · obtain ⟨other, hother, heq⟩ := ih (mapM_eq_ok_iff.mpr hrest) hmem
        exact ⟨other, List.mem_cons_of_mem _ hother, heq⟩

theorem mem_results_of_mapM {f : α → Py β} {items : List α} {results : List β}
    (h : items.mapM f = .ok results) {item : α} (hitem : item ∈ items) :
    ∃ result ∈ results, f item = .ok result := by
  induction mapM_eq_ok_iff.mp h with
  | nil => cases hitem
  | cons hfirst hrest ih =>
      rcases List.mem_cons.mp hitem with rfl | hmem
      · exact ⟨_, List.mem_cons_self, hfirst⟩
      · obtain ⟨other, hother, heq⟩ := ih (mapM_eq_ok_iff.mpr hrest) hmem
        exact ⟨other, List.mem_cons_of_mem _ hother, heq⟩

/-- What every step of a fold keeps, the fold keeps. -/
theorem foldlM_keeps {f : β → α → Py β} (property : β → Prop)
    (hstep : ∀ state item next, f state item = .ok next → property state → property next)
    {items : List α} {state final : β} (h : items.foldlM f state = .ok final)
    (hstate : property state) : property final := by
  induction items generalizing state with
  | nil => rwa [← Except.ok.inj h]
  | cons item items ih =>
      rw [List.foldlM_cons] at h
      obtain ⟨next, hnext, h⟩ := Py.bind_eq_ok_iff.mp h
      exact ih h (hstep state item next hnext hstate)

end Lists

/-! ## Parts of a request -/

theorem workText_eq_ok {value : Json} {field : String} {maximum : Nat} {text : String}
    (h : workText value field maximum = .ok text) :
    ∃ s, value = .str s ∧ Str.isBlank s = false ∧ text = Str.strip s := by
  rw [workText] at h
  split at h
  · next found hfound =>
    obtain rfl := Except.ok.inj h
    cases value with
    | str s =>
        rw [boundedText] at hfound
        split at hfound
        · cases hfound
        · next hinvalid =>
          simp only [Bool.or_eq_true, not_or, Bool.not_eq_true] at hinvalid
          exact ⟨s, rfl, hinvalid.1.1, (Option.some.inj hfound).symm⟩
    | _ => cases hfound
  · cases h

theorem optionalText_eq_ok {value : Json} {field : String} {text : Option String}
    (h : optionalText value field = .ok text) :
    value = .null ∧ text = none ∨
      ∃ s, value = .str s ∧ Str.isBlank s = false ∧ text = some (Str.strip s) := by
  cases value with
  | null => exact .inl ⟨rfl, (Except.ok.inj h).symm⟩
  | _ =>
      right
      simp only [optionalText] at h
      obtain ⟨read, hread, rfl⟩ := map_eq_ok_iff.mp h
      obtain ⟨s, hvalue, hblank, rfl⟩ := workText_eq_ok hread
      exact ⟨s, hvalue, hblank, rfl⟩

/-- A list of texts is read item by item. -/
theorem stringList_eq_ok {value : Json} {field : String} {texts : List String}
    (h : stringList value field = .ok texts) :
    value = .null ∧ texts = [] ∨ ∃ items, value = .arr items ∧
      List.Forall₂ (fun item text => ∃ s, item = .str s ∧ Str.isBlank s = false ∧
        text = Str.strip s) items texts := by
  cases value with
  | null => exact .inl ⟨rfl, (Except.ok.inj h).symm⟩
  | arr items =>
      simp only [stringList] at h
      split at h
      · cases h
      · exact .inr ⟨items, rfl, (mapM_eq_ok_iff.mp h).imp fun _ _ hread => workText_eq_ok hread⟩
  | _ => cases h

/-- A text that is stripped already is read as it is. -/
theorem optionalText_str {text field : String} {read : Option String}
    (h : optionalText (.str text) field = .ok read) (hstrip : Str.strip text = text) :
    read = some text := by
  obtain ⟨hnull, -⟩ | ⟨s, htext, -, rfl⟩ := optionalText_eq_ok h
  · cases hnull
  · rw [← Json.str.inj htext, hstrip]

theorem requiredMapping_eq_ok {value : Json} {field : String} {fields : Fields}
    (h : requiredMapping value field = .ok fields) : value = .obj fields := by
  cases value with
  | obj members =>
      simp only [requiredMapping] at h
      split at h
      · cases h
      · rw [Except.ok.inj h]
  | _ => cases h

theorem optionalMapping_eq_ok {value : Json} {field : String} {fields : Fields}
    (h : optionalMapping value field = .ok fields) :
    value = .null ∧ fields = [] ∨ value = .obj fields := by
  cases value with
  | null => exact .inl ⟨rfl, (Except.ok.inj h).symm⟩
  | _ => exact .inr (requiredMapping_eq_ok h)

theorem wf_requiredMapping {value : Json} {field : String} {fields : Fields}
    (h : requiredMapping value field = .ok fields) (hwf : value.wf = true) :
    (Json.obj fields).wf = true := by
  rwa [requiredMapping_eq_ok h] at hwf

theorem wf_optionalMapping {value : Json} {field : String} {fields : Fields}
    (h : optionalMapping value field = .ok fields) (hwf : value.wf = true) :
    (Json.obj fields).wf = true := by
  obtain ⟨-, rfl⟩ | rfl := optionalMapping_eq_ok h
  · rfl
  · exact hwf

theorem wf_mappingList {value : Json} {field : String} {items : List Fields}
    (h : mappingList value field = .ok items) (hwf : value.wf = true) :
    ∀ item ∈ items, (Json.obj item).wf = true := by
  cases value with
  | null =>
      obtain rfl := Except.ok.inj h
      simp
  | arr values =>
      simp only [mappingList] at h
      split at h
      · cases h
      · intro item hitem
        obtain ⟨value, hvalue, hread⟩ := mem_of_mapM h hitem
        exact wf_requiredMapping hread (Json.wf_arr_iff.mp hwf value hvalue)
  | _ => cases h

theorem lane_of_readLane {value : Json} {lane : Option String} (h : readLane value = .ok lane) :
    value.str? = lane := by
  cases value with
  | null =>
      obtain rfl := Except.ok.inj h
      rfl
  | str text =>
      simp only [readLane] at h
      obtain ⟨found, -, h⟩ := Py.bind_eq_ok_iff.mp h
      obtain ⟨_, -, h⟩ := Py.bind_eq_ok_iff.mp h
      obtain rfl := Except.ok.inj h
      rfl
  | _ =>
      simp only [readLane] at h
      obtain ⟨found, hfound, h⟩ := Py.bind_eq_ok_iff.mp h
      obtain ⟨_, hraise, -⟩ := Py.bind_eq_ok_iff.mp h
      obtain ⟨_, -, hfound⟩ := Py.bind_eq_ok_iff.mp hfound
      rw [← Except.ok.inj hfound] at hraise
      cases raiseIf_eq_ok_iff.mp hraise

@[simp]
theorem wf_null : Json.null.wf = true := rfl

@[simp]
theorem wf_bool (value : Bool) : (Json.bool value).wf = true := rfl

@[simp]
theorem wf_int (value : Int) : (Json.int value).wf = true := rfl

@[simp]
theorem wf_str (value : String) : (Json.str value).wf = true := rfl

@[simp]
theorem wf_ofStrings (texts : List String) : (Json.ofStrings texts).wf = true := by
  refine Json.wf_arr_iff.mpr fun item hitem => ?_
  obtain ⟨text, -, rfl⟩ := List.mem_map.mp hitem
  rfl

/-- An object with the given keys. -/
theorem wf_ofKeys {fields : Fields} (keys : List String) (hkeys : Fields.keys fields = keys)
    (hnodup : keys.Nodup) (hwf : ∀ field ∈ fields, field.2.wf = true) :
    (Json.obj fields).wf = true :=
  Json.wf_obj_iff.mpr ⟨hkeys ▸ hnodup, hwf⟩

/-- The members that have a value, when the keys are different and every value is
well formed. -/
theorem wf_present {members : List (String × Option Json)} (hkeys : (members.map Prod.fst).Nodup)
    (hwf : ∀ member ∈ members, ∀ value ∈ member.2, value.wf = true) :
    (Json.obj (present members)).wf = true := by
  refine Json.wf_obj_iff.mpr ⟨?_, ?_⟩
  · refine hkeys.sublist ?_
    rw [present, Fields.keys]
    induction members with
    | nil => exact .slnil
    | cons member members ih =>
        have hrest := ih (List.nodup_cons.mp hkeys).2
          fun other hother => hwf other (List.mem_cons_of_mem _ hother)
        obtain ⟨key, value⟩ := member
        cases value with
        | none => exact .cons _ hrest
        | some value => exact .cons_cons _ hrest
  · intro field hfield
    obtain ⟨member, hmember, hfound⟩ := List.mem_filterMap.mp hfield
    obtain ⟨value, hvalue, rfl⟩ := Option.map_eq_some_iff.mp hfound
    exact hwf member hmember value hvalue

/-- The value of a member, when the keys are different. -/
theorem get?_present {members : List (String × Option Json)}
    (hkeys : (members.map Prod.fst).Nodup) (key : String) :
    Fields.get? (present members) key = (members.lookup key).join := by
  rw [present]
  induction members with
  | nil => rfl
  | cons member members ih =>
      obtain ⟨name, value⟩ := member
      obtain ⟨hname, hrest⟩ := List.nodup_cons.mp hkeys
      have ih := ih hrest
      by_cases heq : key = name
      · subst heq
        rw [List.lookup_cons_self]
        cases value with
        | none =>
            have hnone : members.lookup key = none := by
              rw [List.lookup_eq_none_iff]
              intro other hother
              have hmem : other.1 ∈ members.map Prod.fst := List.mem_map_of_mem hother
              exact bne_iff_ne.mpr fun h => hname (h ▸ hmem)
            rw [hnone] at ih
            exact ih
        | some value => exact if_pos rfl
      · have hlookup : List.lookup key ((name, value) :: members) = members.lookup key := by
          rw [List.lookup_cons, beq_false_of_ne heq]
        rw [hlookup]
        cases value with
        | none => exact ih
        | some value => exact (if_neg (Ne.symm heq)).trans ih

/-! ## Submissions -/

/-- What holds of a submission that a request was read as. -/
structure ReadFrom (uuid : String) (request : Fields) (submission : WorkSubmission) : Prop where
  workId : ∃ id, optionalText (Fields.get request "workId") "workId" = .ok id ∧
    submission.workId = id.getD ("work:" ++ uuid)
  submitter : readActor (Fields.get request "submittingConsumer") "submittingConsumer" =
    .ok submission.submitter
  project : requiredMapping (Fields.get request "project") "project" = .ok submission.project
  repository : optionalText (Fields.get request "repository") "repository" =
    .ok submission.repository
  lane : readLane (Fields.get request "lane") = .ok submission.lane
  affectedRepositories : stringList ((Fields.get? request "affectedRepositories").getD
    (Json.ofStrings submission.repository.toList)) "affectedRepositories" =
      .ok submission.affectedRepositories
  capability : optionalText (Fields.get request "capability") "capability" =
    .ok submission.capability
  evidenceLinks : stringList (Fields.get request "evidenceLinks") "evidenceLinks" =
    .ok submission.evidenceLinks
  coordination : readCoordinationState ((Fields.get? request "coordinationState").getD
    (.str "AVAILABLE")) = .ok submission.coordination
  proposalStatus : optionalText (Fields.get request "proposalStatus") "proposalStatus" =
    .ok submission.proposalStatus
  proposalSource : optionalText (Fields.get request "proposalSource") "proposalSource" =
    .ok submission.proposalSource
  findingIdentity : optionalText (Fields.get request "findingIdentity") "findingIdentity" =
    .ok submission.findingIdentity
  deduplication : optionalMapping (Fields.get request "deduplication") "deduplication" =
    .ok submission.deduplication
  attachments : mappingList (Fields.get request "attachments") "attachments" =
    .ok submission.attachments
  canonicalRepository : optionalText (Fields.get request "canonicalRepository")
    "canonicalRepository" = .ok submission.canonicalRepository
  canonicalAffected : stringList (Fields.get request "canonicalAffectedRepositories")
    "canonicalAffectedRepositories" = .ok submission.canonicalAffected

theorem readFrom_of_readSubmission {uuid : String} {request : Fields} {submission : WorkSubmission}
    (h : readSubmission uuid request = .ok submission) : ReadFrom uuid request submission := by
  obtain ⟨_, -, h⟩ := Py.bind_eq_ok_iff.mp h
  obtain ⟨id, hid, h⟩ := Py.bind_eq_ok_iff.mp h
  obtain ⟨_, -, h⟩ := Py.bind_eq_ok_iff.mp h
  obtain ⟨_, hsubmitter, h⟩ := Py.bind_eq_ok_iff.mp h
  obtain ⟨_, -, h⟩ := Py.bind_eq_ok_iff.mp h
  obtain ⟨_, hproject, h⟩ := Py.bind_eq_ok_iff.mp h
  obtain ⟨_, hrepository, h⟩ := Py.bind_eq_ok_iff.mp h
  iterate 4 obtain ⟨_, -, h⟩ := Py.bind_eq_ok_iff.mp h
  obtain ⟨_, hlane, h⟩ := Py.bind_eq_ok_iff.mp h
  obtain ⟨_, haffected, h⟩ := Py.bind_eq_ok_iff.mp h
  iterate 3 obtain ⟨_, -, h⟩ := Py.bind_eq_ok_iff.mp h
  obtain ⟨_, hcapability, h⟩ := Py.bind_eq_ok_iff.mp h
  iterate 3 obtain ⟨_, -, h⟩ := Py.bind_eq_ok_iff.mp h
  obtain ⟨_, hevidence, h⟩ := Py.bind_eq_ok_iff.mp h
  dsimp only at h
  split at h
  case h_2 => cases h
  iterate 4 obtain ⟨_, -, h⟩ := Py.bind_eq_ok_iff.mp h
  obtain ⟨_, hcoordination, h⟩ := Py.bind_eq_ok_iff.mp h
  obtain ⟨_, hstatus, h⟩ := Py.bind_eq_ok_iff.mp h
  obtain ⟨_, hsource, h⟩ := Py.bind_eq_ok_iff.mp h
  obtain ⟨_, -, h⟩ := Py.bind_eq_ok_iff.mp h
  -- Both the missing and the given timestamp go on in the same way.
  split at h
  all_goals
    obtain ⟨_, -, h⟩ := Py.bind_eq_ok_iff.mp h
    obtain ⟨_, hfinding, h⟩ := Py.bind_eq_ok_iff.mp h
    iterate 2 obtain ⟨_, -, h⟩ := Py.bind_eq_ok_iff.mp h
    obtain ⟨_, hdeduplication, h⟩ := Py.bind_eq_ok_iff.mp h
    obtain ⟨_, hattachments, h⟩ := Py.bind_eq_ok_iff.mp h
    obtain ⟨_, hcanonical, h⟩ := Py.bind_eq_ok_iff.mp h
    obtain ⟨_, hcanonicalAffected, h⟩ := Py.bind_eq_ok_iff.mp h
    iterate 10 obtain ⟨_, -, h⟩ := Py.bind_eq_ok_iff.mp h
    obtain rfl := Except.ok.inj h
    exact ⟨⟨id, hid, rfl⟩, hsubmitter, hproject, hrepository, hlane, haffected, hcapability,
      hevidence, hcoordination, hstatus, hsource, hfinding, hdeduplication, hattachments,
      hcanonical, hcanonicalAffected⟩

/-! ## The first revision -/

namespace WorkSubmission

variable (submission : WorkSubmission)

/-- The parts of a submission that a request brings as they are. -/
structure WellFormed : Prop where
  project : (Json.obj submission.project).wf = true
  deduplication : (Json.obj submission.deduplication).wf = true
  attachments : ∀ item ∈ submission.attachments, (Json.obj item).wf = true

end WorkSubmission

theorem ReadFrom.wellFormed {uuid : String} {request : Fields} {submission : WorkSubmission}
    (h : ReadFrom uuid request submission) (hwf : (Json.obj request).wf = true) :
    submission.WellFormed where
  project := wf_requiredMapping h.project (Json.wf_get hwf _)
  deduplication := wf_optionalMapping h.deduplication (Json.wf_get hwf _)
  attachments := wf_mappingList h.attachments (Json.wf_get hwf _)

@[simp]
theorem wf_ofActor (actor : Actor) : actor.json.wf = true :=
  wf_ofKeys ["type", "id"] rfl (by decide) (by simp)

@[simp]
theorem wf_text (text : Option String) : ((text.map Json.str).getD .null).wf = true := by
  cases text <;> rfl

namespace WorkSubmission

theorem nodup_members (submission : WorkSubmission) : (submission.members.map Prod.fst).Nodup := by
  simp only [members]
  cases submission.lane.isSome
  all_goals
    simp only [laneDetails, laneTexts, List.map_append, List.map_cons, List.map_nil, reduceIte,
      Bool.false_eq_true]
    decide

theorem get?_details (submission : WorkSubmission) (key : String) :
    Fields.get? submission.details key = (submission.members.lookup key).join := by
  rw [details, get?_present (nodup_members submission)]

section Lookups

variable (submission : WorkSubmission)

theorem get?_workId : Fields.get? submission.details "workId" = some (.str submission.workId) := by
  rw [get?_details, members]
  cases submission.lane.isSome <;> rfl

theorem get?_proposalStatus :
    Fields.get? submission.details "proposalStatus" = submission.proposalStatus.map Json.str := by
  rw [get?_details, members]
  cases submission.lane.isSome <;> rfl

theorem get?_lane : Fields.get? submission.details "lane" = submission.lane.map Json.str := by
  rw [get?_details, members]
  cases h : submission.lane with
  | none => rfl
  | some lane => exact congrArg (Option.map Json.str) h

theorem get_repository :
    Fields.get submission.details "repository" = (submission.repository.map Json.str).getD .null := by
  rw [Fields.get, get?_details, members]
  cases submission.lane.isSome <;> rfl

theorem get?_affectedRepositories (h : submission.lane.isSome = true) :
    Fields.get? submission.details "affectedRepositories" =
      some (Json.ofStrings submission.affectedRepositories) := by
  rw [get?_details, members, h]
  rfl

theorem get_canonicalRepository :
    Fields.get submission.details "canonicalRepository" =
      (submission.canonicalRepository.map Json.str).getD .null := by
  rw [Fields.get, get?_details, members]
  cases submission.lane.isSome <;> rfl

theorem get?_canonicalAffected :
    Fields.get? submission.details "canonicalAffectedRepositories" =
      if submission.canonicalAffected = [] then none
      else some (Json.ofStrings submission.canonicalAffected) := by
  rw [get?_details, members]
  cases submission.lane.isSome <;> rfl

end Lookups

variable {submission : WorkSubmission}

theorem WellFormed.details (h : submission.WellFormed) : (Json.obj submission.details).wf = true := by
  have hrouting : (Json.obj (present
      [("fabricJobId", submission.fabricJobId.map Json.str),
        ("workerId", submission.workerId.map Json.str),
        ("modelId", submission.modelId.map Json.str)])).wf = true := by
    refine wf_present (by simp) ?_
    simp
  have hevent : (Json.obj [("from", .null), ("to", .str "submitted"),
      ("actor", submission.submitter.json)]).wf = true :=
    wf_ofKeys ["from", "to", "actor"] rfl (by decide) (by simp)
  refine wf_present (nodup_members submission) ?_
  simp only [members]
  cases submission.lane.isSome <;>
    simpa [laneDetails, laneTexts, h.project, hrouting, hevent, h.deduplication] using h.attachments

theorem wf_relationships (submission : WorkSubmission) :
    (Json.arr submission.relationships).wf = true := by
  have hrelation : ∀ type target : String,
      (Json.obj [("type", .str type), ("target", .str target)]).wf = true := fun _ _ =>
    wf_ofKeys ["type", "target"] rfl (by decide) (by simp)
  refine Json.wf_arr_iff.mpr fun relation hrelationship => ?_
  simp only [relationships, List.mem_append, List.mem_map] at hrelationship
  obtain (⟨target, -, rfl⟩ | ⟨target, -, rfl⟩) | ⟨target, -, rfl⟩ := hrelationship <;>
    exact hrelation _ _

theorem WellFormed.record (h : submission.WellFormed) (now : String) :
    (Json.obj (submission.record now)).wf = true := by
  refine wf_ofKeys ["apiVersion", "kind", "metadata", "subject", "scope", "statement", "evidence",
    "dependencies", "affectedContracts", "provenance", "confidence", "security", "lifecycle",
    "relationships", "details"] rfl (by decide) ?_
  simp only [WorkSubmission.record, List.forall_mem_cons]
  refine ⟨rfl, rfl, ?_, ?_, ?_, ?_, rfl, wf_ofStrings _, rfl, ?_, rfl, rfl, ?_,
    wf_relationships submission, h.details, by simp⟩
  · exact wf_ofKeys ["recordId", "createdAt", "author", "revision", "labels"] rfl (by decide)
      (by simp)
  · exact wf_ofKeys ["type", "identity"] rfl (by decide) (by simp)
  · have hcontext : (Json.obj (present [("project", some (.obj submission.project)),
        ("repository", submission.repository.map Json.str)])).wf = true :=
      wf_present (by simp) (by simpa using h.project)
    exact wf_ofKeys ["context", "limitations"] rfl (by decide) (by simpa using hcontext)
  · exact wf_ofKeys ["summary", "details"] rfl (by decide) (by simp)
  · exact wf_ofKeys ["producer", "sourceRecords"] rfl (by decide) (by simp)
  · exact wf_ofKeys ["initialState", "reviewWhen"] rfl (by decide) (by simp)

end WorkSubmission

/-- The submission that a record was built from. -/
theorem exists_submission {now uuid : String} {request record : Fields}
    (h : newWorkRecord now uuid request = .ok record) :
    ∃ submission, ReadFrom uuid request submission ∧ record = submission.record now := by
  obtain ⟨submission, hread, hrecord⟩ := Py.bind_eq_ok_iff.mp h
  exact ⟨submission, readFrom_of_readSubmission hread, (Except.ok.inj hrecord).symm⟩

theorem wf_newWorkRecord {now uuid : String} {request record : Fields}
    (h : newWorkRecord now uuid request = .ok record) (hwf : (Json.obj request).wf = true) :
    (Json.obj record).wf = true := by
  obtain ⟨submission, hread, rfl⟩ := exists_submission h
  exact (hread.wellFormed hwf).record now

/-! ## The next revision -/

theorem wf_bring {transition details next : Fields} {field : String} {read : Json → Py Json}
    (h : bring transition field read details = .ok next)
    (hread : ∀ value out, read value = .ok out → value.wf = true → out.wf = true)
    (htransition : (Json.obj transition).wf = true) (hdetails : (Json.obj details).wf = true) :
    (Json.obj next).wf = true := by
  rw [bring] at h
  split at h
  · rwa [← Except.ok.inj h]
  · next value hvalue =>
    obtain ⟨out, hout, hnext⟩ := map_eq_ok_iff.mp h
    rw [← hnext]
    refine Json.wf_set hdetails (hread value out hout ?_)
    exact (Json.wf_obj_iff.mp htransition).2 _ (Fields.mem_of_get?_eq_some hvalue)

theorem wf_mapStr {text : Py String} {value : Json} (h : text.map Json.str = .ok value) :
    value.wf = true := by
  obtain ⟨text, -, rfl⟩ := map_eq_ok_iff.mp h
  rfl

theorem wf_mapOfStrings {texts : Py (List String)} {value : Json}
    (h : texts.map Json.ofStrings = .ok value) : value.wf = true := by
  obtain ⟨texts, -, rfl⟩ := map_eq_ok_iff.mp h
  exact wf_ofStrings texts

theorem wf_mapObj {value out : Json} {field : String}
    (h : (requiredMapping value field).map Json.obj = .ok out) (hwf : value.wf = true) :
    out.wf = true := by
  obtain ⟨fields, hfields, rfl⟩ := map_eq_ok_iff.mp h
  exact wf_requiredMapping hfields hwf

theorem wf_claim {value claim : Json} (h : readClaim value = .ok claim) (hwf : value.wf = true) :
    claim.wf = true := by
  cases value with
  | null =>
      obtain rfl := Except.ok.inj h
      rfl
  | _ =>
      simp only [readClaim] at h
      exact wf_mapObj h hwf

theorem wf_nextMetadata {now : String} {metadata next : Fields} {actor : Actor}
    {previousDigest : String} (h : nextMetadata now metadata actor previousDigest = .ok next)
    (hwf : (Json.obj metadata).wf = true) : (Json.obj next).wf = true := by
  obtain ⟨revision, -, h⟩ := Py.bind_eq_ok_iff.mp h
  obtain rfl := Except.ok.inj h
  exact Json.wf_set (Json.wf_set (Json.wf_set (Json.wf_set hwf rfl) (wf_ofActor actor)) rfl) rfl

theorem wf_nextEvent {transition event : Fields} {previousState targetState : String}
    {actor : Actor} (h : nextEvent transition previousState targetState actor = .ok event) :
    (Json.obj event).wf = true := by
  obtain ⟨reason, -, h⟩ := Py.bind_eq_ok_iff.mp h
  obtain rfl := Except.ok.inj h
  exact wf_present (by simp) (by simp)

theorem wf_nextStates {details event : Fields} (hdetails : (Json.obj details).wf = true)
    (hevent : (Json.obj event).wf = true) (targetState coordination : String) :
    (Json.obj (nextStates details event targetState coordination)).wf = true :=
  Json.wf_set (Json.wf_set (Json.wf_set (Json.wf_set hdetails rfl) rfl) hevent) rfl

theorem wf_iterate {value : Json} {items : List Json} (h : iterate value = .ok items)
    (hwf : value.wf = true) : ∀ item ∈ items, item.wf = true := by
  cases value with
  | arr values =>
      obtain rfl := Except.ok.inj h
      exact Json.wf_arr_iff.mp hwf
  | obj fields =>
      obtain rfl := Except.ok.inj h
      intro item hitem
      obtain ⟨field, -, rfl⟩ := List.mem_map.mp hitem
      rfl
  | str text =>
      obtain rfl := Except.ok.inj h
      simp
  | _ => cases h

theorem wf_nextRelationships {candidate transition next : Fields}
    (h : nextRelationships candidate transition = .ok next)
    (hwf : (Json.obj candidate).wf = true) : (Json.obj next).wf = true := by
  rw [nextRelationships] at h
  split at h
  · rwa [← Except.ok.inj h]
  · obtain ⟨followOns, -, h⟩ := Py.bind_eq_ok_iff.mp h
    obtain ⟨relationships, hrelationships, h⟩ := Py.bind_eq_ok_iff.mp h
    obtain ⟨all, hall, h⟩ := Py.bind_eq_ok_iff.mp h
    obtain rfl := Except.ok.inj h
    obtain ⟨existing, -, hall⟩ := Py.bind_eq_ok_iff.mp hall
    obtain rfl := Except.ok.inj hall
    refine Json.wf_set hwf (Json.wf_arr_iff.mpr fun relation hrelation => ?_)
    rcases List.mem_append.mp hrelation with hold | hnew
    · refine wf_iterate hrelationships ?_ relation hold
      cases hfound : Fields.get? candidate "relationships" with
      | none => rfl
      | some value => exact (Json.wf_obj_iff.mp hwf).2 _ (Fields.mem_of_get?_eq_some hfound)
    · obtain ⟨item, -, rfl⟩ := List.mem_map.mp hnew
      exact wf_ofKeys ["type", "target"] rfl (by decide) (by simp)

theorem wf_nextRouting {details transition next : Fields}
    (h : nextRouting details transition = .ok next) (htransition : (Json.obj transition).wf = true)
    (hwf : (Json.obj details).wf = true) : (Json.obj next).wf = true := by
  obtain ⟨routing, hrouting, h⟩ := Py.bind_eq_ok_iff.mp h
  obtain ⟨after, hafter, h⟩ := Py.bind_eq_ok_iff.mp h
  obtain rfl := Except.ok.inj h
  refine Json.wf_set hwf ?_
  refine foldlM_keeps (fun routing : Fields => (Json.obj routing).wf = true) ?_ hafter
    (wf_optionalMapping hrouting (Json.wf_get hwf _))
  intro routing field routed hrouted hbefore
  exact wf_bring hrouted (fun value out hout _ => wf_mapStr hout) htransition hbefore

theorem wf_bringAll {transition details next : Fields} (h : bringAll transition details = .ok next)
    (htransition : (Json.obj transition).wf = true) (hwf : (Json.obj details).wf = true) :
    (Json.obj next).wf = true := by
  obtain ⟨first, hfirst, h⟩ := Py.bind_eq_ok_iff.mp h
  obtain ⟨second, hsecond, h⟩ := Py.bind_eq_ok_iff.mp h
  obtain ⟨third, hthird, h⟩ := Py.bind_eq_ok_iff.mp h
  obtain ⟨fourth, hfourth, h⟩ := Py.bind_eq_ok_iff.mp h
  obtain ⟨fifth, hfifth, h⟩ := Py.bind_eq_ok_iff.mp h
  obtain ⟨sixth, hsixth, h⟩ := Py.bind_eq_ok_iff.mp h
  have hwf := wf_bring hfirst (fun _ _ hout _ => wf_mapOfStrings hout) htransition hwf
  have hwf := wf_bring hsecond (fun value out hout hvalue => by
    obtain ⟨items, hitems, rfl⟩ := map_eq_ok_iff.mp hout
    exact Json.wf_arr_iff.mpr (by simpa using wf_mappingList hitems hvalue)) htransition hwf
  have hwf := wf_nextRouting hthird htransition hwf
  have hwf := wf_bring hfourth (fun value out hout _ => by
    obtain ⟨attempt, -, rfl⟩ := map_eq_ok_iff.mp hout
    rfl) htransition hwf
  have hwf := wf_bring hfifth (fun _ _ hout hvalue => wf_mapObj hout hvalue) htransition hwf
  have hwf := wf_bring hsixth (fun _ _ hout hvalue => wf_mapObj hout hvalue) htransition hwf
  exact wf_bring h (fun _ _ hout _ => wf_mapOfStrings hout) htransition hwf

/-- What a transition of the current record to a revision goes through. -/
structure NextRevision (now : String) (current transition revised : Fields) where
  details : Fields
  metadata : Fields
  targetState : String
  actor : Actor
  nextMetadata : Fields
  event : Fields
  coordination : String
  claimed : Fields
  candidate : Fields
  next : Fields
  getDetails : Fields.get current "details" = .obj details
  getMetadata : Fields.get current "metadata" = .obj metadata
  expected : (Fields.get transition "expectedPreviousDigest").str? = some (digestOf current)
  readTarget : readTargetState details transition = .ok targetState
  readActor : readActor (Fields.get transition "actor") "actor" = .ok actor
  metadata_eq : Protocol.nextMetadata now metadata actor (digestOf current) = .ok nextMetadata
  event_eq : nextEvent transition (Fields.get details "state").pyStr targetState actor = .ok event
  coordination_eq : nextCoordination details transition targetState = .ok coordination
  inScope : hygieneScopeInvalid (nextStates details event targetState coordination) = .ok false
  claimed_eq : bring transition "claim" readClaim (nextStates details event targetState coordination) =
    .ok claimed
  candidate_eq : nextRelationships (Fields.set (Fields.erase current "contentDigest") "metadata"
    (.obj nextMetadata)) transition = .ok candidate
  next_eq : bringAll transition claimed = .ok next
  evidence : requireEvidence next (Fields.get details "lane").truthy targetState coordination = .ok ()
  revised_eq : revised = Fields.set candidate "details" (.obj next)

theorem exists_nextRevision {now : String} {current transition revised : Fields}
    (h : revisedWorkRecord now current transition = .ok revised) :
    Nonempty (NextRevision now current transition revised) := by
  obtain ⟨_, -, h⟩ := Py.bind_eq_ok_iff.mp h
  split at h
  case h_2 => cases h
  next details metadata hdetails hmetadata =>
  obtain ⟨_, hexpected, h⟩ := Py.bind_eq_ok_iff.mp h
  obtain ⟨targetState, htarget, h⟩ := Py.bind_eq_ok_iff.mp h
  obtain ⟨actor, hactor, h⟩ := Py.bind_eq_ok_iff.mp h
  obtain ⟨nextMeta, hnextMeta, h⟩ := Py.bind_eq_ok_iff.mp h
  obtain ⟨event, hevent, h⟩ := Py.bind_eq_ok_iff.mp h
  obtain ⟨coordination, hcoordination, h⟩ := Py.bind_eq_ok_iff.mp h
  obtain ⟨invalid, hinvalid, h⟩ := Py.bind_eq_ok_iff.mp h
  obtain ⟨_, hscope, h⟩ := Py.bind_eq_ok_iff.mp h
  obtain ⟨claimed, hclaimed, h⟩ := Py.bind_eq_ok_iff.mp h
  obtain ⟨candidate, hcandidate, h⟩ := Py.bind_eq_ok_iff.mp h
  obtain ⟨next, hnext, h⟩ := Py.bind_eq_ok_iff.mp h
  obtain ⟨_, hevidence, h⟩ := Py.bind_eq_ok_iff.mp h
  rw [raiseIf_eq_ok_iff.mp hscope] at hinvalid
  exact ⟨⟨details, metadata, targetState, actor, nextMeta, event, coordination, claimed, candidate,
    next, Json.obj?_eq_some_iff.mp hdetails, Json.obj?_eq_some_iff.mp hmetadata,
    by simpa using raiseIf_eq_ok_iff.mp hexpected, htarget, hactor, hnextMeta, hevent,
    hcoordination, hinvalid, hclaimed, hcandidate, hnext, hevidence, (Except.ok.inj h).symm⟩⟩

theorem get?_set_of_ne {key other : String} (h : other ≠ key) (fields : Fields) (value : Json) :
    Fields.get? (Fields.set fields key value) other = Fields.get? fields other := by
  rw [Fields.get?_set, if_neg (Ne.symm h)]

/-- The fields of the details that a transition may change. -/
def changedFields : List String :=
  ["state", "requestState", "stateEvent", "coordinationState", "claim", "followOnRequests",
    "attachments", "routing", "attempt", "progress", "result", "blockers"]

theorem get?_bring {transition details next : Fields} {field : String} {read : Json → Py Json}
    (h : bring transition field read details = .ok next) {key : String} (hkey : key ≠ field) :
    Fields.get? next key = Fields.get? details key := by
  rw [bring] at h
  split at h
  · rw [← Except.ok.inj h]
  · obtain ⟨out, -, rfl⟩ := map_eq_ok_iff.mp h
    exact get?_set_of_ne hkey _ _

theorem get?_bringAll {transition details next : Fields}
    (h : bringAll transition details = .ok next) {key : String} (hkey : key ∉ changedFields) :
    Fields.get? next key = Fields.get? details key := by
  simp only [changedFields, List.mem_cons, List.not_mem_nil, not_or, or_false] at hkey
  obtain ⟨-, -, -, -, -, hfollowOns, hattachments, hrouting, hattempt, hprogress, hresult,
    hblockers⟩ := hkey
  obtain ⟨first, hfirst, h⟩ := Py.bind_eq_ok_iff.mp h
  obtain ⟨second, hsecond, h⟩ := Py.bind_eq_ok_iff.mp h
  obtain ⟨third, hthird, h⟩ := Py.bind_eq_ok_iff.mp h
  obtain ⟨fourth, hfourth, h⟩ := Py.bind_eq_ok_iff.mp h
  obtain ⟨fifth, hfifth, h⟩ := Py.bind_eq_ok_iff.mp h
  obtain ⟨sixth, hsixth, h⟩ := Py.bind_eq_ok_iff.mp h
  have hrouted : Fields.get? third key = Fields.get? second key := by
    obtain ⟨routing, -, hthird⟩ := Py.bind_eq_ok_iff.mp hthird
    obtain ⟨after, -, hthird⟩ := Py.bind_eq_ok_iff.mp hthird
    rw [← Except.ok.inj hthird, get?_set_of_ne hrouting]
  rw [get?_bring h hblockers, get?_bring hsixth hresult, get?_bring hfifth hprogress,
    get?_bring hfourth hattempt, hrouted, get?_bring hsecond hattachments,
    get?_bring hfirst hfollowOns]

namespace NextRevision

variable {now : String} {current transition revised : Fields}

theorem detailsOf_revised (revision : NextRevision now current transition revised) :
    detailsOf revised = revision.next := by
  have hget : Fields.get revised "details" = .obj revision.next :=
    (congrArg (Fields.get · "details") revision.revised_eq).trans
      (by rw [Fields.get, Fields.get?_set, if_pos rfl, Option.getD_some])
  rw [detailsOf, hget]
  rfl

/-- The other fields of the details stay as they are. -/
theorem get?_details (revision : NextRevision now current transition revised) {key : String}
    (hkey : key ∉ changedFields) :
    Fields.get? (detailsOf revised) key = Fields.get? (detailsOf current) key := by
  have hcurrent : detailsOf current = revision.details := by
    rw [detailsOf, revision.getDetails]
    rfl
  have hclaim : key ≠ "claim" := fun heq => hkey (heq ▸ by decide)
  have hstates : key ≠ "state" ∧ key ≠ "requestState" ∧ key ≠ "stateEvent" ∧
      key ≠ "coordinationState" :=
    ⟨fun heq => hkey (heq ▸ by decide), fun heq => hkey (heq ▸ by decide),
      fun heq => hkey (heq ▸ by decide), fun heq => hkey (heq ▸ by decide)⟩
  obtain ⟨hstate, hrequest, hevent, hcoordination⟩ := hstates
  rw [revision.detailsOf_revised, get?_bringAll revision.next_eq hkey,
    get?_bring revision.claimed_eq hclaim, hcurrent, nextStates]
  simp only [List.foldl_cons, List.foldl_nil, get?_set_of_ne hstate, get?_set_of_ne hrequest,
    get?_set_of_ne hevent, get?_set_of_ne hcoordination]

/-- The parts of the record that are not the details, its metadata, its relations or its
digest stay as they are. -/
theorem get?_revised (revision : NextRevision now current transition revised) {key : String}
    (hkey : key ∉ ["details", "relationships", "metadata", "contentDigest"]) :
    Fields.get? revised key = Fields.get? current key := by
  simp only [List.mem_cons, List.not_mem_nil, not_or, or_false] at hkey
  obtain ⟨hdetails, hrelationships, hmetadata, hdigest⟩ := hkey
  have hcandidate := revision.candidate_eq
  rw [congrArg (Fields.get? · key) revision.revised_eq, get?_set_of_ne hdetails]
  have hbefore : Fields.get? (Fields.set (Fields.erase current "contentDigest") "metadata"
      (.obj revision.nextMetadata)) key = Fields.get? current key := by
    rw [get?_set_of_ne hmetadata, Fields.get?_erase, if_neg (Ne.symm hdigest)]
  rw [nextRelationships] at hcandidate
  split at hcandidate
  · rw [← Except.ok.inj hcandidate, hbefore]
  · obtain ⟨_, -, hcandidate⟩ := Py.bind_eq_ok_iff.mp hcandidate
    obtain ⟨_, -, hcandidate⟩ := Py.bind_eq_ok_iff.mp hcandidate
    obtain ⟨_, -, hcandidate⟩ := Py.bind_eq_ok_iff.mp hcandidate
    rw [← Except.ok.inj hcandidate, get?_set_of_ne hrelationships, hbefore]

end NextRevision

theorem wf_revisedWorkRecord {now : String} {current transition revised : Fields}
    (h : revisedWorkRecord now current transition = .ok revised)
    (hcurrent : (Json.obj current).wf = true) (htransition : (Json.obj transition).wf = true) :
    (Json.obj revised).wf = true := by
  obtain ⟨revision⟩ := exists_nextRevision h
  have hdetails : (Json.obj revision.details).wf = true :=
    revision.getDetails ▸ Json.wf_get hcurrent "details"
  have hmetadata : (Json.obj revision.metadata).wf = true :=
    revision.getMetadata ▸ Json.wf_get hcurrent "metadata"
  have hstates := wf_nextStates hdetails (wf_nextEvent revision.event_eq) revision.targetState
    revision.coordination
  have hclaimed := wf_bring revision.claimed_eq (fun _ _ hout hvalue => wf_claim hout hvalue)
    htransition hstates
  have hcandidate := wf_nextRelationships revision.candidate_eq
    (Json.wf_set (Json.wf_erase hcurrent _) (wf_nextMetadata revision.metadata_eq hmetadata))
  rw [revision.revised_eq]
  exact Json.wf_set hcandidate (wf_bringAll revision.next_eq htransition hclaimed)

end MncsCommons.Protocol
