/-
# Relating pressures

A relation passes its own checks as it is written, leaves every history as it
was, and only adds to what the histories may require.  So validation of a valid
registry with one relation more reports a cycle of duplicates or nothing
(`validate_related`), and `relate` keeps a registry valid unless the id of what
it writes is the id of another event.
-/

import MncsCommons.Pressure.Directions
import MncsCommons.Pressure.Duplicates
import MncsCommons.Pressure.Observed

namespace MncsCommons.Pressure

open MncsCommons.Data MncsCommons.Protocol MncsCommons.Exec

/-! ## What a relation writes -/

section Written

variable {now : String} {call : RelateCall} {actor : String}

theorem length_eventId (value : Fields) : (eventId value).length = 20 := by
  have hdigit : ∀ n < 16, (Str.upperChar (Nat.digitChar n)).length = 1 := by decide
  have hchar : ∀ c ∈ sha256Hex (canonicalJson (.obj value)), (Str.upperChar c).length = 1 := by
    intro c hc
    simp only [sha256Hex, Sha256.hexWord, List.mem_flatMap, List.mem_map] at hc
    obtain ⟨_, _, _, _, rfl⟩ := hc
    exact hdigit _ (Nat.mod_lt _ (by decide))
  have hupper : ∀ digits : Text, (∀ c ∈ digits, (Str.upperChar c).length = 1) →
      (digits.flatMap Str.upperChar).length = digits.length := by
    intro digits hdigits
    induction digits with
    | nil => rfl
    | cons c digits ih =>
        obtain ⟨hc, hrest⟩ := List.forall_mem_cons.mp hdigits
        rw [List.flatMap_cons, List.length_append, hc, ih hrest, List.length_cons, Nat.add_comm]
  rw [eventId, shortHash, Str.upper, String.length_append, String.toList_ofList,
    @String.length_ofList (List.flatMap _ _), hupper _ fun c hc => hchar c (List.mem_of_mem_take hc),
    List.length_take, length_sha256Hex]
  rfl

/-- A member of a relation that is text. -/
theorem get_relation {key text : String} (hid : key ≠ "id") (hdigest : key ≠ "contentDigest")
    (h : Fields.get (relationValue now call actor) key = .str text) :
    Fields.get (eventOf (relationValue now call actor)).2.sortKeys key = .str text := by
  rw [get_eventOf hid hdigest, h, Json.sortKeys_str]

/-- The checks that a call has made pass on what it writes. -/
theorem validateEvent_relation {documents : Documents} {value : Fields}
    (observations : List (String × Fields))
    (h : checkRelateCall now call documents = .ok value) :
    validateEvent documents.records observations (eventOf value).1 (eventOf value).2.sortKeys =
      .ok [] := by
  obtain ⟨_, hends, h⟩ := Py.bind_eq_ok_iff.mp h
  obtain ⟨_, hrelation, h⟩ := Py.bind_eq_ok_iff.mp h
  obtain ⟨_, hself, h⟩ := Py.bind_eq_ok_iff.mp h
  obtain ⟨actor, hactor, h⟩ := Py.bind_eq_ok_iff.mp h
  obtain ⟨_, hinstant, h⟩ := Py.bind_eq_ok_iff.mp h
  obtain rfl := Except.ok.inj h
  simp only [raiseIf_eq_ok_iff, Bool.or_eq_false_iff, Bool.not_eq_false', decide_eq_false_iff_not]
    at hends hrelation hself hinstant
  set value := relationValue now call actor with hvalue
  have hkeys : "contentDigest" ∉ Fields.keys value := by
    rw [hvalue]
    simp [relationValue, Fields.keys]
  have hschema : Fields.get (eventOf value).2.sortKeys "schema" = .str eventSchema :=
    get_relation (by decide) (by decide) rfl
  have hversion : Fields.get (eventOf value).2.sortKeys "version" = .str pressureVersion :=
    get_relation (by decide) (by decide) rfl
  have hkind : Fields.get (eventOf value).2.sortKeys "kind" = .str "PressureRelation" :=
    get_relation (by decide) (by decide) rfl
  have hsource : Fields.get (eventOf value).2.sortKeys "sourcePressure" = .str call.recordId :=
    get_relation (by decide) (by decide) rfl
  have htarget : Fields.get (eventOf value).2.sortKeys "targetPressure" = .str call.targetId :=
    get_relation (by decide) (by decide) rfl
  have hstated : Fields.get (eventOf value).2.sortKeys "relation" = .str call.relation :=
    get_relation (by decide) (by decide) rfl
  have hwritten : Fields.get (eventOf value).2.sortKeys "actor" = .str actor :=
    get_relation (by decide) (by decide) rfl
  have htime : isInstant (Fields.get (eventOf value).2.sortKeys "occurredAt") false = true := by
    rw [get_eventOf (by decide) (by decide), isInstant_sortKeys]
    exact hinstant
  have hid : Fields.get (eventOf value).2.sortKeys "id" = .str (eventOf value).1 := get_id_written
  have herase : Fields.erase (eventOf value).2.sortKeys "contentDigest" =
      Fields.sortKeys (Fields.set value "id" (.str (eventOf value).1)) := erase_written hkeys
  have hdigest : Fields.get (eventOf value).2.sortKeys "contentDigest" =
      .str (hashDocument (Fields.erase (eventOf value).2.sortKeys "contentDigest")) := by
    rw [herase, hashDocument_sortKeys, Fields.get_sortKeys, eventOf, withDigest, Fields.get,
      Fields.get?_set, if_pos rfl, Fields.erase_of_not_mem]
    · rfl
    · rw [withEventId, Fields.mem_keys_set]
      exact fun h => h.elim hkeys (by decide)
  have hnamed : (eventOf value).1 =
      eventId (Fields.erase (Fields.erase (eventOf value).2.sortKeys "id") "contentDigest") := by
    rw [Fields.erase_erase, herase, Fields.erase_sortKeys, Fields.erase_set, eventId, shortHash,
      ← Json.sortKeys_obj_eq, canonicalJson_sortKeys]
    rfl
  have hshaped : ((Json.str (eventOf value).1).str?.any fun id =>
      Str.startsWith id "EVT-" && id.length == 20) = true := by
    rw [Json.str?, Option.any_some, Bool.and_eq_true, beq_iff_eq]
    exact ⟨Str.startsWith_append _ _, length_eventId _⟩
  have hnames : ∀ name, Fields.has documents.records name = true →
      isNameIn (.str name) documents.records = .ok true := by
    intro name hname
    refine inSet_eq_true_iff.mpr ⟨name, ?_, rfl⟩
    by_contra hmissing
    rw [Fields.has, Fields.get?_eq_none_iff.mpr hmissing] at hname
    cases hname
  have hfirst : ∀ path, concatChecks
      (commonChecks (eventOf value).2.sortKeys eventSchema path "event" "event" ++
        [reportIf (Fields.get (eventOf value).2.sortKeys "id" ≠ .str (eventOf value).1 ||
            !((Fields.get (eventOf value).2.sortKeys "id").str?.any fun id =>
              Str.startsWith id "EVT-" && id.length == 20)) "INVALID_EVENT_ID" path
            "event id and filename are invalid",
          checkEventId (eventOf value).2.sortKeys path]) = .ok [] := by
    intro path
    rw [concatChecks_eq_nil_iff]
    simp only [commonChecks, List.cons_append, List.nil_append, List.forall_mem_cons,
      reportIf_eq_nil_iff, hschema, hversion, hdigest, hshaped, checkEventId, hid]
    refine ⟨by simp, by simp, by simp, ?_, by simp⟩
    simpa using hnamed
  have hrest : ∀ path, checkRelation documents.records (eventOf value).2.sortKeys path = .ok [] := by
    intro path
    unfold checkRelation
    dsimp only
    rw [concatChecks_eq_nil_iff]
    have hkinds : inSet (.str call.relation) relationKinds = .ok true :=
      inSet_eq_true_iff.mpr ⟨call.relation, by simpa using hrelation, rfl⟩
    have hdistinct : Json.pyEq (.str call.recordId) (.str call.targetId) = false := by
      rw [Bool.eq_false_iff, ne_eq, Json.pyEq_str_iff, Json.str.injEq]
      exact hself
    simp only [checkActor, List.forall_mem_cons, hsource, htarget, hstated, hwritten, htime,
      hnames _ hends.1, hnames _ hends.2, hkinds, hdistinct, reportUnlessRepository,
      requireRepository_resolved hactor]
    exact ⟨rfl, rfl, rfl, rfl, by simp⟩
  unfold validateEvent
  dsimp only
  apply Py.bind_eq_ok_iff.mpr
  refine ⟨[], hfirst _, ?_⟩
  rw [hkind, if_pos rfl, hrest]
  rfl

end Written

/-! ## Histories -/

section Histories

variable {zone : Int → Py Int} {recordId : String} {record : Fields}
  {observations relations more events after : List Fields} {allRecordIds : List String}

/-- The second list has a relation of every kind that the first has. -/
def AddsRelations (relations more : List Fields) : Prop :=
  ∀ kind : String, (relations.any fun item => Fields.get item "relation" = .str kind) = true →
    (more.any fun item => Fields.get item "relation" = .str kind) = true

theorem relationRequirement_of_more {target required : String} (h : AddsRelations relations more)
    (hmet : relationRequirement target required relations = none) :
    relationRequirement target required more = none := by
  unfold relationRequirement at hmet ⊢
  split at hmet
  · next hany => rw [if_pos (h required hany)]
  · cases hmet

/-- The branches of a decision return what the branches of another return. -/
theorem ite_eq_of_imp {α : Type} {condition : Prop} [Decidable condition]
    {first second other rest value : α} (hfirst : first = value → other = value)
    (hsecond : second = value → rest = value) :
    (if condition then first else second) = value → (if condition then other else rest) = value := by
  by_cases h : condition
  · rwa [if_pos h, if_pos h]
  · rwa [if_neg h, if_neg h]

theorem requirements_of_more {affected : List String} {event : Fields}
    (h : AddsRelations relations more)
    (hmet : validateTransitionRequirements zone observations affected relations event = .ok none) :
    validateTransitionRequirements zone observations affected more event = .ok none := by
  obtain ⟨target, htarget, hmet⟩ := Py.bind_eq_ok_iff.mp hmet
  obtain ⟨refs, hrefs, hmet⟩ := Py.bind_eq_ok_iff.mp hmet
  obtain ⟨ids, hids, hmet⟩ := Py.bind_eq_ok_iff.mp hmet
  apply Py.bind_eq_ok_iff.mpr
  refine ⟨target, htarget, Py.bind_eq_ok_iff.mpr ⟨refs, hrefs, Py.bind_eq_ok_iff.mpr ⟨ids, hids, ?_⟩⟩⟩
  -- only the two statuses that close a pressure by a relation look at them
  revert hmet
  apply ite_eq_of_imp id
  apply ite_eq_of_imp id
  apply ite_eq_of_imp id
  apply ite_eq_of_imp id
  apply ite_eq_of_imp id
  apply ite_eq_of_imp id
  apply ite_eq_of_imp
  · intro hmet
    exact congrArg Except.ok (relationRequirement_of_more h (Except.ok.inj hmet))
  · apply ite_eq_of_imp
    · intro hmet
      exact congrArg Except.ok (relationRequirement_of_more h (Except.ok.inj hmet))
    · exact id

/-- A transition that passes its checks passes them with more relations. -/
theorem checkEvent_of_more {state : String} {event : Fields} (h : AddsRelations relations more)
    (hpasses : checkEvent zone recordId record observations relations state event = .ok none) :
    checkEvent zone recordId record observations more state event = .ok none := by
  obtain ⟨hfrom, hallowed, hmet⟩ := checkEvent_eq_none_iff.mp hpasses
  refine checkEvent_eq_none_iff.mpr ⟨hfrom, hallowed, ?_⟩
  obtain ⟨visible, hvisible, hmet⟩ := Py.bind_eq_ok_iff.mp hmet
  obtain ⟨affected, haffected, hmet⟩ := Py.bind_eq_ok_iff.mp hmet
  exact Py.bind_eq_ok_iff.mpr ⟨visible, hvisible, Py.bind_eq_ok_iff.mpr ⟨affected, haffected,
    requirements_of_more h hmet⟩⟩

/-- A replay that reports nothing goes the same way with more relations. -/
theorem replay_of_more {transitions : List Fields} {fuel : Nat} {previous : Option String}
    {reached result : Replay} (h : AddsRelations relations more)
    (hreplay : replay zone recordId record observations relations transitions fuel previous reached =
      .ok result) (hsilent : result.diagnostics = []) :
    replay zone recordId record observations more transitions fuel previous reached =
      .ok result := by
  induction fuel generalizing previous reached with
  | zero => exact hreplay
  | succ fuel ih =>
      rw [replay] at hreplay ⊢
      split at hreplay
      · exact hreplay
      · next event hcandidates =>
        split at hreplay
        · next hseen => rwa [if_pos hseen]
        · next hseen =>
          rw [if_neg hseen]
          obtain ⟨checked, hcheck, hrest⟩ := Py.bind_eq_ok_iff.mp hreplay
          cases checked with
          | none => exact Py.bind_eq_ok_iff.mpr ⟨none, checkEvent_of_more h hcheck, ih hrest⟩
          | some diagnostic =>
              have hreported := congrArg Replay.diagnostics (Except.ok.inj hrest)
              rw [hsilent] at hreported
              exact absurd hreported (by simp)
      · exact hreplay

/-- A projection without diagnostics has none with more relations. -/
theorem projectOne_of_more {projection : PressureProjection}
    (hproject : projectOne zone recordId record observations events allRecordIds = .ok projection)
    (hsilent : projection.diagnostics = [])
    (hmaterial : transitionMaterial recordId after = transitionMaterial recordId events)
    (h : AddsRelations (relationsOf recordId events) (relationsOf recordId after)) :
    ∃ projection, projectOne zone recordId record observations after allRecordIds =
      .ok projection ∧ projection.diagnostics = [] := by
  unfold projectOne projectFrom at hproject ⊢
  rw [hmaterial]
  obtain ⟨reached, hreplay, hproject⟩ := Py.bind_eq_ok_iff.mp hproject
  obtain ⟨material, hmade, hproject⟩ := Py.bind_eq_ok_iff.mp hproject
  obtain rfl := Except.ok.inj hproject
  dsimp only at hsilent
  have hreached : reached.diagnostics = [] := by
    rw [List.append_eq_nil_iff, List.append_eq_nil_iff] at hsilent
    exact hsilent.1.1
  refine ⟨_, Py.bind_eq_ok_iff.mpr ⟨reached, replay_of_more h hreplay hreached,
    Py.bind_eq_ok_iff.mpr ⟨material, hmade, rfl⟩⟩, hsilent⟩

end Histories

/-! ## The documents with one event more -/

section Files

variable {α : Type} {fields : List (String × α)} {key : String} {value : α}

theorem eq_or_mem_of_mem_set {field : String × α} (h : field ∈ Fields.set fields key value) :
    field = (key, value) ∨ field ∈ fields := by
  induction fields with
  | nil => exact .inl (List.mem_singleton.mp h)
  | cons head fields ih =>
      obtain ⟨name, old⟩ := head
      rw [Fields.set] at h
      split at h
      · next hname =>
        rcases List.mem_cons.mp h with rfl | h
        · exact .inl (by rw [hname])
        · exact .inr (List.mem_cons_of_mem _ h)
      · rcases List.mem_cons.mp h with rfl | h
        · exact .inr List.mem_cons_self
        · exact (ih h).imp_right (List.mem_cons_of_mem _)

/-- Only the first value of the key goes. -/
theorem mem_set_or_of_mem {field : String × α} (h : field ∈ fields) :
    field ∈ Fields.set fields key value ∨ field.1 = key ∧ Fields.get? fields key = some field.2 := by
  induction fields with
  | nil => exact absurd h List.not_mem_nil
  | cons head fields ih =>
      obtain ⟨name, old⟩ := head
      rw [Fields.set, Fields.get?]
      split
      · next hname =>
        rcases List.mem_cons.mp h with rfl | h
        · exact .inr ⟨hname, rfl⟩
        · exact .inl (List.mem_cons_of_mem _ h)
      · rcases List.mem_cons.mp h with rfl | h
        · exact .inl List.mem_cons_self
        · exact (ih h).imp_left (List.mem_cons_of_mem _)

theorem mem_set_self : (key, value) ∈ Fields.set fields key value := by
  induction fields with
  | nil => exact List.mem_cons_self
  | cons head fields ih =>
      obtain ⟨name, old⟩ := head
      rw [Fields.set]
      split
      · next hname =>
        rw [hname]
        exact List.mem_cons_self
      · exact List.mem_cons_of_mem _ ih

/-- Assigning a key leaves what a test keeps when it keeps neither value. -/
theorem filter_set (test : String × α → Bool) (hnew : test (key, value) = false)
    (hold : ∀ old, Fields.get? fields key = some old → test (key, old) = false) :
    (Fields.set fields key value).filter test = fields.filter test := by
  induction fields with
  | nil => simp [Fields.set, hnew]
  | cons head fields ih =>
      obtain ⟨name, old⟩ := head
      rw [Fields.set]
      rw [Fields.get?] at hold
      by_cases hname : name = key
      · rw [if_pos hname] at hold ⊢
        subst hname
        rw [List.filter_cons_of_neg (by simp [hnew]), List.filter_cons_of_neg (by simp [hold old rfl])]
      · rw [if_neg hname] at hold ⊢
        rw [List.filter_cons, List.filter_cons, ih hold]

/-- The readable documents of a directory in the order of their names. -/
def filesOf (directory : Directory) : List (String × Fields) :=
  (sortedBy (fun entry => entry.1 ++ ".json") directory).filterMap fun entry =>
    entry.2.map (Prod.mk entry.1)

variable {directory : Directory}

/-- Files that a reader reads when they are readable. -/
theorem collect_files {read : String × Option Fields → Py (String × Fields)}
    (hsome : ∀ name document, read (name, some document) = .ok (name, document))
    (hnone : ∀ name, ∃ error, read (name, none) = .error error) {items : Directory}
    {files : List (String × Fields)} :
    collect read items = .ok files ↔
      (∀ entry ∈ items, entry.2.isSome = true) ∧
        files = items.filterMap fun entry => entry.2.map (Prod.mk entry.1) := by
  induction items generalizing files with
  | nil =>
      constructor
      · intro h
        exact ⟨fun _ hentry => absurd hentry List.not_mem_nil, (Except.ok.inj h).symm⟩
      · rintro ⟨-, rfl⟩
        rfl
  | cons entry items ih =>
      obtain ⟨name, contents⟩ := entry
      rw [collect, Py.bind_eq_ok_iff, List.forall_mem_cons]
      cases contents with
      | none =>
          obtain ⟨error, herror⟩ := hnone name
          rw [herror]
          constructor
          · rintro ⟨_, hread, -⟩
            cases hread
          · rintro ⟨⟨hread, -⟩, -⟩
            cases hread
      | some document =>
          rw [hsome]
          constructor
          · rintro ⟨_, hfirst, hrest⟩
            obtain rfl := Except.ok.inj hfirst
            obtain ⟨rest, hitems, hfiles⟩ := Py.bind_eq_ok_iff.mp hrest
            obtain ⟨hall, rfl⟩ := ih.mp hitems
            exact ⟨⟨rfl, hall⟩, (Except.ok.inj hfiles).symm⟩
          · rintro ⟨⟨-, hall⟩, rfl⟩
            exact ⟨_, rfl, Py.bind_eq_ok_iff.mpr ⟨_, ih.mpr ⟨hall, rfl⟩, rfl⟩⟩

theorem readDirectory_eq_ok_iff {files : List (String × Fields)} :
    readDirectory directory = .ok files ↔
      (∀ entry ∈ directory, entry.2.isSome = true) ∧ files = filesOf directory := by
  rw [readDirectory, collect_files (fun _ _ => rfl) fun _ => ⟨_, rfl⟩, filesOf]
  simp only [mem_sortedBy]

theorem mem_filesOf {file : String × Fields} :
    file ∈ filesOf directory ↔ (file.1, some file.2) ∈ directory := by
  rw [filesOf, List.mem_filterMap]
  constructor
  · rintro ⟨⟨name, contents⟩, hentry, hfile⟩
    obtain ⟨document, rfl, rfl⟩ := Option.map_eq_some_iff.mp hfile
    exact mem_sortedBy.mp hentry
  · intro hentry
    exact ⟨_, mem_sortedBy.mpr hentry, rfl⟩

/-- The documents that a test keeps, by the files that hold them. -/
theorem filter_filesOf (test : Fields → Bool) :
    ((filesOf directory).map Prod.snd).filter test =
      (sortedBy (fun entry => entry.1 ++ ".json")
        (directory.filter fun entry => entry.2.any test)).filterMap Prod.snd := by
  rw [← filter_sortedBy, filesOf]
  generalize sortedBy (fun entry : String × Option Fields => entry.1 ++ ".json") directory = entries
  induction entries with
  | nil => rfl
  | cons entry entries ih =>
      obtain ⟨name, contents⟩ := entry
      cases contents with
      | none => exact ih
      | some document =>
          change (document :: ((entries.filterMap fun entry : String × Option Fields =>
            entry.2.map (Prod.mk entry.1)).map Prod.snd)).filter test = _
          have hcons : ((name, some document) :: entries).filter
              (fun entry : String × Option Fields => entry.2.any test) =
                if test document then (name, some document) :: entries.filter fun entry =>
                  entry.2.any test
                else entries.filter fun entry => entry.2.any test := List.filter_cons
          rw [hcons, List.filter_cons, ih]
          split
          · rfl
          · rfl

end Files

/-- The transitions of a pressure are those among all transitions. -/
theorem transitionMaterial_congr {recordId : String} {events after : List Fields}
    (h : (after.filter fun item => Fields.get item "kind" = .str "PressureTransition") =
      events.filter fun item => Fields.get item "kind" = .str "PressureTransition") :
    transitionMaterial recordId after = transitionMaterial recordId events := by
  have hmaterial : ∀ list : List Fields, transitionMaterial recordId list =
      relevantEvents recordId
        (list.filter fun item => Fields.get item "kind" = .str "PressureTransition") := by
    intro list
    rw [transitionMaterial, relevantEvents, relevantEvents, filter_sortedBy, List.filter_filter,
      List.filter_filter]
    congr 2
    funext item
    exact Bool.and_comm _ _
  rw [hmaterial, hmaterial, h]

/-! ## Sound documents -/

/-- Documents that pass every check but the one for cycles of duplicates. -/
structure Sound (host : Host) (read : Documents) : Prop where
  records : checkRecords [] read.records = .ok []
  observations : concatChecks (read.observations.map fun entry =>
    checkObservation read.records entry.1 entry.2) = .ok []
  events : ∀ entry ∈ read.events,
    validateEvent read.records read.observations entry.1 entry.2 = .ok []
  projected : ∀ entry ∈ read.records, ∃ projection,
    projectOne host.zone entry.1 entry.2 (read.observations.map Prod.snd)
      (read.events.map Prod.snd) (Fields.keys read.records) = .ok projection ∧
    projection.diagnostics = []

section Valid

variable {host : Host} {now : String} {registry : Registry} {read : Documents} {call : RelateCall}
  {value : Fields}

/-- Validation of sound documents reports what it finds of cycles. -/
theorem validateDocuments_of_sound {manifest : Fields}
    (hmanifest : isPackagedManifest host manifest = true) (h : Sound host read) :
    validateDocuments host manifest read = .ok (duplicateCycles (read.events.map Prod.snd)) := by
  have hevents : concatChecks (read.events.map fun entry =>
      validateEvent read.records read.observations entry.1 entry.2) = .ok [] := by
    rw [concatChecks_eq_nil_iff]
    intro check hcheck
    obtain ⟨entry, hentry, rfl⟩ := List.mem_map.mp hcheck
    exact h.events entry hentry
  obtain ⟨projected, hprojected⟩ : ∃ projected, projections host read = .ok projected := by
    apply exists_collect
    intro entry hentry
    obtain ⟨projection, hproject, -⟩ := h.projected entry (mem_sortedBy.mp hentry)
    exact ⟨projection, hproject⟩
  have hsilent : (projected.map PressureProjection.diagnostics).flatten = [] := by
    rw [List.flatten_eq_nil_iff]
    intro diagnostics hdiagnostics
    obtain ⟨projection, hprojection, rfl⟩ := List.mem_map.mp hdiagnostics
    obtain ⟨entry, hentry, hproject⟩ := (mem_collect hprojected).mp hprojection
    obtain ⟨other, hother, hnone⟩ := h.projected entry (mem_sortedBy.mp hentry)
    rw [hproject] at hother
    rw [Except.ok.inj hother, hnone]
  rw [validateDocuments, hmanifest, h.records, h.observations, hevents, hprojected]
  simp [reportIf, hsilent, bind, Except.bind, pure, Except.pure]

/-- Documents without diagnostics are sound, and their duplicates have no cycle. -/
theorem sound_of_validateDocuments {manifest : Fields}
    (h : validateDocuments host manifest read = .ok []) :
    Sound host read ∧ ¬ HasDuplicateCycle (read.events.map Prod.snd) := by
  obtain ⟨manifestReport, -, h⟩ := Py.bind_eq_ok_iff.mp h
  obtain ⟨records, hrecords, h⟩ := Py.bind_eq_ok_iff.mp h
  obtain ⟨observations, hobservations, h⟩ := Py.bind_eq_ok_iff.mp h
  obtain ⟨events, hevents, h⟩ := Py.bind_eq_ok_iff.mp h
  obtain ⟨projected, hprojected, h⟩ := Py.bind_eq_ok_iff.mp h
  have hsilent := Except.ok.inj h
  simp only [List.append_eq_nil_iff] at hsilent
  obtain ⟨⟨⟨⟨⟨-, rfl⟩, rfl⟩, rfl⟩, hcycles⟩, hprojections⟩ := hsilent
  refine ⟨⟨hrecords, hobservations, ?_, ?_⟩, (duplicateCycles_eq_nil_iff _).mp hcycles⟩
  · intro entry hentry
    exact concatChecks_eq_nil_iff.mp hevents _ (List.mem_map_of_mem hentry)
  · intro entry hentry
    obtain ⟨projection, hprojection, hproject⟩ :=
      collect_returns hprojected (mem_sortedBy.mpr hentry)
    refine ⟨projection, hproject, ?_⟩
    exact List.flatten_eq_nil_iff.mp hprojections _ (List.mem_map_of_mem hprojection)

theorem isPackagedManifest_packaged (host : Host) :
    isPackagedManifest host (packagedManifest host) = true := by
  have hget : ∀ key, Fields.get (packagedManifest host) key =
      (Fields.get [("schema", .str repositorySchema), ("version", .str pressureVersion),
        ("repositories", .arr host.knownRepositories)] key).sortKeys :=
    Fields.get_sortKeys _
  rw [isPackagedManifest, hget, hget, hget]
  have hrepositories : Json.pyEq (Json.sortKeys (.arr host.knownRepositories))
      (.arr host.knownRepositories) = true := by
    rw [Json.pyEq_sortKeys_left, Json.pyEq_self]
  simp only [Bool.and_eq_true]
  refine ⟨⟨?_, ?_⟩, hrepositories⟩
  · simp [Fields.get, Fields.get?]
  · simp [Fields.get, Fields.get?]

/-- A valid registry is read, and its documents are sound. -/
theorem sound_of_validate (h : validate host registry = .ok []) :
    ∃ read, Reads registry read ∧ Sound host read ∧
      ¬ HasDuplicateCycle (read.events.map Prod.snd) := by
  unfold validate at h
  split at h
  · exact absurd (Except.ok.inj h) (by simp)
  · next hcomplete =>
    split at h
    · exact absurd (Except.ok.inj h) (by simp)
    · next manifest hmanifest =>
      split at h
      · exact absurd (Except.ok.inj h) (by simp)
      · next read hread =>
        refine ⟨read, ⟨by simpa using hcomplete, ?_, hread⟩, sound_of_validateDocuments h⟩
        rw [hmanifest]
        rfl

/-- A registry with its frame and sound documents. -/
theorem validate_of_sound (hcomplete : registry.complete = true)
    (hmanifest : registry.manifest = some (packagedManifest host))
    (hread : documents registry = .ok read) (h : Sound host read) :
    validate host registry = .ok (duplicateCycles (read.events.map Prod.snd)) := by
  unfold validate
  rw [hcomplete, hmanifest, hread]
  exact validateDocuments_of_sound (isPackagedManifest_packaged host) h

/-! ## One relation more -/

/-- What is stored under the id of a value is the event of that value. -/
def OwnsName (registry : Registry) (value : Fields) : Prop :=
  ∀ stored, Fields.get? registry.events (eventOf value).1 = some stored →
    ∃ document, stored = some document ∧
      Json.pyEq (.obj document) (.obj (eventOf value).2) = true

/-- The texts of the stored event are those of the one that is written. -/
theorem OwnsName.get_iff (h : OwnsName registry value) {document : Fields}
    (hstored : Fields.get? registry.events (eventOf value).1 = some (some document))
    (key text : String) :
    Fields.get document key = .str text ↔
      Fields.get (eventOf value).2.sortKeys key = .str text := by
  obtain ⟨other, hother, heq⟩ := h _ hstored
  obtain rfl := Option.some_inj.mp hother
  have hkey := Json.pyEq_get heq key
  rw [Fields.get_sortKeys, Json.sortKeys_eq_str]
  constructor
  · intro hget
    rw [hget, Json.pyEq_comm] at hkey
    exact Json.pyEq_str_iff.mp hkey
  · intro hget
    rw [hget] at hkey
    exact Json.pyEq_str_iff.mp hkey

/-- The documents with the event of a value. -/
def Documents.withEventOf (registry : Registry) (read : Documents) (value : Fields) : Documents :=
  { read with
    events := filesOf
      (Fields.set registry.events (eventOf value).1 (some (eventOf value).2.sortKeys)) }

theorem documents_withEventOf (hread : documents registry = .ok read) (value : Fields) :
    documents ((registry.framed host).withEventOf value) =
      .ok (read.withEventOf registry value) := by
  obtain ⟨records, hrecords, hread⟩ := Py.bind_eq_ok_iff.mp hread
  obtain ⟨observations, hobservations, hread⟩ := Py.bind_eq_ok_iff.mp hread
  obtain ⟨events, hevents, hread⟩ := Py.bind_eq_ok_iff.mp hread
  obtain rfl := Except.ok.inj hread
  apply Py.bind_eq_ok_iff.mpr
  refine ⟨records, hrecords, Py.bind_eq_ok_iff.mpr ⟨observations, hobservations,
    Py.bind_eq_ok_iff.mpr ⟨_, readDirectory_eq_ok_iff.mpr ⟨?_, rfl⟩, rfl⟩⟩⟩
  intro entry hentry
  rcases eq_or_mem_of_mem_set hentry with rfl | hentry
  · rfl
  · exact (readDirectory_eq_ok_iff.mp hevents).1 entry hentry

/-- The events of a registry that is read are its readable files. -/
theorem mem_events_iff (hread : documents registry = .ok read) {entry : String × Fields} :
    entry ∈ read.events ↔ (entry.1, some entry.2) ∈ registry.events := by
  obtain ⟨records, hrecords, hread⟩ := Py.bind_eq_ok_iff.mp hread
  obtain ⟨observations, hobservations, hread⟩ := Py.bind_eq_ok_iff.mp hread
  obtain ⟨events, hevents, hread⟩ := Py.bind_eq_ok_iff.mp hread
  obtain rfl := Except.ok.inj hread
  rw [(readDirectory_eq_ok_iff.mp hevents).2, mem_filesOf]

theorem mem_events_withEventOf {entry : String × Fields} :
    entry ∈ (read.withEventOf registry value).events ↔ (entry.1, some entry.2) ∈
      Fields.set registry.events (eventOf value).1 (some (eventOf value).2.sortKeys) :=
  mem_filesOf

/-- A call writes the relation that it describes. -/
theorem exists_relationValue (h : checkRelateCall now call read = .ok value) :
    ∃ actor, value = relationValue now call actor := by
  obtain ⟨_, -, h⟩ := Py.bind_eq_ok_iff.mp h
  obtain ⟨_, -, h⟩ := Py.bind_eq_ok_iff.mp h
  obtain ⟨_, -, h⟩ := Py.bind_eq_ok_iff.mp h
  obtain ⟨actor, -, h⟩ := Py.bind_eq_ok_iff.mp h
  obtain ⟨_, -, h⟩ := Py.bind_eq_ok_iff.mp h
  exact ⟨actor, (Except.ok.inj h).symm⟩

theorem kind_written (h : checkRelateCall now call read = .ok value) :
    Fields.get (eventOf value).2.sortKeys "kind" = .str "PressureRelation" := by
  obtain ⟨actor, rfl⟩ := exists_relationValue h
  exact get_relation (by decide) (by decide) rfl

/-- No transition is written, and none is written upon. -/
theorem transitions_withEventOf (hread : documents registry = .ok read)
    (hvalue : checkRelateCall now call read = .ok value) (hown : OwnsName registry value) :
    (((read.withEventOf registry value).events.map Prod.snd).filter fun item =>
        Fields.get item "kind" = .str "PressureTransition") =
      (read.events.map Prod.snd).filter fun item =>
        Fields.get item "kind" = .str "PressureTransition" := by
  have hfiles : read.events = filesOf registry.events := by
    obtain ⟨records, -, hread⟩ := Py.bind_eq_ok_iff.mp hread
    obtain ⟨observations, -, hread⟩ := Py.bind_eq_ok_iff.mp hread
    obtain ⟨events, hevents, hread⟩ := Py.bind_eq_ok_iff.mp hread
    rw [← Except.ok.inj hread, (readDirectory_eq_ok_iff.mp hevents).2]
  have hkind := kind_written hvalue
  rw [hfiles, filter_filesOf, Documents.withEventOf, filter_filesOf, filter_set]
  · simp [hkind]
  · intro old hold
    obtain ⟨document, rfl, -⟩ := hown old hold
    simp [(hown.get_iff hold "kind" "PressureRelation").mpr hkind]

/-- The relations that were stored are stored still. -/
theorem addsRelations_withEventOf (hread : documents registry = .ok read)
    (hown : OwnsName registry value)
    (recordId : String) :
    AddsRelations (relationsOf recordId (read.events.map Prod.snd))
      (relationsOf recordId ((read.withEventOf registry value).events.map Prod.snd)) := by
  intro kind hany
  obtain ⟨item, hitem, hrelation⟩ := List.any_eq_true.mp hany
  obtain ⟨hrelevant, hkind⟩ := List.mem_filter.mp hitem
  obtain ⟨hmem, hends⟩ := List.mem_filter.mp (mem_sortedBy.mp hrelevant)
  obtain ⟨entry, hentry, rfl⟩ := List.mem_map.mp hmem
  simp only [decide_eq_true_eq, Bool.or_eq_true] at hrelation hkind hends
  have hstays : ∀ document, document ∈ (read.withEventOf registry value).events.map Prod.snd →
      (∀ key text, Fields.get entry.2 key = .str text → Fields.get document key = .str text) →
      ((relationsOf recordId ((read.withEventOf registry value).events.map Prod.snd)).any
        fun item => Fields.get item "relation" = .str kind) = true := by
    intro document hdocument hsame
    refine List.any_eq_true.mpr ⟨document, ?_, by simpa using hsame _ _ hrelation⟩
    refine List.mem_filter.mpr ⟨mem_sortedBy.mpr (List.mem_filter.mpr ⟨hdocument, ?_⟩),
      by simpa using hsame _ _ hkind⟩
    simp only [decide_eq_true_eq, Bool.or_eq_true]
    exact hends.imp (fun h => h.imp (hsame _ _) (hsame _ _)) (hsame _ _)
  have hcases := @mem_set_or_of_mem _ _ (eventOf value).1 (some (eventOf value).2.sortKeys) _
    ((mem_events_iff hread).mp hentry)
  rcases hcases with hkept | ⟨-, hreplaced⟩
  · exact hstays entry.2 (List.mem_map_of_mem (mem_events_withEventOf.mpr hkept)) fun _ _ h => h
  · have hnew : ((eventOf value).1, (eventOf value).2.sortKeys) ∈
        (read.withEventOf registry value).events := mem_events_withEventOf.mpr mem_set_self
    apply hstays _ (List.mem_map_of_mem hnew)
    intro key text
    exact (hown.get_iff hreplaced key text).mp

/-- The documents stay sound with a relation more. -/
theorem Sound.withEventOf (h : Sound host read) (hread : documents registry = .ok read)
    (hvalue : checkRelateCall now call read = .ok value) (hown : OwnsName registry value) :
    Sound host (read.withEventOf registry value) where
  records := h.records
  observations := h.observations
  events := by
    intro entry hentry
    rcases eq_or_mem_of_mem_set (mem_events_withEventOf.mp hentry) with hnew | hold
    · obtain ⟨hname, hdocument⟩ := Prod.mk.inj hnew
      rw [hname, Option.some_inj.mp hdocument]
      exact validateEvent_relation read.observations hvalue
    · exact h.events entry ((mem_events_iff hread).mpr hold)
  projected := by
    intro entry hentry
    obtain ⟨projection, hproject, hsilent⟩ := h.projected entry hentry
    exact projectOne_of_more hproject hsilent
      (transitionMaterial_congr (transitions_withEventOf hread hvalue hown))
      (addsRelations_withEventOf hread hown entry.1)

/-- A relation that is stored already adds no edge. -/
theorem hasDuplicateCycle_of_stored (hread : documents registry = .ok read)
    (hvalue : checkRelateCall now call read = .ok value) (hown : OwnsName registry value)
    {stored : Option Fields} (hstored : Fields.get? registry.events (eventOf value).1 = some stored)
    (h : HasDuplicateCycle ((read.withEventOf registry value).events.map Prod.snd)) :
    HasDuplicateCycle (read.events.map Prod.snd) := by
  obtain ⟨node, hcycle⟩ := h
  refine ⟨node, Relation.TransGen.mono ?_ _ _ hcycle⟩
  rintro source target ⟨document, hdocument, hkind, hrelation, hsource, htarget⟩
  obtain ⟨entry, hentry, rfl⟩ := List.mem_map.mp hdocument
  rcases eq_or_mem_of_mem_set (mem_events_withEventOf.mp hentry) with hnew | hold
  · obtain ⟨original, rfl, -⟩ := hown stored hstored
    have hwritten := Option.some_inj.mp (Prod.mk.inj hnew).2
    have hsame : ∀ key text, Fields.get entry.2 key = .str text →
        Fields.get original key = .str text := by
      intro key text hget
      rw [hwritten] at hget
      exact (hown.get_iff hstored key text).mpr hget
    obtain ⟨actor, rfl⟩ := exists_relationValue hvalue
    have htext : ∀ key text, key ≠ "id" → key ≠ "contentDigest" →
        Fields.get (relationValue now call actor) key = .str text →
          Fields.get original key = Fields.get entry.2 key := by
      intro key text hid hdigest hget
      have hnewText := get_relation hid hdigest hget
      rw [← hwritten] at hnewText
      rw [hnewText, hsame key text hnewText]
    refine ⟨original, List.mem_map.mpr ⟨(_, original), (mem_events_iff hread).mpr
      (Fields.mem_of_get?_eq_some hstored), rfl⟩, ?_, ?_, ?_, ?_⟩
    · rw [htext "kind" _ (by decide) (by decide) rfl, hkind]
    · rw [htext "relation" _ (by decide) (by decide) rfl, hrelation]
    · rw [htext "sourcePressure" _ (by decide) (by decide) rfl, hsource]
    · rw [htext "targetPressure" _ (by decide) (by decide) rfl, htarget]
  · exact ⟨entry.2, List.mem_map_of_mem ((mem_events_iff hread).mpr hold), hkind, hrelation,
      hsource, htarget⟩

/-- Validation with one relation more reports a cycle of duplicates or nothing. -/
theorem validate_related (hread : documents registry = .ok read) (h : Sound host read)
    (hvalue : checkRelateCall now call read = .ok value) (hown : OwnsName registry value) :
    validate host ((registry.framed host).withEventOf value) =
      .ok (duplicateCycles ((read.withEventOf registry value).events.map Prod.snd)) :=
  validate_of_sound rfl rfl (documents_withEventOf hread value) (h.withEventOf hread hvalue hown)

/-- `relate` keeps a valid registry valid. -/
theorem validate_relate (hvalid : validate host registry = .ok [])
    (hown : ∀ value, (RegistryCall.relate call).pending host now registry = some value →
      OwnsName registry value) :
    validate host (relate host now call registry).final = .ok [] := by
  obtain ⟨read, ⟨-, -, hread⟩, hsound, hacyclic⟩ := sound_of_validate hvalid
  have hframed : validate host (registry.framed host) = .ok [] := by
    have hreport : validate host (registry.framed host) =
        .ok (duplicateCycles (read.events.map Prod.snd)) := validate_of_sound rfl rfl hread hsound
    rw [hreport, (duplicateCycles_eq_nil_iff _).mpr hacyclic]
  unfold relate
  cases hcheck : (documents registry >>= checkRelateCall now call) with
  | error error =>
      rw [(checkedCall_of_error hcheck).1]
      exact hframed
  | ok value =>
      have hpending : (RegistryCall.relate call).pending host now registry = some value := by
        rw [RegistryCall.pending, hcheck, Except.toOption]
      have howns := hown value hpending
      obtain ⟨found, hfound, hvalue⟩ := Py.bind_eq_ok_iff.mp hcheck
      rw [hread] at hfound
      obtain rfl := Except.ok.inj hfound
      have hreport := validate_related hread hsound hvalue howns
      rw [(@checkedCall_of_ok host registry _ _ _ (writeChecked host "relation") _ hcheck).1]
      obtain ⟨hwritten, -, hfinal⟩ | ⟨diagnostics, hne, hreported, -, hfinal⟩ | ⟨error, hraises, -, -⟩ :=
        writeChecked_cases host "relation" value (registry.framed host)
      · rw [hfinal]
        exact hwritten
      · cases hstored : Fields.get? registry.events (eventOf value).1 with
        | none =>
            -- the unlinked event was new, so the events are those of before
            have herased : (relate host now call registry).final = registry.framed host := by
              rw [relate, (@checkedCall_of_ok host registry _ _ _ (writeChecked host "relation") _
                hcheck).1, hfinal]
              exact congrArg (fun events => { registry.framed host with events := events })
                (erase_set_of_free (some (eventOf value).2.sortKeys) hstored)
            rw [relate, (@checkedCall_of_ok host registry _ _ _ (writeChecked host "relation") _
              hcheck).1] at herased
            rw [herased]
            exact hframed
        | some stored =>
            rw [hreport] at hreported
            have hcycle := not_congr (duplicateCycles_eq_nil_iff
              ((read.withEventOf registry value).events.map Prod.snd))
            rw [not_not, Except.ok.inj hreported] at hcycle
            exact absurd (hasDuplicateCycle_of_stored hread hvalue howns hstored (hcycle.mp hne))
              hacyclic
      · rw [hreport] at hraises
        cases hraises

end Valid

/-! ## Runs -/

/-- A sequence of `relate` calls from a registry to another.  No call writes upon
another event: the id of an event is the start of a hash of its content, and
what is stored under the id that a call writes is the event itself. -/
inductive RelateRun (host : Host) (first : Registry) : Registry → Prop where
  | start : RelateRun host first first
  | relate {last : Registry} (hrun : RelateRun host first last) (now : String) (call : RelateCall)
      (hown : ∀ value, (RegistryCall.relate call).pending host now last = some value →
        OwnsName last value) :
      RelateRun host first (relate host now call last).final

/-- A run from a valid registry keeps it valid. -/
theorem RelateRun.validate_eq {host : Host} {first last : Registry} (h : RelateRun host first last)
    (hvalid : validate host first = .ok []) : validate host last = .ok [] := by
  induction h with
  | start => exact hvalid
  | relate hrun now call hown ih => exact validate_relate ih hown

/-- The search for cycles ends for every set of relations, a report names a cycle
exactly when the relations that validation reads have one, and no run of
`relate` on a valid registry makes one. -/
theorem duplicate_chains_acyclic (host : Host) :
    (∀ events extra visited node,
      visitDuplicates events ((duplicateSources events).length + 2 + extra) [] visited node =
        visitDuplicates events ((duplicateSources events).length + 2) [] visited node) ∧
    (∀ registry report, validate host registry = .ok report →
      ((∃ diagnostic ∈ report, diagnostic.code = "DUPLICATE_CYCLE") ↔
        ∃ read, Reads registry read ∧ HasDuplicateCycle (read.events.map Prod.snd))) ∧
    ∀ registry last, validate host registry = .ok [] → RelateRun host registry last →
      ∃ read, Reads last read ∧ ¬ HasDuplicateCycle (read.events.map Prod.snd) := by
  refine ⟨visitDuplicates_fuel, fun registry report => validate_reports_iff, ?_⟩
  intro registry last hvalid hrun
  obtain ⟨read, hread, -, hacyclic⟩ := sound_of_validate (hrun.validate_eq hvalid)
  exact ⟨read, hread, hacyclic⟩

/-- Two declared pressures, of which one was related to the other. -/
theorem relatedPair_acyclic : ∃ read, Reads relatedPair read ∧
    ¬ HasDuplicateCycle (read.events.map Prod.snd) := by
  have hvalid : validate utcHost declaredPair = .ok [] := by
    rw [declaredPair_eq]
    exact validate_stored (by decide +kernel) rfl (by decide +kernel)
  have hempty : declaredPair.events = [] := by
    rw [declaredPair_eq]
    rfl
  have hrun : RelateRun utcHost declaredPair relatedPair := by
    have hfinal : relatedPair =
        (relate utcHost "2026-01-01T00:00:00Z" duplicateRelation declaredPair).final := by
      rw [relatedPair, calledAt, RegistryCall.run, forget_final]
    rw [hfinal]
    refine .relate .start _ _ ?_
    intro value _ stored hstored
    rw [hempty] at hstored
    cases hstored
  exact (duplicate_chains_acyclic utcHost).2.2 declaredPair relatedPair hvalid hrun

end MncsCommons.Pressure
