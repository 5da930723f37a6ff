/-
# Lawful events

`add_event` checks an event against the replay of the stored history in the
domain as the event spells it, and the projections replay it in the domain
without surrounding white space.  Where the two spellings agree, every stored
history applies to every stored record in every domain (`events_lawful`).
-/

import MncsCommons.Store.Room
import MncsCommons.Protocol.Events

namespace MncsCommons.Store

open MncsCommons.Data MncsCommons.Protocol MncsCommons.Exec

/-- The domain of an event has no surrounding white space. -/
def Call.StrippedDomain : Call → Prop
  | .add .event value =>
      Str.strip (authorityDomain (candidateOf value)) = authorityDomain (candidateOf value)
  | _ => True

/-- Every stored event has a stored target, and every stored history applies. -/
structure LawfulEvents (read : List Fields) : Prop where
  targets : ∀ event ∈ payloadsFromRows read "event", ∃ record ∈ payloadsFromRows read "record",
    targetDigest event = some (digestOf record)
  applies : ∀ record ∈ payloadsFromRows read "record", ∀ domain,
    Applies (digestOf record) domain (payloadsFromRows read "event")

theorem digestOf_of_str {payload : Fields} {digest : String}
    (h : Fields.get payload "contentDigest" = .str digest) (hne : digest ≠ "") :
    digestOf payload = digest := by
  simp [digestOf, h, Json.truthy, hne]

theorem canonicalDigest_ne_empty (fields : Fields) : canonicalDigest fields ≠ "" := by
  intro h
  have hlength := congrArg (fun digest : String => digest.toList.length) h
  rw [canonicalDigest, digestOfText] at hlength
  simp [length_sha256Hex] at hlength

theorem initialState_of_validateRecord {record : Fields} (h : validateRecord record = .ok []) :
    initialState record = .ok LifecycleState.proposed.value := by
  have hrecord := (validateRecord_eq_nil_iff.mp h).1
  rw [recordDiagnostics, concatChecks_eq_nil_iff] at hrecord
  simp only [List.forall_mem_cons] at hrecord
  obtain ⟨-, -, -, -, -, hcommon, -⟩ := hrecord
  rw [commonRecordChecks, concatChecks_eq_nil_iff] at hcommon
  obtain ⟨lifecycle, hlifecycle, hchecks⟩ := checkObject_eq_nil_iff.mp
    (hcommon (checkLifecycle (Fields.get record "lifecycle")) (by simp))
  simp only [concatChecks_eq_nil_iff, List.forall_mem_cons, reportIf_eq_nil_iff, ne_eq, decide_not,
    Bool.not_eq_false', decide_eq_true_eq, Json.str?_eq_some_iff] at hchecks
  rw [initialState, Fields.get?_of_get hlifecycle (by simp), Option.getD_some, getAttr,
    Fields.get?_of_get hchecks.2.1 (by simp)]
  rfl

theorem deriveForDomain_eq {record : Fields} (h : validateRecord record = .ok [])
    (events : List Fields) (domain : String) :
    deriveForDomain record events domain =
      .ok ⟨(replay (digestOf record) domain LifecycleState.proposed.value events).state,
        (replay (digestOf record) domain LifecycleState.proposed.value events).applied,
        (replay (digestOf record) domain LifecycleState.proposed.value events).diagnostics,
        some domain, []⟩ := by
  rw [deriveForDomain, initialState_of_validateRecord h]
  rfl

/-- A projection that reports nothing and applies every event of the domain. -/
theorem applies_of_deriveLifecycle {record : Fields} (hvalid : validateRecord record = .ok [])
    {events : List Fields} {domain : String} {view : LifecycleView}
    (h : deriveLifecycle record events (some domain) = .ok view) (hdiagnostics : view.diagnostics = [])
    (happlied : view.events =
      (events.filter (concerns (digestOf record) domain)).map digestOf) :
    Applies (digestOf record) domain events := by
  rw [deriveLifecycle, deriveForDomain_eq hvalid] at h
  obtain rfl := Except.ok.inj h
  exact ⟨hdiagnostics, happlied⟩

/-- The state an event is checked against is where the replay of its target in
its domain stands. -/
theorem currentState_eq {read : List Fields} {target candidate : Fields}
    (h : validateRecord target = .ok []) :
    currentState read target candidate =
      .ok (replay (digestOf target) (authorityDomain candidate) LifecycleState.proposed.value
        (payloadsFromRows read "event")).state := by
  rw [currentState, deriveLifecycle, deriveForDomain_eq h]
  rfl

/-- The check of a transition, once the target is found. -/
theorem admitTransition_iff {read : List Fields} {candidate record : Fields}
    {target domain source next : String}
    (hparts : EventParts candidate target domain source next)
    (hfind : findTarget read target = some record) (hvalid : validateRecord record = .ok []) :
    admitTransition read candidate = .ok () ↔
      validateTransition (replay (digestOf record) domain LifecycleState.proposed.value
        (payloadsFromRows read "event")).state next candidate = [] := by
  obtain ⟨targetFields, htargetFields, htarget⟩ := hparts.named
  obtain ⟨transitionFields, htransitionFields, -, hnext⟩ := hparts.transition
  have heventTarget : eventTarget candidate = target := by
    simp [eventTarget, htargetFields, Json.obj?, htarget]
  have heventTo : eventTo candidate = next := by
    simp [eventTo, htransitionFields, Json.obj?, hnext]
  rw [admitTransition, heventTarget, heventTo, hfind]
  simp only [currentState_eq hvalid, hparts.authorityDomain_eq, bind, Except.bind]
  exact rejectIf_eq_ok_iff

/-- An event that passed the checks of its transition has a stored target. -/
theorem exists_target_of_admitTransition {read : List Fields} {candidate : Fields}
    {target domain source next : String}
    (hparts : EventParts candidate target domain source next)
    (h : admitTransition read candidate = .ok ()) :
    ∃ record, findTarget read target = some record := by
  obtain ⟨targetFields, htargetFields, htarget⟩ := hparts.named
  have heventTarget : eventTarget candidate = target := by
    simp [eventTarget, htargetFields, Json.obj?, htarget]
  rw [admitTransition, heventTarget] at h
  cases hfind : findTarget read target with
  | none => rw [hfind] at h; cases h
  | some record => exact ⟨record, rfl⟩

theorem findTarget_eq_some {read : List Fields} {target : String} {record : Fields}
    (h : findTarget read target = some record) :
    record ∈ payloadsFromRows read "record" ∧ Fields.get record "contentDigest" = .str target := by
  have hdigest := List.find?_some h
  rw [decide_eq_true_eq, Json.str?_eq_some_iff] at hdigest
  exact ⟨List.mem_of_find?_eq_some h, hdigest⟩

/-- A record that no stored event targets. -/
theorem applies_of_not_targeted {target : String} (domain : String) {events : List Fields}
    (hvalid : ∀ event ∈ events, validateEvent event = .ok [])
    (hdistinct : (events.map digestOf).Nodup)
    (h : ∀ event ∈ events, targetDigest event ≠ some target) : Applies target domain events := by
  induction events using List.reverseRecOn with
  | nil => exact applies_nil target domain
  | append_singleton events event ih =>
      obtain ⟨_, _, _, _, hparts⟩ := exists_parts_of_validateEvent (hvalid event (by simp))
      rw [List.map_append, List.map_singleton, List.nodup_append] at hdistinct
      obtain ⟨hbefore, -, hdisjoint⟩ := hdistinct
      have happlies := ih (fun other hother => hvalid other (by simp [hother])) hbefore
        fun other hother => h other (by simp [hother])
      have hnew : digestOf event ∉ events.map digestOf :=
        fun hmem => hdisjoint _ hmem _ (List.mem_singleton_self _) rfl
      refine (applies_append_iff hparts hnew happlies).mpr fun hconcerns => ?_
      rw [concerns, Bool.and_eq_true, decide_eq_true_eq] at hconcerns
      exact absurd hconcerns.1 (h event (by simp))

/-! ## One call -/

section Step

variable {store : StoreDir} {read : List Fields}

theorem Verified.digestOf_eq (h : Verified store read) {type : ContentType} {payload : Fields}
    (hpayload : payload ∈ payloadsFromRows read type.value) :
    Fields.get payload "contentDigest" = .str (digestOf payload) := by
  have hdigest := h.contentDigest hpayload
  rw [digestOf_of_str hdigest (canonicalDigest_ne_empty payload)]
  exact hdigest

theorem Verified.map_digestOf (h : Verified store read) (type : ContentType) :
    ((payloadsFromRows read type.value).map fun payload => Fields.get payload "contentDigest") =
      ((payloadsFromRows read type.value).map digestOf).map Json.str := by
  rw [List.map_map]
  exact List.map_congr_left fun payload hpayload => h.digestOf_eq hpayload

theorem DistinctDigests.nodup {type : ContentType} (h : DistinctDigests read type)
    (hverified : Verified store read) :
    ((payloadsFromRows read type.value).map digestOf).Nodup := by
  rw [DistinctDigests, hverified.map_digestOf] at h
  exact h.of_map

/-- The digest of the entry of a lawful call, as a projection reads it. -/
theorem Admitted.digestOf_sortKeys {type : ContentType} {value : Mapping}
    (h : Admitted type store read (candidateOf value))
    (hlawful : (Call.add type value).DigestNotNull) :
    Fields.get (candidateOf value) "contentDigest" =
      .str (digestOf (Fields.sortKeys (candidateOf value))) := by
  have hdigest := h.digest hlawful
  have hsorted : Fields.get (Fields.sortKeys (candidateOf value)) "contentDigest" =
      .str (canonicalDigest (candidateOf value)) := by
    rw [Fields.get_sortKeys, hdigest, Json.sortKeys_str]
  rw [digestOf_of_str hsorted (canonicalDigest_ne_empty _)]
  exact hdigest

/-- The digest of a new entry is new. -/
theorem Admitted.digestOf_not_mem {type : ContentType} {value : Mapping}
    (h : Admitted type store read (candidateOf value))
    (hlawful : (Call.add type value).DigestNotNull) (hverified : Verified store read) :
    digestOf (Fields.sortKeys (candidateOf value)) ∉
      (payloadsFromRows read type.value).map digestOf := by
  intro hmem
  obtain ⟨payload, hpayload, hdigest⟩ := List.mem_map.mp hmem
  refine h.new payload hpayload ?_
  rw [hverified.digestOf_eq hpayload, hdigest, h.digestOf_sortKeys hlawful, Json.pyStr_str]

/-- A new record has no events. -/
theorem LawfulEvents.addRecord (h : LawfulEvents read) (hverified : Verified store read)
    (hevents : DistinctDigests read .event) {value : Mapping}
    (hadmitted : Admitted .record store read (candidateOf value))
    (hlawful : (Call.add .record value).DigestNotNull) (domain : String) :
    Applies (digestOf (Fields.sortKeys (candidateOf value))) domain
      (payloadsFromRows read "event") := by
  refine applies_of_not_targeted domain
    (fun event hevent => (@Verified.filed _ _ hverified .event _ hevent).valid)
    (hevents.nodup hverified) fun event hevent htargets => ?_
  obtain ⟨record, hrecord, htarget⟩ := h.targets event hevent
  have hsame := Option.some.inj (htarget.symm.trans htargets)
  exact hadmitted.digestOf_not_mem hlawful hverified (List.mem_map.mpr ⟨record, hrecord, hsame⟩)

/-- A new event was checked against the replay that its record is projected by. -/
theorem LawfulEvents.addEvent (h : LawfulEvents read) (hverified : Verified store read)
    {value : Mapping} (hadmitted : Admitted .event store read (candidateOf value))
    (hlawful : (Call.add .event value).DigestNotNull)
    (hstripped : (Call.add .event value).StrippedDomain) :
    (∃ record ∈ payloadsFromRows read "record",
      targetDigest (Fields.sortKeys (candidateOf value)) = some (digestOf record)) ∧
      ∀ record ∈ payloadsFromRows read "record", ∀ domain, Applies (digestOf record) domain
        (payloadsFromRows read "event" ++ [Fields.sortKeys (candidateOf value)]) := by
  obtain ⟨target, eventDomain, source, next, hparts⟩ :=
    exists_parts_of_validateEvent hadmitted.valid
  obtain ⟨stored, hfind⟩ := exists_target_of_admitTransition hparts (hadmitted.event rfl)
  obtain ⟨hstored, hdigest⟩ := findTarget_eq_some hfind
  have htarget : digestOf stored = target := by
    rw [@Verified.digestOf_eq _ _ hverified .record _ hstored] at hdigest
    exact Json.str.inj hdigest
  have hcheck := (admitTransition_iff hparts hfind
    (@Verified.filed _ _ hverified .record _ hstored).valid).mp (hadmitted.event rfl)
  rw [htarget] at hcheck
  have hstrip : Str.strip eventDomain = eventDomain := by
    have hdomain : Str.strip (authorityDomain (candidateOf value)) =
        authorityDomain (candidateOf value) := hstripped
    rwa [hparts.authorityDomain_eq] at hdomain
  refine ⟨⟨stored, hstored, by rw [hparts.sortKeys.targetDigest_eq, htarget]⟩, ?_⟩
  intro record hrecord domain
  refine (applies_append_iff hparts.sortKeys (hadmitted.digestOf_not_mem hlawful hverified)
    (h.applies record hrecord domain)).mpr fun hconcerns => ?_
  rw [concerns, hparts.sortKeys.targetDigest_eq, hparts.sortKeys.eventDomain_eq hstrip,
    Bool.and_eq_true, decide_eq_true_eq, decide_eq_true_eq] at hconcerns
  rw [← Option.some.inj hconcerns.1, ← Option.some.inj hconcerns.2,
    hparts.sortKeys.validateTransition_congr hparts]
  exact hcheck

theorem LawfulEvents.step {after : List Fields} {call : Call} (h : LawfulEvents read)
    (hverified : Verified store read) (hevents : DistinctDigests read .event)
    (hlawful : call.DigestNotNull) (hstripped : call.StrippedDomain)
    (hextends : Extends store read call after) : LawfulEvents after := by
  obtain hrecords | ⟨value, rfl, hadmitted, hrecords⟩ := hextends.payloads .record
  · obtain hsame | ⟨value, rfl, hadmitted, hadded⟩ := hextends.payloads .event
    · change payloadsFromRows after "record" = _ at hrecords
      change payloadsFromRows after "event" = _ at hsame
      exact ⟨by rw [hrecords, hsame]; exact h.targets, by rw [hrecords, hsame]; exact h.applies⟩
    · obtain ⟨htarget, happlies⟩ := h.addEvent hverified hadmitted hlawful hstripped
      change payloadsFromRows after "record" = _ at hrecords
      change payloadsFromRows after "event" = _ at hadded
      refine ⟨?_, by rw [hrecords, hadded]; exact happlies⟩
      rw [hrecords, hadded]
      intro event hevent
      rcases List.mem_append.mp hevent with hold | hnew
      · exact h.targets event hold
      · rw [List.mem_singleton.mp hnew]
        exact htarget
  · obtain hsame | ⟨other, hcall, -, -⟩ := hextends.payloads .event
    · change payloadsFromRows after "record" = _ at hrecords
      change payloadsFromRows after "event" = _ at hsame
      refine ⟨?_, ?_⟩
      · rw [hrecords, hsame]
        intro event hevent
        obtain ⟨record, hrecord, htarget⟩ := h.targets event hevent
        exact ⟨record, List.mem_append_left _ hrecord, htarget⟩
      · rw [hrecords, hsame]
        intro record hrecord domain
        rcases List.mem_append.mp hrecord with hold | hnew
        · exact h.applies record hold domain
        · rw [List.mem_singleton.mp hnew]
          exact h.addRecord hverified hevents hadmitted hlawful domain
    · cases hcall

end Step

/-! ## Runs -/

/-- In every reachable store the projection of every record in every domain
reports nothing and applies every event about the record in the domain. -/
theorem events_lawful {store : StoreDir} {read : List Fields}
    (h : Reachable (fun call => call.Lawful ∧ call.StrippedDomain) store)
    (hread : rows store = .ok read) {record : Fields}
    (hrecord : record ∈ payloadsFromRows read "record") (domain : String) :
    ∃ view, deriveLifecycle record (payloadsFromRows read "event") (some domain) = .ok view ∧
      view.diagnostics = [] ∧
      view.events = ((payloadsFromRows read "event").filter
        (concerns (digestOf record) domain)).map digestOf := by
  obtain ⟨found, hsound, hlawful, -⟩ := h.sound_and
    (fun read => LawfulEvents read ∧ DistinctDigests read .event)
    (fun _ hcall => hcall.1)
    ⟨⟨fun _ hevent => (nomatch hevent), fun _ hrecord => (nomatch hrecord)⟩, List.nodup_nil⟩
    (fun _ _ _ _ hsound hcall hproperty hextends =>
      ⟨hproperty.1.step hsound.verified hproperty.2 hcall.1.2 hcall.2 hextends,
        hproperty.2.step hcall.1.2 hextends⟩)
    (.of_rows hread)
  obtain rfl := Except.ok.inj (hread.symm.trans hsound.verified.rows)
  obtain ⟨hdiagnostics, happlied⟩ := hlawful.applies record hrecord domain
  have hvalid := (@Verified.filed _ _ hsound.verified .record _ hrecord).valid
  exact ⟨_, deriveForDomain_eq hvalid _ domain, hdiagnostics, happlied⟩

/-! ## A domain with surrounding white space -/

theorem canonicalDigest_firstRecord : canonicalDigest firstRecord.fields =
    "sha256:a5f1291081c166d31edbdb416eba4b93cdd7c7159bebb7554fb32e03fd9369c4" := by
  rw [canonicalDigest_eq_quickDigest]
  decide +kernel

/-- An event of a domain that moves the first record from proposed to reproduced. -/
def reproduction (domain : String) : Mapping where
  fields :=
    [("apiVersion", .str apiVersion), ("kind", .str eventKind),
      ("metadata", .obj [("createdAt", .str "2026-01-02T00:00:00Z"),
        ("author", .obj [("type", .str "agent"), ("id", .str "a")])]),
      ("target", .obj [("contentDigest",
        .str "sha256:a5f1291081c166d31edbdb416eba4b93cdd7c7159bebb7554fb32e03fd9369c4")]),
      ("transition", .obj [("from", .str LifecycleState.proposed.value),
        ("to", .str LifecycleState.reproduced.value)]),
      ("authority", .obj [("domain", .str domain), ("actor", .str "a"), ("rationale", .str "r")]),
      ("evidence", .arr [])]
  wf := rfl

theorem canonicalDigest_reproduction :
    canonicalDigest (reproduction "d").fields =
        "sha256:eb2c5b92d5fb11af96a8ca418951625902ff9c6991094fbfae8f20829408fcc8" ∧
      canonicalDigest (reproduction " d").fields =
        "sha256:c17afba05e3d93e9bf7470da7e8f07dd92e88070b07a4f8a4360c44951ee26a9" := by
  rw [canonicalDigest_eq_quickDigest, canonicalDigest_eq_quickDigest]
  exact ⟨by decide +kernel, by decide +kernel⟩

theorem candidateOf_reproduction (domain : String) :
    candidateOf (reproduction domain) = canonFields (Fields.set (reproduction domain).fields
      "contentDigest" (.str (canonicalDigest (reproduction domain).fields))) := by
  rw [candidateOf, if_neg, withDigest_eq_canonFields (reproduction domain).wf]
  exact Bool.false_ne_true

theorem parts_reproduction (domain : String) (h : Str.isBlank domain = false) :
    EventParts (candidateOf (reproduction domain))
      "sha256:a5f1291081c166d31edbdb416eba4b93cdd7c7159bebb7554fb32e03fd9369c4" domain
      LifecycleState.proposed.value LifecycleState.reproduced.value := by
  rw [candidateOf_reproduction]
  exact EventParts.canonFields
    ⟨⟨_, rfl, rfl⟩, by decide, ⟨_, rfl, rfl⟩, h, ⟨_, rfl, rfl, rfl⟩⟩

theorem get_candidateOf_reproduction (domain : String) :
    Fields.get (candidateOf (reproduction domain)) "contentDigest" =
      .str (canonicalDigest (reproduction domain).fields) := by
  rw [candidateOf, if_neg, get_withDigest (reproduction domain).wf]
  exact Bool.false_ne_true

theorem validateEvent_reproduction {domain : String} (h : Str.isBlank domain = false) :
    validateEvent (candidateOf (reproduction domain)) = .ok [] := by
  have hcandidate : candidateOf (reproduction domain) = withDigest (reproduction domain).fields := by
    rw [candidateOf, if_neg]
    exact Bool.false_ne_true
  rw [hcandidate, validateEvent_withDigest (reproduction domain).wf]
  have hvalid := validDigest_canonicalDigest (reproduction domain).fields
  generalize canonicalDigest (reproduction domain).fields = digest at hvalid
  have hget : Fields.get (Fields.set (reproduction domain).fields "contentDigest" (.str digest))
      "contentDigest" = .str digest := rfl
  rw [eventDiagnostics, concatChecks_eq_nil_iff]
  simp only [List.forall_mem_cons]
  -- the digest and the domain are the only members whose values are not known
  refine ⟨rfl, rfl, rfl, rfl, rfl, rfl, rfl, ?_, rfl, ?_, by simp⟩
  · refine checkObject_eq_nil_iff.mpr ⟨_, rfl, ?_⟩
    simp only [concatChecks_eq_nil_iff, List.forall_mem_cons, requireString_eq_nil_iff]
    exact ⟨by simpa [isText, Fields.get, Fields.get?] using h, rfl, rfl, by simp⟩
  · rw [checkDigestForm, hget, hvalid]
    rfl

theorem get_candidateOf_firstRecord :
    Fields.get (Fields.sortKeys (candidateOf firstRecord)) "contentDigest" =
      .str (canonicalDigest firstRecord.fields) := by
  rw [Fields.get_sortKeys, candidateOf, if_neg (by decide), get_withDigest firstRecord.wf,
    Json.sortKeys_str]

theorem digestOf_firstRecord : digestOf (Fields.sortKeys (candidateOf firstRecord)) =
    canonicalDigest firstRecord.fields :=
  digestOf_of_str get_candidateOf_firstRecord (canonicalDigest_ne_empty _)

theorem digestOf_reproduction (domain : String) :
    digestOf (Fields.sortKeys (candidateOf (reproduction domain))) =
      canonicalDigest (reproduction domain).fields := by
  refine digestOf_of_str ?_ (canonicalDigest_ne_empty _)
  rw [Fields.get_sortKeys, get_candidateOf_reproduction, Json.sortKeys_str]

theorem validateRecord_sorted_firstRecord :
    validateRecord (Fields.sortKeys (candidateOf firstRecord)) = .ok [] :=
  (validateRecord_sortKeys (wf_candidateOf firstRecord)).mpr validateRecord_firstRecord

/-- A proposed record may be reproduced. -/
theorem validateTransition_reproduction {event : Fields} {target domain : String}
    (hparts : EventParts event target domain LifecycleState.proposed.value
      LifecycleState.reproduced.value) :
    validateTransition LifecycleState.proposed.value LifecycleState.reproduced.value event = [] := by
  obtain ⟨fields, hfields, hfrom, -⟩ := hparts.transition
  have hsource : isLifecycleState LifecycleState.proposed.value = true := by decide
  have hnext : isLifecycleState LifecycleState.reproduced.value = true := by decide
  have hallowed : LifecycleState.reproduced.value ∈
      allowedTransitions LifecycleState.proposed.value := by decide
  simp [validateTransition, hparts.authorityDomain_eq, hparts.nonblank, hfields, hfrom, hsource,
    hnext, hallowed, Json.obj?, Json.str?]

/-- A reproduced record may not be reproduced again. -/
theorem validateTransition_reproduced (event : Fields) :
    validateTransition LifecycleState.reproduced.value LifecycleState.reproduced.value event ≠
      [] := by
  have hforbidden : LifecycleState.reproduced.value ∉
      allowedTransitions LifecycleState.reproduced.value := by decide
  simp [validateTransition, hforbidden]

theorem holding_firstRecord (host : Host) :
    Holding (Call.run host (.add .record firstRecord) .fresh).final
      [Fields.sortKeys (candidateOf firstRecord)] [] 1 := by
  refine holding_fresh.addRecord (by decide) host lawful_firstRecord.2
    (size_firstRecord_le.trans (by decide)) validateRecord_firstRecord (by simp) ?_
  rw [candidateOf_firstRecord]
  exact ((plain_observation _ _ _).canonFields.recordSemanticDiagnostics_eq_nil_iff
    (by simp)).mpr (.inr rfl)

/-- The event is appended while its domain, as it spells it, has no events. -/
theorem holding_reproduction {store : StoreDir} {events : List Fields} {count : Nat}
    (domain : String) (h : Holding store [Fields.sortKeys (candidateOf firstRecord)] events count)
    (hcount : count < 1000) (host : Host) (hblank : Str.isBlank domain = false)
    (hsize : (Json.obj (candidateOf (reproduction domain))).size ≤ 8000)
    (hnew : ∀ event ∈ events, Fields.get event "contentDigest" ≠
      .str (canonicalDigest (reproduction domain).fields))
    (hstate : (replay (canonicalDigest firstRecord.fields) domain LifecycleState.proposed.value
      events).state = LifecycleState.proposed.value) :
    Holding (Call.run host (.add .event (reproduction domain)) store).final
      [Fields.sortKeys (candidateOf firstRecord)]
      (events ++ [Fields.sortKeys (candidateOf (reproduction domain))]) (count + 1) := by
  refine h.addEvent hcount host (by simp [Call.DigestNotNull, reproduction, Fields.get?]) hsize ?_
  obtain ⟨read, hsound, hrecords, rfl, -⟩ := h.sound
  have hverified := hsound.verified
  have hparts := parts_reproduction domain hblank
  rw [← canonicalDigest_firstRecord] at hparts
  have hfind : findTarget read (canonicalDigest firstRecord.fields) =
      some (Fields.sortKeys (candidateOf firstRecord)) := by
    rw [findTarget, hrecords, List.find?_cons_of_pos]
    rw [get_candidateOf_firstRecord]
    simp [Json.str?]
  have hfresh : Fresh .event read (candidateOf (reproduction domain)) := by
    intro payload hpayload
    rw [get_candidateOf_reproduction, Json.pyStr_str]
    exact hnew payload hpayload
  refine admit_event_eq hverified.rows hverified.transactions (validateEvent_reproduction hblank)
    (hverified.anyRow_of_fresh hfresh) ((admitTransition_iff hparts hfind
      validateRecord_sorted_firstRecord).mpr ?_)
  rw [digestOf_firstRecord, hstate]
  exact validateTransition_reproduction hparts

/-- The first event of a domain moves the record there and nowhere else. -/
theorem state_replay_reproduction {domain : String} (hblank : Str.isBlank domain = false)
    (hstrip : Str.strip domain = domain) (other : String) :
    (replay (canonicalDigest firstRecord.fields) other LifecycleState.proposed.value
      [Fields.sortKeys (candidateOf (reproduction domain))]).state =
        if domain = other then LifecycleState.reproduced.value
        else LifecycleState.proposed.value := by
  have hparts := (parts_reproduction domain hblank).sortKeys
  obtain ⟨transition, htransition, hnext⟩ := hparts.next_eq
  have htarget := hparts.targetDigest_eq
  rw [← canonicalDigest_firstRecord] at htarget
  have hvalid := validateTransition_reproduction hparts
  rw [replay, List.foldl_cons, List.foldl_nil, replayStep, htarget,
    hparts.eventDomain_eq hstrip, htransition]
  by_cases hother : domain = other
  · subst hother
    simp [hnext, hvalid]
  · simp [hother]

theorem size_reproduction_le : ∀ domain ∈ ["d", " d"],
    (Json.obj (candidateOf (reproduction domain))).size ≤ 8000 := by
  have hsize : ∀ domain ∈ ["d", " d"], (Json.obj (reproduction domain).fields).size ≤ 7000 := by
    simp only [Json.size_eq_byteSize_quickRender]
    decide +kernel
  intro domain hdomain
  have hcandidate := @size_candidateOf_le (reproduction domain) rfl
  have := hsize domain hdomain
  omega

/-- The first record and its reproduction in a domain. -/
theorem holding_first_reproduction :
    Holding (Call.run .plain (.add .event (reproduction "d"))
        (Call.run .plain (.add .record firstRecord) .fresh).final).final
      [Fields.sortKeys (candidateOf firstRecord)]
      ([] ++ [Fields.sortKeys (candidateOf (reproduction "d"))]) 2 :=
  holding_reproduction _ (holding_firstRecord .plain) (by decide) .plain (by decide)
    (size_reproduction_le _ (by simp)) (by simp) (by rw [replay, List.foldl_nil])

theorem reproduction_lawful :
    ∃ read view,
      rows (Call.run .plain (.add .event (reproduction "d"))
        (Call.run .plain (.add .record firstRecord) .fresh).final).final = .ok read ∧
      deriveLifecycle (Fields.sortKeys (candidateOf firstRecord)) (payloadsFromRows read "event")
        (some "d") = .ok view ∧
      view.diagnostics = [] ∧
      view.events = ((payloadsFromRows read "event").filter
        (concerns (digestOf (Fields.sortKeys (candidateOf firstRecord))) "d")).map digestOf := by
  obtain ⟨read, hread, hrecords, -⟩ := holding_first_reproduction.rows_eq
  have hstripped : (Call.add .event (reproduction "d")).StrippedDomain := by
    rw [Call.StrippedDomain, (parts_reproduction _ (by decide)).authorityDomain_eq]
    decide
  have hlawful : (Call.add .event (reproduction "d")).Lawful :=
    ⟨trivial, by simp [Call.DigestNotNull, reproduction, Fields.get?]⟩
  have hreachable := @Reachable.call (fun call => call.Lawful ∧ call.StrippedDomain) _ .plain _
    (.call .plain .init ⟨lawful_firstRecord, trivial⟩) ⟨hlawful, hstripped⟩
  obtain ⟨view, hview⟩ := @events_lawful _ _ hreachable hread
    (Fields.sortKeys (candidateOf firstRecord)) (by rw [hrecords]; simp) "d"
  exact ⟨read, view, hread, hview⟩

/-- Two events of one domain, spelled with and without a blank, are both accepted;
a projection applies only one of them. -/
theorem spaced_domain_unlawful :
    ¬ ∀ store read, Reachable (fun call => ∃ type value, call = .add type value) store →
      rows store = .ok read → ∀ record ∈ payloadsFromRows read "record", ∀ domain,
        ∃ view, deriveLifecycle record (payloadsFromRows read "event") (some domain) = .ok view ∧
          view.diagnostics = [] ∧
          view.events = ((payloadsFromRows read "event").filter
            (concerns (digestOf record) domain)).map digestOf := by
  intro hall
  have hdifferent : canonicalDigest (reproduction "d").fields ≠
      canonicalDigest (reproduction " d").fields := by
    rw [canonicalDigest_reproduction.1, canonicalDigest_reproduction.2]
    decide
  have hsecond := holding_reproduction " d" holding_first_reproduction
    (by decide) .plain (by decide) (size_reproduction_le _ (by simp)) ?_ ?_
  · obtain ⟨read, hread, hrecords, hevents⟩ := hsecond.rows_eq
    obtain ⟨view, hview, hdiagnostics, happlied⟩ := hall _ read
      (.call .plain (.call .plain (.call .plain .init ⟨_, _, rfl⟩) ⟨_, _, rfl⟩) ⟨_, _, rfl⟩) hread
      (Fields.sortKeys (candidateOf firstRecord)) (by rw [hrecords]; simp) "d"
    have happlies := applies_of_deriveLifecycle validateRecord_sorted_firstRecord hview
      hdiagnostics happlied
    rw [hevents, digestOf_firstRecord, List.nil_append] at happlies
    have hparts := (parts_reproduction "d" (by decide)).sortKeys
    have hspaced := (parts_reproduction " d" (by decide)).sortKeys
    have hbefore : Applies (canonicalDigest firstRecord.fields) "d"
        ([] ++ [Fields.sortKeys (candidateOf (reproduction "d"))]) := by
      refine (applies_append_iff hparts List.not_mem_nil (applies_nil _ _)).mpr fun _ => ?_
      rw [replay, List.foldl_nil]
      exact validateTransition_reproduction hparts
    rw [List.nil_append] at hbefore
    have hnew : digestOf (Fields.sortKeys (candidateOf (reproduction " d"))) ∉
        [Fields.sortKeys (candidateOf (reproduction "d"))].map digestOf := by
      simpa [digestOf_reproduction] using hdifferent.symm
    have hconcerns : concerns (canonicalDigest firstRecord.fields) "d"
        (Fields.sortKeys (candidateOf (reproduction " d"))) = true := by
      rw [concerns, hspaced.targetDigest_eq, hspaced.eventDomain_eq_strip (by decide),
        canonicalDigest_firstRecord]
      decide
    have hcheck := (applies_append_iff hspaced hnew hbefore).mp happlies hconcerns
    rw [state_replay_reproduction (by decide) (by decide), if_pos rfl] at hcheck
    exact validateTransition_reproduced _ hcheck
  · intro event hevent
    rw [List.mem_singleton.mp hevent, Fields.get_sortKeys, get_candidateOf_reproduction,
      Json.sortKeys_str]
    exact fun hsame => hdifferent (Json.str.inj hsame)
  · rw [List.nil_append, state_replay_reproduction (by decide) (by decide), if_neg (by decide)]

end MncsCommons.Store
