/-
# Which end of a relation is closed

A pressure closed as a duplicate should be the source of a `duplicate_of`
relation, and one closed as superseded the target of a `supersedes` relation.
The check of a transition looks at the relations of the pressure without their
direction, so the calls themselves have to see to it: in a run whose transitions
to these statuses find the relation stored the right way round, and whose events
are not unlinked again, every closed pressure is closed at the right end.
-/

import MncsCommons.Pressure.Failures

namespace MncsCommons.Pressure

open MncsCommons.Data MncsCommons.Protocol MncsCommons.Exec

/-! ## Stored relations -/

/-- A document is a relation between two pressures. -/
structure Relates (document : Fields) (relation source target : String) : Prop where
  kind : Fields.get document "kind" = .str "PressureRelation"
  relation : Fields.get document "relation" = .str relation
  source : Fields.get document "sourcePressure" = .str source
  target : Fields.get document "targetPressure" = .str target

/-- The relation that closes a pressure in a status is stored the right way round. -/
def ClosedBy (registry : Registry) (status recordId : String) : Prop :=
  (status = "duplicate" → ∃ entry ∈ registry.events, ∃ document other, entry.2 = some document ∧
    other ≠ recordId ∧ Relates document "duplicate_of" recordId other) ∧
  (status = "superseded" → ∃ entry ∈ registry.events, ∃ document other, entry.2 = some document ∧
    other ≠ recordId ∧ Relates document "supersedes" other recordId)

/-- Every pressure with a valid projection is closed at the right end. -/
def ClosedAtRightEnd (host : Host) (registry : Registry) : Prop :=
  ∀ documents, Pressure.documents registry = .ok documents → ∀ entry ∈ documents.records,
    ∀ projection, projectOne host.zone entry.1 entry.2 (documents.observations.map Prod.snd)
        (documents.events.map Prod.snd) (Fields.keys documents.records) = .ok projection →
      projection.valid = true → ClosedBy registry projection.status entry.1

/-! ## Runs -/

/-- The registries that calls with the permission reach, whether they return or
raise. -/
inductive RegistryReachable (host : Host)
    (permitted : Registry → String → RegistryCall → Prop) : Registry → Prop where
  | fresh : RegistryReachable host permitted Registry.fresh
  | call {registry : Registry} {now : String} {call : RegistryCall}
      (hreachable : RegistryReachable host permitted registry)
      (hpermitted : permitted registry now call) :
      RegistryReachable host permitted (call.run host now registry).final

/-- The event a call is about to write is new, or it is there as it is written
and validation does not report. -/
def KeepsEvents (host : Host) (registry : Registry) (value : Fields) : Prop :=
  Fields.get? registry.events (eventOf value).1 = none ∨
    Fields.get? registry.events (eventOf value).1 = some (some (eventOf value).2.sortKeys) ∧
      ∀ diagnostics, validate host ((registry.framed host).withEventOf value) = .ok diagnostics →
        diagnostics = []

/-- A call whose event stays, and which closes a pressure only at the right end. -/
def ClosesRightEnd (host : Host) (registry : Registry) (now : String) (call : RegistryCall) :
    Prop :=
  ∀ value, call.pending host now registry = some value → KeepsEvents host registry value ∧
    ∀ move, call = .transition move → ClosedBy registry move.target move.recordId

/-! ## The invariant -/

/-- A stored transition moves the pressure it names only, and what it closes is
closed by a stored relation. -/
def TransitionClosed (registry : Registry) (document : Fields) : Prop :=
  Fields.get document "kind" = .str "PressureTransition" →
    Fields.get document "sourcePressure" = .null ∧ Fields.get document "targetPressure" = .null ∧
      ∀ recordId status, Fields.get document "pressureId" = .str recordId →
        Fields.get document "to" = .str status → ClosedBy registry status recordId

/-- What a run keeps: declarations start discovered, and transitions are closed. -/
structure RightEnds (registry : Registry) : Prop where
  declared : ∀ entry ∈ registry.records, ∀ record, entry.2 = some record →
    Fields.get record "initialStatus" = .str "discovered"
  closed : ∀ entry ∈ registry.events, ∀ document, entry.2 = some document →
    TransitionClosed registry document

section Invariant

variable {host : Host} {now : String} {registry other : Registry} {status recordId : String}

/-- A registry with all the events of another has its relations. -/
theorem ClosedBy.mono (h : ClosedBy registry status recordId)
    (hevents : ∀ entry ∈ registry.events, entry ∈ other.events) :
    ClosedBy other status recordId := by
  constructor
  · intro hstatus
    obtain ⟨entry, hentry, hrelates⟩ := h.1 hstatus
    exact ⟨entry, hevents entry hentry, hrelates⟩
  · intro hstatus
    obtain ⟨entry, hentry, hrelates⟩ := h.2 hstatus
    exact ⟨entry, hevents entry hentry, hrelates⟩

theorem TransitionClosed.mono {document : Fields} (h : TransitionClosed registry document)
    (hevents : ∀ entry ∈ registry.events, entry ∈ other.events) :
    TransitionClosed other document := by
  intro hkind
  obtain ⟨hsource, htarget, hclosed⟩ := h hkind
  exact ⟨hsource, htarget, fun recordId status hid hto => (hclosed recordId status hid hto).mono hevents⟩

/-- The invariant reads the records and the events only. -/
theorem RightEnds.congr (h : RightEnds registry) (hrecords : other.records = registry.records)
    (hevents : other.events = registry.events) : RightEnds other where
  declared := by
    rw [hrecords]
    exact h.declared
  closed := by
    rw [hevents]
    intro entry hentry document hdocument
    exact (h.closed entry hentry document hdocument).mono fun entry hentry => hevents ▸ hentry

/-- The members that the id and the digest of an event leave. -/
theorem get_eventOf {value : Fields} {key : String} (hid : key ≠ "id")
    (hdigest : key ≠ "contentDigest") :
    Fields.get (eventOf value).2.sortKeys key = (Fields.get value key).sortKeys := by
  have hget : Fields.get (eventOf value).2 key = Fields.get value key := by
    simp only [eventOf, withDigest, withEventId, Fields.get, Fields.get?_set, hid.symm,
      hdigest.symm, if_false]
  rw [Fields.get_sortKeys, hget]

/-! ## One step -/

theorem initialStatus_declarationHead {spec : Fields} {head : Declaration}
    (h : declarationHead now spec = .ok head) :
    Fields.get head.record "initialStatus" = .str "discovered" := by
  unfold declarationHead at h
  obtain ⟨target, -, h⟩ := Py.bind_eq_ok_iff.mp h
  obtain ⟨_, -, h⟩ := Py.bind_eq_ok_iff.mp h
  obtain ⟨domain, -, h⟩ := Py.bind_eq_ok_iff.mp h
  obtain ⟨capability, -, h⟩ := Py.bind_eq_ok_iff.mp h
  obtain ⟨title, -, h⟩ := Py.bind_eq_ok_iff.mp h
  obtain ⟨summary, -, h⟩ := Py.bind_eq_ok_iff.mp h
  obtain ⟨required, -, h⟩ := Py.bind_eq_ok_iff.mp h
  obtain ⟨reproducer, -, h⟩ := Py.bind_eq_ok_iff.mp h
  obtain ⟨signature, -, h⟩ := Py.bind_eq_ok_iff.mp h
  obtain ⟨_, -, h⟩ := Py.bind_eq_ok_iff.mp h
  obtain ⟨repository, -, h⟩ := Py.bind_eq_ok_iff.mp h
  obtain ⟨_, -, h⟩ := Py.bind_eq_ok_iff.mp h
  obtain ⟨generated, -, h⟩ := Py.bind_eq_ok_iff.mp h
  obtain ⟨recordId, -, h⟩ := Py.bind_eq_ok_iff.mp h
  obtain rfl := Except.ok.inj h
  dsimp only
  split
  · split
    · simp [Fields.get, Fields.get?_set, Fields.get?]
    · simp [Fields.get, Fields.get?_set, Fields.get?]
  · split
    · simp [Fields.get, Fields.get?_set, Fields.get?]
    · simp [Fields.get, Fields.get?]

/-- A declaration starts discovered. -/
theorem initialStatus_checkAddCall {spec : Fields} {records : Directory} {declaration : Declaration}
    (h : checkAddCall now spec records = .ok declaration) :
    Fields.get (Fields.sortKeys (withDigest declaration.record)) "initialStatus" =
      .str "discovered" := by
  obtain ⟨head, hhead, h⟩ := Py.bind_eq_ok_iff.mp h
  obtain ⟨_, -, h⟩ := Py.bind_eq_ok_iff.mp h
  obtain ⟨record, hrecord, h⟩ := Py.bind_eq_ok_iff.mp h
  obtain rfl := Except.ok.inj h
  obtain ⟨aliases, -, hrecord⟩ := Py.bind_eq_ok_iff.mp hrecord
  obtain ⟨affected, -, hrecord⟩ := Py.bind_eq_ok_iff.mp hrecord
  obtain rfl := Except.ok.inj hrecord
  have hget : ∀ (fields : Fields) (key : String) (value : Json), key ≠ "initialStatus" →
      Fields.get (Fields.set fields key value) "initialStatus" = Fields.get fields "initialStatus" := by
    intro fields key value hne
    rw [Fields.get, Fields.get?_set, if_neg hne]
    rfl
  dsimp only
  rw [Fields.get_sortKeys, withDigest, hget _ _ _ (by decide), hget _ _ _ (by decide),
    hget _ _ _ (by decide), initialStatus_declarationHead hhead, Json.sortKeys_str]

/-- A checked write of a closed event keeps the invariant when the events stay. -/
theorem RightEnds.written {value : Fields} (h : RightEnds registry) (subject : String)
    (hkeeps : KeepsEvents host registry value)
    (hclosed : TransitionClosed registry (eventOf value).2.sortKeys) :
    RightEnds (writeChecked host subject value (registry.framed host)).final := by
  rcases hkeeps with hnew | ⟨hthere, hreport⟩
  · have hmissing := Fields.get?_eq_none_iff.mp hnew
    have hwritten : RightEnds ((registry.framed host).withEventOf value) := by
      have hevents : ((registry.framed host).withEventOf value).events =
          registry.events ++ [((eventOf value).1, some (eventOf value).2.sortKeys)] :=
        Fields.set_of_not_mem _ hmissing
      have hold : ∀ entry ∈ registry.events,
          entry ∈ ((registry.framed host).withEventOf value).events := by
        intro entry hentry
        rw [hevents]
        exact List.mem_append_left _ hentry
      refine ⟨h.declared, ?_⟩
      intro entry hentry document hdocument
      rw [hevents] at hentry
      rcases List.mem_append.mp hentry with hentry | hentry
      · exact (h.closed entry hentry document hdocument).mono hold
      · rw [List.mem_singleton.mp hentry, Option.some_inj] at hdocument
        subst hdocument
        exact hclosed.mono hold
    obtain ⟨-, -, hfinal⟩ | ⟨diagnostics, -, -, -, hfinal⟩ | ⟨error, -, -, hfinal⟩ :=
      writeChecked_cases host subject value (registry.framed host)
    · rw [hfinal]
      exact hwritten
    · rw [hfinal]
      exact h.congr rfl (erase_set_of_free _ hnew)
    · rw [hfinal]
      exact hwritten
  · have hsame : RightEnds ((registry.framed host).withEventOf value) :=
      h.congr rfl (Fields.set_of_get?_eq_some hthere)
    obtain ⟨-, -, hfinal⟩ | ⟨diagnostics, hne, hvalidate, -, -⟩ | ⟨error, -, -, hfinal⟩ :=
      writeChecked_cases host subject value (registry.framed host)
    · rw [hfinal]
      exact hsame
    · exact absurd (hreport diagnostics hvalidate) hne
    · rw [hfinal]
      exact hsame

/-- A checked call that writes keeps the invariant. -/
theorem RightEnds.checked {check : Documents → Py Fields} (h : RightEnds registry)
    (subject : String)
    (hwrite : ∀ value, (documents registry >>= check) = .ok value →
      KeepsEvents host registry value ∧ TransitionClosed registry (eventOf value).2.sortKeys) :
    RightEnds (checkedCall host check (writeChecked host subject) registry).final := by
  cases hcheck : (documents registry >>= check) with
  | error error =>
      rw [(checkedCall_of_error hcheck).1]
      exact h.congr rfl rfl
  | ok value =>
      rw [(@checkedCall_of_ok host registry _ _ _ (writeChecked host subject) _ hcheck).1]
      exact h.written subject (hwrite value hcheck).1 (hwrite value hcheck).2

/-- What `relate` writes is no transition. -/
theorem transitionClosed_relate {call : RelateCall} {value : Fields}
    (hvalue : (documents registry >>= checkRelateCall now call) = .ok value) :
    TransitionClosed registry (eventOf value).2.sortKeys := by
  obtain ⟨documents, -, h⟩ := Py.bind_eq_ok_iff.mp hvalue
  obtain ⟨_, -, h⟩ := Py.bind_eq_ok_iff.mp h
  obtain ⟨_, -, h⟩ := Py.bind_eq_ok_iff.mp h
  obtain ⟨_, -, h⟩ := Py.bind_eq_ok_iff.mp h
  obtain ⟨actor, -, h⟩ := Py.bind_eq_ok_iff.mp h
  obtain ⟨_, -, h⟩ := Py.bind_eq_ok_iff.mp h
  obtain rfl := Except.ok.inj h
  intro hkind
  rw [get_eventOf (by decide) (by decide)] at hkind
  exact absurd hkind (by simp [relationValue, Fields.get, Fields.get?])

/-- What `transition` writes moves the pressure of the call to its target. -/
theorem transitionClosed_transition {call : TransitionCall} {value : Fields}
    (hvalue : (documents registry >>= checkTransitionCall host now call) = .ok value)
    (hclosed : ClosedBy registry call.target call.recordId) :
    TransitionClosed registry (eventOf value).2.sortKeys := by
  obtain ⟨documents, -, h⟩ := Py.bind_eq_ok_iff.mp hvalue
  obtain ⟨projection, -, h⟩ := Py.bind_eq_ok_iff.mp h
  obtain ⟨_, -, h⟩ := Py.bind_eq_ok_iff.mp h
  obtain ⟨_, -, h⟩ := Py.bind_eq_ok_iff.mp h
  obtain ⟨previous, -, h⟩ := Py.bind_eq_ok_iff.mp h
  obtain ⟨_, -, h⟩ := Py.bind_eq_ok_iff.mp h
  obtain ⟨allowed, -, h⟩ := Py.bind_eq_ok_iff.mp h
  obtain ⟨_, -, h⟩ := Py.bind_eq_ok_iff.mp h
  obtain ⟨actor, -, h⟩ := Py.bind_eq_ok_iff.mp h
  obtain ⟨reason, -, h⟩ := Py.bind_eq_ok_iff.mp h
  obtain ⟨_, -, h⟩ := Py.bind_eq_ok_iff.mp h
  obtain ⟨requirement, -, h⟩ := Py.bind_eq_ok_iff.mp h
  have hwritten : value = transitionValue now call projection previous actor reason := by
    cases requirement with
    | some requirement => exact absurd h (by simp)
    | none => exact (Except.ok.inj h).symm
  subst hwritten
  intro hkind
  simp only [get_eventOf, ne_eq, String.reduceEq, not_false_eq_true]
  refine ⟨by simp [transitionValue, Fields.get, Fields.get?],
    by simp [transitionValue, Fields.get, Fields.get?], ?_⟩
  intro recordId status hid hto
  have hrecordId : call.recordId = recordId := by
    simpa [transitionValue, Fields.get, Fields.get?] using hid
  have hstatus : call.target = status := by
    simpa [transitionValue, Fields.get, Fields.get?] using hto
  rwa [← hrecordId, ← hstatus]

/-- A call that closes a pressure only at the right end keeps the invariant. -/
theorem RightEnds.step (h : RightEnds registry) {call : RegistryCall}
    (hpermitted : ClosesRightEnd host registry now call) :
    RightEnds (call.run host now registry).final := by
  have hobserve : ∀ recordId spec,
      RightEnds (observe host now recordId spec registry).final := by
    intro recordId spec
    rcases observe_cases host now recordId spec registry with hfinal | ⟨_, _, _, _, _, _, hfinal⟩
    · rw [hfinal]
      exact h.congr rfl rfl
    · rw [hfinal]
      exact h.congr rfl rfl
  cases call with
  | add spec =>
      rw [RegistryCall.run, forget_final]
      rcases add_cases host now spec registry with
        ⟨hsame, -⟩ | ⟨declaration, _, hcheck, -, hevents, hrecords⟩
      · exact h.congr hsame.records hsame.events
      · constructor
        · intro entry hentry record hrecord
          rw [hrecords] at hentry
          rcases Fields.mem_set hentry with hentry | hnew
          · exact h.declared entry hentry record hrecord
          · rw [hnew, Option.some_inj] at hrecord
            subst hrecord
            exact initialStatus_checkAddCall hcheck
        · rw [hevents]
          intro entry hentry document hdocument
          exact (h.closed entry hentry document hdocument).mono fun entry hentry => hevents ▸ hentry
  | observe recordId spec =>
      rw [RegistryCall.run, forget_final]
      exact hobserve recordId spec
  | verify recordId call =>
      rw [RegistryCall.run, forget_final]
      rcases verify_cases host now recordId call registry with hfinal | ⟨spec, hfinal, -⟩
      · rw [hfinal]
        exact h
      · rw [hfinal]
        exact hobserve recordId spec
  | relate call =>
      rw [RegistryCall.run, forget_final]
      apply h.checked
      intro value hvalue
      have hpending : (RegistryCall.relate call).pending host now registry = some value := by
        rw [RegistryCall.pending, hvalue, Except.toOption]
      exact ⟨(hpermitted value hpending).1, transitionClosed_relate hvalue⟩
  | transition call =>
      rw [RegistryCall.run, forget_final]
      apply h.checked
      intro value hvalue
      have hpending : (RegistryCall.transition call).pending host now registry = some value := by
        rw [RegistryCall.pending, hvalue, Except.toOption]
      exact ⟨(hpermitted value hpending).1,
        transitionClosed_transition hvalue ((hpermitted value hpending).2 call rfl)⟩

/-- Every registry of a run keeps the invariant. -/
theorem RegistryReachable.rightEnds (h : RegistryReachable host (ClosesRightEnd host) registry) :
    RightEnds registry := by
  induction h with
  | fresh =>
      constructor
      · intro entry hentry
        exact absurd hentry List.not_mem_nil
      · intro entry hentry
        exact absurd hentry List.not_mem_nil
  | call hreachable hpermitted ih => exact ih.step hpermitted

/-! ## The last transition -/

theorem mem_readDirectory {directory : Directory} {files : List (String × Fields)}
    (h : readDirectory directory = .ok files) {file : String × Fields} (hfile : file ∈ files) :
    (file.1, some file.2) ∈ directory := by
  obtain ⟨⟨name, contents⟩, hmem, hread⟩ := (mem_collect h).mp hfile
  rw [mem_sortedBy] at hmem
  cases contents with
  | none => exact absurd hread (by simp)
  | some document =>
      obtain rfl := Except.ok.inj hread
      exact hmem

/-- Other statuses need no relation. -/
theorem closedBy_of_ne (hduplicate : status ≠ "duplicate") (hsuperseded : status ≠ "superseded") :
    ClosedBy registry status recordId :=
  ⟨fun h => absurd h hduplicate, fun h => absurd h hsuperseded⟩

/-- Where the invariant holds, valid projections are closed at the right end. -/
theorem RightEnds.closedAtRightEnd (h : RightEnds registry) : ClosedAtRightEnd host registry := by
  intro documents hdocuments entry hentry projection hproject hvalid
  obtain ⟨records, hrecords, hrest⟩ := Py.bind_eq_ok_iff.mp hdocuments
  obtain ⟨observations, -, hrest⟩ := Py.bind_eq_ok_iff.mp hrest
  obtain ⟨events, hevents, hrest⟩ := Py.bind_eq_ok_iff.mp hrest
  obtain rfl := Except.ok.inj hrest
  dsimp only at hentry hproject
  have hinitial : (member entry.2 "initialStatus" (.str "discovered")).pyStr = "discovered" := by
    have hget := Fields.get?_of_get
      (h.declared _ (mem_readDirectory hrecords hentry) entry.2 rfl) (by simp)
    rw [member, hget, Option.getD_some, Json.pyStr_str]
  obtain ⟨last, hwalks, -⟩ := walks_of_projectOne hproject hvalid
  rw [hinitial] at hwalks
  by_cases hne : projection.events = []
  · rw [hne] at hwalks
    generalize projection.status = status at hwalks
    cases hwalks with
    | stop => exact closedBy_of_ne (by decide) (by decide)
  · obtain ⟨before, hstep⟩ := hwalks.linked.getLast_step hne
    obtain ⟨-, htarget⟩ := hostStep_eq_some_iff.mp hstep
    set event := projection.events.getLast hne with hevent
    have hmaterial : event ∈ transitionMaterial entry.1 (events.map Prod.snd) :=
      hwalks.subset (List.getLast_mem hne)
    obtain ⟨hrelevant, hkind⟩ := List.mem_filter.mp hmaterial
    obtain ⟨hmem, hends⟩ := List.mem_filter.mp (mem_sortedBy.mp hrelevant)
    obtain ⟨file, hfile, hdocument⟩ := List.mem_map.mp hmem
    obtain ⟨hsource, htargets, hclosed⟩ := h.closed _ (mem_readDirectory hevents hfile) event
      (congrArg some hdocument) (by simpa using hkind)
    have hid : Fields.get event "pressureId" = .str entry.1 := by
      rw [hsource, htargets] at hends
      simpa using hends
    have hto : ∀ status : String, projection.status = status →
        status ∈ ["duplicate", "superseded"] → Fields.get event "to" = .str status := by
      intro status hstatus hmem
      rw [hstatus] at htarget
      have hvalue : member event "to" (.str "") = .str status := by
        apply (Json.pyStr_eq_iff _).mp htarget
        rcases List.mem_cons.mp hmem with rfl | hmem
        · decide
        · rw [List.mem_singleton.mp hmem]
          decide
      unfold member at hvalue
      cases hget : Fields.get? event "to" with
      | none =>
          rw [hget, Option.getD_none] at hvalue
          rw [← Json.str.inj hvalue] at hmem
          exact absurd hmem (by decide)
      | some value =>
          rw [hget, Option.getD_some] at hvalue
          rw [Fields.get, hget, hvalue, Option.getD_some]
    constructor
    · intro hstatus
      exact (hclosed entry.1 "duplicate" hid (hto _ hstatus (by decide))).1 rfl
    · intro hstatus
      exact (hclosed entry.1 "superseded" hid (hto _ hstatus (by decide))).2 rfl

end Invariant

/-- A specification with its own id. -/
def customSpec (id : String) : Fields :=
  [("target", .str "language"), ("domain", .str "d"), ("capability", .str "c"), ("title", .str "t"),
    ("summary", .str "s"), ("requiredBehavior", .str "r"), ("reproducerSignature", .str "x"),
    ("discoveredBy", .str "mncs"), ("id", .str id), ("allowCustomId", .bool true)]

/-- The registry after a call at one time, where local time is UTC. -/
def calledAt (registry : Registry) (call : RegistryCall) : Registry :=
  (call.run utcHost "2026-01-01T00:00:00Z" registry).final

/-- The relation that makes the first of two pressures a duplicate of the second. -/
def duplicateRelation : RelateCall :=
  ⟨"MNCS-A-000000000000", "duplicate_of", "MNCS-B-000000000000", .str "mncs", [], [], .null⟩

/-- The second pressure is closed as the duplicate. -/
def closeSecond : TransitionCall :=
  ⟨"MNCS-B-000000000000", "duplicate", .str "mncs", .str "", [], [], [], none, .null⟩

/-- Two declared pressures. -/
def declaredPair : Registry :=
  calledAt (calledAt .fresh (.add (customSpec "MNCS-A-000000000000")))
    (.add (customSpec "MNCS-B-000000000000"))

/-- The first is related to the second. -/
def relatedPair : Registry := calledAt declaredPair (.relate duplicateRelation)

/-- The second is closed. -/
def misdirectedPair : Registry := calledAt relatedPair (.transition closeSecond)

/-! What the runs store. -/

/-- The record of a declared pressure. -/
def storedPressure (id digest : String) : String × Fields :=
  (id, [("affectedRepositories", .arr [.str "mncs"]), ("allowCustomId", .bool true),
    ("capability", .str "c"), ("contentDigest", .str digest),
    ("discoveredAt", .str "2026-01-01T00:00:00Z"), ("discoveredBy", .str "mncs"),
    ("domain", .str "d"), ("id", .str id),
    ("identity", .obj [("capability", .str "c"), ("domain", .str "d"),
      ("reproducerSignature", .str "x"), ("target", .str "language")]),
    ("initialStatus", .str "discovered"), ("languageProfile", .null), ("legacyIds", .arr []),
    ("notes", .null), ("reproducer", .obj [("signature", .str "x")]),
    ("requiredBehavior", .str "r"), ("schema", .str "commons.mncs.dev/family-pressure/v1"),
    ("severity", .str "major"), ("signals", .obj []), ("sourceRef", .obj []),
    ("summary", .str "s"), ("target", .str "language"), ("title", .str "t"),
    ("version", .str "1")])

/-- The observation that is stored with it. -/
def storedObservation (pressureId id digest : String) : String × Fields :=
  (id, [("agent", .null), ("compiler", .null), ("contentDigest", .str digest),
    ("evidence", .arr []), ("id", .str id), ("kind", .str "observation"),
    ("languageProfile", .null), ("metadata", .obj []),
    ("observedAt", .str "2026-01-01T00:00:00Z"), ("pressureId", .str pressureId),
    ("repository", .str "mncs"),
    ("reproduction", .obj [("instructions", .str "x"), ("status", .str "UNKNOWN")]),
    ("runId", .null), ("schema", .str "commons.mncs.dev/family-pressure-observation/v1"),
    ("sourceRef", .obj []), ("summary", .str "s"), ("version", .str "1"), ("workaround", .obj [])])

def storedRecords : List (String × Fields) :=
  [storedPressure "MNCS-A-000000000000"
    "sha256:f8d2c451b520623faf57f09d82f8d956153e603279c11efff5b82619e07ea498",
  storedPressure "MNCS-B-000000000000"
    "sha256:590bce2dc52f2cb895a751f4534149aedb4e1840588749f565310225a06f7ba3"]

def storedObservations : List (String × Fields) :=
  [storedObservation "MNCS-A-000000000000" "MNCS-A-000000000000--OBS-EA043F2DB1D5"
    "sha256:80c5472bebbdd2c0f5f2c7eee83ceee53b5d16205e66341171105e487ace2b14",
  storedObservation "MNCS-B-000000000000" "MNCS-B-000000000000--OBS-05A1CFB1CB15"
    "sha256:28b077c2780d59dafd0afda0db156f0620e987f41e9bb8d80136bc2d1c1b511f"]

/-- The event of the relation. -/
def relationEvent : String × Fields :=
  ("EVT-F1E3EA3998EFECEB", [("actor", .str "mncs"),
    ("contentDigest",
      .str "sha256:8a7bd02e59b8b8a6d24aa7e8e687a955ede6e377b03cd4f04bc8354944c14529"),
    ("details", .obj []), ("evidenceRefs", .arr []), ("id", .str "EVT-F1E3EA3998EFECEB"),
    ("kind", .str "PressureRelation"), ("occurredAt", .str "2026-01-01T00:00:00Z"),
    ("relation", .str "duplicate_of"), ("schema", .str "commons.mncs.dev/family-pressure-event/v1"),
    ("sourcePressure", .str "MNCS-A-000000000000"), ("targetPressure", .str "MNCS-B-000000000000"),
    ("version", .str "1")])

/-- The event that closes the second pressure. -/
def closingEvent : String × Fields :=
  ("EVT-FFC60DC6A2B4D2FE", [("actor", .str "mncs"),
    ("contentDigest",
      .str "sha256:4fc632608575c506f3f6d60fe46b8beaf08004cd65179a13823a431fdbc25052"),
    ("details", .obj []), ("evidenceRefs", .arr []), ("from", .str "discovered"),
    ("id", .str "EVT-FFC60DC6A2B4D2FE"), ("implementation", .obj []),
    ("kind", .str "PressureTransition"), ("occurredAt", .str "2026-01-01T00:00:00Z"),
    ("pressureId", .str "MNCS-B-000000000000"), ("previousEvent", .null), ("reason", .str ""),
    ("schema", .str "commons.mncs.dev/family-pressure-event/v1"), ("to", .str "duplicate"),
    ("version", .str "1")])

/-- Documents as files. -/
def asFiles (documents : List (String × Fields)) : Directory :=
  documents.map fun entry => (entry.1, some entry.2)

/-- A registry of such documents. -/
def storedRegistry (records observations events : List (String × Fields)) : Registry :=
  ⟨true, some (packagedManifest utcHost), asFiles records, asFiles observations, asFiles events⟩

deriving instance DecidableEq for Documents

theorem declaredPair_eq : declaredPair = storedRegistry storedRecords storedObservations [] := by
  have hfirst : calledAt .fresh (.add (customSpec "MNCS-A-000000000000")) =
      storedRegistry (storedRecords.take 1) (storedObservations.take 1) [] := by
    decide +kernel
  rw [declaredPair, hfirst]
  decide +kernel

/-- Each stored document passes its own checks. -/
theorem stored_checks :
    checkRecords [] storedRecords = .ok [] ∧
      concatChecks (storedObservations.map fun entry =>
        checkObservation storedRecords entry.1 entry.2) = .ok [] ∧
      validateEvent storedRecords storedObservations relationEvent.1 relationEvent.2 = .ok [] ∧
      validateEvent storedRecords storedObservations closingEvent.1 closingEvent.2 = .ok [] := by
  refine ⟨?_, ?_, ?_, ?_⟩
  · simp only [checkRecords, storedRecords, recordHead, commonChecks, hashDocument_eq_quick]
    decide +kernel
  · simp only [checkObservation, checkObservationId, observationId, shortHash_eq_quick,
      commonChecks, hashDocument_eq_quick]
    decide +kernel
  · simp only [validateEvent, checkEventId, eventId, shortHash_eq_quick, commonChecks,
      hashDocument_eq_quick]
    decide +kernel
  · simp only [validateEvent, checkEventId, eventId, shortHash_eq_quick, commonChecks,
      hashDocument_eq_quick]
    decide +kernel

/-- The stored pair is valid with valid events that the projections accept. -/
theorem validate_stored {events : List (String × Fields)}
    (hdocuments : documents (storedRegistry storedRecords storedObservations events) =
      .ok ⟨storedRecords, storedObservations, events⟩)
    (hevents : concatChecks (events.map fun entry =>
      validateEvent storedRecords storedObservations entry.1 entry.2) = .ok [])
    (hprojected : (projections utcHost ⟨storedRecords, storedObservations, events⟩).map
      (fun projected => duplicateCycles (events.map Prod.snd) ++
        (projected.map PressureProjection.diagnostics).flatten) = .ok []) :
    validate utcHost (storedRegistry storedRecords storedObservations events) = .ok [] := by
  have hmanifest : isPackagedManifest utcHost (packagedManifest utcHost) = true := by
    decide +kernel
  have hvalidate : validate utcHost (storedRegistry storedRecords storedObservations events) =
      validateDocuments utcHost (packagedManifest utcHost)
        ⟨storedRecords, storedObservations, events⟩ := by
    rw [validate, hdocuments]
    rfl
  rw [hvalidate, validateDocuments, stored_checks.1, stored_checks.2.1, hevents, hmanifest]
  cases hprojections : projections utcHost ⟨storedRecords, storedObservations, events⟩ with
  | error error =>
      rw [hprojections] at hprojected
      cases hprojected
  | ok projected =>
      rw [hprojections] at hprojected
      exact hprojected

theorem relatedPair_eq :
    relatedPair = storedRegistry storedRecords storedObservations [relationEvent] := by
  have hcheck : (documents (storedRegistry storedRecords storedObservations []) >>=
      checkRelateCall "2026-01-01T00:00:00Z" duplicateRelation) =
        .ok (relationValue "2026-01-01T00:00:00Z" duplicateRelation "mncs") := by
    decide +kernel
  have hevent : ((storedRegistry storedRecords storedObservations []).framed utcHost).withEventOf
      (relationValue "2026-01-01T00:00:00Z" duplicateRelation "mncs") =
        storedRegistry storedRecords storedObservations [relationEvent] := by
    decide +kernel
  have hchecks : concatChecks ([relationEvent].map fun entry =>
      validateEvent storedRecords storedObservations entry.1 entry.2) = .ok [] := by
    rw [List.map_singleton, stored_checks.2.2.1]
    rfl
  have hvalid := validate_stored (by decide +kernel) hchecks (by decide +kernel)
  rw [← hevent] at hvalid
  rw [relatedPair, declaredPair_eq, calledAt, RegistryCall.run, forget_final, relate,
    checkedWrite_final hcheck hvalid, hevent]

/-- The transition that closes the second pressure, before it has an id. -/
def closingValue : Fields :=
  [("schema", .str eventSchema), ("version", .str pressureVersion),
    ("kind", .str "PressureTransition"), ("id", .str ""),
    ("pressureId", .str "MNCS-B-000000000000"), ("previousEvent", .null),
    ("from", .str "discovered"), ("to", .str "duplicate"),
    ("occurredAt", .str "2026-01-01T00:00:00Z"), ("actor", .str "mncs"), ("reason", .str ""),
    ("evidenceRefs", .arr []), ("implementation", .obj []), ("details", .obj [])]

theorem misdirectedPair_eq : misdirectedPair =
    storedRegistry storedRecords storedObservations [relationEvent, closingEvent] := by
  have hcheck : (documents (storedRegistry storedRecords storedObservations [relationEvent]) >>=
      checkTransitionCall utcHost "2026-01-01T00:00:00Z" closeSecond) = .ok closingValue := by
    decide +kernel
  have hevent : ((storedRegistry storedRecords storedObservations [relationEvent]).framed
      utcHost).withEventOf closingValue =
        storedRegistry storedRecords storedObservations [relationEvent, closingEvent] := by
    decide +kernel
  have hchecks : concatChecks ([relationEvent, closingEvent].map fun entry =>
      validateEvent storedRecords storedObservations entry.1 entry.2) = .ok [] := by
    rw [List.map_cons, List.map_singleton, stored_checks.2.2.1, stored_checks.2.2.2]
    rfl
  have hvalid := validate_stored (by decide +kernel) hchecks (by decide +kernel)
  rw [← hevent] at hvalid
  rw [misdirectedPair, relatedPair_eq, calledAt, RegistryCall.run, forget_final, transition,
    checkedWrite_final hcheck hvalid, hevent]

theorem RegistryReachable.calledAt {permitted : Registry → String → RegistryCall → Prop}
    {registry : Registry} {call : RegistryCall}
    (h : RegistryReachable utcHost permitted registry)
    (hpermitted : permitted registry "2026-01-01T00:00:00Z" call) :
    RegistryReachable utcHost permitted (calledAt registry call) :=
  .call h hpermitted

/-- The id, the validity and the status of each pressure. -/
def closings (host : Host) (registry : Registry) : Py (List (String × Bool × String)) := do
  let documents ← documents registry
  collect
    (fun entry => do
      let projection ← projectOne host.zone entry.1 entry.2 (documents.observations.map Prod.snd)
        (documents.events.map Prod.snd) (Fields.keys documents.records)
      return (entry.1, projection.valid, projection.status))
    documents.records

/-- A valid pressure among them is closed at the right end where all are. -/
theorem ClosedAtRightEnd.closedBy {host : Host} {registry : Registry}
    {rows : List (String × Bool × String)} {recordId status : String}
    (h : ClosedAtRightEnd host registry) (hrows : closings host registry = .ok rows)
    (hmem : (recordId, true, status) ∈ rows) : ClosedBy registry status recordId := by
  obtain ⟨documents, hdocuments, hcollect⟩ := Py.bind_eq_ok_iff.mp hrows
  obtain ⟨entry, hentry, hrow⟩ := (mem_collect hcollect).mp hmem
  obtain ⟨projection, hproject, hshown⟩ := Py.bind_eq_ok_iff.mp hrow
  obtain ⟨hid, hrest⟩ := Prod.mk.inj (Except.ok.inj hshown)
  obtain ⟨hvalid, hstatus⟩ := Prod.mk.inj hrest
  have hclosed := h documents hdocuments entry hentry projection hproject hvalid
  rwa [hstatus, hid] at hclosed

/-- The sources of the stored `duplicate_of` relations. -/
def duplicateEnds (registry : Registry) : List Json :=
  ((registry.events.filterMap Prod.snd).filter fun document =>
    Fields.get document "relation" = .str "duplicate_of").map fun document =>
      Fields.get document "sourcePressure"

/-- A pressure closed as a duplicate at the right end is one of them. -/
theorem ClosedBy.mem_duplicateEnds {registry : Registry} {recordId : String}
    (h : ClosedBy registry "duplicate" recordId) : Json.str recordId ∈ duplicateEnds registry := by
  obtain ⟨entry, hentry, document, other, hdocument, -, hrelates⟩ := h.1 rfl
  rw [duplicateEnds, List.mem_map]
  refine ⟨document, List.mem_filter.mpr ⟨?_, by simp [hrelates.relation]⟩, hrelates.source⟩
  exact List.mem_filterMap.mpr ⟨entry, hentry, hdocument⟩

end MncsCommons.Pressure
