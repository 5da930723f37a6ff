/-
# The host's replay and the kernel's fold

The host encodes the transitions of a projection as one kernel row.  The row
merges a missing previous event and an empty one, so the fold reads both as the
root, while the host's replay takes only the missing one for it.  Both are
readings of one collection of documents as a linked history: with the same keys
and steps, and with predecessors that differ only at the empty string.
-/

import MncsCommons.Pressure.Replay

namespace MncsCommons.Pressure

open MncsCommons.Data MncsCommons.Protocol LinkedHistory

/-! ## Encoding a row -/

/-- The UTF-8 bytes of an identity. -/
def identityBytes (text : String) : List UInt8 := text.toByteArray.data.toList

/-- `_bounded_identity_bytes`, as far as the kernel's bound admits it. -/
def boundedIdentity (text : String) : Option Identity :=
  if h : (identityBytes text).length ≤ 256 then some ⟨identityBytes text, h⟩ else none

/-- The variant of a status text; the kernel refuses a text that names none. -/
def statusVariant (value : Json) : Option PressureStatus :=
  PressureStatus.ofVariant? (Str.upper value.pyStr)

/-- `str(event.get("previousEvent") or "")`. -/
def previousText (event : Fields) : String :=
  if (Fields.get event "previousEvent").truthy then (Fields.get event "previousEvent").pyStr else ""

/-- One transition of the row. -/
def transitionInput (event : Fields) : Option PressureTransitionInput := do
  let eventIdentity ← boundedIdentity (documentId event)
  let previousEventIdentity ← boundedIdentity (previousText event)
  let fromStatus ← statusVariant (member event "from" (.str "discovered"))
  let toStatus ← statusVariant (member event "to" (.str "discovered"))
  return ⟨eventIdentity, previousEventIdentity, fromStatus, toStatus⟩

/-- The transitions of the row, when each has one. -/
def transitionInputs : List Fields → Option (List PressureTransitionInput)
  | [] => some []
  | event :: events => do
      let input ← transitionInput event
      let inputs ← transitionInputs events
      return input :: inputs

/-- `_projection_row`, the members that the lifecycle reads. -/
def projectionRow (projection : PressureProjection) : Option PressureQueryRow := do
  let initialStatus ← statusVariant (member projection.data "initialStatus" (.str "discovered"))
  let transitions ← transitionInputs projection.transitionMaterial
  if h : transitions.length ≤ 256 then some ⟨initialStatus, transitions, h⟩ else none

/-- The status of the kernel's fold over the row, when there is one and it is
not conflicted. -/
def nativeStatus (projection : PressureProjection) : Option PressureStatus := do
  let row ← projectionRow projection
  if (pressureLifecycleProjection row).conflicted then none
  else some (pressureLifecycleStatus row)

/-- The host's replay reports nothing about the history. -/
def HostAccepts (projection : PressureProjection) : Prop :=
  ∀ diagnostic ∈ projection.diagnostics, diagnostic.code ∉ historyCodes

/-- The host accepts exactly when the fold does, and then in one status. -/
def Agrees (projection : PressureProjection) : Prop :=
  (HostAccepts projection ↔ (nativeStatus projection).isSome = true) ∧
    ∀ status, HostAccepts projection → nativeStatus projection = some status →
      projection.status = status.value

/-! ## The documents -/

/-- A transition with an identity that fits, known statuses and a previous event
that is missing or a string. -/
structure IsTransition (event : Fields) : Prop where
  id_ne : documentId event ≠ ""
  id_fits : (identityBytes (documentId event)).length ≤ 256
  from_known : ∃ status : PressureStatus, Fields.get? event "from" = some (.str status.value)
  to_known : ∃ status : PressureStatus, Fields.get? event "to" = some (.str status.value)
  previous : Fields.get event "previousEvent" = .null ∨
    ∃ text, Fields.get event "previousEvent" = .str text

/-- The known status of a member. -/
def documentStatus (event : Fields) (key : String) : Option PressureStatus :=
  (Fields.get event key).str?.bind PressureStatus.ofString?

/-- The status after a transition that starts in the status and is allowed. -/
def documentStep (status : PressureStatus) (event : Fields) : Option PressureStatus :=
  match documentStatus event "to" with
  | none => none
  | some target =>
      if documentStatus event "from" = some status ∧ transitionAllowedState status target = true then
        some target
      else none

/-- The initial status text of the record. -/
def initialText (record : Fields) : String := (member record "initialStatus" (.str "discovered")).pyStr

/-- The initial status is one of the protocol's. -/
def KnownInitial (record : Fields) : Prop :=
  ∃ status : PressureStatus, initialText record = status.value

/-- The previous event, where an empty one counts as missing. -/
def mergedPrevious (event : Fields) : String := (previousEvent event).getD ""

/-- The documents, an empty previous event read as missing, are one allowed
history from the status whose name the record's initial status is in upper case. -/
def SingleChain (record : Fields) (transitions : List Fields) : Prop :=
  ∃ initial final, PressureStatus.ofVariant? (Str.upper (initialText record)) = some initial ∧
    Accepted documentId mergedPrevious documentStep "" initial transitions final

theorem ofVariant?_upper_value (status : PressureStatus) :
    PressureStatus.ofVariant? (Str.upper status.value) = some status := by
  cases status <;> decide

theorem statusVariant_value (status : PressureStatus) :
    statusVariant (.str status.value) = some status := by
  rw [statusVariant, Json.pyStr_str, ofVariant?_upper_value]

section Document

variable {event : Fields}

theorem IsTransition.previousText_eq (h : IsTransition event) :
    previousText event = mergedPrevious event := by
  unfold previousText mergedPrevious previousEvent
  rcases h.previous with hnull | ⟨text, htext⟩
  · rw [hnull]
    rfl
  · rw [htext, Json.pyStr_str]
    by_cases hempty : text = ""
    · simp [hempty, Json.truthy, Json.str?]
    · simp [hempty, Json.truthy, Json.str?]

theorem documentStatus_of_known {key : String} {status : PressureStatus}
    (h : Fields.get? event key = some (.str status.value)) :
    documentStatus event key = some status := by
  simp [documentStatus, Fields.get, h, Json.str?, PressureStatus.ofString?_value]

/-- The host takes a transition with its requirements met as the law allows. -/
theorem hostStep_eq_documentStep {zone : Int → Py Int} {recordId : String} {record : Fields}
    {observations relations : List Fields} (h : IsTransition event)
    (hrequirement : transitionRequirement zone record observations relations event = .ok none)
    (status : PressureStatus) :
    hostStep zone recordId record observations relations status.value event =
      (documentStep status event).map PressureStatus.value := by
  obtain ⟨source, hsource⟩ := h.from_known
  obtain ⟨target, htarget⟩ := h.to_known
  have hfrom : Fields.get event "from" = .str source.value := by simp [Fields.get, hsource]
  have hto : (member event "to" (.str "")).pyStr = target.value := by simp [member, htarget]
  have hallowed : nativeTransitionAllowed status.value target.value =
      .ok (transitionAllowedState status target) := by
    simp only [nativeTransitionAllowed, ofVariant?_upper_value]
  rw [documentStep, documentStatus_of_known htarget, documentStatus_of_known hsource]
  dsimp only
  by_cases hsame : source = status
  · subst hsame
    cases hlaw : transitionAllowedState source target with
    | false =>
        have hrefused : hostStep zone recordId record observations relations source.value event =
            none := by
          simp [hostStep, checkEvent, hfrom, hto, hallowed, hlaw, bind, Except.bind, pure,
            Except.pure]
        rw [hrefused]
        simp
    | true =>
        have htaken : hostStep zone recordId record observations relations source.value event =
            some target.value := by
          rw [hostStep_eq_some_iff]
          refine ⟨?_, hto⟩
          simp [checkEvent, hfrom, hto, hallowed, hlaw, hrequirement, bind, Except.bind, pure,
            Except.pure]
        rw [htaken]
        simp
  · have hstale : hostStep zone recordId record observations relations status.value event = none := by
      have hne : source.value ≠ status.value := fun heq => hsame (PressureStatus.value_injective heq)
      simp [hostStep, checkEvent, hfrom, hne, pure, Except.pure]
    rw [hstale, if_neg fun hand => hsame (Option.some_inj.mp hand.1)]
    rfl

/-! ### Rows -/

theorem identityBytes_injective {first second : String}
    (h : identityBytes first = identityBytes second) : first = second := by
  rw [← String.toByteArray_inj]
  exact ByteArray.ext (Array.toList_inj.mp h)

theorem identityBytes_eq_nil_iff {text : String} : identityBytes text = [] ↔ text = "" := by
  constructor
  · intro h
    apply identityBytes_injective
    rw [h]
    decide
  · rintro rfl
    decide

theorem boundedIdentity_eq_some_iff {text : String} {identity : Identity} :
    boundedIdentity text = some identity ↔ identity.val = identityBytes text := by
  unfold boundedIdentity
  split
  · rename_i hfits
    rw [Option.some_inj, eq_comm, Subtype.ext_iff]
  · rename_i hfits
    simp only [reduceCtorEq, false_iff]
    intro h
    exact hfits (h ▸ identity.property)

/-- What the row holds of a transition. -/
structure Encodes (event : Fields) (input : PressureTransitionInput) : Prop where
  eventIdentity : input.eventIdentity.val = identityBytes (documentId event)
  previousEventIdentity : input.previousEventIdentity.val = identityBytes (mergedPrevious event)
  fromStatus : documentStatus event "from" = some input.fromStatus
  toStatus : documentStatus event "to" = some input.toStatus

theorem IsTransition.encodes (h : IsTransition event)
    (hfits : (identityBytes (mergedPrevious event)).length ≤ 256) :
    ∃ input, transitionInput event = some input ∧ Encodes event input := by
  obtain ⟨source, hsource⟩ := h.from_known
  obtain ⟨target, htarget⟩ := h.to_known
  refine ⟨⟨⟨identityBytes (documentId event), h.id_fits⟩,
    ⟨identityBytes (mergedPrevious event), hfits⟩, source, target⟩, ?_, rfl, rfl,
    documentStatus_of_known hsource, documentStatus_of_known htarget⟩
  simp [transitionInput, boundedIdentity, h.previousText_eq, h.id_fits, hfits, member, hsource,
    htarget, statusVariant_value]

theorem IsTransition.transitionInput_eq_none (h : IsTransition event)
    (hlong : 256 < (identityBytes (mergedPrevious event)).length) : transitionInput event = none := by
  have hrefused : boundedIdentity (mergedPrevious event) = none := by
    rw [boundedIdentity, dif_neg (Nat.not_le.mpr hlong)]
  simp [transitionInput, h.previousText_eq, hrefused]

/-- The fold takes a transition as the law allows. -/
theorem Encodes.rowStep_eq {input : PressureTransitionInput} (h : Encodes event input)
    (hid : documentId event ≠ "") (status : PressureStatus) :
    rowStep status input = documentStep status event := by
  have hidentity : input.eventIdentity.val ≠ [] := by
    rw [h.eventIdentity, Ne, identityBytes_eq_nil_iff]
    exact hid
  simp [rowStep, documentStep, h.fromStatus, h.toStatus, hidentity]

end Document

/-! ## Rows as histories -/

section Row

variable {transitions : List Fields} {inputs : List PressureTransitionInput}

/-- A reading of the documents as the items of their row. -/
theorem transitionInputs_eq_some_iff :
    transitionInputs transitions = some inputs ↔
      (∀ event ∈ transitions, (transitionInput event).isSome) ∧
        inputs = transitions.map fun event =>
          (transitionInput event).getD emptyPressureTransition := by
  induction transitions generalizing inputs with
  | nil =>
      constructor
      · intro h
        exact ⟨by simp, (Option.some_inj.mp h).symm⟩
      · rintro ⟨-, rfl⟩
        rfl
  | cons event transitions ih =>
      cases hinput : transitionInput event with
      | none => simp [transitionInputs, hinput]
      | some input =>
          cases hrest : transitionInputs transitions with
          | none =>
              have hnot : ¬ ∀ event ∈ transitions, (transitionInput event).isSome := by
                intro hall
                have := ih.mpr ⟨hall, rfl⟩
                rw [hrest] at this
                exact absurd this (by simp)
              simp only [transitionInputs, hinput, hrest, Option.bind_eq_bind, Option.bind_some,
                Option.bind_none, List.forall_mem_cons, reduceCtorEq, false_iff, not_and]
              exact fun hall => absurd hall.2 hnot
          | some rest =>
              obtain ⟨hall, rfl⟩ := ih.mp hrest
              simp only [transitionInputs, hinput, hrest, Option.bind_eq_bind, Option.bind_some,
                Option.pure_def, Option.some_inj, List.forall_mem_cons, Option.isSome_some,
                true_and, List.map_cons, Option.getD_some]
              exact ⟨fun h => ⟨hall, h.symm⟩, fun h => h.2.symm⟩

/-- The fold over a row that encodes the documents accepts what they are as one
chain from the root. -/
theorem fold_iff_accepted {initial : PressureStatus}
    (hdocuments : ∀ event ∈ transitions, IsTransition event)
    (hids : (transitions.map documentId).Nodup)
    (hfits : ∀ event ∈ transitions, (identityBytes (mergedPrevious event)).length ≤ 256)
    (hinputs : transitionInputs transitions = some inputs) (hbound : inputs.length ≤ 256)
    (final : PressureStatus) :
    (pressureLifecycleProjection ⟨initial, inputs, hbound⟩).conflicted = false ∧
        (pressureLifecycleProjection ⟨initial, inputs, hbound⟩).status = final ↔
      Accepted documentId mergedPrevious documentStep "" initial transitions final := by
  obtain ⟨-, rfl⟩ := transitionInputs_eq_some_iff.mp hinputs
  have hencodes : ∀ event ∈ transitions,
      Encodes event ((transitionInput event).getD emptyPressureTransition) := by
    intro event hevent
    obtain ⟨input, hinput, hencodes⟩ := (hdocuments event hevent).encodes (hfits event hevent)
    rw [hinput]
    exact hencodes
  set read := fun event => (transitionInput event).getD emptyPressureTransition with hread
  have hsteps : ∀ event ∈ transitions, ∀ status,
      rowStep status (read event) = documentStep status event := fun event hevent =>
    (hencodes event hevent).rowStep_eq (hdocuments event hevent).id_ne
  have hroot : ∀ event ∈ transitions,
      (read event).previousEventIdentity = Identity.empty ↔ mergedPrevious event = "" := by
    intro event hevent
    rw [← identityBytes_eq_nil_iff, ← (hencodes event hevent).previousEventIdentity, Subtype.ext_iff]
    rfl
  have hlink : ∀ event ∈ transitions, ∀ other ∈ transitions,
      (read event).previousEventIdentity = (read other).eventIdentity ↔
        mergedPrevious event = documentId other := by
    intro event hevent other hother
    rw [Subtype.ext_iff, (hencodes event hevent).previousEventIdentity,
      (hencodes other hother).eventIdentity]
    exact ⟨fun h => identityBytes_injective h, congrArg identityBytes⟩
  have hkeys : ((transitions.map read).map PressureTransitionInput.eventIdentity).Nodup := by
    rw [List.map_map]
    apply List.Nodup.map_on _ (List.Nodup.of_map documentId hids)
    intro event hevent other hother heq
    apply List.inj_on_of_nodup_map hids hevent hother
    apply identityBytes_injective
    rw [← (hencodes event hevent).eventIdentity, ← (hencodes other hother).eventIdentity]
    exact congrArg Subtype.val heq
  have hempty : Identity.empty ∉
      (transitions.map read).map PressureTransitionInput.eventIdentity := by
    simp only [List.mem_map, not_exists, not_and]
    rintro input ⟨event, hevent, rfl⟩ heq
    have hid := (hencodes event hevent).eventIdentity
    rw [heq] at hid
    exact (hdocuments event hevent).id_ne (identityBytes_eq_nil_iff.mp hid.symm)
  rw [pressureLifecycleProjection_iff, ← accepted_iff_walks hkeys hempty, accepted_map]
  constructor
  · intro h
    exact h.relink (fun event hevent => (hroot event hevent).mp)
      (fun event hevent other hother => (hlink event hevent other hother).mp) hsteps
  · intro h
    exact h.relink (fun event hevent => (hroot event hevent).mpr)
      (fun event hevent other hother => (hlink event hevent other hother).mpr)
      fun event hevent status => (hsteps event hevent status).symm

/-- A document that the row has no room for is not part of a chain. -/
theorem transitionInputs_eq_none (hdocuments : ∀ event ∈ transitions, IsTransition event)
    {event : Fields} (hevent : event ∈ transitions)
    (hlong : 256 < (identityBytes (mergedPrevious event)).length) :
    transitionInputs transitions = none := by
  cases h : transitionInputs transitions with
  | none => rfl
  | some inputs =>
      have hsome := (transitionInputs_eq_some_iff.mp h).1 event hevent
      rw [(hdocuments event hevent).transitionInput_eq_none hlong] at hsome
      exact absurd hsome (by simp)

end Row

/-! ## Agreement -/

section Agreement

variable {zone : Int → Py Int} {recordId : String} {record : Fields}
  {observations events : List Fields} {allRecordIds : List String}
  {projection : PressureProjection}

/-- The fold over the row of a projection accepts its documents as one chain. -/
theorem nativeStatus_eq_some_iff
    (hproject : projectOne zone recordId record observations events allRecordIds = .ok projection)
    (hcount : (transitionMaterial recordId events).length ≤ 256)
    (hids : ((transitionMaterial recordId events).map documentId).Nodup)
    (hdocuments : ∀ event ∈ transitionMaterial recordId events, IsTransition event)
    (final : PressureStatus) :
    nativeStatus projection = some final ↔
      ∃ initial, PressureStatus.ofVariant? (Str.upper (initialText record)) = some initial ∧
        Accepted documentId mergedPrevious documentStep "" initial
          (transitionMaterial recordId events) final := by
  obtain ⟨reached, hprojected⟩ := projected_of_projectOne hproject
  have hinitial : member projection.data "initialStatus" (.str "discovered") =
      member record "initialStatus" (.str "discovered") := by
    rw [member, hprojected.initialStatus_eq, member]
  by_cases hfits : ∀ event ∈ transitionMaterial recordId events,
      (identityBytes (mergedPrevious event)).length ≤ 256
  · have hall : ∀ event ∈ transitionMaterial recordId events,
        (transitionInput event).isSome = true := by
      intro event hevent
      obtain ⟨input, hinput, -⟩ := (hdocuments event hevent).encodes (hfits event hevent)
      rw [hinput]
      rfl
    have hinputs := transitionInputs_eq_some_iff.mpr ⟨hall, rfl⟩
    have hbound : ((transitionMaterial recordId events).map fun event =>
        (transitionInput event).getD emptyPressureTransition).length ≤ 256 := by
      rw [List.length_map]
      exact hcount
    rw [initialText, nativeStatus, projectionRow, hinitial, hprojected.transitionMaterial_eq,
      hinputs, statusVariant]
    cases PressureStatus.ofVariant? (Str.upper (member record "initialStatus"
        (.str "discovered")).pyStr) with
    | none => simp
    | some initial =>
        have hfold := @fold_iff_accepted _ _ initial hdocuments hids hfits hinputs hbound final
        simp only [Option.bind_eq_bind, Option.bind_some, dif_pos hbound, Option.some_inj,
          exists_eq_left', ← hfold, pressureLifecycleStatus]
        cases (pressureLifecycleProjection ⟨initial, _, hbound⟩).conflicted with
        | true => simp
        | false => simp
  · push Not at hfits
    obtain ⟨event, hevent, hlong⟩ := hfits
    have hnone : nativeStatus projection = none := by
      rw [nativeStatus, projectionRow, hprojected.transitionMaterial_eq,
        transitionInputs_eq_none hdocuments hevent hlong]
      cases statusVariant (member projection.data "initialStatus" (.str "discovered")) <;> rfl
    rw [hnone]
    simp only [reduceCtorEq, false_iff, not_exists, not_and]
    intro initial _ haccepted
    rcases haccepted.prev_mem hevent with hroot | hkey
    · rw [hroot] at hlong
      exact absurd hlong (by decide)
    · obtain ⟨other, hother, heq⟩ := List.mem_map.mp hkey
      rw [← heq] at hlong
      exact absurd (hdocuments other hother).id_fits (Nat.not_le.mpr hlong)

theorem nativeStatus_isSome_iff
    (hproject : projectOne zone recordId record observations events allRecordIds = .ok projection)
    (hcount : (transitionMaterial recordId events).length ≤ 256)
    (hids : ((transitionMaterial recordId events).map documentId).Nodup)
    (hdocuments : ∀ event ∈ transitionMaterial recordId events, IsTransition event) :
    (nativeStatus projection).isSome = true ↔
      SingleChain record (transitionMaterial recordId events) := by
  rw [Option.isSome_iff_exists, SingleChain, exists_comm]
  exact exists_congr fun final => nativeStatus_eq_some_iff hproject hcount hids hdocuments final

/-- The host accepts the documents, an empty previous event naming no event, as
one chain. -/
theorem hostAccepts_iff {initial : PressureStatus}
    (hproject : projectOne zone recordId record observations events allRecordIds = .ok projection)
    (hrecord : recordId ∈ allRecordIds)
    (hids : ((transitionMaterial recordId events).map documentId).Nodup)
    (hdocuments : ∀ event ∈ transitionMaterial recordId events, IsTransition event)
    (hrequirements : ∀ event ∈ transitionMaterial recordId events,
      transitionRequirement zone record (relevantObservations recordId observations)
        (relationsOf recordId events) event = .ok none)
    (hinitial : initialText record = initial.value) (final : String) :
    HostAccepts projection ∧ projection.status = final ↔
      ∃ status : PressureStatus, final = status.value ∧
        Accepted hostKey previousEvent documentStep none initial
          (transitionMaterial recordId events) status := by
  have hvalid := projectOne_valid_iff_codes hproject hrecord
  rw [HostAccepts, ← hvalid, projectOne_valid_iff hproject hrecord hids]
  have htext : (member record "initialStatus" (.str "discovered")).pyStr = initial.value := hinitial
  rw [htext]
  apply accepted_view
  intro event hevent status
  exact hostStep_eq_documentStep (hdocuments event hevent) (hrequirements event hevent) status

/-- Without an empty previous event the two readings link alike. -/
theorem accepted_host_iff_merged {transitions : List Fields} {initial final : PressureStatus}
    (hdocuments : ∀ event ∈ transitions, IsTransition event)
    (hnonempty : ∀ event ∈ transitions, Fields.get event "previousEvent" ≠ .str "") :
    Accepted hostKey previousEvent documentStep none initial transitions final ↔
      Accepted documentId mergedPrevious documentStep "" initial transitions final := by
  have hsome : ∀ event ∈ transitions, ∀ text, mergedPrevious event = text → text ≠ "" →
      previousEvent event = some text := by
    intro event hevent text hmerged hne
    cases hprevious : previousEvent event with
    | none =>
        rw [mergedPrevious, hprevious] at hmerged
        exact absurd hmerged.symm hne
    | some previous =>
        rw [mergedPrevious, hprevious] at hmerged
        exact congrArg some hmerged
  constructor
  · intro h
    apply h.relink
    · intro event hevent hroot
      rw [mergedPrevious, hroot, Option.getD_none]
    · intro event hevent other hother hlink
      rw [mergedPrevious, hlink, hostKey, Option.getD_some]
    · exact fun _ _ _ => rfl
  · intro h
    apply h.relink
    · intro event hevent hroot
      cases hprevious : previousEvent event with
      | none => rfl
      | some previous =>
          rw [mergedPrevious, hprevious, Option.getD_some] at hroot
          rw [previousEvent, Json.str?_eq_some_iff, hroot] at hprevious
          exact absurd hprevious (hnonempty event hevent)
    · intro event hevent other hother hlink
      exact hsome event hevent (documentId other) hlink (hdocuments other hother).id_ne
    · exact fun _ _ _ => rfl

/-- An empty previous event names no event. -/
theorem not_accepted_of_empty_previous {transitions : List Fields}
    {initial final : PressureStatus} (hdocuments : ∀ event ∈ transitions, IsTransition event)
    {event : Fields} (hevent : event ∈ transitions)
    (hempty : Fields.get event "previousEvent" = .str "") :
    ¬ Accepted hostKey previousEvent documentStep none initial transitions final := by
  intro h
  have hprevious : previousEvent event = some "" := by
    rw [previousEvent, hempty]
    rfl
  rcases h.prev_mem hevent with hroot | hkey
  · rw [hprevious] at hroot
    exact absurd hroot (by simp)
  · rw [hprevious] at hkey
    obtain ⟨other, hother, heq⟩ := List.mem_map.mp hkey
    exact (hdocuments other hother).id_ne (Option.some_inj.mp heq)

/-- A history does not start in a text that is no status. -/
theorem not_hostAccepts_of_unknown
    (hproject : projectOne zone recordId record observations events allRecordIds = .ok projection)
    (hrecord : recordId ∈ allRecordIds)
    (hids : ((transitionMaterial recordId events).map documentId).Nodup)
    (hdocuments : ∀ event ∈ transitionMaterial recordId events, IsTransition event)
    (hunknown : ¬ KnownInitial record) (hsome : transitionMaterial recordId events ≠ []) :
    ¬ HostAccepts projection := by
  intro h
  rw [HostAccepts, ← projectOne_valid_iff_codes hproject hrecord] at h
  obtain ⟨final, hfinal⟩ : ∃ final, projection.status = final := ⟨_, rfl⟩
  obtain ⟨order, last, hperm, hlinked⟩ :=
    (projectOne_valid_iff hproject hrecord hids final).mp ⟨h, hfinal⟩
  generalize htext : (member record "initialStatus" (.str "discovered")).pyStr = text at hlinked
  cases hlinked with
  | nil => exact hsome hperm.nil_eq.symm
  | @cons _ _ _ next _ event rest hprev hstep hrest =>
      obtain ⟨hfrom, -, -⟩ := checkEvent_eq_none_iff.mp (hostStep_eq_some_iff.mp hstep).1
      have hevent : event ∈ transitionMaterial recordId events :=
        hperm.mem_iff.mp List.mem_cons_self
      obtain ⟨status, hstatus⟩ := (hdocuments event hevent).from_known
      rw [Fields.get, hstatus, Option.getD_some, Json.str.injEq] at hfrom
      exact hunknown ⟨status, htext.trans hfrom.symm⟩

/-- With a known initial status and no empty previous event the two agree. -/
theorem agrees_of_no_empty_previous {initial : PressureStatus}
    (hproject : projectOne zone recordId record observations events allRecordIds = .ok projection)
    (hrecord : recordId ∈ allRecordIds)
    (hcount : (transitionMaterial recordId events).length ≤ 256)
    (hids : ((transitionMaterial recordId events).map documentId).Nodup)
    (hdocuments : ∀ event ∈ transitionMaterial recordId events, IsTransition event)
    (hrequirements : ∀ event ∈ transitionMaterial recordId events,
      transitionRequirement zone record (relevantObservations recordId observations)
        (relationsOf recordId events) event = .ok none)
    (hinitial : initialText record = initial.value)
    (hnonempty : ∀ event ∈ transitionMaterial recordId events,
      Fields.get event "previousEvent" ≠ .str "") : Agrees projection := by
  have hhost : ∀ final : String, HostAccepts projection ∧ projection.status = final ↔
      ∃ status : PressureStatus, final = status.value ∧ nativeStatus projection = some status := by
    intro final
    rw [hostAccepts_iff hproject hrecord hids hdocuments hrequirements hinitial]
    apply exists_congr
    intro status
    rw [nativeStatus_eq_some_iff hproject hcount hids hdocuments,
      accepted_host_iff_merged hdocuments hnonempty, hinitial, ofVariant?_upper_value]
    simp
  constructor
  · rw [Option.isSome_iff_exists]
    constructor
    · intro h
      obtain ⟨status, -, hstatus⟩ := (hhost projection.status).mp ⟨h, rfl⟩
      exact ⟨status, hstatus⟩
    · rintro ⟨status, hstatus⟩
      exact ((hhost status.value).mpr ⟨status, rfl, hstatus⟩).1
  · intro status _ hstatus
    exact ((hhost status.value).mpr ⟨status, rfl, hstatus⟩).2

/-- Where the host rejects the documents, agreement is that the fold does. -/
theorem agrees_iff_of_rejected (h : ¬ HostAccepts projection) :
    Agrees projection ↔ ¬ (nativeStatus projection).isSome = true := by
  constructor
  · exact fun hagrees hnative => h (hagrees.1.mpr hnative)
  · exact fun hnative => ⟨⟨fun hh => absurd hh h, fun hh => absurd hh hnative⟩,
      fun _ hh => absurd hh h⟩

/-- Without transitions the host keeps a text that is no status, which the fold
does not. -/
theorem not_agrees_of_no_transitions
    (hproject : projectOne zone recordId record observations events allRecordIds = .ok projection)
    (hrecord : recordId ∈ allRecordIds) (hunknown : ¬ KnownInitial record)
    (hnone : transitionMaterial recordId events = []) : ¬ Agrees projection := by
  have hids : ((transitionMaterial recordId events).map documentId).Nodup := by
    rw [hnone]
    exact List.nodup_nil
  have haccepted : Accepted hostKey previousEvent
      (hostStep zone recordId record (relevantObservations recordId observations)
        (relationsOf recordId events))
      none (member record "initialStatus" (.str "discovered")).pyStr
      (transitionMaterial recordId events) (initialText record) := by
    rw [hnone]
    exact ⟨[], none, List.Perm.nil, .nil none _⟩
  obtain ⟨hvalid, hstatus⟩ := (projectOne_valid_iff hproject hrecord hids _).mpr haccepted
  have hhost : HostAccepts projection := (projectOne_valid_iff_codes hproject hrecord).mp hvalid
  rintro ⟨hiff, hsame⟩
  obtain ⟨status, hnative⟩ := Option.isSome_iff_exists.mp (hiff.mp hhost)
  exact hunknown ⟨status, hstatus.symm.trans (hsame status hhost hnative)⟩

/-- The host's replay and the kernel's fold agree on a record with a known
initial status whose transitions name no empty previous event; otherwise only on
transitions that are no chain, and at least one of them where the initial status
is unknown. -/
theorem host_native_agree_iff
    (hproject : projectOne zone recordId record observations events allRecordIds = .ok projection)
    (hrecord : recordId ∈ allRecordIds)
    (hcount : (transitionMaterial recordId events).length ≤ 256)
    (hids : ((transitionMaterial recordId events).map documentId).Nodup)
    (hdocuments : ∀ event ∈ transitionMaterial recordId events, IsTransition event)
    (hrequirements : ∀ event ∈ transitionMaterial recordId events,
      transitionRequirement zone record (relevantObservations recordId observations)
        (relationsOf recordId events) event = .ok none) :
    Agrees projection ↔
      (KnownInitial record ∧ ∀ event ∈ transitionMaterial recordId events,
        Fields.get event "previousEvent" ≠ .str "") ∨
      (¬ SingleChain record (transitionMaterial recordId events) ∧
        (KnownInitial record ∨ transitionMaterial recordId events ≠ [])) := by
  have hnative := nativeStatus_isSome_iff hproject hcount hids hdocuments
  by_cases hknown : KnownInitial record
  · obtain ⟨initial, hinitial⟩ := hknown
    have hknown : KnownInitial record := ⟨initial, hinitial⟩
    by_cases hempty : ∀ event ∈ transitionMaterial recordId events,
        Fields.get event "previousEvent" ≠ .str ""
    · have hagrees := agrees_of_no_empty_previous hproject hrecord hcount hids hdocuments
        hrequirements hinitial hempty
      exact iff_of_true hagrees (.inl ⟨hknown, hempty⟩)
    · have hrejected : ¬ HostAccepts projection := by
        push Not at hempty
        obtain ⟨event, hevent, hprevious⟩ := hempty
        intro hhost
        obtain ⟨status, -, haccepted⟩ := (hostAccepts_iff hproject hrecord hids hdocuments
          hrequirements hinitial projection.status).mp ⟨hhost, rfl⟩
        exact not_accepted_of_empty_previous hdocuments hevent hprevious haccepted
      rw [agrees_iff_of_rejected hrejected, hnative]
      constructor
      · exact fun h => .inr ⟨h, .inl hknown⟩
      · rintro (⟨-, h⟩ | ⟨h, -⟩)
        · exact absurd h hempty
        · exact h
  · by_cases hsome : transitionMaterial recordId events = []
    · have hdiffer := not_agrees_of_no_transitions hproject hrecord hknown hsome
      apply iff_of_false hdiffer
      rintro (⟨h, -⟩ | ⟨-, h | h⟩)
      · exact hknown h
      · exact hknown h
      · exact h hsome
    · have hrejected := not_hostAccepts_of_unknown hproject hrecord hids hdocuments hknown hsome
      rw [agrees_iff_of_rejected hrejected, hnative]
      constructor
      · exact fun h => .inr ⟨h, .inr hsome⟩
      · rintro (⟨h, -⟩ | ⟨h, -⟩)
        · exact absurd h hknown
        · exact h

end Agreement

/-! ## An empty previous event -/

/-- A declaration of one repository. -/
def deferredRecord : Fields :=
  [("id", .str "MNCS-LANG-0123456789AB"), ("initialStatus", .str "discovered"),
    ("discoveredBy", .str "mncs-commons"), ("affectedRepositories", .arr [.str "mncs-commons"])]

/-- Its deferral, after the given event. -/
def deferral (previous : Json) : Fields :=
  [("kind", .str "PressureTransition"), ("id", .str "EVT-0123456789ABCDEF"),
    ("pressureId", .str "MNCS-LANG-0123456789AB"), ("previousEvent", previous),
    ("from", .str "discovered"), ("to", .str "deferred"),
    ("occurredAt", .str "2026-01-02T03:04:05Z"), ("reason", .str "later"),
    ("evidenceRefs", .arr [])]

/-- The projection of the declaration with its deferral, where local time is UTC. -/
def deferredProjection (previous : Json) : Py PressureProjection :=
  projectOne .ok "MNCS-LANG-0123456789AB" deferredRecord [] [deferral previous]
    ["MNCS-LANG-0123456789AB"]

theorem isTransition_deferral {previous : Json}
    (h : previous = .null ∨ ∃ text, previous = .str text) : IsTransition (deferral previous) where
  id_ne := by
    have hid : documentId (deferral previous) = "EVT-0123456789ABCDEF" := rfl
    rw [hid]
    decide
  id_fits := by
    have hid : documentId (deferral previous) = "EVT-0123456789ABCDEF" := rfl
    rw [hid]
    decide +kernel
  from_known := ⟨.discovered, rfl⟩
  to_known := ⟨.deferred, rfl⟩
  previous := h

theorem transitionMaterial_deferral (previous : Json) :
    transitionMaterial "MNCS-LANG-0123456789AB" [deferral previous] = [deferral previous] := rfl

/-- After an event named by null the two agree. -/
theorem deferral_agrees :
    ∃ projection, deferredProjection .null = .ok projection ∧ Agrees projection := by
  have hreturns : (deferredProjection .null).isOk = true := by decide +kernel
  cases hproject : deferredProjection .null with
  | error error =>
      rw [hproject] at hreturns
      exact absurd hreturns (by simp [Except.isOk, Except.toBool])
  | ok projection =>
      refine ⟨projection, rfl, (host_native_agree_iff hproject (by decide) (by decide) (by decide)
        ?_ ?_).mpr (.inl ⟨⟨.discovered, rfl⟩, ?_⟩)⟩
      all_goals
        rw [transitionMaterial_deferral]
        intro event hevent
        obtain rfl := List.mem_singleton.mp hevent
      · exact isTransition_deferral (.inl rfl)
      · decide +kernel
      · decide

/-- An empty previous event is the root for the fold only, which defers a
pressure that the host reports a dangling transition of. -/
theorem empty_previous_disagrees :
    ∃ projection, deferredProjection (.str "") = .ok projection ∧
      IsTransition (deferral (.str "")) ∧
      transitionRequirement .ok deferredRecord [] [] (deferral (.str "")) = .ok none ∧
      projection.diagnostics.map Diagnostic.code = ["DANGLING_TRANSITION"] ∧
      nativeStatus projection = some .deferred ∧ ¬ Agrees projection := by
  have hrun : (deferredProjection (.str "")).map
      (fun projection => (projection.diagnostics.map Diagnostic.code, nativeStatus projection)) =
      .ok (["DANGLING_TRANSITION"], some .deferred) := by decide +kernel
  cases hproject : deferredProjection (.str "") with
  | error error =>
      rw [hproject] at hrun
      exact absurd hrun (by simp [Except.map])
  | ok projection =>
      rw [hproject] at hrun
      obtain ⟨hcodes, hnative⟩ := Prod.mk.inj (Except.ok.inj hrun)
      refine ⟨projection, rfl, isTransition_deferral (.inr ⟨"", rfl⟩),
        by decide +kernel, hcodes, hnative, ?_⟩
      intro hagrees
      have hhost : HostAccepts projection := hagrees.1.mpr (by rw [hnative]; rfl)
      have hmem : "DANGLING_TRANSITION" ∈ projection.diagnostics.map Diagnostic.code := by
        rw [hcodes]
        exact List.mem_singleton_self _
      obtain ⟨diagnostic, hdiagnostic, hcode⟩ := List.mem_map.mp hmem
      apply hhost diagnostic hdiagnostic
      rw [hcode]
      decide

end MncsCommons.Pressure
