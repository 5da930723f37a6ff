/-
# What a replay finds

The replay loop follows the links of the transitions with `hostStep`, so it ends
without a diagnostic where a walk does (`walks_of_replay`, `replay_of_walks`).
A projection is valid when that walk meets every transition (`walks_of_projectOne`),
and with distinct ids exactly when the transitions are one accepted history
(`projectOne_valid_iff`).
-/

import MncsCommons.Pressure.Projection

namespace MncsCommons.Pressure

open MncsCommons.Data MncsCommons.Protocol LinkedHistory

section Replay

variable (zone : Int → Py Int) (recordId : String) (record : Fields)
  (observations relations : List Fields)

/-- The state after a transition that passes every check of the replay. -/
def hostStep (state : String) (event : Fields) : Option String :=
  match checkEvent zone recordId record observations relations state event with
  | .ok none => some (member event "to" (.str "")).pyStr
  | _ => none

/-- The key of a transition: an identity, which is never the root. -/
def hostKey (event : Fields) : Option String := some (documentId event)

variable {zone recordId record observations relations} {transitions order : List Fields}
  {previous last : Option String} {state final next : String} {event : Fields}

theorem hostStep_eq_some_iff :
    hostStep zone recordId record observations relations state event = some next ↔
      checkEvent zone recordId record observations relations state event = .ok none ∧
        (member event "to" (.str "")).pyStr = next := by
  unfold hostStep
  split
  · rename_i hcheck
    simp [hcheck]
  · rename_i hcheck
    simp only [reduceCtorEq, false_iff, not_and]
    exact fun h => absurd h hcheck

/-- A transition passes when it starts in the state, the law allows it and its
requirements are met. -/
theorem checkEvent_eq_none_iff :
    checkEvent zone recordId record observations relations state event = .ok none ↔
      Fields.get event "from" = .str state ∧
        nativeTransitionAllowed state (member event "to" (.str "")).pyStr = .ok true ∧
        transitionRequirement zone record observations relations event = .ok none := by
  unfold checkEvent
  dsimp only
  constructor
  · intro h
    split at h
    · exact absurd (Except.ok.inj h) (by simp)
    · rename_i hfrom
      obtain ⟨allowed, hallowed, h⟩ := Py.bind_eq_ok_iff.mp h
      cases allowed with
      | false => exact absurd (Except.ok.inj h) (by simp)
      | true =>
          obtain ⟨requirement, hrequirement, h⟩ := Py.bind_eq_ok_iff.mp h
          cases requirement with
          | none => exact ⟨not_not.mp hfrom, hallowed, hrequirement⟩
          | some requirement => exact absurd (Except.ok.inj h) (by simp)
  · rintro ⟨hfrom, hallowed, hrequirement⟩
    rw [if_neg (not_not.mpr hfrom), hallowed, hrequirement]
    rfl

theorem checkEvent_code {diagnostic : Diagnostic}
    (h : checkEvent zone recordId record observations relations state event =
      .ok (some diagnostic)) : diagnostic.code ∈ historyCodes := by
  unfold checkEvent at h
  dsimp only at h
  split at h
  · obtain rfl := Option.some_inj.mp (Except.ok.inj h)
    simp [historyCodes]
  · obtain ⟨allowed, -, h⟩ := Py.bind_eq_ok_iff.mp h
    split at h
    · obtain rfl := Option.some_inj.mp (Except.ok.inj h)
      simp [historyCodes]
    · obtain ⟨requirement, -, h⟩ := Py.bind_eq_ok_iff.mp h
      cases requirement with
      | none => exact absurd (Except.ok.inj h) (by simp)
      | some requirement =>
          obtain rfl := Option.some_inj.mp (Except.ok.inj h)
          simp [historyCodes]

/-! ### One turn of the loop -/

theorem replay_stop {reached : Replay} (h : candidatesAfter transitions previous = [])
    (fuel : Nat) :
    replay zone recordId record observations relations transitions fuel previous reached =
      .ok reached := by
  cases fuel with
  | zero => rfl
  | succ fuel => rw [replay, h]

/-- One candidate that is new and passes every check is taken. -/
theorem replay_succ_of_step {chain : List Fields} {seen : List String}
    {diagnostics : List Diagnostic} (h : candidatesAfter transitions previous = [event])
    (hnew : documentId event ∉ seen)
    (hstep : hostStep zone recordId record observations relations state event = some next)
    (fuel : Nat) :
    replay zone recordId record observations relations transitions (fuel + 1) previous
        ⟨state, chain, seen, diagnostics⟩ =
      replay zone recordId record observations relations transitions fuel (hostKey event)
        ⟨next, chain ++ [event], seen ++ [documentId event], diagnostics⟩ := by
  obtain ⟨hcheck, hnext⟩ := hostStep_eq_some_iff.mp hstep
  rw [replay, h]
  simp only [List.contains_eq_mem, hnew, decide_false, Bool.false_eq_true, if_false, hcheck, hnext]
  rfl

/-- A turn that takes no transition stops, or reports a diagnostic. -/
theorem replay_succ_cases {reached result : Replay} {fuel : Nat}
    (h : replay zone recordId record observations relations transitions (fuel + 1) previous
      reached = .ok result) :
    result = reached ∨
      (∃ event next, candidatesAfter transitions previous = [event] ∧
        documentId event ∉ reached.seen ∧
        hostStep zone recordId record observations relations reached.state event = some next ∧
        replay zone recordId record observations relations transitions fuel (hostKey event)
          ⟨next, reached.chain ++ [event], reached.seen ++ [documentId event],
            reached.diagnostics⟩ = .ok result) ∨
      ∃ diagnostic, diagnostic.code ∈ historyCodes ∧
        result.diagnostics = reached.diagnostics ++ [diagnostic] := by
  rw [replay] at h
  split at h
  · exact .inl (Except.ok.inj h).symm
  · rename_i event hcandidates
    split at h
    · refine .inr (.inr ⟨_, ?_, by rw [← Except.ok.inj h]⟩)
      simp [historyCodes]
    · rename_i hnew
      obtain ⟨checked, hcheck, h⟩ := Py.bind_eq_ok_iff.mp h
      cases checked with
      | some diagnostic =>
          exact .inr (.inr ⟨diagnostic, checkEvent_code hcheck, by rw [← Except.ok.inj h]⟩)
      | none =>
          exact .inr (.inl ⟨event, _, hcandidates, by simpa using hnew,
            hostStep_eq_some_iff.mpr ⟨hcheck, rfl⟩, h⟩)
  · refine .inr (.inr ⟨_, ?_, by rw [← Except.ok.inj h]⟩)
    simp [historyCodes]

/-! ### The whole loop -/

/-- A walk to where no transition follows is what the loop does. -/
theorem replay_of_walks
    (h : Walks hostKey previousEvent (hostStep zone recordId record observations relations)
      transitions previous state order last final)
    (hend : candidatesAfter transitions last = []) {chain : List Fields} {seen : List String}
    {diagnostics : List Diagnostic} (hseen : (seen ++ order.map documentId).Nodup) {fuel : Nat}
    (hfuel : order.length ≤ fuel) :
    replay zone recordId record observations relations transitions fuel previous
        ⟨state, chain, seen, diagnostics⟩ =
      .ok ⟨final, chain ++ order, seen ++ order.map documentId, diagnostics⟩ := by
  induction h generalizing chain seen fuel with
  | stop root state =>
      rw [replay_stop hend, List.append_nil, List.map_nil, List.append_nil]
  | @advance root last state next final event rest hcandidates hstep hrest ih =>
      obtain ⟨fuel, rfl⟩ := Nat.exists_eq_succ_of_ne_zero
        (Nat.pos_iff_ne_zero.mp (Nat.lt_of_lt_of_le (Nat.succ_pos rest.length) hfuel))
      rw [List.map_cons, List.append_cons seen] at hseen ⊢
      have hnew : documentId event ∉ seen := by
        have hleft := (List.nodup_append.mp hseen).1
        rw [← List.concat_eq_append, List.nodup_concat] at hleft
        exact hleft.1
      rw [Nat.succ_eq_add_one, replay_succ_of_step hcandidates hnew hstep,
        ih hend hseen (Nat.le_of_succ_le_succ hfuel), List.append_cons chain event rest]

/-- A loop that adds no diagnostic walks. -/
theorem walks_of_replay {fuel : Nat} {reached result : Replay}
    (h : replay zone recordId record observations relations transitions fuel previous reached =
      .ok result)
    (hdiagnostics : result.diagnostics = []) :
    ∃ order last, Walks hostKey previousEvent
        (hostStep zone recordId record observations relations) transitions previous reached.state
        order last result.state ∧
      result.chain = reached.chain ++ order ∧
      result.seen = reached.seen ++ order.map documentId := by
  induction fuel generalizing previous reached with
  | zero =>
      obtain rfl := Except.ok.inj h
      exact ⟨[], previous, .stop previous _, by simp, by simp⟩
  | succ fuel ih =>
      obtain rfl | ⟨event, next, hcandidates, hnew, hstep, h⟩ | ⟨diagnostic, -, hadded⟩ :=
        replay_succ_cases h
      · exact ⟨[], previous, .stop previous _, by simp, by simp⟩
      · obtain ⟨order, last, hwalks, hchain, hseen⟩ := ih h
        exact ⟨event :: order, last, .advance hcandidates hstep hwalks, by simp [hchain],
          by simp [hseen]⟩
      · rw [hdiagnostics] at hadded
        exact absurd hadded.symm (by simp)

/-- A loop reports what is wrong with the history. -/
theorem replay_codes {fuel : Nat} {reached result : Replay}
    (h : replay zone recordId record observations relations transitions fuel previous reached =
      .ok result)
    (hcodes : ∀ diagnostic ∈ reached.diagnostics, diagnostic.code ∈ historyCodes) :
    ∀ diagnostic ∈ result.diagnostics, diagnostic.code ∈ historyCodes := by
  induction fuel generalizing previous reached with
  | zero =>
      obtain rfl := Except.ok.inj h
      exact hcodes
  | succ fuel ih =>
      obtain rfl | ⟨event, next, -, -, -, h⟩ | ⟨diagnostic, hcode, hadded⟩ := replay_succ_cases h
      · exact hcodes
      · exact ih h hcodes
      · rw [hadded]
        intro other hother
        rcases List.mem_append.mp hother with hother | hother
        · exact hcodes other hother
        · rw [List.mem_singleton.mp hother]
          exact hcode

/-- More turns than there are identities left change nothing. -/
theorem replay_fuel {fuel : Nat} {reached : Replay} (hnodup : reached.seen.Nodup)
    (hseen : reached.seen ⊆ transitions.map documentId)
    (hfuel : transitions.length < fuel + reached.seen.length) :
    replay zone recordId record observations relations transitions (fuel + 1) previous reached =
      replay zone recordId record observations relations transitions fuel previous reached := by
  induction fuel generalizing previous reached with
  | zero =>
      have hlength := (List.subperm_of_subset hnodup hseen).length_le
      rw [List.length_map] at hlength
      omega
  | succ fuel ih =>
      rw [replay]
      conv_rhs => rw [replay]
      split
      · rfl
      · rename_i event hcandidates
        split
        · rfl
        · rename_i hnew
          have hmem : event ∈ transitions := by
            have hevent : event ∈ candidatesAfter transitions previous := by
              rw [hcandidates]
              exact List.mem_singleton_self event
            exact (List.mem_filter.mp hevent).1
          dsimp only
          congr 1
          funext checked
          cases checked with
          | some diagnostic => rfl
          | none =>
              apply ih
              · dsimp only
                rw [← List.concat_eq_append, List.nodup_concat]
                exact ⟨by simpa using hnew, hnodup⟩
              · rw [List.append_subset]
                exact ⟨hseen, by simpa using ⟨event, hmem, rfl⟩⟩
              · rw [List.length_append, List.length_singleton]
                omega
      · rfl

end Replay

/-! ## The projection -/

/-- What a projection is made of. -/
structure Projected (zone : Int → Py Int) (recordId : String) (record : Fields)
    (observations events : List Fields) (allRecordIds : List String) (reached : Replay)
    (projection : PressureProjection) : Prop where
  replayed : replay zone recordId record (relevantObservations recordId observations)
    (relationsOf recordId events) (transitionMaterial recordId events)
    ((transitionMaterial recordId events).length + 1) none
    ⟨(member record "initialStatus" (.str "discovered")).pyStr, [], [], []⟩ = .ok reached
  events_eq : projection.events = reached.chain
  observations_eq : projection.observations = relevantObservations recordId observations
  relations_eq : projection.relations = relationsOf recordId events
  transitionMaterial_eq : projection.transitionMaterial = transitionMaterial recordId events
  diagnostics_eq : projection.diagnostics = reached.diagnostics ++
    ((if reached.seen.length ≠ (transitionMaterial recordId events).length then
        [⟨"DANGLING_TRANSITION", "pressure[" ++ recordId ++ "].events",
          "one or more transition events are not on the single append-only head"⟩]
      else []) ++
    (if allRecordIds.contains recordId then []
      else [⟨"MISSING_RECORD", recordId, "pressure declaration is missing"⟩]))
  status_eq : projection.status =
    if projection.diagnostics.isEmpty then reached.state else "conflicted"
  initialStatus_eq : Fields.get? projection.data "initialStatus" = Fields.get? record "initialStatus"

section Projection

variable {zone : Int → Py Int} {recordId : String} {record : Fields}
  {observations events chain : List Fields} {allRecordIds : List String}
  {projection : PressureProjection}

/-- The material names the status, and no other member of the declaration that
the lifecycle reads. -/
theorem projectionMaterial_reads {status : String} {material : Fields}
    (h : projectionMaterial zone record observations chain status = .ok material) :
    Fields.get? material.reverse "status" = some (.str status) ∧
      Fields.get? material.reverse "initialStatus" = none := by
  unfold projectionMaterial at h
  obtain ⟨reporter, -, h⟩ := Py.bind_eq_ok_iff.mp h
  obtain ⟨affected, -, h⟩ := Py.bind_eq_ok_iff.mp h
  obtain ⟨named, -, h⟩ := Py.bind_eq_ok_iff.mp h
  obtain ⟨evidence, -, h⟩ := Py.bind_eq_ok_iff.mp h
  obtain ⟨keyed, -, h⟩ := Py.bind_eq_ok_iff.mp h
  obtain ⟨current, -, h⟩ := Py.bind_eq_ok_iff.mp h
  obtain ⟨reconciliation, -, h⟩ := Py.bind_eq_ok_iff.mp h
  obtain ⟨implementation, -, h⟩ := Py.bind_eq_ok_iff.mp h
  obtain ⟨passed, -, h⟩ := Py.bind_eq_ok_iff.mp h
  obtain ⟨failed, -, h⟩ := Py.bind_eq_ok_iff.mp h
  obtain ⟨unknown, -, h⟩ := Py.bind_eq_ok_iff.mp h
  obtain rfl := Except.ok.inj h
  simp [Fields.get?]

theorem projected_of_projectOne
    (h : projectOne zone recordId record observations events allRecordIds = .ok projection) :
    ∃ reached, Projected zone recordId record observations events allRecordIds reached
      projection := by
  unfold projectOne projectFrom at h
  obtain ⟨reached, hreplay, h⟩ := Py.bind_eq_ok_iff.mp h
  obtain ⟨material, hmaterial, h⟩ := Py.bind_eq_ok_iff.mp h
  obtain rfl := Except.ok.inj h
  obtain ⟨hstatus, hinitial⟩ := projectionMaterial_reads hmaterial
  refine ⟨reached, hreplay, rfl, rfl, rfl, rfl, List.append_assoc .., ?_, ?_⟩
  · simp only [PressureProjection.status, member, Fields.get?_update, hstatus, Option.some_or,
      Option.getD_some, Json.pyStr_str]
  · simp only [Fields.get?_update, hinitial, Option.none_or]

/-- A valid projection walks all its transitions, and has the status the walk
reaches. -/
theorem walks_of_projectOne
    (h : projectOne zone recordId record observations events allRecordIds = .ok projection)
    (hvalid : projection.valid = true) :
    ∃ last, Walks hostKey previousEvent
        (hostStep zone recordId record (relevantObservations recordId observations)
          (relationsOf recordId events))
        (transitionMaterial recordId events) none
        (member record "initialStatus" (.str "discovered")).pyStr projection.events last
        projection.status ∧
      projection.events.length = (transitionMaterial recordId events).length := by
  obtain ⟨reached, hprojected⟩ := projected_of_projectOne h
  have hdiagnostics := List.isEmpty_iff.mp hvalid
  have hstatus := hprojected.status_eq
  rw [hdiagnostics, List.isEmpty_nil, if_pos rfl] at hstatus
  rw [hprojected.diagnostics_eq, List.append_eq_nil_iff, List.append_eq_nil_iff] at hdiagnostics
  obtain ⟨hreplay, hdangling, -⟩ := hdiagnostics
  obtain ⟨order, last, hwalks, hchain, hseen⟩ := walks_of_replay hprojected.replayed hreplay
  rw [List.nil_append] at hchain hseen
  have hlength : reached.seen.length = (transitionMaterial recordId events).length := by
    by_contra hne
    rw [if_pos hne] at hdangling
    exact absurd hdangling (by simp)
  rw [hseen, List.length_map] at hlength
  rw [hprojected.events_eq, hchain, hstatus]
  exact ⟨last, hwalks, hlength⟩

/-- Among known records, a projection is valid when it reports nothing about the
history. -/
theorem projectOne_valid_iff_codes
    (h : projectOne zone recordId record observations events allRecordIds = .ok projection)
    (hrecord : recordId ∈ allRecordIds) :
    projection.valid = true ↔
      ∀ diagnostic ∈ projection.diagnostics, diagnostic.code ∉ historyCodes := by
  obtain ⟨reached, hprojected⟩ := projected_of_projectOne h
  have hcodes : ∀ diagnostic ∈ projection.diagnostics, diagnostic.code ∈ historyCodes := by
    intro diagnostic hmem
    have hknown : allRecordIds.contains recordId = true := by simpa using hrecord
    rw [hprojected.diagnostics_eq, hknown, if_pos rfl, List.append_nil] at hmem
    rcases List.mem_append.mp hmem with hmem | hmem
    · exact replay_codes hprojected.replayed (by simp) diagnostic hmem
    · split at hmem
      · rw [List.mem_singleton.mp hmem]
        simp [historyCodes]
      · exact absurd hmem (by simp)
  constructor
  · intro hvalid
    rw [List.isEmpty_iff.mp hvalid]
    simp
  · intro hnone
    apply List.isEmpty_iff.mpr
    apply List.eq_nil_iff_forall_not_mem.mpr
    intro diagnostic hmem
    exact hnone diagnostic hmem (hcodes diagnostic hmem)

/-- With distinct ids, a projection is valid exactly when the transitions are one
accepted history, and then has the status it replays to. -/
theorem projectOne_valid_iff
    (h : projectOne zone recordId record observations events allRecordIds = .ok projection)
    (hrecord : recordId ∈ allRecordIds)
    (hids : ((transitionMaterial recordId events).map documentId).Nodup) (final : String) :
    projection.valid = true ∧ projection.status = final ↔
      Accepted hostKey previousEvent
        (hostStep zone recordId record (relevantObservations recordId observations)
          (relationsOf recordId events))
        none (member record "initialStatus" (.str "discovered")).pyStr
        (transitionMaterial recordId events) final := by
  have hkeys : ((transitionMaterial recordId events).map hostKey).Nodup := by
    have hmap : (transitionMaterial recordId events).map hostKey =
        ((transitionMaterial recordId events).map documentId).map some := by
      rw [List.map_map]
      rfl
    rw [hmap]
    exact hids.map (Option.some_injective String)
  have hroot : none ∉ (transitionMaterial recordId events).map hostKey := by
    simp [hostKey]
  rw [accepted_iff_walks hkeys hroot]
  constructor
  · rintro ⟨hvalid, rfl⟩
    obtain ⟨last, hwalks, hlength⟩ := walks_of_projectOne h hvalid
    exact ⟨projection.events, last, hwalks, hlength⟩
  · rintro ⟨order, last, hwalks, hlength⟩
    obtain ⟨reached, hprojected⟩ := projected_of_projectOne h
    have hperm := hwalks.linked.perm hwalks.subset hkeys hroot hlength
    have hnodup : (order.map documentId).Nodup := (hperm.map documentId).nodup_iff.mpr hids
    have hreached : reached = ⟨final, [] ++ order, [] ++ order.map documentId, []⟩ := by
      apply Except.ok.inj
      rw [← hprojected.replayed]
      apply replay_of_walks hwalks (hwalks.filter_last_eq_nil hkeys hroot hlength)
      · simpa using hnodup
      · omega
    subst hreached
    have hdiagnostics : projection.diagnostics = [] := by
      rw [hprojected.diagnostics_eq]
      simp [hlength, hrecord]
    refine ⟨List.isEmpty_iff.mpr hdiagnostics, ?_⟩
    rw [hprojected.status_eq, hdiagnostics, List.isEmpty_nil, if_pos rfl]

end Projection

end MncsCommons.Pressure
