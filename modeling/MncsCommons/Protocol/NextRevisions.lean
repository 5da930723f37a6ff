/-
# When the next revision is valid

The builder of the next revision and the validator of records state the rules of a
work record twice.  The members of the next revision are read off the transition
here, and the revision that a transition makes of a valid record is valid exactly
when a completion of lane work names its outcome and the work is no follow-on
request of itself (`validateRecord_revised_iff`): of completed lane work the builder
asks for evidence, and it does not compare follow-on requests with the work.
-/

import MncsCommons.Protocol.Projection
import MncsCommons.Protocol.ValidWork
import MncsCommons.Data.Checks

namespace MncsCommons.Protocol

open MncsCommons.Data

/-! ## What a transition brings -/

/-- The coordination state that a transition asks for. -/
def askedCoordination (transition : Fields) : Option String :=
  (Fields.get? transition "coordinationState").bind fun value => value.str?.map Str.strip

/-- The result of the next revision: the one brought, else the present one. -/
def nextResult (details transition : Fields) : Json :=
  (Fields.get? transition "result").getD (Fields.get details "result")

/-- The follow-on requests that a transition brings. -/
def followOnsOf (transition : Fields) : List String :=
  (((Fields.get transition "followOnRequests").arr?.getD []).filterMap Json.str?).map Str.strip

/-- The store takes what a transition makes of a work record: a completion of lane
work names its outcome, and the work is no follow-on request of itself. -/
structure Storable (current transition : Fields) : Prop where
  outcome : Fields.has (detailsOf current) "lane" = true →
    askedCoordination transition = some "COMPLETE" →
      (nextResult (detailsOf current) transition).obj?.any
        (fun result => (Fields.get result "terminalOutcome").truthy) = true
  followOns : logicalId current ∉ followOnsOf transition

/-! ## The members of the next revision -/

theorem requireEvidence_eq_ok_iff {details : Fields} {laned : Bool}
    {targetState coordination : String} :
    requireEvidence details laned targetState coordination = .ok () ↔
      (targetState = "blocked" → (Fields.get details "blockers").truthy = true) ∧
      (targetState ∈ ["completed", "failed"] → hasOutcome details = true) ∧
      (laned = true → coordination ∈ ["CLAIMED", "IN_PROGRESS", "VERIFYING"] →
        (Fields.get details "claim").isObj = true) ∧
      (coordination = "BLOCKED" → (Fields.get details "blockers").truthy = true) ∧
      (coordination = "COMPLETE" → laned = true → hasEvidence details = true) := by
  simp only [requireEvidence, Py.bind_eq_ok_iff, raiseIf_eq_ok_iff, exists_const,
    Bool.and_eq_false_imp, decide_eq_true_eq, Bool.not_eq_false', List.contains_iff_mem,
    Bool.and_eq_true, and_imp]

/-- The fields of the details that a transition brings. -/
def broughtFields : List String :=
  ["followOnRequests", "attachments", "routing", "attempt", "progress", "result", "blockers"]

theorem get?_bring_self {transition details next : Fields} {field : String} {read : Json → Py Json}
    (h : bring transition field read details = .ok next) :
    (Fields.get? transition field = none ∧ next = details) ∨
      ∃ value out, Fields.get? transition field = some value ∧ read value = .ok out ∧
        Fields.get? next field = some out := by
  rw [bring] at h
  split at h
  · next hnone => exact .inl ⟨hnone, (Except.ok.inj h).symm⟩
  · next value hvalue =>
    obtain ⟨out, hout, rfl⟩ := map_eq_ok_iff.mp h
    refine .inr ⟨value, out, hvalue, hout, ?_⟩
    rw [Fields.get?_set, if_pos rfl]

theorem get?_nextRouting {details transition next : Fields}
    (h : nextRouting details transition = .ok next) {key : String} (hkey : key ≠ "routing") :
    Fields.get? next key = Fields.get? details key := by
  obtain ⟨routing, -, h⟩ := Py.bind_eq_ok_iff.mp h
  obtain ⟨after, -, h⟩ := Py.bind_eq_ok_iff.mp h
  rw [← Except.ok.inj h, get?_set_of_ne hkey]

theorem get?_bringAll_of_ne {transition details next : Fields}
    (h : bringAll transition details = .ok next) {key : String} (hkey : key ∉ broughtFields) :
    Fields.get? next key = Fields.get? details key := by
  simp only [broughtFields, List.mem_cons, List.not_mem_nil, not_or, or_false] at hkey
  obtain ⟨hfollowOns, hattachments, hrouting, hattempt, hprogress, hresult, hblockers⟩ := hkey
  obtain ⟨first, hfirst, h⟩ := Py.bind_eq_ok_iff.mp h
  obtain ⟨second, hsecond, h⟩ := Py.bind_eq_ok_iff.mp h
  obtain ⟨third, hthird, h⟩ := Py.bind_eq_ok_iff.mp h
  obtain ⟨fourth, hfourth, h⟩ := Py.bind_eq_ok_iff.mp h
  obtain ⟨fifth, hfifth, h⟩ := Py.bind_eq_ok_iff.mp h
  obtain ⟨sixth, hsixth, h⟩ := Py.bind_eq_ok_iff.mp h
  rw [get?_bring h hblockers, get?_bring hsixth hresult, get?_bring hfifth hprogress,
    get?_bring hfourth hattempt, get?_nextRouting hthird hrouting, get?_bring hsecond hattachments,
    get?_bring hfirst hfollowOns]

/-- The result is the one brought, else the present one. -/
theorem get_result_bringAll {transition details next : Fields}
    (h : bringAll transition details = .ok next) :
    Fields.get next "result" = nextResult details transition := by
  obtain ⟨first, hfirst, h⟩ := Py.bind_eq_ok_iff.mp h
  obtain ⟨second, hsecond, h⟩ := Py.bind_eq_ok_iff.mp h
  obtain ⟨third, hthird, h⟩ := Py.bind_eq_ok_iff.mp h
  obtain ⟨fourth, hfourth, h⟩ := Py.bind_eq_ok_iff.mp h
  obtain ⟨fifth, hfifth, h⟩ := Py.bind_eq_ok_iff.mp h
  obtain ⟨sixth, hsixth, h⟩ := Py.bind_eq_ok_iff.mp h
  have hbefore : Fields.get? fifth "result" = Fields.get? details "result" := by
    rw [get?_bring hfifth (by decide), get?_bring hfourth (by decide),
      get?_nextRouting hthird (by decide), get?_bring hsecond (by decide),
      get?_bring hfirst (by decide)]
  rw [Fields.get, get?_bring h (by decide), nextResult]
  obtain ⟨hnone, rfl⟩ | ⟨value, out, hvalue, hread, hout⟩ := get?_bring_self hsixth
  · rw [hnone, hbefore]
    rfl
  · obtain ⟨fields, hfields, rfl⟩ := map_eq_ok_iff.mp hread
    rw [hout, hvalue, requiredMapping_eq_ok hfields]
    rfl

/-- A claim is an object or none when it was. -/
theorem claim_of_bring {transition details next : Fields}
    (h : bring transition "claim" readClaim details = .ok next)
    (hclaim : Fields.get details "claim" = .null ∨ (Fields.get details "claim").isObj = true) :
    Fields.get next "claim" = .null ∨ (Fields.get next "claim").isObj = true := by
  obtain ⟨-, rfl⟩ | ⟨value, out, -, hread, hout⟩ := get?_bring_self h
  · exact hclaim
  · rw [Fields.get, hout, Option.getD_some]
    cases value with
    | null => exact .inl (Except.ok.inj hread).symm
    | _ =>
        simp only [readClaim] at hread
        obtain ⟨fields, -, rfl⟩ := map_eq_ok_iff.mp hread
        exact .inr rfl

theorem get?_nextMetadata {now previousDigest : String} {metadata next : Fields} {actor : Actor}
    (h : nextMetadata now metadata actor previousDigest = .ok next) {revision : Int}
    (hrevision : toInt ((Fields.get? metadata "revision").getD (.int 1)) = .ok revision)
    (key : String) :
    Fields.get? next key =
      if key = "previousDigest" then some (.str previousDigest)
      else if key = "revision" then some (.int (revision + 1))
      else if key = "author" then some actor.json
      else if key = "createdAt" then some (.str now) else Fields.get? metadata key := by
  rw [nextMetadata, hrevision] at h
  rw [← Except.ok.inj h]
  simp only [List.foldl_cons, List.foldl_nil, Fields.get?_set, eq_comm]

theorem readCoordinationState_eq_ok {text state : String}
    (h : readCoordinationState (.str text) = .ok state) :
    state = text ∧ state ∈ workCoordinationStates := by
  obtain ⟨found, hfound, h⟩ := Py.bind_eq_ok_iff.mp h
  obtain ⟨_, hraise, h⟩ := Py.bind_eq_ok_iff.mp h
  rw [raiseIf_eq_ok_iff, Bool.not_eq_false'] at hraise
  obtain ⟨_, -, hfound⟩ := Py.bind_eq_ok_iff.mp hfound
  have hcontains := (Except.ok.inj hfound).trans hraise
  obtain rfl : text = state := Except.ok.inj h
  exact ⟨rfl, by simpa [Json.str?] using hcontains⟩

/-- An explicit coordination state is read as it is. -/
theorem coordinationState_of_get {details : Fields} {state : String}
    (hstate : state ∈ workCoordinationStates)
    (h : Fields.get details "coordinationState" = .str state) :
    coordinationState details = .ok state := by
  rw [coordinationState, h]
  simp [inSet, requireHashable, Json.str?, hstate, bind, Except.bind, pure, Except.pure]

/-- The next coordination state is the one asked for, or the one that the next state
stands for, and the present one allows it. -/
theorem nextCoordination_cases {details transition : Fields} {targetState coordination : String}
    (h : nextCoordination details transition targetState = .ok coordination) :
    (∃ previous, coordinationState details = .ok previous ∧
      (coordination = previous ∨ coordination ∈ allowedCoordinationTransitions previous)) ∧
    ((askedCoordination transition = some coordination ∧ coordination ∈ workCoordinationStates) ∨
      (Fields.get? transition "coordinationState" = none ∧
        (coordinationOfWorkState.lookup targetState = some coordination ∨
          coordinationOfWorkState.lookup targetState = none ∧
            coordinationState details = .ok coordination))) := by
  have hrest : ∀ next : String, (do
      let previous ← coordinationState details
      raiseIf (next ≠ previous && !(allowedCoordinationTransitions previous).contains next)
        (.workProtocolError "WORK_COORDINATION_TRANSITION_REJECTED"
          (previous ++ " -> " ++ next ++ " is not allowed"))
      return next) = .ok coordination →
      next = coordination ∧ ∃ previous, coordinationState details = .ok previous ∧
        (coordination = previous ∨ coordination ∈ allowedCoordinationTransitions previous) := by
    intro next hnext
    obtain ⟨previous, hprevious, hnext⟩ := Py.bind_eq_ok_iff.mp hnext
    obtain ⟨_, hraise, hnext⟩ := Py.bind_eq_ok_iff.mp hnext
    obtain rfl : next = coordination := Except.ok.inj hnext
    refine ⟨rfl, previous, hprevious, ?_⟩
    rw [raiseIf_eq_ok_iff] at hraise
    by_cases hsame : next = previous
    · exact .inl hsame
    · exact .inr (by simpa [hsame] using hraise)
  rw [nextCoordination] at h
  cases hasked : Fields.get? transition "coordinationState" with
  | some value =>
      rw [hasked] at h
      obtain ⟨text, htext, h⟩ := Py.bind_eq_ok_iff.mp h
      obtain ⟨next, hnext, h⟩ := Py.bind_eq_ok_iff.mp h
      obtain ⟨rfl, hallowed⟩ := hrest next h
      obtain ⟨rfl, hmem⟩ := readCoordinationState_eq_ok hnext
      obtain ⟨s, rfl, -, hstrip⟩ := workText_eq_ok htext
      refine ⟨hallowed, .inl ⟨?_, hmem⟩⟩
      rw [askedCoordination, hasked, hstrip]
      rfl
  | none =>
      rw [hasked] at h
      cases hlookup : coordinationOfWorkState.lookup targetState with
      | some found =>
          simp only [hlookup] at h
          obtain ⟨next, hnext, h⟩ := Py.bind_eq_ok_iff.mp h
          obtain ⟨rfl, hallowed⟩ := hrest next h
          obtain rfl : found = next := Except.ok.inj hnext
          exact ⟨hallowed, .inr ⟨rfl, .inl rfl⟩⟩
      | none =>
          simp only [hlookup] at h
          obtain ⟨next, hnext, h⟩ := Py.bind_eq_ok_iff.mp h
          obtain ⟨rfl, hallowed⟩ := hrest next h
          exact ⟨hallowed, .inr ⟨rfl, .inr ⟨rfl, hnext⟩⟩⟩

namespace NextRevision

variable {now : String} {current transition revised : Fields}

theorem detailsOf_current (revision : NextRevision now current transition revised) :
    detailsOf current = revision.details := by
  rw [detailsOf, revision.getDetails]
  rfl

theorem metadataOf_current (revision : NextRevision now current transition revised) :
    metadataOf current = revision.metadata := by
  rw [metadataOf, revision.getMetadata]
  rfl

/-- The states of the next revision are not brought over. -/
theorem get?_states (revision : NextRevision now current transition revised) {key : String}
    (hkey : key ∉ "claim" :: broughtFields) :
    Fields.get? (detailsOf revised) key =
      Fields.get? (nextStates revision.details revision.event revision.targetState
        revision.coordination) key := by
  obtain ⟨hclaim, hbrought⟩ := not_or.mp (List.mem_cons.not.mp hkey)
  rw [revision.detailsOf_revised, get?_bringAll_of_ne revision.next_eq hbrought,
    get?_bring revision.claimed_eq hclaim]

theorem get_state (revision : NextRevision now current transition revised) :
    Fields.get (detailsOf revised) "state" = .str revision.targetState := by
  rw [Fields.get, revision.get?_states (by decide)]
  simp [nextStates, Fields.get?_set]

theorem get_requestState (revision : NextRevision now current transition revised) :
    Fields.get (detailsOf revised) "requestState" = .str (requestState revision.targetState) := by
  rw [Fields.get, revision.get?_states (by decide)]
  simp [nextStates, Fields.get?_set]

theorem get_stateEvent (revision : NextRevision now current transition revised) :
    Fields.get (detailsOf revised) "stateEvent" = .obj revision.event := by
  rw [Fields.get, revision.get?_states (by decide)]
  simp [nextStates, Fields.get?_set]

theorem get_coordinationState (revision : NextRevision now current transition revised) :
    Fields.get (detailsOf revised) "coordinationState" = .str revision.coordination := by
  rw [Fields.get, revision.get?_states (by decide)]
  simp [nextStates, Fields.get?_set]

theorem get_result (revision : NextRevision now current transition revised) :
    Fields.get (detailsOf revised) "result" = nextResult (detailsOf current) transition := by
  have hclaimed : Fields.get revision.claimed "result" = Fields.get revision.details "result" := by
    rw [Fields.get, get?_bring revision.claimed_eq (by decide)]
    simp [nextStates, Fields.get?_set, Fields.get]
  rw [revision.detailsOf_revised, get_result_bringAll revision.next_eq, nextResult, hclaimed,
    revision.detailsOf_current, nextResult]

theorem claim_valid (revision : NextRevision now current transition revised)
    (h : Fields.get (detailsOf current) "claim" = .null ∨
      (Fields.get (detailsOf current) "claim").isObj = true) :
    Fields.get (detailsOf revised) "claim" = .null ∨
      (Fields.get (detailsOf revised) "claim").isObj = true := by
  have hbefore : Fields.get (nextStates revision.details revision.event revision.targetState
      revision.coordination) "claim" = Fields.get (detailsOf current) "claim" := by
    rw [revision.detailsOf_current]
    simp [nextStates, Fields.get?_set, Fields.get]
  have hafter : Fields.get (detailsOf revised) "claim" = Fields.get revision.claimed "claim" := by
    rw [revision.detailsOf_revised, Fields.get, get?_bringAll_of_ne revision.next_eq (by decide),
      Fields.get]
  rw [← hbefore] at h
  rw [hafter]
  exact claim_of_bring revision.claimed_eq h

/-- The event names the step. -/
theorem get_event (revision : NextRevision now current transition revised) :
    Fields.get revision.event "from" = .str (Fields.get (detailsOf current) "state").pyStr ∧
      Fields.get revision.event "to" = .str revision.targetState ∧
      Fields.get revision.event "actor" = revision.actor.json := by
  obtain ⟨reason, -, h⟩ := Py.bind_eq_ok_iff.mp revision.event_eq
  rw [← Except.ok.inj h, revision.detailsOf_current]
  cases reason <;> exact ⟨rfl, rfl, rfl⟩

theorem get_details (revision : NextRevision now current transition revised) {key : String}
    (hkey : key ∉ changedFields) :
    Fields.get (detailsOf revised) key = Fields.get (detailsOf current) key := by
  rw [Fields.get, revision.get?_details hkey, Fields.get]

theorem has_details (revision : NextRevision now current transition revised) {key : String}
    (hkey : key ∉ changedFields) :
    Fields.has (detailsOf revised) key = Fields.has (detailsOf current) key := by
  rw [Fields.has, revision.get?_details hkey, Fields.has]

/-- The scope was checked before the other fields were brought. -/
theorem scope (revision : NextRevision now current transition revised) :
    hygieneScopeInvalid (detailsOf revised) = .ok false := by
  have hread : ∀ key ∈ ["lane", "coordinationState", "canonicalRepository", "repository",
      "canonicalAffectedRepositories", "affectedRepositories"],
      Fields.get (detailsOf revised) key = Fields.get (nextStates revision.details revision.event
        revision.targetState revision.coordination) key := by
    intro key hkey
    rw [Fields.get, revision.get?_states, Fields.get]
    revert key
    decide
  rw [← revision.inScope]
  simp only [List.forall_mem_cons] at hread
  obtain ⟨hlane, hcoordination, hcanonical, hrepository, haffected, hnamed, -⟩ := hread
  simp only [hygieneScopeInvalid, hlane, hcoordination, hcanonical, hrepository, haffected, hnamed]

/-- The next state is the present one or one it allows. -/
theorem target_allowed (revision : NextRevision now current transition revised) :
    revision.targetState = (Fields.get (detailsOf current) "state").pyStr ∨
      revision.targetState ∈
        allowedWorkTransitions (Fields.get (detailsOf current) "state").pyStr := by
  obtain ⟨target, -, h⟩ := Py.bind_eq_ok_iff.mp revision.readTarget
  obtain ⟨_, hraise, h⟩ := Py.bind_eq_ok_iff.mp h
  obtain hread : target = revision.targetState := Except.ok.inj h
  rw [raiseIf_eq_ok_iff, hread] at hraise
  rw [revision.detailsOf_current]
  by_cases hsame : revision.targetState = (Fields.get revision.details "state").pyStr
  · exact .inl hsame
  · exact .inr (by simpa [hsame] using hraise)

/-- The actor has a name. -/
theorem actor_named (revision : NextRevision now current transition revised) :
    Str.isBlank revision.actor.type = false ∧ Str.isBlank revision.actor.id = false := by
  obtain ⟨fields, -, h⟩ := Py.bind_eq_ok_iff.mp revision.readActor
  obtain ⟨_, -, h⟩ := Py.bind_eq_ok_iff.mp h
  obtain ⟨type, htype, h⟩ := Py.bind_eq_ok_iff.mp h
  obtain ⟨id, hid, h⟩ := Py.bind_eq_ok_iff.mp h
  obtain ⟨first, -, hfirst, rfl⟩ := workText_eq_ok htype
  obtain ⟨second, -, hsecond, rfl⟩ := workText_eq_ok hid
  rw [← Except.ok.inj h]
  exact ⟨(Str.isBlank_strip first).trans hfirst, (Str.isBlank_strip second).trans hsecond⟩

theorem metadataOf_revised (revision : NextRevision now current transition revised) :
    Fields.get revised "metadata" = .obj revision.nextMetadata := by
  have hbefore : Fields.get? (Fields.set (Fields.erase current "contentDigest") "metadata"
      (.obj revision.nextMetadata)) "metadata" = some (.obj revision.nextMetadata) := by
    rw [Fields.get?_set, if_pos rfl]
  have hcandidate := revision.candidate_eq
  rw [congrArg (Fields.get · "metadata") revision.revised_eq, Fields.get,
    get?_set_of_ne (by decide)]
  rw [nextRelationships] at hcandidate
  split at hcandidate
  · rw [← Except.ok.inj hcandidate, hbefore]
    rfl
  · obtain ⟨_, -, hcandidate⟩ := Py.bind_eq_ok_iff.mp hcandidate
    obtain ⟨_, -, hcandidate⟩ := Py.bind_eq_ok_iff.mp hcandidate
    obtain ⟨_, -, hcandidate⟩ := Py.bind_eq_ok_iff.mp hcandidate
    rw [← Except.ok.inj hcandidate, get?_set_of_ne (by decide), hbefore]
    rfl

/-- The members of the metadata: four are new. -/
theorem get?_metadata (revision : NextRevision now current transition revised) :
    ∃ n, revisionOf current = .ok n ∧ ∀ key, Fields.get? revision.nextMetadata key =
      if key = "previousDigest" then some (.str (digestOf current))
      else if key = "revision" then some (.int (n + 1))
      else if key = "author" then some revision.actor.json
      else if key = "createdAt" then some (.str now)
      else Fields.get? revision.metadata key := by
  obtain ⟨n, hn, -⟩ := Py.bind_eq_ok_iff.mp revision.metadata_eq
  refine ⟨n, ?_, fun key => get?_nextMetadata revision.metadata_eq hn key⟩
  rw [revisionOf, Fields.get?_of_get revision.getMetadata (by simp)]
  exact hn

theorem recordIdOf_revised (revision : NextRevision now current transition revised) :
    recordIdOf revised = recordIdOf current := by
  obtain ⟨n, -, hmetadata⟩ := revision.get?_metadata
  rw [recordIdOf, recordIdOf, revision.metadataOf_revised, revision.getMetadata]
  simp [Json.obj?, Fields.get, hmetadata]

theorem mem_workStates (revision : NextRevision now current transition revised)
    (hstate : ∃ state ∈ workStates, Fields.get (detailsOf current) "state" = .str state) :
    revision.targetState ∈ workStates := by
  obtain ⟨state, hmem, hstate⟩ := hstate
  obtain hsame | hallowed := revision.target_allowed
  · rwa [hsame, hstate, Json.pyStr_str]
  · exact allowedWorkTransitions_subset hallowed

theorem stateEvent_valid (revision : NextRevision now current transition revised) :
    checkStateEvent revised (detailsOf revised) = .ok [] := by
  obtain ⟨-, hto, hactor⟩ := revision.get_event
  obtain ⟨n, -, hmetadata⟩ := revision.get?_metadata
  obtain ⟨htype, hid⟩ := revision.actor_named
  have hnamed : ∀ text : String, Str.isBlank text = false → (Json.str text).truthy = true := by
    intro text htext
    cases hempty : (Json.str text).truthy with
    | true => rfl
    | false =>
        obtain rfl : text = "" := by simpa [Json.truthy] using hempty
        cases htext
  have hauthor : Fields.get revision.nextMetadata "author" = revision.actor.json := by
    rw [Fields.get, hmetadata]
    rfl
  rw [checkStateEvent, revision.get_stateEvent, revision.metadataOf_revised, revision.get_state]
  simp only [Json.obj?, concatChecks_eq_nil_iff, List.forall_mem_cons, reportIf_eq_nil_iff, hto,
    hactor, hauthor, Json.pyEq_self, Bool.not_true, List.not_mem_nil, false_implies, implies_true,
    and_true, true_and]
  simp [Actor.json, Fields.get, Fields.get?, hnamed _ htype, hnamed _ hid]

/-- A completed revision of lane work has an outcome, if a completion that was asked
for does. -/
theorem hasOutcome_of_complete (revision : NextRevision now current transition revised)
    (hstate : ∃ state ∈ workStates, Fields.get (detailsOf current) "state" = .str state)
    (houtcome : askedCoordination transition = some "COMPLETE" →
      (nextResult (detailsOf current) transition).obj?.any
        (fun result => (Fields.get result "terminalOutcome").truthy) = true)
    (hcomplete : revision.coordination = "COMPLETE") : hasOutcome (detailsOf revised) = true := by
  obtain ⟨-, ⟨hasked, -⟩ | ⟨-, hfound | ⟨hnone, -⟩⟩⟩ :=
    nextCoordination_cases revision.coordination_eq
  · rw [hasOutcome, revision.get_result]
    exact houtcome (hcomplete ▸ hasked)
  · have hstates : ∀ state ∈ workStates, coordinationOfWorkState.lookup state = some "COMPLETE" →
        state = "completed" := by decide
    have htarget := hstates _ (revision.mem_workStates hstate) (hcomplete ▸ hfound)
    obtain ⟨-, houtcome, -⟩ := requireEvidence_eq_ok_iff.mp revision.evidence
    rw [revision.detailsOf_revised]
    exact houtcome (by rw [htarget]; decide)
  · have hall : ∀ state ∈ workStates, coordinationOfWorkState.lookup state ≠ none := by decide
    exact absurd hnone (hall _ (revision.mem_workStates hstate))

theorem validLane_iff (revision : NextRevision now current transition revised)
    (hstate : ∃ state ∈ workStates, Fields.get (detailsOf current) "state" = .str state)
    (hvalid : ValidLane (detailsOf current)) :
    ValidLane (detailsOf revised) ↔
      (askedCoordination transition = some "COMPLETE" →
        (nextResult (detailsOf current) transition).obj?.any
          (fun result => (Fields.get result "terminalOutcome").truthy) = true) := by
  constructor
  · intro h hasked
    have hcoordination : revision.coordination = "COMPLETE" := by
      obtain ⟨-, ⟨hread, -⟩ | ⟨hnone, -⟩⟩ := nextCoordination_cases revision.coordination_eq
      · exact Option.some.inj (hread.symm.trans hasked)
      · rw [askedCoordination, hnone] at hasked
        cases hasked
    have houtcome := h.complete (by rw [revision.get_coordinationState, hcoordination])
    rwa [hasOutcome, revision.get_result] at houtcome
  · intro houtcome
    obtain ⟨-, -, hclaim, hblocked, -⟩ := requireEvidence_eq_ok_iff.mp revision.evidence
    obtain ⟨lane, hlane, hget⟩ := hvalid.lane
    have hlaned : (Fields.get revision.details "lane").truthy = true := by
      have hall : ∀ lane ∈ lanes, (Json.str lane).truthy = true := by decide
      rw [← revision.detailsOf_current, hget]
      exact hall lane hlane
    refine ⟨⟨lane, hlane, ?_⟩, ?_, ?_, ?_, ?_, revision.claim_valid hvalid.claim, ?_, ?_, ?_,
      revision.scope⟩
    · rw [revision.get_details (by decide), hget]
    · rw [validateLaneRequest, revision.get_details (by decide), revision.get_details (by decide),
        revision.get_details (by decide)]
      exact hvalid.policy
    · intro field hfield
      have hkey : field ∉ changedFields := by
        revert field
        decide
      rw [stringListInvalid, revision.get?_details hkey]
      exact hvalid.lists field hfield
    · intro field hfield
      have hkey : field ∉ changedFields := by
        revert field
        decide
      rw [textFieldInvalid, revision.get?_details hkey]
      exact hvalid.texts field hfield
    · rw [revision.get_details (by decide)]
      exact hvalid.priority
    · intro state hmem hread
      rw [revision.get_coordinationState, Json.str.injEq] at hread
      rw [revision.detailsOf_revised]
      exact hclaim hlaned (hread ▸ hmem)
    · intro hread
      rw [revision.get_coordinationState, Json.str.injEq] at hread
      rw [revision.detailsOf_revised]
      exact hblocked hread
    · intro hread
      rw [revision.get_coordinationState, Json.str.injEq] at hread
      exact revision.hasOutcome_of_complete hstate houtcome hread

/-- The present coordination state allows the next one. -/
theorem coordination_allowed (revision : NextRevision now current transition revised)
    (hcurrent : ∃ state ∈ workCoordinationStates,
      Fields.get (detailsOf current) "coordinationState" = .str state) :
    ∃ state ∈ workCoordinationStates,
      Fields.get (detailsOf current) "coordinationState" = .str state ∧
        (revision.coordination = state ∨
          revision.coordination ∈ allowedCoordinationTransitions state) ∧
        revision.coordination ∈ workCoordinationStates := by
  have hsteps : ∀ before ∈ workCoordinationStates,
      ∀ after ∈ allowedCoordinationTransitions before, after ∈ workCoordinationStates := by decide
  obtain ⟨state, hstate, hget⟩ := hcurrent
  obtain ⟨⟨previous, hprevious, hallowed⟩, -⟩ := nextCoordination_cases revision.coordination_eq
  have hread := coordinationState_of_get hstate hget
  rw [revision.detailsOf_current] at hread
  obtain rfl : state = previous := Except.ok.inj (hread.symm.trans hprevious)
  refine ⟨state, hstate, hget, hallowed, ?_⟩
  rcases hallowed with hsame | hstep
  · rwa [hsame]
  · exact hsteps state hstate _ hstep

/-- The next revision of a valid work record is valid when a completion of lane work
names its outcome. -/
theorem validWork_iff (revision : NextRevision now current transition revised)
    (hvalid : ValidWork current (detailsOf current)) :
    ValidWork revised (detailsOf revised) ↔
      (Fields.has (detailsOf current) "lane" = true →
        askedCoordination transition = some "COMPLETE" →
          (nextResult (detailsOf current) transition).obj?.any
            (fun result => (Fields.get result "terminalOutcome").truthy) = true) := by
  have hhas : Fields.has (detailsOf revised) "lane" = Fields.has (detailsOf current) "lane" :=
    revision.has_details (by decide)
  constructor
  · intro h hlane
    exact (revision.validLane_iff hvalid.state (hvalid.lane hlane)).mp (h.lane (hhas.trans hlane))
  · intro houtcome
    obtain ⟨state, hstate, hget, hallowed, hmem⟩ := revision.coordination_allowed hvalid.coordination
    refine ⟨?_, ?_, ⟨_, revision.mem_workStates hvalid.state, revision.get_state⟩,
      revision.stateEvent_valid, ?_, ?_, ⟨_, hmem, revision.get_coordinationState⟩, ?_, ?_, ?_⟩
    · rw [revision.get_details (by decide)]
      exact hvalid.protocol
    · rw [checkWorkId_eq, revision.recordIdOf_revised, revision.get_details (by decide)]
      exact hvalid.workId
    · rw [revision.get_details (by decide)]
      exact hvalid.boundary
    · intro field hfield
      rw [revision.has_details (by revert field; decide)]
      exact hvalid.required field hfield
    · -- no step leads back to available work
      intro havailable hstatus
      have hnone : ∀ before ∈ workCoordinationStates,
          "AVAILABLE" ∉ allowedCoordinationTransitions before := by decide
      rw [revision.get_coordinationState, Json.str.injEq] at havailable
      rw [revision.get_details (by decide)] at hstatus ⊢
      refine hvalid.claimable ?_ hstatus
      obtain hsame | hstep := hallowed
      · rw [hget, ← hsame, havailable]
      · exact absurd (havailable ▸ hstep) (hnone state hstate)
    · intro hlane
      exact (revision.validLane_iff hvalid.state (hvalid.lane (hhas.symm.trans hlane))).mpr
        (houtcome (hhas.symm.trans hlane))
    · rw [Fields.get, revision.get?_revised (by decide)]
      exact hvalid.trust

end NextRevision

/-! ## Relations of the next revision -/

/-- The texts of a list that was read. -/
theorem texts_of_stringList {value : Json} {field : String} {texts : List String}
    (h : stringList value field = .ok texts) :
    ((value.arr?.getD []).filterMap Json.str?).map Str.strip = texts ∧
      ∀ text ∈ texts, Str.isBlank text = false := by
  obtain ⟨rfl, rfl⟩ | ⟨items, rfl, hitems⟩ := stringList_eq_ok h
  · exact ⟨rfl, fun _ hmem => nomatch hmem⟩
  clear h
  rw [Json.arr?, Option.getD_some]
  induction hitems with
  | nil => exact ⟨rfl, fun _ hmem => nomatch hmem⟩
  | cons hitem _ ih =>
      obtain ⟨s, rfl, hblank, rfl⟩ := hitem
      rw [List.forall_mem_cons]
      exact ⟨congrArg (Str.strip s :: ·) ih.1, (Str.isBlank_strip s).trans hblank, ih.2⟩

/-- A relation to a follow-on request. -/
def followsUp (item : String) : Json := .obj [("type", .str "follows_up"), ("target", .str item)]

namespace NextRevision

variable {now : String} {current transition revised : Fields}

/-- The relations are the present ones and those to new follow-on requests. -/
theorem relationships (revision : NextRevision now current transition revised) {items : List Json}
    (hitems : Fields.get? current "relationships" = some (.arr items)) :
    ∃ added : List String,
      Fields.get? revised "relationships" = some (.arr (items ++ added.map followsUp)) ∧
      (∀ item ∈ added, item ∈ followOnsOf transition ∧ Str.isBlank item = false) ∧
      ∀ item ∈ followOnsOf transition, item ∈ added ∨ ∃ relation, .obj relation ∈ items ∧
        Fields.get relation "target" = .str item := by
  have hbefore : Fields.get? (Fields.set (Fields.erase current "contentDigest") "metadata"
      (.obj revision.nextMetadata)) "relationships" = some (.arr items) := by
    rw [get?_set_of_ne (by decide), Fields.get?_erase, if_neg (by decide), hitems]
  have hcandidate := revision.candidate_eq
  have hrevised : Fields.get? revised "relationships" =
      Fields.get? revision.candidate "relationships" := by
    rw [congrArg (Fields.get? · "relationships") revision.revised_eq, get?_set_of_ne (by decide)]
  rw [hrevised]
  rw [nextRelationships] at hcandidate
  split at hcandidate
  · next hnone =>
    refine ⟨[], ?_, by simp, ?_⟩
    · rw [← Except.ok.inj hcandidate, hbefore, List.map_nil, List.append_nil]
    · rw [followOnsOf, Fields.get, hnone]
      intro item hmem
      cases hmem
  · next value hvalue =>
    obtain ⟨texts, htexts, hcandidate⟩ := Py.bind_eq_ok_iff.mp hcandidate
    have hfound : relationshipsOf (Fields.set (Fields.erase current "contentDigest") "metadata"
        (.obj revision.nextMetadata)) = .ok items := by
      rw [relationshipsOf, hbefore]
      rfl
    rw [hfound, ok_bind] at hcandidate
    obtain ⟨all, hall, hcandidate⟩ := Py.bind_eq_ok_iff.mp hcandidate
    obtain ⟨existing, hexisting, hall⟩ := Py.bind_eq_ok_iff.mp hall
    obtain ⟨hread, hblank⟩ := texts_of_stringList htexts
    have hfollowOns : followOnsOf transition = texts := by
      rw [followOnsOf, Fields.get, hvalue]
      exact hread
    rw [hfollowOns, ← Except.ok.inj hcandidate, Fields.get?_set, if_pos rfl, ← Except.ok.inj hall]
    refine ⟨_, rfl, fun item hmem => ?_, fun item hmem => ?_⟩
    · have hin := (List.mem_filter.mp hmem).1
      exact ⟨hin, hblank item hin⟩
    · by_cases hknown : existing.any (fun pair =>
        pair.1.str? = some "follows_up" && pair.2.str? = some item) = true
      · right
        obtain ⟨pair, hpair, hmatch⟩ := List.any_eq_true.mp hknown
        obtain ⟨relation, hrelation, hread⟩ := mem_of_mapM hexisting hpair
        obtain ⟨value, hmem, hobj⟩ := List.mem_filterMap.mp hrelation
        obtain ⟨_, -, hread⟩ := Py.bind_eq_ok_iff.mp hread
        obtain ⟨_, -, hread⟩ := Py.bind_eq_ok_iff.mp hread
        obtain rfl := Except.ok.inj hread
        rw [Bool.and_eq_true, decide_eq_true_eq, decide_eq_true_eq, Json.str?_eq_some_iff,
          Json.str?_eq_some_iff] at hmatch
        exact ⟨relation, Json.obj?_eq_some_iff.mp hobj ▸ hmem, hmatch.2⟩
      · exact .inl (List.mem_filter.mpr ⟨hmem, by simpa using hknown⟩)

/-- No key is new but three that every record has. -/
theorem mem_keys (revision : NextRevision now current transition revised) {key : String}
    (hkey : key ∈ Fields.keys revised) :
    key ∈ Fields.keys current ∨ key ∈ ["metadata", "relationships", "details"] := by
  have herase : ∀ name, name ∈ Fields.keys (Fields.erase current "contentDigest") →
      name ∈ Fields.keys current := by
    intro name hname
    obtain ⟨field, hfield, rfl⟩ := List.mem_map.mp hname
    exact List.mem_map_of_mem (List.mem_filter.mp hfield).1
  rw [revision.revised_eq, Fields.mem_keys_set] at hkey
  have hcandidate := revision.candidate_eq
  rw [nextRelationships] at hcandidate
  split at hcandidate
  · rw [← Except.ok.inj hcandidate, Fields.mem_keys_set] at hkey
    rcases hkey with hold | rfl
    · rcases hold with hold | rfl
      · exact .inl (herase key hold)
      · simp
    · simp
  · obtain ⟨_, -, hcandidate⟩ := Py.bind_eq_ok_iff.mp hcandidate
    obtain ⟨_, -, hcandidate⟩ := Py.bind_eq_ok_iff.mp hcandidate
    obtain ⟨_, -, hcandidate⟩ := Py.bind_eq_ok_iff.mp hcandidate
    rw [← Except.ok.inj hcandidate, Fields.mem_keys_set, Fields.mem_keys_set] at hkey
    rcases hkey with ((hold | rfl) | rfl) | rfl
    · exact .inl (herase key hold)
    all_goals simp

theorem get?_digest (revision : NextRevision now current transition revised) :
    Fields.get? revised "contentDigest" = none := by
  have hnone : Fields.get? (Fields.erase current "contentDigest") "contentDigest" = none := by
    rw [Fields.get?_erase, if_pos rfl]
  have hcandidate := revision.candidate_eq
  rw [congrArg (Fields.get? · "contentDigest") revision.revised_eq, get?_set_of_ne (by decide)]
  rw [nextRelationships] at hcandidate
  split at hcandidate
  · rw [← Except.ok.inj hcandidate, get?_set_of_ne (by decide), hnone]
  · obtain ⟨_, -, hcandidate⟩ := Py.bind_eq_ok_iff.mp hcandidate
    obtain ⟨_, -, hcandidate⟩ := Py.bind_eq_ok_iff.mp hcandidate
    obtain ⟨_, -, hcandidate⟩ := Py.bind_eq_ok_iff.mp hcandidate
    rw [← Except.ok.inj hcandidate, get?_set_of_ne (by decide), get?_set_of_ne (by decide), hnone]

end NextRevision

/-! ## The next record -/

namespace NextRevision

variable {now : String} {current transition revised : Fields}

theorem metadata_valid (revision : NextRevision now current transition revised)
    (hnow : checkTimestamp (.str now) "metadata.createdAt" = .ok [])
    (hdigest : validDigest (.str (digestOf current)) = true)
    (h : checkMetadata (Fields.get current "metadata") = .ok [])
    (hrevision : ∃ n, 1 ≤ n ∧ revisionOf current = .ok n) :
    checkMetadata (Fields.get revised "metadata") = .ok [] := by
  obtain ⟨n, hn, hread⟩ := revision.get?_metadata
  obtain ⟨m, hpositive, hm⟩ := hrevision
  obtain rfl : n = m := Except.ok.inj (hn.symm.trans hm)
  obtain ⟨htype, hid⟩ := revision.actor_named
  rw [revision.getMetadata, checkMetadata, checkObject_eq_nil_iff] at h
  obtain ⟨fields, hfields, hchecks⟩ := h
  obtain rfl : revision.metadata = fields := Json.obj.inj hfields
  simp only [concatChecks_eq_nil_iff, List.forall_mem_cons, checkKeys_eq_nil_iff] at hchecks
  obtain ⟨hkeys, -, -, hlabels, -⟩ := hchecks
  have hlabel : Fields.get? revision.nextMetadata "labels" =
      Fields.get? revision.metadata "labels" := by
    rw [hread]
    rfl
  rw [revision.metadataOf_revised, checkMetadata, checkObject_eq_nil_iff]
  refine ⟨_, rfl, ?_⟩
  simp only [concatChecks_eq_nil_iff, List.forall_mem_cons, checkKeys_eq_nil_iff]
  refine ⟨?_, ?_, ?_, ?_, ?_, ?_, by simp⟩
  · intro key hkey
    cases hnone : Fields.get? revision.nextMetadata key with
    | none => exact absurd hkey (Fields.get?_eq_none_iff.mp hnone)
    | some value =>
        rw [hread] at hnone
        split at hnone
        · next heq => rw [heq]; decide
        split at hnone
        · next heq => rw [heq]; decide
        split at hnone
        · next heq => rw [heq]; decide
        split at hnone
        · next heq => rw [heq]; decide
        · exact hkeys key (List.mem_map_of_mem (Fields.mem_of_get?_eq_some hnone))
  · rw [Fields.get, hread]
    exact hnow
  · rw [Fields.get, hread, checkObject_eq_nil_iff]
    refine ⟨_, rfl, ?_⟩
    simp only [concatChecks_eq_nil_iff, List.forall_mem_cons, requireString_eq_nil_iff,
      List.not_mem_nil, false_implies, implies_true, and_true]
    simp [Fields.get, Fields.get?, isText, htype, hid]
  · rwa [Fields.has, Fields.get, hlabel, ← Fields.has, ← Fields.get]
  · rw [Fields.has, Fields.get, hread]
    have hnext : 1 ≤ n + 1 := by omega
    simp [revisionValid, hnext]
  · rw [Fields.has, Fields.get, hread]
    simpa using hdigest

/-- The envelope of the next revision is valid when the work does not follow up itself. -/
theorem validEnvelope_iff (revision : NextRevision now current transition revised)
    (hnow : checkTimestamp (.str now) "metadata.createdAt" = .ok [])
    (hdigest : validDigest (.str (digestOf current)) = true)
    (hvalid : ValidEnvelope current) (hrevision : ∃ n, 1 ≤ n ∧ revisionOf current = .ok n)
    (hid : recordIdOf current = .str (logicalId current)) (hne : logicalId current ≠ "") :
    ValidEnvelope revised ↔ logicalId current ∉ followOnsOf transition := by
  have hcommon := hvalid.common
  rw [commonRecordChecks, concatChecks_eq_nil_iff] at hcommon
  simp only [List.forall_mem_cons] at hcommon
  obtain ⟨hmetadata, hsubject, hscope, hstatement, hevidence, hdependencies, hcontracts, hprovenance,
    hconfidence, hsecurity, hlifecycle, hrelationships, hreproduction, -⟩ := hcommon
  obtain ⟨items, hitems, hok⟩ := checkRelationships_eq_nil_iff.mp hrelationships
  obtain ⟨added, hadded, hnew, hall⟩ :=
    revision.relationships (Fields.get?_of_get hitems (by simp))
  have hsame : ∀ {key}, key ∉ ["details", "relationships", "metadata", "contentDigest"] →
      Fields.get revised key = Fields.get current key := by
    intro key hkey
    rw [Fields.get, revision.get?_revised hkey, Fields.get]
  constructor
  · intro h hself
    have hrelated := h.common
    rw [commonRecordChecks, concatChecks_eq_nil_iff] at hrelated
    simp only [List.forall_mem_cons] at hrelated
    obtain ⟨-, -, -, -, -, -, -, -, -, -, -, hrelated, -⟩ := hrelated
    obtain ⟨found, hfound, hchecked⟩ := checkRelationships_eq_nil_iff.mp hrelated
    rw [Fields.get, hadded, Option.getD_some] at hfound
    obtain rfl := Json.arr.inj hfound
    rw [revision.recordIdOf_revised, hid] at hchecked
    have htruthy : (Json.str (logicalId current)).truthy = true := by simp [Json.truthy, hne]
    obtain hmem | ⟨relation, hmem, htarget⟩ := hall _ hself
    · obtain ⟨fields, hfields, -, -, hother⟩ := hchecked (followsUp (logicalId current))
        (List.mem_append_right _ (List.mem_map_of_mem hmem))
      obtain rfl := Json.obj.inj hfields
      exact hother ⟨htruthy, Json.pyEq_self _⟩
    · obtain ⟨fields, hfields, -, -, hother⟩ := hchecked _ (List.mem_append_left _ hmem)
      obtain rfl := Json.obj.inj hfields
      exact hother ⟨htruthy, by rw [htarget]; exact Json.pyEq_self _⟩
  · intro hself
    have hcurrentOk : ∀ item ∈ items, RelationshipOk (.str (logicalId current)) item := hid ▸ hok
    refine ⟨?_, ?_, ?_, ?_, ?_⟩
    · intro key hkey
      obtain hold | hnamed := revision.mem_keys hkey
      · exact hvalid.keys key hold
      · have hthree : ∀ name ∈ ["metadata", "relationships", "details"], name ∈ recordKeys := by
          decide
        exact hthree key hnamed
    · rw [checkApiVersion, hsame (by decide)]
      exact hvalid.version
    · rw [checkDigestForm, Fields.get, revision.get?_digest]
      simp
    · intro key hkey
      by_cases hfixed : key ∈ ["details", "relationships", "metadata", "contentDigest"]
      · simp only [List.mem_cons, List.not_mem_nil, or_false] at hfixed
        rcases hfixed with rfl | rfl | rfl | rfl
        · rw [revision.revised_eq, Fields.has, Fields.get?_set, if_pos rfl]
          rfl
        · rw [Fields.has, hadded]
          rfl
        · rw [Fields.has, Fields.get?_of_get revision.metadataOf_revised (by simp)]
          rfl
        · exact absurd hkey (by decide)
      · rw [Fields.has, revision.get?_revised hfixed]
        exact hvalid.required key hkey
    · rw [commonRecordChecks, concatChecks_eq_nil_iff]
      simp only [List.forall_mem_cons, hsame (by decide : "subject" ∉ _),
        hsame (by decide : "scope" ∉ _), hsame (by decide : "statement" ∉ _),
        hsame (by decide : "evidence" ∉ _), hsame (by decide : "dependencies" ∉ _),
        hsame (by decide : "affectedContracts" ∉ _), hsame (by decide : "provenance" ∉ _),
        hsame (by decide : "confidence" ∉ _), hsame (by decide : "security" ∉ _),
        hsame (by decide : "lifecycle" ∉ _), hsame (by decide : "reproduction" ∉ _)]
      refine ⟨revision.metadata_valid hnow hdigest hmetadata hrevision, hsubject, hscope, hstatement,
        hevidence, hdependencies, hcontracts, hprovenance, hconfidence, hsecurity, hlifecycle, ?_,
        hreproduction, by simp⟩
      rw [checkRelationships_eq_nil_iff, revision.recordIdOf_revised, hid, Fields.get, hadded]
      refine ⟨_, rfl, fun item hitem => ?_⟩
      rcases List.mem_append.mp hitem with hold | hmem
      · exact hcurrentOk item hold
      · obtain ⟨target, htarget, rfl⟩ := List.mem_map.mp hmem
        obtain ⟨hin, hblank⟩ := hnew target htarget
        refine ⟨_, rfl, ⟨true, rfl, .inl rfl⟩, ?_, ?_⟩
        · simpa [Fields.get, Fields.get?, isText] using hblank
        · rintro ⟨-, hsame⟩
          obtain rfl : target = logicalId current := by
            simpa [Fields.get, Fields.get?, Json.pyEq_str_iff] using hsame
          exact hself hin

theorem get_kind (revision : NextRevision now current transition revised) :
    Fields.get revised "kind" = Fields.get current "kind" := by
  rw [Fields.get, revision.get?_revised (by decide), Fields.get]

theorem getDetails_revised (revision : NextRevision now current transition revised) :
    Fields.get revised "details" = .obj (detailsOf revised) := by
  rw [revision.detailsOf_revised, congrArg (Fields.get · "details") revision.revised_eq, Fields.get,
    Fields.get?_set, if_pos rfl]
  rfl

theorem isWorkRecord_revised (revision : NextRevision now current transition revised)
    (hkind : Fields.get current "kind" = .str "WorkRequest") :
    isWorkRecord revised (detailsOf revised) = true := by
  rw [isWorkRecord, revision.get_kind, hkind]
  simp [Fields.has, Fields.get?_of_get revision.get_stateEvent (by simp)]
  rfl

end NextRevision

/-- The next revision of a valid work record is valid exactly when its transition is
storable. -/
theorem validateRecord_revised_iff {now : String} {current transition revised : Fields}
    {digest : String} (hnow : checkTimestamp (.str now) "metadata.createdAt" = .ok [])
    (hrevised : revisedWorkRecord now current transition = .ok revised)
    (hwork : isWorkRecord current (detailsOf current) = true)
    (hvalid : validateRecord current = .ok [])
    (hdigest : Fields.get current "contentDigest" = .str digest) :
    validateRecord revised = .ok [] ↔ Storable current transition := by
  obtain ⟨revision⟩ := exists_nextRevision hrevised
  have hdetails : Fields.get current "details" = .obj (detailsOf current) := by
    rw [revision.getDetails, revision.detailsOf_current]
  obtain ⟨hkind, hworkValid⟩ := work_of_validateRecord hdetails hwork hvalid
  obtain ⟨henvelope, hfields, houtcome, -, -⟩ :=
    (recordDiagnostics_work_iff hkind hdetails hwork).mp (validateRecord_eq_nil_iff.mp hvalid).1
  obtain ⟨hid, -, -⟩ := hworkValid.logicalId
  obtain ⟨hdigestOf, hdigestValid⟩ := digestOf_of_form henvelope.digest hdigest
  have hstates : ∀ state, ∃ text ∈ workRequestStates,
      Json.str (requestState state) = .str text := by
    intro state
    refine ⟨_, ?_, rfl⟩
    rw [requestState]
    split_ifs <;> decide
  have hnull : Fields.get revised "contentDigest" = .null := by
    rw [Fields.get, revision.get?_digest]
    rfl
  rw [validateRecord_eq_nil_iff, recordDiagnostics_work_iff (revision.get_kind.trans hkind)
    revision.getDetails_revised (revision.isWorkRecord_revised hkind),
    revision.validEnvelope_iff hnow (hdigestOf ▸ hdigestValid) henvelope (exists_revisionOf hvalid)
      hid hworkValid.named, revision.validWork_iff hworkValid, revision.get_requestState]
  constructor
  · rintro ⟨⟨hself, -, -, -, hcomplete⟩, -⟩
    exact ⟨hcomplete, hself⟩
  · intro h
    refine ⟨⟨h.followOns, ?_, ?_, fun _ => hstates _, h.outcome⟩, .inl hnull⟩
    · intro field hfield
      have hkey : field ∉ changedFields := by
        revert field
        decide
      rw [revision.has_details hkey]
      exact hfields field hfield
    · rw [revision.has_details (by decide), revision.get_details (by decide)]
      exact houtcome

end MncsCommons.Protocol
