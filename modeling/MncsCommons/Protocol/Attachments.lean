/-
# Transitions that only attach

A transition can add attachments to work and name no state.  The builder then keeps
the state and computes the coordination state from it.  So what others read of the
work stays as it was exactly when the coordination state is the one that the state
stands for, and the other members of the transition can be read
(`attached_keeps_standing_iff`).  Work that is parked stands elsewhere.
-/

import MncsCommons.Protocol.NextRevisions
import MncsCommons.Protocol.Relations
import MncsCommons.Protocol.Classification

namespace MncsCommons.Protocol

open MncsCommons.Data

/-! ## What stays and what is asked -/

/-- What others read of work before they claim it. -/
def standingFields : List String := ["state", "coordinationState", "claim", "blockers"]

/-- The work of the revision stands as that of the current one. -/
def SameStanding (current revised : Fields) : Prop :=
  ∀ key ∈ standingFields, Fields.get (detailsOf revised) key = Fields.get (detailsOf current) key

/-- A transition of an actor who knows the current revision, with attachments and
without a state, a coordination state or a claim. -/
structure OnlyAttaches (current transition : Fields) : Prop where
  attachments : Fields.has transition "attachments" = true
  keeps : ∀ key ∈ ["state", "coordinationState", "claim"], Fields.get? transition key = none
  actor : ∃ actor, readActor (Fields.get transition "actor") "actor" = .ok actor
  expected : (Fields.get transition "expectedPreviousDigest").str? = some (digestOf current)

/-- The coordination state is the one that the state stands for. -/
def Aligned (details : Fields) : Prop :=
  ∃ state coordination, Fields.get details "state" = .str state ∧
    Fields.get details "coordinationState" = .str coordination ∧
    coordinationOfWorkState.lookup state = some coordination

/-- The other members of a transition can be read, and its blockers are the present
ones. -/
structure ReadableFor (details transition : Fields) : Prop where
  fields : unknownFields transition transitionFields = []
  reason : ∃ reason, optionalText (Fields.get transition "reason") "reason" = .ok reason
  brought : ∃ next, bringAll transition details = .ok next
  blockers : ∀ value, Fields.get? transition "blockers" = some value →
    (stringList value "blockers").map Json.ofStrings = .ok (Fields.get details "blockers")

/-- The transition can be attached to the work: its states agree, it has blockers if
it is blocked, and the other members of the transition can be read. -/
structure Attachable (current transition : Fields) : Prop where
  aligned : Aligned (detailsOf current)
  blocked : Fields.get (detailsOf current) "state" = .str "blocked" →
    (Fields.get (detailsOf current) "blockers").truthy = true
  readable : ReadableFor (detailsOf current) transition

/-! ## The members of the transition -/

theorem get_bring_congr {transition details next : Fields} {field : String}
    {read : Json → Py Json} (other : Fields) (h : bring transition field read details = .ok next) :
    ∃ after, bring transition field read other = .ok after ∧
      ∀ key, Fields.get other key = Fields.get details key →
        Fields.get after key = Fields.get next key := by
  rw [bring] at h ⊢
  cases hvalue : Fields.get? transition field with
  | none =>
      rw [hvalue] at h
      obtain rfl := Except.ok.inj h
      exact ⟨other, rfl, fun _ hkey => hkey⟩
  | some value =>
      rw [hvalue] at h
      obtain ⟨out, hout, rfl⟩ := map_eq_ok_iff.mp h
      refine ⟨Fields.set other field out, map_eq_ok_iff.mpr ⟨out, hout, rfl⟩, fun key hkey => ?_⟩
      rw [Fields.get, Fields.get] at hkey ⊢
      rw [Fields.get?_set, Fields.get?_set]
      split
      · rfl
      · exact hkey

/-- What a transition brings depends on the details by their routing only. -/
theorem exists_bringAll {transition details next : Fields} (other : Fields)
    (h : bringAll transition details = .ok next)
    (hrouting : Fields.get other "routing" = Fields.get details "routing") :
    ∃ after, bringAll transition other = .ok after := by
  obtain ⟨first, hfirst, h⟩ := Py.bind_eq_ok_iff.mp h
  obtain ⟨second, hsecond, h⟩ := Py.bind_eq_ok_iff.mp h
  obtain ⟨third, hthird, h⟩ := Py.bind_eq_ok_iff.mp h
  obtain ⟨fourth, hfourth, h⟩ := Py.bind_eq_ok_iff.mp h
  obtain ⟨fifth, hfifth, h⟩ := Py.bind_eq_ok_iff.mp h
  obtain ⟨sixth, hsixth, h⟩ := Py.bind_eq_ok_iff.mp h
  obtain ⟨routing, hread, hthird⟩ := Py.bind_eq_ok_iff.mp hthird
  obtain ⟨routed, hrouted, -⟩ := Py.bind_eq_ok_iff.mp hthird
  obtain ⟨first', hfirst', hkeep⟩ := get_bring_congr other hfirst
  obtain ⟨second', hsecond', hkeep'⟩ := get_bring_congr first' hsecond
  have hthird' : nextRouting second' transition =
      .ok (Fields.set second' "routing" (.obj routed)) := by
    rw [nextRouting, hkeep' "routing" (hkeep "routing" hrouting), hread, ok_bind, hrouted]
    rfl
  obtain ⟨fourth', hfourth', -⟩ := get_bring_congr (Fields.set second' "routing" (.obj routed))
    hfourth
  obtain ⟨fifth', hfifth', -⟩ := get_bring_congr fourth' hfifth
  obtain ⟨sixth', hsixth', -⟩ := get_bring_congr fifth' hsixth
  obtain ⟨after, hafter, -⟩ := get_bring_congr sixth' h
  refine ⟨after, ?_⟩
  rw [bringAll]
  dsimp only
  rw [hfirst', ok_bind, hsecond', ok_bind, hthird', ok_bind, hfourth', ok_bind, hfifth', ok_bind,
    hsixth', ok_bind]
  exact hafter

/-- The blockers are those brought, else the present ones. -/
theorem get_blockers_bringAll {transition details next : Fields}
    (h : bringAll transition details = .ok next) :
    (Fields.get? transition "blockers" = none ∧
      Fields.get next "blockers" = Fields.get details "blockers") ∨
    ∃ value, Fields.get? transition "blockers" = some value ∧
      (stringList value "blockers").map Json.ofStrings = .ok (Fields.get next "blockers") := by
  obtain ⟨first, hfirst, h⟩ := Py.bind_eq_ok_iff.mp h
  obtain ⟨second, hsecond, h⟩ := Py.bind_eq_ok_iff.mp h
  obtain ⟨third, hthird, h⟩ := Py.bind_eq_ok_iff.mp h
  obtain ⟨fourth, hfourth, h⟩ := Py.bind_eq_ok_iff.mp h
  obtain ⟨fifth, hfifth, h⟩ := Py.bind_eq_ok_iff.mp h
  obtain ⟨sixth, hsixth, h⟩ := Py.bind_eq_ok_iff.mp h
  obtain ⟨hnone, rfl⟩ | ⟨value, out, hvalue, hread, hout⟩ := get?_bring_self h
  · refine .inl ⟨hnone, ?_⟩
    rw [Fields.get, get?_bring hsixth (by decide), get?_bring hfifth (by decide),
      get?_bring hfourth (by decide), get?_nextRouting hthird (by decide),
      get?_bring hsecond (by decide), get?_bring hfirst (by decide), Fields.get]
  · refine .inr ⟨value, hvalue, ?_⟩
    rw [Fields.get, hout, Option.getD_some]
    exact hread

/-! ## The attachment -/

theorem nextCoordination_of_lookup {details transition : Fields} {state coordination : String}
    (hasked : Fields.get? transition "coordinationState" = none)
    (hpresent : coordinationState details = .ok coordination)
    (hlookup : coordinationOfWorkState.lookup state = some coordination) :
    nextCoordination details transition state = .ok coordination := by
  rw [nextCoordination, hasked]
  simp only [hlookup, hpresent, pure_bind, ok_bind, ne_eq, not_true_eq_false, decide_false,
    Bool.false_and]
  rfl

/-- Scope depends on the details by six members. -/
theorem hygieneScopeInvalid_congr {details other : Fields}
    (h : ∀ key ∈ ["lane", "coordinationState", "canonicalRepository", "repository",
      "canonicalAffectedRepositories", "affectedRepositories"],
      Fields.get other key = Fields.get details key) :
    hygieneScopeInvalid other = hygieneScopeInvalid details := by
  simp only [List.forall_mem_cons] at h
  obtain ⟨hlane, hcoordination, hcanonical, hrepository, haffected, hnamed, -⟩ := h
  simp only [hygieneScopeInvalid, hlane, hcoordination, hcanonical, hrepository, haffected, hnamed]

/-- The pairs of valid relations can be read. -/
theorem exists_relationPairs {recordId : Json} {items : List Json}
    (h : ∀ item ∈ items, RelationshipOk recordId item) :
    ∃ pairs, relationPairs items = .ok pairs := by
  refine exists_mapM fun relation hrelation => ?_
  obtain ⟨item, hitem, hobj⟩ := List.mem_filterMap.mp hrelation
  obtain ⟨fields, rfl, ⟨known, hknown, -⟩, htarget, -⟩ := h item hitem
  obtain rfl : fields = relation := Option.some.inj hobj
  obtain ⟨_, htype, -⟩ := Py.bind_eq_ok_iff.mp hknown
  obtain ⟨text, htext⟩ : ∃ text, Fields.get fields "target" = .str text := by
    cases hvalue : Fields.get fields "target" with
    | str text => exact ⟨text, rfl⟩
    | _ =>
        rw [hvalue] at htarget
        cases htarget
  refine ⟨(Fields.get fields "type", Fields.get fields "target"), ?_⟩
  rw [htext]
  dsimp only
  rw [htype]
  rfl

/-- A state of work is read as it is. -/
theorem workText_of_state {state : String} (h : state ∈ workStates) (field : String) :
    workText (.str state) field 32 = .ok state := by
  have hread : ∀ state ∈ workStates, boundedText (.str state) 32 = some state := by decide +kernel
  rw [workText, hread state h]

/-- Without a state of its own a transition with attachments stays in the present one. -/
theorem readTargetState_of_attaches {current transition : Fields} {state : String}
    (hstate : state ∈ workStates) (hget : Fields.get (detailsOf current) "state" = .str state)
    (h : OnlyAttaches current transition) :
    readTargetState (detailsOf current) transition = .ok state := by
  rw [readTargetState, h.keeps "state" (by decide), Option.getD_none, hget, Json.pyStr_str,
    workText_of_state hstate, ok_bind, h.attachments]
  simp [raiseIf]

namespace NextRevision

variable {now : String} {current transition revised : Fields}

/-- What an attachment makes of work stands as before when its states agree and the
blockers are kept. -/
theorem sameStanding_iff (revision : NextRevision now current transition revised)
    (hvalid : ValidWork current (detailsOf current)) (h : OnlyAttaches current transition) :
    SameStanding current revised ↔ Aligned (detailsOf current) ∧
      ∀ value, Fields.get? transition "blockers" = some value →
        (stringList value "blockers").map Json.ofStrings =
          .ok (Fields.get (detailsOf current) "blockers") := by
  obtain ⟨state, hstate, hget⟩ := hvalid.state
  have htarget : revision.targetState = state := by
    have hread := readTargetState_of_attaches hstate hget h
    rw [revision.detailsOf_current, revision.readTarget] at hread
    exact Except.ok.inj hread
  obtain ⟨coordination, hlookup⟩ : ∃ coordination,
      coordinationOfWorkState.lookup state = some coordination := by
    have hall : ∀ state ∈ workStates, (coordinationOfWorkState.lookup state).isSome = true := by
      decide
    exact Option.isSome_iff_exists.mp (hall state hstate)
  -- the next coordination state is the one that the state stands for
  have hnext : revision.coordination = coordination := by
    have hnone := h.keeps "coordinationState" (by decide)
    obtain ⟨-, ⟨hasked, -⟩ | ⟨-, hfound | ⟨hmissing, -⟩⟩⟩ :=
      nextCoordination_cases revision.coordination_eq
    · rw [askedCoordination, hnone] at hasked
      cases hasked
    · rw [htarget, hlookup] at hfound
      exact (Option.some.inj hfound).symm
    · rw [htarget, hlookup] at hmissing
      cases hmissing
  have hclaim : Fields.get (detailsOf revised) "claim" =
      Fields.get (detailsOf current) "claim" := by
    obtain ⟨-, hclaimed⟩ | ⟨value, -, hvalue, -⟩ := get?_bring_self revision.claimed_eq
    · rw [revision.detailsOf_revised, Fields.get, get?_bringAll_of_ne revision.next_eq (by decide),
        hclaimed, revision.detailsOf_current]
      simp [nextStates, Fields.get?_set, Fields.get]
    · rw [h.keeps "claim" (by decide)] at hvalue
      cases hvalue
  have hblockers : Fields.get revision.claimed "blockers" =
      Fields.get (detailsOf current) "blockers" := by
    rw [Fields.get, get?_bring revision.claimed_eq (by decide), revision.detailsOf_current]
    simp [nextStates, Fields.get?_set, Fields.get]
  have hbrought := get_blockers_bringAll revision.next_eq
  rw [← revision.detailsOf_revised, hblockers] at hbrought
  rw [SameStanding, standingFields]
  simp only [List.forall_mem_cons, List.not_mem_nil, false_implies, implies_true, and_true]
  rw [revision.get_state, htarget, revision.get_coordinationState, hnext, hget, hclaim]
  constructor
  · rintro ⟨-, hcoordination, -, hsame⟩
    refine ⟨⟨state, coordination, hget, hcoordination.symm, hlookup⟩, fun value hvalue => ?_⟩
    obtain ⟨hnone, -⟩ | ⟨found, hfound, hread⟩ := hbrought
    · rw [hnone] at hvalue
      cases hvalue
    · obtain rfl := Option.some.inj (hfound.symm.trans hvalue)
      rw [hread, hsame]
  · rintro ⟨⟨found, aligned, hfound, haligned, hstands⟩, hkept⟩
    obtain rfl := Json.str.inj (hget.symm.trans hfound)
    obtain rfl := Option.some.inj (hlookup.symm.trans hstands)
    refine ⟨rfl, haligned.symm, rfl, ?_⟩
    obtain ⟨-, hsame⟩ | ⟨value, hvalue, hread⟩ := hbrought
    · exact hsame
    · exact Except.ok.inj (hread.symm.trans (hkept value hvalue))

end NextRevision

/-- The metadata of a valid record has a next revision. -/
theorem exists_nextMetadata {current : Fields} (h : validateRecord current = .ok []) (now : String)
    (actor : Actor) (digest : String) :
    ∃ metadata next, Fields.get current "metadata" = .obj metadata ∧
      nextMetadata now metadata actor digest = .ok next := by
  obtain ⟨n, -, hn⟩ := exists_revisionOf h
  obtain ⟨metadata, hmetadata, -⟩ := exists_metadata_of_validateRecord h
  have hread : toInt ((Fields.get? metadata "revision").getD (.int 1)) = .ok n := by
    rw [revisionOf, hmetadata] at hn
    exact hn
  have hget : Fields.get current "metadata" = .obj metadata := by
    rw [Fields.get, hmetadata, Option.getD_some]
  have hnext : ∃ next, nextMetadata now metadata actor digest = .ok next := by
    rw [nextMetadata, hread, ok_bind]
    exact ⟨_, rfl⟩
  obtain ⟨next, hnext⟩ := hnext
  exact ⟨metadata, next, hget, hnext⟩

/-- What an attachment carries in its states, if its blockers are the present ones. -/
theorem requireEvidence_of_valid {current next : Fields} {state coordination : String}
    (hvalid : ValidWork current (detailsOf current))
    (hcoordination : Fields.get (detailsOf current) "coordinationState" = .str coordination)
    (hlookup : coordinationOfWorkState.lookup state = some coordination)
    (hopen : state ∉ terminalWorkStates)
    (hblocked : state = "blocked" → (Fields.get (detailsOf current) "blockers").truthy = true)
    (hclaim : Fields.get next "claim" = Fields.get (detailsOf current) "claim")
    (hblockers : Fields.get next "blockers" = Fields.get (detailsOf current) "blockers") :
    requireEvidence next (Fields.get (detailsOf current) "lane").truthy state coordination =
      .ok () := by
  have hmem : (state, coordination) ∈ coordinationOfWorkState := by
    obtain ⟨before, after, hsplit, -⟩ := List.lookup_eq_some_iff.mp hlookup
    rw [hsplit]
    simp
  have hends : ∀ pair ∈ coordinationOfWorkState, pair.1 ∉ terminalWorkStates →
      pair.2 ≠ "COMPLETE" ∧ pair.1 ∉ ["completed", "failed"] ∧
        (pair.2 = "BLOCKED" → pair.1 = "blocked") := by decide
  obtain ⟨hcomplete, hended, hblockedState⟩ := hends _ hmem hopen
  rw [requireEvidence_eq_ok_iff, hclaim, hblockers]
  refine ⟨hblocked, fun hin => absurd hin hended, fun hlaned hactive => ?_,
    fun hin => hblocked (hblockedState hin), fun hin => absurd hin hcomplete⟩
  have hhas : Fields.has (detailsOf current) "lane" = true := by
    cases hlane : Fields.get? (detailsOf current) "lane" with
    | none =>
        rw [Fields.get, hlane] at hlaned
        cases hlaned
    | some lane => rw [Fields.has, hlane, Option.isSome_some]
  exact (hvalid.lane hhas).claimed coordination hactive hcoordination

/-- The details of a record that opts into the work protocol are an object. -/
theorem getDetails_of_isWorkRecord {record : Fields}
    (h : isWorkRecord record (detailsOf record) = true) :
    Fields.get record "details" = .obj (detailsOf record) := by
  cases hdetails : Fields.get record "details" with
  | obj details =>
      rw [detailsOf, hdetails]
      rfl
  | _ =>
      have hnone : detailsOf record = [] := by
        rw [detailsOf, hdetails]
        rfl
      rw [isWorkRecord, hnone] at h
      simp [Fields.has, Fields.get?] at h

/-- The relations of a valid record and the follow-on requests that a transition
brings can be put together. -/
theorem exists_nextRelationships {transition details next : Fields} {recordId : Json}
    {items : List Json} (candidate : Fields)
    (hitems : Fields.get? candidate "relationships" = some (.arr items))
    (hok : ∀ item ∈ items, RelationshipOk recordId item)
    (hnext : bringAll transition details = .ok next) :
    ∃ out, nextRelationships candidate transition = .ok out := by
  obtain ⟨first, hfirst, -⟩ := Py.bind_eq_ok_iff.mp hnext
  rw [nextRelationships]
  rw [bring] at hfirst
  cases hvalue : Fields.get? transition "followOnRequests" with
  | none => exact ⟨candidate, rfl⟩
  | some value =>
      rw [hvalue] at hfirst
      obtain ⟨_, hread, -⟩ := map_eq_ok_iff.mp hfirst
      obtain ⟨texts, htexts, -⟩ := map_eq_ok_iff.mp hread
      obtain ⟨pairs, hpairs⟩ := exists_relationPairs hok
      have hrelations : relationshipsOf candidate = .ok items := by
        rw [relationshipsOf, hitems]
        rfl
      dsimp only
      rw [htexts, ok_bind, hrelations, ok_bind, withFollowOns, hpairs]
      exact ⟨_, rfl⟩

/-- The scope of valid work does not change with its other states. -/
theorem scope_nextStates {current : Fields} (h : ValidWork current (detailsOf current))
    {coordination : String}
    (hcoordination : Fields.get (detailsOf current) "coordinationState" = .str coordination)
    (event : Fields) (state : String) :
    hygieneScopeInvalid (nextStates (detailsOf current) event state coordination) = .ok false := by
  have hkeys : ∀ key ∈ ["lane", "coordinationState", "canonicalRepository", "repository",
      "canonicalAffectedRepositories", "affectedRepositories"],
      Fields.get (nextStates (detailsOf current) event state coordination) key =
        Fields.get (detailsOf current) key := by
    simp only [List.forall_mem_cons, List.not_mem_nil, false_implies, implies_true, and_true,
      hcoordination]
    simp [nextStates, Fields.get, Fields.get?_set]
  rw [hygieneScopeInvalid_congr hkeys]
  by_cases hhas : Fields.has (detailsOf current) "lane" = true
  · exact (h.lane hhas).scope
  · have hnone : Fields.get (detailsOf current) "lane" = .null := by
      rw [Fields.get, Option.not_isSome_iff_eq_none.mp hhas]
      rfl
    rw [hygieneScopeInvalid, hnone]
    rfl

/-- A transition that can be attached makes a revision. -/
theorem exists_attached {current transition : Fields} {state : String}
    (hvalid : validateRecord current = .ok [])
    (hwork : isWorkRecord current (detailsOf current) = true)
    (hvalidWork : ValidWork current (detailsOf current)) (hstate : state ∈ workStates)
    (hget : Fields.get (detailsOf current) "state" = .str state)
    (hopen : state ∉ terminalWorkStates)
    (h : OnlyAttaches current transition) (hattachable : Attachable current transition)
    (now : String) : ∃ revised, revisedWorkRecord now current transition = .ok revised := by
  obtain ⟨found, coordination, hfound, hcoordination, hlookup⟩ := hattachable.aligned
  obtain rfl := Json.str.inj (hget.symm.trans hfound)
  obtain ⟨reason, hreason⟩ := hattachable.readable.reason
  obtain ⟨brought, hbrought⟩ := hattachable.readable.brought
  obtain ⟨actor, hactor⟩ := h.actor
  obtain ⟨metadata, nextMeta, hmetadata, hnextMeta⟩ := exists_nextMetadata hvalid now actor
    (digestOf current)
  obtain ⟨relations, hrelations, hok⟩ := exists_relationships hvalid
  obtain ⟨known, hknown, hknownGet⟩ := hvalidWork.coordination
  obtain rfl := Json.str.inj (hcoordination.symm.trans hknownGet)
  have hevent : ∃ event, nextEvent transition state state actor = .ok event := by
    rw [nextEvent, hreason]
    exact ⟨_, rfl⟩
  obtain ⟨event, hevent⟩ := hevent
  have hstates := nextCoordination_of_lookup (h.keeps "coordinationState" (by decide))
    (coordinationState_of_get hknown hcoordination) hlookup
  have hclaim : ∀ details, bring transition "claim" readClaim details = .ok details := by
    intro details
    rw [bring, h.keeps "claim" (by decide)]
  obtain ⟨candidate, hcandidate⟩ := exists_nextRelationships
    (Fields.set (Fields.erase current "contentDigest") "metadata" (.obj nextMeta)) (by
      rw [get?_set_of_ne (by decide), Fields.get?_erase, if_neg (by decide), hrelations])
    hok hbrought
  obtain ⟨next, hnext⟩ := exists_bringAll
    (nextStates (detailsOf current) event state coordination) hbrought
    (by simp [nextStates, Fields.get, Fields.get?_set])
  have hevidence : requireEvidence next (Fields.get (detailsOf current) "lane").truthy state
      coordination = .ok () := by
    refine requireEvidence_of_valid hvalidWork hcoordination hlookup hopen
      (fun hblocked => hattachable.blocked (hblocked ▸ hget)) ?_ ?_
    · rw [Fields.get, get?_bringAll_of_ne hnext (by decide)]
      simp [nextStates, Fields.get, Fields.get?_set]
    · have hbefore : Fields.get (nextStates (detailsOf current) event state coordination)
          "blockers" = Fields.get (detailsOf current) "blockers" := by
        simp [nextStates, Fields.get, Fields.get?_set]
      obtain ⟨-, hsame⟩ | ⟨value, hvalue, hread⟩ := get_blockers_bringAll hnext
      · exact hsame.trans hbefore
      · exact Except.ok.inj (hread.symm.trans (hattachable.readable.blockers value hvalue))
  refine ⟨Fields.set candidate "details" (.obj next), ?_⟩
  rw [revisedWorkRecord, getDetails_of_isWorkRecord hwork, hmetadata]
  simp only [Json.obj?, hattachable.readable.fields, h.expected, hget, Json.pyStr_str]
  rw [readTargetState_of_attaches hstate hget h]
  simp only [ok_bind, hactor, hnextMeta, hevent, hstates,
    scope_nextStates hvalidWork hcoordination, hclaim, hcandidate, hnext, hevidence, ne_eq,
    not_true_eq_false, decide_false]
  rfl

section Standing

variable {current transition : Fields}

/-- A transition that only attaches, and makes a revision that stands as the current
one, can be attached. -/
theorem attachable_of_attached (hvalid : validateRecord current = .ok [])
    (hwork : isWorkRecord current (detailsOf current) = true) (h : OnlyAttaches current transition)
    {now : String} {revised : Fields}
    (hrevised : revisedWorkRecord now current transition = .ok revised)
    (hsame : SameStanding current revised) : Attachable current transition := by
  obtain ⟨-, hvalidWork⟩ := work_of_validateRecord (getDetails_of_isWorkRecord hwork) hwork hvalid
  obtain ⟨state, hstate, hget⟩ := hvalidWork.state
  have hfields : unknownFields transition transitionFields = [] := by
    obtain ⟨_, hraise, -⟩ := Py.bind_eq_ok_iff.mp hrevised
    simpa using raiseIf_eq_ok_iff.mp hraise
  obtain ⟨revision⟩ := exists_nextRevision hrevised
  obtain ⟨haligned, hkept⟩ := (revision.sameStanding_iff hvalidWork h).mp hsame
  obtain ⟨hblocked, -⟩ := requireEvidence_eq_ok_iff.mp revision.evidence
  have htarget : revision.targetState = state := by
    have hread := readTargetState_of_attaches hstate hget h
    rw [revision.detailsOf_current, revision.readTarget] at hread
    exact Except.ok.inj hread
  have hreason : ∃ reason, optionalText (Fields.get transition "reason") "reason" = .ok reason := by
    obtain ⟨reason, hreason, -⟩ := Py.bind_eq_ok_iff.mp revision.event_eq
    exact ⟨reason, hreason⟩
  have hbrought : ∃ next, bringAll transition (detailsOf current) = .ok next := by
    refine exists_bringAll _ revision.next_eq ?_
    rw [Fields.get, Fields.get, get?_bring revision.claimed_eq (by decide),
      revision.detailsOf_current]
    simp [nextStates, Fields.get?_set]
  refine ⟨haligned, fun hread => ?_, ⟨hfields, hreason, hbrought, hkept⟩⟩
  rw [hget, Json.str.injEq] at hread
  rw [← hsame "blockers" (by decide), revision.detailsOf_revised]
  exact hblocked (htarget.trans hread)

/-- What can be attached to valid work that has not ended makes a revision that stands
as the current one. -/
theorem exists_attached_standing (hvalid : validateRecord current = .ok [])
    (hwork : isWorkRecord current (detailsOf current) = true)
    (hopen : ∀ state ∈ terminalWorkStates, Fields.get (detailsOf current) "state" ≠ .str state)
    (h : OnlyAttaches current transition) (hattachable : Attachable current transition)
    (now : String) : ∃ revised, revisedWorkRecord now current transition = .ok revised ∧
      SameStanding current revised := by
  obtain ⟨-, hvalidWork⟩ := work_of_validateRecord (getDetails_of_isWorkRecord hwork) hwork hvalid
  obtain ⟨state, hstate, hget⟩ := hvalidWork.state
  obtain ⟨revised, hrevised⟩ := exists_attached hvalid hwork hvalidWork hstate hget
    (fun hin => hopen state hin hget) h hattachable now
  obtain ⟨revision⟩ := exists_nextRevision hrevised
  exact ⟨revised, hrevised, (revision.sameStanding_iff hvalidWork h).mpr
    ⟨hattachable.aligned, hattachable.readable.blockers⟩⟩

/-- Work that is open and stands where its state does has not ended. -/
theorem not_ended_of_aligned {coordination : String} (h : Aligned (detailsOf current))
    (hread : coordinationState (detailsOf current) = .ok coordination)
    (hopen : openCoordinationStates.contains coordination = true) :
    ∀ state ∈ terminalWorkStates, Fields.get (detailsOf current) "state" ≠ .str state := by
  obtain ⟨state, aligned, hstate, haligned, hlookup⟩ := h
  intro ended hended hget
  obtain rfl := Json.str.inj (hstate.symm.trans hget)
  have hclosed : ∀ state ∈ terminalWorkStates, ∀ coordination,
      coordinationOfWorkState.lookup state = some coordination →
        coordination ∈ workCoordinationStates ∧
          openCoordinationStates.contains coordination = false := by
    have hall : ∀ state ∈ terminalWorkStates, ∃ coordination ∈ workCoordinationStates,
        coordinationOfWorkState.lookup state = some coordination ∧
          openCoordinationStates.contains coordination = false := by
      decide
    intro state hstate coordination hcoordination
    obtain ⟨other, hmem, hother, hnot⟩ := hall state hstate
    obtain rfl := Option.some.inj (hother.symm.trans hcoordination)
    exact ⟨hmem, hnot⟩
  obtain ⟨hmem, hnot⟩ := hclosed state hended aligned hlookup
  obtain rfl := Except.ok.inj ((coordinationState_of_get hmem haligned).symm.trans hread)
  rw [hnot] at hopen
  cases hopen

end Standing

/-! ## Proposals that attach -/

section Proposals

variable {lower : String → String} {work : List WorkProjection} {proposal transition : Fields}
  {workId : String}

/-- The duplicate of a proposal is one of the items it was compared with. -/
theorem mem_of_matchProposal {candidate : Fields} {repositories : List String}
    {items : List WorkProjection} {found : ProposalMatch} {duplicate : WorkProjection}
    (h : matchProposal lower candidate repositories items = .ok found)
    (hduplicate : found.duplicate = some duplicate) : duplicate ∈ items := by
  induction items generalizing found with
  | nil =>
      obtain rfl := Except.ok.inj h
      cases hduplicate
  | cons item items ih =>
      rw [matchProposal] at h
      obtain ⟨named, -, h⟩ := Py.bind_eq_ok_iff.mp h
      obtain ⟨-, h⟩ | ⟨-, h⟩ := ite_eq_iff.mp h
      · obtain rfl := Except.ok.inj h
        obtain rfl := Option.some.inj hduplicate
        exact List.mem_cons_self
      obtain ⟨-, h⟩ | ⟨-, h⟩ := ite_eq_iff.mp h
      · obtain ⟨comparison, -, h⟩ := Py.bind_eq_ok_iff.mp h
        cases comparison with
        | exact =>
            obtain rfl := Except.ok.inj h
            obtain rfl := Option.some.inj hduplicate
            exact List.mem_cons_self
        | distinct => exact List.mem_cons_of_mem _ (ih h hduplicate)
        | ambiguous =>
            obtain ⟨rest, hrest, h⟩ := Py.bind_eq_ok_iff.mp h
            refine List.mem_cons_of_mem _ (ih hrest ?_)
            rw [← hduplicate, ← Except.ok.inj h]
            split <;> rfl
      · exact List.mem_cons_of_mem _ (ih h hduplicate)

/-- A proposal that is attached is attached to open work. -/
theorem attach_of_classify
    (h : classifyProposal lower work proposal = .ok (.attach workId transition)) :
    ∃ candidate reasons duplicate, duplicate ∈ openWork work ∧ duplicate.workId = workId ∧
      withCanonicalRepository (proposalCandidate proposal).1 = .ok (candidate, reasons) ∧
      attachTransition lower candidate duplicate = .ok transition := by
  obtain ⟨laneKnown, -, h⟩ := Py.bind_eq_ok_iff.mp h
  obtain ⟨⟨candidate, reasons⟩, hcandidate, h⟩ := Py.bind_eq_ok_iff.mp h
  obtain ⟨repositories, -, h⟩ := Py.bind_eq_ok_iff.mp h
  obtain ⟨found, hfound, h⟩ := Py.bind_eq_ok_iff.mp h
  dsimp only at h
  cases hduplicate : found.duplicate with
  | none =>
      rw [hduplicate] at h
      obtain ⟨-, h⟩ | ⟨-, h⟩ := ite_eq_iff.mp h <;> cases h
  | some duplicate =>
      rw [hduplicate] at h
      obtain ⟨-, h⟩ | ⟨-, h⟩ := ite_eq_iff.mp h
      · obtain ⟨built, hbuilt, h⟩ := Py.bind_eq_ok_iff.mp h
        obtain ⟨rfl, rfl⟩ := ProposalOutcome.attach.inj (Except.ok.inj h)
        exact ⟨candidate, reasons, duplicate, mem_of_matchProposal hfound hduplicate, rfl,
          hcandidate, hbuilt⟩
      · cases h

/-- The attachment that a proposal makes. -/
def proposalAttachment (candidate : Fields) (capability : Json) : Fields :=
  [("type", .str "proposal-attachment"),
    ("consumer", Fields.get candidate "submittingConsumer"),
    ("evidenceLinks", (Fields.get? candidate "evidenceLinks").getD (.arr [])),
    ("dependencies", (Fields.get? candidate "dependencies").getD (.arr [])),
    ("capability", capability),
    ("source", Fields.get candidate "proposalSource")]

theorem wf_proposalAttachment {candidate : Fields} (h : (Json.obj candidate).wf = true)
    {capability : Json} (hcapability : capability.wf = true) :
    (Json.obj (proposalAttachment candidate capability)).wf = true := by
  have hlist : ∀ key, ((Fields.get? candidate key).getD (.arr [])).wf = true := by
    intro key
    cases hvalue : Fields.get? candidate key with
    | none => rfl
    | some value => exact (Json.wf_obj_iff.mp h).2 _ (Fields.mem_of_get?_eq_some hvalue)
  refine wf_ofKeys ["type", "consumer", "evidenceLinks", "dependencies", "capability", "source"] rfl
    (by decide) ?_
  simp only [proposalAttachment, List.forall_mem_cons, Json.wf_get h, hlist, hcapability, wf_str,
    List.not_mem_nil, false_implies, implies_true, and_self]

/-- A proposal attaches with a transition that knows the current revision and names
no state. -/
theorem attachTransition_eq {candidate : Fields} {duplicate : WorkProjection}
    (h : attachTransition lower candidate duplicate = .ok transition) :
    ∃ attachments capability, fieldItems (detailsOf duplicate.current) "attachments" =
        .ok attachments ∧ Json.wf capability = true ∧
      transition = [("actor", Fields.get candidate "submittingConsumer"),
        ("expectedPreviousDigest", .str duplicate.currentDigest),
        ("attachments", .arr (attachments ++ [.obj (proposalAttachment candidate capability)])),
        ("reason", .str "proposal attached to an existing bounded opportunity")] := by
  obtain ⟨attachments, hattachments, h⟩ := Py.bind_eq_ok_iff.mp h
  obtain ⟨-, h⟩ | ⟨-, h⟩ := ite_eq_iff.mp h
  · obtain ⟨capability, hcapability, h⟩ := Py.bind_eq_ok_iff.mp h
    obtain ⟨text, -, rfl⟩ := map_eq_ok_iff.mp hcapability
    exact ⟨attachments, .str text, hattachments, rfl, (Except.ok.inj h).symm⟩
  · exact ⟨attachments, .null, hattachments, rfl, (Except.ok.inj h).symm⟩

/-- The transition of an attachment repeats no key. -/
theorem wf_attachTransition {candidate : Fields} {duplicate : WorkProjection}
    (h : attachTransition lower candidate duplicate = .ok transition)
    (hcandidate : (Json.obj candidate).wf = true)
    (hcurrent : (Json.obj (detailsOf duplicate.current)).wf = true) :
    (Json.obj transition).wf = true := by
  obtain ⟨attachments, capability, hitems, hcapability, rfl⟩ := attachTransition_eq h
  have hlist : (Json.arr (attachments ++ [.obj (proposalAttachment candidate capability)])).wf =
      true := by
    refine Json.wf_arr_iff.mpr fun item hitem => ?_
    obtain hold | hnew := List.mem_append.mp hitem
    · refine wf_iterate hitems ?_ item hold
      cases hvalue : Fields.get? (detailsOf duplicate.current) "attachments" with
      | none => rfl
      | some value => exact (Json.wf_obj_iff.mp hcurrent).2 _ (Fields.mem_of_get?_eq_some hvalue)
    · rw [List.mem_singleton.mp hnew]
      exact wf_proposalAttachment hcandidate hcapability
  refine wf_ofKeys ["actor", "expectedPreviousDigest", "attachments", "reason"] rfl (by decide) ?_
  simp only [List.forall_mem_cons, Json.wf_get hcandidate, hlist, wf_str, List.not_mem_nil,
    false_implies, implies_true, and_self]

theorem wf_proposalCandidate (h : (Json.obj proposal).wf = true) :
    (Json.obj (proposalCandidate proposal).1).wf = true := by
  have herase : ∀ (keys : List String) (fields : Fields), (Json.obj fields).wf = true →
      (Json.obj (keys.foldl Fields.erase fields)).wf = true := by
    intro keys
    induction keys with
    | nil => exact fun _ hfields => hfields
    | cons key keys ih => exact fun fields hfields => ih _ (Json.wf_erase hfields key)
  have hcandidate := Json.wf_erase (herase ["proposalStatus", "coordinationState", "proposalReason",
    "canonicalRepository", "canonicalAffectedRepositories", "deduplication"] proposal h) "source"
  refine Json.wf_set hcandidate ?_
  split
  · split
    · exact Json.wf_get (herase _ _ h) _
    · rfl
  · split
    · exact Json.wf_get hcandidate _
    · rfl

theorem wf_withCanonicalRepository {candidate out : Fields} {reasons : List String}
    (h : withCanonicalRepository candidate = .ok (out, reasons))
    (hwf : (Json.obj candidate).wf = true) : (Json.obj out).wf = true := by
  rw [withCanonicalRepository] at h
  obtain ⟨-, h⟩ | ⟨-, h⟩ := ite_eq_iff.mp h
  · obtain ⟨rfl, -⟩ := Prod.mk.inj (Except.ok.inj h)
    exact hwf
  · obtain ⟨found, -, h⟩ := Py.bind_eq_ok_iff.mp h
    cases found with
    | none =>
        obtain ⟨rfl, -⟩ := Prod.mk.inj (Except.ok.inj h)
        exact hwf
    | some canonical =>
        obtain ⟨affected, -, h⟩ := Py.bind_eq_ok_iff.mp h
        obtain ⟨rfl, -⟩ := Prod.mk.inj (Except.ok.inj h)
        exact Json.wf_set (Json.wf_set hwf (wf_str _)) (wf_ofStrings _)

end Proposals

/-! ## The current revision of a history -/

theorem digest_of_projectRevision {expected : Nat} {previous : Option (String × String)}
    {record : Fields} {revision : WorkRevision}
    (h : projectRevision expected previous record = .ok revision) :
    revision.digest = digestOf record := by
  rw [projectRevision] at h
  obtain ⟨_, -, h⟩ := Py.bind_eq_ok_iff.mp h
  cases previous with
  | none =>
      obtain ⟨_, -, h⟩ := Py.bind_eq_ok_iff.mp h
      rw [← Except.ok.inj h]
  | some pair =>
      obtain ⟨_, -, h⟩ := Py.bind_eq_ok_iff.mp h
      obtain ⟨_, -, h⟩ := Py.bind_eq_ok_iff.mp h
      obtain ⟨_, -, h⟩ := Py.bind_eq_ok_iff.mp h
      rw [← Except.ok.inj h]

theorem digests_of_projectRevisions {expected : Nat} {previous : Option (String × String)}
    {records : List Fields} {history : List WorkRevision}
    (h : projectRevisions expected previous records = .ok history) :
    history.map WorkRevision.digest = records.map digestOf := by
  induction records generalizing expected previous history with
  | nil => rw [← Except.ok.inj h, List.map_nil, List.map_nil]
  | cons record records ih =>
      obtain ⟨revision, hrevision, h⟩ := Py.bind_eq_ok_iff.mp h
      obtain ⟨rest, hrest, h⟩ := Py.bind_eq_ok_iff.mp h
      rw [← Except.ok.inj h, List.map_cons, List.map_cons, digest_of_projectRevision hrevision,
        ih hrest]

/-- The current digest is that of the current revision. -/
theorem currentDigest_of_project {records : List Fields} {workId : String} {status : WorkProjection}
    (h : projectWorkHistory records workId = .ok status) :
    status.workId = workId ∧ coordinationState (detailsOf status.current) =
        .ok status.coordinationState ∧ status.currentDigest = digestOf status.current := by
  obtain ⟨_, hfound, h⟩ := Py.bind_eq_ok_iff.mp h
  obtain ⟨keyed, hkeyed, h⟩ := Py.bind_eq_ok_iff.mp h
  obtain ⟨history, hhistory, h⟩ := Py.bind_eq_ok_iff.mp h
  obtain ⟨coordination, hcoordination, h⟩ := Py.bind_eq_ok_iff.mp h
  have hdigests := digests_of_projectRevisions hhistory
  have hlength : ((sortedBy Prod.fst keyed).map Prod.snd).length =
      (records.filter (isRevisionOf workId)).length := by
    rw [List.length_map, length_sortedBy, (mapM_eq_ok_iff.mp hkeyed).length_eq]
  rw [← Except.ok.inj h]
  refine ⟨rfl, hcoordination, ?_⟩
  dsimp only
  generalize (sortedBy Prod.fst keyed).map Prod.snd = ordered at hdigests hlength
  cases hlast : ordered.getLast? with
  | none =>
      rw [List.getLast?_eq_none_iff.mp hlast, List.length_nil, eq_comm,
        List.length_eq_zero_iff] at hlength
      rw [hlength] at hfound
      cases hfound
  | some last =>
      rw [← List.getLast?_map, hdigests, List.getLast?_map, hlast, List.getLastD_eq_getLast?, hlast]
      rfl

/-- Listed work is what its history projects to. -/
theorem project_of_listWork {records : List Fields} {work : List WorkProjection}
    (h : listWork records [] [] [] = .ok work) {item : WorkProjection} (hitem : item ∈ work) :
    projectWorkHistory records item.workId = .ok item := by
  obtain ⟨projected, hprojected, h⟩ := Py.bind_eq_ok_iff.mp h
  obtain ⟨result, hresult, h⟩ := Py.bind_eq_ok_iff.mp h
  have hwork : work = projected.filter fun item => ([] : List String).isEmpty ||
      ([] : List String).contains item.state := by
    rw [← Except.ok.inj h, ← Except.ok.inj hresult]
  rw [hwork] at hitem
  obtain ⟨workId, -, hproject⟩ := mem_of_mapM hprojected (List.mem_filter.mp hitem).1
  rwa [(currentDigest_of_project hproject).1]

end MncsCommons.Protocol
