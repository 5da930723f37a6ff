/-
# Work histories

The revisions of one work record, from its submission on.  Every revision follows
the work protocol, keeps the request of the one before and moves both of its
states along the transition tables (`WorkStep`).  Over a whole history the request
is never changed and a terminal state is never left (`WorkHistory.pairwise`).

The check compares a candidate with the stored revision whose keys are sorted.
States are strings, so sorting does not change how they are read.
-/

import MncsCommons.Protocol.Revisions

namespace MncsCommons.Protocol

open MncsCommons.Data

/-- The states of finished work. -/
def terminalWorkStates : List String := ["completed", "failed", "cancelled"]

/-- The coordination states of finished work. -/
def terminalCoordinationStates : List String := ["COMPLETE", "ABANDONED", "SUPERSEDED"]

/-- The members of `details`; none when it is no object. -/
def detailsOf (record : Fields) : Fields := (Fields.get record "details").obj?.getD []

/-- `details.state`. -/
def stateOf (record : Fields) : Json := Fields.get (detailsOf record) "state"

/-- A revision takes an allowed step from another. -/
structure WorkStep (earlier later : Fields) : Prop where
  request : ∀ field ∈ immutableWorkFields,
    (Fields.get (detailsOf later) field).pyEq (Fields.get (detailsOf earlier) field) = true
  state : ∃ before after, stateOf earlier = .str before ∧ stateOf later = .str after ∧
    (after = before ∨ after ∈ allowedWorkTransitions before)
  event : ∃ event, Fields.get (detailsOf later) "stateEvent" = .obj event ∧
    Fields.get event "from" = stateOf earlier
  coordination : ∃ before after, coordinationState (detailsOf earlier) = .ok before ∧
    coordinationState (detailsOf later) = .ok after ∧
    (after = before ∨ after ∈ allowedCoordinationTransitions before)

/-- The revisions of a work record: all follow the protocol, the first submits and
each takes an allowed step from the one before. -/
structure WorkHistory (items : List Fields) : Prop where
  follows : ∀ item ∈ items, followsWorkProtocol item = true
  states : ∀ item ∈ items, ∃ state ∈ workStates, stateOf item = .str state
  submitted : ∀ first ∈ items.head?, stateOf first = .str "submitted"
  steps : items.IsChain WorkStep

/-! ## Reading states -/

/-- No value but the string has the text of a state. -/
theorem pyStr_eq_of_mem_workStates {value : Json} {state : String} (h : state ∈ workStates) :
    value.pyStr = state ↔ value = .str state := by
  refine Json.pyStr_eq_iff ?_
  revert state
  decide

theorem allowedWorkTransitions_subset {before after : String}
    (h : after ∈ allowedWorkTransitions before) : after ∈ workStates := by
  have htable : ∀ row ∈ workTransitions, ∀ state ∈ row.2, state ∈ workStates := by decide
  rw [allowedWorkTransitions] at h
  cases hrow : workTransitions.lookup before with
  | none => rw [hrow] at h; cases h
  | some states =>
      rw [hrow] at h
      obtain ⟨first, last, hsplit, -⟩ := List.lookup_eq_some_iff.mp hrow
      exact htable (before, states) (by rw [hsplit]; simp) after h

theorem detailsOf_sortKeys (record : Fields) :
    detailsOf (Fields.sortKeys record) = Fields.sortKeys (detailsOf record) := by
  rw [detailsOf, detailsOf, Fields.get_sortKeys, Json.obj?_sortKeys]
  cases (Fields.get record "details").obj? <;> rfl

theorem followsWorkProtocol_sortKeys (record : Fields) :
    followsWorkProtocol (Fields.sortKeys record) = followsWorkProtocol record := by
  rw [followsWorkProtocol, followsWorkProtocol, Fields.get_sortKeys, Json.obj?_sortKeys]
  cases (Fields.get record "details").obj? with
  | none => rfl
  | some details => simp [Fields.get_sortKeys]

/-- The coordination state reads strings only. -/
theorem coordinationState_sortKeys {details : Fields} {state : String}
    (h : Fields.get details "state" = .str state) :
    coordinationState (Fields.sortKeys details) = coordinationState details := by
  have hexplicit : ∀ explicit : Json, (inSet explicit workCoordinationStates = .ok true) →
      explicit.sortKeys.pyStr = explicit.pyStr := by
    intro explicit hin
    cases explicit with
    | str text => rfl
    | _ => simp [inSet, requireHashable, Json.str?, bind, Except.bind, pure, Except.pure] at hin
  rw [coordinationState, coordinationState, Fields.get_sortKeys, Fields.get_sortKeys, h,
    inSet_sortKeys, Json.sortKeys_str]
  cases hin : inSet (Fields.get details "coordinationState") workCoordinationStates with
  | error error => rfl
  | ok found =>
      cases found with
      | false => rfl
      | true => simp [bind, Except.bind, pure, Except.pure, hexplicit _ hin]

/-! ## One revision -/

/-- A first revision without diagnostics submits. -/
theorem submitted_of_check {candidate : Fields}
    (h : checkFirstWorkRevision (detailsOf candidate) = .ok []) :
    stateOf candidate = .str "submitted" := by
  rw [checkFirstWorkRevision, reportIf_eq_nil_iff, Bool.not_eq_false', Bool.and_eq_true,
    decide_eq_true_eq, Json.str?_eq_some_iff] at h
  exact h.1

/-- A revision without diagnostics takes an allowed step. -/
theorem workStep_of_check {candidate latest : Fields} {before : String}
    (hbefore : stateOf latest = .str before) (hstate : before ∈ workStates)
    (h : checkNextWorkRevision (detailsOf candidate) (detailsOf latest) = .ok []) :
    WorkStep latest candidate ∧ ∃ after ∈ workStates, stateOf candidate = .str after := by
  have hprevious : (Fields.get (detailsOf latest) "state").pyStr = before := by
    rw [← stateOf, hbefore, Json.pyStr_str]
  rw [checkNextWorkRevision, concatChecks_eq_nil_iff] at h
  simp only [hprevious, List.forall_mem_cons, reportIf_eq_nil_iff, Bool.and_eq_false_imp,
    decide_eq_true_eq, Bool.not_eq_false', List.contains_iff_mem] at h
  obtain ⟨hrequest, htransition, hevent, hcoordination, -⟩ := h
  have hafter : (Fields.get (detailsOf candidate) "state").pyStr = before ∨
      (Fields.get (detailsOf candidate) "state").pyStr ∈ allowedWorkTransitions before := by
    by_cases hsame : (Fields.get (detailsOf candidate) "state").pyStr = before
    · exact .inl hsame
    · exact .inr (htransition hsame)
  have hmem : (Fields.get (detailsOf candidate) "state").pyStr ∈ workStates := by
    rcases hafter with hsame | hallowed
    · rwa [hsame]
    · exact allowedWorkTransitions_subset hallowed
  have hread : stateOf candidate = .str (Fields.get (detailsOf candidate) "state").pyStr :=
    (pyStr_eq_of_mem_workStates hmem).mp rfl
  refine ⟨⟨?_, ⟨before, _, hbefore, hread, hafter⟩, ?_, ?_⟩, _, hmem, hread⟩
  · simpa [concatChecks_eq_nil_iff] using hrequest
  · cases hobject : Fields.get (detailsOf candidate) "stateEvent" with
    | obj event =>
        rw [hobject] at hevent
        refine ⟨event, rfl, ?_⟩
        simpa [Json.obj?, hbefore, Json.str?_eq_some_iff] using hevent
    | _ =>
        rw [hobject] at hevent
        simp [Json.obj?] at hevent
  · obtain ⟨previous, hprevious, hnext⟩ := Py.bind_eq_ok_iff.mp hcoordination
    obtain ⟨next, hnext, hreport⟩ := Py.bind_eq_ok_iff.mp hnext
    rw [reportIf_eq_nil_iff] at hreport
    refine ⟨previous, next, hprevious, hnext, ?_⟩
    by_cases hsame : next = previous
    · exact .inl hsame
    · exact .inr (by simpa [hsame] using hreport)

/-- The step to a revision is the step to it with sorted keys. -/
theorem WorkStep.sortKeys {earlier later : Fields} (h : WorkStep earlier later) :
    WorkStep earlier (Fields.sortKeys later) := by
  obtain ⟨before, after, hbefore, hafter, hallowed⟩ := h.state
  refine ⟨fun field hfield => ?_, ⟨before, after, hbefore, ?_, hallowed⟩, ?_, ?_⟩
  · rw [detailsOf_sortKeys, Fields.get_sortKeys, Json.pyEq_sortKeys_left]
    exact h.request field hfield
  · rw [stateOf, detailsOf_sortKeys, Fields.get_sortKeys, ← stateOf, hafter, Json.sortKeys_str]
  · obtain ⟨event, hevent, hfrom⟩ := h.event
    refine ⟨Fields.sortKeys event, ?_, ?_⟩
    · rw [detailsOf_sortKeys, Fields.get_sortKeys, hevent, Json.sortKeys_obj_eq]
    · rw [Fields.get_sortKeys, hfrom, hbefore, Json.sortKeys_str]
  · obtain ⟨previous, next, hprevious, hnext, hstep⟩ := h.coordination
    refine ⟨previous, next, hprevious, ?_, hstep⟩
    rw [detailsOf_sortKeys, coordinationState_sortKeys hafter, hnext]

/-! ## Histories -/

/-- The state of a submission with sorted keys. -/
theorem stateOf_sortKeys {record : Fields} {state : String} (h : stateOf record = .str state) :
    stateOf (Fields.sortKeys record) = .str state := by
  rw [stateOf, detailsOf_sortKeys, Fields.get_sortKeys, ← stateOf, h, Json.sortKeys_str]

theorem WorkHistory.singleton {record : Fields} (hfollows : followsWorkProtocol record = true)
    (h : stateOf record = .str "submitted") : WorkHistory [record] where
  follows := by simpa using hfollows
  states := by simpa using ⟨"submitted", by decide, h⟩
  submitted := by simpa using h
  steps := .singleton _

/-- One more revision. -/
theorem WorkHistory.append {items : List Fields} {last next : Fields} (h : WorkHistory items)
    (hlast : items.getLast? = some last) (hfollows : followsWorkProtocol next = true)
    (hstate : ∃ state ∈ workStates, stateOf next = .str state) (hstep : WorkStep last next) :
    WorkHistory (items ++ [next]) where
  follows := by simpa [or_imp, forall_and] using ⟨h.follows, hfollows⟩
  states := by simpa [or_imp, forall_and] using ⟨h.states, hstate⟩
  submitted := by
    intro first hfirst
    refine h.submitted first ?_
    rwa [List.head?_append_of_ne_nil _ (by rintro rfl; cases hlast)] at hfirst
  steps := by
    refine List.IsChain.append h.steps (.singleton _) ?_
    intro found hfound other hother
    obtain rfl := Option.some.inj (hlast.symm.trans hfound)
    obtain rfl : other = next := by simpa [eq_comm] using hother
    exact hstep

/-- What all later revisions keep: the request, and each state once it is terminal. -/
structure Settles (earlier later : Fields) : Prop where
  request : ∀ field ∈ immutableWorkFields,
    (Fields.get (detailsOf later) field).pyEq (Fields.get (detailsOf earlier) field) = true
  state : ∀ state ∈ terminalWorkStates, stateOf earlier = .str state → stateOf later = .str state
  coordination : ∀ state ∈ terminalCoordinationStates,
    coordinationState (detailsOf earlier) = .ok state → coordinationState (detailsOf later) = .ok state

instance : IsTrans Fields Settles where
  trans _ _ _ hsecond hthird :=
    ⟨fun field hfield => Json.pyEq_trans (hthird.request field hfield) (hsecond.request field hfield),
      fun state hstate h => hthird.state state hstate (hsecond.state state hstate h),
      fun state hstate h => hthird.coordination state hstate (hsecond.coordination state hstate h)⟩

/-- A step keeps what is settled. -/
theorem WorkStep.settles {earlier later : Fields} (h : WorkStep earlier later) :
    Settles earlier later where
  request := h.request
  state := by
    intro state hstate hearlier
    obtain ⟨before, after, hbefore, hafter, hstep⟩ := h.state
    obtain rfl := Json.str.inj (hbefore.symm.trans hearlier)
    have hstuck : ∀ state ∈ terminalWorkStates, allowedWorkTransitions state = [] := by decide
    rw [hstuck _ hstate] at hstep
    rw [hafter, hstep.resolve_right List.not_mem_nil]
  coordination := by
    intro state hstate hearlier
    obtain ⟨before, after, hbefore, hafter, hstep⟩ := h.coordination
    obtain rfl := Except.ok.inj (hbefore.symm.trans hearlier)
    have hstuck : ∀ state ∈ terminalCoordinationStates,
        allowedCoordinationTransitions state = [] := by decide
    rw [hstuck _ hstate] at hstep
    rw [hafter, hstep.resolve_right List.not_mem_nil]

/-- Every later revision keeps what is settled. -/
theorem WorkHistory.pairwise {items : List Fields} (h : WorkHistory items) :
    items.Pairwise Settles :=
  List.isChain_iff_pairwise.mp (h.steps.imp fun _ _ hstep => hstep.settles)

end MncsCommons.Protocol
