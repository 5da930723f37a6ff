/-
# The lifecycle kernel

The native module that owns the lifecycle of a pressure: the closed transition
law, the resolution rule, and the fold that replays the transitions of one row.
At each step the fold searches the whole array for the transitions that name the
last identity, and takes the candidate when there is exactly one.

Identities are byte strings and arrays of at most 256 items, as the kernel's
record contracts bound them; a value over its bound has no row.  The counters of
a fold over at most 256 items never wrap.  A row here has the fields the
lifecycle reads.
-/

import MncsCommons.Data.LinkedHistory
import Mathlib.Logic.Function.Iterate

namespace MncsCommons.Pressure

open MncsCommons.Data

/-! ## Statuses -/

/-- The lifecycle statuses of a pressure. -/
inductive PressureStatus where
  | discovered | confirmed | accepted | implementing | available | verifying | resolved
  | duplicate | rejected | superseded | deferred | obsolete | conflicted
  deriving DecidableEq, Repr

namespace PressureStatus

/-- The status as the host writes it. -/
def value : PressureStatus → String
  | .discovered => "discovered"
  | .confirmed => "confirmed"
  | .accepted => "accepted"
  | .implementing => "implementing"
  | .available => "available"
  | .verifying => "verifying"
  | .resolved => "resolved"
  | .duplicate => "duplicate"
  | .rejected => "rejected"
  | .superseded => "superseded"
  | .deferred => "deferred"
  | .obsolete => "obsolete"
  | .conflicted => "conflicted"

/-- The name of the kernel's variant. -/
def variant : PressureStatus → String
  | .discovered => "DISCOVERED"
  | .confirmed => "CONFIRMED"
  | .accepted => "ACCEPTED"
  | .implementing => "IMPLEMENTING"
  | .available => "AVAILABLE"
  | .verifying => "VERIFYING"
  | .resolved => "RESOLVED"
  | .duplicate => "DUPLICATE"
  | .rejected => "REJECTED"
  | .superseded => "SUPERSEDED"
  | .deferred => "DEFERRED"
  | .obsolete => "OBSOLETE"
  | .conflicted => "CONFLICTED"

def all : List PressureStatus :=
  [.discovered, .confirmed, .accepted, .implementing, .available, .verifying, .resolved,
    .duplicate, .rejected, .superseded, .deferred, .obsolete, .conflicted]

theorem mem_all (status : PressureStatus) : status ∈ all := by
  cases status <;> decide

/-- The status a host string names. -/
def ofString? (text : String) : Option PressureStatus := all.find? fun status => status.value = text

/-- The status a variant name stands for. -/
def ofVariant? (name : String) : Option PressureStatus :=
  all.find? fun status => status.variant = name

theorem ofString?_value (status : PressureStatus) : ofString? status.value = some status := by
  cases status <;> decide

theorem ofString?_eq_some_iff {text : String} {status : PressureStatus} :
    ofString? text = some status ↔ text = status.value := by
  constructor
  · intro h
    simpa [eq_comm] using List.find?_some h
  · intro h
    rw [h, ofString?_value]

theorem value_injective {first second : PressureStatus} (h : first.value = second.value) :
    first = second := by
  have hfirst := ofString?_value first
  rw [h, ofString?_value] at hfirst
  exact (Option.some_inj.mp hfirst).symm

end PressureStatus

/-- `pressure_status_code`. -/
def pressureStatusCode : PressureStatus → Int
  | .discovered => 0
  | .confirmed => 1
  | .accepted => 2
  | .implementing => 3
  | .available => 4
  | .verifying => 5
  | .resolved => 6
  | .duplicate => 7
  | .rejected => 8
  | .superseded => 9
  | .deferred => 10
  | .obsolete => 11
  | .conflicted => 12

@[simp]
theorem pressureStatusCode_inj {first second : PressureStatus} :
    pressureStatusCode first = pressureStatusCode second ↔ first = second := by
  cases first <;> cases second <;> decide

/-! ## The transition law -/

/-- `transition_allowed_codes`. -/
def transitionAllowedCodes (current target : Int) : Bool :=
  if current = 0 then
    target == 1 || target == 7 || target == 8 || target == 10 || target == 11
  else if current = 1 then
    target == 2 || target == 7 || target == 8 || target == 10 || target == 9 || target == 11
  else if current = 2 then
    target == 3 || target == 10 || target == 7 || target == 9 || target == 11
  else if current = 3 then
    target == 4 || target == 10 || target == 9 || target == 11
  else if current = 4 then
    target == 5 || target == 3 || target == 10 || target == 9 || target == 11
  else if current = 5 then
    target == 6 || target == 4 || target == 10 || target == 9 || target == 11
  else if current = 10 then
    target == 1 || target == 2 || target == 3 || target == 11 || target == 9
  else if current = 8 then
    target == 9 || target == 11
  else false

/-- `transition_allowed_state`. -/
def transitionAllowedState (current target : PressureStatus) : Bool :=
  transitionAllowedCodes (pressureStatusCode current) (pressureStatusCode target)

/-- `resolution_ready`. -/
def resolutionReady (affected passed failed unknown removed : Int) : Bool :=
  decide (affected > 0) && passed == affected && failed == 0 && unknown == 0 && removed == affected

/-! ## Rows -/

/-- A byte string of at most 256 bytes. -/
abbrev Identity := { bytes : List UInt8 // bytes.length ≤ 256 }

/-- The identity without bytes. -/
def Identity.empty : Identity := ⟨[], by decide⟩

structure PressureTransitionInput where
  eventIdentity : Identity
  previousEventIdentity : Identity
  fromStatus : PressureStatus
  toStatus : PressureStatus
  deriving DecidableEq

structure PressureTransitionSearch where
  candidate : PressureTransitionInput
  matchCount : Nat

structure PressureLifecycleState where
  status : PressureStatus
  previousEventIdentity : Identity
  processed : Nat
  conflicted : Bool
  failureCode : Int
  deriving DecidableEq

structure PressureQueryRow where
  initialStatus : PressureStatus
  transitions : { transitions : List PressureTransitionInput // transitions.length ≤ 256 }

/-! ## The lifecycle fold -/

/-- `bytes_equal`. -/
def bytesEqual (left right : Identity) : Bool :=
  if left.val.length ≠ right.val.length then false
  else (List.range left.val.length).foldl
    (fun same i => same && left.val[i]? == right.val[i]?) true

/-- `empty_pressure_transition`. -/
def emptyPressureTransition : PressureTransitionInput :=
  ⟨Identity.empty, Identity.empty, .discovered, .discovered⟩

/-- `include_pressure_transition`. -/
def includePressureTransition (search : PressureTransitionSearch) (edge : PressureTransitionInput)
    (previous : Identity) : PressureTransitionSearch :=
  if bytesEqual edge.previousEventIdentity previous then ⟨edge, search.matchCount + 1⟩ else search

/-- The search of `advance_pressure_lifecycle` over all transitions of the row. -/
def searchPressureTransitions (row : PressureQueryRow) (previous : Identity) :
    PressureTransitionSearch :=
  row.transitions.val.foldl
    (fun found edge => includePressureTransition found edge previous)
    ⟨emptyPressureTransition, 0⟩

/-- `advance_pressure_lifecycle`. -/
def advancePressureLifecycle (row : PressureQueryRow) (state : PressureLifecycleState) :
    PressureLifecycleState :=
  if state.conflicted || decide (state.processed ≥ row.transitions.val.length) then state
  else
    let found := searchPressureTransitions row state.previousEventIdentity
    if found.matchCount ≠ 1 then
      { state with
        conflicted := true
        failureCode := if found.matchCount > 1 then 1 else 2 }
    else if pressureStatusCode found.candidate.fromStatus ≠ pressureStatusCode state.status ∨
        transitionAllowedState state.status found.candidate.toStatus = false ∨
        found.candidate.eventIdentity.val.length = 0 then
      { state with
        conflicted := true
        failureCode :=
          if pressureStatusCode found.candidate.fromStatus ≠ pressureStatusCode state.status
          then 3 else 4 }
    else
      ⟨found.candidate.toStatus, found.candidate.eventIdentity, state.processed + 1, false, 0⟩

/-- `pressure_lifecycle_projection`. -/
def pressureLifecycleProjection (row : PressureQueryRow) : PressureLifecycleState :=
  let state := row.transitions.val.foldl
    (fun state _ => advancePressureLifecycle row state)
    ⟨row.initialStatus, Identity.empty, 0, false, 0⟩
  if state.conflicted then state
  else if state.processed ≠ row.transitions.val.length then
    { state with conflicted := true, failureCode := 2 }
  else state

/-- `pressure_lifecycle_status`. -/
def pressureLifecycleStatus (row : PressureQueryRow) : PressureStatus :=
  let lifecycle := pressureLifecycleProjection row
  if lifecycle.conflicted then .conflicted else lifecycle.status

/-! ## What one step does -/

theorem bytesEqual_iff {left right : Identity} : bytesEqual left right = true ↔ left = right := by
  have hfold : ∀ (indices : List Nat) (same : Bool),
      indices.foldl (fun same i => same && left.val[i]? == right.val[i]?) same = true ↔
        same = true ∧ ∀ i ∈ indices, left.val[i]? = right.val[i]? := by
    intro indices
    induction indices with
    | nil => simp
    | cons i indices ih =>
        intro same
        simp [ih, and_assoc]
  unfold bytesEqual
  split
  · rename_i hlength
    simp only [Bool.false_eq_true, false_iff]
    rintro rfl
    exact hlength rfl
  · rename_i hlength
    rw [ne_eq, not_not] at hlength
    rw [hfold]
    constructor
    · rintro ⟨-, hget⟩
      apply Subtype.ext
      apply List.ext_getElem? 
      intro i
      by_cases hi : i < left.val.length
      · exact hget i (List.mem_range.mpr hi)
      · rw [List.getElem?_eq_none (by omega), List.getElem?_eq_none (by omega)]
    · rintro rfl
      exact ⟨rfl, fun _ _ => rfl⟩

theorem includePressureTransition_of_eq {edge : PressureTransitionInput} {previous : Identity}
    (search : PressureTransitionSearch) (h : edge.previousEventIdentity = previous) :
    includePressureTransition search edge previous = ⟨edge, search.matchCount + 1⟩ := by
  rw [includePressureTransition, if_pos (bytesEqual_iff.mpr h)]

theorem includePressureTransition_of_ne {edge : PressureTransitionInput} {previous : Identity}
    (search : PressureTransitionSearch) (h : edge.previousEventIdentity ≠ previous) :
    includePressureTransition search edge previous = search := by
  rw [includePressureTransition, if_neg fun hequal => h (bytesEqual_iff.mp hequal)]

/-- The transitions of the row that name the identity. -/
def PressureQueryRow.candidates (row : PressureQueryRow) (previous : Identity) :
    List PressureTransitionInput :=
  row.transitions.val.filter fun edge => edge.previousEventIdentity = previous

/-- The search counts the transitions that name the identity and keeps the last. -/
theorem searchPressureTransitions_eq (row : PressureQueryRow) (previous : Identity) :
    searchPressureTransitions row previous =
      ⟨(row.candidates previous).getLast?.getD emptyPressureTransition,
        (row.candidates previous).length⟩ := by
  have hfold : ∀ (edges : List PressureTransitionInput) (found : PressureTransitionSearch),
      edges.foldl (fun found edge => includePressureTransition found edge previous) found =
        ⟨(edges.filter fun edge => edge.previousEventIdentity = previous).getLast?.getD
            found.candidate,
          found.matchCount +
            (edges.filter fun edge => edge.previousEventIdentity = previous).length⟩ := by
    intro edges
    induction edges with
    | nil => simp
    | cons edge edges ih =>
        intro found
        rw [List.foldl_cons]
        by_cases h : edge.previousEventIdentity = previous
        · rw [includePressureTransition_of_eq found h, ih, List.filter_cons_of_pos (by simpa using h),
            List.getLast?_cons, List.length_cons]
          simp only [Option.getD_some, Nat.add_assoc, Nat.add_comm 1]
        · rw [includePressureTransition_of_ne found h, ih,
            List.filter_cons_of_neg (by simpa using h)]
  rw [searchPressureTransitions, hfold, Nat.zero_add]
  rfl

/-- The status after a transition that the fold takes from the status. -/
def rowStep (status : PressureStatus) (edge : PressureTransitionInput) : Option PressureStatus :=
  if edge.fromStatus = status ∧ transitionAllowedState status edge.toStatus = true ∧
      edge.eventIdentity.val ≠ [] then
    some edge.toStatus
  else none

section Fold

variable {row : PressureQueryRow} {status next final : PressureStatus} {previous last : Identity}
  {processed : Nat} {code : Int}

/-- With one candidate that the status allows, the fold takes it. -/
theorem advancePressureLifecycle_of_step {edge : PressureTransitionInput}
    (hprocessed : processed < row.transitions.val.length)
    (hcandidates : row.candidates previous = [edge]) (hstep : rowStep status edge = some next) :
    advancePressureLifecycle row ⟨status, previous, processed, false, code⟩ =
      ⟨next, edge.eventIdentity, processed + 1, false, 0⟩ := by
  unfold rowStep at hstep
  split at hstep
  · rename_i hallowed
    obtain ⟨hfrom, hto, hidentity⟩ := hallowed
    obtain rfl := Option.some_inj.mp hstep
    have hopen : ¬ row.transitions.val.length ≤ processed := Nat.not_le.mpr hprocessed
    simp [advancePressureLifecycle, searchPressureTransitions_eq, hcandidates, hopen, hfrom, hto,
      hidentity]
  · exact absurd hstep (by simp)

/-- Any other step ends in a conflict. -/
theorem advancePressureLifecycle_cases (hprocessed : processed < row.transitions.val.length) :
    (∃ edge next, row.candidates previous = [edge] ∧ rowStep status edge = some next) ∨
      (advancePressureLifecycle row ⟨status, previous, processed, false, code⟩).conflicted =
        true := by
  have hopen : ¬ row.transitions.val.length ≤ processed := Nat.not_le.mpr hprocessed
  by_cases hcount : (row.candidates previous).length = 1
  · obtain ⟨edge, hcandidates⟩ := List.length_eq_one_iff.mp hcount
    by_cases hallowed : edge.fromStatus = status ∧
        transitionAllowedState status edge.toStatus = true ∧ edge.eventIdentity.val ≠ []
    · exact .inl ⟨edge, edge.toStatus, hcandidates, if_pos hallowed⟩
    · right
      have hrefused : edge.fromStatus ≠ status ∨
          transitionAllowedState status edge.toStatus = false ∨
          edge.eventIdentity.val = [] := by
        by_cases hfrom : edge.fromStatus = status
        · by_cases hto : transitionAllowedState status edge.toStatus = true
          · exact .inr (.inr (by
              by_contra hidentity
              exact hallowed ⟨hfrom, hto, hidentity⟩))
          · exact .inr (.inl (by simpa using hto))
        · exact .inl hfrom
      simp [advancePressureLifecycle, searchPressureTransitions_eq, hcandidates, hopen, hrefused]
  · right
    simp [advancePressureLifecycle, searchPressureTransitions_eq, hcount, hopen]

theorem iterate_advance_of_conflicted {state : PressureLifecycleState}
    (h : state.conflicted = true) (count : Nat) :
    (advancePressureLifecycle row)^[count] state = state := by
  have hfixed : advancePressureLifecycle row state = state := by
    simp [advancePressureLifecycle, h]
  exact Function.iterate_fixed hfixed count

open LinkedHistory in
/-- A walk over the row's transitions is what the fold does in as many steps. -/
theorem iterate_advance_of_walks {order : List PressureTransitionInput}
    (h : Walks PressureTransitionInput.eventIdentity PressureTransitionInput.previousEventIdentity
      rowStep row.transitions.val previous status order last final)
    (hprocessed : processed + order.length ≤ row.transitions.val.length) :
    (advancePressureLifecycle row)^[order.length] ⟨status, previous, processed, false, 0⟩ =
      ⟨final, last, processed + order.length, false, 0⟩ := by
  induction h generalizing processed with
  | stop root state => rfl
  | @advance root last state next final edge rest hcandidates hstep hrest ih =>
      rw [List.length_cons] at hprocessed ⊢
      rw [Function.iterate_succ_apply,
        advancePressureLifecycle_of_step (by omega) hcandidates hstep, ih (by omega)]
      simp only [Nat.add_assoc, Nat.add_comm 1]

open LinkedHistory in
/-- Steps that end without a conflict are a walk. -/
theorem walks_of_iterate_advance (count : Nat)
    (hprocessed : processed + count ≤ row.transitions.val.length)
    (h : ((advancePressureLifecycle row)^[count]
      ⟨status, previous, processed, false, 0⟩).conflicted = false) :
    ∃ order last final, order.length = count ∧
      Walks PressureTransitionInput.eventIdentity PressureTransitionInput.previousEventIdentity
        rowStep row.transitions.val previous status order last final := by
  induction count generalizing status previous processed with
  | zero => exact ⟨[], previous, status, rfl, .stop previous status⟩
  | succ count ih =>
      rw [Function.iterate_succ_apply] at h
      have hopen : processed < row.transitions.val.length := by omega
      obtain ⟨edge, next, hcandidates, hstep⟩ | hconflicted :=
        @advancePressureLifecycle_cases row status previous processed 0 hopen
      · rw [advancePressureLifecycle_of_step hopen hcandidates hstep] at h
        obtain ⟨order, last, final, hlength, hwalks⟩ := ih (by omega) h
        exact ⟨edge :: order, last, final, by rw [List.length_cons, hlength],
          .advance hcandidates hstep hwalks⟩
      · rw [iterate_advance_of_conflicted hconflicted, hconflicted] at h
        exact absurd h (by decide)

end Fold

open LinkedHistory in
/-- The fold over a row ends without a conflict exactly when its transitions are
walked to the end, and then in the status the walk reaches. -/
theorem pressureLifecycleProjection_iff (row : PressureQueryRow) (final : PressureStatus) :
    (pressureLifecycleProjection row).conflicted = false ∧
        (pressureLifecycleProjection row).status = final ↔
      ∃ order last, Walks PressureTransitionInput.eventIdentity
          PressureTransitionInput.previousEventIdentity rowStep row.transitions.val Identity.empty
          row.initialStatus order last final ∧
        order.length = row.transitions.val.length := by
  have hfold : row.transitions.val.foldl (fun state _ => advancePressureLifecycle row state)
      ⟨row.initialStatus, Identity.empty, 0, false, 0⟩ =
      (advancePressureLifecycle row)^[row.transitions.val.length]
        ⟨row.initialStatus, Identity.empty, 0, false, 0⟩ :=
    List.foldl_const _ _ _
  constructor
  · rintro ⟨hconflicted, hstatus⟩
    have hsteps : ((advancePressureLifecycle row)^[row.transitions.val.length]
        ⟨row.initialStatus, Identity.empty, 0, false, 0⟩).conflicted = false := by
      rw [← hfold]
      unfold pressureLifecycleProjection at hconflicted
      dsimp only at hconflicted
      split at hconflicted
      · exact hconflicted
      · rename_i h
        simpa using h
    obtain ⟨order, last, reached, hlength, hwalks⟩ :=
      walks_of_iterate_advance row.transitions.val.length (by omega) hsteps
    have hrun := @iterate_advance_of_walks row _ _ _ _ 0 _ hwalks (by omega)
    rw [hlength, ← hfold] at hrun
    have hreached : (pressureLifecycleProjection row).status = reached := by
      simp [pressureLifecycleProjection, hrun]
    exact ⟨order, last, by rw [← hstatus, hreached]; exact hwalks, hlength⟩
  · rintro ⟨order, last, hwalks, hlength⟩
    have hrun := @iterate_advance_of_walks row _ _ _ _ 0 _ hwalks (by omega)
    rw [hlength, ← hfold] at hrun
    simp [pressureLifecycleProjection, hrun]

end MncsCommons.Pressure
