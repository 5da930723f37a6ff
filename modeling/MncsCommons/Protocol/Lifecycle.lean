/-
# Lifecycle events

Lifecycle events are append-only and belong to a trust domain.  The state of a
record in a domain is a replay of the events that target it there: an event that
is not an allowed transition from the state reached so far is reported and
skipped, and a repeated digest is skipped silently.

The replay is a left fold, so appending an event to a history takes one more
`replayStep` from where the history ended (`replay_append`).
-/

import MncsCommons.Protocol.Stability
import Mathlib.Data.List.Induction

namespace MncsCommons.Protocol

open MncsCommons.Data

def unreviewedState : String := "unreviewed"

def domainScopedState : String := "domain-scoped"

/-- The allowed transitions. -/
def LifecycleState.allowed : LifecycleState → List LifecycleState
  | .proposed => [.reproduced, .disputed, .expired, .rejected, .withdrawn]
  | .reproduced => [.verified, .disputed, .expired, .rejected, .withdrawn]
  | .verified => [.accepted, .disputed, .superseded, .expired, .withdrawn]
  | .accepted => [.superseded, .expired, .withdrawn]
  | .disputed => [.reproduced, .verified, .superseded, .expired, .rejected, .withdrawn]
  | .superseded => []
  | .expired => []
  | .rejected => [.superseded, .withdrawn]
  | .withdrawn => []

/-- The states that may follow the named one. -/
def allowedTransitions (state : String) : List String :=
  match LifecycleState.ofString? state with
  | none => []
  | some state => state.allowed.map LifecycleState.value

/-- Whether the string names a lifecycle state. -/
def isLifecycleState (state : String) : Bool := (LifecycleState.ofString? state).isSome

/-- `str(authority.get("domain", ""))` of an event whose authority is an object. -/
def authorityDomain (event : Fields) : String :=
  match (Fields.get event "authority").obj? with
  | some authority => ((Fields.get? authority "domain").getD (.str "")).pyStr
  | none => ""

/-- The diagnostics of a transition from one state to another. -/
def validateTransition (current target : String) (event : Fields) : List Diagnostic :=
  let stale : Bool := !(Fields.get event "transition").obj?.any fun transition =>
    (Fields.get transition "from").str? = some current
  (if isLifecycleState current then [] else
    [⟨"UNKNOWN_CURRENT_STATE", "current", "current lifecycle state is unknown"⟩]) ++
  (if isLifecycleState target then [] else
    [⟨"UNKNOWN_TARGET_STATE", "transition.to", "target lifecycle state is unknown"⟩]) ++
  (if (allowedTransitions current).contains target then [] else
    [⟨"FORBIDDEN_TRANSITION", "transition", current ++ " -> " ++ target ++ " is not allowed"⟩]) ++
  (if stale then
    [⟨"STALE_TRANSITION", "transition.from", "expected current state " ++ current⟩] else []) ++
  (if Str.isBlank (authorityDomain event) then
    [⟨"AUTHORITY_DOMAIN_REQUIRED", "authority.domain",
      "every transition needs an explicit domain"⟩] else [])

/-- The trust domain of an event, without surrounding white space. -/
def eventDomain (event : Fields) : Option String :=
  match (Fields.get event "authority").obj? with
  | none => none
  | some authority =>
      let domain := Str.strip (Fields.get authority "domain").pyStr
      if domain = "" then none else some domain

/-- The digest an event targets. -/
def targetDigest (event : Fields) : Option String :=
  match (Fields.get event "target").obj? with
  | none => none
  | some target =>
      let value := Fields.get target "contentDigest"
      if value.truthy then some value.pyStr else none

/-- The digest an envelope names, or its own when it names none. -/
def digestOf (value : Fields) : String :=
  let digest := Fields.get value "contentDigest"
  if digest.truthy then digest.pyStr else canonicalDigest value

/-- Where a replay stands. -/
structure Replay where
  state : String
  applied : List String
  diagnostics : List Diagnostic
  seen : List String

/-- Take one event for a record and a domain. -/
def replayStep (target domain : String) (replay : Replay) (event : Fields) : Replay :=
  let digest := digestOf event
  if replay.seen.contains digest then replay
  else
    let replay := { replay with seen := digest :: replay.seen }
    if targetDigest event ≠ some target ∨ eventDomain event ≠ some domain then replay
    else
      match ((Fields.get? event "transition").getD (.obj [])).obj? with
      | none =>
          { replay with
            diagnostics := replay.diagnostics ++
              [⟨"INVALID_TRANSITION", "transition", "transition must be an object"⟩] }
      | some transition =>
          let next := ((Fields.get? transition "to").getD (.str "")).pyStr
          let report := validateTransition replay.state next event
          if report ≠ [] then { replay with diagnostics := replay.diagnostics ++ report }
          else { replay with state := next, applied := replay.applied ++ [digest] }

/-- Replay a history for a record and a domain. -/
def replay (target domain initial : String) (events : List Fields) : Replay :=
  events.foldl (replayStep target domain) ⟨initial, [], [], []⟩

/-- A projection of a history, of one trust domain or of all. -/
structure LifecycleView where
  currentState : String
  events : List String
  diagnostics : List Diagnostic
  domain : Option String
  domainStates : List (String × String)
  deriving DecidableEq

/-- The state to append from: a view without a domain has none. -/
def LifecycleView.transitionState (view : LifecycleView) : String :=
  if view.domain.isSome then view.currentState else unreviewedState

/-- `str(record.get("lifecycle", {}).get("initialState", "proposed"))`. -/
def initialState (record : Fields) : Py String := do
  let lifecycle := (Fields.get? record "lifecycle").getD (.obj [])
  return (← getAttr lifecycle "initialState" (.str LifecycleState.proposed.value)).pyStr

/-- The projection of one domain. -/
def deriveForDomain (record : Fields) (events : List Fields) (domain : String) :
    Py LifecycleView := do
  let state ← initialState record
  let final := replay (digestOf record) domain state events
  return ⟨final.state, final.applied, final.diagnostics, some domain, []⟩

/-- The domains that have events about a record, sorted. -/
def domainsOf (record : Fields) (events : List Fields) : List String :=
  sortedBy id ((events.filterMap fun event =>
    if targetDigest event = some (digestOf record) then eventDomain event else none).eraseDups)

/-- The projection of every domain that has events about a record. -/
def domainViews (record : Fields) (events : List Fields) : Py (List (String × LifecycleView)) :=
  (domainsOf record events).mapM fun domain => do
    return (domain, ← deriveForDomain record events domain)

/-- Project a history on one domain, or on all of them without turning one
domain's acceptance into truth. -/
def deriveLifecycle (record : Fields) (events : List Fields) (domain : Option String) :
    Py LifecycleView :=
  match domain with
  | some domain => deriveForDomain record events domain
  | none => do
      let views ← domainViews record events
      let state := if views = [] then LifecycleState.proposed.value else domainScopedState
      return ⟨state, views.flatMap fun view => view.2.events,
        views.flatMap fun view => view.2.diagnostics, none,
        views.map fun view => (view.1, view.2.currentState)⟩

/-! ## Replaying -/

theorem replay_append (target domain initial : String) (events : List Fields) (event : Fields) :
    replay target domain initial (events ++ [event]) =
      replayStep target domain (replay target domain initial events) event := by
  simp [replay]

/-- The digests a replay has seen are those of the history. -/
theorem mem_seen_replay {target domain initial : String} {events : List Fields} {digest : String} :
    digest ∈ (replay target domain initial events).seen ↔ digest ∈ events.map digestOf := by
  induction events using List.reverseRecOn with
  | nil => simp [replay]
  | append_singleton events event ih =>
      rw [replay_append, List.map_append, List.mem_append, ← ih, replayStep]
      generalize replay target domain initial events = before
      by_cases hseen : before.seen.contains (digestOf event) = true
      · rw [if_pos hseen]
        simp only [List.contains_iff_mem] at hseen
        simp only [List.map_cons, List.map_nil, List.mem_singleton]
        exact ⟨.inl, fun h => h.elim id fun h => h ▸ hseen⟩
      · rw [if_neg hseen]
        dsimp only
        split
        · simp [or_comm]
        · split
          · simp [or_comm]
          · split <;> simp [or_comm]

end MncsCommons.Protocol
