/-
# Independent trust domains

The replay of a history for a record and a domain reads the events about them
and skips the others.  Skipping is not free of effect: the digest of a skipped
event joins the digests already seen, and an event whose digest was seen is
dropped.  As long as events with one digest are about the same record in the
same domain, the digests of skipped events never meet those of replayed ones,
and the replay is that of the events that concern the domain (`replay_filter`).
-/

import MncsCommons.Protocol.Events

namespace MncsCommons.Protocol

open MncsCommons.Data

/-- Events with one digest are about the same record in the same domain, as they
are when distinct contents carry distinct digests. -/
def DigestsSeparate (events : List Fields) : Prop :=
  ∀ event ∈ events, ∀ other ∈ events, digestOf event = digestOf other →
    targetDigest event = targetDigest other ∧ eventDomain event = eventDomain other

/-- Where two replays stand, apart from the digests they have seen. -/
def Replay.SameOutcome (first second : Replay) : Prop :=
  first.state = second.state ∧ first.applied = second.applied ∧
    first.diagnostics = second.diagnostics

theorem concerns_eq_false_iff {target domain : String} {event : Fields} :
    concerns target domain event = false ↔
      targetDigest event ≠ some target ∨ eventDomain event ≠ some domain := by
  rw [concerns, Bool.and_eq_false_iff, decide_eq_false_iff_not, decide_eq_false_iff_not]

/-- An event about others is seen and nothing more. -/
theorem replayStep_of_not_concerns {target domain : String} {event : Fields}
    (h : concerns target domain event = false) (replay : Replay) :
    (replayStep target domain replay event).SameOutcome replay := by
  rw [replayStep]
  split
  · exact ⟨rfl, rfl, rfl⟩
  · rw [if_pos (concerns_eq_false_iff.mp h)]
    exact ⟨rfl, rfl, rfl⟩

/-- An event has the same effect on two replays that have both seen its digest or
both not. -/
theorem Replay.SameOutcome.step {target domain : String} {event : Fields} {first second : Replay}
    (h : first.SameOutcome second)
    (hseen : digestOf event ∈ first.seen ↔ digestOf event ∈ second.seen) :
    (replayStep target domain first event).SameOutcome (replayStep target domain second event) := by
  obtain ⟨state, applied, diagnostics, seen⟩ := first
  obtain ⟨state', applied', diagnostics', seen'⟩ := second
  obtain ⟨rfl, rfl, rfl⟩ := h
  have hcontains : seen.contains (digestOf event) = seen'.contains (digestOf event) := by
    rw [Bool.eq_iff_iff, List.contains_iff_mem, List.contains_iff_mem]
    exact hseen
  simp only [replayStep, hcontains]
  split
  · exact ⟨rfl, rfl, rfl⟩
  · split
    · exact ⟨rfl, rfl, rfl⟩
    · split
      · exact ⟨rfl, rfl, rfl⟩
      · split <;> exact ⟨rfl, rfl, rfl⟩

/-- The digest of an event that concerns a domain was seen exactly when it was
seen among the events that concern the domain. -/
theorem DigestsSeparate.mem_filter_iff {target domain : String} {events : List Fields}
    {event : Fields} (h : DigestsSeparate (events ++ [event]))
    (hconcerns : concerns target domain event = true) :
    digestOf event ∈ events.map digestOf ↔
      digestOf event ∈ (events.filter (concerns target domain)).map digestOf := by
  simp only [List.mem_map, List.mem_filter]
  constructor
  · rintro ⟨other, hother, hdigest⟩
    obtain ⟨htarget, hdomain⟩ := h other (by simp [hother]) event (by simp) hdigest
    exact ⟨other, ⟨hother, by rw [concerns, htarget, hdomain]; exact hconcerns⟩, hdigest⟩
  · rintro ⟨other, ⟨hother, -⟩, hdigest⟩
    exact ⟨other, hother, hdigest⟩

/-- Removing the events about others leaves the outcome of a replay. -/
theorem replay_filter {target domain initial : String} {events : List Fields}
    (h : DigestsSeparate events) :
    (replay target domain initial events).SameOutcome
      (replay target domain initial (events.filter (concerns target domain))) := by
  induction events using List.reverseRecOn with
  | nil => exact ⟨rfl, rfl, rfl⟩
  | append_singleton events event ih =>
      have hbefore := ih fun first hfirst second hsecond =>
        h first (by simp [hfirst]) second (by simp [hsecond])
      rw [replay_append, List.filter_append]
      by_cases hconcerns : concerns target domain event = true
      · rw [List.filter_cons_of_pos hconcerns, List.filter_nil, replay_append]
        refine hbefore.step ?_
        rw [mem_seen_replay, mem_seen_replay]
        exact h.mem_filter_iff hconcerns
      · rw [List.filter_cons_of_neg hconcerns, List.filter_nil, List.append_nil]
        obtain ⟨hstate, happlied, hdiagnostics⟩ :=
          replayStep_of_not_concerns (Bool.not_eq_true _ ▸ hconcerns)
            (replay target domain initial events)
        exact ⟨hstate.trans hbefore.1, happlied.trans hbefore.2.1,
          hdiagnostics.trans hbefore.2.2⟩

/-- The projection of a domain reads only the events that concern it. -/
theorem deriveForDomain_filter (record : Fields) {events : List Fields} (domain : String)
    (h : DigestsSeparate events) :
    deriveForDomain record events domain =
      deriveForDomain record (events.filter (concerns (digestOf record) domain)) domain := by
  rw [deriveForDomain, deriveForDomain]
  cases initialState record with
  | error error => rfl
  | ok initial =>
      obtain ⟨hstate, happlied, hdiagnostics⟩ :=
        @replay_filter (digestOf record) domain initial _ h
      simp only [bind, Except.bind, hstate, happlied, hdiagnostics]

/-! ## The view without a domain -/

theorem mem_domainsOf_iff {record : Fields} {events : List Fields} {domain : String} :
    domain ∈ domainsOf record events ↔
      ∃ event ∈ events, concerns (digestOf record) domain event = true := by
  rw [domainsOf, mem_sortedBy, List.mem_eraseDups, List.mem_filterMap]
  refine exists_congr fun event => and_congr_right fun _ => ?_
  by_cases htarget : targetDigest event = some (digestOf record)
  · simp [concerns, htarget]
  · simp [concerns, htarget]

theorem nodup_domainsOf (record : Fields) (events : List Fields) :
    (domainsOf record events).Nodup := by
  rw [domainsOf, (sortedBy_perm id _).nodup_iff]
  exact nodup_eraseDups _

/-- Results of a computation for each of some keys. -/
theorem mapM_pair_eq_ok {keys : List String} {compute : String → Py LifecycleView}
    {views : List (String × LifecycleView)}
    (h : (keys.mapM fun key => do return (key, ← compute key)) = (.ok views : Py _)) :
    views.map Prod.fst = keys ∧ ∀ view ∈ views, compute view.1 = .ok view.2 := by
  induction keys generalizing views with
  | nil =>
      cases h
      exact ⟨rfl, by simp⟩
  | cons key keys ih =>
      rw [List.mapM_cons] at h
      obtain ⟨head, hhead, h⟩ := Py.bind_eq_ok_iff.mp h
      obtain ⟨view, hview, hpair⟩ := Py.bind_eq_ok_iff.mp hhead
      obtain ⟨rest, hrest, h⟩ := Py.bind_eq_ok_iff.mp h
      cases hpair
      cases h
      obtain ⟨hkeys, hviews⟩ := ih hrest
      refine ⟨by rw [List.map_cons, hkeys], ?_⟩
      simpa [hview] using hviews

/-- The view without a domain names the state of every domain that has events
about the record, each once. -/
theorem domainStates_of_deriveLifecycle {record : Fields} {events : List Fields}
    {view : LifecycleView} (h : deriveLifecycle record events none = .ok view) :
    (view.currentState = LifecycleState.proposed.value ∨ view.currentState = domainScopedState) ∧
      (view.domainStates.map Prod.fst).Nodup ∧
      ∀ domain state, (domain, state) ∈ view.domainStates ↔
        (∃ event ∈ events, concerns (digestOf record) domain event = true) ∧
          ∃ own, deriveLifecycle record events (some domain) = .ok own ∧
            own.currentState = state := by
  rw [deriveLifecycle] at h
  cases hviews : domainViews record events with
  | error error => rw [hviews] at h; cases h
  | ok views =>
      rw [hviews] at h
      cases h
      obtain ⟨hkeys, hown⟩ := mapM_pair_eq_ok hviews
      refine ⟨?_, ?_, fun domain state => ?_⟩
      · dsimp only
        split
        · exact .inl rfl
        · exact .inr rfl
      · rw [List.map_map, show (Prod.fst ∘ fun view : String × LifecycleView =>
          (view.1, view.2.currentState)) = Prod.fst from rfl, hkeys]
        exact nodup_domainsOf record events
      · rw [← mem_domainsOf_iff, ← hkeys]
        simp only [List.mem_map, Prod.mk.injEq, deriveLifecycle]
        constructor
        · rintro ⟨view, hview, rfl, rfl⟩
          exact ⟨⟨view, hview, rfl⟩, view.2, hown view hview, rfl⟩
        · rintro ⟨⟨view, hview, rfl⟩, own, hderive, rfl⟩
          rw [hown view hview] at hderive
          exact ⟨view, hview, rfl, by rw [Except.ok.inj hderive]⟩

/-- Histories that agree on the events about a record in a domain give it the
same view, and the view without a domain accepts nothing: it lists the state of
each domain. -/
theorem domains_independent (record : Fields) {events others : List Fields}
    (hevents : DigestsSeparate events) (hothers : DigestsSeparate others) :
    (∀ domain, events.filter (concerns (digestOf record) domain) =
        others.filter (concerns (digestOf record) domain) →
      deriveLifecycle record events (some domain) =
        deriveLifecycle record others (some domain)) ∧
      ∀ view, deriveLifecycle record events none = .ok view →
        (view.currentState = LifecycleState.proposed.value ∨
          view.currentState = domainScopedState) ∧
        (view.domainStates.map Prod.fst).Nodup ∧
        ∀ domain state, (domain, state) ∈ view.domainStates ↔
          (∃ event ∈ events, concerns (digestOf record) domain event = true) ∧
            ∃ own, deriveLifecycle record events (some domain) = .ok own ∧
              own.currentState = state := by
  refine ⟨fun domain hsame => ?_, fun view hview => domainStates_of_deriveLifecycle hview⟩
  rw [deriveLifecycle, deriveLifecycle, deriveForDomain_filter record domain hevents,
    deriveForDomain_filter record domain hothers, hsame]

/-- An event that reproduces the record `r` in a domain. -/
def reproducedIn (digest domain : String) : Fields :=
  [("contentDigest", .str digest), ("target", .obj [("contentDigest", .str "r")]),
    ("transition", .obj [("from", .str LifecycleState.proposed.value),
      ("to", .str LifecycleState.reproduced.value)]),
    ("authority", .obj [("domain", .str domain)])]

/-- The view of the domain `a` with and without an event of the domain `b`. -/
theorem other_domain_ignored :
    deriveLifecycle [("contentDigest", .str "r")] [reproducedIn "1" "b", reproducedIn "2" "a"]
        (some "a") =
      deriveLifecycle [("contentDigest", .str "r")] [reproducedIn "2" "a"] (some "a") := by
  refine (domains_independent [("contentDigest", .str "r")] ?_ ?_).1 "a" ?_
  · unfold DigestsSeparate
    decide
  · unfold DigestsSeparate
    decide
  · decide

end MncsCommons.Protocol
