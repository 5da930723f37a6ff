/-
# Lawful histories

A valid event names a target, a domain and the two states of its transition.  A
history applies to a record in a domain when its replay reports nothing and
applies every event that concerns them.  Appending an event with a new digest
keeps this exactly when the event concerns others or is an allowed transition
from the state the replay has reached (`applies_append_iff`).
-/

import MncsCommons.Protocol.Lifecycle

namespace MncsCommons.Protocol

open MncsCommons.Data

/-! ## The parts of an event -/

/-- What a valid event says. -/
structure EventParts (event : Fields) (target domain source next : String) : Prop where
  named : ∃ fields, Fields.get event "target" = .obj fields ∧
    Fields.get fields "contentDigest" = .str target
  named_ne : target ≠ ""
  authority : ∃ fields, Fields.get event "authority" = .obj fields ∧
    Fields.get fields "domain" = .str domain
  nonblank : Str.isBlank domain = false
  transition : ∃ fields, Fields.get event "transition" = .obj fields ∧
    Fields.get fields "from" = .str source ∧ Fields.get fields "to" = .str next

theorem isText_eq_true_iff {value : Json} :
    isText value = true ↔ ∃ s, value = .str s ∧ Str.isBlank s = false := by
  cases value <;> simp [isText]

theorem exists_parts_of_validateEvent {event : Fields} (h : validateEvent event = .ok []) :
    ∃ target domain source next, EventParts event target domain source next := by
  have hevent := (validateEvent_eq_nil_iff.mp h).1
  rw [eventDiagnostics, concatChecks_eq_nil_iff] at hevent
  simp only [List.forall_mem_cons] at hevent
  obtain ⟨-, -, -, -, -, htarget, htransition, hauthority, -, -⟩ := hevent
  obtain ⟨targetFields, htargetFields, htarget⟩ := checkObject_eq_nil_iff.mp htarget
  obtain ⟨transitionFields, htransitionFields, htransition⟩ :=
    checkObject_eq_nil_iff.mp htransition
  obtain ⟨authorityFields, hauthorityFields, hauthority⟩ := checkObject_eq_nil_iff.mp hauthority
  simp only [concatChecks_eq_nil_iff, List.forall_mem_cons, reportUnlessIn_eq_nil_iff,
    requireString_eq_nil_iff] at htarget htransition hauthority
  obtain ⟨htext, -⟩ := htarget
  obtain ⟨⟨source, -, hsource⟩, ⟨next, -, hnext⟩, -⟩ := htransition
  obtain ⟨hdomain, -⟩ := hauthority
  obtain ⟨target, htarget, hnonempty⟩ := isText_eq_true_iff.mp htext
  obtain ⟨domain, hdomain, hnonblank⟩ := isText_eq_true_iff.mp hdomain
  refine ⟨target, domain, source, next, ⟨targetFields, htargetFields, htarget⟩, ?_,
    ⟨authorityFields, hauthorityFields, hdomain⟩, hnonblank,
    ⟨transitionFields, htransitionFields, hsource, hnext⟩⟩
  rintro rfl
  exact absurd hnonempty (by decide)

namespace EventParts

variable {event : Fields} {target domain source next : String}

/-- An event with the same members up to the order of keys says the same. -/
theorem of_reads {other : Fields} (h : EventParts event target domain source next)
    (hreads : ∀ key ∈ ["target", "authority", "transition"],
      Fields.get other key = (Fields.get event key).sortKeys) :
    EventParts other target domain source next := by
  have hget : ∀ {fields : Fields} {key s : String}, Fields.get fields key = .str s →
      Fields.get (Fields.sortKeys fields) key = .str s := by
    intro fields key s hs
    rw [Fields.get_sortKeys, hs, Json.sortKeys_str]
  have hobj : ∀ {key : String} {fields : Fields}, key ∈ ["target", "authority", "transition"] →
      Fields.get event key = .obj fields →
        Fields.get other key = .obj (Fields.sortKeys fields) := by
    intro key fields hkey hfields
    rw [hreads key hkey, hfields, Json.sortKeys_obj_eq]
  obtain ⟨⟨targetFields, htargetFields, htarget⟩, hne,
    ⟨authorityFields, hauthorityFields, hdomain⟩, hblank,
    ⟨transitionFields, htransitionFields, hsource, hnext⟩⟩ := h
  exact ⟨⟨_, hobj (by simp) htargetFields, hget htarget⟩, hne,
    ⟨_, hobj (by simp) hauthorityFields, hget hdomain⟩, hblank,
    ⟨_, hobj (by simp) htransitionFields, hget hsource, hget hnext⟩⟩

protected theorem sortKeys (h : EventParts event target domain source next) :
    EventParts (Fields.sortKeys event) target domain source next :=
  h.of_reads fun key _ => Fields.get_sortKeys event key

protected theorem canonFields (h : EventParts event target domain source next) :
    EventParts (canonFields event) target domain source next := by
  refine h.of_reads fun key hkey => get_canonFields_of_inert ?_ event
  revert key
  decide

theorem targetDigest_eq (h : EventParts event target domain source next) :
    targetDigest event = some target := by
  obtain ⟨fields, hfields, htarget⟩ := h.named
  simp [targetDigest, hfields, htarget, Json.obj?, Json.truthy, h.named_ne]

theorem authorityDomain_eq (h : EventParts event target domain source next) :
    authorityDomain event = domain := by
  obtain ⟨fields, hfields, hdomain⟩ := h.authority
  simp [authorityDomain, hfields, Fields.get?_of_get hdomain, Json.obj?]

/-- The domain of the event is the one it spells, without surrounding white space. -/
theorem eventDomain_eq_strip (h : EventParts event target domain source next)
    (hne : Str.strip domain ≠ "") : eventDomain event = some (Str.strip domain) := by
  obtain ⟨fields, hfields, hdomain⟩ := h.authority
  simp [eventDomain, hfields, hdomain, hne, Json.obj?]

/-- A domain without surrounding white space is the domain of the event. -/
theorem eventDomain_eq (h : EventParts event target domain source next)
    (hstrip : Str.strip domain = domain) : eventDomain event = some domain := by
  have hne : domain ≠ "" := by
    rintro rfl
    exact absurd h.nonblank (by decide)
  rw [h.eventDomain_eq_strip (by rwa [hstrip]), hstrip]

/-- The replay reads the same next state as the check. -/
theorem next_eq (h : EventParts event target domain source next) :
    ∃ transition, ((Fields.get? event "transition").getD (.obj [])).obj? = some transition ∧
      ((Fields.get? transition "to").getD (.str "")).pyStr = next := by
  obtain ⟨fields, hfields, -, hnext⟩ := h.transition
  refine ⟨fields, ?_, ?_⟩
  · rw [Fields.get?_of_get hfields (by simp)]
    rfl
  · rw [Fields.get?_of_get hnext (by simp)]
    rfl

/-- The check of a transition reads only the parts. -/
theorem validateTransition_congr {other : Fields}
    (h : EventParts event target domain source next)
    (hother : EventParts other target domain source next) (current state : String) :
    validateTransition current state event = validateTransition current state other := by
  obtain ⟨fields, hfields, hfrom, -⟩ := h.transition
  obtain ⟨fields', hfields', hfrom', -⟩ := hother.transition
  simp [validateTransition, h.authorityDomain_eq, hother.authorityDomain_eq, hfields, hfields',
    hfrom, hfrom', Json.obj?]

end EventParts

/-! ## Histories -/

/-- Whether an event is about a record in a domain. -/
def concerns (target domain : String) (event : Fields) : Bool :=
  targetDigest event = some target && eventDomain event = some domain

/-- A history applies to a record in a domain: nothing is reported, and every
event that concerns them is applied, in order. -/
structure Applies (target domain : String) (events : List Fields) : Prop where
  diagnostics : (replay target domain LifecycleState.proposed.value events).diagnostics = []
  applied : (replay target domain LifecycleState.proposed.value events).applied =
    (events.filter (concerns target domain)).map digestOf

theorem applies_nil (target domain : String) : Applies target domain [] := ⟨rfl, rfl⟩

/-- One more event with a new digest. -/
theorem applies_append_iff {target domain : String} {events : List Fields} {event : Fields}
    {eventTarget eventDomain source next : String}
    (hparts : EventParts event eventTarget eventDomain source next)
    (hnew : digestOf event ∉ events.map digestOf) (h : Applies target domain events) :
    Applies target domain (events ++ [event]) ↔
      (concerns target domain event = true →
        validateTransition (replay target domain LifecycleState.proposed.value events).state next
          event = []) := by
  obtain ⟨transition, htransition, hnext⟩ := hparts.next_eq
  have hseen : (replay target domain LifecycleState.proposed.value events).seen.contains
      (digestOf event) = false := by
    rw [← Bool.not_eq_true, List.contains_iff_mem, mem_seen_replay]
    exact hnew
  obtain ⟨hdiagnostics, happlied⟩ := h
  have hstep := replay_append target domain LifecycleState.proposed.value events event
  rw [replayStep, hseen, if_neg Bool.false_ne_true] at hstep
  by_cases hconcerns : concerns target domain event = true
  · have hmatch : ¬ (targetDigest event ≠ some target ∨ Protocol.eventDomain event ≠ some domain) := by
      simpa [concerns] using hconcerns
    dsimp only at hstep
    rw [if_neg hmatch, htransition] at hstep
    dsimp only at hstep
    rw [hnext] at hstep
    rw [imp_iff_right hconcerns]
    by_cases hvalid : validateTransition
        (replay target domain LifecycleState.proposed.value events).state next event = []
    · rw [hvalid, if_neg (not_not_intro rfl)] at hstep
      refine iff_of_true ⟨by rw [hstep]; exact hdiagnostics, ?_⟩ hvalid
      rw [hstep]
      simp [happlied, List.filter_append, hconcerns]
    · rw [if_pos hvalid] at hstep
      refine iff_of_false (fun happlies => hvalid ?_) hvalid
      have hreport := happlies.diagnostics
      rw [hstep] at hreport
      exact (List.append_eq_nil_iff.mp hreport).2
  · have hmatch : targetDigest event ≠ some target ∨ Protocol.eventDomain event ≠ some domain := by
      rw [concerns, Bool.and_eq_true, decide_eq_true_eq, decide_eq_true_eq, not_and_or] at hconcerns
      exact hconcerns
    dsimp only at hstep
    rw [if_pos hmatch] at hstep
    refine iff_of_true ⟨by rw [hstep]; exact hdiagnostics, ?_⟩ fun hyes => absurd hyes hconcerns
    rw [hstep]
    simp [happlied, List.filter_append, hconcerns]

end MncsCommons.Protocol
