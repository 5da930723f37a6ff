/-
# Histories linked by their predecessors

An unordered collection of events in which each event has a key and names the
key of the event before it.  A history is an order of the whole collection that
starts at a given root, follows the links and is allowed by a step function.

There are two ways to look for one.  `Linked` relates an order to the state it
replays to, and `Accepted` asks for an order of all events.  `Walks` follows the
links from the root instead and only goes on where exactly one event names the
last key.  With distinct keys, none of them the root, a walk of full length
finds the history when there is one: the predecessors along a linked order are
the root and all keys but the last, so they are distinct, and no event names the
last key.
-/

import Mathlib.Data.List.Nodup
import Mathlib.Data.List.Perm.Subperm

namespace MncsCommons.Data.LinkedHistory

variable {ε κ σ : Type}

/-! ## Linked orders -/

section Linked

variable (key prev : ε → κ) (step : σ → ε → Option σ)

/-- Replaying the events in the order given, each from the key and the state
that the one before it leaves, ends at the last key and state. -/
inductive Linked : κ → σ → List ε → κ → σ → Prop where
  | nil (root : κ) (state : σ) : Linked root state [] root state
  | cons {root last : κ} {state next final : σ} {event : ε} {rest : List ε}
      (hprev : prev event = root) (hstep : step state event = some next)
      (hrest : Linked (key event) next rest last final) :
      Linked root state (event :: rest) last final

/-- Some order of all the events is linked and replays to the final state. -/
def Accepted (root : κ) (state : σ) (events : List ε) (final : σ) : Prop :=
  ∃ order last, order.Perm events ∧ Linked key prev step root state order last final

end Linked

section Linked

variable {key prev : ε → κ} {step : σ → ε → Option σ} {root last : κ} {state final : σ}
  {order events : List ε}

/-- The predecessors named along a linked order are the root and every key but
the last one. -/
theorem Linked.map_prev (h : Linked key prev step root state order last final) :
    order.map prev ++ [last] = root :: order.map key := by
  induction h with
  | nil root state => rfl
  | cons hprev hstep hrest ih => simp [hprev, ih]

theorem Linked.map_prev_nodup (h : Linked key prev step root state order last final)
    (hkeys : (order.map key).Nodup) (hroot : root ∉ order.map key) :
    (order.map prev).Nodup ∧ last ∉ order.map prev := by
  have hnodup : (order.map prev ++ [last]).Nodup := by
    rw [h.map_prev]
    exact List.nodup_cons.mpr ⟨hroot, hkeys⟩
  rw [← List.concat_eq_append, List.nodup_concat] at hnodup
  exact ⟨hnodup.2, hnodup.1⟩

/-- The first event names the root. -/
theorem Linked.prev_getElem_zero (h : Linked key prev step root state order last final)
    (hlength : 0 < order.length) : prev order[0] = root := by
  cases h with
  | nil => simp at hlength
  | cons hprev hstep hrest => exact hprev

/-- Every further event names the key of the one before it. -/
theorem Linked.prev_getElem_succ (h : Linked key prev step root state order last final) {i : Nat}
    (hlength : i + 1 < order.length) : prev order[i + 1] = key order[i] := by
  induction h generalizing i with
  | nil root state => simp at hlength
  | cons hprev hstep hrest ih =>
      cases i with
      | zero =>
          simp only [List.getElem_cons_succ, List.getElem_cons_zero]
          exact hrest.prev_getElem_zero (by simpa using hlength)
      | succ i =>
          simp only [List.getElem_cons_succ]
          exact ih (by simpa using hlength)

/-- A linked order meets no event twice: going back from two places with one
event reaches the root, which is no key. -/
theorem Linked.nodup (h : Linked key prev step root state order last final)
    (hsubset : order ⊆ events) (hkeys : (events.map key).Nodup)
    (hroot : root ∉ events.map key) : order.Nodup := by
  have hinj := List.inj_on_of_nodup_map hkeys
  have hmem : ∀ i (hi : i < order.length), order[i] ∈ events := fun i hi =>
    hsubset (List.getElem_mem hi)
  rw [List.nodup_iff_pairwise_ne, List.pairwise_iff_getElem]
  intro i
  induction i with
  | zero =>
      intro j hi hj hlt heq
      obtain ⟨j, rfl⟩ := Nat.exists_eq_succ_of_ne_zero (Nat.pos_iff_ne_zero.mp hlt)
      have hkey : key order[j] = root := by
        rw [← h.prev_getElem_succ hj, ← h.prev_getElem_zero hi, heq]
      exact hroot (hkey ▸ List.mem_map_of_mem (hmem j (by omega)))
  | succ i ih =>
      intro j hi hj hlt heq
      obtain ⟨j, rfl⟩ := Nat.exists_eq_succ_of_ne_zero (show j ≠ 0 by omega)
      have hkey : key order[i] = key order[j] := by
        rw [← h.prev_getElem_succ hi, ← h.prev_getElem_succ hj, heq]
      exact ih j (by omega) (by omega) (by omega)
        (hinj (hmem i (by omega)) (hmem j (by omega)) hkey)

/-- A linked order of as many events as there are is an order of all of them. -/
theorem Linked.perm (h : Linked key prev step root state order last final)
    (hsubset : order ⊆ events) (hkeys : (events.map key).Nodup)
    (hroot : root ∉ events.map key) (hlength : order.length = events.length) :
    order.Perm events :=
  (List.subperm_of_subset (h.nodup hsubset hkeys hroot) hsubset).perm_of_length_le (Nat.le_of_eq hlength.symm)

end Linked

/-! ## Walks -/

section Walks

variable [DecidableEq κ] (key prev : ε → κ) (step : σ → ε → Option σ) (events : List ε)

/-- Following the links from the root, with exactly one event to take at each
step. -/
inductive Walks : κ → σ → List ε → κ → σ → Prop where
  | stop (root : κ) (state : σ) : Walks root state [] root state
  | advance {root last : κ} {state next final : σ} {event : ε} {rest : List ε}
      (hcandidates : events.filter (fun other => prev other = root) = [event])
      (hstep : step state event = some next)
      (hrest : Walks (key event) next rest last final) :
      Walks root state (event :: rest) last final

end Walks

section Walks

variable [DecidableEq κ] {key prev : ε → κ} {step : σ → ε → Option σ} {events order : List ε}
  {root last : κ} {state final : σ}

theorem Walks.linked (h : Walks key prev step events root state order last final) :
    Linked key prev step root state order last final := by
  induction h with
  | stop root state => exact .nil root state
  | @advance root last state next final event rest hcandidates hstep hrest ih =>
      have hmem : event ∈ events.filter fun other => prev other = root := by
        rw [hcandidates]
        exact List.mem_singleton_self event
      exact .cons (by simpa using (List.mem_filter.mp hmem).2) hstep ih

theorem Walks.subset (h : Walks key prev step events root state order last final) :
    order ⊆ events := by
  induction h with
  | stop root state => exact List.nil_subset events
  | @advance root last state next final event rest hcandidates hstep hrest ih =>
      have hmem : event ∈ events.filter fun other => prev other = root := by
        rw [hcandidates]
        exact List.mem_singleton_self event
      exact List.cons_subset.mpr ⟨(List.mem_filter.mp hmem).1, ih⟩

/-- There is at most one walk of a given length. -/
theorem Walks.unique {order' : List ε} {last' : κ} {final' : σ}
    (h : Walks key prev step events root state order last final)
    (h' : Walks key prev step events root state order' last' final')
    (hlength : order.length = order'.length) :
    order = order' ∧ last = last' ∧ final = final' := by
  induction h generalizing order' with
  | stop root state =>
      cases h' with
      | stop => exact ⟨rfl, rfl, rfl⟩
      | advance hcandidates hstep hrest => simp at hlength
  | advance hcandidates hstep hrest ih =>
      cases h' with
      | stop => simp at hlength
      | advance hcandidates' hstep' hrest' =>
          obtain rfl := List.singleton_inj.mp (hcandidates.symm.trans hcandidates')
          obtain rfl := Option.some_inj.mp (hstep.symm.trans hstep')
          obtain ⟨rfl, rfl, rfl⟩ := ih hrest' (by simpa using hlength)
          exact ⟨rfl, rfl, rfl⟩

/-- Where all predecessors differ, an event is the only one with its own. -/
theorem filter_prev_eq_singleton {event : ε} (hperm : order.Perm events)
    (hprevs : (order.map prev).Nodup) (hmem : event ∈ order) :
    events.filter (fun other => prev other = prev event) = [event] := by
  classical
  have hinj := List.inj_on_of_nodup_map hprevs
  have hfilter : order.filter (fun other => prev other = prev event) = [event] := by
    have hcongr : order.filter (fun other => prev other = prev event) =
        order.filter (fun other => other = event) := by
      apply List.filter_congr
      intro other hother
      rw [decide_eq_decide]
      exact ⟨hinj hother hmem, congrArg prev⟩
    rw [hcongr, List.filter_eq,
      List.count_eq_one_of_mem (List.Nodup.of_map prev hprevs) hmem, List.replicate_one]
  have hcandidates := hperm.symm.filter fun other => decide (prev other = prev event)
  rw [hfilter] at hcandidates
  exact List.perm_singleton.mp hcandidates

/-- A linked order of all events is walked. -/
theorem Linked.walks (h : Linked key prev step root state order last final)
    (hperm : order.Perm events) (hkeys : (events.map key).Nodup)
    (hroot : root ∉ events.map key) :
    Walks key prev step events root state order last final := by
  have hprevs : (order.map prev).Nodup :=
    (h.map_prev_nodup ((hperm.map key).nodup_iff.mpr hkeys)
      fun hmem => hroot ((hperm.map key).mem_iff.mp hmem)).1
  -- The links are followed along the rest of the order; the candidates are all events.
  have hwalks : ∀ (rest : List ε) (root : κ) (state : σ), rest ⊆ order →
      Linked key prev step root state rest last final →
      Walks key prev step events root state rest last final := by
    intro rest
    induction rest with
    | nil =>
        intro root state hsubset h
        cases h with
        | nil => apply Walks.stop
    | cons event rest ih =>
        intro root state hsubset h
        obtain ⟨hevent, hrest⟩ := List.cons_subset.mp hsubset
        cases h with
        | cons hprev hstep h =>
            rw [← hprev]
            exact .advance (filter_prev_eq_singleton hperm hprevs hevent) hstep (ih _ _ hrest h)
  exact hwalks order root state (List.Subset.refl order) h

/-- A walk over as many events as there are is the one accepted history. -/
theorem accepted_iff_walks (hkeys : (events.map key).Nodup) (hroot : root ∉ events.map key) :
    Accepted key prev step root state events final ↔
      ∃ order last, Walks key prev step events root state order last final ∧
        order.length = events.length := by
  constructor
  · rintro ⟨order, last, hperm, hlinked⟩
    exact ⟨order, last, hlinked.walks hperm hkeys hroot, hperm.length_eq⟩
  · rintro ⟨order, last, hwalks, hlength⟩
    exact ⟨order, last, hwalks.linked.perm hwalks.subset hkeys hroot hlength, hwalks.linked⟩

/-- After a walk over all events, no event names the last key. -/
theorem Walks.filter_last_eq_nil (h : Walks key prev step events root state order last final)
    (hkeys : (events.map key).Nodup) (hroot : root ∉ events.map key)
    (hlength : order.length = events.length) :
    events.filter (fun other => prev other = last) = [] := by
  have hperm := h.linked.perm h.subset hkeys hroot hlength
  have hlast := (h.linked.map_prev_nodup ((hperm.map key).nodup_iff.mpr hkeys)
    fun hmem => hroot ((hperm.map key).mem_iff.mp hmem)).2
  rw [List.filter_eq_nil_iff]
  intro event hevent heq
  have hprev : prev event = last := by simpa using heq
  exact hlast (hprev ▸ List.mem_map_of_mem (hperm.mem_iff.mpr hevent))

/-- An accepted collection replays to one state only. -/
theorem Accepted.unique {final' : σ} (h : Accepted key prev step root state events final)
    (h' : Accepted key prev step root state events final') (hkeys : (events.map key).Nodup)
    (hroot : root ∉ events.map key) : final = final' := by
  obtain ⟨order, last, hwalks, hlength⟩ := (accepted_iff_walks hkeys hroot).mp h
  obtain ⟨order', last', hwalks', hlength'⟩ := (accepted_iff_walks hkeys hroot).mp h'
  exact (hwalks.unique hwalks' (hlength.trans hlength'.symm)).2.2

end Walks

/-! ## Other keys

The same events with other keys and predecessors, or read through a map. -/

section Reading

variable {key prev : ε → κ} {step : σ → ε → Option σ} {root last : κ} {state final : σ}
  {order events : List ε}

/-- Every predecessor of an accepted collection is the root or a key of it. -/
theorem Accepted.prev_mem (h : Accepted key prev step root state events final) {event : ε}
    (hevent : event ∈ events) : prev event = root ∨ prev event ∈ events.map key := by
  obtain ⟨order, last, hperm, hlinked⟩ := h
  have hmem : prev event ∈ order.map prev ++ [last] :=
    List.mem_append_left [last] (List.mem_map_of_mem (hperm.mem_iff.mpr hevent))
  rw [hlinked.map_prev, List.mem_cons, (hperm.map key).mem_iff] at hmem
  exact hmem

/-- The last event of a linked order steps to the final state. -/
theorem Linked.getLast_step (h : Linked key prev step root state order last final)
    (hne : order ≠ []) : ∃ before, step before (order.getLast hne) = some final := by
  induction h with
  | nil => exact absurd rfl hne
  | @cons root last state next final event rest hprev hstep hrest ih =>
      by_cases hrestne : rest = []
      · subst hrestne
        cases hrest with
        | nil => exact ⟨state, hstep⟩
      · rw [List.getLast_cons hrestne]
        exact ih hrestne

/-- An order that is linked by some keys is linked by all keys that match
wherever those do. -/
theorem Linked.relink {κ' : Type} {key' prev' : ε → κ'} {step' : σ → ε → Option σ} {root' : κ'}
    (h : Linked key prev step root state order last final)
    (hroot : ∀ event ∈ order, prev event = root → prev' event = root')
    (hlink : ∀ event ∈ order, ∀ other ∈ order, prev event = key other → prev' event = key' other)
    (hsteps : ∀ event ∈ order, ∀ state, step state event = step' state event) :
    ∃ last', Linked key' prev' step' root' state order last' final := by
  induction h generalizing root' with
  | nil root state => exact ⟨root', .nil root' state⟩
  | @cons root last state next final event rest hprev hstep hrest ih =>
      obtain ⟨last', hlinked⟩ := ih
        (fun other hother heq => hlink other (List.mem_cons_of_mem event hother) event
          List.mem_cons_self heq)
        (fun other hother third hthird => hlink other (List.mem_cons_of_mem event hother) third
          (List.mem_cons_of_mem event hthird))
        fun other hother => hsteps other (List.mem_cons_of_mem event hother)
      rw [hsteps event List.mem_cons_self] at hstep
      exact ⟨last', .cons (hroot event List.mem_cons_self hprev) hstep hlinked⟩

theorem Accepted.relink {κ' : Type} {key' prev' : ε → κ'} {step' : σ → ε → Option σ} {root' : κ'}
    (h : Accepted key prev step root state events final)
    (hroot : ∀ event ∈ events, prev event = root → prev' event = root')
    (hlink : ∀ event ∈ events, ∀ other ∈ events,
      prev event = key other → prev' event = key' other)
    (hsteps : ∀ event ∈ events, ∀ state, step state event = step' state event) :
    Accepted key' prev' step' root' state events final := by
  obtain ⟨order, last, hperm, hlinked⟩ := h
  obtain ⟨last', hlinked'⟩ := hlinked.relink
    (fun event hevent => hroot event (hperm.mem_iff.mp hevent))
    (fun event hevent other hother => hlink event (hperm.mem_iff.mp hevent) other
      (hperm.mem_iff.mp hother))
    fun event hevent => hsteps event (hperm.mem_iff.mp hevent)
  exact ⟨order, last', hperm, hlinked'⟩

/-- States seen through a view that the steps respect. -/
theorem linked_view {σ' : Type} {view : σ → σ'} {step' : σ' → ε → Option σ'} {final' : σ'}
    (hstep : ∀ event ∈ order, ∀ state, step' (view state) event = (step state event).map view) :
    Linked key prev step' root (view state) order last final' ↔
      ∃ final, final' = view final ∧ Linked key prev step root state order last final := by
  induction order generalizing root state with
  | nil =>
      constructor
      · intro h
        cases h with
        | nil => exact ⟨state, rfl, by apply Linked.nil⟩
      · rintro ⟨final, rfl, h⟩
        cases h with
        | nil => apply Linked.nil
  | cons event rest ih =>
      have hrest : ∀ other ∈ rest, ∀ state, step' (view state) other = (step state other).map view :=
        fun other hother => hstep other (List.mem_cons_of_mem event hother)
      constructor
      · intro h
        cases h with
        | cons hprev hnext h =>
            rw [hstep event List.mem_cons_self, Option.map_eq_some_iff] at hnext
            obtain ⟨next, hnext, rfl⟩ := hnext
            obtain ⟨final, hfinal, hlinked⟩ := (ih hrest).mp h
            exact ⟨final, hfinal, .cons hprev hnext hlinked⟩
      · rintro ⟨final, rfl, h⟩
        cases h with
        | cons hprev hnext h =>
            refine .cons hprev ?_ ((ih hrest).mpr ⟨final, rfl, h⟩)
            rw [hstep event List.mem_cons_self, hnext, Option.map_some]

theorem accepted_view {σ' : Type} {view : σ → σ'} {step' : σ' → ε → Option σ'} {final' : σ'}
    (hstep : ∀ event ∈ events, ∀ state, step' (view state) event = (step state event).map view) :
    Accepted key prev step' root (view state) events final' ↔
      ∃ final, final' = view final ∧ Accepted key prev step root state events final := by
  have horder : ∀ order : List ε, order.Perm events →
      ∀ event ∈ order, ∀ state, step' (view state) event = (step state event).map view :=
    fun order hperm event hevent => hstep event (hperm.mem_iff.mp hevent)
  constructor
  · rintro ⟨order, last, hperm, hlinked⟩
    obtain ⟨final, hfinal, hlinked⟩ := (linked_view (horder order hperm)).mp hlinked
    exact ⟨final, hfinal, order, last, hperm, hlinked⟩
  · rintro ⟨final, rfl, order, last, hperm, hlinked⟩
    exact ⟨order, last, hperm, (linked_view (horder order hperm)).mpr ⟨final, rfl, hlinked⟩⟩

/-- The order of a collection does not matter. -/
theorem accepted_perm {events' : List ε} (hperm : events.Perm events') :
    Accepted key prev step root state events final ↔
      Accepted key prev step root state events' final := by
  constructor
  · rintro ⟨order, last, horder, hlinked⟩
    exact ⟨order, last, horder.trans hperm, hlinked⟩
  · rintro ⟨order, last, horder, hlinked⟩
    exact ⟨order, last, horder.trans hperm.symm, hlinked⟩

variable {ε' : Type} {read : ε' → ε}

theorem linked_map {order : List ε'} :
    Linked key prev step root state (order.map read) last final ↔
      Linked (fun event => key (read event)) (fun event => prev (read event))
        (fun state event => step state (read event)) root state order last final := by
  induction order generalizing root state with
  | nil =>
      constructor
      · intro h
        cases h with
        | nil => apply Linked.nil
      · intro h
        cases h with
        | nil => apply Linked.nil
  | cons event rest ih =>
      constructor
      · intro h
        cases h with
        | cons hprev hstep hrest => exact .cons hprev hstep (ih.mp hrest)
      · intro h
        cases h with
        | cons hprev hstep hrest => exact .cons hprev hstep (ih.mpr hrest)

/-- A collection of readings is accepted as the collection that is read. -/
theorem accepted_map {events : List ε'} :
    Accepted key prev step root state (events.map read) final ↔
      Accepted (fun event => key (read event)) (fun event => prev (read event))
        (fun state event => step state (read event)) root state events final := by
  constructor
  · rintro ⟨order, last, hperm, hlinked⟩
    have hcomp := (congrFun (congrFun (List.eq_map_comp_perm read) order) events).mpr hperm
    obtain ⟨order', rfl, hperm'⟩ := hcomp
    exact ⟨order', last, hperm', linked_map.mp hlinked⟩
  · rintro ⟨order, last, hperm, hlinked⟩
    exact ⟨order.map read, last, hperm.map read, linked_map.mpr hlinked⟩

end Reading

end MncsCommons.Data.LinkedHistory
