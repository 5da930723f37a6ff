/-
# Replayed requests

Which requests a run of `handle` records and dispatches.  The ids recorded after
a sequence of calls are those it recorded, remembered in order
(`handleAll_recent`), so a served id is refused as long as fewer than
`recentLimit` ids are recorded after it.  It is served again after that many.
-/

import MncsCommons.Service.Requests

namespace MncsCommons.Service

open MncsCommons.Data MncsCommons.Protocol

/-! ## One call -/

/-- When a well-formed request expires. -/
def Call.deadline (call : Call) : Option Int := (readDeadline call.request).toOption

/-- A call records its id when it is well formed, in time and not remembered. -/
def Call.Records (call : Call) (recent : List String) : Prop :=
  (∃ expires, call.deadline = some expires ∧ call.now < expires) ∧ call.requestId ∉ recent

instance (call : Call) (recent : List String) : Decidable (call.Records recent) :=
  decidable_of_iff ((call.deadline.any fun expires => decide (call.now < expires)) = true ∧
    call.requestId ∉ recent) (by simp [Call.Records, Option.any_eq_true])

/-- The role of a call may ask for its operation. -/
def Call.Permitted (call : Call) : Prop :=
  call.role ∈ ["consumer", "operator"] ∧
    ((Fields.get call.request "operation").pyStr ∈ operatorOperations → call.role = "operator")

/-- The operation of a call is dispatched. -/
def Call.Served (call : Call) (recent : List String) : Prop :=
  ∃ operation arguments after, screen call recent = .ok (.served operation arguments, after)

theorem screen_of_deadline {call : Call} {expires : Int} (h : call.deadline = some expires)
    (recent : List String) : screen call recent = .ok (judge call recent expires) := by
  rw [Call.deadline] at h
  cases hread : readDeadline call.request with
  | error fault =>
      rw [hread] at h
      cases h
  | ok instant =>
      rw [hread] at h
      obtain rfl := Option.some.inj h
      rw [screen, hread]
      rfl

theorem screen_of_no_deadline {call : Call} (h : call.deadline = none) (recent : List String) :
    ∃ fault, screen call recent = .error fault := by
  rw [Call.deadline] at h
  cases hread : readDeadline call.request with
  | error fault => exact ⟨fault, by rw [screen, hread]; rfl⟩
  | ok instant =>
      rw [hread] at h
      cases h

theorem Call.permitted_iff {call : Call} : call.Permitted ↔
    ["consumer", "operator"].contains call.role = true ∧
      (operatorOperations.contains (Fields.get call.request "operation").pyStr &&
        call.role ≠ "operator") = false := by
  rw [Call.Permitted, List.contains_iff_mem, Bool.and_eq_false_imp, List.contains_iff_mem]
  simp

/-- What a call in time with a new id becomes. -/
theorem judge_of_records {call : Call} {recent : List String} {expires : Int}
    (hintime : call.now < expires) (hnew : call.requestId ∉ recent) :
    (judge call recent expires).2 = remember recentLimit recent call.requestId ∧
      ((∃ operation arguments, (judge call recent expires).1 = .served operation arguments) ↔
        call.Permitted) := by
  rw [judge, if_neg (not_le.mpr hintime), if_neg (by simpa using hnew), Call.permitted_iff]
  dsimp only
  generalize remember recentLimit recent call.requestId = remembered
  cases ["consumer", "operator"].contains call.role with
  | false => exact ⟨rfl, ⟨fun ⟨_, _, hserved⟩ => (nomatch hserved), fun h => (nomatch h.1)⟩⟩
  | true =>
      cases operatorOperations.contains (Fields.get call.request "operation").pyStr &&
          call.role ≠ "operator" with
      | true => exact ⟨rfl, ⟨fun ⟨_, _, hserved⟩ => (nomatch hserved), fun h => (nomatch h.2)⟩⟩
      | false => exact ⟨rfl, ⟨fun _ => ⟨rfl, rfl⟩, fun _ => ⟨_, _, rfl⟩⟩⟩

/-- A call that does not record its id is refused, and leaves the memory as it is. -/
theorem judge_of_not_records {call : Call} {recent : List String} {expires : Int}
    (h : ¬ (call.now < expires ∧ call.requestId ∉ recent)) :
    ∃ code message, judge call recent expires = (.refused code message, recent) := by
  rw [judge]
  by_cases hexpired : expires ≤ call.now
  · rw [if_pos hexpired]
    exact ⟨_, _, rfl⟩
  · have hknown : call.requestId ∈ recent := by
      by_contra hnew
      exact h ⟨not_le.mp hexpired, hnew⟩
    rw [if_neg hexpired, if_pos (by simpa using hknown)]
    exact ⟨_, _, rfl⟩

/-- A served call records its id. -/
theorem Call.Served.records {call : Call} {recent : List String} (h : call.Served recent) :
    call.Records recent := by
  obtain ⟨operation, arguments, after, hscreen⟩ := h
  cases hdeadline : call.deadline with
  | none =>
      obtain ⟨fault, hraises⟩ := screen_of_no_deadline hdeadline recent
      rw [hraises] at hscreen
      cases hscreen
  | some expires =>
      by_cases hrecords : call.now < expires ∧ call.requestId ∉ recent
      · exact ⟨⟨expires, hdeadline, hrecords.1⟩, hrecords.2⟩
      · obtain ⟨code, message, hjudge⟩ := judge_of_not_records hrecords
        rw [screen_of_deadline hdeadline, hjudge] at hscreen
        cases hscreen

/-- A call that records its id is served when its role permits it. -/
theorem Call.Records.served {call : Call} {recent : List String} (h : call.Records recent)
    (hpermitted : call.Permitted) : call.Served recent := by
  obtain ⟨⟨expires, hdeadline, hintime⟩, hnew⟩ := h
  obtain ⟨operation, arguments, hserved⟩ := (judge_of_records hintime hnew).2.mpr hpermitted
  refine ⟨operation, arguments, (judge call recent expires).2, ?_⟩
  rw [screen_of_deadline hdeadline, ← hserved]

section Runs

variable {σ : Type} (dispatch : String → Fields → σ → Except Fault Fields × σ)

/-- The ids remembered after a call. -/
theorem handle_recent (call : Call) (service : CommonsService σ) :
    (handle dispatch call service).2.recent =
      if call.Records service.recent then remember recentLimit service.recent call.requestId
      else service.recent := by
  have hafter : ∀ outcome, screen call service.recent = .ok outcome →
      (handle dispatch call service).2.recent = outcome.2 := by
    rintro ⟨admission, after⟩ hscreen
    rw [handle, hscreen]
    cases admission <;> rfl
  cases hdeadline : call.deadline with
  | none =>
      obtain ⟨fault, hraises⟩ := screen_of_no_deadline hdeadline service.recent
      rw [if_neg fun h => ?_, handle, hraises]
      obtain ⟨⟨expires, hexpires, -⟩, -⟩ := h
      rw [hdeadline] at hexpires
      cases hexpires
  | some expires =>
      have hscreen := hafter (judge call service.recent expires)
        (screen_of_deadline hdeadline service.recent)
      by_cases hrecords : call.now < expires ∧ call.requestId ∉ service.recent
      · rw [if_pos ⟨⟨expires, hdeadline, hrecords.1⟩, hrecords.2⟩, hscreen,
          (judge_of_records hrecords.1 hrecords.2).1]
      · obtain ⟨code, message, hjudge⟩ := judge_of_not_records hrecords
        rw [if_neg fun h => ?_, hscreen, hjudge]
        obtain ⟨⟨instant, hinstant, hintime⟩, hnew⟩ := h
        obtain rfl := Option.some.inj (hdeadline.symm.trans hinstant)
        exact hrecords ⟨hintime, hnew⟩

/-! ## Runs -/

/-- The ids that a sequence of calls records, in order. -/
def recordedIds : List Call → List String → List String
  | [], _ => []
  | call :: calls, recent =>
      if call.Records recent then
        call.requestId :: recordedIds calls (remember recentLimit recent call.requestId)
      else recordedIds calls recent

theorem handleAll_append (calls more : List Call) (service : CommonsService σ) :
    handleAll dispatch (calls ++ more) service =
      handleAll dispatch more (handleAll dispatch calls service) :=
  List.foldl_append

/-- The memory after a sequence of calls. -/
theorem handleAll_recent (calls : List Call) (service : CommonsService σ) :
    (handleAll dispatch calls service).recent =
      (recordedIds calls service.recent).foldl (remember recentLimit) service.recent := by
  induction calls generalizing service with
  | nil => rfl
  | cons call calls ih =>
      have hstep := handle_recent dispatch call service
      rw [handleAll, List.foldl_cons, ← handleAll, ih, hstep, recordedIds]
      by_cases hrecords : call.Records service.recent
      · rw [if_pos hrecords, if_pos hrecords, List.foldl_cons]
      · rw [if_neg hrecords, if_neg hrecords]

theorem length_handleAll_recent_le (calls : List Call) {service : CommonsService σ}
    (h : service.recent.length ≤ recentLimit) :
    (handleAll dispatch calls service).recent.length ≤ recentLimit := by
  rw [handleAll_recent, foldl_remember _ h, List.length_drop]
  omega

/-- A service that has recorded nothing. -/
def CommonsService.fresh (store : σ) : CommonsService σ := ⟨[], store⟩

/-- No operation is dispatched twice for an id before the request first served with it
expires. -/
def ServedOnce (store : σ) (calls : List Call) : Prop :=
  ∀ before first middle second after expires,
    calls = before ++ first :: (middle ++ second :: after) →
    first.requestId = second.requestId → first.deadline = some expires →
    first.Served (handleAll dispatch before (.fresh store)).recent →
    second.Served (handleAll dispatch (before ++ first :: middle) (.fresh store)).recent →
    expires ≤ second.now

/-- Between a served request and another one with its id, received before the first
expires, fewer than `recentLimit` ids are recorded. -/
def WithinMemory (store : σ) (calls : List Call) : Prop :=
  ∀ before first middle second after expires,
    calls = before ++ first :: (middle ++ second :: after) →
    first.requestId = second.requestId → first.deadline = some expires →
    second.now < expires →
    (recordedIds middle (handleAll dispatch (before ++ [first]) (.fresh store)).recent).length <
      recentLimit

/-- A service that remembers the ids of the requests in time serves each once. -/
theorem served_once_within_memory (store : σ) (calls : List Call)
    (h : WithinMemory dispatch store calls) : ServedOnce dispatch store calls := by
  intro before first middle second after expires hcalls hid hdeadline hfirst hsecond
  by_contra hintime
  have hroom := h before first middle second after expires hcalls hid hdeadline
    (not_le.mp hintime)
  have hlimit := length_handleAll_recent_le dispatch before
    (show (CommonsService.fresh store).recent.length ≤ recentLimit from Nat.zero_le _)
  have hrecent : (handleAll dispatch (before ++ [first]) (.fresh store)).recent =
      remember recentLimit (handleAll dispatch before (.fresh store)).recent first.requestId := by
    rw [handleAll_append]
    exact (handle_recent dispatch first _).trans (if_pos hfirst.records)
  have hrun : (handleAll dispatch (before ++ first :: middle) (.fresh store)).recent =
      (handleAll dispatch middle
        (handleAll dispatch (before ++ [first]) (.fresh store))).recent := by
    rw [List.append_cons, handleAll_append]
  refine hsecond.records.2 ?_
  rw [hrun, handleAll_recent, hrecent, ← hid]
  rw [hrecent] at hroom
  exact mem_foldl_remember hlimit hroom

theorem length_recordedIds_le (calls : List Call) (recent : List String) :
    (recordedIds calls recent).length ≤ calls.length := by
  induction calls generalizing recent with
  | nil => exact Nat.le_refl 0
  | cons call calls ih =>
      rw [recordedIds, List.length_cons]
      by_cases hrecords : call.Records recent
      · rw [if_pos hrecords, List.length_cons]
        exact Nat.succ_le_succ (ih _)
      · rw [if_neg hrecords]
        exact Nat.le_succ_of_le (ih _)

/-- A run that is no longer than the memory stays within it. -/
theorem withinMemory_of_length (store : σ) {calls : List Call}
    (h : calls.length ≤ recentLimit) : WithinMemory dispatch store calls := by
  rintro before first middle second after expires rfl - - -
  refine lt_of_le_of_lt (length_recordedIds_le _ _) (lt_of_lt_of_le ?_ h)
  simp only [List.length_append, List.length_cons]
  omega

/-- Calls in time with new and different ids are all recorded. -/
theorem recordedIds_eq {calls : List Call} {recent : List String}
    (hintime : ∀ call ∈ calls, ∃ expires, call.deadline = some expires ∧ call.now < expires)
    (hnew : ∀ call ∈ calls, call.requestId ∉ recent)
    (hnodup : (calls.map Call.requestId).Nodup) :
    recordedIds calls recent = calls.map Call.requestId := by
  induction calls generalizing recent with
  | nil => rfl
  | cons call calls ih =>
      obtain ⟨hfirst, hrest⟩ := List.nodup_cons.mp hnodup
      rw [recordedIds, if_pos ⟨hintime call List.mem_cons_self, hnew call List.mem_cons_self⟩,
        List.map_cons, ih (fun other hother => hintime other (List.mem_cons_of_mem _ hother)) ?_
          hrest]
      intro other hother hremembered
      rw [remember] at hremembered
      rcases List.mem_append.mp (List.mem_of_mem_drop hremembered) with hold | hcall
      · exact hnew other (List.mem_cons_of_mem _ hother) hold
      · exact hfirst (List.mem_singleton.mp hcall ▸ List.mem_map_of_mem hother)

/-- After `recentLimit` other ids an id is forgotten. -/
theorem forgotten {calls : List Call} {service : CommonsService σ} {id : String}
    (hlimit : service.recent.length ≤ recentLimit)
    (hcalls : recentLimit ≤ (recordedIds calls service.recent).length)
    (hid : id ∉ recordedIds calls service.recent) :
    id ∉ (handleAll dispatch calls service).recent := by
  rw [handleAll_recent]
  exact not_mem_foldl_remember hlimit hcalls hid

end Runs

/-! ## More requests than the memory holds -/

/-- A request for the status of the service. -/
def statusRequest (id : String) : Fields :=
  [("schemaVersion", .str serviceRequest), ("requestId", .str id),
    ("operation", .str "service.status"), ("arguments", .obj []),
    ("createdAt", .str "2026-01-01T00:00:00Z"), ("expiresAt", .str "2026-01-01T00:00:30Z")]

/-- 2026-01-01T00:00:00Z. -/
def start : Int := 63902822400000000

/-- Such a request, received some microseconds after its creation. -/
def statusCall (micros : Nat) (id : String) : Call :=
  ⟨start + micros, "2026-01-01T00:00:01Z", "operator", statusRequest id⟩

theorem require_bind {α : Type} {condition : Bool} {code message : String}
    {next : Unit → Except Fault α} (h : condition = true) :
    (require condition code message >>= next) = next () := by
  rw [require, if_pos h]
  rfl

theorem readDeadline_statusRequest {id : String} (h : isRequestId id.toList = true) :
    readDeadline (statusRequest id) = .ok (start + requestTtl) := by
  have hcreated : timestamp (Fields.get (statusRequest id) "createdAt") "createdAt" = .ok start := by
    have hread : timestamp (.str "2026-01-01T00:00:00Z") "createdAt" = .ok start := by decide +kernel
    exact hread
  have hexpires : timestamp (Fields.get (statusRequest id) "expiresAt") "expiresAt" =
      .ok (start + requestTtl) := by
    have hread : timestamp (.str "2026-01-01T00:00:30Z") "expiresAt" = .ok (start + requestTtl) := by
      decide +kernel
    exact hread
  have hsize : (canonicalJson (.obj [])).byteSize ≤ maxArgumentsBytes := by decide +kernel
  have hvalid : validateRequest (statusRequest id) = .ok () := by
    rw [validateRequest]
    refine (require_bind ?_).trans ((require_bind ?_).trans ((require_bind ?_).trans
      ((require_bind ?_).trans ((require_bind ?_).trans ?_))))
    · have hkeys : Fields.keys (statusRequest id) = requestMembers := rfl
      have hall : requestMembers.all requestMembers.contains = true := by decide +kernel
      rw [hkeys, hall]
      exact decide_eq_true (rfl : Fields.get (statusRequest id) "schemaVersion" = _)
    · exact h
    · have hoperation : (consumerOperations ++ operatorOperations).contains "service.status" = true :=
        by decide +kernel
      exact hoperation
    · rfl
    · exact decide_eq_true hsize
    · rw [hcreated, hexpires]
      rfl
  rw [readDeadline, hvalid]
  exact hexpires

/-- Sixty-four characters of request ids. -/
def idAlphabet : List Char :=
  "ABCDEFGHIJKLMNOPQRSTUVWXYZabcdefghijklmnopqrstuvwxyz0123456789._".toList

/-- Two such characters after an `r`. -/
def pairId (pair : Char × Char) : String := String.ofList ['r', pair.1, pair.2]

/-- As many ids as the service remembers. -/
def otherIds : List String := (idAlphabet ×ˢ idAlphabet).map pairId

theorem length_otherIds : otherIds.length = recentLimit := by
  rw [otherIds, List.length_map, List.length_product]
  decide +kernel

theorem nodup_otherIds : otherIds.Nodup := by
  have hnodup : idAlphabet.Nodup := by decide +kernel
  refine (hnodup.product hnodup).map fun first second h => ?_
  obtain ⟨-, hfirst, hsecond, -⟩ : 'r' = 'r' ∧ first.1 = second.1 ∧ first.2 = second.2 ∧ True := by
    simpa [pairId] using h
  exact Prod.ext hfirst hsecond

theorem isRequestId_otherIds {id : String} (h : id ∈ otherIds) : isRequestId id.toList = true := by
  have hall : idAlphabet.all isIdChar = true := by decide +kernel
  have hchars := List.all_eq_true.mp hall
  have hmark : isIdChar 'r' = true ∧ 'r'.isAlphanum = true := by decide
  obtain ⟨pair, hpair, rfl⟩ := List.mem_map.mp h
  obtain ⟨hfirst, hsecond⟩ := List.mem_product.mp hpair
  simp [pairId, isRequestId, hchars _ hfirst, hchars _ hsecond, hmark]

/-- The calls of a sequence of ids, one microsecond after the other. -/
def statusCalls (offset : Nat) (ids : List String) : List Call :=
  ids.mapIdx fun index id => statusCall (offset + index) id

theorem mem_statusCalls {offset : Nat} {ids : List String} {call : Call}
    (h : call ∈ statusCalls offset ids) :
    ∃ index, index < ids.length ∧ ∃ id ∈ ids, call = statusCall (offset + index) id := by
  obtain ⟨index, hindex, rfl⟩ := List.mem_mapIdx.mp h
  exact ⟨index, hindex, _, List.getElem_mem hindex, rfl⟩

theorem map_requestId_statusCalls (offset : Nat) (ids : List String) :
    (statusCalls offset ids).map Call.requestId = ids := by
  refine List.ext_getElem (by simp [statusCalls]) fun index _ _ => ?_
  simp only [statusCalls, List.getElem_map, List.getElem_mapIdx]
  rfl

theorem pairwise_now_statusCalls (offset : Nat) (ids : List String) :
    ((statusCalls offset ids).map Call.now).Pairwise (· < ·) := by
  rw [List.pairwise_iff_getElem]
  intro i j hi hj hij
  simp only [statusCalls, List.getElem_map, List.getElem_mapIdx, statusCall]
  omega

/-- A status request within thirty seconds is recorded when its id is new. -/
theorem intime_statusCall {micros : Nat} {id : String} (hid : isRequestId id.toList = true)
    (hmicros : micros < 30000000) :
    ∃ expires, (statusCall micros id).deadline = some expires ∧
      (statusCall micros id).now < expires := by
  refine ⟨start + requestTtl, ?_, ?_⟩
  · rw [Call.deadline, statusCall, readDeadline_statusRequest hid]
    rfl
  · have httl : requestTtl = 30000000 := rfl
    rw [statusCall, httl]
    exact Int.add_lt_add_left (by exact_mod_cast hmicros) _

theorem permitted_statusCall (micros : Nat) (id : String) : (statusCall micros id).Permitted := by
  have hoperation : "service.status" ∉ operatorOperations := by decide +kernel
  exact ⟨by simp [statusCall], fun h => absurd h hoperation⟩

theorem other_not_mem : "a" ∉ otherIds := by
  intro hmem
  obtain ⟨pair, -, hpair⟩ := List.mem_map.mp hmem
  have hlists := congrArg String.toList hpair
  simp [pairId] at hlists

/-- A request that comes back after `recentLimit` others, in time, is served again. -/
theorem forgotten_request_served_again :
    ¬ ∀ calls : List Call, (calls.map Call.now).Pairwise (· < ·) →
      ServedOnce (fun _ _ store => (.ok [], store)) () calls := by
  intro hall
  have hid : isRequestId "a".toList = true := by decide
  set first := statusCall 0 "a" with hfirst
  set second := statusCall (1 + recentLimit) "a" with hsecond
  have hcalls : statusCalls 0 ("a" :: (otherIds ++ ["a"])) =
      [] ++ first :: (statusCalls 1 otherIds ++ second :: []) := by
    simp [statusCalls, List.mapIdx_cons, List.mapIdx_append, length_otherIds, hfirst, hsecond,
      Nat.add_comm]
  have hrecords : first.Records [] := ⟨intime_statusCall hid (by decide), by simp⟩
  -- the memory between the two
  let dispatch : String → Fields → Unit → Except Fault Fields × Unit := fun _ _ store => (.ok [], store)
  have hmemory : (handleAll dispatch [first] (.fresh ())).recent = ["a"] := by
    refine (handle_recent dispatch first (.fresh ())).trans ((if_pos hrecords).trans ?_)
    simp [remember, CommonsService.fresh, recentLimit, hfirst, statusCall, Call.requestId]
    rfl
  have hothers : recordedIds (statusCalls 1 otherIds)
      (handleAll dispatch [first] (.fresh ())).recent = otherIds := by
    have hids := map_requestId_statusCalls 1 otherIds
    rw [recordedIds_eq, hids]
    · intro call hcall
      obtain ⟨index, hindex, id, hmem, rfl⟩ := mem_statusCalls hcall
      rw [length_otherIds, recentLimit] at hindex
      exact intime_statusCall (isRequestId_otherIds hmem) (by omega)
    · intro call hcall hremembered
      rw [hmemory, List.mem_singleton] at hremembered
      have hmem := List.mem_map_of_mem (f := Call.requestId) hcall
      rw [hids, hremembered] at hmem
      exact other_not_mem hmem
    · rw [hids]
      exact nodup_otherIds
  have hforgotten : "a" ∉ (handleAll dispatch ([] ++ first :: statusCalls 1 otherIds)
      (.fresh ())).recent := by
    rw [List.nil_append, ← List.singleton_append, handleAll_append]
    refine forgotten dispatch ?_ ?_ ?_
    · rw [hmemory]
      decide
    · rw [hothers, length_otherIds]
    · rw [hothers]
      exact other_not_mem
  have hagain := hall _ (pairwise_now_statusCalls 0 _) [] first (statusCalls 1 otherIds) second []
    (start + requestTtl) hcalls rfl ?_ (hrecords.served (permitted_statusCall _ _))
    (Call.Records.served ⟨intime_statusCall hid (by decide), hforgotten⟩ (permitted_statusCall _ _))
  · exact absurd hagain (by decide)
  · rw [hfirst, Call.deadline, statusCall, readDeadline_statusRequest hid]
    rfl

/-- A request that comes back at once is served once. -/
theorem served_once_at_once :
    (statusCall 0 "a").Served [] ∧
      ServedOnce (fun _ _ store => (.ok [], store)) () [statusCall 0 "a", statusCall 1 "a"] :=
  ⟨Call.Records.served ⟨intime_statusCall (by decide) (by decide), by simp⟩
      (permitted_statusCall _ _),
    served_once_within_memory _ _ _ (withinMemory_of_length _ _ (by decide))⟩

end MncsCommons.Service
