/-
# Accepted and rejected calls

`add` either raises before it changes anything, finds the entry stored, or
commits it (`add_apply`).  `Admitted` collects what the checks have established
when a commit starts.
-/

import MncsCommons.Store.Trace
import Mathlib.Algebra.Order.BigOperators.Group.List

namespace MncsCommons.Store

open MncsCommons.Data MncsCommons.Protocol MncsCommons.Exec

/-! ## Candidates -/

theorem readBack_eq {value : Fields} (h : (Json.obj value).wf = true) :
    readBack value = canonFields value := by
  rw [readBack, loads_canonicalJson h, canon_obj]
  rfl

theorem wf_canonFields {value : Fields} (h : (Json.obj value).wf = true) :
    (Json.obj (canonFields value)).wf = true := by
  rwa [← canon_obj, wf_canon]

theorem withDigest_eq {value : Fields} (h : (Json.obj value).wf = true) :
    withDigest value = canonFields (Fields.set (canonFields value) "contentDigest"
      (.str (canonicalDigest value))) := by
  rw [withDigest, readBack_eq h, readBack_eq (Json.wf_set (wf_canonFields h) rfl),
    canonicalDigest_canonFields h]

/-- A value without a digest gets its own. -/
theorem get_withDigest {value : Fields} (h : (Json.obj value).wf = true) :
    Fields.get (withDigest value) "contentDigest" = .str (canonicalDigest value) := by
  rw [withDigest_eq h, get_canonFields_of_inert (by decide), Fields.get, Fields.get?_set, if_pos rfl]
  rfl

/-- The digest is set before the keys are sorted. -/
theorem withDigest_eq_canonFields {value : Fields} (h : (Json.obj value).wf = true) :
    withDigest value =
      canonFields (Fields.set value "contentDigest" (.str (canonicalDigest value))) := by
  have hnodup := (Json.wf_obj_iff.mp h).1
  have hsorted : (Fields.keys (canonFields value)).Nodup := by
    refine (Fields.keys_sortKeys_perm _).nodup_iff.mpr ?_
    rwa [keys_canonicalizeFields]
  have hext : Json.sortKeys (.obj (canonicalizeFields [] (Fields.set (canonFields value)
      "contentDigest" (.str (canonicalDigest value))))) =
        Json.sortKeys (.obj (canonicalizeFields [] (Fields.set value "contentDigest"
          (.str (canonicalDigest value))))) := by
    refine Json.sortKeys_obj_ext ?_ ?_ fun key => ?_
    · rw [keys_canonicalizeFields]
      exact Fields.nodup_keys_set _ _ hsorted
    · rw [keys_canonicalizeFields]
      exact Fields.nodup_keys_set _ _ hnodup
    · rw [get?_canonicalizeFields, get?_canonicalizeFields, Fields.get?_set, Fields.get?_set]
      split
      · rfl
      · rw [canonFields, Fields.get?_sortKeys, get?_canonicalizeFields, Option.map_map,
          Option.map_map, Option.map_map, Option.map_map]
        congr 1
        funext item
        simp [canonicalize_sortKeys]
  rw [withDigest_eq h, canonFields, canonFields]
  rw [Json.sortKeys_obj_eq, Json.sortKeys_obj_eq] at hext
  exact Json.obj.inj hext

theorem canonicalDigest_withDigest {value : Fields} (h : (Json.obj value).wf = true) :
    canonicalDigest (withDigest value) = canonicalDigest value := by
  rw [withDigest_eq_canonFields h, canonicalDigest_canonFields (Json.wf_set h rfl),
    canonicalDigest_set_contentDigest h]

theorem validDigest_canonicalDigest (value : Fields) :
    validDigest (.str (canonicalDigest value)) = true := by
  have hhex : ∀ c ∈ sha256Hex (dumps (.obj (identityProjection value))), isLowerHex c = true :=
    fun c hc => isLowerHex_of_mem_sha256Hex hc
  have hlength : (String.ofList (sha256Hex (dumps (.obj (identityProjection value))))).length =
      64 := by
    rw [String.length_ofList, length_sha256Hex]
  have hleading : ("sha256:".toList ++ sha256Hex (dumps (.obj (identityProjection value)))).drop 7 =
      sha256Hex (dumps (.obj (identityProjection value))) := rfl
  simp only [validDigest, Json.str?, Option.any_some, canonicalDigest, digestOfText,
    Str.startsWith_append, String.length_append, hlength, String.toList_append,
    String.toList_ofList, hleading, Bool.true_and, Bool.and_eq_true, List.all_eq_true]
  exact ⟨by decide, hhex⟩

/-- A record without a digest is validated as it is with one. -/
theorem validateRecord_withDigest {value : Fields} (h : (Json.obj value).wf = true) :
    validateRecord (withDigest value) = .ok [] ↔
      recordDiagnostics (Fields.set value "contentDigest" (.str (canonicalDigest value))) =
        .ok [] := by
  rw [validateRecord_eq_nil_iff, get_withDigest h, canonicalDigest_withDigest h,
    withDigest_eq_canonFields h, recordDiagnostics_canonFields]
  simp

/-- An event without a digest is validated as it is with one. -/
theorem validateEvent_withDigest {value : Fields} (h : (Json.obj value).wf = true) :
    validateEvent (withDigest value) = .ok [] ↔
      eventDiagnostics (Fields.set value "contentDigest" (.str (canonicalDigest value))) =
        .ok [] := by
  rw [validateEvent_eq_nil_iff, get_withDigest h, canonicalDigest_withDigest h,
    withDigest_eq_canonFields h, eventDiagnostics_canonFields]
  simp

theorem wf_candidateOf (value : Mapping) : (Json.obj (candidateOf value)).wf = true := by
  rw [candidateOf]
  split
  · exact value.wf
  · rw [withDigest_eq value.wf]
    exact wf_canonFields (Json.wf_set (wf_canonFields value.wf) rfl)

/-- The candidate names no digest only when the value says so. -/
theorem get_candidateOf_eq_null {value : Mapping}
    (h : Fields.get (candidateOf value) "contentDigest" = .null) :
    Fields.get? value.fields "contentDigest" = some .null := by
  rw [candidateOf] at h
  split at h
  · rename_i hhas
    obtain ⟨digest, hdigest⟩ := Option.isSome_iff_exists.mp hhas
    rw [Fields.get, hdigest, Option.getD_some] at h
    rw [hdigest, h]
  · rw [get_withDigest value.wf] at h
    cases h

/-! ## The checks -/

theorem anyRow_eq_false_iff {test : Fields → Py Bool} {read : List Fields} :
    anyRow test read = .ok false ↔ ∀ row ∈ read, test row = .ok false := by
  induction read with
  | nil => simp [anyRow]
  | cons row read ih =>
      rw [List.forall_mem_cons, ← ih, anyRow]
      cases test row with
      | error error => simp [bind, Except.bind]
      | ok found => cases found <;> simp [bind, Except.bind, pure, Except.pure]

/-- Whether a row with a payload holds an entry is read off the payload. -/
theorem holdsEntry_eq {type : ContentType} {digest : String} {row payload : Fields}
    (htype : Fields.get row "entryType" = .str type.value)
    (hpayload : Fields.get row "payload" = .obj payload) :
    holdsEntry type digest row =
      .ok (decide ((Fields.get payload "contentDigest").str? = some digest)) := by
  rw [holdsEntry, if_pos (Json.str?_eq_some_iff.mpr htype),
    Fields.get?_of_get hpayload (by simp)]
  rfl

theorem holdsEntry_eq_false {type : ContentType} {digest : String} {row payload : Fields}
    (htype : Fields.get row "entryType" = .str type.value)
    (hpayload : Fields.get row "payload" = .obj payload)
    (h : holdsEntry type digest row = .ok false) : Fields.get payload "contentDigest" ≠ .str digest := by
  rw [holdsEntry_eq htype hpayload, Except.ok.injEq, decide_eq_false_iff_not] at h
  exact fun hdigest => h (Json.str?_eq_some_iff.mpr hdigest)

theorem fresh_of_anyRow {type : ContentType} {read : List Fields} {candidate : Fields}
    (h : anyRow (holdsEntry type (Fields.get candidate "contentDigest").pyStr) read = .ok false) :
    Fresh type read candidate := by
  intro payload hpayload
  obtain ⟨row, hrow, htype, hobj⟩ := mem_payloadsFromRows_iff.mp hpayload
  exact holdsEntry_eq_false htype hobj (anyRow_eq_false_iff.mp h row hrow)

theorem anyRow_eq_true {test : Fields → Py Bool} {read : List Fields}
    (h : anyRow test read = .ok true) : ∃ row ∈ read, test row = .ok true := by
  induction read with
  | nil => cases h
  | cons row read ih =>
      rw [anyRow, Py.bind_eq_ok_iff] at h
      obtain ⟨found, hrow, h⟩ := h
      cases found with
      | true => exact ⟨row, by simp, hrow⟩
      | false =>
          obtain ⟨other, hother, htest⟩ := ih h
          exact ⟨other, List.mem_cons_of_mem _ hother, htest⟩

theorem holdsEntry_eq_true {type : ContentType} {digest : String} {row : Fields}
    (h : holdsEntry type digest row = .ok true) :
    ∃ payload, Fields.get row "entryType" = .str type.value ∧
      Fields.get row "payload" = .obj payload ∧
      Fields.get payload "contentDigest" = .str digest := by
  rw [holdsEntry] at h
  split at h
  · rename_i htype
    rw [Py.bind_eq_ok_iff] at h
    obtain ⟨found, hfound, h⟩ := h
    have hdigest : found = .str digest := by
      simpa [pure, Except.pure, Json.str?_eq_some_iff] using h
    rw [hdigest] at hfound
    cases hpayload : Fields.get? row "payload" with
    | none => simp [hpayload, getAttr, Fields.get?] at hfound
    | some value =>
        rw [hpayload, Option.getD_some] at hfound
        cases value with
        | obj payload =>
            refine ⟨payload, Json.str?_eq_some_iff.mp htype, by rw [Fields.get, hpayload]; rfl, ?_⟩
            simpa [getAttr, Fields.get] using hfound
        | _ => cases hfound
  · cases h

theorem not_fresh_of_anyRow {type : ContentType} {read : List Fields} {candidate : Fields}
    (h : anyRow (holdsEntry type (Fields.get candidate "contentDigest").pyStr) read = .ok true) :
    ¬ Fresh type read candidate := by
  obtain ⟨row, hrow, hholds⟩ := anyRow_eq_true h
  obtain ⟨payload, htype, hpayload, hdigest⟩ := holdsEntry_eq_true hholds
  exact fun hfresh =>
    hfresh payload (mem_payloadsFromRows_iff.mpr ⟨row, hrow, htype, hpayload⟩) hdigest

theorem transactions_of_noPending {store : StoreDir} (hinit : store.isInitialized = true)
    (h : pendingTransactions store = []) : store.transactions = some [] := by
  simp only [StoreDir.isInitialized, Bool.and_eq_true] at hinit
  obtain ⟨transactions, htransactions⟩ := Option.isSome_iff_exists.mp hinit.1.2
  rw [pendingTransactions, htransactions, Option.getD_some] at h
  have hkeys := (sortedBy_perm id (Fields.keys transactions)).length_eq
  rw [h, Fields.keys, List.length_map] at hkeys
  rw [htransactions, List.length_eq_zero_iff.mp hkeys.symm]

theorem Verified.transactions {store : StoreDir} {read : List Fields} (h : Verified store read) :
    store.transactions = some [] :=
  transactions_of_noPending h.isInitialized h.noPending

theorem rejectIf_eq_ok_iff {text : String} {diagnostics : List Diagnostic} {value : Unit} :
    rejectIf text diagnostics = .ok value ↔ diagnostics = [] := by
  simp [rejectIf]

/-- What holds of a candidate that a call is about to commit. -/
structure Admitted (type : ContentType) (store : StoreDir) (read : List Fields)
    (candidate : Fields) : Prop where
  rows : rows store = .ok read
  transactions : store.transactions = some []
  valid : validateEntry type candidate = .ok []
  new : Fresh type read candidate
  record : type = .record →
    recordSemanticDiagnostics candidate (payloadsFromRows read "record") = .ok []
  event : type = .event → admitTransition read candidate = .ok ()

theorem noPending_of_require {store : StoreDir} (hinit : requireInitialized store = .ok ())
    (h : requireNoPending store = .ok ()) : store.transactions = some [] := by
  rw [requireInitialized, raiseIf_eq_ok_iff, Bool.not_eq_false'] at hinit
  refine transactions_of_noPending hinit ?_
  simpa [requireNoPending] using h

theorem admitted_of_admit {type : ContentType} {store : StoreDir} {candidate : Fields}
    (h : admission type store candidate = .ok false) : ∃ read, Admitted type store read candidate := by
  cases type with
  | record =>
      simp only [admission, admitRecord, Py.bind_eq_ok_iff, rejectIf_eq_ok_iff] at h
      obtain ⟨_, hinit, _, hpending, _, hvalid, _, rfl, _, -, read, hread, _, hsemantic, _, rfl,
        hstored⟩ := h
      exact ⟨read, hread, noPending_of_require hinit hpending, hvalid, fresh_of_anyRow hstored,
        fun _ => hsemantic, nofun⟩
  | event =>
      simp only [admission, admitEvent, Py.bind_eq_ok_iff, rejectIf_eq_ok_iff] at h
      obtain ⟨_, hinit, _, hpending, _, hvalid, _, rfl, read, hread, stored, hstored, h⟩ := h
      cases stored with
      | true => simp [pure, Except.pure] at h
      | false =>
          simp only [Bool.false_eq_true, if_false, Py.bind_eq_ok_iff] at h
          obtain ⟨_, htransition, -⟩ := h
          exact ⟨read, hread, noPending_of_require hinit hpending, hvalid, fresh_of_anyRow hstored,
            nofun, fun _ => htransition⟩

/-- A call that finds its entry stored. -/
theorem stored_of_admit {type : ContentType} {store : StoreDir} {candidate : Fields}
    (h : admission type store candidate = .ok true) :
    ∃ read, rows store = .ok read ∧ ¬ Fresh type read candidate := by
  cases type with
  | record =>
      simp only [admission, admitRecord, Py.bind_eq_ok_iff, rejectIf_eq_ok_iff] at h
      obtain ⟨_, -, _, -, _, -, _, -, _, -, read, hread, _, -, _, -, hstored⟩ := h
      exact ⟨read, hread, not_fresh_of_anyRow hstored⟩
  | event =>
      simp only [admission, admitEvent, Py.bind_eq_ok_iff, rejectIf_eq_ok_iff] at h
      obtain ⟨_, -, _, -, _, -, _, -, read, hread, stored, hstored, h⟩ := h
      cases stored with
      | true => exact ⟨read, hread, not_fresh_of_anyRow hstored⟩
      | false => simp [Py.bind_eq_ok_iff, pure, Except.pure] at h

theorem requireInitialized_of_rows {store : StoreDir} {read : List Fields}
    (h : rows store = .ok read) : requireInitialized store = .ok () := by
  rw [requireInitialized, raiseIf_eq_ok_iff, (rows_eq_ok_iff.mp h).1]
  rfl

theorem requireNoPending_of_transactions {store : StoreDir} (h : store.transactions = some []) :
    requireNoPending store = .ok () := by
  rw [requireNoPending, raiseIf_eq_ok_iff, pendingTransactions, h]
  rfl

/-- What is left of the checks of a record that passes all others: whether a row
holds it. -/
theorem admit_record_eq {store : StoreDir} {read : List Fields} {candidate : Fields}
    (hread : rows store = .ok read) (htransactions : store.transactions = some [])
    (hvalid : validateRecord candidate = .ok [])
    (hcontent : ∀ text, store.readContent .record (Fields.get candidate "contentDigest").pyStr =
      some text → text = canonicalJson (.obj candidate))
    (hsemantic : recordSemanticDiagnostics candidate (payloadsFromRows read "record") = .ok []) :
    admission .record store candidate =
      anyRow (holdsEntry .record (Fields.get candidate "contentDigest").pyStr) read := by
  have hcollision : (store.readContent .record (Fields.get candidate "contentDigest").pyStr).any
      (· ≠ canonicalJson (.obj candidate)) = false := by
    cases hfile : store.readContent .record (Fields.get candidate "contentDigest").pyStr with
    | none => rfl
    | some text => simp [hcontent text hfile]
  rw [admission, admitRecord, requireInitialized_of_rows hread,
    requireNoPending_of_transactions htransactions, hvalid, hread]
  simp only [bind, Except.bind, rejectIf, ne_eq, not_true, decide_false, raiseIf,
    Bool.false_eq_true, if_false, hcollision, hsemantic]

/-- An event that passes the checks and is in no row. -/
theorem admit_event_eq {store : StoreDir} {read : List Fields} {candidate : Fields}
    (hread : rows store = .ok read) (htransactions : store.transactions = some [])
    (hvalid : validateEvent candidate = .ok [])
    (hnew : anyRow (holdsEntry .event (Fields.get candidate "contentDigest").pyStr) read = .ok false)
    (htransition : admitTransition read candidate = .ok ()) :
    admission .event store candidate = .ok false := by
  rw [admission, admitEvent, requireInitialized_of_rows hread,
    requireNoPending_of_transactions htransactions, hvalid, hread]
  simp only [bind, Except.bind, rejectIf, ne_eq, not_true, decide_false, raiseIf,
    Bool.false_eq_true, if_false, hnew, htransition, pure, Except.pure]

/-- In a verified store no row holds an entry whose digest is new. -/
theorem Verified.anyRow_of_fresh {store : StoreDir} {read : List Fields} (h : Verified store read)
    {type : ContentType} {candidate : Fields} (hnew : Fresh type read candidate) :
    anyRow (holdsEntry type (Fields.get candidate "contentDigest").pyStr) read = .ok false := by
  refine anyRow_eq_false_iff.mpr fun row hrow => ?_
  by_cases htype : Fields.get row "entryType" = .str type.value
  · cases h.holds row hrow with
    | snapshot _ hsnapshot =>
        rw [htype] at hsnapshot
        cases type <;> exact absurd hsnapshot (by decide)
    | entry _ payload _ hpayload _ =>
        rw [holdsEntry_eq htype hpayload, Except.ok.injEq, decide_eq_false_iff_not,
          Json.str?_eq_some_iff]
        exact hnew payload (mem_payloadsFromRows_iff.mpr ⟨row, hrow, htype, hpayload⟩)
  · rw [holdsEntry, if_neg fun hstr => htype (Json.str?_eq_some_iff.mp hstr)]
    rfl

theorem Admitted.initialized {type : ContentType} {store : StoreDir} {read : List Fields}
    {candidate : Fields} (h : Admitted type store read candidate) : store.isInitialized = true :=
  (rows_eq_ok_iff.mp h.rows).1

/-! ## Calls -/

section Add

variable (host : Host) {type : ContentType} {value : Mapping} {store : StoreDir}

theorem add_of_error {error : PyError}
    (h : admission type store (candidateOf value) = .error error) :
    add host type value store = ⟨[], store, .error error⟩ := by
  simp [add, h]

theorem add_of_stored (h : admission type store (candidateOf value) = .ok true) :
    add host type value store =
      ⟨[], store, .ok (candidateOf value,
        (Fields.get (candidateOf value) "contentDigest").pyStr)⟩ := by
  simp [add, h]

theorem add_of_new (h : admission type store (candidateOf value) = .ok false) :
    add host type value store =
      (commit host type (candidateOf value) store).andThen fun _ =>
        pure (candidateOf value, (Fields.get (candidateOf value) "contentDigest").pyStr) := by
  simp [add, h]

theorem final_add_of_new (h : admission type store (candidateOf value) = .ok false) :
    (add host type value store).final = (commit host type (candidateOf value) store).final ∧
      (add host type value store).trace = (commit host type (candidateOf value) store).trace := by
  rw [add_of_new host h, Run.andThen]
  cases (commit host type (candidateOf value) store).result <;> simp

theorem commit_ok_of_add {out : Fields × String}
    (hadd : (add host type value store).result = .ok out)
    (h : admission type store (candidateOf value) = .ok false) :
    (commit host type (candidateOf value) store).result = .ok () := by
  rw [add_of_new host h, Run.andThen] at hadd
  cases hresult : (commit host type (candidateOf value) store).result with
  | ok _ => rfl
  | error error => rw [hresult] at hadd; cases hadd

end Add

theorem addSnapshot_apply {payload : Mapping} {store : StoreDir} {read : List Fields}
    (h : store.transactions = some []) (hread : rows store = .ok read) :
    addSnapshot payload store =
      ⟨(loadTail store).trace ++
          [(refreshed store read).appendLedger
              (rowLine (nextRow "snapshot" payload.fields store read)),
            (refreshed store read).extended (nextRow "snapshot" payload.fields store read)],
        (refreshed store read).extended (nextRow "snapshot" payload.fields store read),
        .ok (nextRow "snapshot" payload.fields store read)⟩ := by
  have hinit := requireInitialized_of_rows hread
  have hpending := requireNoPending_of_transactions h
  have hload := loadTail_apply hread
  simp only [addSnapshot, Program.bind_apply, Program.get_apply, Program.lift_apply, hinit,
    hpending, Run.andThen_ok, hload, appendRow, writeTail, Program.step_apply, Program.pure_apply,
    List.nil_append]
  simp only [List.append_nil, List.singleton_append]
  rfl

/-- A call of one of the three writers. -/
inductive Call where
  | add (type : ContentType) (value : Mapping)
  | snapshot (payload : Mapping)

namespace Call

/-- Perform the call. -/
def run (host : Host) : Call → StoreM Unit
  | .add type value => do
      let _ ← Store.add host type value
  | .snapshot payload => do
      let _ ← addSnapshot payload

/-- The type of the row that the call appends. -/
def entryType : Call → String
  | .add type _ => type.value
  | .snapshot _ => "snapshot"

/-- The payload of the row that the call appends. -/
def payload : Call → Fields
  | .add _ value => candidateOf value
  | .snapshot payload => payload.fields

/-- The row that the call appends. -/
def row (call : Call) (store : StoreDir) (read : List Fields) : Fields :=
  nextRow call.entryType call.payload store read

/-- Whether the call finds its entry stored. -/
def Stored (call : Call) (read : List Fields) : Prop :=
  match call with
  | .add type value => ¬ Fresh type read (candidateOf value)
  | .snapshot _ => False

theorem wf_payload (call : Call) : (Json.obj call.payload).wf = true := by
  cases call with
  | add type value => exact wf_candidateOf value
  | snapshot payload => exact payload.wf

theorem result_run_add {host : Host} {type : ContentType} {value : Mapping} {store : StoreDir} :
    (run host (.add type value) store).result = .ok () ↔
      ∃ out, (Store.add host type value store).result = .ok out := by
  simp [run, Run.andThen_result_eq_ok_iff]

theorem run_add (host : Host) (type : ContentType) (value : Mapping) (store : StoreDir) :
    (run host (.add type value) store).final = (Store.add host type value store).final ∧
      (run host (.add type value) store).trace = (Store.add host type value store).trace := by
  rw [run, Program.bind_apply, Run.andThen]
  cases (Store.add host type value store).result <;> simp

theorem run_snapshot {payload : Mapping} {host : Host} {store : StoreDir} {read : List Fields}
    (h : store.transactions = some []) (hread : rows store = .ok read) :
    (run host (.snapshot payload) store).final =
        (refreshed store read).extended (nextRow "snapshot" payload.fields store read) ∧
      (run host (.snapshot payload) store).result = .ok () := by
  rw [run, Program.bind_apply, addSnapshot_apply h hread]
  simp

end Call

/-! ## A new store -/

/-- The store that `init` makes of an empty directory. -/
def StoreDir.fresh : StoreDir := (init ⟨none, none, none, none, none⟩).final

theorem verified_fresh : Verified .fresh [] where
  rows := rfl
  noPending := rfl
  chain := trivial
  holds := fun _ hrow => nomatch hrow
  owned := fun type => by cases type <;> exact fun _ hstem => nomatch hstem

theorem endsLine_fresh : EndsLine (StoreDir.fresh.ledger.getD []) := .inl rfl

theorem ledgerBytes_fresh : StoreDir.fresh.ledgerBytes = 0 := rfl

theorem trustedTail_fresh : trustedTail .fresh = some ⟨0, .null, 0⟩ := by
  decide +kernel

theorem atEnd_fresh : AtEnd (position .fresh []) [] := by
  rw [position, trustedTail_fresh]
  exact ⟨rfl, rfl⟩

/-- A host that lists directories in their own order and makes a new name longer
than all others. -/
def Host.plain : Host where
  listing := id
  listing_perm := fun _ => .refl _
  freshName := fun names => String.ofList ('t' :: names.flatMap String.toList)
  freshName_not_mem := by
    intro names hmem
    have hlength : ∀ name ∈ names, name.toList.length ≤ (names.flatMap String.toList).length := by
      intro name hname
      rw [List.length_flatMap]
      exact List.single_le_sum (by simp) _ (List.mem_map_of_mem hname)
    have hself := hlength _ hmem
    rw [String.toList_ofList, List.length_cons] at hself
    omega

/-- An observation with the given metadata and outcome and nothing more than a
record must have. -/
def observation (metadata : Fields) (outcome : String) : Fields :=
  [("apiVersion", .str apiVersion), ("kind", .str "Observation"),
    ("metadata", .obj (metadata ++ [("createdAt", .str "2026-01-01T00:00:00Z"),
      ("author", .obj [("type", .str "agent"), ("id", .str "a")])])),
    ("subject", .obj [("type", .str "t"), ("identity", .str "i")]), ("scope", .obj []),
    ("statement", .obj [("summary", .str "s")]), ("evidence", .arr []), ("dependencies", .arr []),
    ("affectedContracts", .arr []),
    ("provenance", .obj [("producer", .obj [("type", .str "t"), ("id", .str "i")])]),
    ("confidence", .obj [("level", .str "low"), ("rationale", .str "r")]),
    ("security", .obj [("sensitivity", .str "public"), ("executableAttachments", .bool false),
      ("instructionsAreUntrusted", .bool true)]),
    ("lifecycle", .obj [("initialState", .str LifecycleState.proposed.value)]),
    ("relationships", .arr []), ("details", .obj [("outcome", .str outcome)])]

theorem plain_observation (metadata : Fields) (outcome : String) (digest : Json) :
    Plain (Fields.set (observation metadata outcome) "contentDigest" digest) :=
  ⟨rfl, rfl, outcome, rfl⟩

/-- The first observation of a store: it has an identifier and no digest yet. -/
def firstRecord : Mapping := ⟨observation [("recordId", .str "r")] "PASS", rfl⟩

theorem candidateOf_firstRecord :
    candidateOf firstRecord = canonFields (Fields.set firstRecord.fields "contentDigest"
      (.str (canonicalDigest firstRecord.fields))) := by
  rw [candidateOf, if_neg (by decide), withDigest_eq_canonFields firstRecord.wf]

theorem validateRecord_firstRecord : validateRecord (candidateOf firstRecord) = .ok [] := by
  rw [candidateOf, if_neg (by decide), validateRecord_withDigest firstRecord.wf]
  generalize hdigest : canonicalDigest firstRecord.fields = digest
  have hvalid : validDigest (.str digest) = true := by
    rw [← hdigest]
    exact validDigest_canonicalDigest _
  have hget : Fields.get (Fields.set firstRecord.fields "contentDigest" (.str digest))
      "contentDigest" = .str digest := rfl
  rw [recordDiagnostics, concatChecks_eq_nil_iff]
  simp only [List.forall_mem_cons]
  -- the digest is the only member whose value is not known
  refine ⟨rfl, rfl, rfl, ?_, rfl, rfl, rfl, by simp⟩
  rw [checkDigestForm, hget, hvalid]
  rfl

/-- A new store admits every valid record without references. -/
theorem admit_fresh {candidate : Fields} (hvalid : validateRecord candidate = .ok [])
    (hplain : Plain candidate) : admission .record .fresh candidate = .ok false :=
  @admit_record_eq _ [] _ rfl rfl hvalid (fun _ htext => nomatch htext)
    ((hplain.recordSemanticDiagnostics_eq_nil_iff
      (by simp : ∀ record ∈ ([] : List Fields), Plain record)).mpr (.inr rfl))

theorem admit_firstRecord : admission .record .fresh (candidateOf firstRecord) = .ok false := by
  refine admit_fresh validateRecord_firstRecord ?_
  rw [candidateOf_firstRecord]
  exact (plain_observation _ _ _).canonFields

end MncsCommons.Store
