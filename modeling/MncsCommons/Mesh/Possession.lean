/-
# What a node possesses

A node is sound when its store is verified, its state file reads, every record that it has
marked is held, and every event that it has is about a record that it holds.  To publish a
record and to ingest a foreign one leave such a node sound: it learns new records, and
nothing else of what it has changes but marks.
-/

import MncsCommons.Mesh.Node
import MncsCommons.Retention.Restored
import MncsCommons.Store.ServiceRuns
import MncsCommons.Store.Transitions

namespace MncsCommons.Mesh

open MncsCommons.Data MncsCommons.Protocol MncsCommons.Store MncsCommons.Exec

/-! ## Marks -/

/-- The mark of a digest in a state. -/
def markOf (state : Fields) (digest : String) : Option String :=
  (Fields.get (originsOf state) digest).str?

@[simp]
theorem originsOf_sortKeys (state : Fields) :
    originsOf (Fields.sortKeys state) = Fields.sortKeys (originsOf state) := by
  rw [originsOf, Fields.get_sortKeys, Json.obj?_sortKeys, originsOf]
  cases (Fields.get state "origins").obj? with
  | none => rfl
  | some origins => rfl

@[simp]
theorem markOf_sortKeys (state : Fields) (digest : String) :
    markOf (Fields.sortKeys state) digest = markOf state digest := by
  rw [markOf, originsOf_sortKeys, Fields.get_sortKeys, Json.str?_sortKeys, markOf]

theorem markOf_set_origins (state : Fields) (digest origin other : String) :
    markOf (Fields.set state "origins"
      (.obj (Fields.set (originsOf state) digest (.str origin)))) other =
        if other = digest then some origin else markOf state other := by
  have horigins : originsOf (Fields.set state "origins"
      (.obj (Fields.set (originsOf state) digest (.str origin)))) =
        Fields.set (originsOf state) digest (.str origin) := by
    rw [originsOf, Fields.get, Fields.get?_set, if_pos rfl]
    rfl
  rw [markOf, horigins, Fields.get, Fields.get?_set]
  by_cases hother : digest = other
  · rw [if_pos hother, if_pos hother.symm]
    rfl
  · rw [if_neg hother, if_neg (Ne.symm hother)]
    rfl

theorem markOf_set_peers (state : Fields) (peers : Json) (digest : String) :
    markOf (Fields.set state "peers" peers) digest = markOf state digest := by
  have hget : Fields.get (Fields.set state "peers" peers) "origins" =
      Fields.get state "origins" := by
    rw [Fields.get, Fields.get?_set, if_neg (by decide), Fields.get]
  rw [markOf, originsOf, hget, markOf, originsOf]

/-- The state of a node, as its file has it. -/
def NodeDir.HasState (dir : NodeDir) (state : Fields) : Prop :=
  dir.meshState.bind loads = some (.obj state)

theorem readState_iff {mesh : MeshHost} {dir : NodeDir} {state : Fields} :
    readState mesh dir = .ok state ↔ dir.HasState state := by
  rw [readState, NodeDir.HasState]
  cases dir.meshState.bind loads with
  | none => simp
  | some value => cases value <;> simp

/-- What is written is read back in the order of its keys. -/
theorem hasState_written {dir : NodeDir} {state : Fields} (hwf : (Json.obj state).wf = true) :
    NodeDir.HasState { dir with meshState := some (dumps (.obj state)) }
      (Fields.sortKeys state) := by
  rw [NodeDir.HasState, Option.bind_some, loads_dumps hwf, Json.sortKeys_obj_eq]

theorem NodeDir.HasState.wf {dir : NodeDir} {state : Fields} (h : dir.HasState state) :
    (Json.obj state).wf = true := by
  obtain ⟨text, -, htext⟩ := Option.bind_eq_some_iff.mp h
  exact wf_of_loads htext

/-! ## Records that are held -/

/-- A record with the digest is among the rows. -/
def HeldIn (read : List Fields) (digest : String) : Prop :=
  ∃ record ∈ payloadsFromRows read "record", Fields.get record "contentDigest" = .str digest

theorem payloadsFromRows_append_rows (read more : List Fields) (entryType : String) :
    payloadsFromRows (read ++ more) entryType =
      payloadsFromRows read entryType ++ payloadsFromRows more entryType :=
  List.filterMap_append

theorem HeldIn.append {read : List Fields} {digest : String} (h : HeldIn read digest)
    (more : List Fields) : HeldIn (read ++ more) digest := by
  obtain ⟨record, hrecord, hdigest⟩ := h
  refine ⟨record, ?_, hdigest⟩
  rw [payloadsFromRows_append_rows]
  exact List.mem_append_left _ hrecord

/-- Rows of records that are new after the given ones. -/
structure NewRecords (read more : List Fields) : Prop where
  records : ∀ row ∈ more, Fields.get row "entryType" = .str "record"
  fresh : ∀ record ∈ payloadsFromRows more "record",
    digestOf record ∉ (payloadsFromRows read "record").map digestOf

namespace NewRecords

variable {read more rest : List Fields}

theorem nil (read : List Fields) : NewRecords read [] :=
  ⟨fun _ hrow => absurd hrow List.not_mem_nil, fun _ hrecord => absurd hrecord List.not_mem_nil⟩

theorem append (hmore : NewRecords read more) (hrest : NewRecords (read ++ more) rest) :
    NewRecords read (more ++ rest) where
  records row hrow := (List.mem_append.mp hrow).elim (hmore.records row) (hrest.records row)
  fresh := by
    intro record hrecord
    rw [payloadsFromRows_append_rows] at hrecord
    rcases List.mem_append.mp hrecord with hfirst | hsecond
    · exact hmore.fresh record hfirst
    · intro hmem
      refine hrest.fresh record hsecond ?_
      rw [payloadsFromRows_append_rows, List.map_append]
      exact List.mem_append_left _ hmem

/-- There is no event among them. -/
theorem events (h : NewRecords read more) :
    payloadsFromRows (read ++ more) "event" = payloadsFromRows read "event" := by
  rw [payloadsFromRows_append_rows]
  apply List.append_right_eq_self.mpr
  apply List.eq_nil_iff_forall_not_mem.mpr
  intro event hevent
  obtain ⟨row, hrow, htype, -⟩ := mem_payloadsFromRows_iff.mp hevent
  rw [h.records row hrow] at htype
  exact absurd htype (by decide)

end NewRecords

/-- Every event is about a record that is held. -/
def Targeted (read : List Fields) : Prop :=
  ∀ event ∈ payloadsFromRows read "event", ∃ record ∈ payloadsFromRows read "record",
    targetDigest event = some (digestOf record)

section Adding

variable {host : Host} {record : Mapping} {store : StoreDir} {read : List Fields}

theorem Targeted.step {after : List Fields} {call : Call} (h : Targeted read)
    (hverified : Verified store read) (hextends : Extends store read call after) :
    Targeted after := by
  have hkeeps : ∀ record ∈ payloadsFromRows read "record",
      record ∈ payloadsFromRows after "record" := by
    intro record hrecord
    obtain hsame | ⟨_, -, -, hadded⟩ := hextends.payloads .record
    · exact hsame.symm ▸ hrecord
    · exact hadded.symm ▸ List.mem_append_left _ hrecord
  intro event hevent
  obtain hsame | ⟨value, rfl, hadmitted, hadded⟩ := hextends.payloads .event
  · obtain ⟨record, hrecord, htarget⟩ := h event (hsame ▸ hevent)
    exact ⟨record, hkeeps record hrecord, htarget⟩
  · rcases List.mem_append.mp (hadded ▸ hevent) with hold | hnew
    · obtain ⟨record, hrecord, htarget⟩ := h event hold
      exact ⟨record, hkeeps record hrecord, htarget⟩
    · obtain ⟨target, _, _, _, hparts⟩ := exists_parts_of_validateEvent hadmitted.valid
      obtain ⟨record, hfind⟩ := exists_target_of_admitTransition hparts (hadmitted.event rfl)
      obtain ⟨hrecord, hdigest⟩ := findTarget_eq_some hfind
      rw [@Verified.digestOf_eq _ _ hverified .record _ hrecord] at hdigest
      refine ⟨record, hkeeps record hrecord, ?_⟩
      rw [List.mem_singleton.mp hnew, hparts.sortKeys.targetDigest_eq, Json.str.inj hdigest]

/-- No event is about a record that is new. -/
theorem Targeted.not_about_new {more : List Fields} (h : Targeted read)
    (hmore : NewRecords read more) {record event : Fields}
    (hrecord : record ∈ payloadsFromRows more "record")
    (hevent : event ∈ payloadsFromRows read "event") :
    targetDigest event ≠ some (digestOf record) := by
  intro htarget
  obtain ⟨held, hheld, hsame⟩ := h event hevent
  exact hmore.fresh record hrecord
    (List.mem_map.mpr ⟨held, hheld, Option.some.inj (hsame.symm.trans htarget)⟩)

/-- The digest of a valid record that names none or its own. -/
theorem get_candidateOf_of_valid (hvalid : validateRecord record.fields = .ok [])
    (hlawful : (Call.add .record record).DigestNotNull) :
    Fields.get (candidateOf record) "contentDigest" = .str (canonicalDigest record.fields) := by
  rw [candidateOf]
  split
  · rename_i hhas
    obtain hnull | hdigest := (validateRecord_eq_nil_iff.mp hvalid).2
    · obtain ⟨digest, hget⟩ := Option.isSome_iff_exists.mp hhas
      rw [Fields.get, hget, Option.getD_some] at hnull
      exact absurd (hget.trans (congrArg some hnull)) hlawful
    · exact hdigest
  · exact get_withDigest record.wf

theorem snd_of_addRecord {added : Fields × String}
    (h : (addRecord host record store).result = .ok added) :
    added.2 = (Fields.get (candidateOf record) "contentDigest").pyStr := by
  rw [addRecord] at h
  cases hadmission : admission .record store (candidateOf record) with
  | error error =>
      rw [add_of_error host hadmission] at h
      cases h
  | ok stored =>
      cases stored with
      | true =>
          rw [add_of_stored host hadmission] at h
          rw [← Except.ok.inj h]
      | false =>
          rw [add_of_new host hadmission] at h
          obtain ⟨_, -, h⟩ := Run.andThen_result_eq_ok_iff.mp h
          rw [← Except.ok.inj h]

theorem newRecords_nextRow (h : Sound store read)
    (hlawful : (Call.add .record record).DigestNotNull)
    (hadmitted : Admitted .record store read (candidateOf record)) :
    NewRecords read [canonFields (nextRow "record" (candidateOf record) store read)] where
  records := by
    intro row hrow
    rw [List.mem_singleton.mp hrow, nextRow, get_makeLedgerRow]
    rfl
  fresh := by
    intro payload hpayload
    have hrow := payloadsFromRows_append []
      (canonFields (nextRow "record" (candidateOf record) store read)) "record"
    rw [List.nil_append] at hrow
    rw [hrow, nextRow, payloadsFromRows_makeLedgerRow, if_pos rfl] at hpayload
    rw [List.mem_singleton.mp hpayload]
    exact hadmitted.digestOf_not_mem hlawful h.verified

/-- Adding a record leaves the rows or appends one of a new record. -/
theorem exists_sound_addRecord (h : Sound store read) (htargeted : Targeted read)
    (hlawful : (Call.add .record record).DigestNotNull)
    (hlimits : WithinLimits (addRecord host record store).final) :
    ∃ more, NewRecords read more ∧ Sound (addRecord host record store).final (read ++ more) ∧
      Targeted (read ++ more) ∧ more.length ≤ 1 := by
  rw [final_addRecord] at hlimits ⊢
  obtain ⟨after, hafter, hextends⟩ := @Sound.step _ _ h host (.add .record record)
    ⟨trivial, hlawful⟩ hlimits
  have htargets := htargeted.step h.verified hextends
  cases hextends with
  | unchanged =>
      refine ⟨[], .nil read, ?_, ?_, Nat.zero_le 1⟩
      · rwa [List.append_nil]
      · rwa [List.append_nil]
  | added hadmitted =>
      exact ⟨_, newRecords_nextRow h hlawful hadmitted, hafter, htargets, Nat.le_refl 1⟩

/-- A valid record that is added without an error is held, by one more row if it was not. -/
theorem held_of_addRecord {more : List Fields} (h : Sound store read)
    (hvalid : validateRecord record.fields = .ok [])
    (hlawful : (Call.add .record record).DigestNotNull) {added : Fields × String}
    (hok : (addRecord host record store).result = .ok added)
    (hafter : Sound (addRecord host record store).final (read ++ more)) :
    added.2 = canonicalDigest record.fields ∧
      HeldIn (read ++ more) (canonicalDigest record.fields) := by
  have hdigest := get_candidateOf_of_valid hvalid hlawful
  refine ⟨by rw [snd_of_addRecord hok, hdigest, Json.pyStr_str], ?_⟩
  have hrun : (Call.run host (.add .record record) store).result = .ok () :=
    Call.result_run_add.mpr ⟨added, hok⟩
  have hrows := hafter.verified.rows
  rw [final_addRecord] at hrows
  obtain ⟨hstored, hfinal⟩ | ⟨hnew, -⟩ := Call.ledger_run h.verified.rows hrun
  · simp only [Call.Stored, Fresh, not_forall, not_not] at hstored
    obtain ⟨payload, hpayload, hsame⟩ := hstored
    rw [hdigest, Json.pyStr_str] at hsame
    exact HeldIn.append ⟨payload, hpayload, hsame⟩ more
  · rw [Call.rows_run h.verified.rows hrun hnew] at hrows
    have hfits := fits_of_rows_appendLedger h.verified.rows hrows
    have happended := rows_appendLedger_of_fits h.verified.rows
      (wf_nextRow (wf_candidateOf record)) hfits
    have hread := Except.ok.inj (happended.symm.trans hrows)
    rw [← hread]
    refine ⟨Fields.sortKeys (candidateOf record), ?_, ?_⟩
    · rw [payloadsFromRows_append, nextRow, payloadsFromRows_makeLedgerRow]
      exact List.mem_append_right _ (List.mem_singleton_self _)
    · rw [Fields.get_sortKeys, hdigest, Json.sortKeys_str]

end Adding

/-! ## Sound nodes -/

/-- The ledger of the store only grows. -/
def NodeGrows (dir after : NodeDir) : Prop := Grows dir.store after.store

instance : Std.Refl NodeGrows where
  refl dir := Std.Refl.refl (r := Grows) dir.store

instance : IsTrans NodeDir NodeGrows where
  trans _ _ _ hfirst hsecond := IsTrans.trans (r := Grows) _ _ _ hfirst hsecond

theorem nodeGrows_onStore {α : Type} {program : StoreM α} (h : Program.Follows Grows program) :
    Program.Follows NodeGrows (onStore program) :=
  fun dir => h dir.store

theorem grows_addRecord (host : Host) (record : Mapping) :
    Program.Follows Grows (addRecord host record) := by
  intro store
  rw [final_addRecord]
  exact grows_run host _ store

theorem nodeGrows_writeState (state : Fields) : Program.Follows NodeGrows (writeState state) :=
  Program.follows_step fun dir => Std.Refl.refl (r := Grows) dir.store

/-- A node with a sound store and a state whose marked records are held. -/
structure NodeSound (dir : NodeDir) (read : List Fields) (state : Fields) : Prop where
  sound : Sound dir.store read
  file : dir.HasState state
  held : ∀ digest origin, markOf state digest = some origin → HeldIn read digest
  targeted : Targeted read

/-- What a sound node becomes when it learns records: the given digests may be marked as its
own, every other mark stays, and no other one says that it is. -/
structure Learns (published : List String) (read : List Fields) (state : Fields) (after : NodeDir)
    (more : List Fields) (afterState : Fields) : Prop where
  sound : NodeSound after (read ++ more) afterState
  new : NewRecords read more
  marks : ∀ digest origin, markOf state digest = some origin →
    markOf afterState digest = some origin ∨
      digest ∈ published ∧ markOf afterState digest = some originLocal
  locals : ∀ digest, markOf afterState digest = some originLocal →
    markOf state digest = some originLocal ∨ digest ∈ published

section Learning

variable {published others : List String} {dir middle after : NodeDir}
  {read more rest : List Fields} {state middleState afterState : Fields}

theorem NodeSound.learns (h : NodeSound dir read state) (published : List String) :
    Learns published read state dir [] state where
  sound := by rwa [List.append_nil]
  new := .nil read
  marks _ _ hmark := .inl hmark
  locals _ hmark := .inl hmark

theorem Learns.trans (hfirst : Learns published read state middle more middleState)
    (hsecond : Learns others (read ++ more) middleState after rest afterState) :
    Learns (published ++ others) read state after (more ++ rest) afterState where
  sound := List.append_assoc read more rest ▸ hsecond.sound
  new := hfirst.new.append hsecond.new
  marks := by
    intro digest origin hmark
    obtain hsame | ⟨hpublished, hlocal⟩ := hfirst.marks digest origin hmark
    · obtain hkept | ⟨hother, hlocal⟩ := hsecond.marks digest origin hsame
      · exact .inl hkept
      · exact .inr ⟨List.mem_append_right _ hother, hlocal⟩
    · obtain hkept | ⟨-, hkept⟩ := hsecond.marks digest originLocal hlocal
      · exact .inr ⟨List.mem_append_left _ hpublished, hkept⟩
      · exact .inr ⟨List.mem_append_left _ hpublished, hkept⟩
  locals := by
    intro digest hmark
    obtain hbefore | hother := hsecond.locals digest hmark
    · obtain hstart | hpublished := hfirst.locals digest hbefore
      · exact .inl hstart
      · exact .inr (List.mem_append_left _ hpublished)
    · exact .inr (List.mem_append_right _ hother)

/-- What a node has been was within the limits when it is. -/
theorem NodeSound.limits (h : NodeSound dir read state) (hmiddle : NodeGrows dir middle)
    (hafter : NodeGrows middle after) (hlimits : WithinLimits after.store) :
    WithinLimits middle.store := by
  obtain ⟨more, hmore, hledger⟩ := hmiddle
  refine hlimits.of_grows ?_ hafter
  rw [hledger]
  exact h.sound.endsLine.append hmore

end Learning

section Node

variable {mesh : MeshHost} {node : CommonsNode}

theorem nodeGrows_markOrigin (digest origin : String) :
    Program.Follows NodeGrows (markOrigin mesh digest origin) :=
  Program.follows_bind Program.follows_get fun _ =>
    Program.follows_bind (Program.follows_lift _) fun _ => nodeGrows_writeState _

theorem nodeGrows_addMarked (record : Mapping) (origin : String) :
    Program.Follows NodeGrows (addMarked mesh record origin) :=
  Program.follows_bind (nodeGrows_onStore (grows_addRecord _ record)) fun _ =>
    Program.follows_bind (nodeGrows_markOrigin _ _) fun _ => Program.follows_pure _

theorem nodeGrows_publishLocal (record : Mapping) :
    Program.Follows NodeGrows (publishLocal mesh node record) :=
  Program.follows_bind (Program.follows_lift _) fun _ =>
    Program.follows_bind (nodeGrows_addMarked record originLocal) fun _ => Program.follows_pure _

theorem nodeGrows_ingestForeign (record : Mapping) (source : String) :
    Program.Follows NodeGrows (ingestForeign mesh node record source) := by
  refine Program.follows_bind (Program.follows_lift _) fun _ =>
    Program.follows_bind (Program.follows_lift _) fun _ =>
      Program.follows_bind Program.follows_get fun _ =>
        Program.follows_bind (Program.follows_lift _) fun held => ?_
  cases held with
  | some _ => exact Program.follows_pure _
  | none =>
      exact Program.follows_bind (nodeGrows_addMarked record _) fun _ => Program.follows_pure _

/-! ## One record -/

section Record

variable {record : Mapping} {dir : NodeDir} {read : List Fields} {state : Fields} {origin : String}

theorem wf_member (hwf : (Json.obj state).wf = true) (key : String) :
    (Json.obj ((Fields.get state key).obj?.getD [])).wf = true := by
  have hmember := Json.wf_get hwf key
  cases hget : Fields.get state key with
  | obj fields => rwa [hget] at hmember
  | _ => rfl

/-- A record that is held is marked. -/
theorem NodeSound.marked (h : NodeSound dir read state) (mesh : MeshHost) (origin : String)
    {digest : String} (hheld : HeldIn read digest) :
    (markOrigin mesh digest origin dir).result = .ok () ∧
      ∃ afterState, NodeSound (markOrigin mesh digest origin dir).final read afterState ∧
        ∀ other, markOf afterState other = if other = digest then some origin
          else markOf state other := by
  have hread : readState mesh dir = .ok state := readState_iff.mpr h.file
  have hwf := h.file.wf
  have hrun : markOrigin mesh digest origin dir =
      writeState (Fields.set state "origins"
        (.obj (Fields.set (originsOf state) digest (.str origin)))) dir := by
    simp [markOrigin, hread]
  have hmarks : ∀ other, markOf (Fields.sortKeys (Fields.set state "origins"
      (.obj (Fields.set (originsOf state) digest (.str origin))))) other =
        if other = digest then some origin else markOf state other := by
    intro other
    rw [markOf_sortKeys, markOf_set_origins]
  rw [hrun]
  refine ⟨rfl, _, ⟨h.sound, hasState_written
    (Json.wf_set hwf (Json.wf_set (wf_member hwf _) rfl)), fun other mark hmark => ?_,
      h.targeted⟩, hmarks⟩
  rw [hmarks] at hmark
  split at hmark
  · rename_i hsame
    exact hsame ▸ hheld
  · exact h.held other mark hmark

/-- The mark does not touch the store. -/
theorem store_final_addMarked (record : Mapping) (origin : String) (dir : NodeDir) :
    (addMarked mesh record origin dir).final.store =
      (addRecord mesh.host record dir.store).final := by
  have hmark : ∀ digest dir, (markOrigin mesh digest origin dir).final.store = dir.store := by
    intro digest dir
    simp only [markOrigin, Program.bind_apply, Program.get_apply, Run.andThen_ok,
      Program.lift_apply]
    cases readState mesh dir <;> rfl
  rw [addMarked, Program.bind_apply, Run.andThen]
  cases (onStore (addRecord mesh.host record) dir).result with
  | error error => rfl
  | ok added =>
      exact (congrArg NodeDir.store (Program.final_bind_of_keeps (fun _ _ => rfl) _)).trans
        (hmark added.2 _)

/-- Adding a valid record to a sound node, and marking it. -/
theorem NodeSound.addMarked (h : NodeSound dir read state)
    (hvalid : validateRecord record.fields = .ok [])
    (hlawful : (Call.add .record record).DigestNotNull)
    (hlimits : WithinLimits (addMarked mesh record origin dir).final.store) :
    ∃ more, NewRecords read more ∧ more.length ≤ 1 ∧
      ((∃ error, (addRecord mesh.host record dir.store).result = .error error ∧
          (addMarked mesh record origin dir).result = .error (.raised error) ∧
          NodeSound (addMarked mesh record origin dir).final (read ++ more) state) ∨
        (addMarked mesh record origin dir).result = .ok (canonicalDigest record.fields) ∧
          HeldIn (read ++ more) (canonicalDigest record.fields) ∧
          ∃ afterState,
            NodeSound (addMarked mesh record origin dir).final (read ++ more) afterState ∧
            ∀ digest, markOf afterState digest =
              if digest = canonicalDigest record.fields then some origin
              else markOf state digest) := by
  have hstore : WithinLimits (addRecord mesh.host record dir.store).final := by
    rwa [← store_final_addMarked record origin dir]
  obtain ⟨more, hnew, hsound, htargeted, hlength⟩ :=
    exists_sound_addRecord h.sound h.targeted hlawful hstore
  have hheld : ∀ digest mark, markOf state digest = some mark → HeldIn (read ++ more) digest :=
    fun digest mark hmark => (h.held digest mark hmark).append more
  refine ⟨more, hnew, hlength, ?_⟩
  cases hresult : (addRecord mesh.host record dir.store).result with
  | error error =>
      have hrun : (onStore (addRecord mesh.host record) dir).result = .error (.raised error) := by
        rw [onStore, hresult]
        rfl
      rw [Mesh.addMarked, Program.bind_apply, Run.andThen_of_error hrun]
      exact .inl ⟨error, rfl, rfl, hsound, h.file, hheld, htargeted⟩
  | ok added =>
      obtain ⟨hdigest, hholds⟩ := held_of_addRecord h.sound hvalid hlawful hresult hsound
      have hrun : (onStore (addRecord mesh.host record) dir).result = .ok added := by
        rw [onStore, hresult]
        rfl
      have hmiddle : NodeSound (onStore (addRecord mesh.host record) dir).final (read ++ more)
          state := ⟨hsound, h.file, hheld, htargeted⟩
      have hadded : HeldIn (read ++ more) added.2 := hdigest ▸ hholds
      obtain ⟨hmark, afterState, hafter, hmarks⟩ := hmiddle.marked mesh origin hadded
      rw [Mesh.addMarked, Program.bind_apply, Run.andThen_of_ok hrun, Program.bind_apply,
        Run.andThen_of_ok hmark, ← hdigest]
      exact .inr ⟨rfl, hdigest ▸ hholds, afterState, hafter, hmarks⟩

/-- What `ingest_foreign` checks before it asks the store. -/
def ingestCheck (node : CommonsNode) (record : Mapping) (source : String) : MeshPy Unit := do
  let _ ← boundedId source "source" maxNodeIdLength
  (validateForExchange node.policy.exchange record.fields).mapError ExchangeError.asMesh

/-- The node has the digest: among its rows or in its archives. -/
def possesses (mesh : MeshHost) (read : List Fields) (digest : String) : Bool :=
  (((payloadsFromRows read "record" ++ payloadsFromRows read "event").find? fun item =>
    Fields.get item "contentDigest" = .str digest).or (mesh.archived digest)).isSome

theorem possesses_iff {digest : String} :
    possesses mesh read digest = true ↔
      (∃ item ∈ payloadsFromRows read "record" ++ payloadsFromRows read "event",
        Fields.get item "contentDigest" = .str digest) ∨ (mesh.archived digest).isSome = true := by
  rw [possesses, Option.isSome_or, Bool.or_eq_true, List.find?_isSome]
  simp only [decide_eq_true_eq]

theorem possesses_append {digest : String} (h : possesses mesh read digest = true)
    (more : List Fields) : possesses mesh (read ++ more) digest = true := by
  rw [possesses_iff] at h ⊢
  obtain ⟨item, hitem, hdigest⟩ | harchived := h
  · refine .inl ⟨item, ?_, hdigest⟩
    rw [payloadsFromRows_append_rows, payloadsFromRows_append_rows]
    rcases List.mem_append.mp hitem with hrecord | hevent
    · exact List.mem_append_left _ (List.mem_append_left _ hrecord)
    · exact List.mem_append_right _ (List.mem_append_left _ hevent)
  · exact .inr harchived

theorem possesses_of_heldIn {digest : String} (h : HeldIn read digest) :
    possesses mesh read digest = true := by
  obtain ⟨item, hitem, hdigest⟩ := h
  exact possesses_iff.mpr (.inl ⟨item, List.mem_append_left _ hitem, hdigest⟩)

/-- A record that passes the exchange checks is a valid one. -/
theorem valid_of_validateForExchange {policy : ExchangePolicy} {value : Fields}
    (h : validateForExchange policy value = .ok ()) : validateRecord value = .ok [] := by
  simp only [validateForExchange, bind_eq_ok_iff] at h
  obtain ⟨_, -, _, -, _, -, diagnostics, hdiagnostics, _, hempty, -⟩ := h
  have hnone : diagnostics = [] := by
    by_contra hsome
    simp [exchangeIf, hsome] at hempty
  rw [hnone] at hdiagnostics
  cases hvalid : validateRecord value with
  | error error => rw [hvalid] at hdiagnostics; cases hdiagnostics
  | ok found => rw [hvalid] at hdiagnostics; exact congrArg _ (Except.ok.inj hdiagnostics)

theorem foreign_ne_local (source : String) : "foreign:" ++ source ≠ originLocal := by
  intro h
  have hhead := congrArg (fun origin : String => origin.toList.head?) h
  rw [String.toList_append] at hhead
  exact absurd hhead (by simp [originLocal])

section Ingesting

variable {source : String}

theorem ingestForeign_of_error {error : MeshError}
    (h : ingestCheck node record source = .error error) (dir : NodeDir) :
    ingestForeign mesh node record source dir = ⟨[], dir, .error error⟩ := by
  rw [ingestCheck] at h
  cases hsource : boundedId source "source" maxNodeIdLength with
  | error other =>
      rw [hsource] at h
      obtain rfl := Except.error.inj h
      simp [ingestForeign, hsource]
  | ok bounded =>
      have hchecks : (validateForExchange node.policy.exchange record.fields).mapError
          ExchangeError.asMesh = .error error := by rwa [hsource] at h
      simp [ingestForeign, hsource, checkExchange, hchecks]

theorem eq_of_boundedId {value name bounded : String} {maximum : Nat}
    (h : boundedId value name maximum = .ok bounded) : bounded = value := by
  rw [boundedId] at h
  split at h
  · cases h
  · exact (Except.ok.inj h).symm

/-- The checks of the exchange pass: the store is asked. -/
theorem ingestForeign_of_check (mesh : MeshHost) (h : ingestCheck node record source = .ok ())
    (hrows : rows dir.store = .ok read) :
    ingestForeign mesh node record source dir =
      if possesses mesh read (canonicalDigest record.fields) then
        ⟨[], dir, .ok ⟨"foreign:" ++ source, canonicalDigest record.fields, true, node.domain⟩⟩
      else ((addMarked mesh record ("foreign:" ++ source)) dir).andThen fun digest =>
        pure ⟨"foreign:" ++ source, digest, false, node.domain⟩ := by
  rw [ingestCheck, bind_eq_ok_iff] at h
  obtain ⟨bounded, hsource, hchecks⟩ := h
  obtain rfl := eq_of_boundedId hsource
  have hread : ∃ held, (getRecord mesh dir.store (canonicalDigest record.fields)).mapError
      MeshError.raised = .ok held ∧
        possesses mesh read (canonicalDigest record.fields) = held.isSome := by
    refine ⟨_, ?_, rfl⟩
    rw [getRecord, hrows]
    rfl
  obtain ⟨held, hread, hpossesses⟩ := hread
  rw [hpossesses]
  cases held with
  | some held => simp [ingestForeign, checkExchange, hsource, hchecks, hread]
  | none =>
      simp only [ingestForeign, checkExchange, Program.bind_apply, Program.lift_apply, hsource,
        hchecks, Run.andThen_ok, Program.get_apply, hread, List.nil_append]
      rfl

theorem valid_of_ingestCheck (h : ingestCheck node record source = .ok ()) :
    validateRecord record.fields = .ok [] := by
  rw [ingestCheck, bind_eq_ok_iff] at h
  obtain ⟨_, -, hchecks⟩ := h
  cases hexchange : validateForExchange node.policy.exchange record.fields with
  | error error => rw [hexchange] at hchecks; cases hchecks
  | ok _ => exact valid_of_validateForExchange hexchange

theorem final_ingestForeign_of_new (hcheck : ingestCheck node record source = .ok ())
    (hrows : rows dir.store = .ok read)
    (hnew : possesses mesh read (canonicalDigest record.fields) = false) :
    (ingestForeign mesh node record source dir).final =
      (addMarked mesh record ("foreign:" ++ source) dir).final := by
  rw [ingestForeign_of_check mesh hcheck hrows, if_neg (by rw [hnew]; decide), Run.andThen]
  cases (addMarked mesh record ("foreign:" ++ source) dir).result <;> rfl

/-- A foreign record that passes the checks and is not possessed yet is learned, and marked
with its source. -/
theorem NodeSound.ingest_new (h : NodeSound dir read state)
    (hcheck : ingestCheck node record source = .ok ())
    (hnew : possesses mesh read (canonicalDigest record.fields) = false)
    (hlawful : (Call.add .record record).DigestNotNull)
    (hlimits : WithinLimits (ingestForeign mesh node record source dir).final.store) :
    ∃ more afterState,
      Learns [] read state (ingestForeign mesh node record source dir).final more afterState ∧
      ((∃ error, (addRecord mesh.host record dir.store).result = .error error ∧
          (ingestForeign mesh node record source dir).result = .error (.raised error)) ∨
        (ingestForeign mesh node record source dir).result =
            .ok ⟨"foreign:" ++ source, canonicalDigest record.fields, false, node.domain⟩ ∧
          more.length = 1 ∧ HeldIn (read ++ more) (canonicalDigest record.fields) ∧
          markOf afterState (canonicalDigest record.fields) = some ("foreign:" ++ source)) := by
  have hrun := ingestForeign_of_check mesh hcheck h.sound.verified.rows
  rw [if_neg (by rw [hnew]; decide)] at hrun
  have hunheld : ¬ HeldIn read (canonicalDigest record.fields) := by
    intro hheld
    have hpossessed : possesses mesh read (canonicalDigest record.fields) = true :=
      possesses_of_heldIn hheld
    rw [hnew] at hpossessed
    cases hpossessed
  have hfinal := final_ingestForeign_of_new hcheck h.sound.verified.rows hnew
  rw [hfinal] at hlimits ⊢
  obtain ⟨more, hrecords, hlength, ⟨error, hadd, hresult, hsound⟩ |
    ⟨hresult, hheld, afterState, hsound, hmarks⟩⟩ :=
      h.addMarked (valid_of_ingestCheck hcheck) hlawful hlimits
  · refine ⟨more, state, ⟨hsound, hrecords, fun _ _ hmark => .inl hmark, fun _ hmark => .inl hmark⟩,
      .inl ⟨error, hadd, ?_⟩⟩
    rw [hrun, Run.andThen_of_error hresult]
  · refine ⟨more, afterState, ⟨hsound, hrecords, fun digest mark hmark => ?_,
      fun digest hmark => ?_⟩, .inr ⟨?_, ?_, hheld, by rw [hmarks, if_pos rfl]⟩⟩
    · rw [hmarks, if_neg]
      · exact .inl hmark
      · rintro rfl
        exact hunheld (h.held _ _ hmark)
    · rw [hmarks] at hmark
      split at hmark
      · exact absurd (Option.some.inj hmark) (foreign_ne_local source)
      · exact .inl hmark
    · rw [hrun, Run.andThen_of_ok hresult]
      rfl
    · cases more with
      | nil =>
          rw [List.append_nil] at hheld
          exact absurd hheld hunheld
      | cons row rows =>
          rw [List.length_cons] at hlength ⊢
          omega

/-- Whatever becomes of a foreign record, a sound node stays sound and only learns it. -/
theorem NodeSound.ingest (h : NodeSound dir read state)
    (hlawful : (Call.add .record record).DigestNotNull)
    (hlimits : WithinLimits (ingestForeign mesh node record source dir).final.store) :
    ∃ more afterState,
      Learns [] read state (ingestForeign mesh node record source dir).final more afterState := by
  cases hcheck : ingestCheck node record source with
  | error error =>
      rw [ingestForeign_of_error hcheck]
      exact ⟨[], state, h.learns []⟩
  | ok _ =>
      cases hpossesses : possesses mesh read (canonicalDigest record.fields) with
      | true =>
          rw [ingestForeign_of_check mesh hcheck h.sound.verified.rows, if_pos hpossesses]
          exact ⟨[], state, h.learns []⟩
      | false =>
          obtain ⟨more, afterState, hlearns, -⟩ := h.ingest_new hcheck hpossesses hlawful hlimits
          exact ⟨more, afterState, hlearns⟩

end Ingesting

/-- A node that publishes a record learns it and may mark it as its own. -/
theorem NodeSound.publish (h : NodeSound dir read state)
    (hlawful : (Call.add .record record).DigestNotNull)
    (hlimits : WithinLimits (publishLocal mesh node record dir).final.store) :
    ∃ more afterState, Learns [canonicalDigest record.fields] read state
      (publishLocal mesh node record dir).final more afterState := by
  cases hexchange : validateForExchange node.policy.exchange record.fields with
  | error error =>
      have hrun : publishLocal mesh node record dir = ⟨[], dir, .error error.asMesh⟩ := by
        simp [publishLocal, checkExchange, hexchange, Except.mapError]
      rw [hrun]
      exact ⟨[], state, h.learns _⟩
  | ok _ =>
      have hfinal : (publishLocal mesh node record dir).final =
          (Mesh.addMarked mesh record originLocal dir).final := by
        simp only [publishLocal, checkExchange, hexchange, Except.mapError, Program.bind_apply,
          Program.lift_apply, Run.andThen_ok]
        rw [Run.andThen]
        cases (Mesh.addMarked mesh record originLocal dir).result <;> rfl
      rw [hfinal] at hlimits ⊢
      obtain ⟨more, hrecords, -, ⟨error, -, -, hsound⟩ | ⟨-, hheld, afterState, hsound, hmarks⟩⟩ :=
        h.addMarked (valid_of_validateForExchange hexchange) hlawful hlimits
      · exact ⟨more, state, hsound, hrecords, fun _ _ hmark => .inl hmark,
          fun _ hmark => .inl hmark⟩
      · refine ⟨more, afterState, hsound, hrecords, fun digest mark hmark => ?_,
          fun digest hmark => ?_⟩
        · rw [hmarks]
          split
          · rename_i hsame
            exact .inr ⟨hsame ▸ List.mem_singleton_self _, rfl⟩
          · exact .inl hmark
        · rw [hmarks] at hmark
          split at hmark
          · rename_i hsame
            exact .inr (hsame ▸ List.mem_singleton_self _)
          · exact .inl hmark

end Record

end Node

end MncsCommons.Mesh
