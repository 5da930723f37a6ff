/-
# Runs of a node

Whatever is published and delivered to a node, in whatever order and whether the calls
return or raise, its ledger only gets rows of records.  No such call makes an event, so the
lifecycle of a record that is held never changes, a record that is learned is proposed in
every domain, and a mark that is set stays, unless the node publishes the record itself
(`delivery_never_promotes`).  A batch that is received accounts for every value it
processes, and to receive it again, however much later, changes nothing
(`receive_accounts`).
-/

import MncsCommons.Mesh.Delivery

namespace MncsCommons.Mesh

open MncsCommons.Data MncsCommons.Protocol MncsCommons.Store MncsCommons.Exec

/-- A call of a node, or of the store that it keeps. -/
inductive NodeCall where
  | publish (record : Mapping)
  | ingest (record : Mapping) (source : String)
  | receive (offered : List Offered) (source : String) (interest : Option InterestFilter)
      (executor : Bool)
  | notePeer (peerId : String) (frontier : List String) (notedAt : String)
  | store (call : Call)

namespace NodeCall

/-- Perform the call. -/
def run (mesh : MeshHost) (node : CommonsNode) : NodeCall → NodeM Unit
  | .publish record => do
      let _ ← publishLocal mesh node record
  | .ingest record source => do
      let _ ← ingestForeign mesh node record source
  | .receive offered source interest executor => do
      let _ ← receiveRecords mesh node offered source interest executor
  | .notePeer peerId frontier notedAt => notePeerFrontier mesh peerId frontier notedAt
  | .store call => onStore (call.run mesh.host)

/-- The digests that the call publishes. -/
def published : NodeCall → List String
  | .publish record => [canonicalDigest record.fields]
  | _ => []

/-- The call publishes, or it delivers what a peer has. -/
def Delivers : NodeCall → Prop
  | .store _ => False
  | _ => True

/-- The records of the call name no digest or one that is not `null`. -/
def Lawful : NodeCall → Prop
  | .publish record => (Call.add .record record).DigestNotNull
  | .ingest record _ => (Call.add .record record).DigestNotNull
  | .receive offered _ _ _ =>
      ∀ record, .mapping record ∈ offered → (Call.add .record record).DigestNotNull
  | .notePeer _ _ _ => True
  | .store call => call.Lawful

end NodeCall

/-- The digests that calls publish. -/
def publishedBy (calls : List NodeCall) : List String := calls.flatMap NodeCall.published

/-- What lawful calls make of a node, one after the other and whether they return or raise. -/
inductive Performed (node : CommonsNode) (before : NodeDir) : List NodeCall → NodeDir → Prop
  | none : Performed node before [] before
  | call {calls : List NodeCall} {dir : NodeDir} (mesh : MeshHost) {call : NodeCall}
      (h : Performed node before calls dir) (hlawful : call.Lawful) :
      Performed node before (calls ++ [call]) (call.run mesh node dir).final

/-! ## One call -/

section Step

variable {mesh : MeshHost} {node : CommonsNode} {dir : NodeDir} {read : List Fields}
  {state : Fields}

theorem final_ignored {α : Type} (program : NodeM α) (dir : NodeDir) :
    ((do let _ ← program : NodeM Unit) dir).final = (program dir).final :=
  Program.final_bind_of_keeps (fun _ _ => rfl) dir

theorem nodeGrows_notePeer (peerId : String) (frontier : List String) (notedAt : String) :
    Program.Follows NodeGrows (notePeerFrontier mesh peerId frontier notedAt) := by
  refine Program.follows_bind (Program.follows_lift _) fun peer =>
    Program.follows_bind Program.follows_get fun _ =>
      Program.follows_bind (Program.follows_lift _) fun state => ?_
  dsimp only
  split
  · exact Program.follows_raise _
  · exact nodeGrows_writeState _

theorem nodeGrows_run (call : NodeCall) : Program.Follows NodeGrows (call.run mesh node) := by
  intro dir
  cases call with
  | publish record =>
      rw [NodeCall.run, final_ignored]
      exact nodeGrows_publishLocal record dir
  | ingest record source =>
      rw [NodeCall.run, final_ignored]
      exact nodeGrows_ingestForeign record source dir
  | receive offered source interest executor =>
      rw [NodeCall.run, final_ignored]
      exact nodeGrows_receiveRecords dir
  | notePeer peerId frontier notedAt => exact nodeGrows_notePeer peerId frontier notedAt dir
  | store call => exact nodeGrows_onStore (grows_run mesh.host call) dir

/-- The peers of a state with one noted. -/
def notedPeers (state : Fields) (peer : String) (frontier : List String) (notedAt : String) :
    Json :=
  .obj (Fields.set ((Fields.get state "peers").obj?.getD []) peer
    (.obj [("frontier", .arr (((sortedBy id frontier.eraseDups).take 10000).map Json.str)),
      ("notedAt", .str notedAt)]))

theorem wf_notedPeers (hwf : (Json.obj state).wf = true) (peer : String) (frontier : List String)
    (notedAt : String) : (notedPeers state peer frontier notedAt).wf = true := by
  refine Json.wf_set (wf_member hwf _) (Json.wf_obj_iff.mpr ⟨?_, ?_⟩)
  · simp [Fields.keys]
  · have hnoted : ∀ item ∈ ((sortedBy id frontier.eraseDups).take 10000).map Json.str,
        item.wf = true := by
      intro item hitem
      obtain ⟨digest, -, rfl⟩ := List.mem_map.mp hitem
      rfl
    simp only [List.forall_mem_cons]
    exact ⟨Json.wf_arr_iff.mpr hnoted, rfl, fun _ hfield => absurd hfield List.not_mem_nil⟩

/-- To note the frontier of a peer leaves the marks. -/
theorem NodeSound.notePeer (h : NodeSound dir read state) (peerId : String)
    (frontier : List String) (notedAt : String) :
    ∃ afterState, Learns [] read state (notePeerFrontier mesh peerId frontier notedAt dir).final []
      afterState := by
  have hread : readState mesh dir = .ok state := readState_iff.mpr h.file
  have hwf := h.file.wf
  cases hpeer : boundedId peerId "peerId" maxNodeIdLength with
  | error error =>
      have hrun : (notePeerFrontier mesh peerId frontier notedAt dir).final = dir := by
        simp [notePeerFrontier, hpeer]
      rw [hrun]
      exact ⟨state, h.learns []⟩
  | ok peer =>
      by_cases hbound : (decide (maxPeers ≤ ((Fields.get state "peers").obj?.getD []).length) &&
          !Fields.has ((Fields.get state "peers").obj?.getD []) peer) = true
      · have hrun : (notePeerFrontier mesh peerId frontier notedAt dir).final = dir := by
          simp only [notePeerFrontier, hpeer, Program.bind_apply, Program.lift_apply,
            Program.get_apply, Run.andThen_ok, hread]
          rw [if_pos hbound]
          rfl
        rw [hrun]
        exact ⟨state, h.learns []⟩
      · have hrun : (notePeerFrontier mesh peerId frontier notedAt dir).final =
            { dir with meshState := some (dumps (.obj (Fields.set state "peers"
              (notedPeers state peer frontier notedAt)))) } := by
          simp only [notePeerFrontier, hpeer, Program.bind_apply, Program.lift_apply,
            Program.get_apply, Run.andThen_ok, hread]
          rw [if_neg hbound]
          rfl
        have hmarks : ∀ digest, markOf (Fields.sortKeys (Fields.set state "peers"
            (notedPeers state peer frontier notedAt))) digest = markOf state digest := by
          intro digest
          rw [markOf_sortKeys, markOf_set_peers]
        rw [hrun]
        refine ⟨_, ⟨⟨?_, hasState_written (Json.wf_set hwf (wf_notedPeers hwf _ _ _)), ?_, ?_⟩,
          .nil read, ?_, ?_⟩⟩
        · rw [List.append_nil]
          exact h.sound
        · intro digest origin hmark
          rw [hmarks] at hmark
          rw [List.append_nil]
          exact h.held digest origin hmark
        · rw [List.append_nil]
          exact h.targeted
        · intro digest origin hmark
          rw [hmarks]
          exact .inl hmark
        · intro digest hmark
          rw [hmarks] at hmark
          exact .inl hmark

/-- Whatever is published or delivered, a sound node only learns records. -/
theorem NodeSound.delivers {call : NodeCall} (h : NodeSound dir read state)
    (hdelivers : call.Delivers) (hlawful : call.Lawful)
    (hlimits : WithinLimits (call.run mesh node dir).final.store) :
    ∃ more afterState,
      Learns call.published read state (call.run mesh node dir).final more afterState := by
  cases call with
  | publish record =>
      rw [NodeCall.run, final_ignored] at hlimits ⊢
      exact h.publish hlawful hlimits
  | ingest record source =>
      rw [NodeCall.run, final_ignored] at hlimits ⊢
      exact h.ingest hlawful hlimits
  | receive offered source interest executor =>
      rw [NodeCall.run, final_ignored] at hlimits ⊢
      obtain ⟨more, afterState, hlearns, -⟩ := h.receiveRecords hlawful hlimits
      exact ⟨more, afterState, hlearns⟩
  | notePeer peerId frontier notedAt =>
      obtain ⟨afterState, hlearns⟩ := h.notePeer peerId frontier notedAt
      exact ⟨[], afterState, hlearns⟩
  | store call => exact absurd hdelivers id

/-- A call of the store leaves the marks. -/
theorem NodeSound.onStore {call : Call} (h : NodeSound dir read state) (mesh : MeshHost)
    (hlawful : call.Lawful)
    (hlimits : WithinLimits (call.run mesh.host dir.store).final) :
    ∃ more, NodeSound { dir with store := (call.run mesh.host dir.store).final } (read ++ more)
      state := by
  obtain ⟨after, hsound, hextends⟩ := h.sound.step mesh.host hlawful hlimits
  have hmore : ∃ more, after = read ++ more := by
    cases hextends with
    | unchanged => exact ⟨[], (List.append_nil read).symm⟩
    | added _ => exact ⟨_, rfl⟩
    | snapshot _ => exact ⟨_, rfl⟩
  have htargeted := h.targeted.step h.sound.verified hextends
  obtain ⟨more, rfl⟩ := hmore
  exact ⟨more, hsound, h.file, fun digest origin hmark => (h.held digest origin hmark).append more,
    htargeted⟩

/-- Whatever the call, a sound node stays sound and keeps its rows. -/
theorem NodeSound.call (h : NodeSound dir read state) {call : NodeCall} (hlawful : call.Lawful)
    (hlimits : WithinLimits (call.run mesh node dir).final.store) :
    ∃ more afterState, NodeSound (call.run mesh node dir).final (read ++ more) afterState := by
  by_cases hdelivers : call.Delivers
  · obtain ⟨more, afterState, hlearns⟩ := h.delivers hdelivers hlawful hlimits
    exact ⟨more, afterState, hlearns.sound⟩
  · cases call with
    | store call =>
        obtain ⟨more, hsound⟩ := h.onStore mesh hlawful hlimits
        exact ⟨more, state, hsound⟩
    | _ => exact absurd trivial hdelivers

end Step

/-! ## Runs -/

section Runs

variable {node : CommonsNode} {before after : NodeDir} {calls : List NodeCall}
  {read more : List Fields} {state : Fields}

theorem Performed.grows (h : Performed node before calls after) : NodeGrows before after := by
  induction h with
  | none => exact Std.Refl.refl (r := NodeGrows) before
  | call mesh _ _ ih => exact IsTrans.trans (r := NodeGrows) _ _ _ ih (nodeGrows_run _ _)

theorem NodeSound.performed (h : NodeSound before read state)
    (hcalls : Performed node before calls after) (hlimits : WithinLimits after.store) :
    ∃ more afterState, NodeSound after (read ++ more) afterState := by
  induction hcalls with
  | none => exact ⟨[], state, by rwa [List.append_nil]⟩
  | call mesh hbefore hlawful ih =>
      obtain ⟨more, middleState, hmiddle⟩ :=
        ih (h.limits hbefore.grows (nodeGrows_run _ _) hlimits)
      obtain ⟨rest, afterState, hafter⟩ := hmiddle.call hlawful hlimits
      exact ⟨more ++ rest, afterState, by rwa [← List.append_assoc]⟩

/-- What deliveries make of a sound node. -/
theorem NodeSound.delivered (h : NodeSound before read state)
    (hcalls : Performed node before calls after) (hdelivers : ∀ call ∈ calls, call.Delivers)
    (hlimits : WithinLimits after.store) :
    ∃ more afterState, Learns (publishedBy calls) read state after more afterState := by
  induction hcalls with
  | none => exact ⟨[], state, h.learns _⟩
  | @call calls dir mesh call hbefore hlawful ih =>
      obtain ⟨more, middleState, hmiddle⟩ :=
        ih (fun other hother => hdelivers other (List.mem_append_left _ hother))
          (h.limits hbefore.grows (nodeGrows_run _ _) hlimits)
      obtain ⟨rest, afterState, hafter⟩ := hmiddle.sound.delivers
        (hdelivers call (List.mem_append_right _ (List.mem_singleton_self call))) hlawful hlimits
      refine ⟨more ++ rest, afterState, ?_⟩
      rw [publishedBy, List.flatMap_append, List.flatMap_singleton]
      exact hmiddle.trans hafter

theorem nodeSound_fresh (node : CommonsNode) :
    ∃ state, NodeSound (freshNode node) [] state := by
  refine ⟨_, sound_fresh, hasState_written rfl, ?_,
    fun event hevent => absurd hevent List.not_mem_nil⟩
  intro digest origin hmark
  rw [markOf_sortKeys] at hmark
  cases hmark

/-! ## What a record says -/

theorem find?_records_append {digest : String} (hheld : HeldIn read digest)
    (more : List Fields) :
    ((payloadsFromRows (read ++ more) "record").find? fun item =>
        (Fields.get item "contentDigest").str? = some digest) =
      (payloadsFromRows read "record").find? fun item =>
        (Fields.get item "contentDigest").str? = some digest := by
  obtain ⟨record, hrecord, hdigest⟩ := hheld
  have hfound : ((payloadsFromRows read "record").find? fun item =>
      (Fields.get item "contentDigest").str? = some digest).isSome := by
    rw [List.find?_isSome]
    exact ⟨record, hrecord, by simp [hdigest, Json.str?]⟩
  obtain ⟨found, hfound⟩ := Option.isSome_iff_exists.mp hfound
  rw [payloadsFromRows_append_rows, List.find?_append, hfound, Option.some_or]

/-- A record that is held says the same after new records. -/
theorem lifecycle_append {store later : StoreDir} (hrows : rows store = .ok read)
    (hlater : rows later = .ok (read ++ more)) (hnew : NewRecords read more) {digest : String}
    (hheld : HeldIn read digest) (domain : Option String) :
    Retention.lifecycle later digest domain = Retention.lifecycle store digest domain := by
  simp only [Retention.lifecycle, Retention.storedRecords_eq hlater,
    Retention.storedEvents_eq hlater, Retention.storedRecords_eq hrows,
    Retention.storedEvents_eq hrows, ok_bind, Retention.payloadsOf, ContentType.value,
    find?_records_append hheld more, hnew.events]

theorem replay_of_not_targeted (target domain initial : String) {events : List Fields}
    (h : ∀ event ∈ events, targetDigest event ≠ some target) :
    (replay target domain initial events).state = initial ∧
      (replay target domain initial events).applied = [] ∧
      (replay target domain initial events).diagnostics = [] := by
  induction events using List.reverseRecOn with
  | nil => exact ⟨rfl, rfl, rfl⟩
  | append_singleton events event ih =>
      have hbefore := ih fun other hother => h other (List.mem_append_left _ hother)
      have hother := h event (List.mem_append_right _ (List.mem_singleton_self event))
      rw [replay_append, replayStep]
      split
      · exact hbefore
      · rw [if_pos (.inl hother)]
        exact hbefore

/-- A record that no event is about is proposed in every domain. -/
theorem lifecycle_of_not_targeted {store : StoreDir} (h : Sound store read) {record : Fields}
    (hrecord : record ∈ payloadsFromRows read "record")
    (hevents : ∀ event ∈ payloadsFromRows read "event",
      targetDigest event ≠ some (digestOf record)) (domain : String) :
    Retention.lifecycle store (digestOf record) (some domain) =
      .ok ⟨LifecycleState.proposed.value, [], [], some domain, []⟩ := by
  have hdigest := @Verified.digestOf_eq _ _ h.verified .record _ hrecord
  have hsome : ((payloadsFromRows read "record").find? fun item =>
      (Fields.get item "contentDigest").str? = some (digestOf record)).isSome := by
    rw [List.find?_isSome]
    exact ⟨record, hrecord, by simp [hdigest, Json.str?]⟩
  obtain ⟨found, hfound⟩ := Option.isSome_iff_exists.mp hsome
  have hmem := List.mem_of_find?_eq_some hfound
  have hsame := List.find?_some hfound
  rw [decide_eq_true_eq, Json.str?_eq_some_iff,
    @Verified.digestOf_eq _ _ h.verified .record _ hmem] at hsame
  obtain ⟨hstate, happlied, hdiagnostics⟩ :=
    replay_of_not_targeted (digestOf record) domain LifecycleState.proposed.value hevents
  have hview := deriveForDomain_eq (@Verified.filed _ _ h.verified .record _ hmem).valid
    (payloadsFromRows read "event") domain
  rw [Json.str.inj hsame, hstate, happlied, hdiagnostics] at hview
  simp only [Retention.lifecycle, Retention.storedRecords_eq h.verified.rows,
    Retention.storedEvents_eq h.verified.rows, ok_bind, Retention.payloadsOf, ContentType.value,
    hfound, deriveLifecycle]
  exact hview

theorem originOf_iff {mesh : MeshHost} {dir : NodeDir} (h : dir.HasState state) {digest : String}
    {origin : Option String} :
    originOf mesh dir digest = .ok origin ↔ markOf state digest = origin := by
  rw [originOf, readState_iff.mpr h]
  exact ⟨Except.ok.inj, congrArg Except.ok⟩

end Runs

/-! ## Deliveries -/

/-- After any calls of a node and of its store, whatever is then published and delivered to
it: the rows get rows of new records; there is no new event, and a record that was held has
the lifecycle that it had; a record that was learned is proposed in every domain; and a mark
stays, or becomes the one of the node itself by publishing, which nothing else sets. -/
theorem delivery_never_promotes {node : CommonsNode} {calls deliveries : List NodeCall}
    {before after : NodeDir} (hbefore : Performed node (freshNode node) calls before)
    (hafter : Performed node before deliveries after)
    (hdelivers : ∀ call ∈ deliveries, call.Delivers) (hlimits : WithinLimits after.store) :
    ∃ read more, rows before.store = .ok read ∧ rows after.store = .ok (read ++ more) ∧
      NewRecords read more ∧
      Retention.storedEvents after.store = Retention.storedEvents before.store ∧
      (∀ digest domain, HeldIn read digest →
        Retention.lifecycle after.store digest domain =
          Retention.lifecycle before.store digest domain) ∧
      (∀ record ∈ payloadsFromRows more "record", ∀ domain,
        Retention.lifecycle after.store (digestOf record) (some domain) =
          .ok ⟨LifecycleState.proposed.value, [], [], some domain, []⟩) ∧
      ∀ mesh digest,
        (∀ origin, originOf mesh before digest = .ok (some origin) →
          originOf mesh after digest = .ok (some origin) ∨
            digest ∈ publishedBy deliveries ∧
              originOf mesh after digest = .ok (some originLocal)) ∧
        (originOf mesh after digest = .ok (some originLocal) →
          originOf mesh before digest = .ok (some originLocal) ∨
            digest ∈ publishedBy deliveries) := by
  obtain ⟨start, hstart⟩ := nodeSound_fresh node
  obtain ⟨read, state, hsound⟩ := hstart.performed hbefore
    (hstart.limits hbefore.grows hafter.grows hlimits)
  rw [List.nil_append] at hsound
  obtain ⟨more, afterState, hlearns⟩ := hsound.delivered hafter hdelivers hlimits
  have hrows := hsound.sound.verified.rows
  have hlater := hlearns.sound.sound.verified.rows
  refine ⟨read, more, hrows, hlater, hlearns.new, ?_, ?_, ?_, fun mesh digest => ⟨?_, ?_⟩⟩
  · rw [Retention.storedEvents_eq hlater, Retention.storedEvents_eq hrows]
    exact congrArg Except.ok hlearns.new.events
  · exact fun digest domain hheld => lifecycle_append hrows hlater hlearns.new hheld domain
  · intro record hrecord domain
    refine lifecycle_of_not_targeted hlearns.sound.sound ?_ (fun event hevent => ?_) domain
    · rw [payloadsFromRows_append_rows]
      exact List.mem_append_right _ hrecord
    · rw [hlearns.new.events] at hevent
      exact hsound.targeted.not_about_new hlearns.new hrecord hevent
  · intro origin hmark
    rw [originOf_iff hlearns.sound.file, originOf_iff hlearns.sound.file]
    exact hlearns.marks digest origin ((originOf_iff hsound.file).mp hmark)
  · intro hmark
    rw [originOf_iff hsound.file]
    exact hlearns.locals digest ((originOf_iff hlearns.sound.file).mp hmark)

/-! ## A first batch -/

/-- A node with the default policy. -/
def plainNode : CommonsNode := ⟨"node", "local", ⟨1024 * 1024, maxSyncRecords, 256, 256⟩⟩

/-- A host without archives. -/
def plainMesh : MeshHost := ⟨.plain, fun _ => "", fun _ => none⟩

/-- A record, and a value that is none. -/
def firstBatch : List Offered := [.mapping firstRecord, .other]

theorem ingestCheck_firstRecord : ingestCheck plainNode firstRecord "peer" = .ok () := by
  decide +kernel

theorem verdict_firstRecord :
    verdict plainNode "peer" (fun _ _ => true) 0 (.mapping firstRecord) =
      .admitted firstRecord := by
  have hsize : ¬ plainNode.policy.maxRecordBytes < encodedBytes firstRecord.fields := by
    decide +kernel
  rw [verdict, if_neg hsize, if_neg (by decide), ingestCheck_firstRecord]

section First

variable {dir : NodeDir} {state : Fields}

/-- A node without rows ingests the record. -/
theorem ingest_firstRecord (h : NodeSound dir [] state) (hstore : dir.store = .fresh) :
    (ingestForeign plainMesh plainNode firstRecord "peer" dir).result =
        .ok ⟨"foreign:" ++ "peer", canonicalDigest firstRecord.fields, false, plainNode.domain⟩ ∧
      (ingestForeign plainMesh plainNode firstRecord "peer" dir).final.store =
        (Call.run .plain (.add .record firstRecord) .fresh).final := by
  have hnew : possesses plainMesh [] (canonicalDigest firstRecord.fields) = false := rfl
  have hfinal : (ingestForeign plainMesh plainNode firstRecord "peer" dir).final.store =
      (Call.run .plain (.add .record firstRecord) .fresh).final := by
    rw [final_ingestForeign_of_new ingestCheck_firstRecord h.sound.verified.rows hnew,
      store_final_addMarked, hstore, final_addRecord]
    rfl
  refine ⟨?_, hfinal⟩
  obtain ⟨more, afterState, -, ⟨error, hadd, -⟩ | ⟨hresult, -⟩⟩ :=
    h.ingest_new ingestCheck_firstRecord hnew lawful_firstRecord.2
      (by rw [hfinal]; exact .of_rows rows_add_firstRecord)
  · obtain ⟨out, hok, -, -⟩ := add_firstRecord .plain
    rw [hstore] at hadd
    cases hadd.symm.trans hok
  · exact hresult

/-- It skips the other value. -/
theorem receive_firstBatch (h : NodeSound dir [] state) (hstore : dir.store = .fresh) :
    (∃ bytes, (receiveRecords plainMesh plainNode firstBatch "peer" none false dir).result =
        .ok ⟨"peer", 2, 1, 0, 0, 0, 1, bytes, 0, ["NON_RECORD_SKIPPED"]⟩) ∧
      (receiveRecords plainMesh plainNode firstBatch "peer" none false dir).final.store =
        (Call.run .plain (.add .record firstRecord) .fresh).final := by
  obtain ⟨hresult, hfinal⟩ := ingest_firstRecord h hstore
  have hone : (receiveOne plainMesh plainNode "peer" (fun _ _ => true) 0 (.mapping firstRecord)
      .empty dir).result = .ok (SyncTally.empty.hold false (encodedBytes firstRecord.fields)) := by
    rw [receiveOne_eq_answer, verdict_firstRecord]
    simp [Verdict.answer, Program.handle, Run.andThen, hresult]
  have hends : (receiveOne plainMesh plainNode "peer" (fun _ _ => true) 0 (.mapping firstRecord)
      .empty dir).final = (ingestForeign plainMesh plainNode firstRecord "peer" dir).final := by
    rw [receiveOne_eq_answer, verdict_firstRecord, final_answer_admitted]
  have hbatch : ∃ trace, receiveAll plainMesh plainNode "peer" (fun _ _ => true) 0 firstBatch .empty
      dir = ⟨trace, (ingestForeign plainMesh plainNode firstRecord "peer" dir).final, .ok
        ((SyncTally.empty.hold false (encodedBytes firstRecord.fields)).skipPolicy
          "NON_RECORD_SKIPPED")⟩ := by
    rw [firstBatch, receiveAll, Program.bind_apply, Run.andThen_of_ok hone, hends]
    simp only [receiveAll, receiveOne, Program.bind_apply, Program.pure_apply, Run.andThen_ok]
    exact ⟨_, rfl⟩
  obtain ⟨trace, hbatch⟩ := hbatch
  have hgate : interestGate false none firstBatch = .ok fun _ _ => true := rfl
  have hupTo : upTo plainNode.policy.maxSyncRecords firstBatch = firstBatch := rfl
  rw [receiveRecords_of_gate _ _ _ hgate, hupTo, hbatch, Run.andThen_ok, Program.pure_apply]
  dsimp only
  refine ⟨⟨encodedBytes firstRecord.fields, ?_⟩, hfinal⟩
  simp [SyncTally.report, SyncTally.skipPolicy, SyncTally.hold, SyncTally.empty, firstBatch]

end First

theorem store_freshNode (node : CommonsNode) : (freshNode node).store = .fresh := rfl

theorem lawful_firstBatch : (NodeCall.receive firstBatch "peer" none false).Lawful := by
  intro record hrecord
  obtain hfirst | hother := List.mem_cons.mp hrecord
  · cases hfirst
    exact lawful_firstRecord.2
  · cases List.mem_singleton.mp hother

theorem delivery_never_promotes_firstBatch :
    ∃ read more, rows (freshNode plainNode).store = .ok read ∧
      rows (NodeCall.run plainMesh plainNode (.receive firstBatch "peer" none false)
        (freshNode plainNode)).final.store = .ok (read ++ more) ∧ NewRecords read more := by
  obtain ⟨state, hfresh⟩ := nodeSound_fresh plainNode
  obtain ⟨-, hstore⟩ := receive_firstBatch hfresh (store_freshNode plainNode)
  have hlimits : WithinLimits (NodeCall.run plainMesh plainNode
      (.receive firstBatch "peer" none false) (freshNode plainNode)).final.store := by
    rw [NodeCall.run, final_ignored, hstore]
    exact .of_rows rows_add_firstRecord
  have hdelivers : ∀ call ∈ [] ++ [NodeCall.receive firstBatch "peer" none false],
      call.Delivers := by
    intro call hcall
    cases List.mem_singleton.mp hcall
    trivial
  obtain ⟨read, more, hread, hafter, hnew, -⟩ := delivery_never_promotes .none
    (.call plainMesh .none lawful_firstBatch) hdelivers hlimits
  exact ⟨read, more, hread, hafter, hnew⟩

end MncsCommons.Mesh
