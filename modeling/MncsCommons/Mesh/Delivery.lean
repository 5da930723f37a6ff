/-
# What a delivery leaves

Whatever is published and delivered to a node, in whatever order and whether the calls
return or raise, its ledger only gets rows of records.  No such call makes an event, so the
lifecycle of a record that is held never changes, a record that is learned is proposed in
every domain, and a mark that is set stays, unless the node publishes the record itself
(`delivery_never_promotes`).  A batch that is received accounts for every value it
processes, and to receive it again changes nothing (`receive_accounts`).
-/

import MncsCommons.Mesh.Possession

namespace MncsCommons.Mesh

open MncsCommons.Data MncsCommons.Protocol MncsCommons.Store MncsCommons.Exec

/-! ## Tallies -/

namespace SyncTally

/-- The counts of a batch and of the next one. -/
def merge (first second : SyncTally) : SyncTally where
  received := first.received + second.received
  duplicates := first.duplicates + second.duplicates
  skippedByInterest := first.skippedByInterest + second.skippedByInterest
  skippedByPolicy := first.skippedByPolicy + second.skippedByPolicy
  bytesReceived := first.bytesReceived + second.bytesReceived
  diagnostics := first.diagnostics ++ second.diagnostics

/-- How many values the counts are about. -/
def processed (tally : SyncTally) : Nat :=
  tally.received + tally.duplicates + tally.skippedByInterest + tally.skippedByPolicy

/-- The counts when everything that was received is held already. -/
def again (tally : SyncTally) : SyncTally :=
  { tally with received := 0, duplicates := tally.received + tally.duplicates }

theorem merge_empty (tally : SyncTally) : tally.merge .empty = tally := by
  simp [merge, empty]

theorem empty_merge (tally : SyncTally) : SyncTally.empty.merge tally = tally := by
  simp [merge, empty]

theorem merge_assoc (first second third : SyncTally) :
    (first.merge second).merge third = first.merge (second.merge third) := by
  simp [merge, Nat.add_assoc]

theorem again_merge (first second : SyncTally) :
    (first.merge second).again = first.again.merge second.again := by
  simp only [merge, again, SyncTally.mk.injEq, true_and, and_true]
  omega

theorem processed_merge (first second : SyncTally) :
    (first.merge second).processed = first.processed + second.processed := by
  simp only [merge, processed]
  omega

theorem skipPolicy_eq_merge (tally : SyncTally) (code : String) :
    tally.skipPolicy code = tally.merge (empty.skipPolicy code) := by
  simp [merge, skipPolicy, empty]

theorem skipInterest_eq_merge (tally : SyncTally) :
    tally.skipInterest = tally.merge empty.skipInterest := by
  simp [merge, skipInterest, empty]

theorem hold_eq_merge (tally : SyncTally) (duplicate : Bool) (bytes : Nat) :
    tally.hold duplicate bytes = tally.merge (empty.hold duplicate bytes) := by
  cases duplicate <;> simp [merge, hold, empty]

end SyncTally

/-! ## One value of a batch -/

/-- What becomes of an offered value. -/
inductive Verdict where
  | policy (code : String)
  | interest
  | raises (error : MeshError)
  | admitted (record : Mapping)

section Receiving

variable {mesh : MeshHost} {node : CommonsNode} {source : String} {gate : Nat → Fields → Bool}
  {index : Nat} {offered : Offered} {dir : NodeDir} {read : List Fields} {state : Fields}
  {tally : SyncTally}

/-- What a node makes of an offered value before it asks the store. -/
def verdict (node : CommonsNode) (source : String) (gate : Nat → Fields → Bool) (index : Nat) :
    Offered → Verdict
  | .other => .policy "NON_RECORD_SKIPPED"
  | .mapping record =>
      if node.policy.maxRecordBytes < encodedBytes record.fields then
        .policy "OVERSIZE_RECORD_SKIPPED"
      else if !gate index record.fields then .interest
      else match ingestCheck node record source with
        | .ok _ => .admitted record
        | .error (.mesh code _) => .policy code
        | .error error => .raises error

/-- What the verdict makes of the counts. -/
def Verdict.answer (mesh : MeshHost) (node : CommonsNode) (source : String) (tally : SyncTally) :
    Verdict → NodeM SyncTally
  | .policy code => return tally.skipPolicy code
  | .interest => return tally.skipInterest
  | .raises error => Program.raise error
  | .admitted record => Program.handle
      (do
        let receipt ← ingestForeign mesh node record source
        return tally.hold receipt.duplicate (encodedBytes record.fields))
      (skipRaised tally)

theorem receiveOne_eq_answer (tally : SyncTally) (dir : NodeDir) :
    receiveOne mesh node source gate index offered tally dir =
      (verdict node source gate index offered).answer mesh node source tally dir := by
  cases offered with
  | other => rfl
  | mapping record =>
      rw [receiveOne, verdict]
      split
      · rfl
      · split
        · rfl
        · cases hcheck : ingestCheck node record source with
          | ok _ => rfl
          | error error =>
              cases error <;>
                simp [Program.handle, ingestForeign_of_error hcheck, Verdict.answer, skipRaised]

theorem nodeGrows_receiveOne (index : Nat) (offered : Offered) (tally : SyncTally) :
    Program.Follows NodeGrows (receiveOne mesh node source gate index offered tally) := by
  intro dir
  rw [receiveOne_eq_answer]
  cases verdict node source gate index offered with
  | admitted record =>
      rw [Verdict.answer, Program.final_handle_of_keeps]
      · exact Program.follows_bind (nodeGrows_ingestForeign record source)
          (fun _ => Program.follows_pure _) dir
      · intro error state
        cases error <;> rfl
  | _ => exact Std.Refl.refl (r := NodeGrows) dir

theorem nodeGrows_receiveAll (offered : List Offered) (index : Nat) (tally : SyncTally) :
    Program.Follows NodeGrows (receiveAll mesh node source gate index offered tally) := by
  induction offered generalizing index tally with
  | nil => exact Program.follows_pure _
  | cons first rest ih =>
      exact Program.follows_bind (nodeGrows_receiveOne index first tally) fun _ => ih _ _

theorem admitted_of_verdict {record : Mapping}
    (h : verdict node source gate index offered = .admitted record) :
    offered = .mapping record ∧ ingestCheck node record source = .ok () := by
  cases offered with
  | other => cases h
  | mapping other =>
      rw [verdict] at h
      split at h
      · cases h
      · split at h
        · cases h
        · cases hcheck : ingestCheck node other source with
          | ok _ =>
              rw [hcheck] at h
              obtain rfl := Verdict.admitted.inj h
              exact ⟨rfl, hcheck⟩
          | error error =>
              rw [hcheck] at h
              cases error <;> cases h

theorem final_answer_admitted (record : Mapping) (tally : SyncTally) (dir : NodeDir) :
    ((Verdict.admitted record).answer mesh node source tally dir).final =
      (ingestForeign mesh node record source dir).final := by
  rw [Verdict.answer, Program.final_handle_of_keeps, Program.final_bind_of_keeps]
  · exact fun _ _ => rfl
  · intro error dir
    cases error <;> rfl

theorem answer_of_possessed {record : Mapping} (hcheck : ingestCheck node record source = .ok ())
    (hrows : rows dir.store = .ok read)
    (h : possesses mesh read (canonicalDigest record.fields) = true) (tally : SyncTally) :
    (Verdict.admitted record).answer mesh node source tally dir =
      ⟨[], dir, .ok (tally.hold true (encodedBytes record.fields))⟩ := by
  simp [Verdict.answer, Program.handle, ingestForeign_of_check mesh hcheck hrows, h]

/-- What a node makes of values that it is offered: the counts are those of the values and of
the rows it gets, and when it possesses all of it, nothing changes but the counts. -/
structure Received (mesh : MeshHost) (program : SyncTally → NodeM SyncTally) (count : Nat)
    (read more : List Fields) (batch : SyncTally) : Prop where
  received : batch.received = more.length
  processed : batch.processed = count
  again : ∀ later laterRead, rows later.store = .ok laterRead →
    (∀ digest, possesses mesh (read ++ more) digest = true →
      possesses mesh laterRead digest = true) →
    ∀ other, program other later = ⟨[], later, .ok (other.merge batch.again)⟩

/-- The step of the loop. -/
theorem NodeSound.receiveOne (h : NodeSound dir read state)
    (hlawful : ∀ record, offered = .mapping record → (Call.add .record record).DigestNotNull)
    (hlimits : WithinLimits
      (receiveOne mesh node source gate index offered tally dir).final.store) :
    ∃ more afterState, Learns [] read state
        (receiveOne mesh node source gate index offered tally dir).final more afterState ∧
      ((∃ error, (receiveOne mesh node source gate index offered tally dir).result =
          .error error) ∨
        ∃ batch, (receiveOne mesh node source gate index offered tally dir).result =
            .ok (tally.merge batch) ∧
          Received mesh (Mesh.receiveOne mesh node source gate index offered) 1 read more
            batch) := by
  have hanswer : ∀ tally dir, Mesh.receiveOne mesh node source gate index offered tally dir =
      (verdict node source gate index offered).answer mesh node source tally dir :=
    receiveOne_eq_answer
  rw [hanswer] at hlimits ⊢
  cases hverdict : verdict node source gate index offered with
  | policy code =>
      refine ⟨[], state, h.learns [], .inr ⟨SyncTally.empty.skipPolicy code, ?_, rfl, rfl, ?_⟩⟩
      · rw [← SyncTally.skipPolicy_eq_merge]
        rfl
      · intro later laterRead _ _ other
        rw [hanswer, hverdict, SyncTally.again]
        exact congrArg (fun tally => Run.mk [] later (.ok tally)) (other.skipPolicy_eq_merge code)
  | interest =>
      refine ⟨[], state, h.learns [], .inr ⟨SyncTally.empty.skipInterest, ?_, rfl, rfl, ?_⟩⟩
      · rw [← SyncTally.skipInterest_eq_merge]
        rfl
      · intro later laterRead _ _ other
        rw [hanswer, hverdict, SyncTally.again]
        exact congrArg (fun tally => Run.mk [] later (.ok tally)) other.skipInterest_eq_merge
  | raises error => exact ⟨[], state, h.learns [], .inl ⟨error, rfl⟩⟩
  | admitted record =>
      obtain ⟨rfl, hcheck⟩ := admitted_of_verdict hverdict
      have hagain : ∀ more duplicate, possesses mesh (read ++ more)
          (canonicalDigest record.fields) = true →
          ∀ later laterRead, rows later.store = .ok laterRead →
            (∀ digest, possesses mesh (read ++ more) digest = true →
              possesses mesh laterRead digest = true) →
            ∀ other, Mesh.receiveOne mesh node source gate index (.mapping record) other later =
              ⟨[], later, .ok (other.merge
                (SyncTally.empty.hold duplicate (encodedBytes record.fields)).again)⟩ := by
        intro more duplicate hmore later laterRead hrows hlater other
        rw [hanswer, hverdict, answer_of_possessed hcheck hrows (hlater _ hmore),
          SyncTally.hold_eq_merge]
        cases duplicate <;> rfl
      cases hpossesses : possesses mesh read (canonicalDigest record.fields) with
      | true =>
          rw [answer_of_possessed hcheck h.sound.verified.rows hpossesses]
          refine ⟨[], state, h.learns [], .inr ⟨SyncTally.empty.hold true
            (encodedBytes record.fields), ?_, rfl, rfl, hagain [] true ?_⟩⟩
          · rw [← SyncTally.hold_eq_merge]
          · exact possesses_append hpossesses []
      | false =>
          rw [hverdict, final_answer_admitted] at hlimits
          rw [final_answer_admitted]
          obtain ⟨more, afterState, hlearns, ⟨error, -, hresult⟩ | ⟨hresult, hlength, hheld, -⟩⟩ :=
            h.ingest_new hcheck hpossesses (hlawful record rfl) hlimits
          · refine ⟨more, afterState, hlearns, .inl ⟨.raised error, ?_⟩⟩
            simp [Verdict.answer, Program.handle, Run.andThen, hresult, skipRaised]
          · refine ⟨more, afterState, hlearns, .inr ⟨SyncTally.empty.hold false
              (encodedBytes record.fields), ?_, hlength.symm, rfl,
              hagain more false (possesses_of_heldIn hheld)⟩⟩
            rw [← SyncTally.hold_eq_merge]
            simp [Verdict.answer, Program.handle, Run.andThen, hresult]

/-- The loop over a batch. -/
theorem NodeSound.receiveAll {offered : List Offered} (h : NodeSound dir read state)
    (hlawful : ∀ record, .mapping record ∈ offered → (Call.add .record record).DigestNotNull)
    (hlimits : WithinLimits
      (receiveAll mesh node source gate index offered tally dir).final.store) :
    ∃ more afterState, Learns [] read state
        (receiveAll mesh node source gate index offered tally dir).final more afterState ∧
      ((∃ error, (receiveAll mesh node source gate index offered tally dir).result =
          .error error) ∨
        ∃ batch, (receiveAll mesh node source gate index offered tally dir).result =
            .ok (tally.merge batch) ∧
          Received mesh (Mesh.receiveAll mesh node source gate index offered) offered.length
            read more batch) := by
  induction offered generalizing index tally dir read state with
  | nil =>
      refine ⟨[], state, h.learns [], .inr ⟨.empty, ?_, rfl, rfl, ?_⟩⟩
      · rw [SyncTally.merge_empty]
        rfl
      · intro later laterRead _ _ other
        exact congrArg (fun tally => Run.mk [] later (.ok tally)) other.merge_empty.symm
  | cons first rest ih =>
      have hrun := Program.bind_apply (Mesh.receiveOne mesh node source gate index first tally)
        (Mesh.receiveAll mesh node source gate (index + 1) rest) dir
      change Mesh.receiveAll mesh node source gate index (first :: rest) tally dir = _ at hrun
      have hone : WithinLimits
          (Mesh.receiveOne mesh node source gate index first tally dir).final.store := by
        refine h.limits (nodeGrows_receiveOne index first tally dir) ?_ hlimits
        rw [hrun, Run.andThen]
        cases (Mesh.receiveOne mesh node source gate index first tally dir).result with
        | error error => exact Std.Refl.refl (r := NodeGrows) _
        | ok next => exact nodeGrows_receiveAll rest (index + 1) next _
      obtain ⟨more, middleState, hlearns, ⟨error, hresult⟩ | ⟨batch, hresult, hfirst⟩⟩ :=
        h.receiveOne (fun record hrecord => hlawful record (hrecord ▸ List.mem_cons_self)) hone
      · rw [hrun, Run.andThen_of_error hresult]
        exact ⟨more, middleState, hlearns, .inl ⟨error, rfl⟩⟩
      rw [hrun, Run.andThen_of_ok hresult] at hlimits ⊢
      obtain ⟨others, afterState, hafter, hrest⟩ := ih hlearns.sound
        (fun record hrecord => hlawful record (List.mem_cons_of_mem _ hrecord)) hlimits
      refine ⟨more ++ others, afterState, hlearns.trans hafter, ?_⟩
      obtain ⟨error, herror⟩ | ⟨next, hnext, hsecond⟩ := hrest
      · exact .inl ⟨error, herror⟩
      · refine .inr ⟨batch.merge next, ?_, ?_, ?_, ?_⟩
        · rw [hnext, SyncTally.merge_assoc]
        · rw [List.length_append, ← hfirst.received, ← hsecond.received]
          rfl
        · rw [SyncTally.processed_merge, hfirst.processed, hsecond.processed, List.length_cons,
            Nat.add_comm]
        · intro later laterRead hrows hlater other
          rw [← List.append_assoc] at hlater
          have hstep := hfirst.again later laterRead hrows
            (fun digest hdigest => hlater digest (possesses_append hdigest others)) other
          have hloop := hsecond.again later laterRead hrows hlater (other.merge batch.again)
          change (Mesh.receiveOne mesh node source gate index first other later).andThen
            (Mesh.receiveAll mesh node source gate (index + 1) rest) = _
          rw [hstep, Run.andThen_ok, hloop, SyncTally.again_merge, SyncTally.merge_assoc]
          rfl

end Receiving

/-! ## Batches -/

section Batch

variable {mesh : MeshHost} {node : CommonsNode} {offered : List Offered} {source : String}
  {interest : Option InterestFilter} {executor : Bool} {dir : NodeDir} {read : List Fields}
  {state : Fields}

/-- The report on a batch with the counts. -/
def SyncTally.report (tally : SyncTally) (source : String) (offered : Nat) : SyncReport :=
  ⟨source, offered, tally.received, 0, tally.duplicates, tally.skippedByInterest,
    tally.skippedByPolicy, tally.bytesReceived, 0, tally.diagnostics.take 32⟩

theorem receiveRecords_of_gate (mesh : MeshHost) (node : CommonsNode) (source : String)
    {gate : Nat → Fields → Bool} (h : interestGate executor interest offered = .ok gate) (dir : NodeDir) :
    receiveRecords mesh node offered source interest executor dir =
      (receiveAll mesh node source gate 0 (upTo node.policy.maxSyncRecords offered) .empty
        dir).andThen fun tally => pure (tally.report source offered.length) := by
  simp only [receiveRecords, h, Program.bind_apply, Program.lift_apply, Run.andThen_ok,
    List.nil_append]
  rfl

theorem receiveRecords_of_error {error : MeshError}
    (h : interestGate executor interest offered = .error error) (dir : NodeDir) :
    receiveRecords mesh node offered source interest executor dir =
      ⟨[], dir, .error error⟩ := by
  simp [receiveRecords, h]

theorem mem_of_mem_upTo {α : Type} {bound : Int} {items : List α} {item : α}
    (h : item ∈ upTo bound items) : item ∈ items :=
  List.mem_of_mem_take h

theorem nodeGrows_receiveRecords :
    Program.Follows NodeGrows (receiveRecords mesh node offered source interest executor) :=
  Program.follows_bind (Program.follows_lift _) fun _ =>
    Program.follows_bind (nodeGrows_receiveAll _ _ _) fun _ => Program.follows_pure _

/-- A batch that is received: a sound node learns records, and the report counts them. -/
theorem NodeSound.receiveRecords (h : NodeSound dir read state)
    (hlawful : ∀ record, .mapping record ∈ offered → (Call.add .record record).DigestNotNull)
    (hlimits : WithinLimits
      (receiveRecords mesh node offered source interest executor dir).final.store) :
    ∃ more afterState, Learns [] read state
        (receiveRecords mesh node offered source interest executor dir).final more afterState ∧
      ((∃ error, (receiveRecords mesh node offered source interest executor dir).result =
          .error error) ∨
        ∃ batch : SyncTally,
          (receiveRecords mesh node offered source interest executor dir).result =
            .ok (batch.report source offered.length) ∧
          batch.received = more.length ∧
          batch.processed = (upTo node.policy.maxSyncRecords offered).length ∧
          ∀ later laterRead, rows later.store = .ok laterRead →
            (∀ digest, possesses mesh (read ++ more) digest = true →
              possesses mesh laterRead digest = true) →
            Mesh.receiveRecords mesh node offered source interest executor later =
              ⟨[], later, .ok (batch.again.report source offered.length)⟩) := by
  cases hgate : interestGate executor interest offered with
  | error error =>
      rw [receiveRecords_of_error hgate]
      exact ⟨[], state, h.learns [], .inl ⟨error, rfl⟩⟩
  | ok gate =>
      have hrun := receiveRecords_of_gate mesh node source hgate
      have hfinal : (Mesh.receiveRecords mesh node offered source interest executor dir).final =
          (Mesh.receiveAll mesh node source gate 0 (upTo node.policy.maxSyncRecords offered) .empty
            dir).final := by
        rw [hrun, Run.andThen]
        cases (Mesh.receiveAll mesh node source gate 0 (upTo node.policy.maxSyncRecords offered)
          .empty dir).result <;> rfl
      rw [hfinal] at hlimits ⊢
      obtain ⟨more, afterState, hlearns, ⟨error, hresult⟩ | ⟨batch, hresult, hreceived⟩⟩ :=
        h.receiveAll (fun record hrecord => hlawful record (mem_of_mem_upTo hrecord)) hlimits
      · refine ⟨more, afterState, hlearns, .inl ⟨error, ?_⟩⟩
        rw [hrun, Run.andThen_of_error hresult]
      · refine ⟨more, afterState, hlearns, .inr ⟨batch, ?_, hreceived.received,
          hreceived.processed, fun later laterRead hrows hlater => ?_⟩⟩
        · rw [hrun, Run.andThen_of_ok hresult, SyncTally.empty_merge]
          rfl
        · rw [hrun, hreceived.again later laterRead hrows hlater, Run.andThen_ok,
            SyncTally.empty_merge]
          rfl

end Batch

end MncsCommons.Mesh
