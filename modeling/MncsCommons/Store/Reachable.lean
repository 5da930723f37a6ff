/-
# Reachable stores

A store is reachable when calls lead to it from a new one, each of them accepted
or rejected.  Every call leaves the ledger as it is or extends it by whole lines
(`grows_run`), so what was readable once stays a prefix of what is there.

`Sound` is the invariant of such runs: the store is verified, and a tail cache
that reads as one is the end of the ledger.  `Sound.step` says what one call can
do to it, and `Reachable.sound` follows by induction on the calls.
-/

import MncsCommons.Store.Recovery

namespace MncsCommons.Store

open MncsCommons.Data MncsCommons.Protocol MncsCommons.Exec

/-! ## The ledger only grows -/

/-- The ledger is extended by whole lines. -/
def Grows (store after : StoreDir) : Prop :=
  ∃ more, EndsLine more ∧ after.ledger.getD [] = store.ledger.getD [] ++ more

theorem EndsLine.append {text more : Text} (htext : EndsLine text) (hmore : EndsLine more) :
    EndsLine (text ++ more) := by
  rcases hmore with rfl | hlast
  · rwa [List.append_nil]
  · right
    rw [List.getLast?_append, hlast]
    rfl

theorem endsLine_rowLine (row : Fields) : EndsLine (rowLine row) := by
  right
  rw [rowLine, List.getLast?_append]
  rfl

instance : Std.Refl Grows where
  refl _ := ⟨[], .inl rfl, (List.append_nil _).symm⟩

instance : IsTrans StoreDir Grows where
  trans first second third := by
    rintro ⟨more, hmore, hsecond⟩ ⟨rest, hrest, hthird⟩
    exact ⟨more ++ rest, hmore.append hrest, by rw [hthird, hsecond, List.append_assoc]⟩

theorem grows_of_ledger {store after : StoreDir} (h : after.ledger = store.ledger) :
    Grows store after :=
  ⟨[], .inl rfl, by rw [h, List.append_nil]⟩

theorem grows_appendRow (row : Fields) : Program.Follows Grows (appendRow row) :=
  Program.follows_step fun _ => ⟨rowLine row, endsLine_rowLine row, rfl⟩

theorem grows_writeTail (row : Fields) : Program.Follows Grows (writeTail row) :=
  Program.follows_step fun _ => grows_of_ledger rfl

theorem grows_removeTransaction (host : Host) (name : String) :
    Program.Follows Grows (removeTransaction host name) := by
  refine Program.follows_bind Program.follows_get fun _ => ?_
  refine Program.follows_bind (Program.follows_forEach (fun file => ?_) _) fun _ => ?_
  · exact Program.follows_step fun _ => grows_of_ledger rfl
  · exact Program.follows_step fun _ => grows_of_ledger rfl

theorem ledger_writePath (store : StoreDir) (path : String) (text : Text) :
    (store.writePath path text).ledger = store.ledger := by
  rw [StoreDir.writePath]
  split <;> simp

theorem grows_loadTail : Program.Follows Grows loadTail := by
  refine Program.follows_bind Program.follows_get fun store => ?_
  refine Program.follows_bind (Program.follows_lift _) fun _ => ?_
  split
  · exact Program.follows_pure _
  · refine Program.follows_bind (Program.follows_lift _) fun read => ?_
    refine Program.follows_bind (Program.follows_step fun _ => ?_) fun _ => Program.follows_pure _
    exact grows_of_ledger rfl

theorem grows_stageTransaction (host : Host) (type : ContentType) (payload row : Fields)
    (tail : LedgerTail) : Program.Follows Grows (stageTransaction host type payload row tail) := by
  refine Program.follows_bind Program.follows_get fun store => ?_
  refine Program.follows_bind (Program.follows_step fun _ => grows_of_ledger rfl) fun _ => ?_
  dsimp only
  split
  · exact Program.follows_bind (grows_removeTransaction host _) fun _ => Program.follows_raise _
  · refine Program.follows_bind (Program.follows_step fun _ => grows_of_ledger rfl) fun _ => ?_
    refine Program.follows_bind (Program.follows_step fun _ => grows_of_ledger rfl) fun _ => ?_
    exact Program.follows_pure _

theorem grows_finishTransaction (host : Host) (name : String) (row : Fields) :
    Program.Follows Grows (finishTransaction host name row) := by
  have hrest : Program.Follows Grows
      (do appendRow row; writeTail row; removeTransaction host name : StoreM Unit) :=
    Program.follows_bind (grows_appendRow row) fun _ =>
      Program.follows_bind (grows_writeTail row) fun _ => grows_removeTransaction host name
  refine Program.follows_bind Program.follows_get fun store => ?_
  refine Program.follows_bind (Program.follows_lift _) fun journal => ?_
  refine Program.follows_bind (Program.follows_lift _) fun content => ?_
  dsimp only
  split
  · exact Program.follows_bind (Program.follows_lift _) fun _ => hrest
  · refine Program.follows_bind (Program.follows_step fun _ => ?_) fun _ => hrest
    exact grows_of_ledger (ledger_writePath _ _ _)

theorem grows_commit (host : Host) (type : ContentType) (payload : Fields) :
    Program.Follows Grows (commit host type payload) :=
  Program.follows_bind grows_loadTail fun _ =>
    Program.follows_bind (grows_stageTransaction host type payload _ _) fun name =>
      grows_finishTransaction host name _

/-- Every call leaves the ledger or extends it by whole lines. -/
theorem grows_run (host : Host) (call : Call) : Program.Follows Grows (call.run host) := by
  cases call with
  | add type value =>
      refine Program.follows_bind ?_ fun _ => Program.follows_pure _
      refine Program.follows_bind Program.follows_get fun store => ?_
      refine Program.follows_bind (Program.follows_lift _) fun stored => ?_
      split
      · exact Program.follows_pure _
      · exact Program.follows_bind (grows_commit host type _) fun _ => Program.follows_pure _
  | snapshot payload =>
      refine Program.follows_bind ?_ fun _ => Program.follows_pure _
      refine Program.follows_bind Program.follows_get fun store => ?_
      refine Program.follows_bind (Program.follows_lift _) fun _ => ?_
      refine Program.follows_bind (Program.follows_lift _) fun _ => ?_
      refine Program.follows_bind grows_loadTail fun tail => ?_
      refine Program.follows_bind (grows_appendRow _) fun _ => ?_
      exact Program.follows_bind (grows_writeTail _) fun _ => Program.follows_pure _

/-! ## Within the limits -/

/-- The ledger is within the limits of `rows`, whatever its lines hold. -/
structure WithinLimits (store : StoreDir) : Prop where
  lines : ∀ line ∈ splitLines (store.ledger.getD []), Text.byteSize line ≤ maxLedgerLineBytes
  bytes : store.ledgerBytes ≤ maxLedgerBytes
  count : (splitLines (store.ledger.getD [])).length ≤ maxLedgerRows

theorem WithinLimits.of_rows {store : StoreDir} {read : List Fields}
    (h : rows store = .ok read) : WithinLimits store := by
  obtain ⟨-, hrows, hbytes, hcount⟩ := rows_eq_ok_iff.mp h
  have hlines : List.Forall₂ (fun line row => Text.byteSize line ≤ maxLedgerLineBytes ∧
      ReadsRow line row) (splitLines (store.ledger.getD [])) read :=
    hrows.imp fun _ _ hreads => ⟨hreads.1, hreads⟩
  exact ⟨((List.forall₂_and_left _ _).mp hlines).1, hbytes, hrows.length_eq.trans_le hcount⟩

/-- What a ledger has been was within the limits when it is. -/
theorem WithinLimits.of_grows {store after : StoreDir} (hends : EndsLine (store.ledger.getD []))
    (hgrows : Grows store after) (h : WithinLimits after) : WithinLimits store := by
  obtain ⟨more, -, hafter⟩ := hgrows
  obtain ⟨hlines, hbytes, hcount⟩ := h
  rw [hafter, splitLines_append hends] at hlines hcount
  rw [StoreDir.ledgerBytes, hafter, Text.byteSize_append] at hbytes
  refine ⟨fun line hline => hlines line (List.mem_append_left _ hline), ?_, ?_⟩
  · exact (Nat.le_add_right _ _).trans hbytes
  · rw [List.length_append] at hcount
    exact (Nat.le_add_right _ _).trans hcount

/-- A row that was appended within the limits fitted. -/
theorem WithinLimits.fits {store after : StoreDir} {read : List Fields} {row : Fields}
    (hread : rows store = .ok read) (hends : EndsLine (store.ledger.getD []))
    (hafter : after.ledger.getD [] = store.ledger.getD [] ++ rowLine row)
    (h : WithinLimits after) : Fits store read row := by
  obtain ⟨-, hrows, -, -⟩ := rows_eq_ok_iff.mp hread
  obtain ⟨hlines, hbytes, hcount⟩ := h
  rw [hafter, splitLines_append_rowLine hends] at hlines hcount
  rw [StoreDir.ledgerBytes, hafter, Text.byteSize_append] at hbytes
  rw [List.length_append, List.length_singleton, hrows.length_eq] at hcount
  exact ⟨hends, hlines _ (List.mem_append_right _ (List.mem_singleton_self _)), hbytes, hcount⟩

/-! ## The invariant -/

/-- A verified store whose tail cache, if it reads as one, is the end of the
ledger. -/
structure Sound (store : StoreDir) (read : List Fields) : Prop where
  verified : Verified store read
  endsLine : EndsLine (store.ledger.getD [])
  tail : ∀ tail, cachedTail store = some tail → AtEnd tail read

/-- What a tail file reads back as. -/
theorem loads_tailText {sequence : Int} {digest : Json} {bytes : Nat} (hwf : digest.wf = true) :
    loads (tailText (.int sequence) digest bytes) =
      some (.obj (Fields.sortKeys [("sequence", .int sequence), ("entryDigest", digest),
        ("ledgerBytes", .int bytes)])) := by
  have hfields : (Json.obj [("sequence", .int sequence), ("entryDigest", digest),
      ("ledgerBytes", .int bytes)]).wf = true := by
    refine Json.wf_obj_iff.mpr ⟨?_, ?_⟩
    · change ["sequence", "entryDigest", "ledgerBytes"].Nodup
      decide
    · simp only [List.forall_mem_cons]
      exact ⟨rfl, hwf, rfl, by simp⟩
  rw [tailText, loads_canonicalJson hfields, canon_obj, canonFields_of_inert_keys]
  change ∀ key ∈ ["sequence", "entryDigest", "ledgerBytes"], Inert [key]
  decide

theorem cachedTail_tailText {store : StoreDir} {sequence : Int} {digest : Json} {bytes : Nat}
    (hwf : digest.wf = true) {tail : LedgerTail}
    (h : cachedTail { store with tail := some (tailText (.int sequence) digest bytes) } =
      some tail) :
    tail = ⟨sequence, digest.sortKeys, bytes⟩ := by
  simp only [cachedTail, Option.bind_eq_bind, Option.bind_some, Option.ite_none_left_eq_some,
    loads_tailText hwf, Json.obj?, Fields.get_sortKeys, Fields.get?_sortKeys] at h
  obtain ⟨-, h⟩ := h
  exact (Option.some.inj h).symm

theorem Chain.atEnd_tailFromRows {read : List Fields} (h : Chain 1 .null read)
    (store : StoreDir) : AtEnd (tailFromRows store read) read := by
  refine ⟨rfl, ?_⟩
  rcases List.eq_nil_or_concat' read with rfl | ⟨before, row, rfl⟩
  · rfl
  · have hdigest := (chain_append_iff.mp h).2.digest
    simp [tailFromRows, hdigest]

/-- The next row is written at the end of the ledger. -/
theorem Chain.atEnd_position {store : StoreDir} {read : List Fields} (h : Chain 1 .null read)
    (htail : ∀ tail, cachedTail store = some tail → AtEnd tail read) :
    AtEnd (position store read) read := by
  rw [position]
  cases htrusted : trustedTail store with
  | some tail => exact htail tail (trustedTail_eq_some htrusted)
  | none => exact h.atEnd_tailFromRows store

/-- The digest at the end of the ledger is a string or missing. -/
theorem AtEnd.scalar {read : List Fields} {position : LedgerTail} (h : AtEnd position read)
    (hchain : Chain 1 .null read) :
    position.entryDigest.wf = true ∧ position.entryDigest.sortKeys = position.entryDigest := by
  rw [h.entryDigest]
  rcases hchain.lastDigest_eq with hdigest | ⟨digest, hdigest⟩ <;> rw [hdigest] <;>
    exact ⟨rfl, by simp⟩

/-- The end of the ledger after the next row. -/
theorem AtEnd.next {read : List Fields} {tail : LedgerTail} (h : AtEnd tail read)
    {entryType : String} {payload : Fields} {digest : Json}
    (hdigest : digest = Fields.get (makeLedgerRow entryType payload tail) "entryDigest")
    (bytes : Int) :
    AtEnd ⟨tail.sequence + 1, digest, bytes⟩
      (read ++ [canonFields (makeLedgerRow entryType payload tail)]) := by
  refine ⟨?_, ?_⟩
  · simp [h.sequence]
  · rw [lastDigest_append, get_makeLedgerRow, hdigest]
    rfl

/-- The tail file of a position at the end of the ledger. -/
theorem AtEnd.cached {store : StoreDir} {read : List Fields} {position tail : LedgerTail}
    {bytes : Nat} (h : AtEnd position read) (hchain : Chain 1 .null read)
    (hcached : cachedTail { store with
      tail := some (tailText (.int position.sequence) position.entryDigest bytes) } = some tail) :
    AtEnd tail read := by
  obtain rfl := cachedTail_tailText (h.scalar hchain).1 hcached
  exact ⟨h.sequence, (h.scalar hchain).2.trans h.entryDigest⟩

/-- The tail file that a call writes after its row. -/
theorem Chain.atEnd_extended {base store : StoreDir} {read : List Fields} {entryType : String}
    {payload : Fields} {tail : LedgerTail}
    (h : Chain 1 .null (read ++ [canonFields (nextRow entryType payload store read)]))
    (htail : cachedTail (base.extended (nextRow entryType payload store read)) = some tail) :
    AtEnd tail (read ++ [canonFields (nextRow entryType payload store read)]) := by
  obtain ⟨hchain, hlinked⟩ := chain_append_iff.mp h
  have hend := (linked_makeLedgerRow_iff hchain).mp hlinked
  exact (hend.next rfl 0).cached h htail

namespace Sound

variable {store : StoreDir} {read : List Fields}

theorem atEnd (h : Sound store read) : AtEnd (position store read) read :=
  h.verified.chain.atEnd_position h.tail

/-- Reading the tail keeps the invariant. -/
theorem refreshed (h : Sound store read) : Sound (refreshed store read) read where
  verified := verified_refreshed h.verified
  endsLine := by simpa using h.endsLine
  tail := by
    intro tail htail
    rw [Store.refreshed] at htail
    split at htail
    · exact h.tail tail htail
    · exact (h.verified.chain.atEnd_tailFromRows store).cached h.verified.chain htail

/-- Appending a row that leaves the store verified keeps the invariant. -/
theorem extended {base : StoreDir} {entryType : String} {payload : Fields}
    (hends : EndsLine (base.ledger.getD []))
    (hafter : Verified (base.appendLedger (rowLine (nextRow entryType payload store read)))
      (read ++ [canonFields (nextRow entryType payload store read)])) :
    Sound (base.extended (nextRow entryType payload store read))
      (read ++ [canonFields (nextRow entryType payload store read)]) where
  verified := hafter.withTail _
  endsLine := hends.append (endsLine_rowLine _)
  tail := fun _ htail => hafter.chain.atEnd_extended htail

end Sound

/-! ## One call -/

/-- A commit whose journal exceeds its limit only reads the tail. -/
theorem final_commit_of_size (host : Host) {type : ContentType} {payload : Fields}
    {store : StoreDir} {read : List Fields} (h : store.transactions = some [])
    (hread : rows store = .ok read)
    (hsize : maxTransactionBytes < (nextJournal type payload store read).byteSize) :
    (commit host type payload store).final = refreshed store read := by
  have hstage := stageTransaction_of_size host type payload
    (nextRow type.value payload store read) (position store read)
    (transactions_refreshed h) hsize
  rw [commit, Program.bind_apply, loadTail_apply hread, Run.andThen_ok, Program.bind_apply,
    ← nextRow, Run.andThen, hstage.2]
  dsimp only
  rw [hstage.1]

/-- What a call can do to the rows: nothing, or append its row, which for a
record or an event has passed the checks. -/
inductive Extends (store : StoreDir) (read : List Fields) : Call → List Fields → Prop
  | unchanged (call : Call) : Extends store read call read
  | added {type : ContentType} {value : Mapping}
      (hadmitted : Admitted type store read (candidateOf value)) :
      Extends store read (.add type value)
        (read ++ [canonFields (nextRow type.value (candidateOf value) store read)])
  | snapshot (payload : Mapping) :
      Extends store read (.snapshot payload)
        (read ++ [canonFields (nextRow "snapshot" payload.fields store read)])

/-- A snapshot that carries the supported schema. -/
def Call.Supported : Call → Prop
  | .add _ _ => True
  | .snapshot payload => Fields.get payload.fields "schema_version" = .str snapshotSchema

/-- The entry of the call has no digest yet or names one: it is not `null`. -/
def Call.DigestNotNull : Call → Prop
  | .add _ value => Fields.get? value.fields "contentDigest" ≠ some .null
  | .snapshot _ => True

/-- The calls that keep a store verified. -/
def Call.Lawful (call : Call) : Prop := call.Supported ∧ call.DigestNotNull

namespace Sound

variable {store : StoreDir} {read : List Fields}

/-- A lawful call keeps the invariant. -/
theorem step (h : Sound store read) (host : Host) {call : Call} (hlawful : call.Lawful)
    (hlimits : WithinLimits (call.run host store).final) :
    ∃ after, Sound (call.run host store).final after ∧ Extends store read call after := by
  have htransactions := h.verified.transactions
  cases call with
  | snapshot payload =>
      obtain ⟨hfinal, -⟩ := Call.run_snapshot htransactions
        h.verified.rows
      rw [hfinal] at hlimits ⊢
      have hfits : Fits store read (nextRow "snapshot" payload.fields store read) :=
        hlimits.fits h.verified.rows h.endsLine (by simp [StoreDir.extended, StoreDir.tailAt])
      refine ⟨_, Sound.extended (by simpa using h.endsLine) ?_, .snapshot payload⟩
      exact (verified_refreshed h.verified).snapshot payload.wf (wf_position store read)
        hlawful.1 h.atEnd (fits_refreshed_iff.mpr hfits)
  | add type value =>
      rw [(Call.run_add host type value store).1] at hlimits ⊢
      cases hadmission : admission type store (candidateOf value) with
      | error error =>
          rw [add_of_error host hadmission]
          exact ⟨read, h, .unchanged _⟩
      | ok stored =>
          cases stored with
          | true =>
              rw [add_of_stored host hadmission]
              exact ⟨read, h, .unchanged _⟩
          | false =>
              obtain ⟨read', hadmitted⟩ := admitted_of_admit hadmission
              obtain rfl := Except.ok.inj (h.verified.rows.symm.trans hadmitted.rows)
              rw [(final_add_of_new host hadmission).1] at hlimits ⊢
              by_cases hsize : (nextJournal type (candidateOf value) store read).byteSize ≤
                  maxTransactionBytes
              · have hnone := h.verified.readContent_eq_none hadmitted.valid hadmitted.new
                rw [commit_apply host htransactions hadmitted.rows (wf_candidateOf value) hsize
                  hnone] at hlimits ⊢
                have hfits : Fits store read
                    (nextRow type.value (candidateOf value) store read) :=
                  hlimits.fits hadmitted.rows h.endsLine
                    (by simp [committed, filed, StoreDir.extended, StoreDir.tailAt])
                refine ⟨_, Sound.extended (by simpa [filed] using h.endsLine) ?_, .added hadmitted⟩
                exact (verified_refreshed h.verified).committed (wf_candidateOf value)
                  (wf_position store read) hadmitted.valid hadmitted.new
                  (fun hnull => hlawful.2 (get_candidateOf_eq_null hnull)) h.atEnd
                  (fits_refreshed_iff.mpr hfits)
              · rw [final_commit_of_size host htransactions hadmitted.rows (not_le.mp hsize)]
                exact ⟨read, h.refreshed, .unchanged _⟩

end Sound

/-! ## Runs -/

/-- The stores that permitted calls lead to from a new one. -/
inductive Reachable (permitted : Call → Prop) : StoreDir → Prop
  | init : Reachable permitted .fresh
  | call {store : StoreDir} (host : Host) {call : Call} (h : Reachable permitted store)
      (hpermitted : permitted call) : Reachable permitted (call.run host store).final

theorem sound_fresh : Sound .fresh [] where
  verified := verified_fresh
  endsLine := endsLine_fresh
  tail := by
    intro tail htail
    have hcached : cachedTail .fresh = some ⟨0, .null, 0⟩ := trustedTail_eq_some trustedTail_fresh
    obtain rfl := Option.some.inj (hcached.symm.trans htail)
    exact ⟨rfl, rfl⟩

namespace Reachable

variable {permitted : Call → Prop} {store : StoreDir}

theorem endsLine (h : Reachable permitted store) : EndsLine (store.ledger.getD []) := by
  induction h with
  | init => exact endsLine_fresh
  | call host _ _ ih =>
      obtain ⟨more, hmore, hledger⟩ := grows_run host _ _
      rw [hledger]
      exact ih.append hmore

/-- A property of the rows that holds of no rows and that every call keeps holds
of the rows of every reachable store. -/
theorem sound_and (property : List Fields → Prop) (hlawful : ∀ call, permitted call → call.Lawful)
    (hinit : property [])
    (hstep : ∀ store read call after, Sound store read → permitted call → property read →
      Extends store read call after → property after)
    (h : Reachable permitted store) (hlimits : WithinLimits store) :
    ∃ read, Sound store read ∧ property read := by
  induction h with
  | init => exact ⟨[], sound_fresh, hinit⟩
  | call host h hpermitted ih =>
      obtain ⟨read, hsound, hproperty⟩ := ih (hlimits.of_grows h.endsLine (grows_run host _ _))
      obtain ⟨after, hafter, hextends⟩ := hsound.step host (hlawful _ hpermitted) hlimits
      exact ⟨after, hafter, hstep _ _ _ _ hsound hpermitted hproperty hextends⟩

/-- Every store that lawful calls lead to, with its ledger within the limits,
verifies. -/
theorem verify_eq_nil (h : Reachable Call.Lawful store) (hlimits : WithinLimits store) :
    verify store = .ok [] := by
  obtain ⟨read, hsound, -⟩ := h.sound_and (fun _ => True) (fun _ hcall => hcall) trivial
    (fun _ _ _ _ _ _ _ _ => trivial) hlimits
  exact verify_eq_nil_iff.mpr ⟨read, hsound.verified⟩

end Reachable

/-- The stores that calls lead to from a new one, each permitted in the store it is
made in. -/
inductive ReachableWhere (permitted : StoreDir → Call → Prop) : StoreDir → Prop
  | init : ReachableWhere permitted .fresh
  | call {store : StoreDir} (host : Host) {call : Call} (h : ReachableWhere permitted store)
      (hpermitted : permitted store call) :
      ReachableWhere permitted (call.run host store).final

namespace ReachableWhere

variable {permitted : StoreDir → Call → Prop} {store : StoreDir}

theorem reachable (h : ReachableWhere permitted store) : Reachable (fun _ => True) store := by
  induction h with
  | init => exact .init
  | call host _ _ ih => exact .call host ih trivial

/-- A property of the rows that holds of no rows and that every call keeps where it
is permitted holds of the rows of every reachable store. -/
theorem sound_and (property : List Fields → Prop)
    (hlawful : ∀ store call, permitted store call → call.Lawful) (hinit : property [])
    (hstep : ∀ store read call after, Sound store read → permitted store call → property read →
      Extends store read call after → property after)
    (h : ReachableWhere permitted store) (hlimits : WithinLimits store) :
    ∃ read, Sound store read ∧ property read := by
  induction h with
  | init => exact ⟨[], sound_fresh, hinit⟩
  | call host h hpermitted ih =>
      have hends := h.reachable.endsLine
      obtain ⟨read, hsound, hproperty⟩ := ih (hlimits.of_grows hends (grows_run host _ _))
      obtain ⟨after, hafter, hextends⟩ := hsound.step host (hlawful _ _ hpermitted) hlimits
      exact ⟨after, hafter, hstep _ _ _ _ hsound hpermitted hproperty hextends⟩

end ReachableWhere

theorem verified_of_committed {type : ContentType} {payload : Fields} {store : StoreDir}
    {read after : List Fields} (h : Verified (committed type payload store read) after) :
    Verified ((filed type payload store read).appendLedger
      (rowLine (nextRow type.value payload store read))) after :=
  h.withTail (filed type payload store read).tail

theorem rows_committed {type : ContentType} {payload : Fields} {store : StoreDir}
    {read : List Fields} (hread : rows store = .ok read) (hwf : (Json.obj payload).wf = true)
    (hfits : Fits store read (nextRow type.value payload store read)) :
    rows (committed type payload store read) =
      .ok (read ++ [canonFields (nextRow type.value payload store read)]) :=
  rows_appendLedger_of_fits (rows_filed hread) (wf_nextRow hwf)
    ⟨by simpa [filed] using hfits.endsLine, hfits.line,
      by simpa [filed, StoreDir.ledgerBytes] using hfits.bytes, hfits.count⟩

theorem rows_extended {store : StoreDir} {read : List Fields} {row : Fields}
    (hread : rows store = .ok read) (hwf : (Json.obj row).wf = true)
    (hfits : Fits store read row) :
    rows ((refreshed store read).extended row) = .ok (read ++ [canonFields row]) := by
  have hrefreshed : rows (refreshed store read) = .ok read := by
    rw [refreshed_eq]
    exact hread
  exact rows_appendLedger_of_fits hrefreshed hwf (fits_refreshed_iff.mpr hfits)

theorem rows_add_firstRecord :
    rows (Call.run .plain (.add .record firstRecord) .fresh).final =
      .ok ([] ++ [canonFields (nextRow "record" (candidateOf firstRecord) .fresh [])]) := by
  obtain ⟨out, -, -, hfinal⟩ := add_firstRecord .plain
  rw [(Call.run_add .plain .record firstRecord .fresh).1, hfinal]
  exact rows_committed verified_fresh.rows (wf_candidateOf firstRecord)
    (fits_fresh (by decide) size_firstRecord_le)

theorem lawful_firstRecord : (Call.add .record firstRecord).Lawful :=
  ⟨trivial, show Fields.get? firstRecord.fields "contentDigest" ≠ some .null by decide +kernel⟩

/-- A run of one call within the limits. -/
theorem first_record_verified :
    verify (Call.run .plain (.add .record firstRecord) .fresh).final = .ok [] :=
  (Reachable.call .plain .init lawful_firstRecord).verify_eq_nil (.of_rows rows_add_firstRecord)

theorem ledgerBytes_committed (type : ContentType) (payload : Fields) (store : StoreDir)
    (read : List Fields) :
    (committed type payload store read).ledgerBytes =
      store.ledgerBytes + (rowLine (nextRow type.value payload store read)).byteSize := by
  simp [StoreDir.ledgerBytes, committed, filed, StoreDir.extended, StoreDir.tailAt]

/-- The rows after a small entry that is admitted by a store with room for it. -/
theorem Sound.rows_addSmall {store : StoreDir} {read : List Fields} (h : Sound store read)
    (host : Host) {type : ContentType} {value : Mapping}
    (hadmission : admission type store (candidateOf value) = .ok false)
    (hsize : (Json.obj (candidateOf value)).size ≤ 10 ^ 6)
    (hbytes : store.ledgerBytes + (Json.obj (candidateOf value)).size + 1001 ≤ maxLedgerBytes)
    (hcount : read.length < maxLedgerRows) :
    rows (Call.run host (.add type value) store).final =
        .ok (read ++ [canonFields (nextRow type.value (candidateOf value) store read)]) ∧
      (Call.run host (.add type value) store).final.ledgerBytes ≤
        store.ledgerBytes + (Json.obj (candidateOf value)).size + 1001 := by
  have htype : type.value.length ≤ 8 := by cases type <;> decide
  obtain ⟨out, -, -, hfinal⟩ := add_of_small host h.verified h.atEnd hadmission hsize
  have hfits := fits_of_small h.verified.chain h.atEnd h.endsLine htype
    hsize hbytes hcount
  have hline := size_nextRow_le h.verified.chain h.atEnd hcount.le htype (candidateOf value)
  have hledger := ledgerBytes_committed type (candidateOf value) store read
  rw [byteSize_rowLine] at hledger
  rw [(Call.run_add host type value store).1, hfinal]
  exact ⟨rows_committed h.verified.rows (wf_candidateOf value) hfits, by omega⟩

/-- A small entry that is admitted extends a store with room for it. -/
theorem Sound.addSmall {store : StoreDir} {read : List Fields} (h : Sound store read) (host : Host)
    {type : ContentType} {value : Mapping}
    (hadmission : admission type store (candidateOf value) = .ok false)
    (hlawful : (Call.add type value).DigestNotNull)
    (hsize : (Json.obj (candidateOf value)).size ≤ 10 ^ 6)
    (hbytes : store.ledgerBytes + (Json.obj (candidateOf value)).size + 1001 ≤ maxLedgerBytes)
    (hcount : read.length < maxLedgerRows) :
    Sound (Call.run host (.add type value) store).final
        (read ++ [canonFields (nextRow type.value (candidateOf value) store read)]) ∧
      (Call.run host (.add type value) store).final.ledgerBytes ≤
        store.ledgerBytes + (Json.obj (candidateOf value)).size + 1001 := by
  obtain ⟨hrows, hledger⟩ := h.rows_addSmall host hadmission hsize hbytes hcount
  obtain ⟨after, hafter, -⟩ := @Sound.step _ _ h host (.add type value) ⟨trivial, hlawful⟩
    (.of_rows hrows)
  obtain rfl := Except.ok.inj (hrows.symm.trans hafter.verified.rows)
  exact ⟨hafter, hledger⟩

/-- An observation whose digest is `null`. -/
def nullRecord : Mapping :=
  ⟨Fields.set firstRecord.fields "contentDigest" .null, by decide +kernel⟩

theorem candidateOf_nullRecord : candidateOf nullRecord = nullRecord.fields := by
  rw [candidateOf, if_pos (by decide +kernel)]

theorem validateRecord_nullRecord : validateRecord nullRecord.fields = .ok [] :=
  validateRecord_eq_nil_iff.mpr ⟨by decide +kernel, .inl rfl⟩

theorem add_nullRecord (host : Host) :
    (Call.run host (.add .record nullRecord) .fresh).final =
      committed .record nullRecord.fields .fresh [] := by
  have hadmission : admission .record .fresh (candidateOf nullRecord) = .ok false := by
    rw [candidateOf_nullRecord]
    exact admit_fresh validateRecord_nullRecord (plain_observation _ _ _)
  have hsize : (Json.obj (candidateOf nullRecord)).size ≤ 10 ^ 6 := by
    rw [candidateOf_nullRecord]
    decide +kernel
  obtain ⟨out, -, -, hfinal⟩ := add_of_small host verified_fresh atEnd_fresh hadmission hsize
  rw [(Call.run_add host .record nullRecord .fresh).1, hfinal, candidateOf_nullRecord]

/-- A record whose digest is `null` is accepted and stored as `None`. -/
theorem null_digest_unverified :
    ¬ ∀ store, Reachable Call.Supported store → WithinLimits store → verify store = .ok [] := by
  intro hall
  have hreachable : Reachable Call.Supported (committed .record nullRecord.fields .fresh []) := by
    rw [← add_nullRecord .plain]
    exact .call .plain .init trivial
  have hsize : (Json.obj nullRecord.fields).size ≤ 2500 := by decide +kernel
  have hlimits := WithinLimits.of_rows (@rows_committed .record _ _ _ verified_fresh.rows nullRecord.wf
    (fits_fresh (by decide) hsize))
  obtain ⟨after, hafter⟩ := verify_eq_nil_iff.mp (hall _ hreachable hlimits)
  have hfresh : Fresh .record [] nullRecord.fields := fun _ hpayload => nomatch hpayload
  have hnull : Fields.get nullRecord.fields "contentDigest" = .null := by decide +kernel
  exact ((@verify_committed_iff .record _ _ _ verified_fresh nullRecord.wf
    validateRecord_nullRecord hfresh).mp ⟨after, verified_of_committed hafter⟩).1 hnull

end MncsCommons.Store
