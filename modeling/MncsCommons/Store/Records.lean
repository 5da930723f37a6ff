/-
# Runs of record calls

What record calls do to a store that can be read, whatever digests the records
name: each leaves the rows or appends its own (`Readable.step`).  A property of
the rows that every such call keeps holds after every run of them
(`RecordReachable.keeps`).
-/

import MncsCommons.Store.Revisions

namespace MncsCommons.Store

open MncsCommons.Data MncsCommons.Protocol MncsCommons.Exec

/-- A store without pending transactions whose ledger reads as the rows. -/
structure Readable (store : StoreDir) (read : List Fields) : Prop where
  rows : rows store = .ok read
  transactions : store.transactions = some []
  endsLine : EndsLine (store.ledger.getD [])

theorem readable_fresh : Readable .fresh [] :=
  ⟨verified_fresh.rows, verified_fresh.transactions, endsLine_fresh⟩

/-- Rows that are read repeat no key. -/
theorem wf_of_rows {store : StoreDir} {read : List Fields} (h : rows store = .ok read)
    {row : Fields} (hrow : row ∈ read) : (Json.obj row).wf = true := by
  obtain ⟨-, hrows, -, -⟩ := rows_eq_ok_iff.mp h
  generalize splitLines (store.ledger.getD []) = lines at hrows
  clear h
  induction hrows with
  | nil => cases hrow
  | cons hreads _ ih =>
      rcases List.mem_cons.mp hrow with rfl | hrow
      · exact wf_of_loads hreads.2.2
      · exact ih hrow

theorem wf_of_payloadsFromRows {store : StoreDir} {read : List Fields} (h : rows store = .ok read)
    {entryType : String} {payload : Fields} (hpayload : payload ∈ payloadsFromRows read entryType) :
    (Json.obj payload).wf = true := by
  obtain ⟨row, hrow, -, hget⟩ := mem_payloadsFromRows_iff.mp hpayload
  exact hget ▸ Json.wf_get (wf_of_rows h hrow) "payload"

/-- The content file of a record that is about to be committed. -/
theorem readContent_of_admission {store : StoreDir} {candidate : Fields} {stored : Bool}
    (h : admission .record store candidate = .ok stored) :
    store.readContent .record (Fields.get candidate "contentDigest").pyStr = none ∨
      store.readContent .record (Fields.get candidate "contentDigest").pyStr =
        some (canonicalJson (.obj candidate)) := by
  simp only [admission, admitRecord, Py.bind_eq_ok_iff] at h
  obtain ⟨_, -, _, -, _, -, _, -, _, hcontent, -⟩ := h
  have hany := raiseIf_eq_ok_iff.mp hcontent
  cases hfile : store.readContent .record (Fields.get candidate "contentDigest").pyStr with
  | none => exact .inl rfl
  | some text =>
      rw [hfile] at hany
      exact .inr (by simpa using hany)

theorem transactions_appendLedger (store : StoreDir) (text : Text) :
    (store.appendLedger text).transactions = store.transactions := rfl

namespace Readable

variable {store : StoreDir} {read : List Fields}

theorem refreshed (h : Readable store read) : Readable (refreshed store read) read where
  rows := by
    rw [refreshed_eq]
    exact h.rows
  transactions := transactions_refreshed h.transactions
  endsLine := by simpa using h.endsLine

/-- A record call leaves the rows of a readable store or appends its own. -/
theorem step (h : Readable store read) (host : Host) (value : Mapping)
    (hlimits : WithinLimits (Call.run host (.add .record value) store).final) :
    ∃ after, Readable (Call.run host (.add .record value) store).final after ∧
      Extends store read (.add .record value) after := by
  rw [(Call.run_add host .record value store).1] at hlimits ⊢
  cases hadmission : admission .record store (candidateOf value) with
  | error error =>
      rw [add_of_error host hadmission]
      exact ⟨read, h, .unchanged _⟩
  | ok stored =>
      cases stored with
      | true =>
          rw [add_of_stored host hadmission]
          exact ⟨read, h, .unchanged _⟩
      | false =>
          obtain ⟨found, hadmitted⟩ := admitted_of_admit hadmission
          obtain rfl := Except.ok.inj (h.rows.symm.trans hadmitted.rows)
          rw [(final_add_of_new host hadmission).1] at hlimits ⊢
          have hwf := wf_candidateOf value
          by_cases hsize : (nextJournal .record (candidateOf value) store read).byteSize ≤
              maxTransactionBytes
          · rcases readContent_of_admission hadmission with hnone | hsame
            · rw [commit_apply host h.transactions h.rows hwf hsize hnone] at hlimits ⊢
              have hfits : Fits store read
                  (nextRow ContentType.record.value (candidateOf value) store read) :=
                hlimits.fits h.rows h.endsLine
                  (by simp [committed, filed, StoreDir.extended, StoreDir.tailAt])
              refine ⟨_, ⟨rows_committed h.rows hwf hfits, ?_, ?_⟩, .added hadmitted⟩
              · simp only [committed, filed, StoreDir.extended, StoreDir.tailAt]
                rw [transactions_appendLedger, transactions_withContent,
                  transactions_refreshed h.transactions]
              · simpa [committed, filed, StoreDir.extended, StoreDir.tailAt] using
                  h.endsLine.append (endsLine_rowLine _)
            · rw [(commit_of_same host h.transactions h.rows hwf hsize hsame).1] at hlimits ⊢
              have hfits : Fits store read
                  (nextRow ContentType.record.value (candidateOf value) store read) :=
                hlimits.fits h.rows h.endsLine (by simp [StoreDir.extended, StoreDir.tailAt])
              refine ⟨_, ⟨rows_extended h.rows (wf_nextRow hwf) hfits, ?_, ?_⟩, .added hadmitted⟩
              · simp only [StoreDir.extended, StoreDir.tailAt]
                rw [transactions_appendLedger, transactions_refreshed h.transactions]
              · simpa [StoreDir.extended, StoreDir.tailAt] using
                  h.endsLine.append (endsLine_rowLine _)
          · rw [final_commit_of_size host h.transactions h.rows (not_le.mp hsize)]
            exact ⟨read, h.refreshed, .unchanged _⟩

end Readable

/-! ## Runs -/

/-- The stores that record calls lead to from a new one, each permitted in the store
it is made in. -/
inductive RecordReachable (permitted : StoreDir → Mapping → Prop) : StoreDir → Prop
  | init : RecordReachable permitted .fresh
  | call {store : StoreDir} (host : Host) {value : Mapping} (h : RecordReachable permitted store)
      (hpermitted : permitted store value) :
      RecordReachable permitted (Call.run host (.add .record value) store).final

namespace RecordReachable

variable {permitted : StoreDir → Mapping → Prop} {store : StoreDir}

theorem endsLine (h : RecordReachable permitted store) : EndsLine (store.ledger.getD []) := by
  induction h with
  | init => exact endsLine_fresh
  | call host _ _ ih =>
      obtain ⟨more, hmore, hledger⟩ := grows_run host _ _
      rw [hledger]
      exact ih.append hmore

/-- A property of the rows that holds of no rows and that every permitted call keeps
holds of the rows of every store the calls lead to. -/
theorem keeps (property : List Fields → Prop) (hinit : property [])
    (hstep : ∀ store read value after, Readable store read → permitted store value →
      property read → Extends store read (.add .record value) after → property after)
    (h : RecordReachable permitted store) (hlimits : WithinLimits store) :
    ∃ read, Readable store read ∧ property read := by
  induction h with
  | init => exact ⟨[], readable_fresh, hinit⟩
  | call host h hpermitted ih =>
      obtain ⟨read, hread, hproperty⟩ := ih (hlimits.of_grows h.endsLine (grows_run host _ _))
      obtain ⟨after, hafter, hextends⟩ := hread.step host _ hlimits
      exact ⟨after, hafter, hstep _ _ _ _ hread hpermitted hproperty hextends⟩

end RecordReachable

end MncsCommons.Store
