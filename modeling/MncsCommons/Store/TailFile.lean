/-
# The tail file without crashes

Every call that appends a row writes the tail file after it, and nothing else
changes the ledger.  So in a store that operations lead to, each of them finished,
the tail file holds the end of the ledger (`CrashFree.cached`), and while the ledger
can be read the file is trusted (`Cached.exists_trusted`): its size is right and the
last line of the ledger is the row it names.  A call that raises after it has read
the tail has then written nothing by reading it.
-/

import MncsCommons.Store.Tail

namespace MncsCommons.Store

open MncsCommons.Data MncsCommons.Protocol MncsCommons.Exec

/-! ## The last line -/

theorem lastBytes_of_le {limit : Nat} {text : Text} (h : text.byteSize ≤ limit) :
    lastBytes limit text = text := by
  cases text with
  | nil => rfl
  | cons c rest => rw [lastBytes, if_pos h]

/-- The end of a text that is within the limit is read whole, and so is a line break
before it, if any of it is read. -/
theorem lastBytes_append {limit : Nat} {text : Text} (h : text.byteSize ≤ limit) (before : Text) :
    lastBytes limit (before ++ '\n' :: text) = text ∨
      ∃ front, lastBytes limit (before ++ '\n' :: text) = front ++ '\n' :: text := by
  have hbreak : ∀ more : Text, Text.byteSize ('\n' :: more) = more.byteSize + 1 := fun more => by
    rw [← List.singleton_append, Text.byteSize_append, Nat.add_comm]
    rfl
  induction before with
  | nil =>
      rw [List.nil_append, lastBytes]
      split_ifs with hwhole hcut
      · exact .inr ⟨[], rfl⟩
      · rw [hbreak] at hwhole
        omega
      · exact .inl (lastBytes_of_le h)
  | cons c before ih =>
      rw [List.cons_append, lastBytes]
      split_ifs with hwhole hcut
      · exact .inr ⟨c :: before, rfl⟩
      · exact .inr ⟨'\uFFFD' :: before, rfl⟩
      · exact ih

theorem splitUniversal_line {line : Text} (h : ∀ c ∈ line, 32 ≤ c.toNat) :
    splitUniversal (line ++ ['\n']) = [line] := by
  have hne : ∀ c : Char, 32 ≤ c.toNat → ¬ (c = '\n' ∨ c = '\r') := by
    rintro c hc (rfl | rfl)
    · exact absurd hc (by decide)
    · exact absurd hc (by decide)
  induction line with
  | nil => rfl
  | cons c line ih =>
      rw [List.forall_mem_cons] at h
      have hc := hne c h.1
      have hr : c ≠ '\r' := fun heq => hc (.inr heq)
      rw [List.cons_append, splitUniversal]
      · rw [if_neg hc, ih h.2]
      · exact fun _ heq => absurd heq hr

theorem splitUniversal_cons {c : Char} (hc : ¬ (c = '\n' ∨ c = '\r')) (rest : Text) :
    splitUniversal (c :: rest) =
      match splitUniversal rest with
      | [] => [[c]]
      | line :: lines => (c :: line) :: lines := by
  have hr : c ≠ '\r' := fun heq => hc (.inr heq)
  rw [splitUniversal]
  · exact (if_neg hc).trans (by cases splitUniversal rest <;> rfl)
  · exact fun _ heq => absurd heq hr

theorem splitUniversal_ne_nil {text : Text} (h : text ≠ []) : splitUniversal text ≠ [] := by
  cases text using splitUniversal.fun_cases with
  | case1 => exact absurd rfl h
  | case2 => simp [splitUniversal]
  | case3 c rest hr hc =>
      rw [splitUniversal, if_pos hc]
      · exact List.cons_ne_nil _ _
      · exact hr
  | case4 c rest hr hc hnil => simp [splitUniversal_cons hc, hnil]
  | case5 c rest hr hc line lines hlines => simp [splitUniversal_cons hc, hlines]

/-- A line break ends a line, whatever comes before it. -/
theorem splitUniversal_append (front text : Text) :
    splitUniversal (front ++ '\n' :: text) =
      splitUniversal (front ++ ['\n']) ++ splitUniversal text := by
  induction front using splitUniversal.induct with
  | case1 => simp [splitUniversal]
  | case2 rest ih => simp [splitUniversal, ih]
  | case3 c rest hr hc ih =>
      have hbreak : ∀ more, splitUniversal (c :: (rest ++ '\n' :: more)) =
          if c = '\r' ∧ rest = [] then splitUniversal ('\n' :: more)
          else [] :: splitUniversal (rest ++ '\n' :: more) := by
        intro more
        split_ifs with hlast
        · rw [hlast.1, hlast.2]
          simp [splitUniversal]
        · rw [splitUniversal, if_pos hc]
          intro other hreturn hother
          cases rest with
          | nil => exact hlast ⟨hreturn, rfl⟩
          | cons d rest => exact hr rest hreturn (by rw [(List.cons.inj hother).1])
      rw [List.cons_append, List.cons_append, hbreak, hbreak]
      split_ifs with hlast
      · simp [splitUniversal]
      · rw [ih, List.cons_append]
  | case4 c rest hr hc hnil ih =>
      obtain ⟨line, lines, hlines⟩ := List.exists_cons_of_ne_nil
        (@splitUniversal_ne_nil (rest ++ ['\n']) (by simp))
      rw [List.cons_append, List.cons_append, splitUniversal_cons hc, splitUniversal_cons hc, ih,
        hlines]
      rfl
  | case5 c rest hr hc line lines hlines ih =>
      obtain ⟨first, others, hfirst⟩ := List.exists_cons_of_ne_nil
        (@splitUniversal_ne_nil (rest ++ ['\n']) (by simp))
      rw [List.cons_append, List.cons_append, splitUniversal_cons hc, splitUniversal_cons hc, ih,
        hfirst]
      rfl

/-- The last line of a ledger whose last row is within the limit is that row. -/
theorem lastLineRow_of_append {store : StoreDir} {before : Text} {row : Fields}
    (hledger : store.ledger = some (before ++ rowLine row)) (hends : EndsLine before)
    (hwf : (Json.obj row).wf = true) (hsize : (rowLine row).byteSize ≤ maxLedgerLineBytes) :
    lastLineRow store = some (canonFields row) := by
  have hline : splitUniversal (rowLine row) = [canonicalJson (.obj row)] :=
    splitUniversal_line fun c hc => printable_of_mem_dumps hc
  have hlast : ∃ lines, splitUniversal (lastBytes maxLedgerLineBytes (before ++ rowLine row)) =
      lines ++ [canonicalJson (.obj row)] := by
    rcases List.eq_nil_or_concat' before with rfl | ⟨start, c, rfl⟩
    · exact ⟨[], by rw [List.nil_append, lastBytes_of_le hsize, hline]; rfl⟩
    · obtain rfl : c = '\n' := by
        rcases hends with hnil | hc
        · simp at hnil
        · simpa using hc
      rw [List.append_assoc, List.singleton_append]
      rcases lastBytes_append hsize start with hwhole | ⟨front, hfront⟩
      · exact ⟨[], by rw [hwhole, hline]; rfl⟩
      · exact ⟨_, by rw [hfront, splitUniversal_append, hline]⟩
  obtain ⟨lines, hlines⟩ := hlast
  rw [lastLineRow, hledger, Option.getD_some, hlines, List.getLast?_concat]
  simp only [Option.bind_eq_bind, Option.bind_some, loads_canonicalJson hwf, canon_obj]
  rfl

/-! ## The tail file -/

/-- The tail file holds the end of the ledger. -/
def Cached (store : StoreDir) : Prop :=
  ∃ read tail, Recorded store read ∧ AtEnd tail read ∧
    store.tail = some (tailText (.int tail.sequence) tail.entryDigest store.ledgerBytes)

theorem cachedTail_of_tailText {store : StoreDir} {sequence : Int} {digest : Json} {bytes : Nat}
    (hwf : digest.wf = true)
    (hsize : (tailText (.int sequence) digest bytes).byteSize ≤ maxTransactionBytes)
    (htail : store.tail = some (tailText (.int sequence) digest bytes)) :
    cachedTail store = some ⟨sequence, digest.sortKeys, bytes⟩ := by
  simp only [cachedTail, htail, Option.bind_eq_bind, Option.bind_some, if_neg (not_lt.mpr hsize),
    loads_tailText hwf, Json.obj?, Fields.get_sortKeys, Fields.get?_sortKeys]
  rfl

namespace Cached

variable {store after : StoreDir}

/-- Only the ledger and the tail file matter. -/
theorem congr (h : Cached store) (hledger : after.ledger = store.ledger)
    (htail : after.tail = store.tail) : Cached after := by
  obtain ⟨read, tail, hrecorded, hend, hfile⟩ := h
  refine ⟨read, tail, hrecorded.congr hledger htail, hend, ?_⟩
  rw [htail, hfile, StoreDir.ledgerBytes, StoreDir.ledgerBytes, hledger]

theorem fresh : Cached .fresh :=
  ⟨[], ⟨0, .null, 0⟩, recorded_fresh, ⟨rfl, rfl⟩, rfl⟩

/-- The tail file of a ledger that can be read is small. -/
theorem byteSize_tailText_le {read : List Fields} {tail : LedgerTail}
    (hchain : Chain 1 .null read) (hend : AtEnd tail read) (hread : rows store = .ok read) :
    (tailText (.int tail.sequence) tail.entryDigest store.ledgerBytes).byteSize ≤
      maxTransactionBytes := by
  obtain ⟨-, -, hbytes, hcount⟩ := rows_eq_ok_iff.mp hread
  have hdigest := hchain.size_lastDigest_le
  have hsequence : (Json.int tail.sequence).size ≤ 6 := by
    rw [hend.sequence]
    refine Json.size_int_le (by decide) ?_
    rw [maxLedgerRows] at hcount
    omega
  have hledger : (Json.int store.ledgerBytes).size ≤ 8 := by
    refine Json.size_int_le (by decide) ?_
    rw [StoreDir.ledgerBytes]
    rw [maxLedgerBytes] at hbytes
    omega
  have hkeys : stringSize "sequence" = 10 ∧ stringSize "entryDigest" = 13 ∧
      stringSize "ledgerBytes" = 13 := by decide
  rw [tailText, byteSize_canonicalJson, Json.size_obj]
  simp only [List.map_cons, List.map_nil, List.sum_cons, List.sum_nil, hend.entryDigest, hkeys]
  rw [maxTransactionBytes]
  omega

/-- A tail file of a ledger that can be read is trusted. -/
theorem exists_trusted (h : Cached store) {read : List Fields} (hread : rows store = .ok read) :
    ∃ tail, trustedTail store = some tail := by
  obtain ⟨found, tail, hrecorded, hend, hfile⟩ := h
  obtain rfl := hrecorded.eq_of_rows hread
  have hscalar := hend.scalar hrecorded.chain
  have hcached := cachedTail_of_tailText hscalar.1
    (byteSize_tailText_le hrecorded.chain hend hread) hfile
  rw [hscalar.2] at hcached
  have hnonneg : 0 ≤ tail.sequence := by
    rw [hend.sequence]
    exact Int.natCast_nonneg _
  refine ⟨⟨tail.sequence, tail.entryDigest, store.ledgerBytes⟩, ?_⟩
  rw [trustedTail, hcached, Option.bind_eq_bind, Option.bind_some, if_pos ⟨rfl, hnonneg⟩]
  rcases List.eq_nil_or_concat' read with rfl | ⟨before, row, rfl⟩
  · exact if_pos ⟨hend.sequence, hend.entryDigest⟩
  · have hlinked := (chain_append_iff.mp hrecorded.chain).2
    have hledger : store.ledger = some (before.flatMap rowLine ++ rowLine row) := by
      rw [hrecorded.lines, List.flatMap_append, List.flatMap_singleton]
    obtain ⟨hwf, hcanon⟩ := hrecorded.settled row (by simp)
    have hline : (rowLine row).byteSize ≤ maxLedgerLineBytes := by
      refine (WithinLimits.of_rows hread).lines _ ?_
      rw [hrecorded.splitLines_eq]
      exact List.mem_map_of_mem (by simp)
    have hlast := lastLineRow_of_append hledger (endsLine_flatMap_rowLine before) hwf hline
    have hsequence : tail.sequence = (1 + before.length : Nat) := by
      rw [hend.sequence, List.length_append]
      simp [Nat.add_comm]
    have hdigest : tail.entryDigest = Fields.get row "entryDigest" := by
      rw [hend.entryDigest, lastDigest_append]
    rw [if_neg, hlast, hcanon, Option.bind_eq_bind, Option.bind_some, if_pos]
    · rw [hsequence, hlinked.sequence, hdigest, Json.pyEq_self]
      rfl
    · rintro ⟨-, hnull⟩
      rw [hdigest, hlinked.digest] at hnull
      cases hnull

/-- Reading the tail of a ledger that can be read writes nothing. -/
theorem refreshed_eq (h : Cached store) {read : List Fields} (hread : rows store = .ok read) :
    refreshed store read = store := by
  obtain ⟨tail, htail⟩ := h.exists_trusted hread
  rw [refreshed, htail]

/-- The next row follows the end of the ledger. -/
theorem atEnd_position (h : Cached store) {read : List Fields} (hread : rows store = .ok read) :
    AtEnd (position store read) read := by
  obtain ⟨tail, htail⟩ := h.exists_trusted hread
  obtain ⟨found, -, hrecorded, -, -⟩ := h
  obtain rfl := hrecorded.eq_of_rows hread
  rw [position, htail]
  exact (hrecorded.atEnd_trusted htail).1

/-- A row at the end of the ledger, with the tail at it. -/
theorem extended {base : StoreDir} {read : List Fields} (h : Recorded base read)
    {entryType : String} {payload row : Fields} {tail : LedgerTail}
    (hpayload : (Json.obj payload).wf = true) (htail : tail.entryDigest.wf = true)
    (hend : AtEnd tail read)
    (hline : rowLine row = rowLine (makeLedgerRow entryType payload tail))
    (hsequence : Fields.get row "sequence" = .int (tail.sequence + 1))
    (hdigest : Fields.get row "entryDigest" =
      Fields.get (makeLedgerRow entryType payload tail) "entryDigest") :
    Cached (base.extended row) := by
  have happended := @Recorded.append _ _ h entryType _ _ hpayload htail hend
  have hlast := hend.next hdigest 0
  rw [← hline] at happended
  have hafter := happended.withTail hlast
  rw [← hsequence] at hafter
  exact ⟨_, _, hafter, hlast, by rw [← hsequence]; rfl⟩

/-- Rebuilding the tail. -/
theorem rebuilt {read : List Fields} (h : Recorded store read) :
    Cached { store with tail := some (tailText (.int (tailFromRows store read).sequence)
      (tailFromRows store read).entryDigest store.ledgerBytes) } :=
  ⟨read, tailFromRows store read, h.withTail (h.chain.atEnd_tailFromRows store),
    h.chain.atEnd_tailFromRows store, rfl⟩

end Cached

/-! ## Calls -/

theorem commit_of_other (host : Host) {type : ContentType} {payload : Fields} {store : StoreDir}
    {read : List Fields} (h : store.transactions = some []) (hread : rows store = .ok read)
    (hpayload : (Json.obj payload).wf = true)
    (hsize : (nextJournal type payload store read).byteSize ≤ maxTransactionBytes) {text : Text}
    (hsome : store.readContent type (Fields.get payload "contentDigest").pyStr = some text)
    (hother : text ≠ canonicalJson (.obj payload)) :
    (commit host type payload store).final =
        (refreshed store read).pending host.transactionName (nextFiles type payload store read) ∧
      ∃ message, (commit host type payload store).result = .error (.storeError message) := by
  have hsome' : (refreshed store read).readContent type
      (Fields.get payload "contentDigest").pyStr = some text := by simpa using hsome
  have hfinish := @finishTransaction_eq host type payload (nextRow type.value payload store read)
    (position store read) (refreshed store read) hpayload (wf_nextRow hpayload)
    (wf_position store read) host.transactionName
  rw [← nextFiles, contentStep_of_some hsome', Program.lift_apply, raiseIf,
    if_pos (by simpa using hother)] at hfinish
  rw [commit_eq host h hread hsize, Run.andThen_ok, hfinish]
  exact ⟨rfl, _, rfl⟩

section Add

variable {store : StoreDir} {read : List Fields}

/-- An entry that passes the checks and whose journal is too large. -/
theorem final_add_of_size (h : Cached store) (host : Host) {type : ContentType} {value : Mapping}
    (hadmission : admission type store (candidateOf value) = .ok false)
    (hread : rows store = .ok read)
    (hsize : maxTransactionBytes < (nextJournal type (candidateOf value) store read).byteSize) :
    (add host type value store).final = store := by
  obtain ⟨found, hadmitted⟩ := admitted_of_admit hadmission
  rw [(final_add_of_new host hadmission).1,
    final_commit_of_size host hadmitted.transactions hread hsize, h.refreshed_eq hread]

/-- An entry that passes the checks and whose content file is new or has its text. -/
theorem add_appends (h : Cached store) (host : Host) {type : ContentType} {value : Mapping}
    (hadmission : admission type store (candidateOf value) = .ok false)
    (hread : rows store = .ok read)
    (hsize : (nextJournal type (candidateOf value) store read).byteSize ≤ maxTransactionBytes)
    (hfile : ∀ text, store.readContent type (Fields.get (candidateOf value) "contentDigest").pyStr =
      some text → text = canonicalJson (.obj (candidateOf value))) :
    (∃ out, (add host type value store).result = .ok out) ∧
      ∃ base : StoreDir, base.ledger = store.ledger ∧ base.tail = store.tail ∧
        (add host type value store).final =
          base.extended (nextRow type.value (candidateOf value) store read) := by
  obtain ⟨found, hadmitted⟩ := admitted_of_admit hadmission
  have hcommit : (commit host type (candidateOf value) store).result = .ok () ∧
      ∃ base : StoreDir, base.ledger = store.ledger ∧ base.tail = store.tail ∧
        (commit host type (candidateOf value) store).final =
          base.extended (nextRow type.value (candidateOf value) store read) := by
    cases hcontent : store.readContent type
        (Fields.get (candidateOf value) "contentDigest").pyStr with
    | none =>
        rw [commit_apply host hadmitted.transactions hread (wf_candidateOf value) hsize hcontent]
        refine ⟨rfl, filed type (candidateOf value) store read, ?_, ?_, rfl⟩
        · simp [filed]
        · rw [filed, h.refreshed_eq hread, tail_withContent]
    | some text =>
        obtain rfl := hfile text hcontent
        obtain ⟨hfinal, hresult⟩ := commit_of_same host hadmitted.transactions hread
          (wf_candidateOf value) hsize hcontent
        rw [h.refreshed_eq hread] at hfinal
        exact ⟨hresult, store, rfl, rfl, hfinal⟩
  obtain ⟨hresult, hfinal⟩ := hcommit
  rw [add_of_new host hadmission, Run.andThen_of_ok hresult]
  exact ⟨⟨_, rfl⟩, hfinal⟩

/-- An entry that passes the checks and whose content file has another text. -/
theorem add_collides (h : Cached store) (host : Host) {type : ContentType} {value : Mapping}
    (hadmission : admission type store (candidateOf value) = .ok false)
    (hread : rows store = .ok read)
    (hsize : (nextJournal type (candidateOf value) store read).byteSize ≤ maxTransactionBytes)
    {text : Text}
    (hsome : store.readContent type (Fields.get (candidateOf value) "contentDigest").pyStr =
      some text) (hother : text ≠ canonicalJson (.obj (candidateOf value))) :
    (add host type value store).final = store.pending host.transactionName
        (nextFiles type (candidateOf value) store read) ∧
      ∃ message, (add host type value store).result = .error (.storeError message) := by
  obtain ⟨found, hadmitted⟩ := admitted_of_admit hadmission
  obtain ⟨hfinal, message, hresult⟩ := commit_of_other host hadmitted.transactions hread
    (wf_candidateOf value) hsize hsome hother
  rw [add_of_new host hadmission, Run.andThen_of_error hresult, hfinal, h.refreshed_eq hread]
  exact ⟨rfl, message, rfl⟩

theorem Cached.add (h : Cached store) (host : Host) (type : ContentType) (value : Mapping) :
    Cached (add host type value store).final := by
  cases hadmission : admission type store (candidateOf value) with
  | error error =>
      rw [add_of_error host hadmission]
      exact h
  | ok stored =>
      cases stored with
      | true =>
          rw [add_of_stored host hadmission]
          exact h
      | false =>
          obtain ⟨read, hadmitted⟩ := admitted_of_admit hadmission
          rcases lt_or_ge maxTransactionBytes
            (nextJournal type (candidateOf value) store read).byteSize with hsize | hsize
          · rw [final_add_of_size h host hadmission hadmitted.rows hsize]
            exact h
          · by_cases hfile : ∀ text, store.readContent type
                (Fields.get (candidateOf value) "contentDigest").pyStr = some text →
                  text = canonicalJson (.obj (candidateOf value))
            · obtain ⟨-, base, hledger, htail, hfinal⟩ := add_appends h host hadmission
                hadmitted.rows hsize hfile
              obtain ⟨found, -, hrecorded, -, -⟩ := id h
              obtain rfl := hrecorded.eq_of_rows hadmitted.rows
              rw [hfinal]
              exact Cached.extended (hrecorded.congr hledger htail) (wf_candidateOf value)
                (wf_position store read) (h.atEnd_position hadmitted.rows) rfl rfl rfl
            · push Not at hfile
              obtain ⟨text, hsome, hother⟩ := hfile
              rw [(add_collides h host hadmission hadmitted.rows hsize hsome hother).1]
              exact h.congr rfl rfl

theorem Cached.addSnapshot (h : Cached store) (payload : Mapping) :
    Cached (addSnapshot payload store).final := by
  refine Program.final_bind_of_reads h rfl fun _ hstore => ?_
  cases hstore
  refine Program.final_bind_of_reads h rfl fun _ hinit => ?_
  refine Program.final_bind_of_reads h rfl fun _ _ => ?_
  have hinit : requireInitialized store = .ok () := hinit
  have hload : (loadTail store).final = store ∧ ∀ tail, (loadTail store).result = .ok tail →
      trustedTail store = some tail := by
    cases htrusted : trustedTail store with
    | some tail => simp [loadTail, hinit, htrusted]
    | none =>
        cases hread : rows store with
        | error error => simp [loadTail, hinit, htrusted, hread]
        | ok read =>
            obtain ⟨tail, htail⟩ := h.exists_trusted hread
            rw [htrusted] at htail
            cases htail
  refine Program.final_bind_of_reads h hload.1 fun tail htail => ?_
  have htrusted := hload.2 tail htail
  obtain ⟨read, -, hrecorded, -, -⟩ := h
  exact @Cached.extended store read hrecorded "snapshot" payload.fields _ tail payload.wf
    (wf_cachedTail (trustedTail_eq_some htrusted)) (hrecorded.atEnd_trusted htrusted).1
    rfl rfl rfl

theorem Cached.rebuildTail (h : Cached store) : Cached (rebuildTail store).final := by
  refine Program.final_bind_of_reads h rfl fun _ hstore => ?_
  cases hstore
  refine Program.final_bind_of_reads h rfl fun read hread => ?_
  obtain ⟨found, -, hrecorded, -, -⟩ := h
  obtain rfl := hrecorded.eq_of_rows hread
  exact Cached.rebuilt hrecorded

theorem Cached.call (h : Cached store) (host : Host) (call : Call) :
    Cached (call.run host store).final := by
  cases call with
  | add type value =>
      rw [(Call.run_add host type value store).1]
      exact h.add host type value
  | snapshot payload =>
      have hfinal : (Call.run host (.snapshot payload) store).final =
          (Store.addSnapshot payload store).final :=
        Program.final_bind_of_keeps (fun _ _ => rfl) store
      rw [hfinal]
      exact h.addSnapshot payload

/-! ## Recovery -/

/-- The ledger and the tail file are the same. -/
def SameTail (store after : StoreDir) : Prop :=
  after.ledger = store.ledger ∧ after.tail = store.tail

instance : Std.Refl SameTail where
  refl _ := ⟨rfl, rfl⟩

instance : IsTrans StoreDir SameTail where
  trans _ _ _ hfirst hsecond := ⟨hsecond.1.trans hfirst.1, hsecond.2.trans hfirst.2⟩

theorem sameTail_removeTransaction (host : Host) (name : String) :
    Program.Follows SameTail (removeTransaction host name) := by
  refine Program.follows_bind Program.follows_get fun _ => ?_
  refine Program.follows_bind (Program.follows_forEach (fun file => ?_) _) fun _ => ?_
  · exact Program.follows_step fun _ => ⟨rfl, rfl⟩
  · exact Program.follows_step fun _ => ⟨rfl, rfl⟩

theorem Cached.redo (h : Cached store) (hrecorded : Recorded store read) {name : String}
    {journal : Journal} {type : ContentType} {payload : Fields} {tail : LedgerTail} {size : Nat}
    (hpayload : (Json.obj payload).wf = true) (htail : tail.entryDigest.wf = true)
    (hvalue : journal.value = (writtenJournal type payload tail size).value)
    (hrow : journal.row = (writtenJournal type payload tail size).row) :
    Cached (redo name journal read store).final := by
  refine Program.final_bind_of_reads h rfl fun _ hstore => ?_
  cases hstore
  refine Program.final_bind_of_reads h rfl fun _ hcheck => ?_
  rw [Program.lift_apply, raiseIf_eq_ok_iff, hvalue, hrow] at hcheck
  have hend := (redo_check_iff hrecorded.chain).mp hcheck
  have hextended : ∀ base : StoreDir, base.ledger = store.ledger → base.tail = store.tail →
      Cached (base.extended journal.row) := by
    intro base hledger hfile
    refine @Cached.extended base read (hrecorded.congr hledger hfile) type.value payload _ tail
      hpayload htail hend ?_ ?_ ?_
    · rw [hrow, row_writtenJournal, rowLine_sortKeys]
    · rw [hrow, row_writtenJournal, Fields.get_sortKeys]
      rfl
    · rw [hrow, row_writtenJournal, Fields.get_sortKeys]
      rfl
  dsimp only
  cases store.readPath journal.path with
  | some text => exact Program.final_bind_of_reads h rfl fun _ _ => hextended store rfl rfl
  | none => exact hextended _ (ledger_writePath store _ _) (tail_writePath store _ _)

theorem Cached.settle (h : Cached store) (hrecorded : Recorded store read)
    (hjournalled : Journalled store) {name : String} {journal : Journal}
    (hjournal : verifyJournal store name = .ok journal) :
    Cached (settle name journal read store).final := by
  obtain ⟨type, payload, tail, size, hpayload, htail, hvalue, hrow⟩ :=
    hjournalled.written hjournal
  rw [Store.settle]
  cases read.find? fun item =>
      (Fields.get item "entryDigest").pyEq (Fields.get journal.row "entryDigest") with
  | some committed => exact h
  | none => exact h.redo hrecorded hpayload htail hvalue hrow

theorem Cached.recoverOne (h : Cached store) (hjournalled : Journalled store) (host : Host)
    (name : String) : Cached (recoverOne host name store).final := by
  refine Program.final_bind_of_reads h rfl fun _ hstore => ?_
  cases hstore
  refine Program.final_bind_of_reads h rfl fun journal hjournal => ?_
  refine Program.final_bind_of_reads h rfl fun read hread => ?_
  obtain ⟨found, -, hrecorded, -, -⟩ := id h
  obtain rfl := hrecorded.eq_of_rows hread
  have hsettled := h.settle hrecorded hjournalled hjournal
  rw [Program.bind_apply, Run.andThen]
  split
  · exact hsettled
  · refine Program.final_bind_of_reads hsettled rfl fun _ hstore => ?_
    cases hstore
    refine Program.final_bind_of_reads hsettled rfl fun _ _ => ?_
    obtain ⟨hledger, htail⟩ := sameTail_removeTransaction host name
      (Store.settle name journal read store).final
    exact hsettled.congr hledger htail

end Add

/-! ## Runs without crashes -/

/-- The stores that operations lead to from a new one, each of them finished: it
returns or raises. -/
inductive CrashFree : StoreDir → Prop
  | init : CrashFree .fresh
  | operation {store : StoreDir} (host : Host) (operation : Operation) (h : CrashFree store) :
      CrashFree (operation.run host store).final

theorem final_mem_states {α : Type} (program : StoreM α) (store : StoreDir) :
    (program store).final ∈ program.states store := by
  simp [Program.states]

theorem CrashFree.crashReachable {store : StoreDir} (h : CrashFree store) :
    CrashReachable store := by
  induction h with
  | init => exact .init
  | operation host operation _ ih => exact .operation host ih (final_mem_states _ _)

theorem Cached.recoverAll {base : List Fields} {store : StoreDir} (h : Cached store)
    (hsafe : TailSafe base store) (host : Host) (names : List String) :
    Cached (recoverAll host names store).final := by
  induction names generalizing store with
  | nil => exact h
  | cons name names ih =>
      have hone := h.recoverOne hsafe.2 host name
      have hafter := (ensures_recoverOne host name store hsafe trivial).1 _ (final_mem_states _ _)
      rw [Store.recoverAll]
      dsimp only
      cases hresult : (Store.recoverOne host name store).result with
      | ok value =>
          rw [Run.andThen_of_ok hresult]
          exact ih hone hafter
      | error error =>
          dsimp only
          split <;> exact hone

theorem Cached.recover {base : List Fields} {store : StoreDir} (h : Cached store)
    (hsafe : TailSafe base store) (host : Host) : Cached (recover host store).final := by
  refine Program.final_bind_of_reads h rfl fun _ hstore => ?_
  cases hstore
  refine Program.final_bind_of_reads h rfl fun _ _ => ?_
  have hrecovered := h.recoverAll hsafe host (pendingTransactions store)
  rw [Program.bind_apply, Run.andThen]
  split
  · exact hrecovered
  · split
    · exact hrecovered
    · exact Program.final_bind_of_reads hrecovered rfl fun _ _ => hrecovered

/-- Without a crash the tail file holds the end of the ledger. -/
theorem CrashFree.cached {store : StoreDir} (h : CrashFree store) : Cached store := by
  induction h with
  | init => exact .fresh
  | operation host operation h ih =>
      cases operation with
      | write call => exact ih.call host call
      | rebuildTail => exact ih.rebuildTail
      | recover =>
          have hfinal := @Program.final_bind_of_keeps _ _ _ _ (recover host)
            (fun _ => (pure () : StoreM Unit)) (fun _ _ => rfl)
          exact (hfinal _).symm ▸ ih.recover h.crashReachable.tailSafe host

end MncsCommons.Store
