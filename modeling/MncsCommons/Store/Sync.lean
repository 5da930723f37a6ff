/-
# Cursor synchronisation

`sync_since` reads the rows after a cursor, keeps those of one kind, and returns
a cursor to continue from.  The cursor counts all rows it has gone through, not
only the ones it kept.

A session is a sequence of such calls, each with the cursor of the one before,
with anything that happens to the store in between.  The ledger only grows, so a
cursor stays a position of it, and the pages of a session are consecutive pieces
of the ledger (`sync_exact`).
-/

import MncsCommons.Store.Tail

namespace MncsCommons.Store

open MncsCommons.Data MncsCommons.Protocol MncsCommons.Exec

def maxSyncEntries : Int := 1000

def exchangeVersion : String := "commons.mncs.dev/exchange/v0alpha1"

/-- `_store_identity` of the store at a resolved path. -/
def storeIdentity (root : String) : String := canonicalDigestOfAll [("storePath", .str root)]

/-- `_cursor_for`. -/
def cursorFor (root : String) (sequence : Int) (entryDigest : Json) : Fields :=
  [("storeId", .str (storeIdentity root)), ("sequence", .int sequence),
    ("entryDigest", entryDigest)]

/-- `current_cursor`. -/
def currentCursor (root : String) : StoreM Fields := do
  let store ← Program.get
  Program.lift (requireInitialized store)
  let tail ← loadTail
  return cursorFor root tail.sequence tail.entryDigest

/-- A page of `sync_since`. -/
structure SyncPage where
  exchangeVersion : String
  entries : List Fields
  nextCursor : Fields
  hasMore : Bool
  truncated : Bool

/-- Whether the payload of a row is of the kind that is asked for, if any is. -/
def matchesKind (kind : Option String) (row : Fields) : Bool :=
  match kind with
  | none => true
  | some kind => (Fields.get row "payload").obj?.any fun payload =>
      (Fields.get payload "kind").str? = some kind

/-- The position to read from: that of the cursor, which must be one of this
store and name the row it stands at. -/
def startOf (root : String) (read : List Fields) (cursor : Option Fields) : Py Int :=
  match cursor with
  | none => .ok 0
  | some cursor => do
      raiseIf (!(Fields.get cursor "storeId").pyEq (.str (storeIdentity root)))
        (.storeError "INVALID_CURSOR: cursor belongs to another store")
      let sequence ← match toInt ((Fields.get? cursor "sequence").getD (.int (-1))) with
        | .ok sequence => .ok sequence
        | .error _ => .error (.storeError "INVALID_CURSOR: sequence is not an integer")
      let entryDigest := Fields.get cursor "entryDigest"
      raiseIf (sequence < 0 || read.length < sequence)
        (.storeError "STALE_CURSOR: cursor sequence is outside the ledger")
      raiseIf (sequence = 0 && entryDigest ≠ .null)
        (.storeError "INVALID_CURSOR: empty cursor must not have an entry digest")
      raiseIf (sequence ≠ 0 && !((read[(sequence - 1).toNat]?.map fun row =>
          Fields.get row "entryDigest").getD .null).pyEq entryDigest)
        (.storeError "STALE_CURSOR: cursor entry digest does not match ledger")
      return sequence

/-- Go through the rows until enough are selected. -/
def scanRows (kind : Option String) (limit : Int) :
    Int → List Fields → List Fields → Py (Int × List Fields)
  | scanned, selected, [] => .ok (scanned, selected)
  | scanned, selected, row :: read => do
      let scanned ← toInt ((Fields.get? row "sequence").getD (.int (scanned + 1)))
      if matchesKind kind row then
        let selected := selected ++ [row]
        if limit ≤ selected.length then return (scanned, selected)
        else scanRows kind limit scanned selected read
      else scanRows kind limit scanned selected read

/-- `rows[index]`. -/
def rowAt (read : List Fields) (index : Int) : Py Fields :=
  let index := if index < 0 then index + read.length else index
  match if 0 ≤ index then read[index.toNat]? else none with
  | some row => .ok row
  | none => .error (.indexError "list index out of range")

/-- `sync_since` of the store at a resolved path. -/
def syncSince (root : String) (store : StoreDir) (cursor : Option Fields) (limit : Int)
    (kind : Option String) : Py SyncPage := do
  requireInitialized store
  raiseIf (limit < 1 || maxSyncEntries < limit)
    (.storeError ("sync limit must be between 1 and " ++ toString maxSyncEntries))
  let read ← rows store
  let sequence ← startOf root read cursor
  let (scanned, selected) ← scanRows kind limit sequence [] (read.drop sequence.toNat)
  let entryDigest ←
    if scanned = 0 then pure Json.null
    else do
      let row ← rowAt read (scanned - 1)
      pure (.str (Fields.get row "entryDigest").pyStr)
  return {
    exchangeVersion := exchangeVersion
    entries := selected
    nextCursor := cursorFor root scanned entryDigest
    hasMore := scanned < read.length
    truncated := limit ≤ selected.length && scanned < read.length }

/-! ## Scanning -/

/-- The rows carry the numbers after the given one. -/
def Numbered : Int → List Fields → Prop
  | _, [] => True
  | sequence, row :: read =>
      (Fields.get row "sequence").pyEq (.int (sequence + 1)) = true ∧ Numbered (sequence + 1) read

theorem Chain.numbered {sequence : Nat} {previous : Json} {read : List Fields}
    (h : Chain (sequence + 1) previous read) : Numbered sequence read := by
  induction read generalizing sequence previous with
  | nil => trivial
  | cons row read ih => exact ⟨h.1.sequence, ih h.2⟩

theorem Numbered.drop {sequence : Int} {read : List Fields} (h : Numbered sequence read)
    (count : Nat) (hcount : count ≤ read.length) : Numbered (sequence + count) (read.drop count) := by
  induction count generalizing sequence read with
  | zero => simpa using h
  | succ count ih =>
      cases read with
      | nil => simp at hcount
      | cons row read =>
          have hrest := ih h.2 (by simpa using hcount)
          rwa [add_assoc, add_comm 1, show ((count : Int) + 1) = ((count + 1 : Nat) : Int) by simp]
            at hrest

theorem toInt_sequence {row : Fields} {n : Int}
    (h : (Fields.get row "sequence").pyEq (.int n) = true) (default : Json) :
    toInt ((Fields.get? row "sequence").getD default) = .ok n := by
  have hget : Fields.get? row "sequence" = some (Fields.get row "sequence") := by
    refine Fields.get?_of_get rfl fun hnull => ?_
    rw [hnull] at h
    simp [Json.pyEq, Json.normal] at h
  rw [hget, Option.getD_some]
  unfold toInt
  rw [Json.pyInt_of_pyEq h]

/-- A scan goes through a piece of the rows, selects those of the kind, and stops
early only with enough of them. -/
theorem scanRows_eq (kind : Option String) (limit : Int) {scanned : Int}
    (selected : List Fields) {read : List Fields} (h : Numbered scanned read) :
    ∃ count ≤ read.length,
      scanRows kind limit scanned selected read =
          .ok (scanned + count, selected ++ (read.take count).filter (matchesKind kind)) ∧
        (count < read.length →
          limit ≤ (selected ++ (read.take count).filter (matchesKind kind)).length) ∧
        (read ≠ [] → 0 < count) := by
  induction read generalizing scanned selected with
  | nil => exact ⟨0, le_refl 0, by simp [scanRows], by simp, fun hne => absurd rfl hne⟩
  | cons row read ih =>
      obtain ⟨hsequence, hrest⟩ := h
      have hshift : ∀ count : Nat, scanned + 1 + count = scanned + ((count + 1 : Nat) : Int) := by
        omega
      rw [scanRows, toInt_sequence hsequence]
      simp only [bind, Except.bind]
      by_cases hmatches : matchesKind kind row = true
      · rw [if_pos hmatches]
        by_cases hlimit : limit ≤ ((selected ++ [row]).length : Int)
        · refine ⟨1, by simp, ?_, fun _ => ?_, fun _ => Nat.one_pos⟩
          · rw [if_pos hlimit]
            simp [hmatches, pure, Except.pure]
          · simpa [hmatches] using hlimit
        · obtain ⟨count, hcount, hscan, hstop, -⟩ := ih (selected ++ [row]) hrest
          refine ⟨count + 1, by simpa using hcount, ?_, fun hless => ?_, fun _ => Nat.succ_pos _⟩
          · rw [if_neg hlimit, hscan, hshift count]
            simp [hmatches]
          · simpa [hmatches] using hstop (by simpa using hless)
      · rw [if_neg hmatches]
        obtain ⟨count, hcount, hscan, hstop, -⟩ := ih selected hrest
        refine ⟨count + 1, by simpa using hcount, ?_, fun hless => ?_, fun _ => Nat.succ_pos _⟩
        · rw [hscan, hshift count]
          simp [hmatches]
        · simpa [hmatches] using hstop (by simpa using hless)

/-! ## Cursors -/

/-- The cursor that stands after the first rows. -/
def cursorAt (root : String) (read : List Fields) (count : Nat) : Fields :=
  cursorFor root count (lastDigest .null (read.take count))

theorem lastDigest_take_succ {read : List Fields} {count : Nat} {row : Fields}
    (h : read[count]? = some row) :
    lastDigest .null (read.take (count + 1)) = Fields.get row "entryDigest" := by
  rw [List.take_add_one, h, Option.toList_some, lastDigest_append]

theorem cursorAt_of_isPrefix {root : String} {read after : List Fields} (h : read <+: after)
    {count : Nat} (hcount : count ≤ read.length) :
    cursorAt root after count = cursorAt root read count := by
  obtain ⟨more, rfl⟩ := h
  rw [cursorAt, cursorAt, List.take_append_of_le_length hcount]

/-- A cursor, or the beginning, stands after the first rows. -/
def StandsAt (root : String) (read : List Fields) (cursor : Option Fields) (position : Nat) :
    Prop :=
  position ≤ read.length ∧
    match cursor with
    | none => position = 0
    | some cursor => cursor = cursorAt root read position

theorem StandsAt.of_isPrefix {root : String} {read after : List Fields} {cursor : Option Fields}
    {position : Nat} (h : StandsAt root read cursor position) (hleading : read <+: after) :
    StandsAt root after cursor position := by
  refine ⟨h.1.trans hleading.length_le, ?_⟩
  cases cursor with
  | none => exact h.2
  | some cursor => exact h.2.trans (cursorAt_of_isPrefix hleading h.1).symm

/-- A cursor that stands somewhere is read from there. -/
theorem StandsAt.startOf_eq {root : String} {read : List Fields} {cursor : Option Fields}
    {position : Nat} (h : StandsAt root read cursor position) :
    startOf root read cursor = .ok position := by
  obtain ⟨hposition, hcursor⟩ := h
  cases cursor with
  | none =>
      rw [show position = 0 from hcursor]
      rfl
  | some cursor =>
      obtain rfl : cursor = cursorAt root read position := hcursor
      have hstore : Fields.get (cursorAt root read position) "storeId" =
          .str (storeIdentity root) := rfl
      have hsequence : toInt ((Fields.get? (cursorAt root read position) "sequence").getD
          (.int (-1))) = .ok (position : Int) := rfl
      have hdigest : Fields.get (cursorAt root read position) "entryDigest" =
          lastDigest .null (read.take position) := rfl
      have hrange : (decide ((position : Int) < 0) || decide ((read.length : Int) < position)) =
          false := by
        rw [Bool.or_eq_false_iff, decide_eq_false_iff_not, decide_eq_false_iff_not]
        omega
      rw [startOf, hstore, hsequence, hdigest]
      simp only [hrange, Json.pyEq_self, Bool.not_true, raiseIf, if_neg Bool.false_ne_true, bind,
        Except.bind]
      cases position with
      | zero => simp [pure, Except.pure, lastDigest]
      | succ count =>
          obtain ⟨row, hrow⟩ : ∃ row, read[count]? = some row :=
            ⟨_, List.getElem?_eq_getElem hposition⟩
          have hzero : ((count + 1 : Nat) : Int) ≠ 0 := by omega
          have hindex : (((count + 1 : Nat) : Int) - 1).toNat = count := by omega
          rw [lastDigest_take_succ hrow, hindex, hrow]
          simp only [hzero, decide_false, Bool.false_and, if_neg Bool.false_ne_true,
            Option.map_some, Option.getD_some, Json.pyEq_self, Bool.not_true, Bool.and_false]
          rfl

/-- Reading starts within the ledger. -/
theorem range_of_startOf {root : String} {read : List Fields} {cursor : Option Fields} {start : Int}
    (h : startOf root read cursor = .ok start) : ∃ position ≤ read.length, start = position := by
  cases cursor with
  | none => exact ⟨0, Nat.zero_le _, (Except.ok.inj h).symm⟩
  | some cursor =>
      rw [startOf] at h
      obtain ⟨_, -, h⟩ := Py.bind_eq_ok_iff.mp h
      dsimp only at h
      split at h
      case h_2 => exact absurd h (by simp [bind, Except.bind])
      rename_i sequence _
      obtain ⟨sequence, -, h⟩ := Py.bind_eq_ok_iff.mp h
      obtain ⟨_, hrange, h⟩ := Py.bind_eq_ok_iff.mp h
      obtain ⟨_, -, h⟩ := Py.bind_eq_ok_iff.mp h
      obtain ⟨_, -, h⟩ := Py.bind_eq_ok_iff.mp h
      rw [raiseIf_eq_ok_iff, Bool.or_eq_false_iff, decide_eq_false_iff_not,
        decide_eq_false_iff_not] at hrange
      refine ⟨sequence.toNat, by omega, ?_⟩
      rw [← Except.ok.inj h]
      omega

/-! ## One call -/

/-- The page of a piece of the rows. -/
def pageOf (root : String) (read : List Fields) (start count : Nat) (limit : Int)
    (kind : Option String) : SyncPage :=
  let entries := ((read.drop start).take count).filter (matchesKind kind)
  { exchangeVersion := exchangeVersion
    entries := entries
    nextCursor := cursorAt root read (start + count)
    hasMore := start + count < read.length
    truncated := limit ≤ entries.length && start + count < read.length }

/-- A call from a position returns a page from there, which is not empty of rows
unless there are none. -/
theorem syncSince_eq {root : String} {store : StoreDir} {read : List Fields}
    {cursor : Option Fields} {limit : Int} (kind : Option String) {start : Nat}
    (hread : rows store = .ok read) (hchain : Chain 1 .null read)
    (hstart : startOf root read cursor = .ok start) (hrange : start ≤ read.length)
    (hone : 1 ≤ limit) (hmax : limit ≤ maxSyncEntries) :
    ∃ count, start + count ≤ read.length ∧
      syncSince root store cursor limit kind = .ok (pageOf root read start count limit kind) ∧
      (start < read.length → 0 < count) := by
  have hnumbered : Numbered start (read.drop start) := by
    simpa using (@Chain.numbered 0 _ _ hchain).drop start hrange
  obtain ⟨count, hcount, hscan, -, hpositive⟩ :=
    scanRows_eq kind limit [] hnumbered
  rw [List.length_drop] at hcount
  refine ⟨count, by omega, ?_, fun hless => hpositive ?_⟩
  · have hlimit : (decide (limit < 1) || decide (maxSyncEntries < limit)) = false := by
      rw [Bool.or_eq_false_iff, decide_eq_false_iff_not, decide_eq_false_iff_not]
      omega
    rw [syncSince, requireInitialized_of_rows hread, hlimit, hread]
    simp only [bind, Except.bind, raiseIf, if_neg Bool.false_ne_true, hstart, Int.toNat_natCast,
      hscan, List.nil_append, ← Int.natCast_add]
    cases hsum : start + count with
    | zero => simp [pageOf, cursorAt, lastDigest, pure, Except.pure, hsum]
    | succ before =>
        obtain ⟨row, hrow⟩ : ∃ row, read[before]? = some row :=
          ⟨_, List.getElem?_eq_getElem (by omega)⟩
        obtain ⟨_, -, _, hlinked⟩ := hchain.linked (List.mem_of_getElem? hrow)
        have hindex : ((before + 1 : Nat) : Int) - 1 = before := by omega
        have hat : rowAt read (((before + 1 : Nat) : Int) - 1) = .ok row := by
          rw [rowAt, hindex]
          simp [hrow, Int.not_lt.mpr (Int.natCast_nonneg before)]
        have hpositive : ((before + 1 : Nat) : Int) ≠ 0 := by omega
        have hdigest : Json.str (Fields.get row "entryDigest").pyStr =
            lastDigest .null (read.take (before + 1)) := by
          rw [lastDigest_take_succ hrow, hlinked.digest]
          rfl
        simp only [if_neg hpositive, hat, hdigest, pageOf, cursorAt, hsum, pure, Except.pure,
          Int.ofNat_lt]
  · intro hnil
    have hlength := congrArg List.length hnil
    rw [List.length_drop, List.length_nil] at hlength
    omega

/-- Every page is one of these. -/
theorem page_of_syncSince {root : String} {store : StoreDir} {read : List Fields}
    {cursor : Option Fields} {limit : Int} {kind : Option String} {page : SyncPage}
    (hrecorded : Recorded store read) (h : syncSince root store cursor limit kind = .ok page) :
    ∃ start count : Nat, startOf root read cursor = .ok (start : Int) ∧ start + count ≤ read.length ∧
      page = pageOf root read start count limit kind ∧ (start < read.length → 0 < count) := by
  have hcall := h
  rw [syncSince] at h
  obtain ⟨_, -, h⟩ := Py.bind_eq_ok_iff.mp h
  obtain ⟨_, hlimit, h⟩ := Py.bind_eq_ok_iff.mp h
  obtain ⟨found, hread, h⟩ := Py.bind_eq_ok_iff.mp h
  obtain ⟨sequence, hstart, -⟩ := Py.bind_eq_ok_iff.mp h
  obtain rfl := hrecorded.eq_of_rows hread
  obtain ⟨start, hrange, rfl⟩ := range_of_startOf hstart
  rw [raiseIf_eq_ok_iff, Bool.or_eq_false_iff, decide_eq_false_iff_not, decide_eq_false_iff_not]
    at hlimit
  have hone : 1 ≤ limit := by omega
  obtain ⟨count, hcount, heq, hpositive⟩ := syncSince_eq kind hread hrecorded.chain hstart hrange
    hone (by omega)
  exact ⟨start, count, hstart, hcount, Except.ok.inj (hcall.symm.trans heq), hpositive⟩

theorem standsAt_nextCursor {root : String} {read : List Fields} {start count : Nat} {limit : Int}
    {kind : Option String} (h : start + count ≤ read.length) :
    StandsAt root read (some (pageOf root read start count limit kind).nextCursor)
      (start + count) :=
  ⟨h, rfl⟩

/-! ## Sessions -/

/-- A cursor that the store returned before, or none. -/
inductive ReturnedBefore (root : String) (store : StoreDir) : Option Fields → Prop
  | none : ReturnedBefore root store none
  | current {earlier : StoreDir} {cursor : Fields} (hearlier : CrashReachable earlier)
      (hlater : Later earlier store) (h : (currentCursor root earlier).result = .ok cursor) :
      ReturnedBefore root store (some cursor)
  | page {earlier : StoreDir} {cursor : Option Fields} {limit : Int} {kind : Option String}
      {page : SyncPage} (hearlier : CrashReachable earlier) (hlater : Later earlier store)
      (h : syncSince root earlier cursor limit kind = .ok page) :
      ReturnedBefore root store (some page.nextCursor)

/-- The cursor of the last page, or the first one. -/
def continueFrom (cursor : Option Fields) (pages : List SyncPage) : Option Fields :=
  (pages.getLast?.map (·.nextCursor)).or cursor

/-- Calls of one kind, each from the cursor of the one before, with anything that
happens to the store in between. -/
inductive Session (root : String) (kind : Option String) (start : StoreDir)
    (cursor : Option Fields) : List SyncPage → StoreDir → Prop
  | start : Session root kind start cursor [] start
  | later {pages : List SyncPage} {store after : StoreDir}
      (h : Session root kind start cursor pages store) (hlater : Later store after) :
      Session root kind start cursor pages after
  | sync {pages : List SyncPage} {store : StoreDir} {limit : Int} {page : SyncPage}
      (h : Session root kind start cursor pages store)
      (hpage : syncSince root store (continueFrom cursor pages) limit kind = .ok page) :
      Session root kind start cursor (pages ++ [page]) store

/-- A chain of calls on one store, until a page says that there is no more. -/
def syncChain (root : String) (store : StoreDir) (kind : Option String) :
    Option Fields → List Int → Py (List SyncPage)
  | _, [] => .ok []
  | cursor, limit :: limits => do
      let page ← syncSince root store cursor limit kind
      if page.hasMore then
        return page :: (← syncChain root store kind (some page.nextCursor) limits)
      else return [page]

/-- The pages hold the rows of the kind between two positions, each once and in
ledger order. -/
def Delivered (kind : Option String) (read : List Fields) (first last : Nat)
    (pages : List SyncPage) : Prop :=
  first ≤ last ∧
    pages.flatMap (·.entries) = ((read.drop first).take (last - first)).filter (matchesKind kind)

theorem continueFrom_concat (cursor : Option Fields) (pages : List SyncPage) (page : SyncPage) :
    continueFrom cursor (pages ++ [page]) = some page.nextCursor := by
  simp [continueFrom]

theorem Delivered.of_isPrefix {kind : Option String} {read after : List Fields} {first last : Nat}
    {pages : List SyncPage} (h : Delivered kind read first last pages) (hleading : read <+: after)
    (hlast : last ≤ read.length) : Delivered kind after first last pages := by
  obtain ⟨more, rfl⟩ := hleading
  refine ⟨h.1, ?_⟩
  have := h.1
  rw [h.2, List.drop_append_of_le_length (by omega), List.take_append_of_le_length]
  rw [List.length_drop]
  omega

theorem Delivered.concat {root : String} {kind : Option String} {read : List Fields}
    {first last count : Nat} {limit : Int} {pages : List SyncPage}
    (h : Delivered kind read first last pages) :
    Delivered kind read first (last + count)
      (pages ++ [pageOf root read last count limit kind]) := by
  have := h.1
  refine ⟨by omega, ?_⟩
  have hsum : last + count - first = (last - first) + count := by omega
  have hdrop : read.drop last = (read.drop first).drop (last - first) := by
    rw [List.drop_drop]
    congr 1
    omega
  rw [List.flatMap_append, h.2, hsum, List.take_add, List.filter_append, ← hdrop]
  simp [pageOf]

/-- The rows of an earlier store come first in a later one. -/
theorem Later.recorded {earlier store : StoreDir} {read : List Fields} (h : Later earlier store)
    (hearlier : CrashReachable earlier) (hrecorded : Recorded store read) :
    ∃ before, Recorded earlier before ∧ before <+: read := by
  obtain ⟨before, hbefore, -⟩ := hearlier.tailSafe.1
  obtain ⟨after, hafter, hleading⟩ :=
    (h.tailSafe ⟨⟨before, hbefore, List.prefix_rfl⟩, hearlier.tailSafe.2⟩).1
  obtain rfl := hafter.unique hrecorded
  exact ⟨before, hbefore, hleading⟩

theorem standsAt_currentCursor {root : String} {store : StoreDir} {read : List Fields}
    {cursor : Fields} (hreachable : CrashReachable store) (hrecorded : Recorded store read)
    (h : (currentCursor root store).result = .ok cursor) :
    StandsAt root read (some cursor) read.length := by
  have hensures : Program.Ensures (TailSafe []) (fun store => Recorded store read)
      (currentCursor root) fun cursor _ => cursor = cursorAt root read read.length := by
    refine Program.ensures_bind _ Program.ensures_get fun _ => ?_
    refine Program.ensures_bind (fun _ store => Recorded store read)
      ((Program.ensures_lift _).weaken (fun _ _ h => h.2) fun _ _ h => h.2) fun _ => ?_
    refine Program.ensures_bind _ ensures_loadTail fun tail =>
      Program.ensures_pure fun _ _ h => ?_
    rw [h.2.1.sequence, h.2.1.entryDigest, cursorAt, List.take_length]
  exact ⟨le_refl _, (hensures store hreachable.tailSafe hrecorded).2 cursor h⟩

/-- A cursor of the store stands at a position of its ledger. -/
theorem ReturnedBefore.standsAt {root : String} {store : StoreDir} {read : List Fields}
    {cursor : Option Fields} (h : ReturnedBefore root store cursor)
    (hrecorded : Recorded store read) : ∃ position, StandsAt root read cursor position := by
  cases h with
  | none => exact ⟨0, Nat.zero_le _, rfl⟩
  | current hearlier hlater h =>
      obtain ⟨before, hbefore, hleading⟩ := hlater.recorded hearlier hrecorded
      exact ⟨_, (standsAt_currentCursor hearlier hbefore h).of_isPrefix hleading⟩
  | page hearlier hlater h =>
      obtain ⟨before, hbefore, hleading⟩ := hlater.recorded hearlier hrecorded
      obtain ⟨start, count, -, hcount, rfl, -⟩ := page_of_syncSince hbefore h
      exact ⟨_, (standsAt_nextCursor hcount).of_isPrefix hleading⟩

/-- The state of a session: where its first cursor stands, where its last one
does, and what the pages in between hold. -/
structure Progress (root : String) (kind : Option String) (cursor : Option Fields)
    (read : List Fields) (first last : Nat) (pages : List SyncPage) : Prop where
  begins : StandsAt root read cursor first
  stands : StandsAt root read (continueFrom cursor pages) last
  delivered : Delivered kind read first last pages

section Progress

variable {root : String} {kind : Option String} {cursor : Option Fields} {read : List Fields}
  {first last : Nat} {pages : List SyncPage}

theorem Progress.of_isPrefix {after : List Fields} (h : Progress root kind cursor read first last pages)
    (hleading : read <+: after) : Progress root kind cursor after first last pages where
  begins := h.begins.of_isPrefix hleading
  stands := h.stands.of_isPrefix hleading
  delivered := h.delivered.of_isPrefix hleading h.stands.1

/-- One more page continues the session. -/
theorem Progress.sync (h : Progress root kind cursor read first last pages) {store : StoreDir}
    (hrecorded : Recorded store read) {limit : Int} {page : SyncPage}
    (hpage : syncSince root store (continueFrom cursor pages) limit kind = .ok page) :
    ∃ count, Progress root kind cursor read first (last + count) (pages ++ [page]) ∧
      page.hasMore = decide (last + count < read.length) ∧ (last < read.length → 0 < count) := by
  obtain ⟨start, count, hstart, hcount, rfl, hpositive⟩ := page_of_syncSince hrecorded hpage
  obtain rfl : start = last := by
    rw [h.stands.startOf_eq] at hstart
    exact Int.ofNat.inj (Except.ok.inj hstart).symm
  refine ⟨count, ⟨h.begins, ?_, h.delivered.concat⟩, rfl, hpositive⟩
  rw [continueFrom_concat]
  exact standsAt_nextCursor hcount

theorem Progress.entries_of_hasMore (h : Progress root kind cursor read first last pages)
    (hlast : ¬ last < read.length) :
    pages.flatMap (·.entries) = (read.drop first).filter (matchesKind kind) := by
  have := h.stands.1
  rw [h.delivered.2, List.take_of_length_le]
  rw [List.length_drop]
  omega

end Progress

/-- A session keeps its progress. -/
theorem Session.progress {root : String} {kind : Option String} {start store : StoreDir}
    {cursor : Option Fields} {pages : List SyncPage} (hstart : CrashReachable start)
    (hcursor : ReturnedBefore root start cursor)
    (h : Session root kind start cursor pages store) :
    CrashReachable store ∧
      ∃ read first last, Recorded store read ∧ Progress root kind cursor read first last pages := by
  induction h with
  | start =>
      obtain ⟨read, hrecorded, -⟩ := hstart.tailSafe.1
      obtain ⟨first, hfirst⟩ := hcursor.standsAt hrecorded
      exact ⟨hstart, read, first, first, hrecorded, hfirst, hfirst, le_refl _, by simp⟩
  | later _ hlater ih =>
      obtain ⟨hreachable, read, first, last, hrecorded, hprogress⟩ := ih
      obtain ⟨after, hafter, hleading⟩ :=
        (hlater.tailSafe ⟨⟨read, hrecorded, List.prefix_rfl⟩, hreachable.tailSafe.2⟩).1
      exact ⟨hreachable.later hlater, after, first, last, hafter, hprogress.of_isPrefix hleading⟩
  | sync _ hpage ih =>
      obtain ⟨hreachable, read, first, last, hrecorded, hprogress⟩ := ih
      obtain ⟨count, hnext, -⟩ := hprogress.sync hrecorded hpage
      exact ⟨hreachable, read, first, last + count, hrecorded, hnext⟩

/-- A chain on one store ends once there are more calls than rows left. -/
theorem syncChain_ends {root : String} {kind : Option String} {store : StoreDir}
    {read : List Fields} (hread : rows store = .ok read) (hrecorded : Recorded store read)
    {cursor : Option Fields} {position : Nat} (h : StandsAt root read cursor position)
    (limits : List Int) (hlimits : ∀ limit ∈ limits, 1 ≤ limit ∧ limit ≤ maxSyncEntries)
    (henough : read.length < position + limits.length) :
    ∃ pages last, syncChain root store kind cursor limits = .ok (pages ++ [last]) ∧
      last.hasMore = false := by
  induction limits generalizing cursor position with
  | nil => exact absurd h.1 (by simpa using henough)
  | cons limit limits ih =>
      obtain ⟨hone, hmax⟩ := hlimits limit List.mem_cons_self
      obtain ⟨count, hcount, hpage, hpositive⟩ := syncSince_eq kind hread hrecorded.chain
        h.startOf_eq h.1 hone hmax
      rw [syncChain, hpage]
      by_cases hmore : position + count < read.length
      · have hcount' := hpositive (by omega)
        rw [List.length_cons] at henough
        obtain ⟨pages, last, hchain, hlast⟩ := ih (standsAt_nextCursor hcount)
          (fun limit hlimit => hlimits limit (List.mem_cons_of_mem _ hlimit)) (by omega)
        refine ⟨pageOf root read position count limit kind :: pages, last, ?_, hlast⟩
        simp only [bind, Except.bind]
        rw [if_pos (by simpa [pageOf] using hmore), hchain]
        rfl
      · refine ⟨[], pageOf root read position count limit kind, ?_, by simpa [pageOf] using hmore⟩
        simp only [bind, Except.bind]
        rw [if_neg (by simpa [pageOf] using hmore)]
        rfl

/-- Whatever happens to the store between the calls, the pages of a session hold
exactly the rows of the kind from where the first cursor stands to where the last
one does.  A page that says there is no more ends the ledger; and while the store
can be read, a call with a limit within the bounds returns, and a chain of such
calls ends. -/
theorem sync_exact {root : String} {kind : Option String} {start store : StoreDir}
    {cursor : Option Fields} {pages : List SyncPage} (hstart : CrashReachable start)
    (hcursor : ReturnedBefore root start cursor)
    (hsession : Session root kind start cursor pages store) :
    ∃ read first last, store.ledger = some (read.flatMap rowLine) ∧
      StandsAt root read cursor first ∧ StandsAt root read (continueFrom cursor pages) last ∧
      Delivered kind read first last pages ∧
      (∀ limit page, syncSince root store (continueFrom cursor pages) limit kind = .ok page →
        page.hasMore = false →
          (pages ++ [page]).flatMap (·.entries) = (read.drop first).filter (matchesKind kind)) ∧
      ∀ found, rows store = .ok found → found = read ∧
        (∀ limit, 1 ≤ limit → limit ≤ maxSyncEntries →
          ∃ page, syncSince root store (continueFrom cursor pages) limit kind = .ok page) ∧
        ∀ limits : List Int, (∀ limit ∈ limits, 1 ≤ limit ∧ limit ≤ maxSyncEntries) →
          read.length < last + limits.length →
          ∃ more final,
            syncChain root store kind (continueFrom cursor pages) limits = .ok (more ++ [final]) ∧
              final.hasMore = false := by
  obtain ⟨-, read, first, last, hrecorded, hprogress⟩ := hsession.progress hstart hcursor
  refine ⟨read, first, last, hrecorded.lines, hprogress.begins, hprogress.stands, hprogress.delivered,
    fun limit page hpage hmore => ?_, fun found hread => ?_⟩
  · obtain ⟨count, hnext, hhasMore, -⟩ := hprogress.sync hrecorded hpage
    refine hnext.entries_of_hasMore ?_
    rwa [hmore, eq_comm, decide_eq_false_iff_not] at hhasMore
  · obtain rfl := hrecorded.eq_of_rows hread
    refine ⟨rfl, fun limit hone hmax => ?_, fun limits hlimits henough =>
      syncChain_ends hread hrecorded hprogress.stands limits hlimits henough⟩
    obtain ⟨count, -, hpage, -⟩ := syncSince_eq kind hread hrecorded.chain
      hprogress.stands.startOf_eq hprogress.stands.1 hone hmax
    exact ⟨_, hpage⟩

/-- A reader of a new store that gets the row of a snapshot, cut off before its
tail. -/
theorem sync_exact_snapshotCutOff :
    ∃ page, syncSince "/store" snapshotCutOff none 1 none = .ok page ∧
      ∃ read first last, snapshotCutOff.ledger = some (read.flatMap rowLine) ∧
        Delivered none read first last [page] := by
  obtain ⟨read, hrecorded, -⟩ := crashReachable_snapshotCutOff.tailSafe.1
  obtain rfl := hrecorded.eq_of_rows rows_snapshotCutOff
  obtain ⟨count, -, hpage, -⟩ := @syncSince_eq "/store" _ _ none 1 none 0 rows_snapshotCutOff
    hrecorded.chain rfl (Nat.zero_le _) (by decide) (by decide)
  obtain ⟨read, first, last, hlines, -, -, hdelivered, -⟩ := sync_exact .init .none
    (.sync (.later .start (.operation .plain .refl snapshotCutOff_mem_states)) hpage)
  exact ⟨_, hpage, read, first, last, hlines, hdelivered⟩

end MncsCommons.Store
