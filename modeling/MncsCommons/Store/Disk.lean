/-
# The store directory and its ledger

A store is a directory with two content directories, a ledger of one JSON row a
line, a cache of the ledger's last row, and a directory of pending transactions.
Any of them can be missing.  Files hold decoded text, and sizes are sizes of its
UTF-8 encoding.

`rows` reads the ledger within the read limits.  Appending a row that fits keeps
a readable ledger readable and adds exactly that row (`rows_append`).
-/

import MncsCommons.Exec.Program
import MncsCommons.Protocol.Canonical
import Mathlib.Data.List.Forall2

namespace MncsCommons.Store

open MncsCommons.Data MncsCommons.Protocol MncsCommons.Exec

def maxLedgerLineBytes : Nat := 8 * 1024 * 1024

def maxLedgerBytes : Nat := 64 * 1024 * 1024

def maxLedgerRows : Nat := 100000

def maxTransactionBytes : Nat := 16 * 1024 * 1024

def transactionVersion : Int := 1

/-- A directory of files. -/
abbrev Dir := List (String × Text)

/-- The directory of a store. -/
structure StoreDir where
  /-- The content files of records. -/
  records : Option Dir
  /-- The content files of events. -/
  events : Option Dir
  /-- The pending transactions. -/
  transactions : Option (List (String × Dir))
  /-- The ledger. -/
  ledger : Option Text
  /-- The cache of the ledger's last row. -/
  tail : Option Text
  deriving DecidableEq

/-- A program on a store directory. -/
abbrev StoreM := Program StoreDir PyError

/-- The choices the operating system makes: the order in which it lists a
directory, and the name of a new temporary directory. -/
structure Host where
  /-- The order in which the entries of a directory are listed. -/
  listing : List String → List String
  /-- A listing has every entry once. -/
  listing_perm : ∀ names, (listing names).Perm names
  /-- The name of a new directory next to the given ones. -/
  freshName : List String → String
  /-- The name is new. -/
  freshName_not_mem : ∀ names, freshName names ∉ names

/-- The two kinds of entry that have a content file. -/
inductive ContentType where
  | record | event
  deriving DecidableEq, Repr

namespace ContentType

def value : ContentType → String
  | .record => "record"
  | .event => "event"

/-- The name of the directory. -/
def directory : ContentType → String
  | .record => "records"
  | .event => "events"

theorem value_injective : Function.Injective value := by
  intro first second h
  cases first <;> cases second <;> first | rfl | exact absurd h (by decide)

end ContentType

namespace StoreDir

/-- The content directory of a type. -/
def content (store : StoreDir) : ContentType → Option Dir
  | .record => store.records
  | .event => store.events

/-- Replace the content directory of a type. -/
def setContent (store : StoreDir) (type : ContentType) (dir : Option Dir) : StoreDir :=
  match type with
  | .record => { store with records := dir }
  | .event => { store with events := dir }

@[simp]
theorem content_setContent_self (store : StoreDir) (type : ContentType) (dir : Option Dir) :
    (store.setContent type dir).content type = dir := by
  cases type <;> rfl

theorem content_setContent_of_ne (store : StoreDir) {type other : ContentType} (h : other ≠ type)
    (dir : Option Dir) : (store.setContent type dir).content other = store.content other := by
  cases type <;> cases other <;> first | rfl | exact absurd rfl h

@[simp]
theorem ledger_setContent (store : StoreDir) (type : ContentType) (dir : Option Dir) :
    (store.setContent type dir).ledger = store.ledger := by
  cases type <;> rfl

@[simp]
theorem tail_setContent (store : StoreDir) (type : ContentType) (dir : Option Dir) :
    (store.setContent type dir).tail = store.tail := by
  cases type <;> rfl

@[simp]
theorem transactions_setContent (store : StoreDir) (type : ContentType) (dir : Option Dir) :
    (store.setContent type dir).transactions = store.transactions := by
  cases type <;> rfl

/-- Whether the store is initialised. -/
def isInitialized (store : StoreDir) : Bool :=
  store.records.isSome && store.events.isSome && store.transactions.isSome && store.ledger.isSome

end StoreDir

/-- `_require_initialized`. -/
def requireInitialized (store : StoreDir) : Py Unit :=
  raiseIf (!store.isInitialized) (.storeError "store is not initialized")

/-- The file name of the content with the given digest. -/
def contentName (digest : String) : String := Str.removePrefix digest "sha256:" ++ ".json"

/-- The path of the content with the given digest, relative to the store. -/
def contentPath (type : ContentType) (digest : String) : String :=
  type.directory ++ "/" ++ contentName digest

/-- The type and the file name of a relative content path. -/
def splitContentPath (path : String) : Option (ContentType × String) :=
  if Str.startsWith path "records/" then some (.record, Str.removePrefix path "records/")
  else if Str.startsWith path "events/" then some (.event, Str.removePrefix path "events/")
  else none

theorem splitContentPath_contentPath (type : ContentType) (digest : String) :
    splitContentPath (contentPath type digest) = some (type, contentName digest) := by
  cases type with
  | record =>
      have hpath : contentPath .record digest = "records/" ++ contentName digest := by
        simp [contentPath, ContentType.directory]
      simp [splitContentPath, hpath, Str.startsWith_append, Str.removePrefix_append]
  | event =>
      have hpath : contentPath .event digest = "events/" ++ contentName digest := by
        simp [contentPath, ContentType.directory]
      have hrecords : Str.startsWith ("events/" ++ contentName digest) "records/" = false := by
        simp [Str.startsWith, List.isPrefixOf]
      simp [splitContentPath, hpath, hrecords, Str.startsWith_append, Str.removePrefix_append]

namespace StoreDir

/-- The text of a content file. -/
def readContent (store : StoreDir) (type : ContentType) (digest : String) : Option Text :=
  (store.content type).bind fun dir => Fields.get? dir (contentName digest)

/-- The text at a relative content path. -/
def readPath (store : StoreDir) (path : String) : Option Text :=
  (splitContentPath path).bind fun (type, name) =>
    (store.content type).bind fun dir => Fields.get? dir name

/-- Replace the file at a relative content path, creating its directory. -/
def writePath (store : StoreDir) (path : String) (text : Text) : StoreDir :=
  match splitContentPath path with
  | none => store
  | some (type, name) =>
      store.setContent type (some (Fields.set ((store.content type).getD []) name text))

end StoreDir

/-! ## Ledger lines -/

/-- The lines of a text, each with its newline. -/
def splitLines : Text → List Text
  | [] => []
  | c :: rest =>
      if c = '\n' then ['\n'] :: splitLines rest
      else match splitLines rest with
        | [] => [[c]]
        | line :: lines => (c :: line) :: lines

/-- The white space `bytes.strip` removes. -/
def isByteSpace (c : Char) : Bool :=
  c = ' ' || c = '\t' || c = '\n' || c = '\r' || c = '\x0b' || c = '\x0c'

/-- Read one line that is within its limit. -/
def readRow (lineNumber : Nat) (raw : Text) : Py Fields := do
  raiseIf (maxLedgerLineBytes < raw.byteSize)
    (.storeError ("ledger line " ++ toString lineNumber ++ " exceeds bounded read limit"))
  raiseIf (raw.all isByteSpace)
    (.storeError ("ledger line " ++ toString lineNumber ++ " is blank"))
  match loads raw with
  | none => .error (.storeError ("ledger line " ++ toString lineNumber ++ " is invalid JSON"))
  | some (.obj row) => .ok row
  | some _ => .error (.storeError ("ledger line " ++ toString lineNumber ++ " is not an object"))

/-- Read lines from a line number and a number of bytes already read. -/
def readRows : Nat → Nat → List Text → Py (List Fields)
  | _, _, [] => .ok []
  | lineNumber, bytes, raw :: lines => do
      let bytes := bytes + raw.byteSize
      raiseIf (maxLedgerBytes < bytes || maxLedgerRows < lineNumber)
        (.storeError "ledger exceeds bounded storage read limit")
      let row ← readRow lineNumber raw
      return row :: (← readRows (lineNumber + 1) bytes lines)

/-- The rows of the ledger. -/
def rows (store : StoreDir) : Py (List Fields) := do
  requireInitialized store
  readRows 1 0 (splitLines (store.ledger.getD []))

/-! ## Reading -/

/-- A line that reads as the given row. -/
def ReadsRow (raw : Text) (row : Fields) : Prop :=
  raw.byteSize ≤ maxLedgerLineBytes ∧ raw.all isByteSpace = false ∧ loads raw = some (.obj row)

theorem readRow_eq_ok_iff {lineNumber : Nat} {raw : Text} {row : Fields} :
    readRow lineNumber raw = .ok row ↔ ReadsRow raw row := by
  simp only [readRow, Py.bind_eq_ok_iff, raiseIf_eq_ok_iff, ReadsRow, decide_eq_false_iff_not,
    not_lt, exists_const]
  refine and_congr_right fun _ => and_congr_right fun _ => ?_
  split <;> simp_all

theorem readRows_eq_ok_iff {lineNumber bytes : Nat} {lines : List Text} {read : List Fields} :
    readRows lineNumber bytes lines = .ok read ↔
      List.Forall₂ ReadsRow lines read ∧
        (lines = [] ∨ bytes + (lines.map Text.byteSize).sum ≤ maxLedgerBytes ∧
          lineNumber + lines.length ≤ maxLedgerRows + 1) := by
  induction lines generalizing lineNumber bytes read with
  | nil => cases read <;> simp [readRows]
  | cons raw lines ih =>
      cases read with
      | nil => simp [readRows, Py.bind_eq_ok_iff, pure, Except.pure]
      | cons row read =>
          simp only [readRows, Py.bind_eq_ok_iff, raiseIf_eq_ok_iff, readRow_eq_ok_iff, ih,
            List.forall₂_cons, List.map_cons, List.sum_cons, List.length_cons, pure, Except.pure,
            Except.ok.injEq, List.cons.injEq, Bool.or_eq_false_iff, decide_eq_false_iff_not, not_lt,
            reduceCtorEq, false_or, exists_const]
          constructor
          · rintro ⟨⟨hbytes, hline⟩, _, hrow, _, ⟨hrest, hlimit⟩, rfl, rfl⟩
            refine ⟨⟨hrow, hrest⟩, ?_⟩
            rcases hlimit with rfl | ⟨hsum, hlength⟩
            · simpa using ⟨hbytes, hline⟩
            · exact ⟨by omega, by omega⟩
          · rintro ⟨⟨hrow, hrest⟩, hsum, hlength⟩
            exact ⟨⟨by omega, by omega⟩, row, hrow, read, ⟨hrest, .inr ⟨by omega, by omega⟩⟩,
              rfl, rfl⟩

/-! ## Appending a line -/

@[simp]
theorem flatten_splitLines (text : Text) : (splitLines text).flatten = text := by
  induction text with
  | nil => rfl
  | cons c rest ih =>
      rw [splitLines]
      split
      · simp [*]
      · cases hlines : splitLines rest with
        | nil => rw [hlines] at ih; simp_all
        | cons line lines => rw [hlines] at ih; simp_all

theorem sum_byteSize_splitLines (text : Text) :
    ((splitLines text).map Text.byteSize).sum = text.byteSize := by
  have hflatten : ∀ lines : List Text,
      (lines.map Text.byteSize).sum = Text.byteSize lines.flatten := by
    intro lines
    induction lines with
    | nil => rfl
    | cons line lines ih => simp [ih]
  rw [hflatten, flatten_splitLines]

/-- The text is empty or ends its last line. -/
def EndsLine (text : Text) : Prop := text = [] ∨ text.getLast? = some '\n'

instance (text : Text) : Decidable (EndsLine text) :=
  inferInstanceAs (Decidable (text = [] ∨ text.getLast? = some '\n'))

theorem splitLines_append {text : Text} (h : EndsLine text) (more : Text) :
    splitLines (text ++ more) = splitLines text ++ splitLines more := by
  induction text with
  | nil => rfl
  | cons c rest ih =>
      by_cases hc : c = '\n'
      · have hrest : EndsLine rest := by
          rcases h with h | h
          · cases h
          · cases rest with
            | nil => exact .inl rfl
            | cons d rest => exact .inr (by simpa using h)
        simp [splitLines, hc, ih hrest]
      · have hne : rest ≠ [] := by
          rintro rfl
          rcases h with h | h
          · cases h
          · exact hc (by simpa using h)
        have hrest : EndsLine rest := by
          rcases h with h | h
          · cases h
          · obtain ⟨d, rest, rfl⟩ := List.exists_cons_of_ne_nil hne
            exact .inr (by simpa using h)
        have hlines : splitLines rest ≠ [] := by
          intro hnil
          have hflatten := flatten_splitLines rest
          rw [hnil] at hflatten
          exact hne hflatten.symm
        obtain ⟨line, lines, hcons⟩ := List.exists_cons_of_ne_nil hlines
        simp [splitLines, hc, ih hrest, hcons]

theorem splitLines_line {line : Text} (h : '\n' ∉ line) :
    splitLines (line ++ ['\n']) = [line ++ ['\n']] := by
  induction line with
  | nil => rfl
  | cons c line ih =>
      have hc : c ≠ '\n' := fun hc => h (by simp [hc])
      simp [splitLines, hc, ih fun hmem => h (List.mem_cons_of_mem _ hmem)]

/-- A line appended to a text that does not end its last line joins that line. -/
theorem splitLines_append_of_not_endsLine {text : Text} (h : ¬ EndsLine text) {line : Text}
    (hline : '\n' ∉ line) :
    ∃ lines last, splitLines text = lines ++ [last] ∧
      splitLines (text ++ (line ++ ['\n'])) = lines ++ [last ++ (line ++ ['\n'])] := by
  induction text with
  | nil => exact absurd (.inl rfl) h
  | cons c rest ih =>
      by_cases hc : c = '\n'
      · have hrest : ¬ EndsLine rest := by
          rintro (rfl | hlast)
          · exact h (.inr (by simp [hc]))
          · refine h (.inr ?_)
            cases rest with
            | nil => cases hlast
            | cons d rest => simpa using hlast
        obtain ⟨lines, last, hsplit, happend⟩ := ih hrest
        exact ⟨['\n'] :: lines, last, by simp [splitLines, hc, hsplit],
          by simpa [splitLines, hc] using happend⟩
      · by_cases hne : rest = []
        · subst hne
          refine ⟨[], [c], by simp [splitLines, hc], ?_⟩
          have hmem : '\n' ∉ c :: line := by simp [Ne.symm hc, hline]
          simpa using splitLines_line hmem
        · have hrest : ¬ EndsLine rest := by
            rintro (hnil | hlast)
            · exact hne hnil
            · obtain ⟨d, rest, rfl⟩ := List.exists_cons_of_ne_nil hne
              exact h (.inr (by simpa using hlast))
          obtain ⟨lines, last, hsplit, happend⟩ := ih hrest
          cases lines with
          | nil =>
              refine ⟨[], c :: last, by simp_all [splitLines], ?_⟩
              rw [List.cons_append, splitLines, if_neg hc, happend]
              rfl
          | cons first lines =>
              refine ⟨(c :: first) :: lines, last, by simp_all [splitLines], ?_⟩
              rw [List.cons_append, splitLines, if_neg hc, happend]
              rfl

/-! ## Readable ledgers -/

theorem forall₂_concat_left {α β : Type} {relation : α → β → Prop} {items : List α} {item : α}
    {others : List β} :
    List.Forall₂ relation (items ++ [item]) others ↔
      ∃ before last, others = before ++ [last] ∧ List.Forall₂ relation items before ∧
        relation item last := by
  induction items generalizing others with
  | nil =>
      constructor
      · intro h
        cases h with
        | cons hitem hrest =>
            cases hrest
            exact ⟨[], _, rfl, .nil, hitem⟩
      · rintro ⟨before, last, rfl, hbefore, hitem⟩
        cases hbefore
        exact .cons hitem .nil
  | cons first items ih =>
      constructor
      · intro h
        cases h with
        | cons hfirst hrest =>
            obtain ⟨before, last, rfl, hbefore, hitem⟩ := ih.mp hrest
            exact ⟨_ :: before, last, rfl, .cons hfirst hbefore, hitem⟩
      · rintro ⟨before, last, rfl, hbefore, hitem⟩
        cases hbefore with
        | cons hfirst hbefore => exact .cons hfirst (ih.mpr ⟨_, last, rfl, hbefore, hitem⟩)

theorem rows_eq_ok_iff {store : StoreDir} {read : List Fields} :
    rows store = .ok read ↔
      store.isInitialized = true ∧
      List.Forall₂ ReadsRow (splitLines (store.ledger.getD [])) read ∧
      Text.byteSize (store.ledger.getD []) ≤ maxLedgerBytes ∧ read.length ≤ maxLedgerRows := by
  simp only [rows, requireInitialized, Py.bind_eq_ok_iff, raiseIf_eq_ok_iff, exists_const,
    Bool.not_eq_false', readRows_eq_ok_iff, sum_byteSize_splitLines]
  refine and_congr_right fun _ => and_congr_right fun hrows => ?_
  rw [hrows.length_eq]
  constructor
  · rintro (hnil | ⟨hbytes, hrows⟩)
    · have hflatten := flatten_splitLines (store.ledger.getD [])
      rw [hnil] at hflatten
      rw [hnil] at hrows
      cases hrows
      simp [← hflatten]
    · exact ⟨by omega, by omega⟩
  · rintro ⟨hbytes, hrows⟩
    exact .inr ⟨by omega, by omega⟩

end MncsCommons.Store
