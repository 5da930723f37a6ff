/-
# Protocol types

The enumerations of the wire protocol, the diagnostics that validators return,
and the exceptions that the host raises.

A validator is a list of checks that run in order, each of which either adds
diagnostics or raises.  `concatChecks` is that sequence; it returns no
diagnostics exactly when every check returns none.
-/

import MncsCommons.Data.Python

namespace MncsCommons.Protocol

open MncsCommons.Data

/-- The wire version. -/
def apiVersion : String := "commons.mncs.dev/v0alpha1"

/-- The `kind` of a lifecycle event. -/
def eventKind : String := "LifecycleEvent"

/-! ## Exceptions -/

/-- An exception the modelled code raises or catches. -/
inductive PyError where
  | storeError (message : String)
  | bundleError (message : String)
  | familyRecordError (message : String)
  | workProtocolError (code message : String)
  | valueError (message : String)
  | typeError (message : String)
  | keyError (key : String)
  | attributeError (message : String)
  | overflowError (message : String)
  | indexError (message : String)
  | osError (message : String)
  deriving DecidableEq, Repr

namespace PyError

/-- The text of the exception. -/
def message : PyError → String
  | .storeError message | .bundleError message | .familyRecordError message
  | .workProtocolError _ message | .valueError message | .typeError message
  | .attributeError message | .overflowError message | .indexError message
  | .osError message => message
  | .keyError key => String.ofList (reprString key)

/-- Whether `except ValueError` catches it. -/
def isValueError : PyError → Bool
  | .valueError _ | .bundleError _ | .familyRecordError _ | .workProtocolError _ _ => true
  | _ => false

end PyError

/-- A computation that returns a value or raises. -/
abbrev Py (α : Type) := Except PyError α

/-- A sequence returns when both parts do. -/
theorem Py.bind_eq_ok_iff {α β : Type} {first : Py α} {next : α → Py β} {value : β} :
    (first >>= next) = .ok value ↔ ∃ middle, first = .ok middle ∧ next middle = .ok value := by
  cases first <;> simp [bind, Except.bind]

/-- Raise the exception when the condition holds. -/
def raiseIf (condition : Bool) (error : PyError) : Py Unit :=
  if condition then .error error else .ok ()

@[simp]
theorem raiseIf_eq_ok_iff {condition : Bool} {error : PyError} {value : Unit} :
    raiseIf condition error = .ok value ↔ condition = false := by
  cases condition <;> simp [raiseIf]

/-- Hashing a value for a set or dictionary lookup; containers are unhashable. -/
def requireHashable : Json → Py Unit
  | .arr _ => .error (.typeError "unhashable type: 'list'")
  | .obj _ => .error (.typeError "unhashable type: 'dict'")
  | _ => .ok ()

/-- `value in {...}` for a set of strings. -/
def inSet (value : Json) (values : List String) : Py Bool := do
  requireHashable value
  return value.str?.any (values.contains ·)

/-- The items a `for` loop over the value visits. -/
def iterate : Json → Py (List Json)
  | .arr items => .ok items
  | .obj fields => .ok (fields.map fun field => .str field.1)
  | .str text => .ok (text.toList.map fun c => .str (String.singleton c))
  | .null => .error (.typeError "'NoneType' object is not iterable")
  | .bool _ => .error (.typeError "'bool' object is not iterable")
  | .int _ => .error (.typeError "'int' object is not iterable")
  | .decimal _ => .error (.typeError "'float' object is not iterable")

/-- The items of `value or []`. -/
def iterateOrEmpty (value : Json) : Py (List Json) :=
  if value.truthy then iterate value else .ok []

/-- The name of the value's type. -/
def typeName : Json → String
  | .null => "NoneType"
  | .bool _ => "bool"
  | .int _ => "int"
  | .decimal _ => "float"
  | .str _ => "str"
  | .arr _ => "list"
  | .obj _ => "dict"

/-- `value.get(key, default)` on a value that need not be a mapping. -/
def getAttr (value : Json) (key : String) (default : Json) : Py Json :=
  match value with
  | .obj fields => .ok ((Fields.get? fields key).getD default)
  | _ => .error (.attributeError ("'" ++ typeName value ++ "' object has no attribute 'get'"))

/-- `int(value)`. -/
def toInt (value : Json) : Py Int :=
  match value.pyInt with
  | some n => .ok n
  | none => match value with
      | .str _ => .error (.valueError ("invalid literal for int() with base 10: " ++
          String.ofList (reprValue value)))
      | _ => .error (.typeError ("int() argument must be a string, a bytes-like object or a " ++
          "real number, not '" ++ typeName value ++ "'"))

/-! ## Loops that may raise -/

section Loops

variable {α β : Type}

/-- The items that satisfy a test, in order. -/
def filterWhere (test : α → Py Bool) : List α → Py (List α)
  | [] => .ok []
  | item :: items => do
      let kept ← test item
      let rest ← filterWhere test items
      return if kept then item :: rest else rest

/-- `any(test(item) for item in items)`: stops at the first item that satisfies
the test. -/
def anyWhere (test : α → Py Bool) : List α → Py Bool
  | [] => .ok false
  | item :: items => do
      if ← test item then return true else anyWhere test items

/-- What a computation returns for each item, in order. -/
def collect (compute : α → Py β) : List α → Py (List β)
  | [] => .ok []
  | item :: items => do
      let first ← compute item
      let rest ← collect compute items
      return first :: rest

theorem filterWhere_eq_ok_iff {test : α → Py Bool} {items kept : List α} :
    filterWhere test items = .ok kept ↔
      (∀ item ∈ items, ∃ b, test item = .ok b) ∧
        kept = items.filter fun item => test item matches .ok true := by
  induction items generalizing kept with
  | nil => simp [filterWhere, eq_comm]
  | cons item items ih =>
      rw [filterWhere, Py.bind_eq_ok_iff]
      constructor
      · rintro ⟨b, hitem, hrest⟩
        obtain ⟨rest, hitems, hkept⟩ := Py.bind_eq_ok_iff.mp hrest
        obtain ⟨hall, rfl⟩ := ih.mp hitems
        obtain rfl := Except.ok.inj hkept
        refine ⟨List.forall_mem_cons.mpr ⟨⟨b, hitem⟩, hall⟩, ?_⟩
        cases b <;> simp [hitem]
      · rintro ⟨hall, rfl⟩
        obtain ⟨⟨b, hitem⟩, hall⟩ := List.forall_mem_cons.mp hall
        refine ⟨b, hitem, Py.bind_eq_ok_iff.mpr ⟨_, ih.mpr ⟨hall, rfl⟩, ?_⟩⟩
        cases b <;> simp [hitem, pure, Except.pure]

/-- Every item kept satisfies the test. -/
theorem mem_filterWhere {test : α → Py Bool} {items kept : List α}
    (h : filterWhere test items = .ok kept) {item : α} :
    item ∈ kept ↔ item ∈ items ∧ test item = .ok true := by
  obtain ⟨hall, rfl⟩ := filterWhere_eq_ok_iff.mp h
  rw [List.mem_filter]
  constructor
  · rintro ⟨hmem, htest⟩
    refine ⟨hmem, ?_⟩
    split at htest
    · rename_i heq
      exact heq
    · exact absurd htest (by simp)
  · rintro ⟨hmem, htest⟩
    exact ⟨hmem, by simp [htest]⟩

theorem anyWhere_eq_true {test : α → Py Bool} {items : List α}
    (h : anyWhere test items = .ok true) : ∃ item ∈ items, test item = .ok true := by
  induction items with
  | nil => exact absurd h (by simp [anyWhere])
  | cons item items ih =>
      obtain ⟨b, hitem, hrest⟩ := Py.bind_eq_ok_iff.mp h
      cases b with
      | true => exact ⟨item, List.mem_cons_self, hitem⟩
      | false =>
          obtain ⟨other, hmem, htest⟩ := ih hrest
          exact ⟨other, List.mem_cons_of_mem item hmem, htest⟩

/-- What is returned for each item is among what is collected, and nothing else is. -/
theorem mem_collect {compute : α → Py β} {items : List α} {values : List β}
    (h : collect compute items = .ok values) {value : β} :
    value ∈ values ↔ ∃ item ∈ items, compute item = .ok value := by
  induction items generalizing values with
  | nil =>
      obtain rfl := Except.ok.inj h
      simp
  | cons item items ih =>
      obtain ⟨first, hitem, hrest⟩ := Py.bind_eq_ok_iff.mp h
      obtain ⟨rest, hitems, hvalues⟩ := Py.bind_eq_ok_iff.mp hrest
      obtain rfl := Except.ok.inj hvalues
      simp [ih hitems, hitem, eq_comm]

/-- A collection that returns does so for every item. -/
theorem collect_returns {compute : α → Py β} {items : List α} {values : List β}
    (h : collect compute items = .ok values) {item : α} (hmem : item ∈ items) :
    ∃ value ∈ values, compute item = .ok value := by
  induction items generalizing values with
  | nil => exact absurd hmem (by simp)
  | cons first items ih =>
      obtain ⟨value, hfirst, hrest⟩ := Py.bind_eq_ok_iff.mp h
      obtain ⟨rest, hitems, hvalues⟩ := Py.bind_eq_ok_iff.mp hrest
      obtain rfl := Except.ok.inj hvalues
      rcases List.mem_cons.mp hmem with rfl | hmem
      · exact ⟨value, List.mem_cons_self, hfirst⟩
      · obtain ⟨other, hother, hcompute⟩ := ih hitems hmem
        exact ⟨other, List.mem_cons_of_mem value hother, hcompute⟩

/-- A collection returns when it does so for every item. -/
theorem exists_collect {compute : α → Py β} {items : List α}
    (h : ∀ item ∈ items, ∃ value, compute item = .ok value) :
    ∃ values, collect compute items = .ok values := by
  induction items with
  | nil => exact ⟨[], rfl⟩
  | cons item items ih =>
      obtain ⟨value, hvalue⟩ := h item List.mem_cons_self
      obtain ⟨values, hvalues⟩ := ih fun other hother => h other (List.mem_cons_of_mem _ hother)
      exact ⟨_, Py.bind_eq_ok_iff.mpr ⟨value, hvalue, Py.bind_eq_ok_iff.mpr ⟨values, hvalues, rfl⟩⟩⟩

end Loops

/-! ## Enumerations -/

/-- The kinds of record. -/
inductive RecordKind where
  | conceptExperiment | failureClassification | observation | claim | finding | question
  | hypothesis | failedApproach | handoff | artifactReference | thread | workRequest
  | replication | developmentRecord | changeset | advisory | decision | epoch | epochSummary
  | replicationSeries | observationSeries
  deriving DecidableEq, Repr

namespace RecordKind

def value : RecordKind → String
  | .conceptExperiment => "ConceptExperiment"
  | .failureClassification => "FailureClassification"
  | .observation => "Observation"
  | .claim => "Claim"
  | .finding => "Finding"
  | .question => "Question"
  | .hypothesis => "Hypothesis"
  | .failedApproach => "FailedApproach"
  | .handoff => "Handoff"
  | .artifactReference => "ArtifactReference"
  | .thread => "Thread"
  | .workRequest => "WorkRequest"
  | .replication => "Replication"
  | .developmentRecord => "DevelopmentRecord"
  | .changeset => "ChangeSet"
  | .advisory => "Advisory"
  | .decision => "Decision"
  | .epoch => "Epoch"
  | .epochSummary => "EpochSummary"
  | .replicationSeries => "ReplicationSeries"
  | .observationSeries => "ObservationSeries"

def all : List RecordKind :=
  [.conceptExperiment, .failureClassification, .observation, .claim, .finding, .question,
    .hypothesis, .failedApproach, .handoff, .artifactReference, .thread, .workRequest,
    .replication, .developmentRecord, .changeset, .advisory, .decision, .epoch, .epochSummary,
    .replicationSeries, .observationSeries]

/-- The kind a string names. -/
def ofString? (text : String) : Option RecordKind := all.find? fun kind => kind.value = text

end RecordKind

/-- The lifecycle states of a record in one trust domain. -/
inductive LifecycleState where
  | proposed | reproduced | verified | accepted | disputed | superseded | expired | rejected
  | withdrawn
  deriving DecidableEq, Repr

namespace LifecycleState

def value : LifecycleState → String
  | .proposed => "proposed"
  | .reproduced => "reproduced"
  | .verified => "verified"
  | .accepted => "accepted"
  | .disputed => "disputed"
  | .superseded => "superseded"
  | .expired => "expired"
  | .rejected => "rejected"
  | .withdrawn => "withdrawn"

def all : List LifecycleState :=
  [.proposed, .reproduced, .verified, .accepted, .disputed, .superseded, .expired, .rejected,
    .withdrawn]

/-- The state a string names. -/
def ofString? (text : String) : Option LifecycleState := all.find? fun state => state.value = text

theorem ofString?_value (state : LifecycleState) : ofString? state.value = some state := by
  cases state <;> decide

end LifecycleState

/-- The values of `ResultStatus`. -/
def resultStatuses : List String := ["PASS", "FAIL", "UNKNOWN"]

/-- The values of `WorkRequestState`. -/
def workRequestStates : List String :=
  ["open", "claimed", "responded", "completed", "unable_to_complete", "superseded", "withdrawn"]

/-- The values of `RelationType`. -/
def relationTypes : List String :=
  ["supports", "contradicts", "replicates", "failed_to_replicate", "supersedes", "narrows",
    "depends_on", "derived_from", "requests", "responds_to", "answers", "contributes_to",
    "explores", "attempts", "hands_off", "follows_up", "verifies", "disputes",
    "affects_contract", "references_artifact", "rerun_of", "predecessor", "evaluates",
    "executes", "compiled_from", "produced"]

/-! ## Diagnostics -/

/-- One finding of a validator. Every diagnostic the modelled code builds has
the severity `error`. -/
structure Diagnostic where
  code : String
  path : String
  message : String
  deriving DecidableEq, Repr

/-- The path of an item of a list. -/
def itemPath (path : String) (index : Nat) : String := path ++ "[" ++ toString index ++ "]"

/-- Run checks in order and collect what they report. -/
def concatChecks : List (Py (List Diagnostic)) → Py (List Diagnostic)
  | [] => .ok []
  | check :: checks => do
      let first ← check
      let rest ← concatChecks checks
      return first ++ rest

theorem concatChecks_eq_nil_iff {checks : List (Py (List Diagnostic))} :
    concatChecks checks = .ok [] ↔ ∀ check ∈ checks, check = .ok [] := by
  induction checks with
  | nil => simp [concatChecks]
  | cons check checks ih =>
      rw [List.forall_mem_cons, ← ih, concatChecks]
      cases check with
      | error error => simp [bind, Except.bind]
      | ok first =>
          cases concatChecks checks with
          | error error => simp [bind, Except.bind]
          | ok rest => simp [bind, Except.bind, pure, Except.pure]

/-- A diagnostic when the condition holds. -/
def reportIf (condition : Bool) (code path message : String) : Py (List Diagnostic) :=
  .ok (if condition then [⟨code, path, message⟩] else [])

@[simp]
theorem reportIf_eq_nil_iff {condition : Bool} {code path message : String} :
    reportIf condition code path message = .ok [] ↔ condition = false := by
  cases condition <;> simp [reportIf]

/-- A diagnostic when the value is not in the set. -/
def reportUnlessIn (value : Json) (values : List String) (code path message : String) :
    Py (List Diagnostic) := do
  let found ← inSet value values
  reportIf (!found) code path message

theorem reportUnlessIn_eq_nil_iff {value : Json} {values : List String}
    {code path message : String} :
    reportUnlessIn value values code path message = .ok [] ↔
      ∃ s ∈ values, value = .str s := by
  cases value <;>
    simp [reportUnlessIn, inSet, requireHashable, bind, Except.bind, pure, Except.pure, Json.str?]

end MncsCommons.Protocol
