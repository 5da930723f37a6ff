/-
# Queries over pressure rows

The native queries: which rows a filter or a view selects, the item a row is
answered with, and the loops that collect the items.  The language has no lists
that grow: the items go into an array of 256 slots with a length beside it that
wraps, and the answer is a slice of that array.

What is shown is that nothing is lost on the way: for every request the answer
is the items of the selected rows, in the order of the rows.
-/

import MncsCommons.Pressure.Kernel

namespace MncsCommons.Pressure

/-! ## Rows, filters and items -/

/-- An array of at most so many items. -/
abbrev UpTo (bound : Nat) (α : Type) := { items : List α // items.length ≤ bound }

inductive PressureTarget where
  | language | compiler | runtime | library | tooling | backend | verification | profile
  | ecosystem
  deriving DecidableEq, Repr

inductive PressureSeverity where
  | blocker | blocking | critical | major | moderate | minor
  deriving DecidableEq, Repr

inductive PressureVerificationState where
  | incomplete | ready | failed | unknown
  deriving DecidableEq, Repr

inductive PressureReconciliation where
  | stillReproduces | partiallyResolved | capabilityAvailableConsumerNotMigrated | backendOnly
  | consumerDebt | obsolete | duplicate | resolved | unreconciled
  deriving DecidableEq, Repr

inductive PressureViewSelector where
  | unresolvedLanguage | blocking | awaitingVerification | recentlyResolved | multiRepository
  | rustFallback | pythonFallback | needsRevalidation
  deriving DecidableEq, Repr

/-- A row of a query with all its fields. -/
structure PressureQueryInput extends PressureQueryRow where
  pressureIdentity : UpTo 128 UInt8
  target : PressureTarget
  domainIdentity : Identity
  severity : PressureSeverity
  affectedRepositories : UpTo 32 Identity
  reporters : UpTo 32 Identity
  verificationAffected : Int
  verificationPass : Int
  verificationFail : Int
  verificationUnknown : Int
  workaroundsRemoved : Int
  currentValidation : Bool
  workaroundActive : Bool
  fallbackRust : Bool
  fallbackPython : Bool
  languageProfile : Identity
  observationLanguageProfiles : UpTo 32 Identity
  reconciliation : PressureReconciliation
  valid : Bool

structure PressureQueryFilter where
  statusEnabled : Bool
  status : PressureStatus
  targetEnabled : Bool
  target : PressureTarget
  domainEnabled : Bool
  domainIdentity : Identity
  repositoryEnabled : Bool
  repositoryIdentity : Identity
  severities : UpTo 6 PressureSeverity
  unresolved : Bool
  multiRepository : Bool
  awaitingVerification : Bool
  workaroundActive : Bool
  languageProfileEnabled : Bool
  languageProfile : Identity
  rustFallback : Bool
  pythonFallback : Bool
  needsRevalidation : Bool

structure PressureQueryRequest where
  rows : UpTo 256 PressureQueryInput
  filter : PressureQueryFilter

structure PressureViewRequest where
  rows : UpTo 256 PressureQueryInput
  selector : PressureViewSelector

structure PressureVerificationSummary where
  affected : Int
  pass : Int
  failed : Int
  unknown : Int
  deriving DecidableEq

structure PressureQueryItem where
  pressureIdentity : UpTo 128 UInt8
  target : PressureTarget
  domainIdentity : Identity
  severity : PressureSeverity
  status : PressureStatus
  lifecycleErrorCode : Int
  affectedRepositories : UpTo 32 Identity
  reporters : UpTo 32 Identity
  verificationSummary : PressureVerificationSummary
  verificationState : PressureVerificationState
  reconciliation : PressureReconciliation
  unresolved : Bool
  fallbackRust : Bool
  fallbackPython : Bool
  currentValidation : Bool
  revalidationRequired : Bool
  valid : Bool

/-- The slots of an answer; the length is an unsigned 64-bit integer. -/
structure PressureQueryBuilder where
  values : Vector PressureQueryItem 256
  length : UInt64

structure PressureQueryResult where
  rows : UpTo 256 PressureQueryItem

/-! ## Predicates -/

/-- `status_is_terminal`. -/
def statusIsTerminal : PressureStatus → Bool
  | .resolved | .duplicate | .rejected | .superseded | .obsolete => true
  | .discovered | .confirmed | .accepted | .implementing | .available | .verifying | .deferred
  | .conflicted => false

/-- `status_unresolved`. -/
def statusUnresolved (value : PressureStatus) : Bool := !statusIsTerminal value

/-- `pressure_verification_state`. -/
def pressureVerificationState (affected passed failed unknown removed : Int) :
    PressureVerificationState :=
  if affected ≤ 0 then .unknown
  else if failed > 0 then .failed
  else if unknown > 0 then .unknown
  else if passed = affected ∧ removed = affected then .ready
  else .incomplete

/-- `contains_repository`. -/
def containsRepository (values : UpTo 32 Identity) (repository : Identity) : Bool :=
  values.val.foldl (fun found value => found || bytesEqual value repository) false

/-- `pressure_target_code`. -/
def pressureTargetCode : PressureTarget → Int
  | .language => 0
  | .compiler => 1
  | .runtime => 2
  | .library => 3
  | .tooling => 4
  | .backend => 5
  | .verification => 6
  | .profile => 7
  | .ecosystem => 8

/-- `pressure_severity_code`. -/
def pressureSeverityCode : PressureSeverity → Int
  | .blocker => 0
  | .blocking => 1
  | .critical => 2
  | .major => 3
  | .moderate => 4
  | .minor => 5

/-- `severity_matches`. -/
def severityMatches (values : UpTo 6 PressureSeverity) (severity : PressureSeverity) : Bool :=
  if values.val.length = 0 then true
  else values.val.foldl
    (fun found value => found || pressureSeverityCode value == pressureSeverityCode severity) false

/-- `profile_matches`. -/
def profileMatches (row : PressureQueryInput) (wanted : Identity) : Bool :=
  if row.languageProfile.val.length = wanted.val.length ∧ bytesEqual row.languageProfile wanted then
    true
  else row.observationLanguageProfiles.val.foldl
    (fun found profile => found || bytesEqual profile wanted) false

/-- `pressure_matches`. -/
def pressureMatches (row : PressureQueryInput) (filter : PressureQueryFilter) : Bool :=
  let status := pressureLifecycleStatus row.toPressureQueryRow
  let statusOk := !filter.statusEnabled ||
    pressureStatusCode status == pressureStatusCode filter.status
  let targetOk := !filter.targetEnabled ||
    pressureTargetCode row.target == pressureTargetCode filter.target
  let domainOk := !filter.domainEnabled || bytesEqual row.domainIdentity filter.domainIdentity
  let severityOk := severityMatches filter.severities row.severity
  let repositoryOk := !filter.repositoryEnabled ||
    containsRepository row.affectedRepositories filter.repositoryIdentity ||
    containsRepository row.reporters filter.repositoryIdentity
  let unresolvedOk := !filter.unresolved || statusUnresolved status
  let multiRepositoryOk := !filter.multiRepository ||
    decide (row.affectedRepositories.val.length ≥ 2)
  let awaitingVerificationOk := !filter.awaitingVerification || pressureStatusCode status == 4
  let workaroundOk := !filter.workaroundActive || row.workaroundActive
  let profileOk := !filter.languageProfileEnabled || profileMatches row filter.languageProfile
  let rustOk := !filter.rustFallback || row.fallbackRust
  let pythonOk := !filter.pythonFallback || row.fallbackPython
  let revalidationRequired := statusUnresolved status && !row.currentValidation
  let revalidationOk := !filter.needsRevalidation || revalidationRequired
  statusOk && targetOk && domainOk && severityOk && repositoryOk && unresolvedOk &&
    multiRepositoryOk && awaitingVerificationOk && workaroundOk && profileOk && rustOk &&
    pythonOk && revalidationOk

/-- `query_item`. -/
def queryItem (row : PressureQueryInput) : PressureQueryItem :=
  let lifecycle := pressureLifecycleProjection row.toPressureQueryRow
  let status := if lifecycle.conflicted then .conflicted else lifecycle.status
  { pressureIdentity := row.pressureIdentity
    target := row.target
    domainIdentity := row.domainIdentity
    severity := row.severity
    status
    lifecycleErrorCode := lifecycle.failureCode
    affectedRepositories := row.affectedRepositories
    reporters := row.reporters
    verificationSummary :=
      ⟨row.verificationAffected, row.verificationPass, row.verificationFail,
        row.verificationUnknown⟩
    verificationState := pressureVerificationState row.verificationAffected row.verificationPass
      row.verificationFail row.verificationUnknown row.workaroundsRemoved
    reconciliation := row.reconciliation
    unresolved := statusUnresolved status
    fallbackRust := row.fallbackRust
    fallbackPython := row.fallbackPython
    currentValidation := row.currentValidation
    revalidationRequired := statusUnresolved status && !row.currentValidation
    valid := row.valid && !lifecycle.conflicted }

/-- `pressure_view_matches`. -/
def pressureViewMatches (row : PressureQueryInput) (selector : PressureViewSelector) : Bool :=
  let item := queryItem row
  match selector with
  | .unresolvedLanguage => pressureTargetCode item.target == 0 && item.unresolved
  | .blocking => decide (pressureSeverityCode item.severity ≤ 2)
  | .awaitingVerification => pressureStatusCode item.status == 4
  | .recentlyResolved => pressureStatusCode item.status == 6
  | .multiRepository => decide (item.affectedRepositories.val.length ≥ 2)
  | .rustFallback => item.fallbackRust
  | .pythonFallback => item.fallbackPython
  | .needsRevalidation => item.revalidationRequired

/-! ## Views as filters -/

/-- The filter that selects every row. -/
def openFilter : PressureQueryFilter where
  statusEnabled := false
  status := .discovered
  targetEnabled := false
  target := .language
  domainEnabled := false
  domainIdentity := Identity.empty
  repositoryEnabled := false
  repositoryIdentity := Identity.empty
  severities := ⟨[], by decide⟩
  unresolved := false
  multiRepository := false
  awaitingVerification := false
  workaroundActive := false
  languageProfileEnabled := false
  languageProfile := Identity.empty
  rustFallback := false
  pythonFallback := false
  needsRevalidation := false

/-- The filter that selects what a view selects. -/
def PressureViewSelector.filter : PressureViewSelector → PressureQueryFilter
  | .unresolvedLanguage =>
      { openFilter with targetEnabled := true, target := .language, unresolved := true }
  | .blocking => { openFilter with severities := ⟨[.blocker, .blocking, .critical], by decide⟩ }
  | .awaitingVerification => { openFilter with awaitingVerification := true }
  | .recentlyResolved => { openFilter with statusEnabled := true, status := .resolved }
  | .multiRepository => { openFilter with multiRepository := true }
  | .rustFallback => { openFilter with rustFallback := true }
  | .pythonFallback => { openFilter with pythonFallback := true }
  | .needsRevalidation => { openFilter with needsRevalidation := true }

theorem status_queryItem (row : PressureQueryInput) :
    (queryItem row).status = pressureLifecycleStatus row.toPressureQueryRow := rfl

/-- Every view is a filter. -/
theorem pressureViewMatches_eq (row : PressureQueryInput) (selector : PressureViewSelector) :
    pressureViewMatches row selector = pressureMatches row selector.filter := by
  cases selector with
  | blocking =>
      cases hseverity : row.severity <;>
        simp [pressureViewMatches, pressureMatches, PressureViewSelector.filter, openFilter,
          queryItem, severityMatches, hseverity, pressureSeverityCode]
  | awaitingVerification | recentlyResolved =>
      simp [pressureViewMatches, pressureMatches, PressureViewSelector.filter, openFilter,
        severityMatches, status_queryItem, pressureStatusCode]
  | unresolvedLanguage | multiRepository | rustFallback | pythonFallback | needsRevalidation =>
      -- what is left reads one field of the item, which is the row's
      simp [pressureViewMatches, pressureMatches, PressureViewSelector.filter, openFilter,
        severityMatches, pressureTargetCode]
      rfl

/-! ## The builder -/

/-- `empty_query_item`. -/
def emptyQueryItem : PressureQueryItem where
  pressureIdentity := ⟨[], by decide⟩
  target := .language
  domainIdentity := Identity.empty
  severity := .minor
  status := .discovered
  lifecycleErrorCode := 0
  affectedRepositories := ⟨[], by decide⟩
  reporters := ⟨[], by decide⟩
  verificationSummary := ⟨0, 0, 0, 0⟩
  verificationState := .unknown
  reconciliation := .unreconciled
  unresolved := false
  fallbackRust := false
  fallbackPython := false
  currentValidation := false
  revalidationRequired := false
  valid := false

/-- `empty_query_builder`. -/
def emptyQueryBuilder : PressureQueryBuilder := ⟨.replicate 256 emptyQueryItem, 0⟩

/-- `push_query_item`; the increment wraps. -/
def pushQueryItem (builder : PressureQueryBuilder) (item : PressureQueryItem) (included : Bool) :
    PressureQueryBuilder :=
  if h : included = false ∨ builder.length ≥ 256 then builder
  else
    have slot : builder.length.toNat < 256 :=
      UInt64.lt_iff_toNat_lt.mp (UInt64.not_le.mp (not_or.mp h).2)
    ⟨builder.values.set builder.length.toNat item slot, builder.length + 1⟩

/-- `finish_query`; none where the slice is out of the array's range. -/
def finishQuery (builder : PressureQueryBuilder) : Option PressureQueryResult :=
  if builder.length ≤ 256 then
    some ⟨builder.values.toList.take builder.length.toNat,
      Nat.le_trans (List.length_take_le' _ _) (Nat.le_of_eq Vector.length_toList)⟩
  else none

/-- `query_pressure_rows`. -/
def queryPressureRows (request : PressureQueryRequest) : Option PressureQueryResult :=
  finishQuery <| request.rows.val.foldl
    (fun builder row => pushQueryItem builder (queryItem row) (pressureMatches row request.filter))
    emptyQueryBuilder

/-- `query_pressure_view`. -/
def queryPressureView (request : PressureViewRequest) : Option PressureQueryResult :=
  finishQuery <| request.rows.val.foldl
    (fun builder row =>
      pushQueryItem builder (queryItem row) (pressureViewMatches row request.selector))
    emptyQueryBuilder

/-! ## What a builder holds -/

/-- The builder's first slots hold the items. -/
structure PressureQueryBuilder.Holds (builder : PressureQueryBuilder)
    (items : List PressureQueryItem) : Prop where
  length : builder.length.toNat = items.length
  values : builder.values.toList.take items.length = items

theorem holds_empty : emptyQueryBuilder.Holds [] := ⟨rfl, rfl⟩

theorem pushQueryItem_of_excluded (builder : PressureQueryBuilder) (item : PressureQueryItem) :
    pushQueryItem builder item false = builder := dif_pos (.inl rfl)

/-- With a free slot an included item is held behind the others. -/
theorem PressureQueryBuilder.Holds.push {builder : PressureQueryBuilder}
    {items : List PressureQueryItem} (h : builder.Holds items) (item : PressureQueryItem)
    (hfree : items.length < 256) : (pushQueryItem builder item true).Holds (items ++ [item]) := by
  have slot : builder.length.toNat < 256 := by
    rw [h.length]
    exact hfree
  have free : ¬ (true = false ∨ builder.length ≥ 256) := by
    rintro (hfalse | hfull)
    · cases hfalse
    · exact absurd (UInt64.le_iff_toNat_le.mp hfull) (Nat.not_le.mpr slot)
  rw [pushQueryItem, dif_neg free]
  constructor
  · show (builder.length + 1).toNat = _
    have one : (1 : UInt64).toNat = 1 := rfl
    rw [UInt64.toNat_add, h.length, one, List.length_append, List.length_singleton]
    exact Nat.mod_eq_of_lt (by omega)
  · show (builder.values.set _ _ slot).toList.take _ = _
    have slots : builder.values.toList.length = 256 := Vector.length_toList
    rw [Vector.toList_set, List.length_append, List.length_singleton,
      List.take_succ_eq_append_getElem (by rw [List.length_set, slots]; exact hfree)]
    simp only [h.length, List.getElem_set_self, List.take_set_of_le (Nat.le_refl _),
      h.values]

/-- Over rows that leave room, the loop holds the items of the selected rows in their order. -/
theorem holds_foldl {α : Type} (item : α → PressureQueryItem) (selected : α → Bool)
    (rows : List α) {builder : PressureQueryBuilder} {items : List PressureQueryItem}
    (h : builder.Holds items) (hroom : items.length + rows.length ≤ 256) :
    (rows.foldl (fun builder row => pushQueryItem builder (item row) (selected row))
      builder).Holds (items ++ (rows.filter selected).map item) := by
  induction rows generalizing builder items with
  | nil => simpa using h
  | cons row rows ih =>
      rw [List.length_cons] at hroom
      rw [List.foldl_cons]
      cases hselected : selected row with
      | false =>
          rw [pushQueryItem_of_excluded, List.filter_cons_of_neg (by simp [hselected])]
          exact ih h (by omega)
      | true =>
          rw [List.filter_cons_of_pos hselected, List.map_cons, ← List.singleton_append,
            ← List.append_assoc]
          apply ih (h.push (item row) (by omega))
          rw [List.length_append, List.length_singleton]
          omega

theorem PressureQueryBuilder.Holds.finish {builder : PressureQueryBuilder}
    {items : List PressureQueryItem} (h : builder.Holds items) (hroom : items.length ≤ 256) :
    finishQuery builder = some ⟨⟨items, hroom⟩⟩ := by
  have inRange : builder.length ≤ 256 := by
    rw [UInt64.le_iff_toNat_le, h.length]
    exact hroom
  rw [finishQuery, if_pos inRange]
  simp only [h.length, h.values]

/-! ## Nothing is lost -/

theorem length_selected_le {α β : Type} {bound : Nat} (rows : UpTo bound α) (item : α → β)
    (selected : α → Bool) : ((rows.val.filter selected).map item).length ≤ bound := by
  rw [List.length_map]
  exact Nat.le_trans (List.length_filter_le _ _) rows.property

/-- The loop and the slice together are the items of the selected rows. -/
theorem finishQuery_foldl (rows : UpTo 256 PressureQueryInput)
    (selected : PressureQueryInput → Bool) :
    finishQuery (rows.val.foldl
      (fun builder row => pushQueryItem builder (queryItem row) (selected row))
      emptyQueryBuilder) =
      some ⟨⟨(rows.val.filter selected).map queryItem, length_selected_le rows _ _⟩⟩ := by
  have held := holds_foldl queryItem selected rows.val holds_empty (by simpa using rows.property)
  rw [List.nil_append] at held
  exact held.finish (length_selected_le rows _ _)

/-- Both queries answer with the items of the selected rows, in the order of the rows. -/
theorem pressure_queries_exact (rows : UpTo 256 PressureQueryInput) (filter : PressureQueryFilter)
    (selector : PressureViewSelector) :
    (∃ answer, queryPressureRows ⟨rows, filter⟩ = some answer ∧
      answer.rows.val = (rows.val.filter (pressureMatches · filter)).map queryItem) ∧
    ∃ answer, queryPressureView ⟨rows, selector⟩ = some answer ∧
      answer.rows.val = (rows.val.filter (pressureViewMatches · selector)).map queryItem :=
  ⟨⟨_, finishQuery_foldl rows (pressureMatches · filter), rfl⟩,
    _, finishQuery_foldl rows (pressureViewMatches · selector), rfl⟩

end MncsCommons.Pressure
