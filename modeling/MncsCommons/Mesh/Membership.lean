/-
# Membership in an interest filter

The host projects a record and a filter to flags, and the combination of the flags is
written twice: as the kernel's `candidate_matches_full`, which takes its arguments by
position, and as the mirror that `matches` uses.  Both decide alike for every record and
filter, and what they decide is that the filter names the record, or that the record
satisfies every dimension that the filter restricts (`kernel_matches_iff`).
-/

import MncsCommons.Mesh.Interest
import Mathlib.Tactic.IntervalCases

namespace MncsCommons.Mesh

open MncsCommons.Data MncsCommons.Protocol

/-! ## Projections -/

/-- The names of the kinds that have a code, in the order of the codes. -/
def kindOrder : List String :=
  ["Finding", "Claim", "Replication", "Observation", "Question", "WorkRequest"]

def kindDiscriminants : List (String × Int) :=
  [("Finding", 0), ("Claim", 1), ("Replication", 2), ("Observation", 3), ("Question", 4),
    ("WorkRequest", 5)]

def outcomeOrder : List String := ["PASS", "FAIL", "UNKNOWN"]

def promotionStates : List String := ["reproduced", "verified", "accepted"]

def replicationRelations : List String := ["replicates", "failed_to_replicate", "verifies"]

/-- The value, if it is a text that is not empty. -/
def filledText : Json → List String
  | .str text => if text ≠ "" then [text] else []
  | _ => []

/-- `_record_projects`. -/
def recordProjects (record : Fields) : List String :=
  match Fields.get record "scope" with
  | .obj scope => match Fields.get scope "context" with
      | .obj context =>
          filledText (Fields.get context "project") ++ filledText (Fields.get context "repository")
      | _ => []
  | _ => []

/-- The outcome of the details. -/
def detailsOutcome (record : Fields) : List String :=
  match Fields.get record "details" with
  | .obj details => filledText (Fields.get details "outcome")
  | _ => []

/-- The status of an item of the evidence. -/
def evidenceStatus : Json → List String
  | .obj entry => filledText (Fields.get entry "status")
  | _ => []

/-- `_record_outcomes`. -/
def recordOutcomes (record : Fields) : List String :=
  detailsOutcome record ++ ((Fields.get record "evidence").arr?.getD []).flatMap evidenceStatus

/-- `_record_relationship_types`. -/
def recordRelationshipTypes (record : Fields) : List String :=
  ((Fields.get record "relationships").arr?.getD []).filterMap fun item =>
    item.obj?.bind fun relation => (Fields.get relation "type").str?

/-- `_record_labels`. -/
def recordLabels (record : Fields) : List String :=
  match Fields.get record "metadata" with
  | .obj metadata => ((Fields.get metadata "labels").arr?.getD []).filterMap Json.str?
  | _ => []

/-- `_record_digest`. -/
def recordDigest (record : Fields) : Option String :=
  (filledText (Fields.get record "contentDigest")).head?

/-- `_is_open_work`. -/
def isOpenWork (record : Fields) : Bool :=
  if Fields.get record "kind" ≠ .str "WorkRequest" then false
  else match Fields.get record "details" with
    | .obj details => (Fields.get? details "requestState").getD (.str "open") = .str "open"
    | _ => false

/-- Whether two sets of names meet. -/
def meets (found wanted : List String) : Bool := found.any wanted.contains

/-- `_is_promotion_relevant`. -/
def isPromotionRelevant (record : Fields) (lifecycleState : Option String) : Bool :=
  lifecycleState.any promotionStates.contains ||
    meets (recordRelationshipTypes record) replicationRelations

/-- `_projected_outcome_discriminant`. -/
def projectedOutcomeDiscriminant (record : Fields) : Nat :=
  let outcomes := recordOutcomes record
  if outcomes.contains "PASS" then 0
  else if outcomes.contains "FAIL" then 1
  else if outcomes.contains "UNKNOWN" then 2
  else 9

/-- `_record_producer_id`. -/
def recordProducerId (record : Fields) : Option String :=
  match Fields.get record "provenance" with
  | .obj provenance => match Fields.get provenance "producer" with
      | .obj producer => (Fields.get producer "id").str?
      | _ => none
  | _ => none

/-- `_record_contract_names`. -/
def recordContractNames (record : Fields) : List String :=
  ((Fields.get record "affectedContracts").arr?.getD []).filterMap Json.str?

/-- The arguments of the law, in their order. -/
structure FullArgs where
  kindCode : Int
  wantKinds : List Bool
  hasKinds : Bool
  hasProjects : Bool
  projectsOk : Bool
  hasContracts : Bool
  contractsOk : Bool
  hasProducers : Bool
  producersOk : Bool
  hasOutcomes : Bool
  outcomesOk : Bool
  hasStates : Bool
  statesOk : Bool
  hasReltypes : Bool
  reltypesOk : Bool
  hasLabels : Bool
  labelsOk : Bool
  recordIdHit : Bool
  openWorkOnly : Bool
  isOpenWork : Bool
  promotionRelevant : Bool
  isPromoRelevant : Bool

/-- `project_full_args`. -/
def projectFullArgs (record : Fields) (interest : InterestFilter) (lifecycleState : Option String) :
    FullArgs where
  kindCode := (Fields.get? kindDiscriminants (Fields.get record "kind").pyStr).getD 6
  wantKinds := kindOrder.map fun name => interest.kinds.isEmpty || interest.kinds.contains name
  hasKinds := !interest.kinds.isEmpty
  hasProjects := !interest.projects.isEmpty
  projectsOk := meets (recordProjects record) interest.projects
  hasContracts := !interest.contracts.isEmpty
  contractsOk := meets (recordContractNames record) interest.contracts
  hasProducers := !interest.producers.isEmpty
  producersOk := (recordProducerId record).any interest.producers.contains
  hasOutcomes := !interest.outcomes.isEmpty
  outcomesOk := projectedOutcomeDiscriminant record ≤ 2 &&
    (outcomeOrder[projectedOutcomeDiscriminant record]?).any interest.outcomes.contains
  hasStates := !interest.lifecycleStates.isEmpty
  statesOk := lifecycleState.any interest.lifecycleStates.contains
  hasReltypes := !interest.relationshipTypes.isEmpty
  reltypesOk := meets (recordRelationshipTypes record) interest.relationshipTypes
  hasLabels := !interest.labels.isEmpty
  labelsOk := meets (recordLabels record) interest.labels
  recordIdHit := (recordDigest record).any interest.recordIds.contains
  openWorkOnly := interest.openWorkOnly
  isOpenWork := isOpenWork record
  promotionRelevant := interest.promotionRelevant
  isPromoRelevant := isPromotionRelevant record lifecycleState

/-! ## The mirror -/

/-- `mirror_kind_wanted`. -/
def mirrorKindWanted (code : Int) (want : List Bool) : Bool :=
  (0 ≤ code && code < 6) && (want[code.toNat]?).getD false

/-- `mirror_dim`. -/
def mirrorDim (hasDimension satisfied : Bool) : Bool := !hasDimension || satisfied

/-- `mirror_matches_full`. -/
def mirrorMatchesFull (args : FullArgs) : Bool :=
  if args.recordIdHit then true
  else mirrorDim args.hasKinds (mirrorKindWanted args.kindCode args.wantKinds) &&
    mirrorDim args.hasProjects args.projectsOk &&
    mirrorDim args.hasContracts args.contractsOk &&
    mirrorDim args.hasProducers args.producersOk &&
    mirrorDim args.hasOutcomes args.outcomesOk &&
    mirrorDim args.hasStates args.statesOk &&
    mirrorDim args.hasReltypes args.reltypesOk &&
    mirrorDim args.hasLabels args.labelsOk &&
    mirrorDim args.openWorkOnly args.isOpenWork &&
    mirrorDim args.promotionRelevant args.isPromoRelevant

/-- `matches`. -/
def recordMatches (record : Fields) (interest : InterestFilter) (lifecycleState : Option String) :
    Bool :=
  mirrorMatchesFull (projectFullArgs record interest lifecycleState)

/-! ## The kernel -/

/-- `kind_wanted`. -/
def kindWanted (kind : Int) (wantFinding wantClaim wantReplication wantObservation wantQuestion
    wantWork : Bool) : Bool :=
  if kind = 0 then wantFinding
  else if kind = 1 then wantClaim
  else if kind = 2 then wantReplication
  else if kind = 3 then wantObservation
  else if kind = 4 then wantQuestion
  else if kind = 5 then wantWork
  else false

/-- `dim_pass`. -/
def dimPass (has ok : Bool) : Bool := if has then ok else true

/-- `gate_pass`. -/
def gatePass (gate holds : Bool) : Bool := if gate then holds else true

/-- `candidate_matches_full`. -/
def candidateMatchesFull (kindCode : Int) (wantFinding wantClaim wantReplication wantObservation
    wantQuestion wantWork hasKinds hasProjects projectsOk hasContracts contractsOk hasProducers
    producersOk hasOutcomes outcomesOk hasStates statesOk hasReltypes reltypesOk hasLabels labelsOk
    recordIdHit openWorkOnly isOpenWork promotionRelevant isPromoRelevant : Bool) : Bool :=
  if recordIdHit then true
  else
    let kindOk := kindWanted kindCode wantFinding wantClaim wantReplication wantObservation
      wantQuestion wantWork
    dimPass hasKinds kindOk && dimPass hasProjects projectsOk && dimPass hasContracts contractsOk &&
      dimPass hasProducers producersOk && dimPass hasOutcomes outcomesOk &&
      dimPass hasStates statesOk && dimPass hasReltypes reltypesOk && dimPass hasLabels labelsOk &&
      gatePass openWorkOnly isOpenWork && gatePass promotionRelevant isPromoRelevant

/-- An argument of a kernel call. -/
inductive Argument where
  | boolean (value : Bool)
  | integer (value : Int)
  deriving DecidableEq

/-- The next argument, of the type that the kernel has for it. -/
def nextInteger : StateT (List Argument) Option Int
  | .integer value :: rest => some (value, rest)
  | _ => none

def nextBoolean : StateT (List Argument) Option Bool
  | .boolean value :: rest => some (value, rest)
  | _ => none

/-- A call of the kernel with arguments by position. -/
def callKernel : StateT (List Argument) Option Bool := do
  let kindCode ← nextInteger
  return candidateMatchesFull kindCode (← nextBoolean) (← nextBoolean) (← nextBoolean)
    (← nextBoolean) (← nextBoolean) (← nextBoolean) (← nextBoolean) (← nextBoolean)
    (← nextBoolean) (← nextBoolean) (← nextBoolean) (← nextBoolean) (← nextBoolean)
    (← nextBoolean) (← nextBoolean) (← nextBoolean) (← nextBoolean) (← nextBoolean)
    (← nextBoolean) (← nextBoolean) (← nextBoolean) (← nextBoolean) (← nextBoolean)
    (← nextBoolean) (← nextBoolean) (← nextBoolean)

/-- The projected arguments, the tuple of the kinds flattened. -/
def FullArgs.flatten (args : FullArgs) : List Argument :=
  .integer args.kindCode :: args.wantKinds.map .boolean ++
    [args.hasKinds, args.hasProjects, args.projectsOk, args.hasContracts, args.contractsOk,
      args.hasProducers, args.producersOk, args.hasOutcomes, args.outcomesOk, args.hasStates,
      args.statesOk, args.hasReltypes, args.reltypesOk, args.hasLabels, args.labelsOk,
      args.recordIdHit, args.openWorkOnly, args.isOpenWork, args.promotionRelevant,
      args.isPromoRelevant].map .boolean

/-- One decision of a batch. -/
structure MembershipDecision where
  record : Fields
  interest : InterestFilter
  lifecycleState : Option String

/-- `decide_membership`, with a toolchain that runs the kernel on each call. -/
def decideMembership (decisions : List MembershipDecision) : Option (List Bool) :=
  decisions.mapM fun decision =>
    (callKernel (projectFullArgs decision.record decision.interest
      decision.lifecycleState).flatten).map Prod.fst

/-! ## What is decided -/

/-- The outcome that a record asserts most strongly. -/
def strongestOutcome (record : Fields) : Option String :=
  outcomeOrder.find? (recordOutcomes record).contains

/-- The record satisfies every dimension that the filter restricts. -/
structure Satisfies (record : Fields) (interest : InterestFilter) (lifecycleState : Option String) :
    Prop where
  kinds : interest.kinds = [] ∨ ∃ kind ∈ interest.kinds, kind ∈ kindOrder ∧
    (Fields.get record "kind").pyStr = kind
  projects : interest.projects = [] ∨ ∃ name ∈ interest.projects, name ∈ recordProjects record
  contracts : interest.contracts = [] ∨
    ∃ name ∈ interest.contracts, name ∈ recordContractNames record
  producers : interest.producers = [] ∨
    ∃ name ∈ interest.producers, recordProducerId record = some name
  outcomes : interest.outcomes = [] ∨
    ∃ name ∈ interest.outcomes, strongestOutcome record = some name
  states : interest.lifecycleStates = [] ∨
    ∃ name ∈ interest.lifecycleStates, lifecycleState = some name
  relationshipTypes : interest.relationshipTypes = [] ∨
    ∃ name ∈ interest.relationshipTypes, name ∈ recordRelationshipTypes record
  labels : interest.labels = [] ∨ ∃ name ∈ interest.labels, name ∈ recordLabels record
  openWork : interest.openWorkOnly = true → isOpenWork record = true
  promotion : interest.promotionRelevant = true → isPromotionRelevant record lifecycleState = true

theorem mirrorKindWanted_eq (code : Int)
    (finding claim replication observation question work : Bool) :
    mirrorKindWanted code [finding, claim, replication, observation, question, work] =
      kindWanted code finding claim replication observation question work := by
  rw [mirrorKindWanted, kindWanted]
  by_cases hcode : 0 ≤ code ∧ code < 6
  · obtain ⟨hlow, hhigh⟩ := hcode
    interval_cases code <;> rfl
  · have hrange : (decide (0 ≤ code) && decide (code < 6)) = false := by
      simpa using fun hlow => Int.not_lt.mp fun hhigh => hcode ⟨hlow, hhigh⟩
    rw [hrange, Bool.false_and, if_neg (by omega), if_neg (by omega), if_neg (by omega),
      if_neg (by omega), if_neg (by omega), if_neg (by omega)]

theorem mirrorDim_eq (hasDimension satisfied : Bool) :
    mirrorDim hasDimension satisfied = dimPass hasDimension satisfied := by
  cases hasDimension <;> rfl

theorem gatePass_eq (gate holds : Bool) : gatePass gate holds = dimPass gate holds := rfl

/-- The kernel on the flattened arguments decides as the mirror on the arguments. -/
theorem callKernel_flatten {args : FullArgs} (hlength : args.wantKinds.length = 6) :
    callKernel args.flatten = some (mirrorMatchesFull args, []) := by
  obtain ⟨kindCode, wantKinds⟩ := args
  obtain _ | ⟨finding, _ | ⟨claim, _ | ⟨replication, _ | ⟨observation, _ | ⟨question,
    _ | ⟨work, _ | ⟨_, _⟩⟩⟩⟩⟩⟩⟩ := wantKinds
  all_goals try cases hlength
  simp only [mirrorMatchesFull, mirrorKindWanted_eq, mirrorDim_eq]
  rfl

theorem callKernel_project (record : Fields) (interest : InterestFilter)
    (lifecycleState : Option String) :
    callKernel (projectFullArgs record interest lifecycleState).flatten =
      some (recordMatches record interest lifecycleState, []) :=
  callKernel_flatten rfl

theorem meets_iff {found wanted : List String} :
    meets found wanted = true ↔ ∃ name ∈ wanted, name ∈ found := by
  simp [meets, and_comm]

theorem any_contains_iff {found : Option String} {wanted : List String} :
    found.any wanted.contains = true ↔ ∃ name ∈ wanted, found = some name := by
  cases found <;> simp

theorem mirrorDim_iff {names : List String} {satisfied : Bool} :
    mirrorDim (!names.isEmpty) satisfied = true ↔ names = [] ∨ satisfied = true := by
  cases names <;> simp [mirrorDim]

theorem mirrorDim_gate_iff {gate holds : Bool} :
    mirrorDim gate holds = true ↔ (gate = true → holds = true) := by
  cases gate <;> simp [mirrorDim]

/-- A kind without a code is wanted by no filter that names kinds. -/
theorem kindDiscriminants_of_not_mem {kind : String} (h : kind ∉ kindOrder) :
    Fields.get? kindDiscriminants kind = none :=
  Fields.get?_eq_none_iff.mpr h

theorem kinds_iff {kinds : List String} {kind : String} :
    mirrorDim (!kinds.isEmpty) (mirrorKindWanted ((Fields.get? kindDiscriminants kind).getD 6)
      (kindOrder.map fun name => kinds.isEmpty || kinds.contains name)) = true ↔
      kinds = [] ∨ ∃ name ∈ kinds, name ∈ kindOrder ∧ kind = name := by
  rw [mirrorDim_iff]
  refine or_congr_right' fun hkinds => ?_
  have hempty : kinds.isEmpty = false := by simpa using hkinds
  simp only [hempty, Bool.false_or]
  by_cases hkind : kind ∈ kindOrder
  · have hwanted : (∃ name ∈ kinds, name ∈ kindOrder ∧ kind = name) ↔ kind ∈ kinds :=
      ⟨fun ⟨_, hmem, _, heq⟩ => heq ▸ hmem, fun hmem => ⟨kind, hmem, hkind, rfl⟩⟩
    rw [hwanted, ← List.contains_iff_mem]
    simp only [kindOrder, List.mem_cons, List.not_mem_nil, or_false] at hkind
    obtain rfl | rfl | rfl | rfl | rfl | rfl := hkind <;> rfl
  · rw [kindDiscriminants_of_not_mem hkind]
    constructor
    · intro h
      cases h
    · rintro ⟨_, -, hmem, rfl⟩
      exact absurd hmem hkind

theorem outcomes_iff {record : Fields} {outcomes : List String} :
    (decide (projectedOutcomeDiscriminant record ≤ 2) &&
      (outcomeOrder[projectedOutcomeDiscriminant record]?).any outcomes.contains) = true ↔
      ∃ name ∈ outcomes, strongestOutcome record = some name := by
  rw [← any_contains_iff, strongestOutcome, projectedOutcomeDiscriminant]
  simp only [outcomeOrder, List.find?_cons]
  cases (recordOutcomes record).contains "PASS" <;>
    cases (recordOutcomes record).contains "FAIL" <;>
    cases (recordOutcomes record).contains "UNKNOWN" <;> simp

theorem mirrorMatchesFull_iff {args : FullArgs} :
    mirrorMatchesFull args = true ↔ args.recordIdHit = true ∨
      ((((((((mirrorDim args.hasKinds (mirrorKindWanted args.kindCode args.wantKinds) = true ∧
        mirrorDim args.hasProjects args.projectsOk = true) ∧
        mirrorDim args.hasContracts args.contractsOk = true) ∧
        mirrorDim args.hasProducers args.producersOk = true) ∧
        mirrorDim args.hasOutcomes args.outcomesOk = true) ∧
        mirrorDim args.hasStates args.statesOk = true) ∧
        mirrorDim args.hasReltypes args.reltypesOk = true) ∧
        mirrorDim args.hasLabels args.labelsOk = true) ∧
        mirrorDim args.openWorkOnly args.isOpenWork = true) ∧
        mirrorDim args.promotionRelevant args.isPromoRelevant = true := by
  rw [mirrorMatchesFull]
  cases args.recordIdHit <;> simp

theorem recordMatches_iff (record : Fields) (interest : InterestFilter)
    (lifecycleState : Option String) :
    recordMatches record interest lifecycleState = true ↔
      (∃ digest ∈ interest.recordIds, recordDigest record = some digest) ∨
        Satisfies record interest lifecycleState := by
  rw [recordMatches, mirrorMatchesFull_iff]
  simp only [projectFullArgs]
  rw [kinds_iff]
  simp only [mirrorDim_iff]
  simp only [mirrorDim_gate_iff, meets_iff, any_contains_iff, outcomes_iff]
  refine or_congr_right ⟨?_, fun h => ?_⟩
  · rintro ⟨⟨⟨⟨⟨⟨⟨⟨⟨hkinds, hprojects⟩, hcontracts⟩, hproducers⟩, houtcomes⟩, hstates⟩, htypes⟩,
      hlabels⟩, hopen⟩, hpromotion⟩
    exact ⟨hkinds, hprojects, hcontracts, hproducers, houtcomes, hstates, htypes, hlabels, hopen,
      hpromotion⟩
  · exact ⟨⟨⟨⟨⟨⟨⟨⟨⟨h.kinds, h.projects⟩, h.contracts⟩, h.producers⟩, h.outcomes⟩, h.states⟩,
      h.relationshipTypes⟩, h.labels⟩, h.openWork⟩, h.promotion⟩

theorem decideMembership_eq (decisions : List MembershipDecision) :
    decideMembership decisions = some (decisions.map fun decision =>
      recordMatches decision.record decision.interest decision.lifecycleState) := by
  rw [decideMembership]
  induction decisions with
  | nil => rfl
  | cons decision decisions ih =>
      rw [List.mapM_cons, ih, callKernel_project]
      rfl

/-- The kernel and the mirror decide every batch alike, and a record is wanted exactly when
the filter names it or it satisfies every dimension that the filter restricts. -/
theorem kernel_matches_iff (decisions : List MembershipDecision) :
    decideMembership decisions = some (decisions.map fun decision =>
      recordMatches decision.record decision.interest decision.lifecycleState) ∧
    ∀ decision ∈ decisions,
      recordMatches decision.record decision.interest decision.lifecycleState = true ↔
        (∃ digest ∈ decision.interest.recordIds, recordDigest decision.record = some digest) ∨
          Satisfies decision.record decision.interest decision.lifecycleState :=
  ⟨decideMembership_eq decisions, fun _ _ => recordMatches_iff _ _ _⟩

end MncsCommons.Mesh
