/-
# Classified proposals

What the classification of a proposal has established when it submits a candidate.
A candidate is accepted when there is no reason against it and it duplicates no
unfinished work; otherwise it has to be reconciled.
-/

import MncsCommons.Protocol.Proposals
import MncsCommons.Protocol.RequestRecords

namespace MncsCommons.Protocol

open MncsCommons.Data

/-- The current revision of the work is one of its revisions. -/
theorem mem_of_projectWorkHistory {records : List Fields} {workId : String}
    {status : WorkProjection} (h : projectWorkHistory records workId = .ok status) :
    status.current ∈ records ∧ isRevisionOf workId status.current = true := by
  obtain ⟨_, hfound, h⟩ := Py.bind_eq_ok_iff.mp h
  obtain ⟨keyed, hkeyed, h⟩ := Py.bind_eq_ok_iff.mp h
  obtain ⟨history, -, h⟩ := Py.bind_eq_ok_iff.mp h
  obtain ⟨coordination, -, h⟩ := Py.bind_eq_ok_iff.mp h
  obtain rfl := Except.ok.inj h
  dsimp only
  set ordered := (sortedBy Prod.fst keyed).map Prod.snd with hordered
  have hsubset : ∀ item ∈ ordered, item ∈ records.filter (isRevisionOf workId) := by
    intro item hitem
    obtain ⟨pair, hpair, rfl⟩ := List.mem_map.mp hitem
    obtain ⟨record, hrecord, hread⟩ := mem_of_mapM hkeyed (mem_sortedBy.mp hpair)
    obtain ⟨revision, -, hread⟩ := Py.bind_eq_ok_iff.mp hread
    rwa [← Except.ok.inj hread]
  have hne : ordered ≠ [] := by
    intro hnil
    rw [raiseIf_eq_ok_iff, List.isEmpty_eq_false_iff] at hfound
    obtain ⟨first, hfirst⟩ := List.exists_mem_of_ne_nil _ hfound
    obtain ⟨pair, hpair, -⟩ := mem_results_of_mapM hkeyed hfirst
    have hmem : pair.2 ∈ ordered := List.mem_map_of_mem (mem_sortedBy.mpr hpair)
    rw [hnil] at hmem
    cases hmem
  have hlast := hsubset _ (List.getLast_mem hne)
  rw [List.getLastD_eq_getLast?, List.getLast?_eq_some_getLast hne, Option.getD_some]
  exact List.mem_filter.mp hlast

/-- The unfinished work among all work. -/
def openWork (work : List WorkProjection) : List WorkProjection :=
  work.filter fun item => openCoordinationStates.contains item.coordinationState

/-- The classification of a proposal, up to its outcome. -/
structure Classified (lower : String → String) (work : List WorkProjection) (proposal : Fields) where
  laneKnown : Bool
  candidate : Fields
  repositoryReasons : List String
  repositories : List String
  found : ProposalMatch
  lane_eq : inSet (Fields.get (proposalCandidate proposal).1 "lane") lanes = .ok laneKnown
  candidate_eq : withCanonicalRepository (proposalCandidate proposal).1 =
    .ok (candidate, repositoryReasons)
  repositories_eq : repositorySet candidate = .ok repositories
  found_eq : matchProposal lower candidate repositories (openWork work) = .ok found

namespace Classified

variable {lower : String → String} {work : List WorkProjection} {proposal : Fields}

/-- Why the proposal cannot become available. -/
def reasons (classified : Classified lower work proposal) : List String :=
  let reasons := proposalReasons classified.candidate (work.map WorkProjection.workId)
    classified.repositoryReasons (proposalCandidate proposal).2 classified.laneKnown
  if classified.found.ambiguous = [] then reasons
  else reasons ++ ["capability overlap is plausible but not proven"]

end Classified

variable {lower : String → String} {work : List WorkProjection} {proposal submitted : Fields}

/-- A proposal that is submitted is accepted or has to be reconciled. -/
theorem classified_of_submit (h : classifyProposal lower work proposal = .ok (.submit submitted)) :
    ∃ classified : Classified lower work proposal,
      (classified.reasons = [] ∧ classified.found.duplicate = none ∧
        submitted = acceptedCandidate classified.candidate) ∨
      (classified.reasons ≠ [] ∧ submitted = reconciliationCandidate classified.candidate
        classified.reasons classified.found.ambiguous) := by
  obtain ⟨laneKnown, hlane, h⟩ := Py.bind_eq_ok_iff.mp h
  obtain ⟨⟨candidate, repositoryReasons⟩, hcandidate, h⟩ := Py.bind_eq_ok_iff.mp h
  obtain ⟨repositories, hrepositories, h⟩ := Py.bind_eq_ok_iff.mp h
  obtain ⟨found, hfound, h⟩ := Py.bind_eq_ok_iff.mp h
  let classified : Classified lower work proposal := ⟨laneKnown, candidate, repositoryReasons,
    repositories, found, hlane, hcandidate, hrepositories, hfound⟩
  refine ⟨classified, ?_⟩
  dsimp only at h
  cases hduplicate : found.duplicate with
  | some duplicate =>
      rw [hduplicate] at h
      obtain ⟨-, h⟩ | ⟨hreasons, h⟩ := ite_eq_iff.mp h
      · obtain ⟨_, -, h⟩ := Py.bind_eq_ok_iff.mp h
        cases h
      · exact .inr ⟨hreasons, (ProposalOutcome.submit.inj (Except.ok.inj h)).symm⟩
  | none =>
      rw [hduplicate] at h
      obtain ⟨hreasons, h⟩ | ⟨hreasons, h⟩ := ite_eq_iff.mp h
      · exact .inl ⟨hreasons, rfl, (ProposalOutcome.submit.inj (Except.ok.inj h)).symm⟩
      · exact .inr ⟨hreasons, (ProposalOutcome.submit.inj (Except.ok.inj h)).symm⟩

theorem status_acceptedCandidate (candidate : Fields) :
    Fields.get (acceptedCandidate candidate) "proposalStatus" = .str "ACCEPTED" := by
  simp [acceptedCandidate, Fields.get, Fields.get?_set]

theorem status_reconciliationCandidate (candidate : Fields) (reasons ambiguous : List String) :
    Fields.get (reconciliationCandidate candidate reasons ambiguous) "proposalStatus" =
      .str "NEEDS_RECONCILIATION" := by
  simp [reconciliationCandidate, Fields.get, Fields.get?_set]

/-- The status of what a proposal is submitted as. -/
theorem status_of_submit (h : classifyProposal lower work proposal = .ok (.submit submitted)) :
    Fields.get submitted "proposalStatus" = .str "ACCEPTED" ∨
      Fields.get submitted "proposalStatus" = .str "NEEDS_RECONCILIATION" := by
  obtain ⟨classified, ⟨-, -, rfl⟩ | ⟨-, rfl⟩⟩ := classified_of_submit h
  · exact .inl (status_acceptedCandidate _)
  · exact .inr (status_reconciliationCandidate _ _ _)

end MncsCommons.Protocol
