/-
# What a resolution rests on

A pressure that its history resolves has passed the check of the last
transition: every repository it affects, declared or observed, has a current
verification that passed and whose workaround is closed, and the references are
observations of the pressure.

The current verification of a repository is the one that the sorted verifications
assign last, so it is a latest one.  The counts that the native readiness rule
compares are not needed for this: the check looks at each repository itself.
-/

import MncsCommons.Pressure.Replay
import Mathlib.Data.List.Pairwise

namespace MncsCommons.Pressure

open MncsCommons.Data MncsCommons.Protocol LinkedHistory

/-! ## Current verifications -/

section Verification

variable {zone : Int → Py Int} {observations items : List Fields} {repository : String}
  {item : Fields}

/-- A verification names a repository by one of its spellings. -/
def Names (item : Fields) (repository : String) : Prop :=
  normalizeRepository (Fields.get item "repository") = .ok (some repository)

instance : Decidable (Names item repository) :=
  decEq (normalizeRepository (Fields.get item "repository")) (.ok (some repository))

/-- No verification of the repository is later than this one. -/
structure IsCurrent (zone : Int → Py Int) (observations : List Fields) (repository : String)
    (item : Fields) : Prop where
  mem : item ∈ observations
  verification : isVerification item = true
  names : Names item repository
  latest : ∀ other ∈ observations, isVerification other = true → Names other repository →
    ∃ place otherPlace, observationKey zone item = .ok place ∧
      observationKey zone other = .ok otherPlace ∧ otherPlace ≤ place

/-- The last item that names a repository is assigned to it. -/
theorem get?_assignByRepository {current assigned : List (String × Fields)}
    (h : assignByRepository current items = .ok assigned) (repository : String) :
    Fields.get? assigned repository =
      (items.filter fun item => Names item repository).getLast?.or
        (Fields.get? current repository) := by
  induction items generalizing current with
  | nil =>
      obtain rfl := Except.ok.inj h
      rfl
  | cons item items ih =>
      obtain ⟨named, hnamed, h⟩ := Py.bind_eq_ok_iff.mp h
      cases named with
      | none =>
          have hnot : ¬ Names item repository := by simp [Names, hnamed]
          rw [ih h, List.filter_cons_of_neg (by simpa using hnot)]
      | some name =>
          rw [ih h, Fields.get?_set]
          by_cases hname : name = repository
          · have hnames : Names item repository := by rw [Names, hnamed, hname]
            rw [if_pos hname, List.filter_cons_of_pos (by simpa using hnames), List.getLast?_cons]
            cases (items.filter fun item => Names item repository).getLast? <;> rfl
          · have hnot : ¬ Names item repository := by
              rw [Names, hnamed]
              simpa using hname
            rw [if_neg hname, List.filter_cons_of_neg (by simpa using hnot)]

/-- The ordered verifications are the verifications, and follow their places in
time. -/
theorem orderedVerifications_spec {ordered : List Fields}
    (h : orderedVerifications zone observations = .ok ordered) :
    (∀ item, item ∈ ordered ↔ item ∈ observations ∧ isVerification item = true) ∧
      (∀ item ∈ ordered, ∃ place, observationKey zone item = .ok place) ∧
      ordered.Pairwise fun first second => ∀ place other,
        observationKey zone first = .ok place → observationKey zone second = .ok other →
          place ≤ other := by
  obtain ⟨keyed, hkeyed, h⟩ := Py.bind_eq_ok_iff.mp h
  obtain rfl := Except.ok.inj h
  have hentry : ∀ entry, entry ∈ keyed ↔ entry.2 ∈ observations ∧
      isVerification entry.2 = true ∧ observationKey zone entry.2 = .ok entry.1 := by
    rintro ⟨place, item⟩
    rw [mem_collect hkeyed]
    constructor
    · rintro ⟨other, hother, hcompute⟩
      obtain ⟨key, hkey, hpair⟩ := Py.bind_eq_ok_iff.mp hcompute
      obtain ⟨rfl, rfl⟩ := Prod.mk.inj (Except.ok.inj hpair)
      obtain ⟨hmem, hverification⟩ := List.mem_filter.mp hother
      exact ⟨hmem, hverification, hkey⟩
    · rintro ⟨hmem, hverification, hkey⟩
      exact ⟨item, List.mem_filter.mpr ⟨hmem, hverification⟩,
        Py.bind_eq_ok_iff.mpr ⟨place, hkey, rfl⟩⟩
  have hplace : ∀ item, item ∈ observations → isVerification item = true →
      ∃ place, (place, item) ∈ keyed := by
    intro item hmem hverification
    obtain ⟨entry, hentry', hcompute⟩ :=
      collect_returns hkeyed (List.mem_filter.mpr ⟨hmem, hverification⟩)
    obtain ⟨key, -, hpair⟩ := Py.bind_eq_ok_iff.mp hcompute
    obtain rfl := Except.ok.inj hpair
    exact ⟨key, hentry'⟩
  refine ⟨?_, ?_, ?_⟩
  · intro item
    simp only [List.mem_map, mem_sortedBy]
    constructor
    · rintro ⟨entry, hmem, rfl⟩
      exact ⟨((hentry entry).mp hmem).1, ((hentry entry).mp hmem).2.1⟩
    · rintro ⟨hmem, hverification⟩
      obtain ⟨place, hmem⟩ := hplace item hmem hverification
      exact ⟨(place, item), hmem, rfl⟩
  · intro item hitem
    obtain ⟨entry, hmem, rfl⟩ := List.mem_map.mp hitem
    exact ⟨entry.1, ((hentry entry).mp (mem_sortedBy.mp hmem)).2.2⟩
  · rw [List.pairwise_map]
    apply (pairwise_sortedBy Prod.fst keyed).imp_of_mem
    intro first second hfirst hsecond hle place other hplace' hother
    rw [((hentry first).mp (mem_sortedBy.mp hfirst)).2.2] at hplace'
    rw [((hentry second).mp (mem_sortedBy.mp hsecond)).2.2] at hother
    obtain rfl := Except.ok.inj hplace'
    obtain rfl := Except.ok.inj hother
    exact hle

/-- What the current verifications assign to a repository is current. -/
theorem isCurrent_of_currentVerifications {current : List (String × Fields)}
    (h : currentVerifications zone observations = .ok current)
    (hget : Fields.get? current repository = some item) :
    IsCurrent zone observations repository item := by
  obtain ⟨ordered, hordered, h⟩ := Py.bind_eq_ok_iff.mp h
  obtain ⟨hmem, hplaces, hpairwise⟩ := orderedVerifications_spec hordered
  rw [get?_assignByRepository h, Fields.get?, Option.or_none] at hget
  have hnamed : ∀ other ∈ ordered.filter fun item => Names item repository,
      other ∈ ordered ∧ Names other repository := by
    intro other hother
    simpa using List.mem_filter.mp hother
  have hlast := List.mem_of_getLast? hget
  obtain ⟨hitem, hnames⟩ := hnamed item hlast
  refine ⟨((hmem item).mp hitem).1, ((hmem item).mp hitem).2, hnames, ?_⟩
  intro other hother hverification hothernames
  have hfiltered : other ∈ ordered.filter fun item => Names item repository :=
    List.mem_filter.mpr ⟨(hmem other).mpr ⟨hother, hverification⟩, by simpa using hothernames⟩
  obtain ⟨place, hplace⟩ := hplaces item hitem
  obtain ⟨otherPlace, hotherPlace⟩ := hplaces other ((hmem other).mpr ⟨hother, hverification⟩)
  refine ⟨place, otherPlace, hplace, hotherPlace, ?_⟩
  have hlasteq : (ordered.filter fun item => Names item repository).getLast
      (List.ne_nil_of_mem hfiltered) = item := by
    rw [List.getLast?_eq_some_getLast (List.ne_nil_of_mem hfiltered)] at hget
    exact Option.some_inj.mp hget
  have hle := (hpairwise.filter fun item => Names item repository).rel_getLast_of_rel_getLast_getLast
    hfiltered (by
      intro first second hfirst hsecond
      rw [hfirst] at hsecond
      exact le_of_eq (Except.ok.inj hsecond))
  rw [hlasteq] at hle
  exact hle otherPlace place hotherPlace hplace

end Verification

/-! ## The check of a resolution -/

section Resolution

variable {zone : Int → Py Int} {record event : Fields}
  {observations visible relations : List Fields} {repository : String}

/-- A repository that the record declares, or that an observation names. -/
def Affects (record : Fields) (visible : List Fields) (repository : String) : Prop :=
  (∃ items, iterate (member record "affectedRepositories" (.arr [])) = .ok items ∧
      ∃ item ∈ items, repositoryName item = .ok repository) ∨
    ∃ item ∈ visible, (Fields.get item "repository").isStr = true ∧
      repositoryName (Fields.get item "repository") = .ok repository

/-- What a resolving transition of a record rests on. -/
structure VerifiedEverywhere (zone : Int → Py Int) (record : Fields) (observations : List Fields)
    (event : Fields) : Prop where
  references : ∃ refs, setOf (member event "evidenceRefs" (.arr [])) = .ok refs ∧ refs ≠ [] ∧
    ∀ ref ∈ refs, ∃ item ∈ observations, ref = .str (documentId item)
  verified : ∃ visible, visibleObservations zone observations event = .ok visible ∧
    ∀ repository, Affects record visible repository → ∃ item,
      IsCurrent zone visible repository item ∧ reproductionIs "PASS" item = .ok true ∧
        workaroundClosed item = .ok true

theorem mem_affectedRepositories {affected : List String}
    (h : affectedRepositories record visible = .ok affected) :
    repository ∈ affected ↔ Affects record visible repository := by
  obtain ⟨items, hitems, h⟩ := Py.bind_eq_ok_iff.mp h
  obtain ⟨declared, hdeclared, h⟩ := Py.bind_eq_ok_iff.mp h
  obtain ⟨observed, hobserved, h⟩ := Py.bind_eq_ok_iff.mp h
  obtain rfl := Except.ok.inj h
  rw [mem_sortedBy, List.mem_eraseDups, List.mem_append, mem_collect hdeclared,
    mem_collect hobserved, Affects, hitems]
  simp [and_assoc]

/-- Observations a transition sees are observations of the pressure. -/
theorem mem_of_mem_visibleObservations
    (h : visibleObservations zone observations event = .ok visible) {item : Fields}
    (hmem : item ∈ visible) : item ∈ observations := by
  obtain ⟨references, -, h⟩ := Py.bind_eq_ok_iff.mp h
  obtain ⟨time, -, h⟩ := Py.bind_eq_ok_iff.mp h
  exact ((mem_filterWhere h).mp hmem).1

theorem documentId_of_requireKey {item : Fields} {value : Json}
    (h : requireKey item "id" = .ok value) : documentId item = value.pyStr := by
  unfold requireKey at h
  split at h
  · rename_i hget
    rw [documentId, member, hget, ← Except.ok.inj h]
    rfl
  · exact absurd h (by simp)

/-- A repository lacks nothing when it has a closed PASS verification. -/
theorem repositoryRequirement_eq_none {verification : List (String × Fields)}
    (h : repositoryRequirement verification repository = .ok none) :
    ∃ item, Fields.get? verification repository = some item ∧
      reproductionIs "PASS" item = .ok true ∧ workaroundClosed item = .ok true := by
  unfold repositoryRequirement at h
  split at h
  · exact absurd h (by simp)
  · rename_i item hget
    obtain ⟨passed, hpassed, h⟩ := Py.bind_eq_ok_iff.mp h
    cases passed with
    | false => exact absurd (Except.ok.inj h) (by simp)
    | true =>
        obtain ⟨closed, hclosed, h⟩ := Py.bind_eq_ok_iff.mp h
        cases closed with
        | false => exact absurd (Except.ok.inj h) (by simp)
        | true => exact ⟨item, hget, hpassed, hclosed⟩

theorem firstLack_eq_none {verification : List (String × Fields)} {repositories : List String}
    (h : firstLack verification repositories = .ok none) :
    ∀ repository ∈ repositories, repositoryRequirement verification repository = .ok none := by
  induction repositories with
  | nil => simp
  | cons repository repositories ih =>
      obtain ⟨lack, hlack, h⟩ := Py.bind_eq_ok_iff.mp h
      cases lack with
      | some lack => exact absurd (Except.ok.inj h) (by simp)
      | none => exact List.forall_mem_cons.mpr ⟨hlack, ih h⟩

/-- A resolution that lacks nothing has its references among the given ids and a
closed PASS verification of every affected repository. -/
theorem resolvedRequirement_eq_none {ids affected : List String} {refs : List Json}
    (h : resolvedRequirement zone visible ids refs affected = .ok none) :
    refs ≠ [] ∧ (∀ ref ∈ refs, ∃ id ∈ ids, ref = .str id) ∧
      ∀ repository ∈ affected, ∃ item, IsCurrent zone visible repository item ∧
        reproductionIs "PASS" item = .ok true ∧ workaroundClosed item = .ok true := by
  unfold resolvedRequirement at h
  dsimp only at h
  split at h
  · exact absurd (Except.ok.inj h) (by simp)
  · rename_i hrefs
    obtain ⟨verification, hverification, h⟩ := Py.bind_eq_ok_iff.mp h
    split at h
    · exact absurd (Except.ok.inj h) (by simp)
    split at h
    · exact absurd (Except.ok.inj h) (by simp)
    obtain ⟨passed, -, h⟩ := Py.bind_eq_ok_iff.mp h
    obtain ⟨failed, -, h⟩ := Py.bind_eq_ok_iff.mp h
    obtain ⟨unknown, -, h⟩ := Py.bind_eq_ok_iff.mp h
    obtain ⟨removed, -, h⟩ := Py.bind_eq_ok_iff.mp h
    obtain ⟨lack, hlack, h⟩ := Py.bind_eq_ok_iff.mp h
    cases lack with
    | some lack => exact absurd (Except.ok.inj h) (by simp)
    | none =>
        simp only [Bool.or_eq_true, not_or, Bool.not_eq_true, List.isEmpty_eq_false_iff,
          Bool.not_eq_false', List.all_eq_true] at hrefs
        refine ⟨hrefs.1, ?_, ?_⟩
        · intro ref href
          have hid := hrefs.2 ref href
          cases hstr : ref.str? with
          | none =>
              rw [hstr] at hid
              exact absurd hid (by simp)
          | some text =>
              rw [hstr] at hid
              exact ⟨text, by simpa using hid, Json.str?_eq_some_iff.mp hstr⟩
        · intro repository hrepository
          obtain ⟨item, hget, hpassed, hclosed⟩ := repositoryRequirement_eq_none
            (firstLack_eq_none hlack repository (mem_sortedBy.mpr hrepository))
          exact ⟨item, isCurrent_of_currentVerifications hverification hget, hpassed, hclosed⟩

/-- A resolving transition that lacks nothing is verified everywhere. -/
theorem verifiedEverywhere_of_requirement
    (htarget : (member event "to" (.str "")).pyStr = "resolved")
    (h : transitionRequirement zone record observations relations event = .ok none) :
    VerifiedEverywhere zone record observations event := by
  obtain ⟨visible, hvisible, h⟩ := Py.bind_eq_ok_iff.mp h
  obtain ⟨affected, haffected, h⟩ := Py.bind_eq_ok_iff.mp h
  obtain ⟨target, hto, h⟩ := Py.bind_eq_ok_iff.mp h
  obtain ⟨refs, hrefs, h⟩ := Py.bind_eq_ok_iff.mp h
  obtain ⟨ids, hids, h⟩ := Py.bind_eq_ok_iff.mp h
  have hresolved : target.pyStr = "resolved" := by
    unfold requireKey at hto
    split at hto
    · rename_i hget
      rw [member, hget, Option.getD_some] at htarget
      rw [← Except.ok.inj hto]
      exact htarget
    · exact absurd hto (by simp)
  rw [hresolved] at h
  split at h
  · exact absurd (Except.ok.inj h) (by simp)
  · rw [if_neg (by decide), if_neg (by decide), if_neg (by decide), if_neg (by decide),
      if_pos rfl] at h
    obtain ⟨hne, hknown, hverified⟩ := resolvedRequirement_eq_none h
    refine ⟨⟨refs, hrefs, hne, ?_⟩, visible, hvisible, ?_⟩
    · intro ref href
      obtain ⟨id, hid, rfl⟩ := hknown ref href
      obtain ⟨item, hitem, hcompute⟩ := (mem_collect hids).mp hid
      obtain ⟨value, hvalue, hpair⟩ := Py.bind_eq_ok_iff.mp hcompute
      obtain rfl := Except.ok.inj hpair
      exact ⟨item, mem_of_mem_visibleObservations hvisible hitem,
        congrArg Json.str (documentId_of_requireKey hvalue).symm⟩
    · intro repository hrepository
      exact hverified repository ((mem_affectedRepositories haffected).mpr hrepository)

end Resolution

/-! ## Resolved pressures -/

section Resolved

variable {zone : Int → Py Int} {recordId : String} {record : Fields}
  {observations events : List Fields} {allRecordIds : List String}
  {projection : PressureProjection}

/-- The last transition of the history is verified everywhere. -/
def ResolvedByEvidence (zone : Int → Py Int) (record : Fields) (projection : PressureProjection) :
    Prop :=
  ∃ event, projection.events.getLast? = some event ∧
    VerifiedEverywhere zone record projection.observations event

/-- A valid projection that its history resolves rests on verifications of every
affected repository. -/
theorem resolved_verified_everywhere
    (h : projectOne zone recordId record observations events allRecordIds = .ok projection)
    (hvalid : projection.valid = true) (hresolved : projection.status = "resolved")
    (hinitial : Fields.get record "initialStatus" ≠ .str "resolved") :
    ResolvedByEvidence zone record projection := by
  obtain ⟨last, hwalks, -⟩ := walks_of_projectOne h hvalid
  obtain ⟨reached, hprojected⟩ := projected_of_projectOne h
  rw [hresolved] at hwalks
  generalize htext : (member record "initialStatus" (.str "discovered")).pyStr = text at hwalks
  have hne : projection.events ≠ [] := by
    intro hnil
    rw [hnil] at hwalks
    cases hwalks with
    | stop =>
        have hvalue := (Json.pyStr_eq_iff (by decide)).mp htext
        unfold member at hvalue
        cases hget : Fields.get? record "initialStatus" with
        | none =>
            rw [hget] at hvalue
            exact absurd hvalue (by simp)
        | some value =>
            rw [hget, Option.getD_some] at hvalue
            exact hinitial (by rw [Fields.get, hget, hvalue, Option.getD_some])
  obtain ⟨before, hstep⟩ := hwalks.linked.getLast_step hne
  obtain ⟨hcheck, htarget⟩ := hostStep_eq_some_iff.mp hstep
  refine ⟨projection.events.getLast hne, List.getLast?_eq_some_getLast hne, ?_⟩
  rw [hprojected.observations_eq]
  exact verifiedEverywhere_of_requirement htarget (checkEvent_eq_none_iff.mp hcheck).2.2

end Resolved

/-! ## A resolution and a declaration that starts resolved -/

/-- A declaration of one repository with the given initial status. -/
def declaration (initialStatus : String) : Fields :=
  [("id", .str "P"), ("initialStatus", .str initialStatus), ("discoveredBy", .str "mncs-commons"),
    ("affectedRepositories", .arr [.str "mncs-commons"])]

/-- An observation of the repository that passed. -/
def passingObservation (id kind : String) : Fields :=
  [("id", .str id), ("kind", .str kind), ("pressureId", .str "P"),
    ("repository", .str "epi13/mncs-commons"), ("observedAt", .str "2026-01-01T00:00:00Z"),
    ("reproduction", .obj [("status", .str "PASS")]), ("workaround", .obj [])]

/-- A transition with evidence, a reason and an implementation. -/
def evidencedTransition (id : String) (previous : Json) (source target : PressureStatus) : Fields :=
  [("id", .str id), ("kind", .str "PressureTransition"), ("pressureId", .str "P"),
    ("previousEvent", previous), ("from", .str source.value), ("to", .str target.value),
    ("occurredAt", .str "2026-01-02T00:00:00Z"), ("reason", .str "done"),
    ("evidenceRefs", .arr [.str "O1"]), ("implementation", .obj [("ref", .str "main")])]

/-- A history from discovery to resolution. -/
def resolvingHistory : List Fields :=
  [evidencedTransition "E1" .null .discovered .confirmed,
    evidencedTransition "E2" (.str "E1") .confirmed .accepted,
    evidencedTransition "E3" (.str "E2") .accepted .implementing,
    evidencedTransition "E4" (.str "E3") .implementing .available,
    evidencedTransition "E5" (.str "E4") .available .verifying,
    evidencedTransition "E6" (.str "E5") .verifying .resolved]

/-- The projection of the declaration with the history, where local time is UTC. -/
def resolvingProjection : Py PressureProjection :=
  projectOne .ok "P" (declaration "discovered")
    [passingObservation "O1" "observation", passingObservation "O2" "verification"]
    resolvingHistory ["P"]

theorem resolvingProjection_verified :
    ∃ projection, resolvingProjection = .ok projection ∧
      ResolvedByEvidence .ok (declaration "discovered") projection := by
  have hrun : resolvingProjection.map (fun projection => (projection.valid, projection.status)) =
      .ok (true, "resolved") := by decide +kernel
  cases hproject : resolvingProjection with
  | error error =>
      rw [hproject] at hrun
      exact absurd hrun (by simp [Except.map])
  | ok projection =>
      rw [hproject] at hrun
      obtain ⟨hvalid, hstatus⟩ := Prod.mk.inj (Except.ok.inj hrun)
      exact ⟨projection, rfl,
        resolved_verified_everywhere hproject hvalid hstatus (by decide)⟩

/-- A declaration whose initial status is resolved is projected as resolved
without a transition. -/
theorem initially_resolved_unverified :
    ¬ ∀ (recordId : String) (record : Fields) (observations events : List Fields)
        (projection : PressureProjection),
      projectOne .ok recordId record observations events [recordId] = .ok projection →
      projection.valid = true → projection.status = "resolved" →
      ResolvedByEvidence .ok record projection := by
  intro hall
  have hrun : (projectOne .ok "P" (declaration "resolved") [] [] ["P"]).map
      (fun projection => (projection.valid, projection.status, projection.events)) =
      .ok (true, "resolved", []) := by decide +kernel
  cases hproject : projectOne .ok "P" (declaration "resolved") [] [] ["P"] with
  | error error =>
      rw [hproject] at hrun
      exact absurd hrun (by simp [Except.map])
  | ok projection =>
      rw [hproject] at hrun
      obtain ⟨hvalid, hrest⟩ := Prod.mk.inj (Except.ok.inj hrun)
      obtain ⟨hstatus, hevents⟩ := Prod.mk.inj hrest
      obtain ⟨event, hlast, -⟩ := hall _ _ _ _ projection hproject hvalid hstatus
      rw [hevents] at hlast
      exact absurd hlast (by simp)

end MncsCommons.Pressure
