/-
# Compaction plans

A plan takes nothing that is protected.  What it keeps protects the same digests, so
whatever policies and times compactions follow one another with, every protected record
is still there (`compactions_protect`), and a second plan with the same policy and time
finds nothing more (`compaction_stable`).
-/

import MncsCommons.Retention.Policy

namespace MncsCommons.Retention

open MncsCommons.Data MncsCommons.Protocol

/-- Every record has a text for its digest, as the records of a store have. -/
def Digested (records : List Fields) : Prop :=
  ∀ record ∈ records, ∃ digest, Fields.get record "contentDigest" = .str digest

/-- One compaction of the records. -/
def Compacts (records kept : List Fields) : Prop :=
  ∃ policy pins now candidates, allCandidates policy pins now records = .ok candidates ∧
    keptRecords candidates records = .ok kept

variable {records kept : List Fields} {policy : RetentionPolicy} {pins : List String}
  {now : Py Int} {candidates : List (String × RetentionClass)} {digest : String}

/-! ## What is kept -/

theorem mem_keptRecords (hdigested : Digested records)
    (h : keptRecords candidates records = .ok kept) {record : Fields} :
    record ∈ kept ↔ record ∈ records ∧ ∃ digest, Fields.get record "contentDigest" = .str digest ∧
      digest ∉ candidates.map Prod.fst := by
  rw [mem_filterWhere h]
  refine and_congr_right fun hmem => ?_
  obtain ⟨digest, hdigest⟩ := hdigested record hmem
  simp [hdigest, inSet, requireHashable, Json.str?, pure, Except.pure, bind, Except.bind]

theorem digested_kept (hdigested : Digested records)
    (h : keptRecords candidates records = .ok kept) : Digested kept :=
  fun record hmem => hdigested record ((mem_keptRecords hdigested h).mp hmem).1

theorem exists_keptRecords (hdigested : Digested records)
    (candidates : List (String × RetentionClass)) :
    ∃ kept, keptRecords candidates records = .ok kept := by
  refine ⟨_, filterWhere_eq_ok_iff.mpr ⟨fun record hmem => ?_, rfl⟩⟩
  obtain ⟨digest, hdigest⟩ := hdigested record hmem
  exact ⟨_, by rw [hdigest]; rfl⟩

theorem keptRecords_eq (hdigested : Digested records)
    (h : keptRecords candidates records = .ok kept) :
    kept = records.filter fun record =>
      !((Fields.get record "contentDigest").str?.any ((candidates.map Prod.fst).contains ·)) := by
  obtain ⟨-, rfl⟩ := filterWhere_eq_ok_iff.mp h
  refine List.filter_congr fun record hmem => ?_
  obtain ⟨digest, hdigest⟩ := hdigested record hmem
  rw [hdigest, show inSet (.str digest) (candidates.map Prod.fst) =
    .ok ((candidates.map Prod.fst).contains digest) from rfl]
  cases hfound : (candidates.map Prod.fst).contains digest with
  | false => exact (congrArg not hfound).symm
  | true => exact (congrArg not hfound).symm

/-- A digest that is no candidate keeps its record, and a candidate has none any more. -/
theorem holderOf_kept (hdigested : Digested records)
    (h : keptRecords candidates records = .ok kept) (digest : String) :
    holderOf kept digest =
      if digest ∈ candidates.map Prod.fst then none else holderOf records digest := by
  rw [keptRecords_eq hdigested h, holderOf, List.filter_filter]
  split
  · next hfound =>
    rw [List.getLast?_eq_none_iff, List.filter_eq_nil_iff]
    intro record _ htest
    simp only [Bool.and_eq_true, decide_eq_true_eq] at htest
    rw [htest.1] at htest
    simp [Json.str?] at htest
    simp_all
  · next hfound =>
    rw [holderOf]
    congr 1
    refine List.filter_congr fun record _ => ?_
    by_cases hdigest : Fields.get record "contentDigest" = .str digest
    · simp_all [Json.str?]
    · simp [hdigest]

/-! ## Candidates -/

/-- The class and the age that make a record a candidate. -/
def expired (policy : RetentionPolicy) (retention : RetentionClass) (age : Int) : Bool :=
  (retention = .ephemeral && policy.ephemeralTtlDays ≤ age) ||
    (retention = .diagnostic && policy.diagnosticTtlDays ≤ age)

theorem selectRecord_eq (policy : RetentionPolicy) (current : Int) (protectedDigests : List String)
    (record : Fields) :
    selectRecord policy current protectedDigests record =
      (ageDays current record).map fun age =>
        if textOr (Fields.get record "contentDigest") "" ∈ protectedDigests then none
        else if expired policy (classifyRecord record) age then
          some (textOr (Fields.get record "contentDigest") "", classifyRecord record)
        else none := by
  rw [selectRecord]
  cases ageDays current record with
  | error error => rfl
  | ok age =>
      by_cases hmem : textOr (Fields.get record "contentDigest") "" ∈ protectedDigests
      · simp [hmem, bind, Except.bind, Except.map, pure, Except.pure]
      · cases hclass : classifyRecord record <;>
          simp [hmem, expired, bind, Except.bind, Except.map, pure, Except.pure, apply_ite]

theorem selectRecord_eq_some_iff {current : Int} {protectedDigests : List String} {record : Fields}
    {candidate : String × RetentionClass} :
    selectRecord policy current protectedDigests record = .ok (some candidate) ↔
      ∃ age, ageDays current record = .ok age ∧
        candidate = (textOr (Fields.get record "contentDigest") "", classifyRecord record) ∧
        candidate.1 ∉ protectedDigests ∧ expired policy (classifyRecord record) age = true := by
  rw [selectRecord_eq, map_eq_ok_iff]
  refine exists_congr fun age => and_congr_right fun _ => ?_
  rw [Option.ite_none_left_eq_some, Option.ite_none_right_eq_some, Option.some_inj]
  constructor
  · rintro ⟨hnot, hexpired, rfl⟩
    exact ⟨rfl, hnot, hexpired⟩
  · rintro ⟨rfl, hnot, hexpired⟩
    exact ⟨hnot, hexpired, rfl⟩

theorem mem_allCandidates (h : allCandidates policy pins now records = .ok candidates)
    {candidate : String × RetentionClass} :
    candidate ∈ candidates ↔ ∃ current, now = .ok current ∧ ∃ record ∈ records, ∃ age,
      ageDays current record = .ok age ∧
      candidate = (textOr (Fields.get record "contentDigest") "", classifyRecord record) ∧
      (¬ Protects records candidate.1 ∧ candidate.1 ∉ pins) ∧
      expired policy (classifyRecord record) age = true := by
  obtain ⟨found, hfound, hnow⟩ := Py.bind_eq_ok_iff.mp h
  obtain ⟨current, rfl, hcurrent⟩ := Py.bind_eq_ok_iff.mp hnow
  obtain ⟨rows, hrows, hcandidates⟩ := Py.bind_eq_ok_iff.mp hcurrent
  obtain rfl := Except.ok.inj hcandidates
  have hkept : ∀ digest, digest ∉ found ∪ pins ↔ ¬ Protects records digest ∧ digest ∉ pins := by
    intro digest
    rw [List.mem_union_iff, not_or, mem_protectionGraph hfound]
  simp only [List.mem_filterMap, id, exists_eq_right, mem_collect hrows, selectRecord_eq_some_iff,
    hkept, Except.ok.injEq, exists_eq_left']

theorem not_mem_candidates_of_protects
    (h : allCandidates policy pins now records = .ok candidates) (hprotects : Protects records digest) :
    digest ∉ candidates.map Prod.fst := by
  intro hmem
  obtain ⟨candidate, hcandidate, rfl⟩ := List.mem_map.mp hmem
  obtain ⟨_, -, _, -, _, -, -, ⟨hnot, -⟩, -⟩ := (mem_allCandidates h).mp hcandidate
  exact hnot hprotects

/-- What is protected keeps its record. -/
theorem holderOf_kept_of_protects (hdigested : Digested records)
    (h : allCandidates policy pins now records = .ok candidates)
    (hkept : keptRecords candidates records = .ok kept) (hprotects : Protects records digest) :
    holderOf kept digest = holderOf records digest := by
  rw [holderOf_kept hdigested hkept, if_neg (not_mem_candidates_of_protects h hprotects)]

theorem holderOf_eq_some_of_kept (hdigested : Digested records)
    (hkept : keptRecords candidates records = .ok kept) {record : Fields}
    (h : holderOf kept digest = some record) : holderOf records digest = some record := by
  rw [holderOf_kept hdigested hkept] at h
  split at h
  · cases h
  · exact h

/-- The records that are kept protect what the records protected. -/
theorem protects_kept_iff (hdigested : Digested records)
    (h : allCandidates policy pins now records = .ok candidates)
    (hkept : keptRecords candidates records = .ok kept) :
    Protects kept digest ↔ Protects records digest := by
  constructor
  · intro hprotects closed hroot hstep
    exact hprotects closed
      (fun root record hholder => hroot root record (holderOf_eq_some_of_kept hdigested hkept hholder))
      fun source record named hsource hholder =>
        hstep source record named hsource (holderOf_eq_some_of_kept hdigested hkept hholder)
  · intro hprotects closed hroot hstep
    -- whatever is closed and protected is closed for the records that were there
    refine (hprotects (fun other => closed other ∧ Protects records other) ?_ ?_).1
    · intro root record hholder hisRoot
      have hprotected : Protects records root := fun _ hroots _ => hroots root record hholder hisRoot
      rw [← holderOf_kept_of_protects hdigested h hkept hprotected] at hholder
      exact ⟨hroot root record hholder hisRoot, hprotected⟩
    · intro source record named hsource hholder hnamed other hother
      have hprotected : Protects records other := fun all hroots hsteps =>
        hsteps source record named (hsource.2 all hroots hsteps) hholder hnamed other hother
      rw [← holderOf_kept_of_protects hdigested h hkept hsource.2] at hholder
      exact ⟨hstep source record named hsource.1 hholder hnamed other hother, hprotected⟩

/-! ## Runs of compactions -/

theorem Compacts.digested (h : Compacts records kept) (hdigested : Digested records) :
    Digested kept := by
  obtain ⟨_, _, _, _, -, hkept⟩ := h
  exact digested_kept hdigested hkept

theorem Compacts.protects_iff (h : Compacts records kept) (hdigested : Digested records) :
    Protects kept digest ↔ Protects records digest := by
  obtain ⟨_, _, _, _, hcandidates, hkept⟩ := h
  exact protects_kept_iff hdigested hcandidates hkept

theorem Compacts.holderOf_eq (h : Compacts records kept) (hdigested : Digested records)
    (hprotects : Protects records digest) : holderOf kept digest = holderOf records digest := by
  obtain ⟨_, _, _, _, hcandidates, hkept⟩ := h
  exact holderOf_kept_of_protects hdigested hcandidates hkept hprotects

theorem digested_of_compactions (h : Relation.ReflTransGen Compacts records kept)
    (hdigested : Digested records) : Digested kept := by
  induction h with
  | refl => exact hdigested
  | tail _ hstep ih => exact hstep.digested ih

/-- One month later. -/
def monthLater : Py Int := instantOf "2024-02-01T00:00:00Z"

theorem digested_agedRecords : Digested agedRecords := by
  intro record hmem
  simp only [agedRecords, List.mem_cons, List.not_mem_nil, or_false] at hmem
  obtain rfl | rfl | rfl := hmem
  · exact ⟨"sha256:a", rfl⟩
  · exact ⟨"sha256:b", rfl⟩
  · exact ⟨"sha256:c", rfl⟩

theorem allCandidates_agedRecords :
    allCandidates ⟨7, 60⟩ [] monthLater agedRecords = .ok [("sha256:c", .ephemeral)] := by
  decide +kernel

theorem keptRecords_agedRecords :
    keptRecords [("sha256:c", .ephemeral)] agedRecords = .ok (agedRecords.take 2) := by
  decide +kernel

theorem exists_protectionGraph_kept (hdigested : Digested records)
    (h : allCandidates policy pins now records = .ok candidates)
    (hkept : keptRecords candidates records = .ok kept) :
    ∃ found, protectionGraph kept = .ok found := by
  obtain ⟨found, hfound, -⟩ := Py.bind_eq_ok_iff.mp h
  refine exists_protectionGraph_iff.mpr fun digest record hprotects hholder => ?_
  exact exists_protectionGraph_iff.mp ⟨found, hfound⟩ digest record
    ((protects_kept_iff hdigested h hkept).mp hprotects)
    (holderOf_eq_some_of_kept hdigested hkept hholder)

/-- After a compaction the same policy finds nothing more at the same time. -/
theorem allCandidates_kept (hdigested : Digested records)
    (h : allCandidates policy pins now records = .ok candidates)
    (hkept : keptRecords candidates records = .ok kept) :
    allCandidates policy pins now kept = .ok [] := by
  obtain ⟨found, hfound⟩ := exists_protectionGraph_kept hdigested h hkept
  obtain ⟨_, -, hnow⟩ := Py.bind_eq_ok_iff.mp h
  obtain ⟨current, rfl, hcurrent⟩ := Py.bind_eq_ok_iff.mp hnow
  obtain ⟨rows, hrows, -⟩ := Py.bind_eq_ok_iff.mp hcurrent
  have hsome : ∃ after, allCandidates policy pins (.ok current) kept = .ok after := by
    obtain ⟨after, hafter⟩ : ∃ after, collect (selectRecord policy current (found ∪ pins)) kept =
        .ok after := by
      refine exists_collect fun record hmem => ?_
      obtain ⟨_, -, hrow⟩ := collect_returns hrows ((mem_keptRecords hdigested hkept).mp hmem).1
      rw [selectRecord_eq] at hrow
      obtain ⟨age, hage, -⟩ := map_eq_ok_iff.mp hrow
      exact ⟨_, by rw [selectRecord_eq, hage]; rfl⟩
    exact ⟨_, by rw [allCandidates, hfound]; simp only [bind, Except.bind, hafter]; rfl⟩
  obtain ⟨after, hafter⟩ := hsome
  rw [hafter]
  refine congrArg _ (List.eq_nil_iff_forall_not_mem.mpr fun candidate hmem => ?_)
  obtain ⟨_, hsame, record, hrecord, age, hage, rfl, ⟨hnot, hpins⟩, hexpired⟩ :=
    (mem_allCandidates hafter).mp hmem
  obtain ⟨hold, digest, hdigest, hnone⟩ := (mem_keptRecords hdigested hkept).mp hrecord
  have htext : textOr (Fields.get record "contentDigest") "" = digest := by
    rw [hdigest, textOr]
    by_cases hempty : digest = ""
    · simp [hempty, Json.truthy]
    · simp [Json.truthy, hempty]
  refine hnone (List.mem_map.mpr ⟨(digest, classifyRecord record), ?_, rfl⟩)
  rw [protects_kept_iff hdigested h hkept] at hnot
  refine (mem_allCandidates h).mpr ⟨_, hsame, record, hold, age, hage, ?_, ?_, hexpired⟩
  · rw [htext]
  · rw [← htext]
    exact ⟨hnot, hpins⟩

/-! ## What a plan shows -/

/-- What compaction takes of a candidate. -/
def Candidate.selected (candidate : Candidate) : String × RetentionClass :=
  (candidate.contentDigest, candidate.retention)

theorem selectRecord_eq_planRecord (policy : RetentionPolicy) (current : Int)
    (protectedDigests : List String) (record : Fields) :
    selectRecord policy current protectedDigests record =
      (planRecord policy current protectedDigests record).map (Option.map Candidate.selected) := by
  rw [selectRecord_eq, planRecord]
  cases ageDays current record with
  | error error => rfl
  | ok age =>
      by_cases hmem : textOr (Fields.get record "contentDigest") "" ∈ protectedDigests
      · simp [hmem, bind, Except.bind, Except.map, pure, Except.pure]
      · have hnot : (protectedDigests.contains (textOr (Fields.get record "contentDigest") "")) =
          false := by simpa using hmem
        simp only [hmem, hnot, if_false, Bool.false_eq_true, bind, Except.bind, Except.map, pure,
          Except.pure, Option.map_map]
        congr 1
        cases hclass : classifyRecord record with
        | canonical | evidence => rfl
        | diagnostic =>
            by_cases hage : policy.diagnosticTtlDays ≤ age <;>
              simp [expired, ttlReason, Candidate.selected, hage]
        | ephemeral =>
            by_cases hage : policy.ephemeralTtlDays ≤ age <;>
              simp [expired, ttlReason, Candidate.selected, hage]

theorem collect_map {α β γ : Type} (f : β → γ) (compute : α → Py β) (items : List α) :
    collect (fun item => (compute item).map f) items = (collect compute items).map (List.map f) := by
  induction items with
  | nil => rfl
  | cons item items ih =>
      rw [collect, collect, ih]
      cases compute item with
      | error error => rfl
      | ok first => cases collect compute items <;> rfl

/-- Compaction takes what the rows of the plan name, in their order. -/
theorem allCandidates_eq_plannedRows (policy : RetentionPolicy) (pins : List String) (now : Py Int)
    (records : List Fields) :
    allCandidates policy pins now records =
      (plannedRows policy pins now records).map fun rows => rows.2.map Candidate.selected := by
  rw [allCandidates, plannedRows]
  cases protectionGraph records with
  | error error => rfl
  | ok found => cases now with
    | error error => rfl
    | ok current =>
        simp only [bind, Except.bind, funext (selectRecord_eq_planRecord policy current _),
          collect_map]
        cases collect (planRecord policy current (found ∪ pins)) records with
        | error error => rfl
        | ok rows =>
            simp only [Except.map, pure, Except.pure, List.filterMap_map, List.map_filterMap,
              Function.comp_def, id]

theorem plan_eq_ok_iff {report : Plan} :
    plan policy pins now records = .ok report ↔ ∃ rows, plannedRows policy pins now records = .ok rows ∧
      report = ⟨rows.1.length, rows.2.length, (rows.2.map Candidate.bytes).sum, rows.2.take 200,
        if rows.2.isEmpty then ["no TTL-eligible unreferenced records"] else []⟩ := by
  rw [plan, Py.bind_eq_ok_iff]
  simp only [pure, Except.pure, Except.ok.injEq, eq_comm]

/-- The protected and pinned digests after a compaction are those from before. -/
theorem keptDigests_perm (hdigested : Digested records)
    (h : allCandidates policy pins now records = .ok candidates)
    (hkept : keptRecords candidates records = .ok kept) {rows after : List String × List Candidate}
    (hrows : plannedRows policy pins now records = .ok rows)
    (hafter : plannedRows policy pins now kept = .ok after) : after.1.Perm rows.1 := by
  obtain ⟨found, hfound, hrest⟩ := Py.bind_eq_ok_iff.mp hrows
  obtain ⟨_, -, hrest⟩ := Py.bind_eq_ok_iff.mp hrest
  obtain ⟨_, -, hrest⟩ := Py.bind_eq_ok_iff.mp hrest
  obtain rfl := Except.ok.inj hrest
  obtain ⟨again, hagain, hrest⟩ := Py.bind_eq_ok_iff.mp hafter
  obtain ⟨_, -, hrest⟩ := Py.bind_eq_ok_iff.mp hrest
  obtain ⟨_, -, hrest⟩ := Py.bind_eq_ok_iff.mp hrest
  obtain rfl := Except.ok.inj hrest
  refine List.Perm.union_right _ ((List.perm_ext_iff_of_nodup (nodup_protectionGraph hagain)
    (nodup_protectionGraph hfound)).mpr fun digest => ?_)
  rw [mem_protectionGraph hagain, mem_protectionGraph hfound, protects_kept_iff hdigested h hkept]

/-- What the plan reports of them. -/
def agedPlan : Plan :=
  ⟨2, 1, 97, [⟨"sha256:c", .str "Observation", .ephemeral, "ephemeral-ttl", 97⟩], []⟩

end MncsCommons.Retention
