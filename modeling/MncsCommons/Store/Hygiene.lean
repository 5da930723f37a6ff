/-
# Hygiene work in a store

In every store that services lead to, hygiene work that has not to be reconciled is
local to one repository, as long as no request and no added record masks what it
names (`hygiene_repo_local`).  A request may bring canonical spellings of its own, and
then the check reads those: a record can be stored that affects two repositories
(`masked_hygiene_stored`).
-/

import MncsCommons.Store.ServiceRuns
import MncsCommons.Store.Works
import MncsCommons.Protocol.Scope

namespace MncsCommons.Store

open MncsCommons.Data MncsCommons.Protocol MncsCommons.Exec

/-! ## What the validation of a record says about its scope -/

theorem has_of_get {fields : Fields} {key : String} (h : Fields.get fields key ≠ .null) :
    Fields.has fields key = true := by
  rw [Fields.has]
  cases hget : Fields.get? fields key with
  | none => exact absurd (by rw [Fields.get, hget]; rfl) h
  | some value => rfl

/-- The checks of a valid work record. -/
theorem validateWorkRecord_of_valid {record : Fields} (h : validateRecord record = .ok [])
    (hkind : Fields.get record "kind" = .str "WorkRequest") :
    ∃ details, Fields.get record "details" = .obj details ∧
      validateWorkRecord record = .ok [] := by
  have hrecord := (validateRecord_eq_nil_iff.mp h).1
  rw [recordDiagnostics, concatChecks_eq_nil_iff] at hrecord
  have hdetails := hrecord
    (checkObject (Fields.get record "details") "details" (checkRecordDetails record)) (by simp)
  rw [checkObject] at hdetails
  cases hobj : Fields.get record "details" with
  | obj details =>
      rw [hobj] at hdetails
      have hof : recordKindOf record = some .workRequest := by
        rw [recordKindOf, hkind]
        rfl
      have hdetails : checkRecordDetails record details = .ok [] := hdetails
      rw [checkRecordDetails, hof] at hdetails
      obtain ⟨required, hrequired⟩ : ∃ required, requiredDetails .workRequest = some required :=
        ⟨_, rfl⟩
      simp only [hrequired] at hdetails
      rw [checkDetails, concatChecks_eq_nil_iff] at hdetails
      have hwork := hdetails (checkKindDetails record details .workRequest) (by simp)
      rw [checkKindDetails, concatChecks_eq_nil_iff] at hwork
      exact ⟨details, rfl, hwork (validateWorkRecord record) (by simp)⟩
  | _ =>
      rw [hobj] at hdetails
      cases hdetails

/-- Valid hygiene work is in scope. -/
theorem inScope_of_valid {record : Fields} (h : validateRecord record = .ok [])
    (hkind : Fields.get record "kind" = .str "WorkRequest")
    (hfollows : followsWorkProtocol record = true) (hhygiene : isHygiene (detailsOf record) = true) :
    hygieneScopeInvalid (detailsOf record) = .ok false ∧
      stringListInvalid (detailsOf record) "affectedRepositories" = false := by
  obtain ⟨details, hdetails, hwork⟩ := validateWorkRecord_of_valid h hkind
  have hof : detailsOf record = details := by
    rw [detailsOf, hdetails]
    rfl
  rw [hof] at hhygiene ⊢
  rw [followsWorkProtocol, hdetails] at hfollows
  have hprotocol : (Fields.get details "workProtocol").str? = some workProtocol := by
    simpa [Json.obj?] using hfollows
  have hlane : Fields.has details "lane" = true := has_of_get fun hnull => by
    rw [isHygiene, hnull] at hhygiene
    cases hhygiene
  have hhas : Fields.has details "workProtocol" = true := has_of_get fun hnull => by
    rw [hnull] at hprotocol
    cases hprotocol
  have his : isWorkRecord record details = true := by
    rw [isWorkRecord, hkind, hhas]
    rfl
  rw [validateWorkRecord, hdetails] at hwork
  simp only [Json.obj?, his, Bool.not_true, Bool.false_eq_true, if_false] at hwork
  rw [concatChecks_eq_nil_iff] at hwork
  have hchecked := hwork (if Fields.has details "lane" then checkLane details else .ok []) (by simp)
  rw [if_pos hlane, checkLane, concatChecks_eq_nil_iff] at hchecked
  constructor
  · have hscope := hchecked ((hygieneScopeInvalid details).bind fun invalid =>
      reportIf invalid workHygieneScopeCode "details.affectedRepositories"
        ("REPO_HYGIENE work must be scoped to exactly one " ++
          "canonical repository equal to the primary repository")) (by simp)
    obtain ⟨invalid, hinvalid, hreport⟩ := Py.bind_eq_ok_iff.mp hscope
    rwa [reportIf_eq_nil_iff.mp hreport] at hinvalid
  · have hlists := hchecked (concatChecks (["affectedRepositories", "dependencies",
        "capabilityRequirements", "blockingWorkIds", "evidenceLinks", "allowedWriteScope",
        "forbiddenWriteScope"].map fun field => reportIf (stringListInvalid details field)
          "WORK_FIELD_INVALID" ("details." ++ field) "must be a bounded string list")) (by simp)
    rw [concatChecks_eq_nil_iff] at hlists
    exact reportIf_eq_nil_iff.mp
      (hlists _ (List.mem_map_of_mem (by simp : "affectedRepositories" ∈ _)))

/-! ## What services write -/

theorem followsWorkProtocol_eq (record : Fields) : followsWorkProtocol record =
    decide ((Fields.get (detailsOf record) "workProtocol").str? = some workProtocol) := by
  rw [followsWorkProtocol, detailsOf]
  cases (Fields.get record "details").obj? <;> rfl

/-- Hygiene work whose scope is read as it was submitted. -/
structure Scoped (record : Fields) : Prop where
  kind : Fields.get record "kind" = .str "WorkRequest"
  unmasked : Unmasked (detailsOf record) (affectedOf (detailsOf record))

/-- The request of a submission masks nothing, and neither does an added work record,
which is a request. -/
def ServiceCall.MasksNothing : ServiceCall → Prop
  | .submit _ _ request =>
      isHygiene request.fields = true → Unmasked request.fields (submittedAffected request.fields)
  | .addRecord value =>
      followsWorkProtocol value.fields = true → isHygiene (detailsOf value.fields) = true →
        Scoped value.fields
  | _ => True

/-- The record of a submission is scoped, when its request masks nothing. -/
theorem scoped_of_submission {now uuid : String} {request record : Fields}
    (h : newWorkRecord now uuid request = .ok record) (hhygiene : isHygiene (detailsOf record) = true)
    (hunmasked : ∀ submission, ReadFrom uuid request submission → isHygiene request = true →
      Unmasked request (submittedAffected request)) : Scoped record := by
  obtain ⟨submission, hread, rfl⟩ := exists_submission h
  have hdetails : detailsOf (submission.record now) = submission.details := rfl
  have hlane : submission.lane = some WorkLane.repoHygiene.value := by
    rw [hdetails, isHygiene, Fields.get, submission.get?_lane, decide_eq_true_eq] at hhygiene
    cases hlane : submission.lane with
    | none =>
        rw [hlane] at hhygiene
        cases hhygiene
    | some lane =>
        rw [hlane] at hhygiene
        exact hhygiene
  have hrequest : isHygiene request = true := by
    rw [isHygiene, lane_of_readLane hread.lane, hlane, decide_eq_true_eq]
  refine ⟨rfl, ?_⟩
  rw [hdetails]
  exact unmasked_of_request hread (by rw [hlane]; rfl) (hunmasked submission hread hrequest)

/-- A revision is scoped when the one before is. -/
theorem scoped_of_revision {now : String} {current transition revised : Fields}
    (h : revisedWorkRecord now current transition = .ok revised) (hcurrent : Scoped current) :
    Scoped revised := by
  obtain ⟨revision⟩ := exists_nextRevision h
  have hsame := revision.sameScope
  constructor
  · rw [Fields.get, revision.get?_revised (by decide), ← Fields.get]
    exact hcurrent.kind
  · rw [hsame.affectedOf]
    exact hsame.unmasked hcurrent.unmasked

/-- The scope of what a service writes, when the stored hygiene work is scoped. -/
theorem scoped_of_writes {records : List Fields} {call : ServiceCall} {value : Mapping}
    (h : call.Writes records value) (hpermitted : call.MasksNothing)
    (hscoped : ∀ record ∈ records, followsWorkProtocol record = true →
      isHygiene (detailsOf record) = true → Scoped record)
    (hfollows : followsWorkProtocol value.fields = true)
    (hhygiene : isHygiene (detailsOf value.fields) = true) : Scoped value.fields := by
  induction h with
  | submit h => exact scoped_of_submission h hhygiene fun _ _ hrequest => hpermitted hrequest
  | @transition now workId change value status hstatus h =>
      obtain ⟨hmem, hrevision⟩ := mem_of_projectWorkHistory hstatus
      rw [isRevisionOf, Bool.and_eq_true] at hrevision
      obtain ⟨revision⟩ := exists_nextRevision h
      rw [revision.sameScope.isHygiene] at hhygiene
      exact scoped_of_revision h (hscoped _ hmem hrevision.1 hhygiene)
  | claim _ _ _ ih => exact ih trivial hfollows hhygiene
  | attach _ _ _ ih => exact ih trivial hfollows hhygiene
  | propose _ hclassified h _ =>
      cases h with
      | submit h =>
          exact scoped_of_submission h hhygiene fun _ hread _ =>
            unmasked_of_proposal hclassified hread
  | addRecord value => exact hpermitted hfollows hhygiene

/-! ## The invariant -/

theorem kind_candidateOf {value : Mapping} {kind : String}
    (h : Fields.get value.fields "kind" = .str kind) :
    Fields.get (candidateOf value) "kind" = .str kind := by
  rw [candidateOf]
  split
  · exact h
  · have hset : Fields.get (Fields.set value.fields "contentDigest"
        (.str (canonicalDigest value.fields))) "kind" = Fields.get value.fields "kind" := by
      rw [Fields.get, get?_set_of_ne (by decide), Fields.get]
    rw [withDigest_eq_canonFields value.wf, get_canonFields_of_inert (by decide), hset, h,
      Json.sortKeys_str]

/-- What is stored of a scoped record. -/
theorem Scoped.stored {value : Mapping} (h : Scoped value.fields) :
    Scoped (Fields.sortKeys (candidateOf value)) := by
  constructor
  · rw [Fields.get_sortKeys, kind_candidateOf h.kind, Json.sortKeys_str]
  · rw [detailsOf_sortKeys]
    refine Unmasked.sortKeys ?_
    obtain hdetails | hdetails := detailsOf_candidateOf value
    · rw [hdetails]
      exact h.unmasked
    · rw [hdetails]
      exact h.unmasked.sortKeys

theorem followsWorkProtocol_candidateOf (value : Mapping) :
    followsWorkProtocol (candidateOf value) = followsWorkProtocol value.fields := by
  rw [followsWorkProtocol_eq, followsWorkProtocol_eq]
  obtain hdetails | hdetails := detailsOf_candidateOf value
  · rw [hdetails]
  · rw [hdetails, Fields.get_sortKeys, Json.str?_sortKeys]

theorem isHygiene_candidateOf (value : Mapping) :
    isHygiene (detailsOf (candidateOf value)) = isHygiene (detailsOf value.fields) := by
  obtain hdetails | hdetails := detailsOf_candidateOf value
  · rw [hdetails]
  · rw [hdetails, isHygiene_sortKeys]

/-- Hygiene work is scoped, and local to a repository unless it has to be
reconciled. -/
def HygieneScoped (read : List Fields) : Prop :=
  ∀ record ∈ payloadsFromRows read "record", followsWorkProtocol record = true →
    isHygiene (detailsOf record) = true → Scoped record ∧
      (Fields.get (detailsOf record) "coordinationState" ≠ .str "NEEDS_RECONCILIATION" →
        RepoLocal (detailsOf record))

theorem HygieneScoped.step {store : StoreDir} {read after : List Fields} {call : ServiceCall}
    {value : Mapping} (h : HygieneScoped read) (hpermitted : call.MasksNothing)
    (hwrites : call.Writes (payloadsFromRows read "record") value)
    (hextends : Extends store read (.add .record value) after) : HygieneScoped after := by
  obtain hsame | ⟨_, hcall, hadmitted, hadded⟩ := hextends.payloads .record
  · have hsame : payloadsFromRows after "record" = payloadsFromRows read "record" := hsame
    rwa [HygieneScoped, hsame]
  obtain ⟨-, rfl⟩ := Call.add.inj hcall
  have hadded : payloadsFromRows after "record" =
    payloadsFromRows read "record" ++ [Fields.sortKeys (candidateOf value)] := hadded
  intro record hrecord hfollows hhygiene
  rw [hadded, List.mem_append, List.mem_singleton] at hrecord
  rcases hrecord with hrecord | rfl
  · exact h record hrecord hfollows hhygiene
  rw [followsWorkProtocol_sortKeys, followsWorkProtocol_candidateOf] at hfollows
  rw [detailsOf_sortKeys, isHygiene_sortKeys, isHygiene_candidateOf] at hhygiene
  have hscoped := (scoped_of_writes hwrites hpermitted
    (fun record hrecord hfollows hhygiene => (h record hrecord hfollows hhygiene).1) hfollows
    hhygiene).stored
  refine ⟨hscoped, fun hcoordination => ?_⟩
  have hvalid : validateRecord (Fields.sortKeys (candidateOf value)) = .ok [] :=
    (validateRecord_sortKeys (wf_candidateOf value)).mpr hadmitted.valid
  obtain ⟨hscope, hlist⟩ := inScope_of_valid hvalid hscoped.kind
    (by rwa [followsWorkProtocol_sortKeys, followsWorkProtocol_candidateOf])
    (by rwa [detailsOf_sortKeys, isHygiene_sortKeys, isHygiene_candidateOf])
  exact repoLocal_of_inScope hscope
    (by rwa [detailsOf_sortKeys, isHygiene_sortKeys, isHygiene_candidateOf]) hcoordination hlist
    hscoped.unmasked

/-- In every store that services lead to, where no request and no added record masks
what it names, hygiene work that has not to be reconciled is local to one
repository. -/
theorem hygiene_repo_local {store : StoreDir} {read : List Fields}
    (h : ServiceReachable (fun _ call => call.MasksNothing) store) (hread : rows store = .ok read)
    {record : Fields} (hrecord : record ∈ payloadsFromRows read "record")
    (hfollows : followsWorkProtocol record = true) (hhygiene : isHygiene (detailsOf record) = true)
    (hcoordination : Fields.get (detailsOf record) "coordinationState" ≠
      .str "NEEDS_RECONCILIATION") : RepoLocal (detailsOf record) := by
  obtain ⟨found, hfound, hscoped⟩ := h.keeps HygieneScoped (fun record hrecord => nomatch hrecord)
    (fun _ _ _ _ _ _ hpermitted hwrites hproperty hextends =>
      hproperty.step hpermitted hwrites hextends) (.of_rows hread)
  obtain rfl := Except.ok.inj (hread.symm.trans hfound.rows)
  exact (hscoped record hrecord hfollows hhygiene).2 hcoordination

/-- Hygiene work on the given repositories. -/
def hygieneRecord (affected : List String) (canonical : Fields) : Fields :=
  workRecord [("recordId", .str "work:a"), ("revision", .int 1)]
    (workDetails "submitted" "AVAILABLE" .null ++
      [("lane", .str WorkLane.repoHygiene.value), ("priority", .int 0), ("repository", .str "ravel"),
        ("affectedRepositories", Json.ofStrings affected)] ++ canonical)

/-- Hygiene work on one repository. -/
def localRecord : Mapping := ⟨hygieneRecord ["ravel"] [], by decide +kernel⟩

def localDigest : String := "sha256:7575aeebc49f0d746998bd5758f9cce8d13f763847115395210a363f31e81d66"

theorem holding_localRecord : Holding (Call.run .plain (.add .record localRecord) .fresh).final
    [storedAs localRecord.fields localDigest] [] 1 :=
  holding_fresh.addQuick (by decide) .plain rfl (by decide +kernel) (by decide +kernel)
    (by decide +kernel) (by simp) (by decide +kernel)

theorem scoped_localRecord : Scoped localRecord.fields := by
  refine ⟨rfl, ⟨fun repository hcanonical => ?_, fun repository named hnamed => ?_⟩⟩
  · have hnull : Fields.get (detailsOf localRecord.fields) "canonicalRepository" = .null := rfl
    rw [hnull] at hcanonical
    cases hcanonical
  · have hnull : Fields.get (detailsOf localRecord.fields) "canonicalAffectedRepositories" = .null :=
      rfl
    rw [hnull] at hnamed
    cases hnamed

/-- Hygiene work on one repository is stored, and is local to it. -/
theorem local_hygiene_kept :
    ∃ read, rows (Call.run .plain (.add .record localRecord) .fresh).final = .ok read ∧
      ∃ record ∈ payloadsFromRows read "record", RepoLocal (detailsOf record) := by
  obtain ⟨read, hread, hrecords, -⟩ := holding_localRecord.rows_eq
  have hreachable : ServiceReachable (fun _ call => call.MasksNothing)
      (Call.run .plain (.add .record localRecord) .fresh).final :=
    ServiceReachable.init.addRecord .plain localRecord fun _ _ => scoped_localRecord
  have hmem : storedAs localRecord.fields localDigest ∈ payloadsFromRows read "record" := by
    rw [hrecords]
    exact List.mem_singleton_self _
  exact ⟨read, hread, _, hmem, hygiene_repo_local hreachable hread hmem (by decide +kernel)
    (by decide +kernel) (by decide +kernel)⟩

/-! ## Masked work -/

/-- Hygiene work on two repositories, with one of them as the canonical spelling of
both. -/
def maskedRecord : Mapping :=
  ⟨hygieneRecord ["ravel", "mnel"] [("canonicalAffectedRepositories", Json.ofStrings ["ravel"])], rfl⟩

def maskedDigest : String :=
  "sha256:022358364f7491db363934137cbcf6b5a18bc894a727957173e58d9f6c3a58ba"

theorem holding_maskedRecord : Holding (Call.run .plain (.add .record maskedRecord) .fresh).final
    [storedAs maskedRecord.fields maskedDigest] [] 1 :=
  holding_fresh.addQuick (by decide) .plain rfl (by decide +kernel) (by decide +kernel)
    (by decide +kernel) (by simp) (by decide +kernel)

theorem storedAs_maskedRecord :
    followsWorkProtocol (storedAs maskedRecord.fields maskedDigest) = true ∧
      isHygiene (detailsOf (storedAs maskedRecord.fields maskedDigest)) = true ∧
      Fields.get (detailsOf (storedAs maskedRecord.fields maskedDigest)) "coordinationState" =
        .str "AVAILABLE" ∧
      Fields.get (detailsOf (storedAs maskedRecord.fields maskedDigest)) "affectedRepositories" =
        .arr [.str "ravel", .str "mnel"] := by
  decide +kernel

theorem resolveRepository_spellings :
    resolveRepository (.str "ravel") = .ok (some "epi13/RAVEL") ∧
      resolveRepository (.str "mnel") = .ok (some "epi13/Machine-Native-Experimental-Learning") := by
  rw [resolveRepository, resolveRepository, canonicalProjectIdentity_eq_byCodes]
  simp only [identityByCodes, projectNames, repositoryFromUrl, Str.isBlank, Str.strip,
    Str.removeSuffix, Str.endsWith, ← quickChars_eq]
  decide +kernel

/-- Hygiene work that affects two repositories is stored as available. -/
theorem masked_hygiene_stored :
    ¬ ∀ store read, ServiceReachable (fun _ _ => True) store → rows store = .ok read →
      ∀ record ∈ payloadsFromRows read "record", followsWorkProtocol record = true →
        isHygiene (detailsOf record) = true →
        Fields.get (detailsOf record) "coordinationState" ≠ .str "NEEDS_RECONCILIATION" →
        RepoLocal (detailsOf record) := by
  intro hall
  obtain ⟨read, hread, hrecords, -⟩ := holding_maskedRecord.rows_eq
  have hreachable : ServiceReachable (fun _ _ => True)
      (Call.run .plain (.add .record maskedRecord) .fresh).final :=
    ServiceReachable.init.addRecord .plain maskedRecord trivial
  obtain ⟨hfollows, hhygiene, hcoordination, haffected⟩ := storedAs_maskedRecord
  have hmem : storedAs maskedRecord.fields maskedDigest ∈ payloadsFromRows read "record" := by
    rw [hrecords]
    exact List.mem_singleton_self _
  obtain ⟨repository, items, -, hitems, hresolve⟩ := hall _ read hreachable hread _ hmem hfollows
    hhygiene (by rw [hcoordination]; simp)
  rw [haffected] at hitems
  obtain rfl := Json.arr.inj hitems
  obtain ⟨hravel, hmnel⟩ := resolveRepository_spellings
  have hfirst := hresolve (.str "ravel") (by simp)
  have hsecond := hresolve (.str "mnel") (by simp)
  rw [hravel] at hfirst
  rw [hmnel] at hsecond
  have heq := hfirst.trans hsecond.symm
  simp at heq

end MncsCommons.Store
