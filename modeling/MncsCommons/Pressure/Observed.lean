/-
# A new observation

What `observe` writes, and which of the checks of an observation it can fail:
its id may be one of the caller's own, and the default for a reproduction status
that is not given is checked but not written.  Everything else that validation
asks of an observation `observe` has asked before it wrote (`checkObservation_iff`).
-/

import MncsCommons.Pressure.Effects

namespace MncsCommons.Pressure

open MncsCommons.Data MncsCommons.Protocol MncsCommons.Exec

/-! ## What a specification states -/

/-- The specification has no id of its own, or the derived one. -/
def DerivesId (now recordId : String) (spec : Fields) : Prop :=
  ∀ id body, Fields.get? spec "id" = some id → observationBody recordId now spec = .ok body →
    id.pyStr = observationId recordId body

/-- The specification gives the status of its reproduction. -/
def StatesStatus (spec : Fields) : Prop :=
  ∀ reproduction, member spec "reproduction" (.obj []) = .obj reproduction →
    Fields.has reproduction "status" = true

/-! ## What is written -/

/-- What the projection relies on in an observation. -/
structure IsObservation (recordId id : String) (document : Fields) : Prop where
  pressureId : Fields.get document "pressureId" = .str recordId
  id : Fields.get document "id" = .str id
  repository : ∃ name, Fields.get document "repository" = .str name ∧
    normalizeRepository (.str name) = .ok (some name)
  observedAt : isInstant (Fields.get document "observedAt") true = true
  reproduction : ∃ reproduction, Fields.get document "reproduction" = .obj reproduction
  evidence : ∃ items, Fields.get? document "evidence" = some (.arr items) ∧
    ∀ item ∈ items, ∃ entry, item = .obj entry ∧ hasEvidenceStatus entry = .ok true

section Written

variable {now recordId : String} {spec body : Fields} {entry : String × Fields}

theorem inSet_eq_true_iff {value : Json} {values : List String} :
    inSet value values = .ok true ↔ ∃ text ∈ values, value = .str text := by
  cases value <;>
    simp [inSet, requireHashable, bind, Except.bind, pure, Except.pure, Json.str?]

/-- A required repository is its own canonical name. -/
theorem requireRepository_resolved {value : Json} {field name : String}
    (h : requireRepository value field = .ok name) :
    normalizeRepository (.str name) = .ok (some name) := by
  obtain ⟨found, hfound, h⟩ := Py.bind_eq_ok_iff.mp h
  cases found with
  | none => exact absurd h (by simp)
  | some found =>
      obtain rfl := Except.ok.inj h
      exact normalizeRepository_of_resolved hfound

theorem isInstant_sortKeys {value : Json} {allowNone : Bool} :
    isInstant value.sortKeys allowNone = isInstant value allowNone := by
  cases value <;> simp [isInstant]

theorem hasEvidenceStatus_sortKeys {entry : Fields} (h : hasEvidenceStatus entry = .ok true) :
    hasEvidenceStatus (Fields.sortKeys entry) = .ok true := by
  obtain ⟨status, hstatus, hmember⟩ := inSet_eq_true_iff.mp h
  apply inSet_eq_true_iff.mpr
  refine ⟨status, hstatus, ?_⟩
  rw [← @Json.sortKeys_eq_str _ status] at hmember
  rw [← hmember, member, member, Fields.get?_sortKeys, Fields.get_sortKeys]
  cases Fields.get? entry "status" <;> rfl

/-- The members of an observation before its id, with what was checked. -/
theorem observationBody_cases (h : observationBody recordId now spec = .ok body) :
    Fields.keys body = ["schema", "version", "kind", "pressureId", "repository", "observedAt",
        "sourceRef", "agent", "runId", "languageProfile", "compiler", "summary", "reproduction",
        "evidence", "workaround", "metadata"] ∧
      Fields.get body "schema" = .str observationSchema ∧
      Fields.get body "version" = .str pressureVersion ∧
      Fields.get body "pressureId" = .str recordId ∧
      (∃ name, Fields.get body "repository" = .str name ∧
        normalizeRepository (.str name) = .ok (some name)) ∧
      isInstant (Fields.get body "observedAt") true = true ∧
      (∃ reproduction, member spec "reproduction" (.obj []) = .obj reproduction ∧
        Fields.get body "reproduction" = .obj reproduction ∧
        inSet (member reproduction "status" (.str "UNKNOWN")) evidenceStatuses = .ok true) ∧
      ∃ items, Fields.get? body "evidence" = some (.arr items) ∧
        ∀ item ∈ items, ∃ entry, item = .obj entry ∧ hasEvidenceStatus entry = .ok true := by
  unfold observationBody at h
  obtain ⟨repository, hrepository, h⟩ := Py.bind_eq_ok_iff.mp h
  obtain ⟨_, hinstant, h⟩ := Py.bind_eq_ok_iff.mp h
  cases hreproduction : member spec "reproduction" (.obj []) with
  | obj reproduction =>
      rw [hreproduction] at h
      obtain ⟨known, hknown, h⟩ := Py.bind_eq_ok_iff.mp h
      obtain ⟨_, hraise, h⟩ := Py.bind_eq_ok_iff.mp h
      obtain ⟨evidence, -, h⟩ := Py.bind_eq_ok_iff.mp h
      obtain ⟨checked, hchecked, h⟩ := Py.bind_eq_ok_iff.mp h
      obtain ⟨summary, -, h⟩ := Py.bind_eq_ok_iff.mp h
      obtain rfl := Except.ok.inj h
      rw [raiseIf_eq_ok_iff] at hinstant hraise
      have hstatus : known = true := by simpa using hraise
      rw [hstatus] at hknown
      refine ⟨rfl, rfl, rfl, rfl, ⟨repository, rfl, requireRepository_resolved hrepository⟩, ?_,
        ⟨reproduction, rfl, rfl, hknown⟩, evidence, rfl, ?_⟩
      · simpa [Fields.get, Fields.get?] using hinstant
      · intro item hitem
        obtain ⟨index, hindex, rfl⟩ := List.getElem_of_mem hitem
        have hmem : (index, evidence[index]) ∈ evidence.mapIdx Prod.mk := by
          rw [List.mem_mapIdx]
          exact ⟨index, hindex, rfl⟩
        obtain ⟨_, -, hentry⟩ := collect_returns hchecked hmem
        cases hvalue : evidence[index] with
        | obj entry =>
            rw [hvalue] at hentry
            obtain ⟨_, -, hentry⟩ := Py.bind_eq_ok_iff.mp hentry
            obtain ⟨known, hknown, hentry⟩ := Py.bind_eq_ok_iff.mp hentry
            have hstated : known = true := by simpa using raiseIf_eq_ok_iff.mp hentry
            exact ⟨entry, rfl, hstated ▸ hknown⟩
        | null | bool _ | int _ | decimal _ | str _ | arr _ =>
            rw [hvalue] at hentry
            exact absurd hentry (by simp [checkEvidenceEntry])
  | null | bool _ | int _ | decimal _ | str _ | arr _ =>
      rw [hreproduction] at h
      exact absurd h (by simp)

theorem newObservation_cases (h : newObservation recordId now spec = .ok entry) :
    ∃ body, observationBody recordId now spec = .ok body ∧
      entry.1 = (member spec "id" (.str (observationId recordId body))).pyStr ∧
      isObservationId entry.1 = true ∧
      entry.2 = withDigest (Fields.set body "id" (.str entry.1)) := by
  obtain ⟨body, hbody, h⟩ := Py.bind_eq_ok_iff.mp h
  obtain ⟨_, hshape, h⟩ := Py.bind_eq_ok_iff.mp h
  obtain rfl := Except.ok.inj h
  exact ⟨body, hbody, rfl, by simpa using raiseIf_eq_ok_iff.mp hshape, rfl⟩

/-- The members of a written observation other than its id and digest. -/
theorem get?_written {key : String} {id : Json} (hid : "id" ≠ key) (hdigest : "contentDigest" ≠ key) :
    Fields.get? (Fields.sortKeys (withDigest (Fields.set body "id" id))) key =
      (Fields.get? body key).map Json.sortKeys := by
  rw [Fields.get?_sortKeys, withDigest, Fields.get?_set, if_neg hdigest, Fields.get?_set, if_neg hid]

theorem get_written {key : String} {id : Json} (hid : "id" ≠ key) (hdigest : "contentDigest" ≠ key) :
    Fields.get (Fields.sortKeys (withDigest (Fields.set body "id" id))) key =
      (Fields.get body key).sortKeys := by
  rw [Fields.get, get?_written hid hdigest, Fields.get]
  cases Fields.get? body key <;> rfl

theorem get_id_written {id : String} :
    Fields.get (Fields.sortKeys (withDigest (Fields.set body "id" (.str id)))) "id" = .str id := by
  rw [Fields.get_sortKeys, withDigest, Fields.get, Fields.get?_set, if_neg (by decide),
    Fields.get?_set, if_pos rfl]
  rfl

/-- The digest and the id are those of the body. -/
theorem erase_written (hkeys : "contentDigest" ∉ Fields.keys body) {id : Json} :
    Fields.erase (Fields.sortKeys (withDigest (Fields.set body "id" id))) "contentDigest" =
      Fields.sortKeys (Fields.set body "id" id) := by
  have hmissing : "contentDigest" ∉ Fields.keys (Fields.set body "id" id) := by
    rw [Fields.mem_keys_set]
    exact fun h => h.elim hkeys (by decide)
  rw [Fields.erase_sortKeys, withDigest, Fields.erase_set, Fields.erase_of_not_mem hmissing]

theorem hashDocument_sortKeys (document : Fields) :
    hashDocument (Fields.sortKeys document) = hashDocument document := by
  rw [hashDocument, ← Json.sortKeys_obj_eq, canonicalJson_sortKeys, hashDocument]

theorem observationId_sortKeys (pressure : String) (value : Fields) :
    observationId pressure (Fields.sortKeys value) = observationId pressure value := by
  rw [observationId, shortHash, ← Json.sortKeys_obj_eq, canonicalJson_sortKeys, observationId,
    shortHash]

theorem isObservation_of_new (h : newObservation recordId now spec = .ok entry) :
    IsObservation recordId entry.1 (Fields.sortKeys entry.2) := by
  obtain ⟨body, hbody, -, -, hentry⟩ := newObservation_cases h
  obtain ⟨-, -, -, hpressure, ⟨name, hname, hresolved⟩, hinstant, ⟨reproduction, -, hreproduction, -⟩,
    items, hitems, hevidence⟩ := observationBody_cases hbody
  rw [hentry]
  refine ⟨?_, get_id_written, ⟨name, ?_, hresolved⟩, ?_, ⟨Fields.sortKeys reproduction, ?_⟩,
    ⟨items.map Json.sortKeys, ?_, ?_⟩⟩
  · rw [get_written (by decide) (by decide), hpressure, Json.sortKeys_str]
  · rw [get_written (by decide) (by decide), hname, Json.sortKeys_str]
  · rwa [get_written (by decide) (by decide), isInstant_sortKeys]
  · rw [get_written (by decide) (by decide), hreproduction, Json.sortKeys_obj_eq]
  · rw [get?_written (by decide) (by decide), hitems, Option.map_some, Json.sortKeys_arr]
  · intro item hitem
    obtain ⟨original, horiginal, rfl⟩ := List.mem_map.mp hitem
    obtain ⟨members, rfl, hstatus⟩ := hevidence original horiginal
    exact ⟨Fields.sortKeys members, Json.sortKeys_obj_eq members, hasEvidenceStatus_sortKeys hstatus⟩

/-- A new observation passes its checks when its id is derived and its status
given. -/
theorem checkObservation_iff {records : List (String × Fields)}
    (h : newObservation recordId now spec = .ok entry) (hrecord : recordId ∈ Fields.keys records) :
    checkObservation records entry.1 (Fields.sortKeys entry.2) = .ok [] ↔
      DerivesId now recordId spec ∧ StatesStatus spec := by
  obtain ⟨hpressureId, hid, ⟨name, hname, hresolved⟩, hinstant, ⟨reproduction, hreproduction⟩, items,
    hitems, hevidence⟩ := isObservation_of_new h
  obtain ⟨body, hbody, hnamed, hshape, hentry⟩ := newObservation_cases h
  obtain ⟨hkeys, hschema, hversion, -, -, -, ⟨stated, hstated, hgiven, hknown⟩, -⟩ :=
    observationBody_cases hbody
  have hdigest : "contentDigest" ∉ Fields.keys body := by
    rw [hkeys]
    decide
  have hnoId : "id" ∉ Fields.keys body := by
    rw [hkeys]
    decide
  have herase : Fields.erase (Fields.sortKeys entry.2) "contentDigest" =
      Fields.sortKeys (Fields.set body "id" (.str entry.1)) := by
    rw [hentry, erase_written hdigest]
  have hderived : entry.1 = observationId recordId body ↔ DerivesId now recordId spec := by
    rw [hnamed, member]
    cases hget : Fields.get? spec "id" with
    | none => simp [DerivesId, hget]
    | some id =>
        rw [Option.getD_some]
        constructor
        · intro heq other otherBody hother hotherBody
          rw [hget, Option.some_inj] at hother
          rw [hbody] at hotherBody
          rw [← hother, ← Except.ok.inj hotherBody, heq]
        · intro hderives
          exact hderives id body hget hbody
  have hstatus : (∃ text ∈ evidenceStatuses,
      Fields.get (Fields.sortKeys stated) "status" = .str text) ↔ StatesStatus spec := by
    rw [Fields.get_sortKeys]
    constructor
    · rintro ⟨text, -, htext⟩ other hother
      rw [hstated] at hother
      obtain rfl := Json.obj.inj hother
      have hget := Fields.get?_of_get (Json.sortKeys_eq_str.mp htext) (by simp)
      rw [Fields.has, hget]
      rfl
    · intro hstates
      obtain ⟨text, htext, hmember⟩ := inSet_eq_true_iff.mp hknown
      obtain ⟨value, hvalue⟩ := Option.isSome_iff_exists.mp (hstates stated hstated)
      rw [member, hvalue, Option.getD_some] at hmember
      refine ⟨text, htext, ?_⟩
      rw [Fields.get, hvalue, Option.getD_some, hmember, Json.sortKeys_str]
  have hreproduced : reproduction = Fields.sortKeys stated := by
    rw [hentry, get_written (by decide) (by decide), hgiven, Json.sortKeys_obj_eq] at hreproduction
    exact (Json.obj.inj hreproduction).symm
  have hidCheck : ∀ path, checkObservationId (Fields.sortKeys entry.2) path = .ok [] ↔
      entry.1 = observationId recordId body := by
    intro path
    rw [checkObservationId, hid, hpressureId]
    dsimp only
    rw [reportIf_eq_nil_iff, Fields.erase_erase, herase, Fields.erase_sortKeys, Fields.erase_set,
      Fields.erase_of_not_mem hnoId, observationId_sortKeys]
    simp
  have hreproductionCheck : ∀ path, checkReproduction (Fields.sortKeys entry.2) path = .ok [] ↔
      ∃ text ∈ evidenceStatuses, Fields.get (Fields.sortKeys stated) "status" = .str text := by
    intro path
    rw [checkReproduction, hreproduction, hreproduced]
    dsimp only
    rw [Py.bind_eq_ok_iff, ← inSet_eq_true_iff]
    constructor
    · rintro ⟨known, hknown, hreport⟩
      rw [reportIf_eq_nil_iff, Bool.not_eq_false'] at hreport
      rw [hknown, hreport]
    · intro hknown
      exact ⟨true, hknown, by simp⟩
  have hfirst : ∀ path, concatChecks
      (commonChecks (Fields.sortKeys entry.2) observationSchema path "observation" "observation" ++
        [reportIf (Fields.get (Fields.sortKeys entry.2) "id" ≠ .str entry.1 ||
            !isObservationId entry.1) "INVALID_OBSERVATION_ID" path
            "observation id and filename are invalid",
          checkObservationId (Fields.sortKeys entry.2) path,
          (do
            let known ← isNameIn (Fields.get (Fields.sortKeys entry.2) "pressureId") records
            reportIf (!known) "DANGLING_OBSERVATION" path "observation points to a missing pressure"),
          reportUnlessRepository (Fields.get (Fields.sortKeys entry.2) "repository")
            (path ++ ".repository") "observation repository is not known",
          reportIf (!isInstant (Fields.get (Fields.sortKeys entry.2) "observedAt") true)
            "INVALID_TIMESTAMP" (path ++ ".observedAt") "timestamp must be UTC RFC3339 or null",
          checkReproduction (Fields.sortKeys entry.2) path]) = .ok [] ↔
      entry.1 = observationId recordId body ∧
        ∃ text ∈ evidenceStatuses, Fields.get (Fields.sortKeys stated) "status" = .str text := by
    intro path
    have hschemas : Fields.get (Fields.sortKeys entry.2) "schema" = .str observationSchema ∧
        Fields.get (Fields.sortKeys entry.2) "version" = .str pressureVersion := by
      rw [hentry, get_written (by decide) (by decide), get_written (by decide) (by decide), hschema,
        hversion]
      exact ⟨rfl, rfl⟩
    have hdigests : Fields.get (Fields.sortKeys entry.2) "contentDigest" =
        .str (hashDocument (Fields.erase (Fields.sortKeys entry.2) "contentDigest")) := by
      rw [herase, hashDocument_sortKeys, hentry, withDigest, Fields.get_sortKeys, Fields.get,
        Fields.get?_set, if_pos rfl, Fields.erase_of_not_mem]
      · rfl
      · rw [Fields.mem_keys_set]
        exact fun h => h.elim hdigest (by decide)
    have hknownRecord : isNameIn (.str recordId) records = .ok true :=
      inSet_eq_true_iff.mpr ⟨recordId, hrecord, rfl⟩
    rw [concatChecks_eq_nil_iff, ← hidCheck path, ← hreproductionCheck path]
    simp only [commonChecks, List.cons_append, List.nil_append, List.forall_mem_cons,
      reportIf_eq_nil_iff, hschemas, hdigests, hid, hpressureId, hname, hinstant, hshape, hknownRecord,
      reportUnlessRepository, hresolved, Py.bind_eq_ok_iff]
    simp
  have hsecond : ∀ path, concatChecks (items.mapIdx fun index item => checkEvidence path index item) =
      .ok [] := by
    intro path
    rw [concatChecks_eq_nil_iff]
    intro check hcheck
    obtain ⟨index, hindex, rfl⟩ := List.mem_mapIdx.mp hcheck
    obtain ⟨members, hmembers, hknownStatus⟩ := hevidence _ (List.getElem_mem hindex)
    rw [hmembers, checkEvidence, hknownStatus]
    exact reportIf_eq_nil_iff.mpr rfl
  have hiterate : iterate (member (Fields.sortKeys entry.2) "evidence" (.arr [])) = .ok items := by
    rw [member, hitems]
    rfl
  rw [← hderived, ← hstatus]
  unfold checkObservation
  constructor
  · intro hchecked
    obtain ⟨first, hchecks, hchecked⟩ := Py.bind_eq_ok_iff.mp hchecked
    obtain ⟨evidence, -, hchecked⟩ := Py.bind_eq_ok_iff.mp hchecked
    obtain ⟨second, -, hchecked⟩ := Py.bind_eq_ok_iff.mp hchecked
    obtain ⟨rfl, -⟩ := List.append_eq_nil_iff.mp (Except.ok.inj hchecked)
    exact (hfirst _).mp hchecks
  · intro hpasses
    apply Py.bind_eq_ok_iff.mpr
    refine ⟨[], (hfirst _).mpr hpasses, Py.bind_eq_ok_iff.mpr ⟨items, hiterate, ?_⟩⟩
    exact Py.bind_eq_ok_iff.mpr ⟨[], hsecond _, rfl⟩

end Written

end MncsCommons.Pressure
