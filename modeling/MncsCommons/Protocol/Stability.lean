/-
# What storing does to an envelope

A stored envelope is read back with its keys in order, and a canonical copy also
has its unordered arrays sorted.  Validity survives both: every check reads
object members through lookups, and the items of an unordered array are checked
one by one.
-/

import MncsCommons.Protocol.Validation

namespace MncsCommons.Protocol

open MncsCommons.Data

/-! ## When a check reports nothing -/

@[simp]
theorem checkObject_eq_nil_iff {value : Json} {path : String}
    {check : Fields → Py (List Diagnostic)} :
    checkObject value path check = .ok [] ↔ ∃ fields, value = .obj fields ∧ check fields = .ok [] := by
  cases value <;> simp [checkObject, Json.obj?]

@[simp]
theorem requireString_eq_nil_iff {value : Json} {path : String} :
    requireString value path = .ok [] ↔ isText value = true := by
  simp [requireString]

theorem checkKeys_eq_nil_iff {value : Fields} {allowed : List String} {path : String} :
    checkKeys value allowed path = .ok [] ↔ ∀ key ∈ Fields.keys value, key ∈ allowed := by
  simp [checkKeys]

/-- Items are checked one by one, so only what each one is matters when the
outcome of a check does not depend on its position. -/
theorem concatChecks_mapIdx_eq_nil_iff {items : List Json}
    {check : Nat → Json → Py (List Diagnostic)} {ok : Json → Prop}
    (h : ∀ index item, check index item = .ok [] ↔ ok item) :
    concatChecks (items.mapIdx check) = .ok [] ↔ ∀ item ∈ items, ok item := by
  rw [concatChecks_eq_nil_iff, List.forall_mem_iff_forall_getElem,
    List.forall_mem_iff_forall_getElem]
  simp [h]

theorem checkItems_eq_nil_iff {value : Json} {path : String}
    {check : String → Json → Py (List Diagnostic)} {ok : Json → Prop}
    (h : ∀ path item, check path item = .ok [] ↔ ok item) :
    checkItems value path check = .ok [] ↔
      ∃ items, value = .arr items ∧ ∀ item ∈ items, ok item := by
  cases value <;>
    simp [checkItems, Json.arr?, concatChecks_mapIdx_eq_nil_iff fun index => h (itemPath path index)]

/-- Entries that `value or []` iterates over are clean when they are well-formed
objects; keys and characters are not objects. -/
theorem checkEntries_eq_nil_iff {value : Json} {path : String}
    {check : String → Fields → Py (List Diagnostic)} {ok : Fields → Prop}
    (h : ∀ path fields, check path fields = .ok [] ↔ ok fields) :
    checkEntries value path check = .ok [] ↔
      value.truthy = true →
        ∃ items, value = .arr items ∧ ∀ item ∈ items, ∃ fields, item = .obj fields ∧ ok fields := by
  have hitems : ∀ items : List Json,
      concatChecks (items.mapIdx fun index item =>
        checkObject item (itemPath path index) (check (itemPath path index))) = .ok [] ↔
      ∀ item ∈ items, ∃ fields, item = .obj fields ∧ ok fields := fun items =>
    concatChecks_mapIdx_eq_nil_iff fun index item => by simp [h]
  have hstrings : ∀ {α : Type} (items : List α) (f : α → String), items ≠ [] →
      ¬ ∀ item ∈ items.map (fun x => Json.str (f x)), ∃ fields, item = .obj fields ∧ ok fields := by
    intro α items f hne hall
    obtain ⟨x, hx⟩ := List.exists_mem_of_ne_nil items hne
    obtain ⟨fields, hfields, -⟩ := hall (.str (f x)) (List.mem_map.mpr ⟨x, hx, rfl⟩)
    cases hfields
  rw [checkEntries, iterateOrEmpty]
  by_cases htruthy : value.truthy = true
  · rw [if_pos htruthy]
    cases value with
    | arr items => simp [iterate, bind, Except.bind, hitems, htruthy]
    | str text =>
        have hne : text.toList ≠ [] := by simpa [Json.truthy] using htruthy
        simp only [iterate, bind, Except.bind, hitems]
        exact ⟨fun hall => absurd hall (hstrings text.toList String.singleton hne),
          fun hvalue => by simpa using hvalue htruthy⟩
    | obj fields =>
        have hne : fields ≠ [] := by simpa [Json.truthy] using htruthy
        simp only [iterate, bind, Except.bind, hitems]
        exact ⟨fun hall => absurd hall (hstrings fields Prod.fst hne),
          fun hvalue => by simpa using hvalue htruthy⟩
    | _ => simp [iterate, bind, Except.bind, htruthy]
  · simp [htruthy, bind, Except.bind, concatChecks]

/-! ## Key order -/

theorem exists_sortKeys_eq_obj {value : Json} {p : Fields → Prop} :
    (∃ fields, value.sortKeys = .obj fields ∧ p fields) ↔
      ∃ fields, value = .obj fields ∧ p (Fields.sortKeys fields) := by
  cases value <;> simp

theorem exists_sortKeys_eq_arr {value : Json} {p : List Json → Prop} :
    (∃ items, value.sortKeys = .arr items ∧ p items) ↔
      ∃ items, value = .arr items ∧ p (items.map Json.sortKeys) := by
  cases value <;> simp

theorem checkObject_sortKeys {value : Json} {path : String}
    {check : Fields → Py (List Diagnostic)}
    (h : ∀ fields, check (Fields.sortKeys fields) = .ok [] ↔ check fields = .ok []) :
    checkObject value.sortKeys path check = .ok [] ↔ checkObject value path check = .ok [] := by
  rw [checkObject_eq_nil_iff, checkObject_eq_nil_iff, exists_sortKeys_eq_obj]
  simp [h]

@[simp]
theorem requireString_sortKeys (value : Json) (path : String) :
    requireString value.sortKeys path = requireString value path := by
  simp [requireString]

@[simp]
theorem checkKeys_sortKeys {value : Fields} {allowed : List String} {path : String} :
    checkKeys (Fields.sortKeys value) allowed path = .ok [] ↔
      checkKeys value allowed path = .ok [] := by
  simp only [checkKeys_eq_nil_iff, (Fields.keys_sortKeys_perm value).mem_iff]

@[simp]
theorem checkTimestamp_sortKeys (value : Json) (path : String) :
    checkTimestamp value.sortKeys path = checkTimestamp value path := by
  simp [checkTimestamp]

@[simp]
theorem validDigest_sortKeys (value : Json) : validDigest value.sortKeys = validDigest value := by
  simp [validDigest]

@[simp]
theorem isStringList_sortKeys (value : Json) :
    isStringList value.sortKeys = isStringList value := by
  cases value <;> simp [isStringList, Json.arr?, Function.comp_def]

@[simp]
theorem revisionValid_sortKeys (value : Json) :
    revisionValid value.sortKeys = revisionValid value := by
  cases value <;> simp [revisionValid]

@[simp]
theorem isBool_sortKeys (value : Json) : isBool value.sortKeys = isBool value := by
  cases value <;> simp [isBool]

@[simp]
theorem checkMetadata_sortKeys {value : Json} :
    checkMetadata value.sortKeys = .ok [] ↔ checkMetadata value = .ok [] := by
  refine checkObject_sortKeys fun metadata => ?_
  simp [concatChecks_eq_nil_iff, exists_sortKeys_eq_obj]

/-- An evidence item without faults. -/
def EvidenceItemOk (item : Json) : Prop :=
  ∃ fields, item = .obj fields ∧ isText (Fields.get fields "id") = true ∧
    (Fields.has fields "status" = true →
      ∃ s ∈ resultStatuses, Fields.get fields "status" = .str s)

theorem checkEvidenceItem_eq_nil_iff (path : String) (item : Json) :
    checkEvidenceItem path item = .ok [] ↔ EvidenceItemOk item := by
  rw [checkEvidenceItem, checkObject_eq_nil_iff, EvidenceItemOk]
  refine exists_congr fun fields => and_congr_right fun _ => ?_
  simp only [concatChecks_eq_nil_iff, List.forall_mem_cons, requireString_eq_nil_iff]
  cases Fields.has fields "status" <;> simp [reportUnlessIn_eq_nil_iff]

theorem EvidenceItemOk.sortKeys_iff (item : Json) :
    EvidenceItemOk item.sortKeys ↔ EvidenceItemOk item := by
  simp [EvidenceItemOk, exists_sortKeys_eq_obj]

/-- A relationship without faults, of a record with the given identifier. -/
def RelationshipOk (recordId item : Json) : Prop :=
  ∃ fields, item = .obj fields ∧
    (∃ known, inSet (Fields.get fields "type") relationTypes = .ok known ∧
      (known = true ∨ isExtensionRelation (Fields.get fields "type") = true)) ∧
    isText (Fields.get fields "target") = true ∧
    ¬ (recordId.truthy = true ∧ (Fields.get fields "target").pyEq recordId = true)

theorem checkRelationship_eq_nil_iff (recordId : Json) (path : String) (item : Json) :
    checkRelationship recordId path item = .ok [] ↔ RelationshipOk recordId item := by
  rw [checkRelationship, checkObject_eq_nil_iff, RelationshipOk]
  refine exists_congr fun fields => and_congr_right fun _ => ?_
  simp only [concatChecks_eq_nil_iff, List.forall_mem_cons, requireString_eq_nil_iff]
  cases inSet (Fields.get fields "type") relationTypes with
  | error error => simp [bind, Except.bind]
  | ok known => cases known <;> simp [bind, Except.bind]

@[simp]
theorem isExtensionRelation_sortKeys (value : Json) :
    isExtensionRelation value.sortKeys = isExtensionRelation value := by
  simp [isExtensionRelation]

theorem RelationshipOk.sortKeys_iff (recordId item : Json) :
    RelationshipOk recordId.sortKeys item.sortKeys ↔ RelationshipOk recordId item := by
  simp [RelationshipOk, exists_sortKeys_eq_obj]

theorem checkEvidence_eq_nil_iff {value : Json} {path : String} :
    checkEvidence value path = .ok [] ↔
      ∃ items, value = .arr items ∧ ∀ item ∈ items, EvidenceItemOk item :=
  checkItems_eq_nil_iff checkEvidenceItem_eq_nil_iff

theorem checkRelationships_eq_nil_iff {value recordId : Json} :
    checkRelationships value recordId = .ok [] ↔
      ∃ items, value = .arr items ∧ ∀ item ∈ items, RelationshipOk recordId item :=
  checkItems_eq_nil_iff (checkRelationship_eq_nil_iff recordId)

@[simp]
theorem checkEvidence_sortKeys {value : Json} {path : String} :
    checkEvidence value.sortKeys path = .ok [] ↔ checkEvidence value path = .ok [] := by
  simp [checkEvidence_eq_nil_iff, exists_sortKeys_eq_arr, EvidenceItemOk.sortKeys_iff]

@[simp]
theorem checkRelationships_sortKeys {value recordId : Json} :
    checkRelationships value.sortKeys recordId.sortKeys = .ok [] ↔
      checkRelationships value recordId = .ok [] := by
  simp [checkRelationships_eq_nil_iff, exists_sortKeys_eq_arr, RelationshipOk.sortKeys_iff]

@[simp]
theorem checkStringPair_sortKeys {value : Json} {path first second : String} :
    checkStringPair value.sortKeys path first second = .ok [] ↔
      checkStringPair value path first second = .ok [] := by
  refine checkObject_sortKeys fun fields => ?_
  simp [concatChecks_eq_nil_iff]

@[simp]
theorem checkScope_sortKeys {value : Json} :
    checkScope value.sortKeys = .ok [] ↔ checkScope value = .ok [] := by
  refine checkObject_sortKeys fun scope => ?_
  simp [concatChecks_eq_nil_iff]

@[simp]
theorem checkProvenance_sortKeys {value : Json} :
    checkProvenance value.sortKeys = .ok [] ↔ checkProvenance value = .ok [] := by
  refine checkObject_sortKeys fun provenance => ?_
  simp

@[simp]
theorem checkConfidence_sortKeys {value : Json} :
    checkConfidence value.sortKeys = .ok [] ↔ checkConfidence value = .ok [] := by
  refine checkObject_sortKeys fun confidence => ?_
  simp [concatChecks_eq_nil_iff]

@[simp]
theorem checkSecurity_sortKeys {value : Json} :
    checkSecurity value.sortKeys = .ok [] ↔ checkSecurity value = .ok [] := by
  refine checkObject_sortKeys fun security => ?_
  simp [concatChecks_eq_nil_iff]

@[simp]
theorem checkLifecycle_sortKeys {value : Json} :
    checkLifecycle value.sortKeys = .ok [] ↔ checkLifecycle value = .ok [] := by
  refine checkObject_sortKeys fun lifecycle => ?_
  simp [concatChecks_eq_nil_iff]

@[simp]
theorem recordIdOf_sortKeys (value : Fields) :
    recordIdOf (Fields.sortKeys value) = (recordIdOf value).sortKeys := by
  simp only [recordIdOf, Fields.get_sortKeys, Json.obj?_sortKeys]
  cases (Fields.get value "metadata").obj? <;> simp

@[simp]
theorem checkReproduction_sortKeys {value : Json} :
    checkReproduction value.sortKeys = .ok [] ↔ checkReproduction value = .ok [] := by
  by_cases hnull : value = .null
  · simp [hnull]
  · rw [checkReproduction, if_neg (by simpa using hnull), checkReproduction, if_neg hnull]
    exact checkObject_sortKeys fun reproduction => by simp

@[simp]
theorem checkStatement_sortKeys {value : Json} :
    checkStatement value.sortKeys = .ok [] ↔ checkStatement value = .ok [] :=
  checkObject_sortKeys fun statement => by simp

theorem commonRecordChecks_sortKeys {value : Fields} :
    commonRecordChecks (Fields.sortKeys value) = .ok [] ↔ commonRecordChecks value = .ok [] := by
  simp only [commonRecordChecks, concatChecks_eq_nil_iff, List.forall_mem_cons,
    Fields.get_sortKeys, checkMetadata_sortKeys, checkStringPair_sortKeys, checkScope_sortKeys,
    checkStatement_sortKeys, checkEvidence_sortKeys, isStringList_sortKeys, checkProvenance_sortKeys,
    checkConfidence_sortKeys, checkSecurity_sortKeys, checkLifecycle_sortKeys, recordIdOf_sortKeys,
    checkRelationships_sortKeys, checkReproduction_sortKeys]

/-! ### Details -/

/-- A value that normalises as a producer reference. -/
def ReferenceOk (value : Json) : Prop :=
  ∃ fields, value = .obj fields ∧ (normalizeProducerReference fields).isOk = true

theorem checkFamilyReference_eq_nil_iff {value : Json} {path : String} :
    checkFamilyReference value path = .ok [] ↔ ReferenceOk value := by
  cases value with
  | obj fields =>
      cases h : normalizeProducerReference fields with
      | ok reference =>
          simp [checkFamilyReference, ReferenceOk, Json.obj?, h, Except.isOk, Except.toBool]
      | error error =>
          cases error <;>
            simp [checkFamilyReference, ReferenceOk, Json.obj?, h, Except.isOk, Except.toBool]
  | _ => simp [checkFamilyReference, ReferenceOk, Json.obj?]

@[simp]
theorem ReferenceOk.sortKeys_iff (value : Json) : ReferenceOk value.sortKeys ↔ ReferenceOk value := by
  rw [ReferenceOk, ReferenceOk, exists_sortKeys_eq_obj]
  refine exists_congr fun fields => and_congr_right fun _ => ?_
  rw [normalizeProducerReference_sortKeys]
  cases normalizeProducerReference fields <;> simp [Except.isOk, Except.toBool]

theorem checkReferenceEntry_eq_nil_iff (path : String) (entry : Fields) :
    checkReferenceEntry path entry = .ok [] ↔
      isText (Fields.get entry "relation") = true ∧ ReferenceOk (Fields.get entry "reference") := by
  simp [checkReferenceEntry, concatChecks_eq_nil_iff, checkFamilyReference_eq_nil_iff]

theorem checkActorEntry_eq_nil_iff (path : String) (actor : Fields) :
    checkActorEntry path actor = .ok [] ↔
      isText (Fields.get actor "role") = true ∧ ReferenceOk (Fields.get actor "reference") ∧
        (Fields.get actor "tools" = .null ∨ isStringList (Fields.get actor "tools") = true) := by
  rw [or_iff_not_imp_left]
  simp [checkActorEntry, concatChecks_eq_nil_iff, checkFamilyReference_eq_nil_iff]

theorem checkEntries_sortKeys {value : Json} {path : String}
    {check : String → Fields → Py (List Diagnostic)} {ok : Fields → Prop}
    (h : ∀ path fields, check path fields = .ok [] ↔ ok fields)
    (hsort : ∀ fields, ok (Fields.sortKeys fields) ↔ ok fields) :
    checkEntries value.sortKeys path check = .ok [] ↔ checkEntries value path check = .ok [] := by
  simp [checkEntries_eq_nil_iff h, exists_sortKeys_eq_arr, exists_sortKeys_eq_obj, hsort]

@[simp]
theorem checkReferenceEntries_sortKeys {value : Json} {path : String} :
    checkEntries value.sortKeys path checkReferenceEntry = .ok [] ↔
      checkEntries value path checkReferenceEntry = .ok [] :=
  checkEntries_sortKeys checkReferenceEntry_eq_nil_iff fun fields => by simp

@[simp]
theorem checkActorEntries_sortKeys {value : Json} {path : String} :
    checkEntries value.sortKeys path checkActorEntry = .ok [] ↔
      checkEntries value path checkActorEntry = .ok [] :=
  checkEntries_sortKeys checkActorEntry_eq_nil_iff fun fields => by simp

@[simp]
theorem checkFamilyReference_sortKeys {value : Json} {path : String} :
    checkFamilyReference value.sortKeys path = .ok [] ↔
      checkFamilyReference value path = .ok [] := by
  simp [checkFamilyReference_eq_nil_iff]

theorem checkConceptExperiment_sortKeys {details : Fields} :
    checkConceptExperiment (Fields.sortKeys details) = .ok [] ↔
      checkConceptExperiment details = .ok [] := by
  simp [checkConceptExperiment, concatChecks_eq_nil_iff]

theorem checkFailureClassification_sortKeys {details : Fields} :
    checkFailureClassification (Fields.sortKeys details) = .ok [] ↔
      checkFailureClassification details = .ok [] := by
  have hitems : ∀ value : Json, ∀ path : String,
      checkItems value path (fun path item => checkFamilyReference item path) = .ok [] ↔
        ∃ items, value = .arr items ∧ ∀ item ∈ items, ReferenceOk item := fun value path =>
    checkItems_eq_nil_iff fun _ _ => checkFamilyReference_eq_nil_iff
  simp [checkFailureClassification, concatChecks_eq_nil_iff, hitems, exists_sortKeys_eq_arr]

theorem checkReplication_sortKeys {details : Fields} :
    checkReplication (Fields.sortKeys details) = .ok [] ↔ checkReplication details = .ok [] := by
  simp only [checkReplication, concatChecks_eq_nil_iff, List.forall_mem_cons, Fields.get_sortKeys,
    Fields.has_sortKeys, Json.str?_sortKeys, Json.isArr_sortKeys]
  split <;> simp

theorem checkKindDetails_sortKeys {value other : Fields}
    (h : ReadsSorted ["kind", "details", "metadata", "security"] value other) (details : Fields)
    (kind : RecordKind) :
    checkKindDetails other (Fields.sortKeys details) kind = .ok [] ↔
      checkKindDetails value details kind = .ok [] := by
  cases kind <;>
    simp [checkKindDetails, concatChecks_eq_nil_iff, checkReplication_sortKeys,
      checkConceptExperiment_sortKeys, checkFailureClassification_sortKeys,
      validateWorkRecord_of_readsSorted h]

theorem checkDetails_sortKeys {value other : Fields}
    (h : ReadsSorted ["kind", "details", "metadata", "security"] value other) (details : Fields)
    (kind : RecordKind) (required : List String) :
    checkDetails other (Fields.sortKeys details) kind required = .ok [] ↔
      checkDetails value details kind required = .ok [] := by
  simp [checkDetails, concatChecks_eq_nil_iff, checkKindDetails_sortKeys h]

/-! ### Envelopes -/

theorem checkApiVersion_eq_nil_iff {value : Fields} :
    checkApiVersion value = .ok [] ↔ Fields.get value "apiVersion" = .str apiVersion := by
  rw [checkApiVersion, reportIf_eq_nil_iff, ← Json.pyStr_eq_iff (by decide)]
  simp

theorem readsSorted_sortKeys (keys : List String) (value : Fields) :
    ReadsSorted keys value (Fields.sortKeys value) := fun key _ => Fields.get?_sortKeys value key

theorem checkRecordDetails_sortKeys {value other : Fields}
    (h : ReadsSorted ["kind", "details", "metadata", "security"] value other) (details : Fields) :
    checkRecordDetails other (Fields.sortKeys details) = .ok [] ↔
      checkRecordDetails value details = .ok [] := by
  have hkind : recordKindOf other = recordKindOf value := by
    rw [recordKindOf, h.get (by simp), Json.str?_sortKeys, recordKindOf]
  rw [checkRecordDetails, hkind, checkRecordDetails]
  cases recordKindOf value with
  | none => rfl
  | some kind =>
      cases hrequired : requiredDetails kind with
      | none => simp [hrequired]
      | some required => simpa [hrequired] using checkDetails_sortKeys h details kind required

theorem recordDiagnostics_sortKeys {value : Fields} :
    recordDiagnostics (Fields.sortKeys value) = .ok [] ↔ recordDiagnostics value = .ok [] := by
  have hdetails : ∀ details : Json,
      checkObject details.sortKeys "details" (checkRecordDetails (Fields.sortKeys value)) = .ok [] ↔
        checkObject details "details" (checkRecordDetails value) = .ok [] := by
    intro details
    rw [checkObject_eq_nil_iff, checkObject_eq_nil_iff, exists_sortKeys_eq_obj]
    simp only [checkRecordDetails_sortKeys (readsSorted_sortKeys _ value)]
  simp only [recordDiagnostics, concatChecks_eq_nil_iff, List.forall_mem_cons, checkKeys_sortKeys,
    checkApiVersion_eq_nil_iff, Fields.get_sortKeys, Json.sortKeys_eq_str,
    reportUnlessIn_sortKeys, checkDigestForm, Json.sortKeys_eq_null, validDigest_sortKeys,
    checkRequired, Fields.has_sortKeys, commonRecordChecks_sortKeys, ne_eq, hdetails]

@[simp]
theorem checkTarget_sortKeys {value : Json} :
    checkTarget value.sortKeys = .ok [] ↔ checkTarget value = .ok [] :=
  checkObject_sortKeys fun target => by simp [concatChecks_eq_nil_iff]

@[simp]
theorem checkTransition_sortKeys {value : Json} :
    checkTransition value.sortKeys = .ok [] ↔ checkTransition value = .ok [] :=
  checkObject_sortKeys fun transition => by simp [concatChecks_eq_nil_iff]

@[simp]
theorem checkAuthority_sortKeys {value : Json} :
    checkAuthority value.sortKeys = .ok [] ↔ checkAuthority value = .ok [] :=
  checkObject_sortKeys fun authority => by simp [concatChecks_eq_nil_iff]

theorem eventDiagnostics_sortKeys {value : Fields} :
    eventDiagnostics (Fields.sortKeys value) = .ok [] ↔ eventDiagnostics value = .ok [] := by
  simp only [eventDiagnostics, concatChecks_eq_nil_iff, List.forall_mem_cons, checkKeys_sortKeys,
    checkApiVersion_eq_nil_iff, Fields.get_sortKeys, Json.sortKeys_eq_str, Json.str?_sortKeys,
    checkRequired, Fields.has_sortKeys, checkMetadata_sortKeys, checkTarget_sortKeys,
    checkTransition_sortKeys, checkAuthority_sortKeys, checkEvidence_sortKeys, checkDigestForm, Json.sortKeys_eq_null, validDigest_sortKeys, ne_eq]

theorem checkDigest_eq_nil_iff {value : Fields} {check : Py (List Diagnostic)} :
    (check.bind fun diagnostics => checkDigest value diagnostics) = .ok [] ↔
      check = .ok [] ∧ (Fields.get value "contentDigest" = .null ∨
        Fields.get value "contentDigest" = .str (canonicalDigest value)) := by
  cases check with
  | error error => simp [Except.bind]
  | ok diagnostics =>
      by_cases hnil : diagnostics = []
      · simp [Except.bind, checkDigest, hnil, or_iff_not_imp_left]
      · simp [Except.bind, checkDigest, hnil]

/-- A valid record: no faults, and its own digest if it has one. -/
theorem validateRecord_eq_nil_iff {value : Fields} :
    validateRecord value = .ok [] ↔
      recordDiagnostics value = .ok [] ∧ (Fields.get value "contentDigest" = .null ∨
        Fields.get value "contentDigest" = .str (canonicalDigest value)) :=
  checkDigest_eq_nil_iff

/-- A valid event: no faults, and its own digest if it has one. -/
theorem validateEvent_eq_nil_iff {value : Fields} :
    validateEvent value = .ok [] ↔
      eventDiagnostics value = .ok [] ∧ (Fields.get value "contentDigest" = .null ∨
        Fields.get value "contentDigest" = .str (canonicalDigest value)) :=
  checkDigest_eq_nil_iff

theorem validateRecord_sortKeys {value : Fields} (hwf : (Json.obj value).wf = true) :
    validateRecord (Fields.sortKeys value) = .ok [] ↔ validateRecord value = .ok [] := by
  simp only [validateRecord_eq_nil_iff, recordDiagnostics_sortKeys, Fields.get_sortKeys,
    Json.sortKeys_eq_null, Json.sortKeys_eq_str, canonicalDigest_sortKeys hwf]

theorem validateEvent_sortKeys {value : Fields} (hwf : (Json.obj value).wf = true) :
    validateEvent (Fields.sortKeys value) = .ok [] ↔ validateEvent value = .ok [] := by
  simp only [validateEvent_eq_nil_iff, eventDiagnostics_sortKeys, Fields.get_sortKeys,
    Json.sortKeys_eq_null, Json.sortKeys_eq_str, canonicalDigest_sortKeys hwf]

/-! ## Canonical order -/

theorem get_canonicalizeFields (path : List String) (fields : Fields) (key : String) :
    Fields.get (canonicalizeFields path fields) key =
      canonicalize (path ++ [key]) (Fields.get fields key) := by
  rw [Fields.get, get?_canonicalizeFields, Fields.get]
  cases Fields.get? fields key <;> rfl

@[simp]
theorem has_canonicalizeFields (path : List String) (fields : Fields) (key : String) :
    Fields.has (canonicalizeFields path fields) key = Fields.has fields key := by
  simp [Fields.has, get?_canonicalizeFields]

theorem get_canonicalizeFields_of_inert {path : List String} {key : String}
    (h : Inert (path ++ [key])) (fields : Fields) :
    Fields.get (canonicalizeFields path fields) key = Fields.get fields key := by
  rw [get_canonicalizeFields, canonicalize_of_inert h]

theorem canonicalizeFields_of_inert {path : List String} (h : ∀ key, Inert (path ++ [key]))
    (fields : Fields) : canonicalizeFields path fields = fields := by
  rw [canonicalizeFields_eq_map]
  conv_rhs => rw [← List.map_id fields]
  refine List.map_congr_left fun field _ => ?_
  simp [canonicalize_of_inert (h field.1)]

theorem exists_canonicalize_eq_obj {path : List String} {value : Json} {p : Fields → Prop} :
    (∃ fields, canonicalize path value = .obj fields ∧ p fields) ↔
      ∃ fields, value = .obj fields ∧ p (canonicalizeFields path fields) := by
  cases value with
  | arr items => simp [canonicalize]
  | _ => simp

/-- A property of every item of an unordered array does not see its order. -/
theorem exists_canonicalize_eq_arr {path : List String} {value : Json} {ok : Json → Prop}
    (h : ∀ item, ok (canonicalize path item) ↔ ok item) :
    (∃ items, canonicalize path value = .arr items ∧ ∀ item ∈ items, ok item) ↔
      ∃ items, value = .arr items ∧ ∀ item ∈ items, ok item := by
  cases value with
  | arr items =>
      by_cases hpath : path ∈ unorderedArrayPaths
      · simp [canonicalize_arr_of_mem hpath, h]
      · simp [canonicalize_arr_of_not_mem hpath, h]
  | _ => simp

/-- Members of an item of a top-level unordered array lead to no further one. -/
theorem inert_below {key : String} (h : [key] ∈ unorderedArrayPaths) (inner : String) :
    Inert ([key] ++ [inner]) := by
  intro unordered hmem hleading
  simp only [unorderedArrayPaths, List.mem_cons, List.not_mem_nil, or_false, List.cons.injEq,
    and_true, reduceCtorEq, and_false] at h hmem
  rcases h with rfl | rfl | rfl | rfl <;>
    rcases hmem with rfl | rfl | rfl | rfl | rfl | rfl | rfl <;>
    simp [List.cons_prefix_cons] at hleading

theorem EvidenceItemOk.canonicalize_iff (item : Json) :
    EvidenceItemOk (canonicalize ["evidence"] item) ↔ EvidenceItemOk item := by
  rw [EvidenceItemOk, exists_canonicalize_eq_obj, EvidenceItemOk]
  simp only [canonicalizeFields_of_inert (inert_below (by decide : ["evidence"] ∈ unorderedArrayPaths))]

theorem RelationshipOk.canonicalize_iff (recordId item : Json) :
    RelationshipOk recordId (canonicalize ["relationships"] item) ↔
      RelationshipOk recordId item := by
  rw [RelationshipOk, exists_canonicalize_eq_obj, RelationshipOk]
  simp only [canonicalizeFields_of_inert (inert_below (by decide : ["relationships"] ∈ unorderedArrayPaths))]

theorem isStr_canonicalize (path : List String) (value : Json) :
    (canonicalize path value).isStr = value.isStr := by
  cases value with
  | arr items => simp [canonicalize, Json.isStr, Json.str?]
  | _ => simp [Json.isStr, Json.str?]

theorem isStringList_eq_true_iff {value : Json} :
    isStringList value = true ↔ ∃ items, value = .arr items ∧ ∀ item ∈ items, item.isStr = true := by
  cases value <;> simp [isStringList, Json.arr?]

theorem isStringList_canonicalize (path : List String) (value : Json) :
    isStringList (canonicalize path value) = isStringList value := by
  rw [Bool.eq_iff_iff, isStringList_eq_true_iff, isStringList_eq_true_iff]
  exact exists_canonicalize_eq_arr fun item => by rw [isStr_canonicalize]

theorem checkScope_canonicalize {value : Json} :
    checkScope (canonicalize ["scope"] value) = .ok [] ↔ checkScope value = .ok [] := by
  rw [checkScope, checkObject_eq_nil_iff, exists_canonicalize_eq_obj, checkScope,
    checkObject_eq_nil_iff]
  refine exists_congr fun scope => and_congr_right fun _ => ?_
  simp only [concatChecks_eq_nil_iff, List.forall_mem_cons, checkKeys_eq_nil_iff,
    keys_canonicalizeFields, has_canonicalizeFields,
    get_canonicalizeFields_of_inert (by decide : Inert (["scope"] ++ ["context"])),
    get_canonicalizeFields_of_inert (by decide : Inert (["scope"] ++ ["limitations"])),
    get_canonicalizeFields_of_inert (by decide : Inert (["scope"] ++ ["reviewAt"]))]

theorem checkProvenance_canonicalize {value : Json} :
    checkProvenance (canonicalize ["provenance"] value) = .ok [] ↔
      checkProvenance value = .ok [] := by
  rw [checkProvenance, checkObject_eq_nil_iff, exists_canonicalize_eq_obj, checkProvenance,
    checkObject_eq_nil_iff]
  simp only [get_canonicalizeFields_of_inert (by decide : Inert (["provenance"] ++ ["producer"]))]

theorem checkEvidence_canonicalize {value : Json} {path : String} :
    checkEvidence (canonicalize ["evidence"] value) path = .ok [] ↔
      checkEvidence value path = .ok [] := by
  rw [checkEvidence_eq_nil_iff, checkEvidence_eq_nil_iff]
  exact exists_canonicalize_eq_arr EvidenceItemOk.canonicalize_iff

theorem checkRelationships_canonicalize {value recordId : Json} :
    checkRelationships (canonicalize ["relationships"] value) recordId = .ok [] ↔
      checkRelationships value recordId = .ok [] := by
  rw [checkRelationships_eq_nil_iff, checkRelationships_eq_nil_iff]
  exact exists_canonicalize_eq_arr (RelationshipOk.canonicalize_iff recordId)

theorem get_canonFields (value : Fields) (key : String) :
    Fields.get (canonFields value) key = (canonicalize [key] (Fields.get value key)).sortKeys := by
  rw [canonFields, Fields.get_sortKeys, get_canonicalizeFields, List.nil_append]

theorem readsSorted_canonFields {keys : List String} (h : ∀ key ∈ keys, Inert [key])
    (value : Fields) : ReadsSorted keys value (canonFields value) := by
  intro key hkey
  rw [canonFields, Fields.get?_sortKeys, get?_canonicalizeFields, List.nil_append, Option.map_map]
  congr 1
  funext item
  simp [canonicalize_of_inert (h key hkey)]

theorem get_canonFields_of_inert {key : String} (h : Inert [key]) (value : Fields) :
    Fields.get (canonFields value) key = (Fields.get value key).sortKeys := by
  rw [get_canonFields, canonicalize_of_inert h]

@[simp]
theorem has_canonFields (value : Fields) (key : String) :
    Fields.has (canonFields value) key = Fields.has value key := by
  simp [canonFields]

theorem recordIdOf_canonFields (value : Fields) :
    recordIdOf (canonFields value) = (recordIdOf value).sortKeys := by
  rw [recordIdOf, get_canonFields_of_inert (by decide), recordIdOf, Json.obj?_sortKeys]
  cases (Fields.get value "metadata").obj? <;> simp

theorem checkKeys_canonFields {value : Fields} {allowed : List String} {path : String} :
    checkKeys (canonFields value) allowed path = .ok [] ↔
      checkKeys value allowed path = .ok [] := by
  rw [canonFields, checkKeys_sortKeys, checkKeys_eq_nil_iff, keys_canonicalizeFields,
    checkKeys_eq_nil_iff]

theorem commonRecordChecks_canonFields {value : Fields} :
    commonRecordChecks (canonFields value) = .ok [] ↔ commonRecordChecks value = .ok [] := by
  simp only [commonRecordChecks, concatChecks_eq_nil_iff, List.forall_mem_cons,
    get_canonFields_of_inert (by decide : Inert ["metadata"]),
    get_canonFields_of_inert (by decide : Inert ["subject"]),
    get_canonFields_of_inert (by decide : Inert ["statement"]),
    get_canonFields_of_inert (by decide : Inert ["confidence"]),
    get_canonFields_of_inert (by decide : Inert ["security"]),
    get_canonFields_of_inert (by decide : Inert ["lifecycle"]),
    get_canonFields_of_inert (by decide : Inert ["reproduction"]),
    get_canonFields value "scope", get_canonFields value "evidence",
    get_canonFields value "dependencies", get_canonFields value "affectedContracts",
    get_canonFields value "provenance", get_canonFields value "relationships",
    checkMetadata_sortKeys, checkStringPair_sortKeys, checkScope_sortKeys,
    checkScope_canonicalize, checkStatement_sortKeys, checkEvidence_sortKeys, checkEvidence_canonicalize,
    isStringList_sortKeys, isStringList_canonicalize, checkProvenance_sortKeys,
    checkProvenance_canonicalize, checkConfidence_sortKeys, checkSecurity_sortKeys,
    checkLifecycle_sortKeys, recordIdOf_canonFields, checkRelationships_sortKeys,
    checkRelationships_canonicalize, checkReproduction_sortKeys]

theorem recordDiagnostics_canonFields {value : Fields} :
    recordDiagnostics (canonFields value) = .ok [] ↔ recordDiagnostics value = .ok [] := by
  have hreads : ReadsSorted ["kind", "details", "metadata", "security"] value (canonFields value) :=
    readsSorted_canonFields (by decide) value
  have hdetails : ∀ details : Json,
      checkObject details.sortKeys "details" (checkRecordDetails (canonFields value)) = .ok [] ↔
        checkObject details "details" (checkRecordDetails value) = .ok [] := by
    intro details
    rw [checkObject_eq_nil_iff, checkObject_eq_nil_iff, exists_sortKeys_eq_obj]
    simp only [checkRecordDetails_sortKeys hreads]
  simp only [recordDiagnostics, concatChecks_eq_nil_iff, List.forall_mem_cons,
    checkKeys_canonFields, checkApiVersion_eq_nil_iff, checkDigestForm, checkRequired,
    get_canonFields_of_inert (by decide : Inert ["apiVersion"]),
    get_canonFields_of_inert (by decide : Inert ["kind"]),
    get_canonFields_of_inert (by decide : Inert ["contentDigest"]),
    get_canonFields_of_inert (by decide : Inert ["details"]), Json.sortKeys_eq_str,
    reportUnlessIn_sortKeys, Json.sortKeys_eq_null, validDigest_sortKeys, has_canonFields,
    commonRecordChecks_canonFields, ne_eq, hdetails]

theorem eventDiagnostics_canonFields {value : Fields} :
    eventDiagnostics (canonFields value) = .ok [] ↔ eventDiagnostics value = .ok [] := by
  simp only [eventDiagnostics, concatChecks_eq_nil_iff, List.forall_mem_cons,
    checkKeys_canonFields, checkApiVersion_eq_nil_iff, checkDigestForm, checkRequired,
    get_canonFields_of_inert (by decide : Inert ["apiVersion"]),
    get_canonFields_of_inert (by decide : Inert ["kind"]),
    get_canonFields_of_inert (by decide : Inert ["contentDigest"]),
    get_canonFields_of_inert (by decide : Inert ["metadata"]),
    get_canonFields_of_inert (by decide : Inert ["target"]),
    get_canonFields_of_inert (by decide : Inert ["transition"]),
    get_canonFields_of_inert (by decide : Inert ["authority"]),
    get_canonFields value "evidence", Json.sortKeys_eq_str, Json.str?_sortKeys,
    Json.sortKeys_eq_null, validDigest_sortKeys, has_canonFields, checkMetadata_sortKeys,
    checkTarget_sortKeys, checkTransition_sortKeys, checkAuthority_sortKeys, checkEvidence_sortKeys, checkEvidence_canonicalize, ne_eq]

theorem validateRecord_canonFields {value : Fields} (hwf : (Json.obj value).wf = true) :
    validateRecord (canonFields value) = .ok [] ↔ validateRecord value = .ok [] := by
  simp only [validateRecord_eq_nil_iff, recordDiagnostics_canonFields,
    get_canonFields_of_inert (by decide : Inert ["contentDigest"]), Json.sortKeys_eq_null,
    Json.sortKeys_eq_str, canonicalDigest_canonFields hwf]

theorem validateEvent_canonFields {value : Fields} (hwf : (Json.obj value).wf = true) :
    validateEvent (canonFields value) = .ok [] ↔ validateEvent value = .ok [] := by
  simp only [validateEvent_eq_nil_iff, eventDiagnostics_canonFields,
    get_canonFields_of_inert (by decide : Inert ["contentDigest"]), Json.sortKeys_eq_null,
    Json.sortKeys_eq_str, canonicalDigest_canonFields hwf]

end MncsCommons.Protocol
