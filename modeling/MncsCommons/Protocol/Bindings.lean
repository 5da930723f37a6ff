/-
# Producer bindings

Every reference binds its stable identity to a producer, a kind, a schema
version and, when it has one, a digest.  The table of bindings keeps the first
one it meets and is never completed: a reference that comes first without a
digest leaves its identity without one, and later digests are compared with
nothing.

A table covers a reference when its binding says all that the reference says.
References that one table covers agree (`Covers.agrees`).  A record without
diagnostics whose digests come first is covered by the table it extends
(`covers_of_bindingDiagnostics`).
-/

import MncsCommons.Protocol.Stability
import MncsCommons.Protocol.Semantic

namespace MncsCommons.Protocol

open MncsCommons.Data

/-- A table of bindings by stable identity. -/
abbrev Bindings := List (String × Binding)

/-- Bindings that may stand for one identity: the same producer, kind and schema
version, and not two digests. -/
structure Binding.Agrees (first second : Binding) : Prop where
  producer : first.producer = second.producer
  recordKind : first.recordKind = second.recordKind
  schemaVersion : first.schemaVersion = second.schemaVersion
  contentDigest : ∀ digest other, first.contentDigest = some digest →
    second.contentDigest = some other → digest = other

/-- A binding says all that another says. -/
structure Binding.Includes (prior binding : Binding) : Prop where
  producer : prior.producer = binding.producer
  recordKind : prior.recordKind = binding.recordKind
  schemaVersion : prior.schemaVersion = binding.schemaVersion
  contentDigest : ∀ digest, binding.contentDigest = some digest → prior.contentDigest = some digest

/-- The table's binding says all that the reference says. -/
def Covers (bindings : Bindings) (reference : ProducerReference) : Prop :=
  ∃ prior, bindings.lookup reference.stableId = some prior ∧ prior.Includes reference.binding

/-- A table has the bindings of another. -/
def Keeps (bindings later : Bindings) : Prop :=
  ∀ id prior, bindings.lookup id = some prior → later.lookup id = some prior

/-- No reference brings a digest for an identity whose first reference has none. -/
def DigestsFirst : Bindings → List ProducerReference → Prop
  | _, [] => True
  | bindings, reference :: references =>
      (∀ prior ∈ bindings.lookup reference.stableId,
        reference.contentDigest.isSome → prior.contentDigest.isSome) ∧
        DigestsFirst (bindFirst bindings reference) references

instance decidableDigestsFirst : ∀ bindings references,
    Decidable (DigestsFirst bindings references)
  | _, [] => inferInstanceAs (Decidable True)
  | bindings, reference :: references =>
      have := decidableDigestsFirst (bindFirst bindings reference) references
      inferInstanceAs (Decidable (_ ∧ _))

namespace Binding

theorem Includes.refl (binding : Binding) : binding.Includes binding :=
  ⟨rfl, rfl, rfl, fun _ h => h⟩

/-- What one binding includes agrees. -/
theorem Includes.agrees {prior first second : Binding} (hfirst : prior.Includes first)
    (hsecond : prior.Includes second) : first.Agrees second where
  producer := hfirst.producer.symm.trans hsecond.producer
  recordKind := hfirst.recordKind.symm.trans hsecond.recordKind
  schemaVersion := hfirst.schemaVersion.symm.trans hsecond.schemaVersion
  contentDigest digest other hdigest hother :=
    Option.some.inj
      ((hfirst.contentDigest digest hdigest).symm.trans (hsecond.contentDigest other hother))

end Binding

/-- References that one table covers agree. -/
theorem Covers.agrees {bindings : Bindings} {first second : ProducerReference}
    (hfirst : Covers bindings first) (hsecond : Covers bindings second)
    (h : first.stableId = second.stableId) : first.binding.Agrees second.binding := by
  obtain ⟨prior, hprior, hincludes⟩ := hfirst
  obtain ⟨other, hother, hcovers⟩ := hsecond
  obtain rfl : prior = other := by
    rw [h, hother] at hprior
    exact (Option.some.inj hprior).symm
  exact hincludes.agrees hcovers

/-! ## First bindings -/

section Keeps

variable {bindings later : Bindings}

theorem Keeps.trans {last : Bindings} (h : Keeps bindings later) (hlast : Keeps later last) :
    Keeps bindings last := fun id prior hprior => hlast id prior (h id prior hprior)

theorem Covers.keep {reference : ProducerReference} (h : Covers bindings reference)
    (hkeeps : Keeps bindings later) : Covers later reference := by
  obtain ⟨prior, hprior, hincludes⟩ := h
  exact ⟨prior, hkeeps _ _ hprior, hincludes⟩

theorem bindFirst_of_some {reference : ProducerReference} {prior : Binding}
    (h : bindings.lookup reference.stableId = some prior) :
    bindFirst bindings reference = bindings := by
  rw [bindFirst, h, Option.isSome_some, if_pos rfl]

theorem bindFirst_of_none {reference : ProducerReference}
    (h : bindings.lookup reference.stableId = none) :
    bindFirst bindings reference = bindings ++ [(reference.stableId, reference.binding)] := by
  rw [bindFirst, h, Option.isSome_none, if_neg Bool.false_ne_true]

/-- A new binding is found. -/
theorem lookup_bindFirst_self {reference : ProducerReference}
    (h : bindings.lookup reference.stableId = none) :
    (bindFirst bindings reference).lookup reference.stableId = some reference.binding := by
  rw [bindFirst_of_none h, List.lookup_append, h]
  simp

theorem keeps_bindFirst (bindings : Bindings) (reference : ProducerReference) :
    Keeps bindings (bindFirst bindings reference) := by
  intro id prior hprior
  cases h : bindings.lookup reference.stableId with
  | none => rw [bindFirst_of_none h, List.lookup_append, hprior, Option.some_or]
  | some other => rwa [bindFirst_of_some h]

theorem keeps_foldl_bindFirst (references : List ProducerReference) :
    Keeps bindings (references.foldl bindFirst bindings) := by
  induction references generalizing bindings with
  | nil => exact fun _ _ h => h
  | cons reference references ih => exact (keeps_bindFirst bindings reference).trans ih

end Keeps

/-! ## One record -/

/-- What the checks of one reference have established when they report nothing. -/
theorem bindingDiagnostics_cons_eq_nil {index : Nat} {bindings : Bindings}
    {reference : ProducerReference} {references : List ProducerReference}
    (h : bindingDiagnostics index bindings (reference :: references) = []) :
    (∀ prior, bindings.lookup reference.stableId = some prior →
      prior.Agrees reference.binding) ∧
      bindingDiagnostics (index + 1) (bindFirst bindings reference) references = [] := by
  rw [bindingDiagnostics] at h
  cases hlookup : bindings.lookup reference.stableId with
  | none =>
      rw [hlookup] at h
      exact ⟨fun _ hprior => (nomatch hprior), h⟩
  | some prior =>
      rw [hlookup] at h
      dsimp only at h
      split at h
      · cases h
      split at h
      · cases h
      rename_i hmetadata hdigests
      rw [bindFirst_of_some hlookup]
      refine ⟨fun other hother => ?_, h⟩
      cases hother
      obtain ⟨hproducer, hkind, hversion⟩ : prior.producer = reference.binding.producer ∧
          prior.recordKind = reference.binding.recordKind ∧
          prior.schemaVersion = reference.binding.schemaVersion := by
        simpa using hmetadata
      refine ⟨hproducer, hkind, hversion, fun digest other hdigest hother => ?_⟩
      simpa [hdigest, hother] using hdigests

/-- The references of a record without diagnostics are covered by the table they
extend, when their digests come first. -/
theorem covers_of_bindingDiagnostics {index : Nat} {bindings : Bindings}
    {references : List ProducerReference} (h : bindingDiagnostics index bindings references = [])
    (hfirst : DigestsFirst bindings references) :
    ∀ reference ∈ references, Covers (references.foldl bindFirst bindings) reference := by
  induction references generalizing index bindings with
  | nil => exact fun _ hreference => nomatch hreference
  | cons reference references ih =>
      obtain ⟨hagrees, hrest⟩ := bindingDiagnostics_cons_eq_nil h
      have hself : Covers (bindFirst bindings reference) reference := by
        cases hlookup : bindings.lookup reference.stableId with
        | none => exact ⟨_, lookup_bindFirst_self hlookup, .refl _⟩
        | some prior =>
            obtain ⟨hproducer, hkind, hversion, hdigests⟩ := hagrees prior hlookup
            refine ⟨prior, keeps_bindFirst _ _ _ _ hlookup, hproducer, hkind, hversion,
              fun digest hdigest => ?_⟩
            obtain ⟨found, hfound⟩ := Option.isSome_iff_exists.mp
              (hfirst.1 prior hlookup (Option.isSome_of_eq_some hdigest))
            rw [hfound, hdigests found digest hfound hdigest]
      intro other hother
      rcases List.mem_cons.mp hother with rfl | hlater
      · exact hself.keep (keeps_foldl_bindFirst references)
      · exact ih hrest hfirst.2 other hlater

/-! ## All records -/

/-- The table of the records covers all their references. -/
def Bound (records : List Fields) : Prop :=
  ∃ bindings, referenceBindings records = .ok bindings ∧
    ∀ record ∈ records, ∃ references, producerReferences record = .ok references ∧
      ∀ reference ∈ references, Covers bindings reference

theorem bound_nil : Bound [] := ⟨[], rfl, fun _ h => nomatch h⟩

theorem referenceBindings_append {records : List Fields} {record : Fields} {bindings : Bindings}
    {references : List ProducerReference} (h : referenceBindings records = .ok bindings)
    (hreferences : producerReferences record = .ok references) :
    referenceBindings (records ++ [record]) = .ok (references.foldl bindFirst bindings) := by
  rw [referenceBindings] at h
  rw [referenceBindings, List.foldlM_append, h]
  simp [List.foldlM, hreferences, bind, Except.bind, pure, Except.pure]

/-- One more record whose references the table covers with them added. -/
theorem Bound.append {records : List Fields} {record : Fields} {bindings : Bindings}
    {references : List ProducerReference} (h : Bound records)
    (hbindings : referenceBindings records = .ok bindings)
    (hreferences : producerReferences record = .ok references)
    (hcovers : ∀ reference ∈ references, Covers (references.foldl bindFirst bindings) reference) :
    Bound (records ++ [record]) := by
  obtain ⟨found, hfound, hrecords⟩ := h
  obtain rfl := Except.ok.inj (hfound.symm.trans hbindings)
  refine ⟨_, referenceBindings_append hbindings hreferences, fun other hother => ?_⟩
  rcases List.mem_append.mp hother with hold | hnew
  · obtain ⟨others, hothers, hcovered⟩ := hrecords other hold
    exact ⟨others, hothers, fun reference hreference =>
      (hcovered reference hreference).keep (keeps_foldl_bindFirst references)⟩
  · rw [List.mem_singleton.mp hnew]
    exact ⟨references, hreferences, hcovers⟩

/-- The first record of a store, an observation that is no work and has no
relations: only its references are checked. -/
theorem recordSemanticDiagnostics_nil {candidate : Fields}
    (hkind : Fields.get candidate "kind" = .str "Observation")
    (hrelationships : Fields.get? candidate "relationships" = some (.arr []))
    (hfollows : followsWorkProtocol candidate = false)
    (hbindings : checkBindings candidate [] = .ok []) :
    recordSemanticDiagnostics candidate [] = .ok [] := by
  have hwork : workSemanticDiagnostics candidate (sameLogicalId candidate []) = .ok [] := by
    simp [workSemanticDiagnostics, hfollows, pure, Except.pure]
  have hself : checkSelfRelation candidate = .ok [] := by
    rw [checkSelfRelation, relationshipsOf, hrelationships]
    rfl
  have hreplication : checkSelfReplication candidate = .ok [] := by
    rw [checkSelfReplication, hkind]
    rfl
  have hcycle : checkCycle [candidate] = .ok [] := by
    have hnone : relationshipsOf candidate = .ok [] := by
      rw [relationshipsOf, hrelationships]
      rfl
    have hedges : relationEdges [candidate] = .ok [] := by
      simp [relationEdges, hnone, bind, Except.bind, pure, Except.pure]
    rw [checkCycle, hedges]
    rfl
  have hrevision : checkRevision candidate (sameLogicalId candidate []) = .ok [] := rfl
  rw [recordSemanticDiagnostics]
  simp only [sameLogicalId, List.filter_nil, List.any_nil, Bool.false_eq_true, if_false,
    List.nil_append] at *
  simp [concatChecks_eq_nil_iff, hwork, hbindings, hself, hreplication, hcycle, hrevision]

/-! ## Sorted keys -/

theorem foldl_bindFirst_sortKeys (bindings : Bindings) (references : List ProducerReference) :
    (references.map ProducerReference.sortKeys).foldl bindFirst bindings =
      references.foldl bindFirst bindings := by
  rw [List.foldl_map]
  rfl

theorem covers_sortKeys_iff {bindings : Bindings} {reference : ProducerReference} :
    Covers bindings reference.sortKeys ↔ Covers bindings reference := Iff.rfl

theorem entryReferences_sortKeys (entries : List Json) :
    entryReferences (entries.map Json.sortKeys) = (entryReferences entries).map Fields.sortKeys := by
  rw [entryReferences, entryReferences, List.filterMap_map, List.map_filterMap]
  refine List.filterMap_congr fun entry _ => ?_
  rw [Function.comp_apply, Json.obj?_sortKeys]
  cases entry.obj? with
  | none => rfl
  | some fields => simp [Fields.get_sortKeys, Json.obj?_sortKeys]

theorem filterMap_obj?_sortKeys (items : List Json) :
    (items.map Json.sortKeys).filterMap Json.obj? =
      (items.filterMap Json.obj?).map Fields.sortKeys := by
  rw [List.filterMap_map, List.map_filterMap]
  exact List.filterMap_congr fun item _ => Json.obj?_sortKeys item

/-- A loop over a value visits the same objects, each with its keys sorted; an
object is visited by its keys, and these are none. -/
theorem iterateOrEmpty_sortKeys (value : Json) :
    (∃ error, iterateOrEmpty value = .error error ∧ iterateOrEmpty value.sortKeys = .error error) ∨
      ∃ items sorted, iterateOrEmpty value = .ok items ∧ iterateOrEmpty value.sortKeys = .ok sorted ∧
        entryReferences sorted = (entryReferences items).map Fields.sortKeys ∧
        sorted.filterMap Json.obj? = (items.filterMap Json.obj?).map Fields.sortKeys := by
  have htexts : ∀ {α : Type} (items : List α) (text : α → String),
      entryReferences (items.map fun item => Json.str (text item)) = [] ∧
        (items.map fun item => Json.str (text item)).filterMap Json.obj? = [] := by
    intro α items text
    simp [entryReferences, List.filterMap_map, Json.obj?, Function.comp_def]
  rw [iterateOrEmpty, iterateOrEmpty, Json.truthy_sortKeys]
  by_cases htruthy : value.truthy = true
  · rw [if_pos htruthy, if_pos htruthy]
    cases value with
    | arr items =>
        rw [Json.sortKeys_arr]
        exact .inr ⟨_, _, rfl, rfl, entryReferences_sortKeys items, filterMap_obj?_sortKeys items⟩
    | obj fields =>
        rw [Json.sortKeys_obj_eq]
        refine .inr ⟨_, _, rfl, rfl, ?_, ?_⟩
        · rw [(htexts _ _).1, (htexts _ _).1, List.map_nil]
        · rw [(htexts _ _).2, (htexts _ _).2, List.map_nil]
    | str text =>
        refine .inr ⟨_, _, rfl, rfl, ?_, ?_⟩
        · rw [(htexts _ _).1, List.map_nil]
        · rw [(htexts _ _).2, List.map_nil]
    | null => exact .inl ⟨_, rfl, rfl⟩
    | bool value => exact .inl ⟨_, rfl, rfl⟩
    | int value => exact .inl ⟨_, rfl, rfl⟩
    | decimal value => exact .inl ⟨_, rfl, rfl⟩
  · rw [if_neg htruthy, if_neg htruthy]
    exact .inr ⟨[], [], rfl, rfl, rfl, rfl⟩

theorem rawReferences_sortKeys (details : Fields) :
    rawReferences (Fields.sortKeys details) =
      List.map Fields.sortKeys <$> rawReferences details := by
  have hkeys : (["failureReference", "classifier"].filterMap fun key =>
      (Fields.get (Fields.sortKeys details) key).obj?) =
        (["failureReference", "classifier"].filterMap fun key =>
          (Fields.get details key).obj?).map Fields.sortKeys := by
    rw [List.map_filterMap]
    exact List.filterMap_congr fun key _ => by rw [Fields.get_sortKeys, Json.obj?_sortKeys]
  rw [rawReferences, rawReferences, Fields.get_sortKeys, Fields.get_sortKeys, Fields.get_sortKeys,
    hkeys]
  obtain ⟨error, herror, hsorted⟩ | ⟨references, references', hreferences, hreferences', hentries, -⟩ :=
    iterateOrEmpty_sortKeys (Fields.get details "references")
  · rw [herror, hsorted]
    rfl
  obtain ⟨error, herror, hsorted⟩ | ⟨actors, actors', hactors, hactors', hroles, -⟩ :=
    iterateOrEmpty_sortKeys (Fields.get details "actors")
  · rw [hreferences, hreferences', herror, hsorted]
    rfl
  obtain ⟨error, herror, hsorted⟩ | ⟨evidence, evidence', hevidence, hevidence', -, hobjects⟩ :=
    iterateOrEmpty_sortKeys (Fields.get details "evidenceReferences")
  · rw [hreferences, hreferences', hactors, hactors', herror, hsorted]
    rfl
  rw [hreferences, hreferences', hactors, hactors', hevidence, hevidence']
  simp only [bind, Except.bind, pure, Except.pure, Functor.map, Except.map, hentries, hroles,
    hobjects, List.map_append]

theorem normalizeReferences_sortKeys (raw : List Fields) :
    normalizeReferences (raw.map Fields.sortKeys) =
      (normalizeReferences raw).map ProducerReference.sortKeys := by
  rw [normalizeReferences, normalizeReferences, List.filterMap_map, List.map_filterMap]
  refine List.filterMap_congr fun reference _ => ?_
  rw [Function.comp_apply, normalizeProducerReference_sortKeys]
  cases normalizeProducerReference reference <;> rfl

/-- The references of a record with sorted keys are its references. -/
theorem producerReferences_sortKeys (record : Fields) :
    producerReferences (Fields.sortKeys record) =
      List.map ProducerReference.sortKeys <$> producerReferences record := by
  rw [producerReferences, producerReferences, Fields.get_sortKeys, Json.obj?_sortKeys]
  cases (Fields.get record "details").obj? with
  | none => rfl
  | some details =>
      rw [Option.map_some]
      dsimp only
      rw [rawReferences_sortKeys]
      cases rawReferences details with
      | error error => rfl
      | ok raw => exact congrArg Except.ok (normalizeReferences_sortKeys raw)

end MncsCommons.Protocol
