/-
# Producer identities are bound once

In every store whose records brought their digests with the first reference to
an identity, the references to one identity agree on everything they say
(`producers_bound_once`).  The check compares a digest with the first reference
only, so where that one has none, two different digests can follow it
(`two_digests_bound`).
-/

import MncsCommons.Store.Room
import MncsCommons.Protocol.Bindings

namespace MncsCommons.Store

open MncsCommons.Data MncsCommons.Protocol MncsCommons.Exec

/-- No reference of the entry brings a digest for an identity whose first
reference, in the store or in the entry, has none. -/
def Call.DigestsFirst (store : StoreDir) : Call → Prop
  | .add .record value => ∀ read bindings references, rows store = .ok read →
      referenceBindings (payloadsFromRows read "record") = .ok bindings →
      producerReferences (candidateOf value) = .ok references →
      Protocol.DigestsFirst bindings references
  | _ => True

/-- A new record whose digests come first. -/
theorem bound_step {store : StoreDir} {read after : List Fields} {call : Call}
    (h : Bound (payloadsFromRows read "record")) (hverified : Verified store read)
    (hlawful : call.DigestNotNull) (hfirst : call.DigestsFirst store)
    (hextends : Extends store read call after) : Bound (payloadsFromRows after "record") := by
  obtain hsame | ⟨value, rfl, hadmitted, hadded⟩ := hextends.payloads .record
  · change payloadsFromRows after "record" = _ at hsame
    rwa [hsame]
  · change payloadsFromRows after "record" = _ at hadded
    have hsemantic := hadmitted.semantic hlawful hverified
    simp only [concatChecks_eq_nil_iff, List.forall_mem_cons] at hsemantic
    obtain ⟨-, -, hbindings, -⟩ := hsemantic
    rw [checkBindings] at hbindings
    obtain ⟨bindings, hread, hbindings⟩ := Py.bind_eq_ok_iff.mp hbindings
    obtain ⟨references, hreferences, hchecked⟩ := Py.bind_eq_ok_iff.mp hbindings
    have hcovers := covers_of_bindingDiagnostics (Except.ok.inj hchecked)
      (hfirst read bindings references hverified.rows hread hreferences)
    have hsorted : producerReferences (Fields.sortKeys (candidateOf value)) =
        .ok (references.map ProducerReference.sortKeys) := by
      rw [producerReferences_sortKeys, hreferences]
      rfl
    rw [hadded]
    refine h.append hread hsorted fun reference hreference => ?_
    obtain ⟨original, horiginal, rfl⟩ := List.mem_map.mp hreference
    rw [foldl_bindFirst_sortKeys, covers_sortKeys_iff]
    exact hcovers original horiginal

/-- In every reachable store two references to one identity, in the same or in
different records, agree. -/
theorem producers_bound_once {store : StoreDir} {read : List Fields}
    (h : ReachableWhere (fun store call => call.Lawful ∧ call.DigestsFirst store) store)
    (hread : rows store = .ok read) {first second : Fields}
    (hfirst : first ∈ payloadsFromRows read "record")
    (hsecond : second ∈ payloadsFromRows read "record") :
    ∃ references others, producerReferences first = .ok references ∧
      producerReferences second = .ok others ∧
      ∀ reference ∈ references, ∀ other ∈ others, reference.stableId = other.stableId →
        reference.binding.Agrees other.binding := by
  obtain ⟨found, hsound, bindings, -, hbound⟩ := h.sound_and
    (fun read => Bound (payloadsFromRows read "record")) (fun _ _ hcall => hcall.1)
    bound_nil (fun _ _ _ _ hsound hcall hbound hextends =>
      bound_step hbound hsound.verified hcall.1.2 hcall.2 hextends) (.of_rows hread)
  obtain rfl := Except.ok.inj (hread.symm.trans hsound.verified.rows)
  obtain ⟨references, hreferences, hcovered⟩ := hbound first hfirst
  obtain ⟨others, hothers, hcovers⟩ := hbound second hsecond
  exact ⟨references, others, hreferences, hothers, fun reference hreference other hother hsame =>
    (hcovered reference hreference).agrees (hcovers other hother) hsame⟩

/-! ## Digests after a reference without one -/

/-- A reference to one identity, with or without a digest. -/
def reference (digest : Option String) : Json :=
  .obj ([("producer", .str "p"), ("recordKind", .str "k"), ("schemaVersion", .str "v"),
    ("stableId", .str "s")] ++ (digest.map fun digest => ("contentDigest", Json.str digest)).toList)

def firstDigest : String :=
  "sha256:aaaaaaaaaaaaaaaaaaaaaaaaaaaaaaaaaaaaaaaaaaaaaaaaaaaaaaaaaaaaaaaa"

def secondDigest : String :=
  "sha256:bbbbbbbbbbbbbbbbbbbbbbbbbbbbbbbbbbbbbbbbbbbbbbbbbbbbbbbbbbbbbbbb"

/-- An observation with references to one identity. -/
def referring (digests : List (Option String)) : Fields :=
  Fields.set (observation [("recordId", .str "r")] "PASS") "details"
    (.obj [("outcome", .str "PASS"), ("evidenceReferences", .arr (digests.map reference))])

/-- The first of its references brings the digest. -/
def oneDigest : Mapping := ⟨referring [some firstDigest, none, some firstDigest], by decide +kernel⟩

/-- The first of its references has no digest, and the others have different ones. -/
def twoDigests : Mapping := ⟨referring [none, some firstDigest, some secondDigest], rfl⟩

/-- The references of what is stored of a value. -/
theorem producerReferences_storedAs (value : Fields) (digest : String) :
    producerReferences (storedAs value digest) = producerReferences (Fields.sortKeys value) := by
  rw [producerReferences, producerReferences, get_storedAs_of_inert (by decide) (by decide)]

/-- An observation with references that do not conflict is the first record of a
store. -/
theorem holding_referring {value : Mapping} {digests : List (Option String)}
    (hvalue : value.fields = referring digests)
    (hsize : Text.byteSize (quickRender (.obj value.fields)) ≤ 7500)
    (hvalid : ∀ digest, validDigest (.str digest) = true →
      recordDiagnostics (Fields.set value.fields "contentDigest" (.str digest)) = .ok [])
    (hchecked : (bindingDiagnostics 0 [] <$> producerReferences (Fields.sortKeys value.fields)) =
      .ok []) :
    Holding (Call.run .plain (.add .record value) .fresh).final
      [storedAs value.fields (canonicalDigest value.fields)] [] 1 := by
  have hhas : Fields.has value.fields "contentDigest" = false := by
    rw [hvalue]
    rfl
  refine holding_fresh.addQuick (by decide) .plain hhas (canonicalDigest_eq_quickDigest _).symm hsize
    (hvalid _ (validDigest_canonicalDigest _)) (by simp) (recordSemanticDiagnostics_nil ?_ ?_ ?_ ?_)
  · rw [get_storedAs_of_inert (by decide) (by decide), Fields.get_sortKeys, hvalue]
    rfl
  · rw [get?_storedAs (by decide), hvalue]
    rfl
  · have hdetails : Fields.get (referring digests) "details" = .obj [("outcome", .str "PASS"),
        ("evidenceReferences", .arr (digests.map reference))] := rfl
    rw [followsWorkProtocol, get_storedAs_of_inert (by decide) (by decide), Fields.get_sortKeys,
      hvalue, hdetails, Json.sortKeys_obj_eq, Json.obj?, Option.any_some, Fields.get_sortKeys]
    rfl
  · rw [checkBindings, producerReferences_storedAs]
    exact hchecked

/-- The record is valid under every digest. -/
theorem recordDiagnostics_referring {value : Fields} (h : value ∈ [oneDigest.fields, twoDigests.fields])
    {digest : String} (hdigest : validDigest (.str digest) = true) :
    recordDiagnostics (Fields.set value "contentDigest" (.str digest)) = .ok [] := by
  have hget : Fields.get (Fields.set value "contentDigest" (.str digest)) "contentDigest" =
      .str digest := by simp [Fields.get, Fields.get?_set]
  rw [recordDiagnostics, concatChecks_eq_nil_iff]
  simp only [List.forall_mem_cons]
  -- the digest is the only member whose value is not known
  refine ⟨?_, ?_, ?_, ?_, ?_, ?_, ?_, by simp⟩
  case refine_4 =>
    rw [checkDigestForm, hget, hdigest]
    rfl
  all_goals
    rcases List.mem_cons.mp h with rfl | h
    · rfl
    · rw [List.mem_singleton.mp h]
      rfl

theorem holding_oneDigest : Holding (Call.run .plain (.add .record oneDigest) .fresh).final
    [storedAs oneDigest.fields (canonicalDigest oneDigest.fields)] [] 1 :=
  holding_referring rfl (by decide +kernel) (fun _ => recordDiagnostics_referring (by simp))
    (by decide +kernel)

theorem holding_twoDigests : Holding (Call.run .plain (.add .record twoDigests) .fresh).final
    [storedAs twoDigests.fields (canonicalDigest twoDigests.fields)] [] 1 :=
  holding_referring rfl (by decide +kernel) (fun _ => recordDiagnostics_referring (by simp))
    (by decide +kernel)

/-- A record that brings the digest with its first reference. -/
theorem one_digest_bound :
    ∃ read references, rows (Call.run .plain (.add .record oneDigest) .fresh).final = .ok read ∧
      payloadsFromRows read "record" =
        [storedAs oneDigest.fields (canonicalDigest oneDigest.fields)] ∧
      producerReferences (storedAs oneDigest.fields (canonicalDigest oneDigest.fields)) =
        .ok references ∧
      ∀ reference ∈ references, ∀ other ∈ references, reference.stableId = other.stableId →
        reference.binding.Agrees other.binding := by
  obtain ⟨read, hread, hrecords, -⟩ := holding_oneDigest.rows_eq
  have hfirst : (Call.add .record oneDigest).DigestsFirst .fresh := by
    intro found bindings references hfound hbindings hreferences
    obtain rfl := Except.ok.inj (verified_fresh.rows.symm.trans hfound)
    obtain rfl := Except.ok.inj hbindings
    rw [candidateOf_eq_storedAs rfl rfl, producerReferences_storedAs] at hreferences
    have hdecided : (producerReferences (Fields.sortKeys oneDigest.fields)).toOption.all
        (fun references => decide (DigestsFirst [] references)) = true := by decide +kernel
    rw [hreferences] at hdecided
    exact of_decide_eq_true hdecided
  have hlawful : (Call.add .record oneDigest).Lawful :=
    ⟨trivial, digestNotNull_of_not_has rfl .record⟩
  have hmem : storedAs oneDigest.fields (canonicalDigest oneDigest.fields) ∈
      payloadsFromRows read "record" := by
    rw [hrecords]
    exact List.mem_singleton_self _
  obtain ⟨references, others, hreferences, hothers, hagrees⟩ := producers_bound_once
    (.call .plain .init ⟨hlawful, hfirst⟩) hread hmem hmem
  obtain rfl := Except.ok.inj (hreferences.symm.trans hothers)
  exact ⟨read, references, hread, hrecords, hreferences, hagrees⟩

/-- A record that brings two digests after a reference without one is accepted. -/
theorem two_digests_bound :
    ¬ ∀ store read, Reachable (fun call => ∃ value, call = .add .record value) store →
      rows store = .ok read → ∀ first ∈ payloadsFromRows read "record",
        ∀ second ∈ payloadsFromRows read "record",
          ∃ references others, producerReferences first = .ok references ∧
            producerReferences second = .ok others ∧
            ∀ reference ∈ references, ∀ other ∈ others, reference.stableId = other.stableId →
              reference.binding.Agrees other.binding := by
  intro hall
  obtain ⟨read, hread, hrecords, -⟩ := holding_twoDigests.rows_eq
  have hmem : storedAs twoDigests.fields (canonicalDigest twoDigests.fields) ∈
      payloadsFromRows read "record" := by
    rw [hrecords]
    exact List.mem_singleton_self _
  obtain ⟨references, others, hreferences, hothers, hagrees⟩ := hall _ read
    (.call .plain .init ⟨twoDigests, rfl⟩) hread _ hmem _ hmem
  obtain rfl := Except.ok.inj (hreferences.symm.trans hothers)
  have hdigests : (producerReferences (Fields.sortKeys twoDigests.fields)).map
      (List.map fun reference => (reference.stableId, reference.contentDigest)) =
        .ok [("s", none), ("s", some firstDigest), ("s", some secondDigest)] := by decide +kernel
  rw [producerReferences_storedAs] at hreferences
  rw [hreferences] at hdigests
  have hnamed : ∀ digest ∈ [firstDigest, secondDigest],
      ∃ reference ∈ references, (reference.stableId, reference.contentDigest) = ("s", some digest) := by
    intro digest hdigest
    refine List.mem_map.mp ?_
    rw [Except.ok.inj hdigests]
    revert digest
    decide
  obtain ⟨first, hfirst, hfirstNamed⟩ := hnamed firstDigest (by simp)
  obtain ⟨second, hsecond, hsecondNamed⟩ := hnamed secondDigest (by simp)
  obtain ⟨hid, hdigest⟩ := Prod.mk.inj hfirstNamed
  obtain ⟨hother, hdigest'⟩ := Prod.mk.inj hsecondNamed
  exact absurd ((hagrees first hfirst second hsecond (hid.trans hother.symm)).contentDigest _ _
    hdigest hdigest') (by decide)

end MncsCommons.Store
