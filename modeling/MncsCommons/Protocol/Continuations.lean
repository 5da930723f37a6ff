/-
# The next revision among the stored records

A record that continues the latest revision of its logical identity passes the
checks against the stored records (`recordSemanticDiagnostics_of_continues`).  It
names the same references, so no binding changes, and it orders itself after the
same records, so every path through it in the graph of relations is one through the
revision it takes the name from (`ordered_append`).
-/

import MncsCommons.Protocol.Bindings
import MncsCommons.Protocol.Relations
import MncsCommons.Protocol.WorkHistory
import MncsCommons.Protocol.NextRevisions

namespace MncsCommons.Protocol

open MncsCommons.Data

/-! ## The graph of valid records -/

/-- The target of a relation. -/
def targetOf (relation : Json) : Option String :=
  relation.obj?.map fun fields => ((Fields.get? fields "target").getD (.str "")).pyStr

/-- The target of a relation that orders records. -/
def orderedTarget (relation : Json) : Option String :=
  relation.obj?.bind fun fields =>
    if (Fields.get fields "type").str?.any (["supersedes", "depends_on"].contains ·) then
      some (Fields.get fields "target").pyStr
    else none

/-- The relations of a record. -/
def relationItems (record : Fields) : List Json := (Fields.get record "relationships").arr?.getD []

/-- The targets of the relations of a record. -/
def targetsOf (record : Fields) : List String := (relationItems record).filterMap targetOf

/-- The targets of the relations of a record that order it. -/
def orderedTargets (record : Fields) : List String := (relationItems record).filterMap orderedTarget

theorem mem_targets_add {edges : Edges} {source target node next : String} :
    next ∈ (edges.add source target).targets node ↔
      next ∈ edges.targets node ∨ node = source ∧ next = target := by
  induction edges with
  | nil =>
      by_cases hnode : node = source
      · simp [Edges.add, Edges.targets, hnode]
      · simp [Edges.add, Edges.targets, hnode, List.lookup_cons, beq_false_of_ne hnode]
  | cons edge edges ih =>
      obtain ⟨first, targets⟩ := edge
      rw [Edges.add]
      split
      · next heq =>
        subst heq
        by_cases hnode : node = first
        · subst hnode
          simp only [Edges.targets, List.lookup_cons_self, Option.getD_some, true_and]
          split
          · next hmem =>
            refine ⟨.inl, fun h => h.elim id fun heq => ?_⟩
            rw [heq]
            exact List.contains_iff_mem.mp hmem
          · rw [List.mem_append, List.mem_singleton]
        · simp [Edges.targets, List.lookup_cons, beq_false_of_ne hnode, hnode]
      · by_cases hnode : node = first
        · next hne =>
          subst hnode
          simp [Edges.targets, hne]
        · simpa [Edges.targets, List.lookup_cons, beq_false_of_ne hnode] using ih

/-- The relation of a valid record names its target. -/
theorem orderingTarget_eq {recordId relation : Json} (h : RelationshipOk recordId relation)
    (known : List (String × String)) :
    orderingTarget known relation = .ok ((orderedTarget relation).bind fun target => known.lookup target) := by
  obtain ⟨fields, rfl, ⟨found, hfound, -⟩, -, -⟩ := h
  obtain ⟨_, hhashable, -⟩ := Py.bind_eq_ok_iff.mp hfound
  simp only [orderingTarget, orderedTarget, Json.obj?, inSet, hhashable, bind, Except.bind, pure,
    Except.pure, Option.bind_some]
  split <;> rfl

theorem addRelations_eq {known : List (String × String)} {record : Fields}
    (hvalid : validateRecord record = .ok []) (edges : Edges) :
    ∃ after, addRelations known edges record = .ok after ∧ ∀ node next,
      next ∈ after.targets node ↔ next ∈ edges.targets node ∨ node = identity record ∧
        ∃ target ∈ orderedTargets record, known.lookup target = some next := by
  obtain ⟨items, hitems, hok⟩ := exists_relationships hvalid
  have hrelations : relationshipsOf record = .ok items := by
    rw [relationshipsOf, hitems]
    rfl
  have htargets : orderedTargets record = items.filterMap orderedTarget := by
    rw [orderedTargets, relationItems, Fields.get, hitems]
    rfl
  rw [addRelations, hrelations, htargets]
  simp only [bind, Except.bind]
  clear hrelations htargets hitems
  induction items generalizing edges with
  | nil => exact ⟨edges, rfl, by simp⟩
  | cons item items ih =>
      rw [List.forall_mem_cons] at hok
      rw [List.foldlM_cons, orderingTarget_eq hok.1]
      have hfirst : ∀ next, (∃ target ∈ (item :: items).filterMap orderedTarget,
          known.lookup target = some next) ↔
          ((orderedTarget item).bind fun target => known.lookup target) = some next ∨
            ∃ target ∈ items.filterMap orderedTarget, known.lookup target = some next := by
        intro next
        cases hitem : orderedTarget item <;> simp [hitem]
      simp only [hfirst]
      cases htarget : (orderedTarget item).bind fun target => known.lookup target with
      | none =>
          obtain ⟨after, hafter, hmem⟩ := ih edges hok.2
          refine ⟨after, hafter, fun node next => ?_⟩
          rw [hmem]
          simp
      | some found =>
          obtain ⟨after, hafter, hmem⟩ := ih (edges.add (identity record) found) hok.2
          refine ⟨after, hafter, fun node next => ?_⟩
          rw [hmem, mem_targets_add, Option.some.injEq, or_assoc, ← and_or_left, eq_comm (a := found)]

/-- The graph of valid records: from a record to what its ordering relations name. -/
theorem relationEdges_of_valid {records : List Fields}
    (hvalid : ∀ record ∈ records, validateRecord record = .ok []) :
    ∃ edges, relationEdges records = .ok edges ∧ ∀ node next,
      next ∈ edges.targets node ↔ ∃ record ∈ records, node = identity record ∧
        ∃ target ∈ orderedTargets record, (knownNodes records).lookup target = some next := by
  have hfold : ∀ (known : List (String × String)) (edges : Edges),
      ∃ after, records.foldlM (addRelations known) edges = .ok after ∧ ∀ node next,
        next ∈ after.targets node ↔ next ∈ edges.targets node ∨ ∃ record ∈ records,
          node = identity record ∧
            ∃ target ∈ orderedTargets record, known.lookup target = some next := by
    intro known
    induction records with
    | nil => exact fun edges => ⟨edges, rfl, by simp⟩
    | cons record records ih =>
        intro edges
        rw [List.forall_mem_cons] at hvalid
        obtain ⟨middle, hmiddle, hfirst⟩ := addRelations_eq hvalid.1 edges
        obtain ⟨after, hafter, hrest⟩ := ih hvalid.2 middle
        refine ⟨after, ?_, fun node next => ?_⟩
        · rw [List.foldlM_cons, hmiddle]
          exact hafter
        · rw [hrest, hfirst, or_assoc]
          simp only [List.mem_cons, exists_eq_or_imp]
  obtain ⟨edges, hedges, hmem⟩ := hfold (knownNodes records) []
  refine ⟨edges, hedges, fun node next => ?_⟩
  rw [hmem]
  simp [Edges.targets]

theorem lookup_knownNodes_append (records : List Fields) (record : Fields) (name : String) :
    (knownNodes (records ++ [record])).lookup name =
      if name = logicalId record then some (identity record)
      else if name = identity record then some (identity record)
      else (knownNodes records).lookup name := by
  have hknown : knownNodes (records ++ [record]) =
      (logicalId record, identity record) :: (identity record, identity record) ::
        knownNodes records := by
    simp [knownNodes]
  rw [hknown]
  by_cases hlogical : name = logicalId record
  · simp [hlogical]
  · rw [if_neg hlogical, List.lookup_cons, beq_false_of_ne hlogical]
    by_cases hidentity : name = identity record
    · simp [hidentity]
    · rw [if_neg hidentity]
      simp [List.lookup_cons, beq_false_of_ne hidentity]

/-- What a name stands for is the identity of a record. -/
theorem mem_of_lookup_knownNodes {records : List Fields} {name found : String}
    (h : (knownNodes records).lookup name = some found) :
    ∃ record ∈ records, identity record = found := by
  obtain ⟨before, after, hsplit, -⟩ := List.lookup_eq_some_iff.mp h
  have hmem : (name, found) ∈ knownNodes records := by
    rw [hsplit]
    simp
  rw [knownNodes, List.mem_reverse, List.mem_flatMap] at hmem
  obtain ⟨record, hrecord, hpair⟩ := hmem
  simp only [List.mem_cons, Prod.mk.injEq, List.not_mem_nil, or_false] at hpair
  exact ⟨record, hrecord, hpair.elim (fun h => h.2.symm) fun h => h.2.symm⟩

/-- The name of a record stands for the last record that has it. -/
theorem lookup_knownNodes_of_getLast {records : List Fields} {record : Fields}
    (hlast : (sameLogicalId record records).getLast? = some record)
    (hnames : ∀ other ∈ records, identity other ≠ logicalId record) :
    (knownNodes records).lookup (logicalId record) = some (identity record) := by
  induction records using List.reverseRecOn with
  | nil => cases hlast
  | append_singleton records last ih =>
      have hother : logicalId record ≠ identity last := fun h =>
        hnames last (by simp) h.symm
      rw [sameLogicalId, List.filter_append] at hlast
      rw [lookup_knownNodes_append]
      by_cases hid : logicalId last = logicalId record
      · rw [List.filter_singleton, decide_eq_true hid, cond_true, List.getLast?_concat] at hlast
        rw [if_pos hid.symm, Option.some.inj hlast]
      · rw [List.filter_singleton, decide_eq_false hid, cond_false, List.append_nil] at hlast
        rw [if_neg (Ne.symm hid), if_neg hother]
        exact ih hlast fun other hmem => hnames other (List.mem_append_left _ hmem)

/-- The digest of a candidate is new to the stored records: none has it, and no
relation names it. -/
structure Unforeseen (records : List Fields) (candidate : Fields) : Prop where
  digest : ∀ record ∈ records, identity record ≠ identity candidate
  targets : ∀ record ∈ candidate :: records, identity candidate ∉ targetsOf record

/-- The relations of a valid record. -/
theorem relationItems_valid {record : Fields} (h : validateRecord record = .ok []) :
    relationshipsOf record = .ok (relationItems record) ∧
      ∀ relation ∈ relationItems record, RelationshipOk (recordIdOf record) relation := by
  obtain ⟨items, hitems, hok⟩ := exists_relationships h
  have hrelations : relationItems record = items := by
    rw [relationItems, Fields.get, hitems]
    rfl
  rw [hrelations, relationshipsOf, hitems]
  exact ⟨rfl, hok⟩

theorem orderedTargets_subset {record : Fields} (h : validateRecord record = .ok []) :
    orderedTargets record ⊆ targetsOf record := by
  intro target htarget
  obtain ⟨relation, hrelation, hfound⟩ := List.mem_filterMap.mp htarget
  obtain ⟨fields, rfl, -, htext, -⟩ := (relationItems_valid h).2 relation hrelation
  refine List.mem_filterMap.mpr ⟨_, hrelation, ?_⟩
  have hpresent : ∃ text, Fields.get? fields "target" = some (.str text) := by
    cases hget : Fields.get fields "target" with
    | str text => exact ⟨text, Fields.get?_of_get hget (by simp)⟩
    | _ => simp [hget, isText] at htext
  obtain ⟨text, hpresent⟩ := hpresent
  simp only [orderedTarget, Json.obj?, Option.bind_some, Fields.get, hpresent] at hfound
  split at hfound
  · rw [← hfound]
    simp [targetOf, Json.obj?, hpresent]
  · cases hfound

/-- A record that takes over the name of another and is ordered after no more than it
closes no cycle. -/
theorem ordered_append {records : List Fields} {current candidate : Fields}
    (hordered : Ordered records) (hvalid : ∀ record ∈ records, validateRecord record = .ok [])
    (hcandidate : validateRecord candidate = .ok []) (hcurrent : current ∈ records)
    (hname : (knownNodes records).lookup (logicalId candidate) = some (identity current))
    (htargets : ∀ target ∈ orderedTargets candidate,
      target ∈ orderedTargets current ∧ target ≠ logicalId candidate)
    (hdigest : ∀ record ∈ records, identity record ≠ identity candidate)
    (hunnamed : identity candidate ≠ logicalId candidate →
      ∀ record ∈ records, identity candidate ∉ orderedTargets record) :
    Ordered (records ++ [candidate]) := by
  obtain ⟨edges, hedges, hacyclic⟩ := hordered
  obtain ⟨found, hfound, hstep⟩ := relationEdges_of_valid hvalid
  obtain rfl : edges = found := Except.ok.inj (hedges.symm.trans hfound)
  obtain ⟨after, hafter, hnext⟩ := @relationEdges_of_valid (records ++ [candidate])
    (by simpa [or_imp, forall_and] using ⟨hvalid, hcandidate⟩)
  refine ⟨after, hafter, fun ⟨node, hcycle⟩ => hacyclic ⟨_, hcycle.lift
    (fun node => if node = identity candidate then identity current else node) ?_⟩⟩
  -- what the candidate reaches, the revision it follows reached
  have hstays : ∀ {name next}, (knownNodes records).lookup name = some next →
      (if next = identity candidate then identity current else next) = next := by
    intro name next hlookup
    obtain ⟨record, hrecord, rfl⟩ := mem_of_lookup_knownNodes hlookup
    exact if_neg (hdigest record hrecord)
  intro node next hedge
  obtain ⟨record, hrecord, rfl, target, htarget, hlookup⟩ := (hnext node next).mp hedge
  rw [lookup_knownNodes_append] at hlookup
  refine (hstep _ _).mpr ?_
  dsimp only
  rcases List.mem_append.mp hrecord with hold | hnew
  · rw [if_neg (hdigest record hold)]
    refine ⟨record, hold, rfl, target, htarget, ?_⟩
    split at hlookup
    · next heq =>
      rw [← Option.some.inj hlookup, if_pos rfl, heq, hname]
    split at hlookup
    · next hne heq =>
      exact absurd (heq ▸ htarget) (hunnamed (fun h => hne (heq.trans h)) record hold)
    · rw [hstays hlookup, hlookup]
  · obtain rfl := List.mem_singleton.mp hnew
    obtain ⟨hin, hne⟩ := htargets target htarget
    rw [if_pos rfl]
    refine ⟨current, hcurrent, rfl, target, hin, ?_⟩
    rw [if_neg hne] at hlookup
    split at hlookup
    · next heq =>
      exact absurd (heq ▸ hin) (hunnamed (fun h => hne (heq.trans h)) current hcurrent)
    · rw [hstays hlookup, hlookup]

/-! ## References to producers -/

/-- The table's binding agrees with what the reference says. -/
def Admits (bindings : Bindings) (reference : ProducerReference) : Prop :=
  ∃ prior, bindings.lookup reference.stableId = some prior ∧ prior.Agrees reference.binding

/-- The table of the records agrees with all their references. -/
def Consistent (records : List Fields) : Prop :=
  ∃ bindings, referenceBindings records = .ok bindings ∧
    ∀ record ∈ records, ∃ references, producerReferences record = .ok references ∧
      ∀ reference ∈ references, Admits bindings reference

theorem Admits.keep {bindings later : Bindings} {reference : ProducerReference}
    (h : Admits bindings reference) (hkeeps : Keeps bindings later) : Admits later reference := by
  obtain ⟨prior, hprior, hagrees⟩ := h
  exact ⟨prior, hkeeps _ _ hprior, hagrees⟩

theorem consistent_nil : Consistent [] := ⟨[], rfl, fun _ h => nomatch h⟩

/-- The references of a record without diagnostics agree with the table they extend. -/
theorem admits_of_bindingDiagnostics {index : Nat} {bindings : Bindings}
    {references : List ProducerReference} (h : bindingDiagnostics index bindings references = []) :
    ∀ reference ∈ references, Admits (references.foldl bindFirst bindings) reference := by
  induction references generalizing index bindings with
  | nil => exact fun _ hreference => nomatch hreference
  | cons reference references ih =>
      obtain ⟨hagrees, hrest⟩ := bindingDiagnostics_cons_eq_nil h
      have hself : Admits (bindFirst bindings reference) reference := by
        cases hlookup : bindings.lookup reference.stableId with
        | none => exact ⟨_, lookup_bindFirst_self hlookup, (Binding.Includes.refl _).agrees (.refl _)⟩
        | some prior => exact ⟨prior, keeps_bindFirst _ _ _ _ hlookup, hagrees prior hlookup⟩
      rw [List.forall_mem_cons]
      exact ⟨hself.keep (keeps_foldl_bindFirst references), ih hrest⟩

/-- References that the table agrees with are not reported. -/
theorem bindingDiagnostics_of_admits {index : Nat} {bindings : Bindings}
    {references : List ProducerReference} (h : ∀ reference ∈ references, Admits bindings reference) :
    bindingDiagnostics index bindings references = [] := by
  induction references generalizing index with
  | nil => rfl
  | cons reference references ih =>
      rw [List.forall_mem_cons] at h
      obtain ⟨⟨prior, hlookup, hagrees⟩, hrest⟩ := h
      have hmetadata : (prior.producer, prior.recordKind, prior.schemaVersion) =
          (reference.binding.producer, reference.binding.recordKind,
            reference.binding.schemaVersion) := by
        rw [hagrees.producer, hagrees.recordKind, hagrees.schemaVersion]
      have hdigest : ¬ (prior.contentDigest.isSome ∧ reference.binding.contentDigest.isSome ∧
          prior.contentDigest ≠ reference.binding.contentDigest) := by
        rintro ⟨hprior, hcurrent, hne⟩
        obtain ⟨first, hfirst⟩ := Option.isSome_iff_exists.mp hprior
        obtain ⟨second, hsecond⟩ := Option.isSome_iff_exists.mp hcurrent
        rw [hfirst, hsecond, hagrees.contentDigest first second hfirst hsecond] at hne
        exact hne rfl
      rw [bindingDiagnostics, hlookup]
      dsimp only
      rw [if_neg (not_not.mpr hmetadata), if_neg hdigest]
      exact ih hrest

theorem Consistent.append {records : List Fields} {record : Fields} {bindings : Bindings}
    {references : List ProducerReference} (h : Consistent records)
    (hbindings : referenceBindings records = .ok bindings)
    (hreferences : producerReferences record = .ok references)
    (hadmits : ∀ reference ∈ references, Admits (references.foldl bindFirst bindings) reference) :
    Consistent (records ++ [record]) := by
  obtain ⟨found, hfound, hrecords⟩ := h
  obtain rfl := Except.ok.inj (hfound.symm.trans hbindings)
  refine ⟨_, referenceBindings_append hbindings hreferences, fun other hother => ?_⟩
  rcases List.mem_append.mp hother with hold | hnew
  · obtain ⟨others, hothers, hadmitted⟩ := hrecords other hold
    exact ⟨others, hothers, fun reference hreference =>
      (hadmitted reference hreference).keep (keeps_foldl_bindFirst references)⟩
  · rw [List.mem_singleton.mp hnew]
    exact ⟨references, hreferences, hadmits⟩

/-- Two records that name the same references, up to what no binding reads. -/
def SameReferences (record other : Fields) : Prop :=
  ∀ references, producerReferences record = .ok references →
    ∃ others, producerReferences other = .ok others ∧
      others.map (fun reference => (reference.stableId, reference.binding)) =
        references.map fun reference => (reference.stableId, reference.binding)

/-- A record that names the references of a stored one changes no binding. -/
theorem checkBindings_of_same {records : List Fields} {current candidate : Fields}
    (h : Consistent records) (hcurrent : current ∈ records)
    (hsame : SameReferences current candidate) : checkBindings candidate records = .ok [] := by
  obtain ⟨bindings, hbindings, hrecords⟩ := h
  obtain ⟨references, hreferences, hadmits⟩ := hrecords current hcurrent
  obtain ⟨others, hothers, hmap⟩ := hsame references hreferences
  have hall : ∀ reference ∈ others, Admits bindings reference := by
    intro reference hreference
    have hmem : (reference.stableId, reference.binding) ∈
        references.map fun reference => (reference.stableId, reference.binding) :=
      hmap ▸ List.mem_map_of_mem hreference
    obtain ⟨original, horiginal, heq⟩ := List.mem_map.mp hmem
    obtain ⟨prior, hprior, hagrees⟩ := hadmits original horiginal
    obtain ⟨hid, hbinding⟩ := Prod.mk.inj heq
    exact ⟨prior, hid ▸ hprior, hbinding ▸ hagrees⟩
  rw [checkBindings, hbindings, ok_bind, hothers, ok_bind, bindingDiagnostics_of_admits hall]
  rfl

/-- A record whose relations name neither its digest nor its identifier. -/
theorem checkSelfRelation_of_not_mem {candidate : Fields} (hvalid : validateRecord candidate = .ok [])
    (hidentity : identity candidate ∉ targetsOf candidate)
    (hlogical : logicalId candidate ∉ targetsOf candidate) :
    checkSelfRelation candidate = .ok [] := by
  obtain ⟨hrelations, -⟩ := relationItems_valid hvalid
  rw [checkSelfRelation, hrelations, ok_bind]
  refine (@concatChecks_mapIdx_eq_nil_iff (relationItems candidate) _ (fun relation =>
    ∀ target ∈ targetOf relation, target ≠ identity candidate ∧ target ≠ logicalId candidate)
    fun index relation => ?_).mpr fun relation hrelation target htarget => ?_
  · rw [reportIf_eq_nil_iff]
    cases relation <;> simp [targetOf, Json.obj?]
  · have hmem : target ∈ targetsOf candidate :=
      List.mem_filterMap.mpr ⟨relation, hrelation, htarget⟩
    exact ⟨fun heq => hidentity (heq ▸ hmem), fun heq => hlogical (heq ▸ hmem)⟩

/-! ## Continuing a work record -/

/-- An allowed step is reported by no check of the next revision. -/
theorem checkNextWorkRevision_of_step {latest candidate : Fields} (h : WorkStep latest candidate) :
    checkNextWorkRevision (detailsOf candidate) (detailsOf latest) = .ok [] := by
  obtain ⟨before, after, hbefore, hafter, hallowed⟩ := h.state
  obtain ⟨event, hevent, hfrom⟩ := h.event
  obtain ⟨previous, next, hprevious, hnext, hstep⟩ := h.coordination
  have hrequest := h.request
  rw [stateOf] at hbefore hafter
  rw [stateOf, hbefore] at hfrom
  rw [checkNextWorkRevision, concatChecks_eq_nil_iff, hbefore, hafter, hevent]
  simp only [List.forall_mem_cons, concatChecks_eq_nil_iff, List.forall_mem_map, reportIf_eq_nil_iff,
    Bool.not_eq_false', Json.pyStr_str, hprevious, hnext, ok_bind]
  refine ⟨hrequest, ?_, ?_, ?_, by simp⟩
  · rcases hallowed with rfl | hin
    · simp
    · simp [hin]
  · simp [Json.obj?, Json.str?, hfrom]
  · rcases hstep with rfl | hin
    · simp
    · simp [hin]

/-- A record continues the latest revision of its logical identity. -/
structure Continues (current candidate : Fields) : Prop where
  named : logicalId current ≠ ""
  recordId : recordIdOf candidate = .str (logicalId current)
  kind : Fields.get candidate "kind" = .str "WorkRequest"
  follows : followsWorkProtocol candidate = true
  revision : ∃ n, revisionOf current = .ok n ∧
    Fields.get (metadataOf candidate) "revision" = .int (n + 1)
  previous : Fields.get (metadataOf candidate) "previousDigest" = Fields.get current "contentDigest"
  step : WorkStep current candidate
  references : SameReferences current candidate
  relations : ∀ target ∈ orderedTargets candidate, target ∈ orderedTargets current
  others : logicalId current ∉ targetsOf candidate

theorem Continues.logicalId {current candidate : Fields} (h : Continues current candidate) :
    Protocol.logicalId candidate = Protocol.logicalId current :=
  logicalId_of_recordId h.recordId h.named

/-- What the checks read of the stored records. -/
structure Checked (records : List Fields) : Prop where
  valid : ∀ record ∈ records, validateRecord record = .ok []
  digest : ∀ record ∈ records, ∃ digest, Fields.get record "contentDigest" = .str digest
  ordered : Ordered records
  consistent : Consistent records

/-- A record that continues the latest revision passes the checks against the stored
records. -/
theorem recordSemanticDiagnostics_of_continues {records : List Fields} {current candidate : Fields}
    {n : Int} (h : Continues current candidate) (hchecked : Checked records)
    (hvalid : validateRecord candidate = .ok [])
    (hfollows : followsWorkProtocol current = true)
    (hrevision : revisionOf current = .ok n)
    (hlatest : latestRevision (sameLogicalId current records) = .ok (some (current, n)))
    (hlast : (sameLogicalId current records).getLast? = some current)
    (hnames : ∀ record ∈ records, identity record ≠ logicalId current)
    (hdigest : ∀ record ∈ records, identity record ≠ identity candidate)
    (hunnamed : identity candidate ≠ logicalId candidate →
      ∀ record ∈ candidate :: records, identity candidate ∉ targetsOf record) :
    recordSemanticDiagnostics candidate records = .ok [] := by
  have hcurrent : current ∈ records := (List.mem_filter.mp (List.mem_of_getLast? hlast)).1
  have hsame : sameLogicalId candidate records = sameLogicalId current records := by
    rw [sameLogicalId, h.logicalId, sameLogicalId]
  have hany : ((sameLogicalId current records).any fun item =>
      identity item = identity candidate) = false := by
    rw [List.any_eq_false]
    intro item hitem
    simpa using hdigest item (List.mem_filter.mp hitem).1
  rw [recordSemanticDiagnostics, hsame, hany]
  simp only [Bool.false_eq_true, if_false, concatChecks_eq_nil_iff, List.forall_mem_cons]
  refine ⟨?_, ?_, checkBindings_of_same hchecked.consistent hcurrent h.references, ?_, ?_, ?_,
    by simp⟩
  · obtain ⟨m, hm, hnext⟩ := h.revision
    obtain rfl : m = n := Except.ok.inj (hm.symm.trans hrevision)
    obtain ⟨digest, hcontent⟩ := hchecked.digest current hcurrent
    have hidentity : identity current = digest := by
      rw [identity, hcontent]
      rfl
    have hprevious := h.previous
    rw [metadataOf] at hnext hprevious
    rw [checkRevision, hlatest, ok_bind]
    simp [hnext, hprevious, hcontent, hidentity, Json.pyEq_self]
  · rw [workSemanticDiagnostics, h.follows, hlatest]
    simp only [Bool.not_true, Bool.false_eq_true, if_false, ok_bind, hfollows]
    exact checkNextWorkRevision_of_step h.step
  · exact checkSelfRelation_of_not_mem hvalid
      (fun hmem => by
        by_cases hid : identity candidate = logicalId candidate
        · exact h.others (h.logicalId ▸ hid ▸ hmem)
        · exact hunnamed hid candidate List.mem_cons_self hmem) (h.logicalId ▸ h.others)
  · rw [checkSelfReplication, h.kind]
    simp [Json.str?]
  · refine checkCycle_eq_nil_iff.mpr (ordered_append hchecked.ordered hchecked.valid hvalid hcurrent ?_
      ?_ hdigest ?_)
    · rw [h.logicalId]
      exact lookup_knownNodes_of_getLast hlast hnames
    · intro target htarget
      refine ⟨h.relations target htarget, fun heq => h.others ?_⟩
      rw [← h.logicalId, ← heq]
      exact orderedTargets_subset hvalid htarget
    · intro hne record hrecord hmem
      exact hunnamed hne record (List.mem_cons_of_mem _ hrecord)
        (orderedTargets_subset (hchecked.valid record hrecord) hmem)

/-! ## The revision and its stored form -/

/-- No relation of a valid record names its identifier. -/
theorem not_mem_targetsOf {record : Fields} {id : String} (hvalid : validateRecord record = .ok [])
    (hid : recordIdOf record = .str id) (hne : id ≠ "") : id ∉ targetsOf record := by
  intro hmem
  obtain ⟨relation, hrelation, htarget⟩ := List.mem_filterMap.mp hmem
  obtain ⟨fields, rfl, -, htext, hother⟩ := (relationItems_valid hvalid).2 relation hrelation
  rw [hid] at hother
  refine hother ⟨by simp [Json.truthy, hne], ?_⟩
  cases hget : Fields.get fields "target" with
  | str text =>
      have hpresent : Fields.get? fields "target" = some (.str text) := Fields.get?_of_get hget (by simp)
      obtain rfl : text = id := by simpa [targetOf, Json.obj?, hpresent] using htarget
      exact Json.pyEq_self _
  | _ => simp [hget, isText] at htext

theorem followsWorkProtocol_iff {record : Fields} :
    followsWorkProtocol record = true ↔
      Fields.get (detailsOf record) "workProtocol" = .str workProtocol := by
  rw [followsWorkProtocol, detailsOf]
  cases (Fields.get record "details").obj? with
  | none => simp [Fields.get, Fields.get?]
  | some details => simp [Json.str?_eq_some_iff]

theorem checkDigestForm_of_validateRecord {record : Fields} (h : validateRecord record = .ok []) :
    checkDigestForm record = .ok [] := by
  have hrecord := (validateRecord_eq_nil_iff.mp h).1
  rw [recordDiagnostics, concatChecks_eq_nil_iff] at hrecord
  exact hrecord _ (by simp)

namespace NextRevision

variable {now : String} {current transition revised : Fields}

theorem producerReferences_eq (revision : NextRevision now current transition revised) :
    producerReferences revised = producerReferences current := by
  have hrevised : (Fields.get revised "details").obj? = some (detailsOf revised) := by
    rw [revision.getDetails_revised]
    rfl
  have hcurrent : (Fields.get current "details").obj? = some (detailsOf current) := by
    rw [detailsOf, revision.getDetails]
    rfl
  rw [producerReferences, hrevised, producerReferences, hcurrent]
  simp only [rawReferences, List.filterMap_cons, List.filterMap_nil,
    revision.get_details (by decide : "references" ∉ changedFields),
    revision.get_details (by decide : "actors" ∉ changedFields),
    revision.get_details (by decide : "evidenceReferences" ∉ changedFields),
    revision.get_details (by decide : "failureReference" ∉ changedFields),
    revision.get_details (by decide : "classifier" ∉ changedFields)]

/-- The revision takes an allowed step. -/
theorem workStep (revision : NextRevision now current transition revised)
    (hvalid : ValidWork current (detailsOf current)) : WorkStep current revised := by
  obtain ⟨state, -, hstate⟩ := hvalid.state
  obtain ⟨hfrom, -, -⟩ := revision.get_event
  rw [hstate, Json.pyStr_str] at hfrom
  have hallowed := revision.target_allowed
  rw [hstate, Json.pyStr_str] at hallowed
  obtain ⟨previous, hprevious, hget, hstep, hmem⟩ := revision.coordination_allowed hvalid.coordination
  refine ⟨?_, ⟨state, revision.targetState, hstate, revision.get_state, hallowed⟩,
    ⟨revision.event, revision.get_stateEvent, hfrom.trans hstate.symm⟩,
    ⟨previous, revision.coordination, coordinationState_of_get hprevious hget,
      coordinationState_of_get hmem revision.get_coordinationState, hstep⟩⟩
  · intro field hfield
    have hkey : field ∉ changedFields := by
      revert field
      decide
    rw [revision.get_details hkey]
    exact Json.pyEq_self _

/-- A valid next revision continues the current one. -/
theorem continues (revision : NextRevision now current transition revised) {digest : String}
    (hkind : Fields.get current "kind" = .str "WorkRequest")
    (hwork : ValidWork current (detailsOf current))
    (hdigest : Fields.get current "contentDigest" = .str digest)
    (hcurrent : validateRecord current = .ok []) (hvalid : validateRecord revised = .ok []) :
    Continues current revised := by
  obtain ⟨hid, -, -⟩ := hwork.logicalId
  have hne := hwork.named
  have hrecordId : recordIdOf revised = .str (logicalId current) :=
    revision.recordIdOf_revised.trans hid
  obtain ⟨items, hitems, -⟩ := exists_relationships hcurrent
  obtain ⟨added, hadded, -⟩ := revision.relationships hitems
  obtain ⟨n, hn, hmetadata⟩ := revision.get?_metadata
  have hread : metadataOf revised = revision.nextMetadata := by
    rw [metadataOf, revision.metadataOf_revised]
    rfl
  have hdigestOf : digestOf current = digest :=
    (digestOf_of_form (checkDigestForm_of_validateRecord hcurrent) hdigest).1
  refine ⟨hne, hrecordId, ?_, ?_, ⟨n, hn, ?_⟩, ?_, revision.workStep hwork, ?_, ?_,
    not_mem_targetsOf hvalid hrecordId hne⟩
  · rw [Fields.get, revision.get?_revised (by decide)]
    exact hkind
  · rw [followsWorkProtocol_iff, revision.get_details (by decide)]
    exact hwork.protocol
  · rw [hread, Fields.get, hmetadata]
    rfl
  · rw [hread, Fields.get, hmetadata, hdigest, hdigestOf]
    rfl
  · intro references hreferences
    exact ⟨references, revision.producerReferences_eq.trans hreferences, rfl⟩
  · -- follow-on requests order nothing
    intro target htarget
    have hrevised : relationItems revised = items ++ added.map followsUp := by
      rw [relationItems, Fields.get, hadded]
      rfl
    have hrelations : relationItems current = items := by
      rw [relationItems, Fields.get, hitems]
      rfl
    rw [orderedTargets, hrevised, List.filterMap_append] at htarget
    rw [orderedTargets, hrelations]
    rcases List.mem_append.mp htarget with hold | hnew
    · exact hold
    · obtain ⟨relation, hrelation, htarget⟩ := List.mem_filterMap.mp hnew
      obtain ⟨item, -, rfl⟩ := List.mem_map.mp hrelation
      cases htarget

end NextRevision

/-! ### With its digest -/

section Canonical

variable {candidate : Fields} (digest : String)

/-- The record with the digest and in canonical order. -/
def withDigestOf (candidate : Fields) (digest : String) : Fields :=
  canonFields (Fields.set candidate "contentDigest" (.str digest))

theorem get_withDigestOf {key : String} (hinert : Inert [key]) (hkey : key ≠ "contentDigest") :
    Fields.get (withDigestOf candidate digest) key = (Fields.get candidate key).sortKeys := by
  rw [withDigestOf, get_canonFields_of_inert hinert, Fields.get, get?_set_of_ne hkey, Fields.get]

theorem detailsOf_withDigestOf :
    detailsOf (withDigestOf candidate digest) = Fields.sortKeys (detailsOf candidate) := by
  rw [detailsOf, get_withDigestOf digest (by decide) (by decide), Json.obj?_sortKeys, detailsOf]
  cases (Fields.get candidate "details").obj? <;> rfl

theorem metadataOf_withDigestOf :
    metadataOf (withDigestOf candidate digest) = Fields.sortKeys (metadataOf candidate) := by
  rw [metadataOf, get_withDigestOf digest (by decide) (by decide), Json.obj?_sortKeys, metadataOf]
  cases (Fields.get candidate "metadata").obj? <;> rfl

/-- The items of the relations are those of the record, in some order. -/
theorem mem_relationItems_withDigestOf {relation : Json} :
    relation ∈ relationItems (withDigestOf candidate digest) ↔
      ∃ original ∈ relationItems candidate,
        (canonicalize ["relationships"] original).sortKeys = relation := by
  rw [relationItems, withDigestOf, get_canonFields, Fields.get, get?_set_of_ne (by decide),
    ← Fields.get, relationItems]
  cases Fields.get candidate "relationships" with
  | arr items =>
      rw [canonicalize_arr_of_mem (by decide), Json.sortKeys_arr]
      simp [Json.arr?]
  | _ => simp [Json.arr?]

/-- A valid relation keeps its type and target. -/
theorem targets_canonical {recordId relation : Json} (h : RelationshipOk recordId relation) :
    targetOf (canonicalize ["relationships"] relation).sortKeys = targetOf relation ∧
      orderedTarget (canonicalize ["relationships"] relation).sortKeys = orderedTarget relation := by
  obtain ⟨fields, rfl, -, htext, -⟩ := h
  have hpresent : ∃ text, Fields.get? fields "target" = some (.str text) := by
    cases hget : Fields.get fields "target" with
    | str text => exact ⟨text, Fields.get?_of_get hget (by simp)⟩
    | _ => simp [hget, isText] at htext
  obtain ⟨text, hpresent⟩ := hpresent
  rw [canonicalize_obj, canonicalizeFields_of_inert
    (inert_below (by decide : ["relationships"] ∈ unorderedArrayPaths)), Json.sortKeys_obj_eq]
  refine ⟨?_, ?_⟩
  · simp [targetOf, Json.obj?, Fields.get?_sortKeys, hpresent]
  · have htarget : Fields.get fields "target" = .str text := by
      rw [Fields.get, hpresent]
      rfl
    simp only [orderedTarget, Json.obj?, Option.bind_some, Fields.get_sortKeys, Json.str?_sortKeys,
      htarget, Json.sortKeys_str]

theorem mem_targetsOf_withDigestOf (hvalid : validateRecord candidate = .ok []) {target : String} :
    target ∈ targetsOf (withDigestOf candidate digest) ↔ target ∈ targetsOf candidate := by
  obtain ⟨-, hok⟩ := relationItems_valid hvalid
  simp only [targetsOf, List.mem_filterMap, mem_relationItems_withDigestOf]
  constructor
  · rintro ⟨_, ⟨original, horiginal, rfl⟩, htarget⟩
    exact ⟨original, horiginal, (targets_canonical (hok _ horiginal)).1 ▸ htarget⟩
  · rintro ⟨original, horiginal, htarget⟩
    exact ⟨_, ⟨original, horiginal, rfl⟩, (targets_canonical (hok _ horiginal)).1.trans htarget⟩

theorem mem_orderedTargets_withDigestOf (hvalid : validateRecord candidate = .ok [])
    {target : String} : target ∈ orderedTargets (withDigestOf candidate digest) ↔
      target ∈ orderedTargets candidate := by
  obtain ⟨-, hok⟩ := relationItems_valid hvalid
  simp only [orderedTargets, List.mem_filterMap, mem_relationItems_withDigestOf]
  constructor
  · rintro ⟨_, ⟨original, horiginal, rfl⟩, htarget⟩
    exact ⟨original, horiginal, (targets_canonical (hok _ horiginal)).2 ▸ htarget⟩
  · rintro ⟨original, horiginal, htarget⟩
    exact ⟨_, ⟨original, horiginal, rfl⟩, (targets_canonical (hok _ horiginal)).2.trans htarget⟩

theorem WorkStep.of_details {earlier later other : Fields} (h : WorkStep earlier later)
    (hdetails : detailsOf other = detailsOf later) : WorkStep earlier other where
  request := by rw [hdetails]; exact h.request
  state := by rw [stateOf, stateOf, hdetails]; exact h.state
  event := by rw [hdetails]; exact h.event
  coordination := by rw [hdetails]; exact h.coordination

theorem sameReferences_sortKeys (record : Fields) : SameReferences record (Fields.sortKeys record) := by
  intro references hreferences
  refine ⟨references.map ProducerReference.sortKeys, ?_, ?_⟩
  · rw [producerReferences_sortKeys, hreferences]
    rfl
  · rw [List.map_map]
    rfl

/-- What is stored of a record that continues another continues it as well. -/
theorem Continues.withDigestOf {current : Fields} (h : Continues current candidate)
    (hvalid : validateRecord candidate = .ok [])
    (hprevious : ∃ text, Fields.get current "contentDigest" = .str text) :
    Continues current (withDigestOf candidate digest) := by
  obtain ⟨n, hn, hrevision⟩ := h.revision
  obtain ⟨text, htext⟩ := hprevious
  refine ⟨h.named, ?_, ?_, ?_, ⟨n, hn, ?_⟩, ?_, ?_, ?_, ?_, ?_⟩
  · have hrecordId : recordIdOf (Fields.set candidate "contentDigest" (.str digest)) =
        recordIdOf candidate := by
      rw [recordIdOf, recordIdOf, Fields.get, get?_set_of_ne (by decide), ← Fields.get]
    rw [Protocol.withDigestOf, recordIdOf_canonFields, hrecordId, h.recordId, Json.sortKeys_str]
  · rw [get_withDigestOf digest (by decide) (by decide), h.kind, Json.sortKeys_str]
  · rw [followsWorkProtocol_iff, detailsOf_withDigestOf, Fields.get_sortKeys,
      followsWorkProtocol_iff.mp h.follows, Json.sortKeys_str]
  · rw [metadataOf_withDigestOf, Fields.get_sortKeys, hrevision, Json.sortKeys_int]
  · rw [metadataOf_withDigestOf, Fields.get_sortKeys, h.previous, htext, Json.sortKeys_str]
  · refine h.step.sortKeys.of_details ?_
    rw [detailsOf_withDigestOf, detailsOf_sortKeys]
  · intro references hreferences
    obtain ⟨others, hothers, hmap⟩ := h.references references hreferences
    obtain ⟨sorted, hsorted, hsame⟩ := sameReferences_sortKeys candidate others hothers
    refine ⟨sorted, ?_, hsame.trans hmap⟩
    rw [← hsorted, producerReferences, get_withDigestOf digest (by decide) (by decide),
      producerReferences, Fields.get_sortKeys]
  · intro target htarget
    exact h.relations target ((mem_orderedTargets_withDigestOf digest hvalid).mp htarget)
  · intro hmem
    exact h.others ((mem_targetsOf_withDigestOf digest hvalid).mp hmem)

end Canonical

end MncsCommons.Protocol
