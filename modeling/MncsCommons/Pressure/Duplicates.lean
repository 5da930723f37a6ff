/-
# Cycles of duplicates

Validation reports a cycle exactly when the `duplicate_of` relations have one:
the search goes on after it met a cycle, but it counts none exactly when the
search that stops there finds none, and no other check reports the code
(`validate_reports_iff`).  The search enters no node below itself, so it never
needs more turns than it is given (`visitDuplicates_fuel`).
-/

import MncsCommons.Pressure.Replay
import MncsCommons.Pressure.Validation
import MncsCommons.Data.Search

namespace MncsCommons.Pressure

open MncsCommons.Data MncsCommons.Protocol

/-! ## The relations -/

/-- A `duplicate_of` relation leads from the source to the target. -/
def DuplicateOf (events : List Fields) (source target : String) : Prop :=
  ∃ event ∈ events, Fields.get event "kind" = .str "PressureRelation" ∧
    (Fields.get event "relation").pyStr = "duplicate_of" ∧
    (Fields.get event "sourcePressure").pyStr = source ∧
    (Fields.get event "targetPressure").pyStr = target

/-- The `duplicate_of` relations lead from some pressure back to it. -/
def HasDuplicateCycle (events : List Fields) : Prop :=
  ∃ node, Relation.TransGen (DuplicateOf events) node node

section Search

variable {events : List Fields} {source target : String}

theorem mem_duplicateTargets : target ∈ duplicateTargets events source ↔
    DuplicateOf events source target := by
  rw [duplicateTargets, mem_sortedBy, List.mem_eraseDups, List.mem_map]
  simp only [List.mem_filter, Bool.and_eq_true, decide_eq_true_eq, DuplicateOf, and_assoc]

theorem step_duplicateTargets : Search.Step (duplicateTargets events) = DuplicateOf events := by
  funext source target
  exact propext mem_duplicateTargets

/-- A node with a target is a source. -/
theorem mem_duplicateSources (h : duplicateTargets events source ≠ []) :
    source ∈ duplicateSources events := by
  obtain ⟨target, htarget⟩ := List.exists_mem_of_ne_nil _ h
  obtain ⟨event, hevent, hkind, hrelation, hsource, -⟩ := mem_duplicateTargets.mp htarget
  rw [duplicateSources, mem_sortedBy, List.mem_eraseDups, List.mem_map]
  exact ⟨event, List.mem_filter.mpr ⟨hevent, by simp [hkind, hrelation]⟩, hsource⟩

/-! ## Turns enough -/

/-- The nodes above are sources, and the turns cover the sources that are not. -/
structure Covers (events : List Fields) (fuel : Nat) (visiting : List String) : Prop where
  nodup : visiting.Nodup
  subset : visiting ⊆ duplicateSources events
  enough : (duplicateSources events).length < fuel + visiting.length

variable {fuel : Nat} {visiting visited nodes : List String} {node : String}

theorem covers_nil (h : (duplicateSources events).length < fuel) : Covers events fuel [] :=
  ⟨List.nodup_nil, List.nil_subset _, h⟩

/-- No turns cover no search. -/
theorem not_covers_zero : ¬ Covers events 0 visiting := by
  intro h
  have hlength := (List.subperm_of_subset h.nodup h.subset).length_le
  have henough := h.enough
  omega

/-- A node with a target that is not above can be entered with a turn less. -/
theorem Covers.enter (h : Covers events (fuel + 1) visiting) (hnode : node ∉ visiting)
    (htarget : target ∈ duplicateTargets events node) : Covers events fuel (node :: visiting) where
  nodup := List.nodup_cons.mpr ⟨hnode, h.nodup⟩
  subset := List.cons_subset.mpr ⟨mem_duplicateSources (List.ne_nil_of_mem htarget), h.subset⟩
  enough := by
    have henough := h.enough
    rw [List.length_cons]
    omega

theorem visitEach_congr {first second : List String → String → List String × Nat}
    (h : ∀ node ∈ nodes, ∀ visited, first visited node = second visited node) :
    visitEach first visited nodes = visitEach second visited nodes := by
  induction nodes generalizing visited with
  | nil => rfl
  | cons node nodes ih =>
      obtain ⟨hnode, hnodes⟩ := List.forall_mem_cons.mp h
      rw [visitEach, visitEach, hnode, ih hnodes]

/-- A turn more changes nothing where the turns cover the search. -/
theorem visitDuplicates_succ (h : Covers events fuel visiting) :
    visitDuplicates events (fuel + 1) visiting visited node =
      visitDuplicates events fuel visiting visited node := by
  induction fuel generalizing visiting visited node with
  | zero => exact absurd h not_covers_zero
  | succ fuel ih =>
      rw [visitDuplicates]
      conv_rhs => rw [visitDuplicates]
      split
      · rfl
      · next hnot =>
        have hnode : node ∉ visiting := fun hmem => hnot (List.contains_iff_mem.mpr hmem)
        split
        · rfl
        · rw [visitEach_congr fun target htarget visited => ih (h.enter hnode htarget)]

/-- The search of validation is given the turns it needs. -/
theorem visitDuplicates_fuel (events : List Fields) (extra : Nat) (visited : List String)
    (node : String) :
    visitDuplicates events ((duplicateSources events).length + 2 + extra) [] visited node =
      visitDuplicates events ((duplicateSources events).length + 2) [] visited node := by
  induction extra with
  | zero => rfl
  | succ extra ih =>
      rw [← ih, ← Nat.add_assoc]
      apply visitDuplicates_succ
      apply covers_nil
      omega

/-! ## What the search counts -/

/-- The search that stops at the first cycle, from one that counts them. -/
def stopAtFirst (counted : List String × Nat) : Option (List String) :=
  if counted.2 = 0 then some counted.1 else none

theorem visitAll_eq_stopAtFirst {visitOne : List String → String → List String × Nat}
    {stopping : List String → String → Option (List String)}
    (h : ∀ node ∈ nodes, ∀ visited, stopping visited node = stopAtFirst (visitOne visited node)) :
    Search.visitAll stopping visited nodes = stopAtFirst (visitEach visitOne visited nodes) := by
  induction nodes generalizing visited with
  | nil => rfl
  | cons node nodes ih =>
      obtain ⟨hnode, hnodes⟩ := List.forall_mem_cons.mp h
      rw [Search.visitAll, hnode, visitEach]
      by_cases hcount : (visitOne visited node).2 = 0
      · simp only [stopAtFirst, hcount, if_true, Nat.zero_add]
        exact ih hnodes
      · simp [stopAtFirst, hcount]

/-- The search counts no cycle exactly when the one that stops goes on. -/
theorem visit_eq_stopAtFirst (h : Covers events fuel visiting) :
    Search.visit (duplicateTargets events) fuel visiting visited node =
      stopAtFirst (visitDuplicates events fuel visiting visited node) := by
  induction fuel generalizing visiting visited node with
  | zero => exact absurd h not_covers_zero
  | succ fuel ih =>
      rw [Search.visit, visitDuplicates]
      split
      · rfl
      · next hnot =>
        have hnode : node ∉ visiting := fun hmem => hnot (List.contains_iff_mem.mpr hmem)
        split
        · rfl
        · rw [visitAll_eq_stopAtFirst fun target htarget visited => ih (h.enter hnode htarget)]
          unfold stopAtFirst
          dsimp only
          split
          · rfl
          · rfl

/-- The search finds something to report exactly when there is a cycle. -/
theorem duplicateCycles_eq_nil_iff (events : List Fields) :
    duplicateCycles events = [] ↔ ¬ HasDuplicateCycle events := by
  have hfuel : (duplicateSources events).length < (duplicateSources events).length + 2 := by omega
  have hsearch := Search.search_isNone_iff (fun _ => mem_duplicateSources) hfuel
  rw [step_duplicateTargets,
    visitAll_eq_stopAtFirst fun node _ visited => visit_eq_stopAtFirst (covers_nil hfuel)] at hsearch
  rw [HasDuplicateCycle, ← hsearch, duplicateCycles, List.replicate_eq_nil_iff, stopAtFirst]
  split
  · simpa
  · simpa

end Search

/-! ## What validation reports -/

/-- A check that does not report a cycle of duplicates. -/
def Avoids (check : Py (List Diagnostic)) : Prop :=
  ∀ report, check = .ok report → ∀ diagnostic ∈ report, diagnostic.code ≠ "DUPLICATE_CYCLE"

section Codes

variable {α : Type}

theorem avoids_nil : Avoids (.ok []) := by
  intro report hreport diagnostic hdiagnostic
  rw [← Except.ok.inj hreport] at hdiagnostic
  exact absurd hdiagnostic List.not_mem_nil

theorem avoids_reportIf {code : String} (hcode : code ≠ "DUPLICATE_CYCLE") (condition : Bool)
    (path message : String) : Avoids (reportIf condition code path message) := by
  intro report hreport diagnostic hdiagnostic
  rw [← Except.ok.inj hreport] at hdiagnostic
  cases condition with
  | false => exact absurd hdiagnostic List.not_mem_nil
  | true =>
      rw [List.mem_singleton.mp hdiagnostic]
      exact hcode

theorem avoids_bind {compute : Py α} {next : α → Py (List Diagnostic)}
    (h : ∀ value, compute = .ok value → Avoids (next value)) : Avoids (compute >>= next) := by
  intro report hreport
  obtain ⟨value, hvalue, hnext⟩ := Py.bind_eq_ok_iff.mp hreport
  exact h value hvalue report hnext

/-- A check that is reported after others. -/
theorem avoids_prepend {first : List Diagnostic} {check : Py (List Diagnostic)}
    (hfirst : ∀ diagnostic ∈ first, diagnostic.code ≠ "DUPLICATE_CYCLE") (h : Avoids check) :
    Avoids (check >>= fun rest => return first ++ rest) := by
  intro report hreport diagnostic hdiagnostic
  obtain ⟨rest, hrest, happend⟩ := Py.bind_eq_ok_iff.mp hreport
  rw [← Except.ok.inj happend] at hdiagnostic
  rcases List.mem_append.mp hdiagnostic with hmem | hmem
  · exact hfirst diagnostic hmem
  · exact h rest hrest diagnostic hmem

theorem avoids_concatChecks {checks : List (Py (List Diagnostic))}
    (h : ∀ check ∈ checks, Avoids check) : Avoids (concatChecks checks) := by
  induction checks with
  | nil => exact avoids_nil
  | cons check checks ih =>
      obtain ⟨hcheck, hchecks⟩ := List.forall_mem_cons.mp h
      exact avoids_bind fun first hfirst => avoids_prepend (hcheck first hfirst) (ih hchecks)

theorem avoids_commonChecks (document : Fields) (schema path subject digestSubject : String) :
    ∀ check ∈ commonChecks document schema path subject digestSubject, Avoids check := by
  intro check hcheck
  simp only [commonChecks, List.mem_cons, List.not_mem_nil, or_false] at hcheck
  rcases hcheck with rfl | rfl
  · exact avoids_reportIf (by decide) _ _ _
  · exact avoids_reportIf (by decide) _ _ _

theorem avoids_reportUnlessRepository (value : Json) (path message : String) :
    Avoids (reportUnlessRepository value path message) :=
  avoids_bind fun _ _ => avoids_reportIf (by decide) _ _ _

theorem avoids_checkVocabulary (record : Fields) (path : String) :
    Avoids (checkVocabulary record path) := by
  apply avoids_bind
  intro target _
  dsimp only
  split
  · exact avoids_bind fun _ _ => avoids_reportIf (by decide) _ _ _
  · exact avoids_bind fun _ _ => avoids_reportIf (by decide) _ _ _

theorem avoids_recordHead (name : String) (record : Fields) :
    ∀ check ∈ recordHead name record, Avoids check := by
  intro check hcheck
  simp only [recordHead, List.mem_append, List.mem_cons, List.not_mem_nil, or_false,
    List.mem_map] at hcheck
  rcases hcheck with ((hcommon | rfl | rfl) | ⟨field, -, rfl⟩) | rfl | rfl | rfl | rfl
  · exact avoids_commonChecks _ _ _ _ _ check hcommon
  · exact avoids_reportIf (by decide) _ _ _
  · exact avoids_reportIf (by decide) _ _ _
  · exact avoids_reportIf (by decide) _ _ _
  · exact avoids_checkVocabulary record _
  · exact avoids_reportIf (by decide) _ _ _
  · exact avoids_reportUnlessRepository _ _ _
  · exact avoids_reportIf (by decide) _ _ _

theorem code_checkAlias (path : String) (recordId : Json) (owners : List (String × String))
    (entry : Json) : ∀ diagnostic ∈ (checkAlias path recordId owners entry).1,
      diagnostic.code ≠ "DUPLICATE_CYCLE" := by
  unfold checkAlias
  split
  · split
    · simp
    · split
      · split
        · simp
        · simp
      · simp
  · simp

theorem code_checkAliases (path : String) (recordId : Json) (owners : List (String × String))
    (entries : List Json) : ∀ diagnostic ∈ (checkAliases path recordId owners entries).1,
      diagnostic.code ≠ "DUPLICATE_CYCLE" := by
  induction entries generalizing owners with
  | nil => simp [checkAliases]
  | cons entry entries ih =>
      intro diagnostic hdiagnostic
      rcases List.mem_append.mp hdiagnostic with hmem | hmem
      · exact code_checkAlias path recordId owners entry diagnostic hmem
      · exact ih _ diagnostic hmem

theorem avoids_checkDerivedId (record : Fields) (path : String) :
    Avoids (checkDerivedId record path) := by
  apply avoids_bind
  intro target _
  split
  · exact avoids_bind fun _ _ => avoids_reportIf (by decide) _ _ _
  · exact avoids_nil

theorem avoids_recordTail (name : String) (record : Fields) : Avoids (recordTail name record) := by
  apply avoids_bind
  intro affected _
  apply avoids_bind
  intro unknown hunknown
  have hrepositories : Avoids (concatChecks (affected.map fun repository =>
      reportUnlessRepository repository ("records/" ++ name ++ ".json" ++ ".affectedRepositories")
        ("unknown repository " ++ String.ofList (reprValue repository)))) := by
    apply avoids_concatChecks
    intro check hcheck
    obtain ⟨repository, -, rfl⟩ := List.mem_map.mp hcheck
    exact avoids_reportUnlessRepository _ _ _
  exact avoids_prepend (hrepositories unknown hunknown) (avoids_checkDerivedId record _)

theorem avoids_checkRecords (owners : List (String × String)) (records : List (String × Fields)) :
    Avoids (checkRecords owners records) := by
  induction records generalizing owners with
  | nil => exact avoids_nil
  | cons entry records ih =>
      intro report hreport diagnostic hdiagnostic
      obtain ⟨first, hfirst, hreport⟩ := Py.bind_eq_ok_iff.mp hreport
      obtain ⟨aliases, -, hreport⟩ := Py.bind_eq_ok_iff.mp hreport
      obtain ⟨tail, htail, hreport⟩ := Py.bind_eq_ok_iff.mp hreport
      obtain ⟨rest, hrest, hreport⟩ := Py.bind_eq_ok_iff.mp hreport
      rw [← Except.ok.inj hreport] at hdiagnostic
      simp only [List.mem_append] at hdiagnostic
      rcases hdiagnostic with ((hmem | hmem) | hmem) | hmem
      · exact avoids_concatChecks (avoids_recordHead _ _) first hfirst diagnostic hmem
      · exact code_checkAliases _ _ _ _ diagnostic hmem
      · exact avoids_recordTail _ _ tail htail diagnostic hmem
      · exact ih _ rest hrest diagnostic hmem

theorem avoids_checkEvidence (path : String) (index : Nat) (entry : Json) :
    Avoids (checkEvidence path index entry) := by
  unfold checkEvidence
  split
  · exact avoids_bind fun _ _ => avoids_reportIf (by decide) _ _ _
  · exact avoids_reportIf (by decide) _ _ _

theorem avoids_checkObservationId (observation : Fields) (path : String) :
    Avoids (checkObservationId observation path) := by
  unfold checkObservationId
  split
  · exact avoids_reportIf (by decide) _ _ _
  · exact avoids_nil

theorem avoids_checkReproduction (observation : Fields) (path : String) :
    Avoids (checkReproduction observation path) := by
  unfold checkReproduction
  split
  · exact avoids_bind fun _ _ => avoids_reportIf (by decide) _ _ _
  · exact avoids_bind fun _ _ => avoids_reportIf (by decide) _ _ _

theorem avoids_checkObservation (records : List (String × Fields)) (name : String)
    (observation : Fields) : Avoids (checkObservation records name observation) := by
  apply avoids_bind
  intro first hfirst
  apply avoids_bind
  intro evidence _
  apply avoids_prepend
  · refine avoids_concatChecks ?_ first hfirst
    intro check hcheck
    simp only [List.mem_append, List.mem_cons, List.not_mem_nil, or_false] at hcheck
    rcases hcheck with hcommon | rfl | rfl | rfl | rfl | rfl | rfl
    · exact avoids_commonChecks _ _ _ _ _ check hcommon
    · exact avoids_reportIf (by decide) _ _ _
    · exact avoids_checkObservationId _ _
    · exact avoids_bind fun _ _ => avoids_reportIf (by decide) _ _ _
    · exact avoids_reportUnlessRepository _ _ _
    · exact avoids_reportIf (by decide) _ _ _
    · exact avoids_checkReproduction _ _
  · apply avoids_concatChecks
    intro check hcheck
    obtain ⟨index, hindex, rfl⟩ := List.mem_mapIdx.mp hcheck
    exact avoids_checkEvidence _ _ _

theorem avoids_checkActor (event : Fields) (path subject time : String) :
    ∀ check ∈ checkActor event path subject time, Avoids check := by
  intro check hcheck
  simp only [checkActor, List.mem_cons, List.not_mem_nil, or_false] at hcheck
  rcases hcheck with rfl | rfl
  · exact avoids_reportUnlessRepository _ _ _
  · exact avoids_reportIf (by decide) _ _ _

theorem avoids_checkRelation (records : List (String × Fields)) (event : Fields) (path : String) :
    Avoids (checkRelation records event path) := by
  apply avoids_concatChecks
  intro check hcheck
  rcases List.mem_cons.mp hcheck with rfl | hcheck
  · apply avoids_bind
    intro known _
    dsimp only
    split
    · exact avoids_bind fun _ _ => avoids_reportIf (by decide) _ _ _
    · exact avoids_bind fun _ _ => avoids_reportIf (by decide) _ _ _
  · rcases List.mem_cons.mp hcheck with rfl | hcheck
    · exact avoids_bind fun _ _ => avoids_reportIf (by decide) _ _ _
    · exact avoids_checkActor _ _ _ _ check hcheck

theorem avoids_checkTransition (records observations : List (String × Fields)) (event : Fields)
    (path : String) : Avoids (checkTransition records observations event path) := by
  apply avoids_bind
  intro first hfirst
  apply avoids_bind
  intro references _
  apply avoids_prepend
  · refine avoids_concatChecks ?_ first hfirst
    intro check hcheck
    rcases List.mem_cons.mp hcheck with rfl | hcheck
    · exact avoids_bind fun _ _ => avoids_reportIf (by decide) _ _ _
    · exact avoids_checkActor _ _ _ _ check hcheck
  · apply avoids_concatChecks
    intro check hcheck
    obtain ⟨reference, -, rfl⟩ := List.mem_map.mp hcheck
    exact avoids_bind fun _ _ => avoids_reportIf (by decide) _ _ _

theorem avoids_checkEventId (event : Fields) (path : String) : Avoids (checkEventId event path) := by
  unfold checkEventId
  split
  · exact avoids_reportIf (by decide) _ _ _
  · exact avoids_nil

theorem avoids_validateEvent (records observations : List (String × Fields)) (name : String)
    (event : Fields) : Avoids (validateEvent records observations name event) := by
  apply avoids_bind
  intro first hfirst
  have hhead : ∀ diagnostic ∈ first, diagnostic.code ≠ "DUPLICATE_CYCLE" := by
    refine avoids_concatChecks ?_ first hfirst
    intro check hcheck
    simp only [List.mem_append, List.mem_cons, List.not_mem_nil, or_false] at hcheck
    rcases hcheck with hcommon | rfl | rfl
    · exact avoids_commonChecks _ _ _ _ _ check hcommon
    · exact avoids_reportIf (by decide) _ _ _
    · exact avoids_checkEventId _ _
  dsimp only
  split
  · exact avoids_prepend hhead (avoids_checkRelation _ _ _)
  · split
    · exact avoids_prepend hhead (avoids_checkTransition _ _ _ _)
    · exact avoids_prepend hhead (avoids_reportIf (by decide) _ _ _)

/-- A projection reports other codes. -/
theorem code_projectOne {zone : Int → Py Int} {recordId : String} {record : Fields}
    {observations events : List Fields} {allRecordIds : List String}
    {projection : PressureProjection}
    (h : projectOne zone recordId record observations events allRecordIds = .ok projection) :
    ∀ diagnostic ∈ projection.diagnostics, diagnostic.code ≠ "DUPLICATE_CYCLE" := by
  obtain ⟨reached, hprojected⟩ := projected_of_projectOne h
  have hhistory : ∀ code ∈ historyCodes, code ≠ "DUPLICATE_CYCLE" := by decide
  intro diagnostic hdiagnostic
  rw [hprojected.diagnostics_eq] at hdiagnostic
  rcases List.mem_append.mp hdiagnostic with hmem | hmem
  · exact hhistory _ (replay_codes hprojected.replayed (by simp) diagnostic hmem)
  · rcases List.mem_append.mp hmem with hmem | hmem
    · split at hmem
      · rw [List.mem_singleton.mp hmem]
        simp
      · exact absurd hmem List.not_mem_nil
    · split at hmem
      · exact absurd hmem List.not_mem_nil
      · rw [List.mem_singleton.mp hmem]
        simp

/-- The diagnostics of readable documents name a cycle exactly when there is one. -/
theorem validateDocuments_reports_iff {host : Host} {manifest : Fields} {documents : Documents}
    {report : List Diagnostic} (h : validateDocuments host manifest documents = .ok report) :
    (∃ diagnostic ∈ report, diagnostic.code = "DUPLICATE_CYCLE") ↔
      HasDuplicateCycle (documents.events.map Prod.snd) := by
  obtain ⟨manifestReport, hmanifest, h⟩ := Py.bind_eq_ok_iff.mp h
  obtain ⟨records, hrecords, h⟩ := Py.bind_eq_ok_iff.mp h
  obtain ⟨observations, hobservations, h⟩ := Py.bind_eq_ok_iff.mp h
  obtain ⟨events, hevents, h⟩ := Py.bind_eq_ok_iff.mp h
  obtain ⟨projected, hprojected, h⟩ := Py.bind_eq_ok_iff.mp h
  obtain rfl := Except.ok.inj h
  have hcycles := not_congr (duplicateCycles_eq_nil_iff (documents.events.map Prod.snd))
  rw [not_not] at hcycles
  rw [← hcycles]
  constructor
  · rintro ⟨diagnostic, hmem, hcode⟩
    simp only [List.mem_append] at hmem
    rcases hmem with ((((hmem | hmem) | hmem) | hmem) | hmem) | hmem
    · exact absurd hcode (avoids_reportIf (by decide) _ _ _ _ hmanifest _ hmem)
    · exact absurd hcode (avoids_checkRecords _ _ _ hrecords _ hmem)
    · refine absurd hcode (avoids_concatChecks ?_ _ hobservations _ hmem)
      intro check hcheck
      obtain ⟨entry, -, rfl⟩ := List.mem_map.mp hcheck
      exact avoids_checkObservation _ _ _
    · refine absurd hcode (avoids_concatChecks ?_ _ hevents _ hmem)
      intro check hcheck
      obtain ⟨entry, -, rfl⟩ := List.mem_map.mp hcheck
      exact avoids_validateEvent _ _ _ _
    · exact List.ne_nil_of_mem hmem
    · obtain ⟨diagnostics, hdiagnostics, hmem⟩ := List.mem_flatten.mp hmem
      obtain ⟨projection, hprojection, rfl⟩ := List.mem_map.mp hdiagnostics
      obtain ⟨entry, -, hproject⟩ := (mem_collect hprojected).mp hprojection
      exact absurd hcode (code_projectOne hproject diagnostic hmem)
  · intro hne
    obtain ⟨diagnostic, hmem⟩ := List.exists_mem_of_ne_nil _ hne
    refine ⟨diagnostic, ?_, ?_⟩
    · simp only [List.mem_append]
      exact .inl (.inr hmem)
    · rw [(List.mem_replicate.mp hmem).2]

end Codes

/-- The documents that validation reads: those of a registry whose directories and
manifest are there, when all of them are readable. -/
def Reads (registry : Registry) (read : Documents) : Prop :=
  registry.complete = true ∧ registry.manifest.isSome = true ∧ documents registry = .ok read

/-- A report names a cycle exactly when the relations that validation reads have
one. -/
theorem validate_reports_iff {host : Host} {registry : Registry} {report : List Diagnostic}
    (h : validate host registry = .ok report) :
    (∃ diagnostic ∈ report, diagnostic.code = "DUPLICATE_CYCLE") ↔
      ∃ read, Reads registry read ∧ HasDuplicateCycle (read.events.map Prod.snd) := by
  unfold validate at h
  split at h
  · next hcomplete =>
    obtain rfl := Except.ok.inj h
    constructor
    · simp
    · rintro ⟨read, ⟨hread, -, -⟩, -⟩
      rw [hread] at hcomplete
      exact absurd hcomplete (by simp)
  · next hcomplete =>
    split at h
    · next hmanifest =>
      obtain rfl := Except.ok.inj h
      constructor
      · simp
      · rintro ⟨read, ⟨-, hread, -⟩, -⟩
        rw [hmanifest] at hread
        cases hread
    · next manifest hmanifest =>
      split at h
      · next error herror =>
        obtain rfl := Except.ok.inj h
        constructor
        · simp
        · rintro ⟨read, ⟨-, -, hread⟩, -⟩
          rw [herror] at hread
          cases hread
      · next read hread =>
        rw [validateDocuments_reports_iff h]
        constructor
        · intro hcycle
          refine ⟨read, ⟨by simpa using hcomplete, ?_, hread⟩, hcycle⟩
          rw [hmanifest]
          rfl
        · rintro ⟨other, ⟨-, -, hother⟩, hcycle⟩
          rw [hread] at hother
          rwa [← Except.ok.inj hother] at hcycle

end MncsCommons.Pressure
