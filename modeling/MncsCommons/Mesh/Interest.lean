/-
# Interest filters

A filter names the records that a node wants from a peer: bounded lists of names for the
dimensions it restricts, and two flags.  A filter that was read is well formed, and each
well formed filter reads back from the text of its own mapping
(`fromMapping_round_trip`).
-/

import MncsCommons.Data.Checks
import MncsCommons.Data.Updates
import MncsCommons.Protocol.WorkHistory

namespace MncsCommons.Mesh

open MncsCommons.Data MncsCommons.Protocol

/-- `MeshError`, `MeshExecutorError`, or another exception. -/
inductive MeshError where
  | mesh (code message : String)
  | executor (message : String)
  | raised (error : PyError)
  deriving DecidableEq

/-- A computation of the mesh that returns a value or raises. -/
abbrev MeshPy (α : Type) := Except MeshError α

/-! ## Filters -/

def interestVersion : String := "commons.mncs.dev/interest/v0alpha1"

def maxDimensionEntries : Nat := 64

def maxDimensionString : Nat := 256

def maxRecordIds : Nat := 1024

/-- `InterestFilter`. -/
structure InterestFilter where
  kinds : List String
  projects : List String
  contracts : List String
  producers : List String
  outcomes : List String
  lifecycleStates : List String
  relationshipTypes : List String
  labels : List String
  recordIds : List String
  openWorkOnly : Bool
  promotionRelevant : Bool
  deriving DecidableEq

namespace InterestFilter

/-- `match_all`. -/
def matchAll : InterestFilter := ⟨[], [], [], [], [], [], [], [], [], false, false⟩

/-- A list of texts. -/
def texts (names : List String) : Json := .arr (names.map .str)

/-- `as_dict`. -/
def asDict (interest : InterestFilter) : Fields :=
  [("interestVersion", .str interestVersion), ("kinds", texts interest.kinds),
    ("projects", texts interest.projects), ("contracts", texts interest.contracts),
    ("producers", texts interest.producers), ("outcomes", texts interest.outcomes),
    ("lifecycleStates", texts interest.lifecycleStates),
    ("relationshipTypes", texts interest.relationshipTypes), ("labels", texts interest.labels),
    ("recordIds", texts interest.recordIds), ("openWorkOnly", .bool interest.openWorkOnly),
    ("promotionRelevant", .bool interest.promotionRelevant)]

/-- An entry of a dimension. -/
def readEntry : Json → Option String
  | .str text =>
      if !Str.isBlank text && text.length ≤ maxDimensionString then some text else none
  | _ => none

/-- `_bounded_tuple`. -/
def boundedTuple (name : String) (maximum : Nat) (value : Json) : MeshPy (List String) :=
  match value with
  | .null => .ok []
  | .arr items =>
      if maximum < items.length then
        .error (.mesh "INVALID_INTEREST" (name ++ " exceeds " ++ toString maximum ++ " entries"))
      else match items.mapM readEntry with
        | some names => .ok (sortedBy id names.eraseDups)
        | none => .error (.mesh "INVALID_INTEREST" (name ++ " entries must be bounded strings"))
  | _ => .error (.mesh "INVALID_INTEREST" (name ++ " must be a list of strings"))

/-- The keys that a filter may have. -/
def known : List String :=
  ["interestVersion", "kinds", "projects", "contracts", "producers", "outcomes",
    "lifecycleStates", "relationshipTypes", "labels", "recordIds", "openWorkOnly",
    "promotionRelevant"]

/-- The check of the keys. -/
def requireKnown (value : Fields) : MeshPy Unit :=
  let unknown := sortedBy id ((Fields.keys value).filter fun key => !known.contains key)
  if unknown.isEmpty then .ok ()
  else .error (.mesh "UNKNOWN_INTEREST_DIMENSION"
    ("unsupported interest dimensions: " ++ Str.join "," unknown))

/-- The check of the version. -/
def requireVersion (value : Fields) : MeshPy Unit :=
  let version := (Fields.get? value "interestVersion").getD (.str interestVersion)
  if version = .str interestVersion then .ok ()
  else .error (.mesh "UNSUPPORTED_INTEREST_VERSION"
    ("interest " ++ String.ofList (reprValue version) ++ " not supported"))

/-- The check of a flag. -/
def requireFlag (value : Fields) (flag : String) : MeshPy Unit :=
  match Fields.get? value flag with
  | none => .ok ()
  | some (.bool _) => .ok ()
  | some _ => .error (.mesh "INVALID_INTEREST" (flag ++ " must be a boolean"))

/-- One dimension of a mapping. -/
def dimension (value : Fields) (name : String) (maximum : Nat) : MeshPy (List String) :=
  boundedTuple name maximum (Fields.get value name)

/-- `from_mapping` of a mapping. -/
def fromMapping (value : Fields) : MeshPy InterestFilter := do
  requireKnown value
  requireVersion value
  requireFlag value "openWorkOnly"
  requireFlag value "promotionRelevant"
  return {
    kinds := ← dimension value "kinds" maxDimensionEntries
    projects := ← dimension value "projects" maxDimensionEntries
    contracts := ← dimension value "contracts" maxDimensionEntries
    producers := ← dimension value "producers" maxDimensionEntries
    outcomes := ← dimension value "outcomes" maxDimensionEntries
    lifecycleStates := ← dimension value "lifecycleStates" maxDimensionEntries
    relationshipTypes := ← dimension value "relationshipTypes" maxDimensionEntries
    labels := ← dimension value "labels" maxDimensionEntries
    recordIds := ← dimension value "recordIds" maxRecordIds
    openWorkOnly := (Fields.get value "openWorkOnly").truthy
    promotionRelevant := (Fields.get value "promotionRelevant").truthy }

/-! ## Reading a filter -/

theorem length_eraseDups_le {α : Type} [DecidableEq α] (items : List α) :
    items.eraseDups.length ≤ items.length := by
  have hsubperm : items.eraseDups.Subperm items :=
    (nodup_eraseDups items).subperm fun item hmem => List.mem_eraseDups.mp hmem
  exact hsubperm.length_le

theorem eraseDups_eq_self {α : Type} [DecidableEq α] {items : List α} (h : items.Nodup) :
    items.eraseDups = items := by
  induction items with
  | nil => rfl
  | cons item items ih =>
      obtain ⟨hnew, hrest⟩ := List.nodup_cons.mp h
      have hfilter : (items.filter fun other => !other == item) = items :=
        List.filter_eq_self.mpr fun other hmem => by
          simpa using fun heq : other = item => hnew (heq ▸ hmem)
      rw [List.eraseDups_cons, hfilter, ih hrest]

/-- A dimension that was read: bounded texts in ascending order. -/
structure Dimension (maximum : Nat) (names : List String) : Prop where
  ascending : names.Pairwise (· < ·)
  bounded : names.length ≤ maximum
  entries : ∀ name ∈ names, readEntry (.str name) = some name

theorem Dimension.nil (maximum : Nat) : Dimension maximum [] :=
  ⟨.nil, Nat.zero_le _, fun _ hmem => absurd hmem List.not_mem_nil⟩

theorem eq_of_readEntry {value : Json} {name : String} (h : readEntry value = some name) :
    value = .str name := by
  cases value with
  | str text =>
      rw [readEntry] at h
      split at h
      · rw [Option.some.inj h]
      · cases h
  | null | bool _ | int _ | decimal _ | arr _ | obj _ => cases h

theorem mapM_readEntry_eq_some_iff {items : List Json} {names : List String} :
    items.mapM readEntry = some names ↔
      items = names.map .str ∧ ∀ name ∈ names, readEntry (.str name) = some name := by
  induction items generalizing names with
  | nil => cases names <;> simp
  | cons item items ih =>
      rw [List.mapM_cons]
      cases names with
      | nil => simp [Option.bind_eq_some_iff]
      | cons name names =>
          simp only [Option.bind_eq_bind, Option.bind_eq_some_iff, Option.pure_def,
            Option.some.injEq, List.cons.injEq, List.map_cons, List.forall_mem_cons, ih]
          constructor
          · rintro ⟨_, hfirst, _, ⟨rfl, hrest⟩, rfl, rfl⟩
            obtain rfl := eq_of_readEntry hfirst
            exact ⟨⟨rfl, rfl⟩, hfirst, hrest⟩
          · rintro ⟨⟨rfl, rfl⟩, hfirst, hrest⟩
            exact ⟨_, hfirst, _, ⟨rfl, hrest⟩, rfl, rfl⟩

theorem dimension_of_boundedTuple {name : String} {maximum : Nat} {value : Json}
    {names : List String} (h : boundedTuple name maximum value = .ok names) :
    Dimension maximum names := by
  cases value with
  | null =>
      obtain rfl := Except.ok.inj h
      exact .nil maximum
  | arr items =>
      rw [boundedTuple] at h
      split at h
      · cases h
      · next hlength =>
        split at h
        · next read hread =>
          obtain rfl := Except.ok.inj h
          obtain ⟨rfl, hentries⟩ := mapM_readEntry_eq_some_iff.mp hread
          refine ⟨?_, ?_, fun name hmem => hentries name ?_⟩
          · exact ((pairwise_sortedBy id _).and
              ((sortedBy_perm id _).nodup_iff.mpr (nodup_eraseDups read))).imp
              fun hpair => lt_of_le_of_ne hpair.1 hpair.2
          · rw [length_sortedBy]
            rw [List.length_map] at hlength
            exact (length_eraseDups_le read).trans (Nat.le_of_not_lt hlength)
          · exact List.mem_eraseDups.mp (mem_sortedBy.mp hmem)
        · cases h
  | bool _ | int _ | decimal _ | str _ | obj _ => cases h

/-- A dimension reads as it is written. -/
theorem boundedTuple_texts (name : String) {maximum : Nat} {names : List String}
    (h : Dimension maximum names) : boundedTuple name maximum (texts names) = .ok names := by
  have hread : (names.map Json.str).mapM readEntry = some names :=
    mapM_readEntry_eq_some_iff.mpr ⟨rfl, h.entries⟩
  rw [texts, boundedTuple, if_neg (by simpa using h.bounded), hread]
  simp only
  have hsorted : sortedBy id names = names := sortedBy_eq_self (h.ascending.imp le_of_lt)
  rw [eraseDups_eq_self (h.ascending.imp ne_of_lt), hsorted]

/-- What a mapping that is read has. -/
structure Reads (value : Fields) (interest : InterestFilter) : Prop where
  keys : requireKnown value = .ok ()
  version : requireVersion value = .ok ()
  openWork : requireFlag value "openWorkOnly" = .ok ()
  promotion : requireFlag value "promotionRelevant" = .ok ()
  kinds : dimension value "kinds" maxDimensionEntries = .ok interest.kinds
  projects : dimension value "projects" maxDimensionEntries = .ok interest.projects
  contracts : dimension value "contracts" maxDimensionEntries = .ok interest.contracts
  producers : dimension value "producers" maxDimensionEntries = .ok interest.producers
  outcomes : dimension value "outcomes" maxDimensionEntries = .ok interest.outcomes
  lifecycleStates :
    dimension value "lifecycleStates" maxDimensionEntries = .ok interest.lifecycleStates
  relationshipTypes :
    dimension value "relationshipTypes" maxDimensionEntries = .ok interest.relationshipTypes
  labels : dimension value "labels" maxDimensionEntries = .ok interest.labels
  recordIds : dimension value "recordIds" maxRecordIds = .ok interest.recordIds
  openWorkOnly : (Fields.get value "openWorkOnly").truthy = interest.openWorkOnly
  promotionRelevant : (Fields.get value "promotionRelevant").truthy = interest.promotionRelevant

theorem fromMapping_eq_ok_iff {value : Fields} {interest : InterestFilter} :
    fromMapping value = .ok interest ↔ Reads value interest := by
  rw [fromMapping]
  simp only [bind_eq_ok_iff, pure, Except.pure, Except.ok.injEq]
  constructor
  · rintro ⟨_, hkeys, _, hversion, _, hopen, _, hpromotion, _, hkinds, _, hprojects, _, hcontracts,
      _, hproducers, _, houtcomes, _, hstates, _, htypes, _, hlabels, _, hids, rfl⟩
    exact ⟨hkeys, hversion, hopen, hpromotion, hkinds, hprojects, hcontracts, hproducers, houtcomes,
      hstates, htypes, hlabels, hids, rfl, rfl⟩
  · intro h
    refine ⟨_, h.keys, _, h.version, _, h.openWork, _, h.promotion, _, h.kinds, _, h.projects, _,
      h.contracts, _, h.producers, _, h.outcomes, _, h.lifecycleStates, _, h.relationshipTypes, _,
      h.labels, _, h.recordIds, ?_⟩
    rw [h.openWorkOnly, h.promotionRelevant]

/-- A filter whose dimensions could have been read. -/
structure WellFormed (interest : InterestFilter) : Prop where
  kinds : Dimension maxDimensionEntries interest.kinds
  projects : Dimension maxDimensionEntries interest.projects
  contracts : Dimension maxDimensionEntries interest.contracts
  producers : Dimension maxDimensionEntries interest.producers
  outcomes : Dimension maxDimensionEntries interest.outcomes
  lifecycleStates : Dimension maxDimensionEntries interest.lifecycleStates
  relationshipTypes : Dimension maxDimensionEntries interest.relationshipTypes
  labels : Dimension maxDimensionEntries interest.labels
  recordIds : Dimension maxRecordIds interest.recordIds

theorem Reads.wellFormed {value : Fields} {interest : InterestFilter} (h : Reads value interest) :
    WellFormed interest where
  kinds := dimension_of_boundedTuple h.kinds
  projects := dimension_of_boundedTuple h.projects
  contracts := dimension_of_boundedTuple h.contracts
  producers := dimension_of_boundedTuple h.producers
  outcomes := dimension_of_boundedTuple h.outcomes
  lifecycleStates := dimension_of_boundedTuple h.lifecycleStates
  relationshipTypes := dimension_of_boundedTuple h.relationshipTypes
  labels := dimension_of_boundedTuple h.labels
  recordIds := dimension_of_boundedTuple h.recordIds

@[simp]
theorem sortKeys_texts (names : List String) : (texts names).sortKeys = texts names := by
  simp [texts, Function.comp_def]

theorem wf_texts (names : List String) : (texts names).wf = true := by
  rw [texts, Json.wf_arr_iff, List.forall_mem_map]
  exact fun _ _ => rfl

theorem wf_asDict (interest : InterestFilter) : (Json.obj interest.asDict).wf = true := by
  have hkeys : Fields.keys interest.asDict = known := rfl
  rw [Json.wf_obj_iff, hkeys]
  refine ⟨by decide, ?_⟩
  simp [asDict, wf_texts, Json.wf]

theorem requireKnown_eq_ok_iff {value : Fields} :
    requireKnown value = .ok () ↔ ∀ key ∈ Fields.keys value, key ∈ known := by
  rw [requireKnown]
  simp only [List.isEmpty_iff, ite_eq_left_iff, reduceCtorEq, imp_false, not_not]
  rw [← List.length_eq_zero_iff, length_sortedBy, List.length_eq_zero_iff, List.filter_eq_nil_iff]
  simp

/-- A filter reads back from its own text. -/
theorem WellFormed.reads {interest : InterestFilter} (h : WellFormed interest) :
    Reads (Fields.sortKeys interest.asDict) interest where
  keys := requireKnown_eq_ok_iff.mpr fun key hmem =>
    (Fields.keys_sortKeys_perm interest.asDict).mem_iff.mp hmem
  version := by
    rw [requireVersion, Fields.get?_sortKeys]
    rfl
  openWork := by
    rw [requireFlag, Fields.get?_sortKeys]
    rfl
  promotion := by
    rw [requireFlag, Fields.get?_sortKeys]
    rfl
  kinds := by
    rw [dimension, Fields.get_sortKeys]
    exact (congrArg _ (sortKeys_texts _)).trans (boundedTuple_texts _ h.kinds)
  projects := by
    rw [dimension, Fields.get_sortKeys]
    exact (congrArg _ (sortKeys_texts _)).trans (boundedTuple_texts _ h.projects)
  contracts := by
    rw [dimension, Fields.get_sortKeys]
    exact (congrArg _ (sortKeys_texts _)).trans (boundedTuple_texts _ h.contracts)
  producers := by
    rw [dimension, Fields.get_sortKeys]
    exact (congrArg _ (sortKeys_texts _)).trans (boundedTuple_texts _ h.producers)
  outcomes := by
    rw [dimension, Fields.get_sortKeys]
    exact (congrArg _ (sortKeys_texts _)).trans (boundedTuple_texts _ h.outcomes)
  lifecycleStates := by
    rw [dimension, Fields.get_sortKeys]
    exact (congrArg _ (sortKeys_texts _)).trans (boundedTuple_texts _ h.lifecycleStates)
  relationshipTypes := by
    rw [dimension, Fields.get_sortKeys]
    exact (congrArg _ (sortKeys_texts _)).trans (boundedTuple_texts _ h.relationshipTypes)
  labels := by
    rw [dimension, Fields.get_sortKeys]
    exact (congrArg _ (sortKeys_texts _)).trans (boundedTuple_texts _ h.labels)
  recordIds := by
    rw [dimension, Fields.get_sortKeys]
    exact (congrArg _ (sortKeys_texts _)).trans (boundedTuple_texts _ h.recordIds)
  openWorkOnly := by
    rw [Fields.get_sortKeys]
    rfl
  promotionRelevant := by
    rw [Fields.get_sortKeys]
    rfl

/-- The filters that can be read are those whose dimensions are bounded texts in ascending
order, and each of them reads back from the text of its own mapping. -/
theorem fromMapping_round_trip (interest : InterestFilter) :
    ((∃ value, fromMapping value = .ok interest) ↔ WellFormed interest) ∧
    (WellFormed interest ↔ ∃ fields, loads (dumps (.obj interest.asDict)) = some (.obj fields) ∧
      fromMapping fields = .ok interest) := by
  have hread (h : WellFormed interest) :
      fromMapping (Fields.sortKeys interest.asDict) = .ok interest :=
    fromMapping_eq_ok_iff.mpr h.reads
  refine ⟨⟨?_, fun h => ⟨_, hread h⟩⟩, fun h => ⟨_, ?_, hread h⟩, ?_⟩
  · rintro ⟨value, hvalue⟩
    exact (fromMapping_eq_ok_iff.mp hvalue).wellFormed
  · rw [loads_dumps (wf_asDict interest), Json.sortKeys_obj_eq]
  · rintro ⟨fields, -, hfields⟩
    exact (fromMapping_eq_ok_iff.mp hfields).wellFormed

end InterestFilter

end MncsCommons.Mesh
