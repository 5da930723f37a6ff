/-
# The retained deltas of the architecture model

What `architecture_query` answers to `changes`: nothing changed, the chain of
retained deltas from the requested identity to the model's, or the whole
projection.  The chain is collected backwards over a history that nothing has
validated, and the loop is guarded by the number of deltas collected so far.

What is shown is that the guard never cuts a chain that leads to the requested
identity, since such a chain repeats no delta (`deltaChain_eq_some_iff`), and
that a chain which is answered is linked from end to end.
-/

import MncsCommons.Data.Checks
import MncsCommons.Data.Walks
import MncsCommons.Protocol.Models

namespace MncsCommons.Family

open MncsCommons.Data MncsCommons.Protocol

/-! ## Projections -/

/-- `len(value)`. -/
def pyLen : Json → Py Nat
  | .arr items => .ok items.length
  | .obj fields => .ok fields.length
  | .str text => .ok text.length
  | value => .error (.typeError ("object of type '" ++ typeName value ++ "' has no len()"))

/-- Whether a value has a length. -/
def hasLen (value : Json) : Bool := value.isArr || value.isObj || value.isStr

theorem exists_pyLen_iff {value : Json} : (∃ n, pyLen value = .ok n) ↔ hasLen value = true := by
  cases value <;> simp [pyLen, hasLen, Json.isArr, Json.isObj, Json.isStr, Json.arr?, Json.obj?,
    Json.str?]

theorem exists_iterate_iff {value : Json} :
    (∃ items, iterate value = .ok items) ↔ hasLen value = true := by
  cases value <;> simp [iterate, hasLen, Json.isArr, Json.isObj, Json.isStr, Json.arr?, Json.obj?,
    Json.str?]

/-- The mappings of a list in the model: `[item for item in model.get(key, []) if ...]`. -/
def mappings (model : Fields) (key : String) : Py (List Fields) := do
  let items ← iterate ((Fields.get? model key).getD (.arr []))
  return items.filterMap Json.obj?

/-- `_projection_metrics`. -/
def projectionMetrics (capabilities generators : List Fields) : Fields :=
  [("capabilities", .int capabilities.length),
    ("alternates", .int ((capabilities.map fun item =>
      match (Fields.get? item "active_alternates").getD (.arr []) with
      | .arr alternates => alternates.length
      | _ => 0).sum : Nat)),
    ("generators", .int generators.length)]

/-- `_projection_envelope`. -/
def projectionEnvelope (model : Fields) (mode : String) (layers : List String) (counts : Fields)
    (complete : Bool) (limitations : List String) : Fields :=
  [("schema_identity",
      (Fields.get? model "schema_identity").getD (Fields.get model "schema_version")),
    ("content_identity", Fields.get model "content_identity"),
    ("mode", .str mode),
    ("layers", .arr (layers.map .str)),
    ("counts", .obj counts),
    ("complete", .bool complete)] ++
  if limitations = [] then [] else [("limitations", .arr (limitations.map .str))]

/-- `_compact_capability`. -/
def compactCapability (capability : Fields) : Fields :=
  [("id", Fields.get capability "id"),
    ("owner", Fields.get capability "owner"),
    ("canonical", (Fields.get? capability "canonical").getD (.obj [])),
    ("versioning", (Fields.get? capability "versioning").getD (.obj [])),
    ("active_alternates", (Fields.get? capability "active_alternates").getD (.arr [])),
    ("shadow", Fields.get capability "shadow")] ++
  match Fields.get? capability "evidence" with
  | none => []
  | some evidence => [("evidence", evidence)]

/-! ## The chain -/

/-- The identity a delta leads to, and the one it starts from. -/
def currentIdentity (delta : Fields) : Json := Fields.get delta "current_content_identity"

def previousIdentity (delta : Fields) : Json := Fields.get delta "previous_content_identity"

/-- The deltas of the attached history, where they are a list. -/
def retainedDeltas (model : Fields) : Option (List Json) :=
  Json.arr? <|
    match (Fields.get? model "_delta_history").getD (.obj []) with
    | .obj history => (Fields.get? history "deltas").getD (.arr [])
    | _ => .arr []

/-- The last delta that leads to an identity. -/
def latestDelta (deltas : List Json) (cursor : Json) : Option Fields :=
  deltas.reverse.findSome? fun item =>
    item.obj?.filter fun delta => (currentIdentity delta).pyEq cursor

/-- The loop that collects the chain backwards; none where it gives up. -/
def deltaChain (deltas : List Json) (value : String) (cursor : Json) (chain : List Fields) :
    Option (List Fields) :=
  if cursor.pyEq (.str value) then some chain
  else
    match latestDelta deltas cursor with
    | none => none
    | some candidate =>
        match previousIdentity candidate with
        | .str previous =>
            if (chain ++ [candidate]).length > deltas.length then none
            else deltaChain deltas value (.str previous) (chain ++ [candidate])
        | _ => none
  termination_by deltas.length - chain.length
  decreasing_by
    rw [List.length_append, List.length_singleton] at *
    omega

/-! ## The answer -/

/-- The answer to the current identity. -/
def unchangedAnswer (model : Fields) (value : Json) : Fields :=
  [("projection", .obj (projectionEnvelope model "unchanged" ["identity", "delta"]
      [("capabilities", .int 0), ("alternates", .int 0), ("generators", .int 0)] true [])),
    ("since", value)]

/-- The number of items that the deltas of a chain list under a key. -/
def countListed (chain : List Fields) (key : String) : Py Nat := do
  let lengths ← chain.mapM fun item => pyLen ((Fields.get? item key).getD (.arr []))
  return lengths.sum

/-- The answer with a chain of deltas. -/
def deltaAnswer (model : Fields) (value : Json) (chain : List Fields) : Py Fields := do
  let capabilities ← countListed chain "changed_capabilities"
  let alternates ← countListed chain "shadow_state_transitions"
  return [
    ("projection", .obj (projectionEnvelope model "delta" ["identity", "delta"]
      [("deltas", .int chain.length), ("capabilities", .int capabilities),
        ("alternates", .int alternates), ("generators", .int 0)] true [])),
    ("since", value),
    ("delta", .obj [("from", value), ("to", Fields.get model "content_identity"),
      ("mode", .str "delta"), ("chain", .arr (chain.map .obj))])]

/-- The answer with the whole projection. -/
def fullAnswer (model : Fields) (value : Json) (capabilities generators : List Fields) : Fields :=
  [("projection", .obj (projectionEnvelope model "full"
      ["identity", "architecture", "contract", "delta", "implementation", "evidence"]
      (projectionMetrics capabilities generators) true
      ["the requested architecture identity is outside the retained delta chain; " ++
        "current projection is returned"])),
    ("since", value),
    ("delta", .obj [("from", value), ("to", Fields.get model "content_identity"),
      ("mode", .str "full")]),
    ("architecture", .obj [
      ("capabilities", .arr (capabilities.map fun item => .obj (compactCapability item))),
      ("generators", .arr (generators.map .obj))])]

/-- The chain from a requested identity to the model's, in the order of time; none where the
request is no identity, no list of deltas is attached, or the walk gives up. -/
def chainSince (model : Fields) (value : Json) : Option (List Fields) :=
  match value, retainedDeltas model with
  | .str since, some deltas =>
      (deltaChain deltas since (Fields.get model "content_identity") []).map List.reverse
  | _, _ => none

/-- `architecture_query(model, "changes", value)`. -/
def architectureChanges (model : Fields) (value : Json) : Py Fields := do
  let capabilities ← mappings model "capabilities"
  let generators ← mappings model "generators"
  if value.pyEq (Fields.get model "content_identity") then return unchangedAnswer model value
  match (chainSince model value).filter (· ≠ []) with
  | some chain => deltaAnswer model value chain
  | none => return fullAnswer model value capabilities generators

/-! ## The walk -/

theorem mem_of_latestDelta {deltas : List Json} {cursor : Json} {delta : Fields}
    (h : latestDelta deltas cursor = some delta) :
    .obj delta ∈ deltas ∧ (currentIdentity delta).pyEq cursor = true := by
  obtain ⟨item, hitem, hfound⟩ := List.exists_of_findSome?_eq_some h
  obtain ⟨hobj, hcurrent⟩ := Option.filter_eq_some_iff.mp hfound
  rw [← Json.obj?_eq_some_iff.mp hobj]
  exact ⟨List.mem_reverse.mp hitem, hcurrent⟩

/-- The deltas met on the way back from an identity to the requested one, latest first. -/
abbrev RetainedWalk (deltas : List Json) (value : String) : Json → List Fields → Prop :=
  Walk (latestDelta deltas) (fun delta => (previousIdentity delta).str?.map .str)
    (fun cursor => cursor.pyEq (.str value) = true)

/-- What the loop has collected is a walk. -/
theorem exists_walk_of_deltaChain {deltas : List Json} {value : String} {cursor : Json}
    {chain found : List Fields} (h : deltaChain deltas value cursor chain = some found) :
    ∃ items, RetainedWalk deltas value cursor items ∧ found = chain ++ items := by
  fun_induction deltaChain deltas value cursor chain with
  | case1 cursor chain reached =>
      obtain rfl := Option.some.inj h
      exact ⟨[], .stop reached, (List.append_nil _).symm⟩
  | case2 => cases h
  | case3 => cases h
  | case4 cursor chain unreached candidate hlatest previous hprevious _ ih =>
      obtain ⟨items, hwalk, rfl⟩ := ih h
      refine ⟨candidate :: items, .step unreached hlatest ?_ hwalk, ?_⟩
      · rw [hprevious]
        rfl
      · rw [List.append_assoc, List.singleton_append]
  | case5 => cases h

/-- The guard lets a walk through that is no longer than the history. -/
theorem deltaChain_of_walk {deltas : List Json} {value : String} {cursor : Json}
    {items : List Fields} (h : RetainedWalk deltas value cursor items) (chain : List Fields)
    (hfits : (chain ++ items).length ≤ deltas.length) :
    deltaChain deltas value cursor chain = some (chain ++ items) := by
  induction h generalizing chain with
  | stop reached =>
      rw [deltaChain, if_pos reached, List.append_nil]
  | @step cursor after item rest unreached found leads _ ih =>
      obtain ⟨previous, hprevious, rfl⟩ := Option.map_eq_some_iff.mp leads
      rw [← List.singleton_append, ← List.append_assoc] at hfits
      have short : ¬ (chain ++ [item]).length > deltas.length := by
        rw [List.length_append] at hfits
        omega
      rw [deltaChain, if_neg unreached, found]
      simp only [Json.str?_eq_some_iff.mp hprevious, if_neg short]
      rw [ih (chain ++ [item]) hfits, List.append_assoc, List.singleton_append]

/-- The loop finds the walk back to the requested identity whenever there is one: such a walk
repeats no delta, so the guard never cuts it. -/
theorem deltaChain_eq_some_iff {deltas : List Json} {value : String} {cursor : Json}
    {items : List Fields} :
    deltaChain deltas value cursor [] = some items ↔ RetainedWalk deltas value cursor items := by
  constructor
  · intro h
    obtain ⟨items, hwalk, rfl⟩ := exists_walk_of_deltaChain h
    exact hwalk
  · intro h
    have fits : items.length ≤ (deltas.filterMap Json.obj?).length := by
      apply h.length_le
      intro place item found
      exact List.mem_filterMap.mpr ⟨_, (mem_of_latestDelta found).1, rfl⟩
    exact deltaChain_of_walk h [] (fits.trans (List.length_filterMap_le _ _))

/-! ## What a chain links -/

/-- A chain of retained deltas that leads from the requested identity to the model's. -/
structure RealChain (model : Fields) (value : Json) (chain : List Fields) : Prop where
  ne_nil : chain ≠ []
  retained : ∃ deltas, retainedDeltas model = some deltas ∧ ∀ delta ∈ chain, .obj delta ∈ deltas
  starts : previousIdentity (chain.head ne_nil) = value
  links : chain.IsChain fun earlier later => currentIdentity earlier = previousIdentity later
  ends : (currentIdentity (chain.getLast ne_nil)).pyEq (Fields.get model "content_identity") = true

theorem chainSince_eq_some_iff {model : Fields} {value : Json} {chain : List Fields} :
    chainSince model value = some chain ↔ ∃ since deltas, value = .str since ∧
      retainedDeltas model = some deltas ∧
      RetainedWalk deltas since (Fields.get model "content_identity") chain.reverse := by
  unfold chainSince
  split
  · rename_i since deltas hdeltas
    rw [Option.map_eq_some_iff]
    constructor
    · rintro ⟨items, hitems, rfl⟩
      refine ⟨since, deltas, rfl, hdeltas, ?_⟩
      rw [List.reverse_reverse]
      exact deltaChain_eq_some_iff.mp hitems
    · rintro ⟨since', deltas', hsince, hdeltas', hwalk⟩
      obtain rfl := Json.str.inj hsince
      obtain rfl := Option.some.inj (hdeltas.symm.trans hdeltas')
      exact ⟨chain.reverse, deltaChain_eq_some_iff.mpr hwalk, List.reverse_reverse _⟩
  · rename_i hnone
    constructor
    · intro h
      cases h
    · rintro ⟨since, deltas, rfl, hdeltas, -⟩
      exact absurd hdeltas (hnone since deltas rfl)

theorem realChain_of_chainSince {model : Fields} {value : Json} {chain : List Fields}
    (h : chainSince model value = some chain) (hne : chain ≠ []) : RealChain model value chain := by
  obtain ⟨since, deltas, rfl, hdeltas, hwalk⟩ := chainSince_eq_some_iff.mp h
  have hreverse : chain.reverse ≠ [] := fun hnil => hne (List.reverse_eq_nil_iff.mp hnil)
  refine ⟨hne, ⟨deltas, hdeltas, fun delta hdelta => ?_⟩, ?_, ?_, ?_⟩
  · obtain ⟨place, found⟩ := hwalk.found_of_mem (List.mem_reverse.mpr hdelta)
    exact (mem_of_latestDelta found).1
  · obtain ⟨place, leads, reached⟩ := hwalk.goal_getLast hreverse
    obtain ⟨previous, hprevious, rfl⟩ := Option.map_eq_some_iff.mp leads
    rw [List.getLast_reverse] at hprevious
    rw [Json.str?_eq_some_iff.mp hprevious]
    exact Json.pyEq_str_iff.mp reached
  · rw [← List.isChain_reverse]
    refine hwalk.isChain.imp ?_
    rintro later earlier ⟨place, leads, found⟩
    obtain ⟨previous, hprevious, rfl⟩ := Option.map_eq_some_iff.mp leads
    have hcurrent := Json.pyEq_str_iff.mp (mem_of_latestDelta found).2
    rw [hcurrent, Json.str?_eq_some_iff.mp hprevious]
  · have found := hwalk.find_head hreverse
    rw [List.head_reverse] at found
    exact (mem_of_latestDelta found).2

/-! ## Answers -/

/-- The mode of an answer's projection. -/
def answerMode (answer : Fields) : Json :=
  match Fields.get answer "projection" with
  | .obj projection => Fields.get projection "mode"
  | _ => .null

/-- The chain of an answer's delta. -/
def answerChain (answer : Fields) : Json :=
  match Fields.get answer "delta" with
  | .obj delta => Fields.get delta "chain"
  | _ => .null

/-- An answer with a real chain, to the current identity, or with the whole projection. -/
def Truthful (model : Fields) (value : Json) (answer : Fields) : Prop :=
  (answerMode answer = .str "delta" ∧ ∃ chain, answerChain answer = .arr (chain.map .obj) ∧
    RealChain model value chain) ∨
  (answerMode answer = .str "unchanged" ∧
    value.pyEq (Fields.get model "content_identity") = true) ∨
  (answerMode answer = .str "full" ∧ ∃ capabilities generators,
    mappings model "capabilities" = .ok capabilities ∧
    mappings model "generators" = .ok generators ∧
    answer = fullAnswer model value capabilities generators)

/-- What a delta lists of its changes has a length. -/
def Counted (delta : Fields) : Prop :=
  hasLen ((Fields.get? delta "changed_capabilities").getD (.arr [])) = true ∧
    hasLen ((Fields.get? delta "shadow_state_transitions").getD (.arr [])) = true

/-- What the query reads can be gone through: the model's two lists, and what the deltas on the
way back to the requested identity list. -/
structure Answerable (model : Fields) (value : Json) : Prop where
  capabilities : hasLen ((Fields.get? model "capabilities").getD (.arr [])) = true
  generators : hasLen ((Fields.get? model "generators").getD (.arr [])) = true
  counted : value.pyEq (Fields.get model "content_identity") = false →
    ∀ since deltas chain, value = .str since → retainedDeltas model = some deltas →
      RetainedWalk deltas since (Fields.get model "content_identity") chain →
        ∀ delta ∈ chain, Counted delta

theorem exists_mappings_iff {model : Fields} {key : String} :
    (∃ items, mappings model key = .ok items) ↔
      hasLen ((Fields.get? model key).getD (.arr [])) = true := by
  rw [← exists_iterate_iff]
  constructor
  · rintro ⟨items, h⟩
    obtain ⟨found, hfound, -⟩ := Py.bind_eq_ok_iff.mp h
    exact ⟨found, hfound⟩
  · rintro ⟨items, h⟩
    exact ⟨_, Py.bind_eq_ok_iff.mpr ⟨items, h, rfl⟩⟩

theorem exists_countListed_iff {chain : List Fields} {key : String} :
    (∃ n, countListed chain key = .ok n) ↔
      ∀ delta ∈ chain, hasLen ((Fields.get? delta key).getD (.arr [])) = true := by
  have each : (∃ lengths, chain.mapM (fun item =>
      pyLen ((Fields.get? item key).getD (.arr []))) = .ok lengths) ↔
      ∀ delta ∈ chain, hasLen ((Fields.get? delta key).getD (.arr [])) = true := by
    induction chain with
    | nil => simp [pure, Except.pure]
    | cons delta chain ih =>
        rw [List.forall_mem_cons, ← ih, ← exists_pyLen_iff]
        constructor
        · rintro ⟨lengths, h⟩
          rw [List.mapM_cons] at h
          obtain ⟨n, hn, h⟩ := Py.bind_eq_ok_iff.mp h
          obtain ⟨rest, hrest, -⟩ := Py.bind_eq_ok_iff.mp h
          exact ⟨⟨n, hn⟩, rest, hrest⟩
        · rintro ⟨⟨n, hn⟩, rest, hrest⟩
          refine ⟨n :: rest, ?_⟩
          rw [List.mapM_cons, hn, ok_bind, hrest]
          rfl
  rw [← each]
  constructor
  · rintro ⟨n, h⟩
    obtain ⟨lengths, hlengths, -⟩ := Py.bind_eq_ok_iff.mp h
    exact ⟨lengths, hlengths⟩
  · rintro ⟨lengths, h⟩
    exact ⟨_, Py.bind_eq_ok_iff.mpr ⟨lengths, h, rfl⟩⟩

theorem exists_deltaAnswer_iff {model : Fields} {value : Json} {chain : List Fields} :
    (∃ answer, deltaAnswer model value chain = .ok answer) ↔ ∀ delta ∈ chain, Counted delta := by
  have both : (∀ delta ∈ chain, Counted delta) ↔
      (∃ n, countListed chain "changed_capabilities" = .ok n) ∧
        ∃ n, countListed chain "shadow_state_transitions" = .ok n := by
    rw [exists_countListed_iff, exists_countListed_iff, ← forall₂_and]
    rfl
  rw [both]
  constructor
  · rintro ⟨answer, h⟩
    obtain ⟨capabilities, hcapabilities, h⟩ := Py.bind_eq_ok_iff.mp h
    obtain ⟨alternates, halternates, -⟩ := Py.bind_eq_ok_iff.mp h
    exact ⟨⟨capabilities, hcapabilities⟩, alternates, halternates⟩
  · rintro ⟨⟨capabilities, hcapabilities⟩, alternates, halternates⟩
    exact ⟨_, Py.bind_eq_ok_iff.mpr ⟨capabilities, hcapabilities,
      Py.bind_eq_ok_iff.mpr ⟨alternates, halternates, rfl⟩⟩⟩

theorem answer_of_deltaAnswer {model : Fields} {value : Json} {chain : List Fields}
    {answer : Fields} (h : deltaAnswer model value chain = .ok answer) :
    answerMode answer = .str "delta" ∧ answerChain answer = .arr (chain.map .obj) := by
  obtain ⟨capabilities, -, h⟩ := Py.bind_eq_ok_iff.mp h
  obtain ⟨alternates, -, h⟩ := Py.bind_eq_ok_iff.mp h
  obtain rfl := Except.ok.inj h
  exact ⟨rfl, rfl⟩

/-- Every answer is truthful. -/
theorem truthful_of_architectureChanges {model : Fields} {value : Json} {answer : Fields}
    (h : architectureChanges model value = .ok answer) : Truthful model value answer := by
  obtain ⟨capabilities, hcapabilities, h⟩ := Py.bind_eq_ok_iff.mp h
  obtain ⟨generators, hgenerators, h⟩ := Py.bind_eq_ok_iff.mp h
  rcases ite_eq_iff.mp h with ⟨hcurrent, h⟩ | ⟨-, h⟩
  · obtain rfl := Except.ok.inj h
    exact .inr (.inl ⟨rfl, hcurrent⟩)
  · cases hchain : (chainSince model value).filter (· ≠ []) with
    | none =>
        rw [hchain] at h
        obtain rfl := Except.ok.inj h
        exact .inr (.inr ⟨rfl, capabilities, generators, hcapabilities, hgenerators, rfl⟩)
    | some chain =>
        rw [hchain] at h
        obtain ⟨hsince, hne⟩ := Option.filter_eq_some_iff.mp hchain
        obtain ⟨hmode, hanswer⟩ := answer_of_deltaAnswer h
        exact .inl ⟨hmode, chain, hanswer, realChain_of_chainSince hsince (of_decide_eq_true hne)⟩

/-- The query answers exactly when it can go through what it reads. -/
theorem exists_answer_iff {model : Fields} {value : Json} :
    (∃ answer, architectureChanges model value = .ok answer) ↔ Answerable model value := by
  constructor
  · rintro ⟨answer, h⟩
    obtain ⟨capabilities, hcapabilities, h⟩ := Py.bind_eq_ok_iff.mp h
    obtain ⟨generators, hgenerators, h⟩ := Py.bind_eq_ok_iff.mp h
    refine ⟨exists_mappings_iff.mp ⟨_, hcapabilities⟩, exists_mappings_iff.mp ⟨_, hgenerators⟩, ?_⟩
    rintro hcurrent since deltas items rfl hdeltas hwalk
    rw [hcurrent, if_neg Bool.false_ne_true] at h
    have hsince : chainSince model (.str since) = some items.reverse := by
      apply chainSince_eq_some_iff.mpr
      rw [List.reverse_reverse]
      exact ⟨since, deltas, rfl, hdeltas, hwalk⟩
    by_cases hne : items.reverse = []
    · rw [List.reverse_eq_nil_iff.mp hne]
      exact fun delta hdelta => (nomatch hdelta)
    · rw [hsince, Option.filter_some, if_pos (decide_eq_true hne)] at h
      intro delta hdelta
      exact exists_deltaAnswer_iff.mp ⟨answer, h⟩ delta (List.mem_reverse.mpr hdelta)
  · intro h
    obtain ⟨capabilities, hcapabilities⟩ := exists_mappings_iff.mpr h.capabilities
    obtain ⟨generators, hgenerators⟩ := exists_mappings_iff.mpr h.generators
    rw [architectureChanges, hcapabilities, ok_bind, hgenerators, ok_bind]
    cases hcurrent : value.pyEq (Fields.get model "content_identity") with
    | true => exact ⟨_, rfl⟩
    | false =>
        rw [if_neg Bool.false_ne_true]
        cases hchain : (chainSince model value).filter (· ≠ []) with
        | none => exact ⟨_, rfl⟩
        | some chain =>
            obtain ⟨hsince, -⟩ := Option.filter_eq_some_iff.mp hchain
            obtain ⟨since, deltas, hvalue, hdeltas, hwalk⟩ := chainSince_eq_some_iff.mp hsince
            apply exists_deltaAnswer_iff.mpr
            intro delta hdelta
            exact h.counted hcurrent since deltas _ hvalue hdeltas hwalk delta
              (List.mem_reverse.mpr hdelta)

/-- Every answer to `changes` is truthful, and there is one exactly when the query can go through
the model's lists and through what the deltas on the way list. -/
theorem changes_answered_iff (model : Fields) (value : Json) :
    (∀ answer, architectureChanges model value = .ok answer → Truthful model value answer) ∧
      ((∃ answer, architectureChanges model value = .ok answer ∧ Truthful model value answer) ↔
        Answerable model value) := by
  refine ⟨fun answer h => truthful_of_architectureChanges h, ?_⟩
  rw [← exists_answer_iff]
  constructor
  · rintro ⟨answer, h, -⟩
    exact ⟨answer, h⟩
  · rintro ⟨answer, h⟩
    exact ⟨answer, h, truthful_of_architectureChanges h⟩

/-- A model with one retained delta, whose changed capabilities are `null`. -/
def uncountedModel : Fields :=
  [("content_identity", .str "b"),
    ("_delta_history", .obj [("deltas", .arr [.obj [("previous_content_identity", .str "a"),
      ("current_content_identity", .str "b"), ("changed_capabilities", .null)]])])]

/-- The query raises where a delta on the way lists `null`: it neither answers with the chain nor
with the whole projection. -/
theorem changes_raise_uncounted :
    architectureChanges uncountedModel (.str "a") =
        .error (.typeError "object of type 'NoneType' has no len()") ∧
      ¬ ∃ answer, architectureChanges uncountedModel (.str "a") = .ok answer ∧
        Truthful uncountedModel (.str "a") answer := by
  have raises : architectureChanges uncountedModel (.str "a") =
      .error (.typeError "object of type 'NoneType' has no len()") := by
    have walk : RetainedWalk [.obj [("previous_content_identity", .str "a"),
        ("current_content_identity", .str "b"), ("changed_capabilities", .null)]] "a" (.str "b")
        [[("previous_content_identity", .str "a"), ("current_content_identity", .str "b"),
          ("changed_capabilities", .null)]] :=
      .step (by decide) rfl rfl (.stop (by decide))
    have chain : chainSince uncountedModel (.str "a") = some [[("previous_content_identity",
        .str "a"), ("current_content_identity", .str "b"), ("changed_capabilities", .null)]] :=
      chainSince_eq_some_iff.mpr ⟨"a", _, rfl, rfl, walk⟩
    rw [architectureChanges, chain]
    rfl
  refine ⟨raises, ?_⟩
  rintro ⟨answer, h, -⟩
  rw [raises] at h
  cases h

end MncsCommons.Family
