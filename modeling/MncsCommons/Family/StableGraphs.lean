/-
# Stability of validated graphs

What validation returns is accepted again, edge by edge: a normalised selector
is its own normal form, and the fingerprint of an edge is taken after the
normalisation.  The identity of the graph is taken before it, so the graph as a
whole is accepted again exactly when there was nothing to normalise
(`validated_graph_stays_valid_iff`).
-/

import MncsCommons.Data.KeyOrder
import MncsCommons.Family.Graphs
import MncsCommons.Protocol.NormalForm

namespace MncsCommons.Family

open MncsCommons.Data MncsCommons.Protocol

/-! ## Checks read members by name -/

theorem graphObject_eq_ok_iff {value : Json} {message : String} {fields : Fields} :
    graphObject value message = .ok fields ↔ value = .obj fields := by
  cases value <;> simp [graphObject]

theorem graphArray_eq_ok_iff {value : Json} {message : String} {items : List Json} :
    graphArray value message = .ok items ↔ value = .arr items := by
  cases value <;> simp [graphArray]

theorem requireTexts_set {fields : Fields} {key : String} {value : Json} {path : String}
    {names : List String} (h : key ∉ names) :
    requireTexts (Fields.set fields key value) path names = requireTexts fields path names := by
  induction names with
  | nil => rfl
  | cons name names ih =>
      obtain ⟨hne, hrest⟩ := not_or.mp (mt List.mem_cons.mpr h)
      rw [requireTexts, requireTexts, Fields.get_set_of_ne hne, ih hrest]

/-! ## Selectors -/

theorem mapM_str_map (texts : List String) : (texts.map Json.str).mapM Json.str? = some texts := by
  induction texts with
  | nil => rfl
  | cons text texts ih => simp [List.mapM_cons, Json.str?, ih]

theorem eq_map_str_of_mapM_str {items : List Json} {texts : List String}
    (h : items.mapM Json.str? = some texts) : items = texts.map .str := by
  induction items generalizing texts with
  | nil =>
      obtain rfl := Option.some.inj h
      rfl
  | cons item items ih =>
      rw [List.mapM_cons, Option.bind_eq_bind, Option.bind_eq_some_iff] at h
      obtain ⟨text, htext, hrest⟩ := h
      rw [Option.bind_eq_bind, Option.bind_eq_some_iff] at hrest
      obtain ⟨rest, hitems, hcons⟩ := hrest
      obtain rfl := Option.some.inj hcons
      rw [Json.str?_eq_some_iff.mp htext, ih hitems, List.map_cons]

theorem testIdentities_eq_some_iff {value : Json} {tests : List String} :
    testIdentities value = some tests ↔ value = .arr (tests.map .str) ∧ tests ≠ [] ∧
      tests.length ≤ maxCheckTestIdentities ∧
      (∀ test ∈ tests, test ≠ "" ∧ test.length ≤ maxCheckTestIdentityLength) ∧ tests.Nodup := by
  rw [testIdentities, Option.filter_eq_some_iff, Option.bind_eq_some_iff]
  constructor
  · rintro ⟨⟨items, hitems, htests⟩, hok⟩
    obtain rfl := Json.arr?_eq_some_iff.mp hitems
    obtain rfl := eq_map_str_of_mapM_str htests
    refine ⟨rfl, ?_⟩
    simpa [and_assoc] using hok
  · rintro ⟨rfl, hok⟩
    refine ⟨⟨_, rfl, mapM_str_map tests⟩, ?_⟩
    simpa [and_assoc] using hok

/-- Sorted names of tests are names of tests. -/
theorem testIdentities_sortedBy {value : Json} {tests : List String}
    (h : testIdentities value = some tests) :
    testIdentities (.arr ((sortedBy id tests).map .str)) = some (sortedBy id tests) := by
  obtain ⟨-, hne, hlength, heach, hnodup⟩ := testIdentities_eq_some_iff.mp h
  have hperm := sortedBy_perm id tests
  refine testIdentities_eq_some_iff.mpr ⟨rfl, ?_, ?_, fun test hmem => ?_, ?_⟩
  · exact fun hempty => hne (List.perm_nil.mp (hempty ▸ hperm).symm)
  · exact hperm.length_eq ▸ hlength
  · exact heach test (hperm.mem_iff.mp hmem)
  · exact hperm.nodup_iff.mpr hnodup

/-- The members of a validated selector. -/
theorem validateTestSelector_eq_ok {selector : Json} {context : String} {out : Fields}
    (h : validateTestSelector selector context = .ok out) :
    ∃ fields tests, selector = .obj fields ∧
      (∀ key ∈ Fields.keys fields, key ∈ ["manifest", "inventory_identity", "test_identities"]) ∧
      isManifestPath (Fields.get fields "manifest") = true ∧
      isHexIdentity (Fields.get fields "inventory_identity") = true ∧
      testIdentities (Fields.get fields "test_identities") = some tests ∧
      out = [("manifest", Fields.get fields "manifest"),
        ("inventory_identity", Fields.get fields "inventory_identity"),
        ("test_identities", .arr ((sortedBy id tests).map .str))] := by
  obtain ⟨fields, hobject, h⟩ := bind_eq_ok_iff.mp h
  obtain ⟨hkeys, h⟩ := requireThat_bind_eq_ok_iff.mp h
  obtain ⟨hmanifest, h⟩ := requireThat_bind_eq_ok_iff.mp h
  obtain ⟨hinventory, h⟩ := requireThat_bind_eq_ok_iff.mp h
  cases htests : testIdentities (Fields.get fields "test_identities") with
  | none =>
      rw [htests] at h
      cases h
  | some tests =>
      rw [htests] at h
      refine ⟨fields, tests, graphObject_eq_ok_iff.mp hobject, fun key hmem => ?_, hmanifest,
        hinventory, htests, (Except.ok.inj h).symm⟩
      have hnone := List.filter_eq_nil_iff.mp (List.isEmpty_iff.mp hkeys) key hmem
      simpa [or_iff_not_imp_left] using hnone

/-- A normalised selector is its own normal form. -/
theorem validateTestSelector_idem {selector : Json} {context : String} {out : Fields}
    (h : validateTestSelector selector context = .ok out) :
    validateTestSelector (.obj out) context = .ok out := by
  obtain ⟨fields, tests, -, -, hmanifest, hinventory, htests, rfl⟩ := validateTestSelector_eq_ok h
  refine bind_eq_ok_iff.mpr ⟨_, rfl, ?_⟩
  refine requireThat_bind_eq_ok_iff.mpr ⟨rfl, ?_⟩
  refine requireThat_bind_eq_ok_iff.mpr ⟨hmanifest, ?_⟩
  refine requireThat_bind_eq_ok_iff.mpr ⟨hinventory, ?_⟩
  have hagain : testIdentities (Fields.get [("manifest", Fields.get fields "manifest"),
      ("inventory_identity", Fields.get fields "inventory_identity"),
      ("test_identities", .arr ((sortedBy id tests).map .str))] "test_identities") =
        some (sortedBy id tests) := testIdentities_sortedBy htests
  rw [hagain]
  dsimp only
  rw [sortedBy_sortedBy]
  rfl

/-! ## Edges -/

theorem checkEdgeNames_set (ids : List String) (path : String) (edge : Fields) (value : Json) :
    checkEdgeNames ids path (Fields.set edge "verification" value) = checkEdgeNames ids path edge := by
  rw [checkEdgeNames, requireTexts_set (by decide), requireTexts_set (by decide),
    Fields.get_set_of_ne (by decide), Fields.get_set_of_ne (by decide), checkEdgeNames]

theorem checkEdgeVerification_set (path : String) (contract : Json) (verification : Fields)
    (value : Json) :
    checkEdgeVerification path contract (Fields.set verification "selector" value) =
      checkEdgeVerification path contract verification := by
  rw [checkEdgeVerification, requireTexts_set (by decide), Fields.get_set_of_ne (by decide),
    Fields.get_set_of_ne (by decide), checkEdgeVerification]

/-- What the check of a selector returns. -/
theorem checkEdgeSelector_cases {path : String} {verification selected : Fields}
    (h : checkEdgeSelector path verification = .ok selected) :
    (Fields.get verification "runner" = .str "mncs-test" ∧ ∃ selector,
      validateTestSelector (Fields.get verification "selector") (path ++ ".verification") =
        .ok selector ∧ selected = Fields.set verification "selector" (.obj selector)) ∨
    (Fields.get verification "runner" ≠ .str "mncs-test" ∧ selected = verification) := by
  rw [checkEdgeSelector] at h
  split at h
  · rename_i hrunner
    obtain ⟨selector, hselector, h⟩ := bind_eq_ok_iff.mp h
    exact .inl ⟨hrunner, selector, hselector, (Except.ok.inj h).symm⟩
  · rename_i hrunner
    obtain ⟨-, h⟩ := requireThat_bind_eq_ok_iff.mp h
    exact .inr ⟨hrunner, (Except.ok.inj h).symm⟩

theorem checkEdgeSelector_idem {path : String} {verification selected : Fields}
    (h : checkEdgeSelector path verification = .ok selected) :
    checkEdgeSelector path selected = .ok selected := by
  rcases checkEdgeSelector_cases h with ⟨hrunner, selector, hselector, rfl⟩ | ⟨-, rfl⟩
  · rw [checkEdgeSelector, if_pos (by rwa [Fields.get_set_of_ne (by decide)]), Fields.get_set_self,
      validateTestSelector_idem hselector, ok_bind, Fields.set_set]
    rfl
  · exact h

theorem checkNotExecutable_eq_ok_iff {path : String} {verification : Fields} {selector : Json}
    {names : List String} : checkNotExecutable path verification selector names = .ok () ↔
      ∀ name ∈ names, Fields.has verification name = false ∧
        ∀ fields, selector = .obj fields → Fields.has fields name = false := by
  induction names with
  | nil => simp [checkNotExecutable]
  | cons name names ih =>
      rw [checkNotExecutable, requireThat_bind_eq_ok_iff, ih, List.forall_mem_cons]
      cases selector <;> simp [Json.obj?]

theorem has_selector_of_executable {name : String} (h : name ∈ executableFields)
    {manifest inventory tests : Json} : Fields.has [("manifest", manifest),
      ("inventory_identity", inventory), ("test_identities", tests)] name = false := by
  have hnames : ∀ name ∈ executableFields,
      name ∉ ["manifest", "inventory_identity", "test_identities"] := by decide
  have hnone : Fields.get? [("manifest", manifest), ("inventory_identity", inventory),
      ("test_identities", tests)] name = none := Fields.get?_eq_none_iff.mpr (hnames name h)
  rw [Fields.has, hnone, Option.isSome_none]

/-- A checked edge passes the check unchanged. -/
theorem checkEdge_idem {ids : List String} {index : Nat} {raw out : Json}
    (h : checkEdge ids index raw = .ok out) : checkEdge ids index out = .ok out := by
  obtain ⟨edge, hedge, h⟩ := bind_eq_ok_iff.mp h
  obtain ⟨⟨⟩, hnames, h⟩ := bind_eq_ok_iff.mp h
  obtain ⟨verification, hverification, h⟩ := bind_eq_ok_iff.mp h
  obtain ⟨⟨⟩, hchecked, h⟩ := bind_eq_ok_iff.mp h
  obtain ⟨selected, hselected, h⟩ := bind_eq_ok_iff.mp h
  obtain ⟨⟨⟩, hinert, h⟩ := bind_eq_ok_iff.mp h
  obtain ⟨⟨⟩, hdigests, h⟩ := bind_eq_ok_iff.mp h
  obtain rfl := Except.ok.inj h
  have hsame : checkEdgeVerification (itemPath "edges" index) (Fields.get edge "contract_identity")
      selected = .ok () := by
    rcases checkEdgeSelector_cases hselected with ⟨-, selector, -, rfl⟩ | ⟨-, rfl⟩
    · rwa [checkEdgeVerification_set]
    · exact hchecked
  have hstill : checkNotExecutable (itemPath "edges" index) selected
      (Fields.get selected "selector") executableFields = .ok () := by
    rw [checkNotExecutable_eq_ok_iff] at hinert ⊢
    intro name hname
    refine ⟨(hinert name hname).1, ?_⟩
    rcases checkEdgeSelector_cases hselected with ⟨-, selector, hselector, rfl⟩ | ⟨-, rfl⟩
    · rintro fields hfields
      rw [Fields.get_set_self] at hfields
      obtain rfl := Json.obj.inj hfields
      obtain ⟨_, tests, -, -, -, -, -, rfl⟩ := validateTestSelector_eq_ok hselector
      exact has_selector_of_executable hname
    · exact (hinert name hname).2
  refine bind_eq_ok_iff.mpr ⟨_, rfl, ?_⟩
  refine bind_eq_ok_iff.mpr ⟨(), by rw [checkEdgeNames_set]; exact hnames, ?_⟩
  refine bind_eq_ok_iff.mpr ⟨selected, by rw [Fields.get_set_self]; rfl, ?_⟩
  refine bind_eq_ok_iff.mpr ⟨(), by rw [Fields.get_set_of_ne (by decide)]; exact hsame, ?_⟩
  refine bind_eq_ok_iff.mpr ⟨selected, checkEdgeSelector_idem hselected, ?_⟩
  refine bind_eq_ok_iff.mpr ⟨(), hstill, ?_⟩
  rw [Fields.set_set]
  exact bind_eq_ok_iff.mpr ⟨(), hdigests, rfl⟩

/-! ## What is normalised -/

/-- The names of the tests that an edge selects, as they are written. -/
def selectedTests (edge : Json) : Option (List String) :=
  let verification := (Fields.get (edge.obj?.getD []) "verification").obj?.getD []
  if Fields.get verification "runner" = .str "mncs-test" then
    testIdentities (Fields.get ((Fields.get verification "selector").obj?.getD []) "test_identities")
  else none

/-- The tests that an edge selects are in order. -/
def TestsInOrder (edge : Json) : Prop :=
  ∀ tests, selectedTests edge = some tests → tests.Pairwise (· ≤ ·)

theorem map_str_inj {first second : List String} :
    first.map Json.str = second.map Json.str ↔ first = second :=
  List.map_inj_right fun _ _ => Json.str.inj

theorem sortKeys_arr_str (texts : List String) :
    (Json.arr (texts.map .str)).sortKeys = .arr (texts.map .str) := by
  rw [Json.sortKeys_arr, List.map_map]
  rfl

/-- A selector is normal up to key order when its tests are in order. -/
theorem sortKeys_selector_iff {selector : Json} {context : String} {out : Fields}
    (hwf : selector.wf = true) (h : validateTestSelector selector context = .ok out) :
    Json.sortKeys (.obj out) = selector.sortKeys ↔
      ∀ tests, testIdentities (Fields.get (selector.obj?.getD []) "test_identities") = some tests →
        tests.Pairwise (· ≤ ·) := by
  obtain ⟨fields, tests, rfl, hkeys, hmanifest, hinventory, htests, rfl⟩ :=
    validateTestSelector_eq_ok h
  have hvalue := (testIdentities_eq_some_iff.mp htests).1
  have hthere : ∀ {key : String} {value : Json}, Fields.get fields key = value → value ≠ .null →
      Fields.get? fields key = some value := fun hget hne => Fields.get?_of_get hget hne
  have hsorted : (∀ other, testIdentities (Fields.get ((Json.obj fields).obj?.getD [])
      "test_identities") = some other → other.Pairwise (· ≤ ·)) ↔ sortedBy id tests = tests := by
    constructor
    · exact fun hall => sortedBy_eq_self (hall tests htests)
    · intro hself other hother
      obtain rfl := Option.some.inj (htests.symm.trans hother)
      rw [← hself]
      exact pairwise_sortedBy id tests
  have hmanifestThere : Fields.get? fields "manifest" = some (Fields.get fields "manifest") :=
    hthere rfl fun hnull => by simp [isManifestPath, hnull, Json.str?] at hmanifest
  have hinventoryThere : Fields.get? fields "inventory_identity" =
      some (Fields.get fields "inventory_identity") :=
    hthere rfl fun hnull => by simp [isHexIdentity, hnull, Json.str?] at hinventory
  rw [hsorted, Json.sortKeys_obj_eq_iff (by simp [Fields.keys]) (Json.wf_obj_iff.mp hwf).1]
  constructor
  · intro hsame
    have htest := hsame "test_identities"
    rw [hthere hvalue (by simp)] at htest
    have harr := Option.some.inj htest
    rw [sortKeys_arr_str, sortKeys_arr_str] at harr
    exact map_str_inj.mp (Json.arr.inj harr)
  · intro hself key
    rw [hself, ← hvalue]
    by_cases hfirst : key = "manifest"
    · rw [hfirst, hmanifestThere]
      rfl
    by_cases hsecond : key = "inventory_identity"
    · rw [hsecond, hinventoryThere]
      rfl
    by_cases hthird : key = "test_identities"
    · rw [hthird, hthere rfl (by simp [hvalue])]
      rfl
    have hnone : Fields.get? fields key = none := by
      rw [Fields.get?_eq_none_iff]
      intro hmem
      have hcases := hkeys key hmem
      simp [hfirst, hsecond, hthird] at hcases
    rw [hnone]
    simp [Fields.get?, Ne.symm hfirst, Ne.symm hsecond, Ne.symm hthird]

/-- What the edge selects is what the selector of its verification lists. -/
theorem selectedTests_obj {edge verification : Fields}
    (h : Fields.get edge "verification" = .obj verification) :
    selectedTests (.obj edge) = if Fields.get verification "runner" = .str "mncs-test" then
      testIdentities (Fields.get ((Fields.get verification "selector").obj?.getD [])
        "test_identities") else none := by
  simp [selectedTests, h, Json.obj?]

/-- An edge is left alone up to key order when its tests are in order. -/
theorem sortKeys_stripFingerprint_iff {ids : List String} {index : Nat} {raw out : Json}
    (hwf : raw.wf = true) (h : checkEdge ids index raw = .ok out) :
    (stripFingerprint out).sortKeys = (stripFingerprint raw).sortKeys ↔ TestsInOrder raw := by
  obtain ⟨edge, hedge, h⟩ := bind_eq_ok_iff.mp h
  obtain ⟨⟨⟩, -, h⟩ := bind_eq_ok_iff.mp h
  obtain ⟨verification, hverification, h⟩ := bind_eq_ok_iff.mp h
  obtain ⟨⟨⟩, -, h⟩ := bind_eq_ok_iff.mp h
  obtain ⟨selected, hselected, h⟩ := bind_eq_ok_iff.mp h
  obtain ⟨⟨⟩, -, h⟩ := bind_eq_ok_iff.mp h
  obtain ⟨⟨⟩, -, h⟩ := bind_eq_ok_iff.mp h
  obtain rfl := Except.ok.inj h
  obtain rfl := graphObject_eq_ok_iff.mp hedge
  have hget := graphObject_eq_ok_iff.mp hverification
  have hthere : Fields.get? (Fields.erase edge "fingerprint") "verification" =
      some (.obj verification) := by
    rw [Fields.get?_erase, if_neg (by decide)]
    exact Fields.get?_of_get hget (by simp)
  have hverificationWf : (Json.obj verification).wf = true := hget ▸ Json.wf_get hwf "verification"
  rw [stripFingerprint, stripFingerprint, Fields.erase_set_of_ne (by decide),
    Json.sortKeys_set_eq_iff (Json.wf_obj_iff.mp (Json.wf_erase hwf "fingerprint")).1 hthere,
    TestsInOrder, selectedTests_obj hget]
  rcases checkEdgeSelector_cases hselected with ⟨hrunner, selector, hselector, rfl⟩ | ⟨hrunner, rfl⟩
  · obtain ⟨fields, -, hfields, -⟩ := validateTestSelector_eq_ok hselector
    have hselectorWf := Json.wf_get hverificationWf "selector"
    rw [if_pos hrunner, Json.sortKeys_set_eq_iff (Json.wf_obj_iff.mp hverificationWf).1
      (Fields.get?_of_get hfields (by simp)), ← hfields]
    exact sortKeys_selector_iff hselectorWf hselector
  · rw [if_neg hrunner]
    exact ⟨fun _ _ hnone => absurd hnone (by simp), fun _ => rfl⟩

/-! ## Well-formed results -/

theorem wf_validateTestSelector {selector : Json} {context : String} {out : Fields}
    (hwf : selector.wf = true) (h : validateTestSelector selector context = .ok out) :
    (Json.obj out).wf = true := by
  obtain ⟨fields, tests, rfl, -, -, -, -, rfl⟩ := validateTestSelector_eq_ok h
  have htests : (Json.arr ((sortedBy id tests).map .str)).wf = true := by
    rw [Json.wf_arr_iff]
    intro item hitem
    obtain ⟨test, -, rfl⟩ := List.mem_map.mp hitem
    rfl
  refine Json.wf_obj_iff.mpr ⟨by simp [Fields.keys], ?_⟩
  simp only [List.forall_mem_cons, List.not_mem_nil, false_imp_iff, implies_true, and_true]
  exact ⟨Json.wf_get hwf "manifest", Json.wf_get hwf "inventory_identity", htests⟩

theorem wf_checkEdge {ids : List String} {index : Nat} {raw out : Json} (hwf : raw.wf = true)
    (h : checkEdge ids index raw = .ok out) : out.wf = true := by
  obtain ⟨edge, hedge, h⟩ := bind_eq_ok_iff.mp h
  obtain ⟨⟨⟩, -, h⟩ := bind_eq_ok_iff.mp h
  obtain ⟨verification, hverification, h⟩ := bind_eq_ok_iff.mp h
  obtain ⟨⟨⟩, -, h⟩ := bind_eq_ok_iff.mp h
  obtain ⟨selected, hselected, h⟩ := bind_eq_ok_iff.mp h
  obtain ⟨⟨⟩, -, h⟩ := bind_eq_ok_iff.mp h
  obtain ⟨⟨⟩, -, h⟩ := bind_eq_ok_iff.mp h
  obtain rfl := Except.ok.inj h
  obtain rfl := graphObject_eq_ok_iff.mp hedge
  have hverificationWf : (Json.obj verification).wf = true :=
    graphObject_eq_ok_iff.mp hverification ▸ Json.wf_get hwf "verification"
  apply Json.wf_set hwf
  rcases checkEdgeSelector_cases hselected with ⟨-, selector, hselector, rfl⟩ | ⟨-, rfl⟩
  · exact Json.wf_set hverificationWf
      (wf_validateTestSelector (Json.wf_get hverificationWf "selector") hselector)
  · exact hverificationWf

theorem wf_stripFingerprint {edge : Json} (h : edge.wf = true) : (stripFingerprint edge).wf = true := by
  cases edge with
  | obj edge => exact Json.wf_erase h "fingerprint"
  | _ => exact h

/-! ## Graphs -/

/-- The identity of a graph covers its members, and its edges without their fingerprints. -/
theorem graphProjection_set (graph : Fields) (edges : List Json) :
    graphProjection (Fields.set graph "edges" (.arr edges)) =
      Fields.set (Fields.erase graph "graph_identity") "edges"
        (.arr (edges.map stripFingerprint)) := by
  rw [graphProjection, Fields.erase_set_of_ne (by decide), Fields.get?_set, if_pos rfl]
  dsimp only
  rw [Fields.set_set]

/-- Lists that agree item by item where a condition holds. -/
theorem map_eq_map_iff_of_forall₂ {α β : Type} {f g : α → β} {related : α → α → Prop}
    {condition : α → Prop} {items values : List α} (h : List.Forall₂ related items values)
    (heach : ∀ item ∈ items, ∀ value, related item value → (g value = f item ↔ condition item)) :
    values.map g = items.map f ↔ ∀ item ∈ items, condition item := by
  induction h with
  | nil => simp
  | cons hrelated _ ih =>
      rw [List.map_cons, List.map_cons, List.cons.injEq, List.forall_mem_cons,
        heach _ List.mem_cons_self _ hrelated,
        ih fun item hitem => heach item (List.mem_cons_of_mem _ hitem)]

/-- The encoding that the identity covers stays when the tests of every edge are in order. -/
theorem graphText_set_iff {ids : List String} {graph : Fields} {edges normalized : List Json}
    (hwf : (Json.obj graph).wf = true) (hedges : Fields.get graph "edges" = .arr edges)
    (h : checkEach (checkEdge ids) 0 edges = .ok normalized) :
    graphText (Fields.set graph "edges" (.arr normalized)) = graphText graph ↔
      ∀ edge ∈ edges, TestsInOrder edge := by
  have hitems : ∀ edge ∈ edges, edge.wf = true :=
    Json.wf_arr_iff.mp (hedges ▸ Json.wf_get hwf "edges")
  have hpairs := forall₂_of_checkEach h
  have hnormalized : ∀ edge ∈ normalized, edge.wf = true := by
    intro edge hmem
    obtain ⟨raw, hraw, index, hcheck⟩ := exists_of_mem_right hpairs hmem
    exact wf_checkEdge (hitems raw hraw) hcheck
  have hprojection : ∀ items : List Json, (∀ edge ∈ items, edge.wf = true) →
      (Json.obj (Fields.set (Fields.erase graph "graph_identity") "edges"
        (.arr (items.map stripFingerprint)))).wf = true := by
    intro items hall
    refine Json.wf_set (Json.wf_erase hwf _) (Json.wf_arr_iff.mpr fun edge hmem => ?_)
    obtain ⟨raw, hraw, rfl⟩ := List.mem_map.mp hmem
    exact wf_stripFingerprint (hall raw hraw)
  have hgraph : Fields.set graph "edges" (.arr edges) = graph :=
    Fields.set_of_get_eq hedges (by simp)
  have hself : graphText graph = graphText (Fields.set graph "edges" (.arr edges)) := by rw [hgraph]
  rw [hself, graphText, graphText, graphProjection_set, graphProjection_set,
    dumps_eq_iff (hprojection _ hnormalized) (hprojection _ hitems),
    Json.sortKeys_set_set_iff (Json.wf_obj_iff.mp (Json.wf_erase hwf _)).1, Json.sortKeys_arr,
    Json.sortKeys_arr, Json.arr.injEq, List.map_map, List.map_map]
  exact map_eq_map_iff_of_forall₂ hpairs fun raw hraw out ⟨index, hcheck⟩ =>
    sortKeys_stripFingerprint_iff (hitems raw hraw) hcheck

/-- What validation finds in a graph it accepts. -/
structure GraphParts (graph : Fields) (repositories : List Json) (ids : List String)
    (edges normalized : List Json) : Prop where
  schema : Fields.get graph "schema_version" = .str graphSchema
  rows : Fields.get graph "repositories" = .arr repositories
  nonempty : repositories.isEmpty = false
  repositoryIds : checkGraphRepositories 0 [] repositories = .ok ids
  source : checkGraphSource (Fields.get graph "source") ids = .ok ()
  edgeItems : Fields.get graph "edges" = .arr edges
  checked : checkEach (checkEdge ids) 0 edges = .ok normalized
  scope : checkGraphScope (Fields.get graph "complete") (Fields.get graph "limitations") = .ok ()
  coverage : checkGraphCoverage (Fields.get graph "coverage") ids = .ok ()
  identity : Fields.get graph "graph_identity" = .str (graphIdentity graph)

theorem GraphParts.of_validateGraph {value : Json} {out : Fields}
    (h : validateGraph value = .ok out) :
    ∃ graph repositories ids edges normalized, value = .obj graph ∧
      GraphParts graph repositories ids edges normalized ∧
      out = Fields.set graph "edges" (.arr normalized) := by
  obtain ⟨graph, hgraph, h⟩ := bind_eq_ok_iff.mp h
  obtain ⟨hschema, h⟩ := requireThat_bind_eq_ok_iff.mp h
  obtain ⟨repositories, hrepositories, h⟩ := bind_eq_ok_iff.mp h
  obtain ⟨hnonempty, h⟩ := requireThat_bind_eq_ok_iff.mp h
  obtain ⟨ids, hids, h⟩ := bind_eq_ok_iff.mp h
  obtain ⟨⟨⟩, hsource, h⟩ := bind_eq_ok_iff.mp h
  obtain ⟨edges, hedges, h⟩ := bind_eq_ok_iff.mp h
  obtain ⟨normalized, hnormalized, h⟩ := bind_eq_ok_iff.mp h
  obtain ⟨⟨⟩, hscope, h⟩ := bind_eq_ok_iff.mp h
  obtain ⟨⟨⟩, hcoverage, h⟩ := bind_eq_ok_iff.mp h
  obtain ⟨hidentity, h⟩ := requireThat_bind_eq_ok_iff.mp h
  have hrows := graphArray_eq_ok_iff.mp hrepositories
  have hout := Except.ok.inj h
  rw [Fields.set_of_get_eq hrows (by simp)] at hout
  exact ⟨graph, repositories, ids, edges, normalized, graphObject_eq_ok_iff.mp hgraph,
    ⟨of_decide_eq_true hschema, hrows, by simpa using hnonempty, hids, hsource,
      graphArray_eq_ok_iff.mp hedges, hnormalized, hscope, hcoverage, of_decide_eq_true hidentity⟩,
    hout.symm⟩

theorem GraphParts.validateGraph {graph : Fields} {repositories : List Json} {ids : List String}
    {edges normalized : List Json} (h : GraphParts graph repositories ids edges normalized) :
    validateGraph (.obj graph) = .ok (Fields.set graph "edges" (.arr normalized)) := by
  refine bind_eq_ok_iff.mpr ⟨graph, rfl, ?_⟩
  refine requireThat_bind_eq_ok_iff.mpr ⟨decide_eq_true h.schema, ?_⟩
  refine bind_eq_ok_iff.mpr ⟨repositories, graphArray_eq_ok_iff.mpr h.rows, ?_⟩
  refine requireThat_bind_eq_ok_iff.mpr ⟨by rw [h.nonempty]; rfl, ?_⟩
  refine bind_eq_ok_iff.mpr ⟨ids, h.repositoryIds, ?_⟩
  refine bind_eq_ok_iff.mpr ⟨(), h.source, ?_⟩
  refine bind_eq_ok_iff.mpr ⟨edges, graphArray_eq_ok_iff.mpr h.edgeItems, ?_⟩
  refine bind_eq_ok_iff.mpr ⟨normalized, h.checked, ?_⟩
  refine bind_eq_ok_iff.mpr ⟨(), h.scope, ?_⟩
  refine bind_eq_ok_iff.mpr ⟨(), h.coverage, ?_⟩
  refine requireThat_bind_eq_ok_iff.mpr ⟨decide_eq_true h.identity, ?_⟩
  rw [Fields.set_of_get_eq h.rows (by simp)]
  rfl

/-- With its edges normalised a graph has the same parts, when its identity says so. -/
theorem GraphParts.normalized {graph : Fields} {repositories : List Json} {ids : List String}
    {edges normalized : List Json} (h : GraphParts graph repositories ids edges normalized)
    (hidentity : graphIdentity (Fields.set graph "edges" (.arr normalized)) =
      graphIdentity graph) :
    GraphParts (Fields.set graph "edges" (.arr normalized)) repositories ids normalized normalized := by
  have hother : ∀ key, "edges" ≠ key →
      Fields.get (Fields.set graph "edges" (.arr normalized)) key = Fields.get graph key :=
    fun key hne => Fields.get_set_of_ne hne graph _
  constructor
  · rw [hother _ (by decide), h.schema]
  · rw [hother _ (by decide), h.rows]
  · exact h.nonempty
  · exact h.repositoryIds
  · rw [hother _ (by decide), h.source]
  · exact Fields.get_set_self graph "edges" _
  · have heach : ∀ index raw out, checkEdge ids index raw = .ok out →
        checkEdge ids index out = .ok out := fun _ _ _ hcheck => checkEdge_idem hcheck
    exact checkEach_idem heach h.checked
  · rw [hother _ (by decide), hother _ (by decide), h.scope]
  · rw [hother _ (by decide), h.coverage]
  · rw [hother _ (by decide), h.identity, hidentity]

/-- A graph with its identity written in. -/
def sealed (graph : Fields) : Fields :=
  Fields.set graph "graph_identity" (.str (graphIdentity graph))

theorem graphIdentity_sealed (graph : Fields) : graphIdentity (sealed graph) = graphIdentity graph := by
  rw [graphIdentity, graphText, graphProjection, sealed, Fields.erase_set, graphIdentity, graphText,
    graphProjection]

/-- Sixty-four zeros. -/
def zeros : String := "0000000000000000000000000000000000000000000000000000000000000000"

def oneRepository : List Json :=
  [.obj [("id", .str "r"), ("repository", .str "r"), ("revision", .str "1"),
    ("manifest_identity", .str "m")]]

/-- A graph of one repository with the given edges, without its identity. -/
def smallGraph (edges : List Json) : Fields :=
  [("schema_version", .str graphSchema), ("repositories", .arr oneRepository),
    ("source", .obj [("kind", .str "repository_contract_declarations"),
      ("declarations", .arr [.obj [("repository_id", .str "r"), ("identity", .str "d"),
        ("path", .str "p")]])]),
    ("edges", .arr edges), ("complete", .bool true), ("limitations", .arr []),
    ("coverage", .obj [("registry_identity", .str zeros),
      ("registered_family_project_count", .int 1), ("classified_project_count", .int 1),
      ("semantic_graph_participant_count", .int 1), ("explicit_nonparticipant_count", .int 0),
      ("unclassified_project_count", .int 0), ("semantic_graph_participants", .arr [.str "r"]),
      ("explicit_nonparticipants", .arr []), ("unclassified_repositories", .arr []),
      ("coverage_status", .str "complete"),
      ("topology_status", .str "complete_among_declared_participants")])]

/-- An edge of the repository to itself, checked by the given tests. -/
def testedEdge (tests : List String) : Fields :=
  [("producer_repository", .str "r"), ("consumer_repository", .str "r"),
    ("contract_identity", .str "c"), ("contract_revision", .str "1"),
    ("consuming_identity", .str "i"), ("provenance", .str "p"),
    ("producer_manifest_identity", .str "m"), ("consumer_manifest_identity", .str "m"),
    ("provider_identity", .str "v"),
    ("verification", .obj [("check_identity", .str "k"), ("executor", .str "e"),
      ("surface", .str "s"), ("evidence", .str "f"), ("runner", .str "mncs-test"),
      ("selector", .obj [("manifest", .str "t"), ("inventory_identity", .str zeros),
        ("test_identities", .arr (tests.map .str))])]),
    ("verification_evidence_sha256", .str ("sha256:" ++ zeros))]

/-- An edge with the fingerprint of its normal form. -/
def fingerprinted (edge normalized : Fields) : Json :=
  .obj (edge ++ [("fingerprint", .str (edgeFingerprint normalized))])

theorem smallGraph_parts {edges normalized : List Json}
    (h : checkEach (checkEdge ["r"]) 0 edges = .ok normalized) :
    GraphParts (sealed (smallGraph edges)) oneRepository ["r"] edges normalized := by
  have hother : ∀ key, "graph_identity" ≠ key →
      Fields.get (sealed (smallGraph edges)) key = Fields.get (smallGraph edges) key :=
    fun key hne => Fields.get_set_of_ne hne _ _
  constructor
  · rw [hother _ (by decide)]
    rfl
  · rw [hother _ (by decide)]
    rfl
  · rfl
  · rfl
  · rw [hother _ (by decide)]
    rfl
  · rw [hother _ (by decide)]
    rfl
  · exact h
  · rw [hother _ (by decide), hother _ (by decide)]
    rfl
  · rw [hother _ (by decide)]
    rfl
  · rw [graphIdentity_sealed]
    exact Fields.get_set_self ..

/-- Two tests out of order. -/
def unsortedEdge : Json := fingerprinted (testedEdge ["b", "a"]) (testedEdge ["a", "b"])

def sortedEdge : Json := fingerprinted (testedEdge ["a", "b"]) (testedEdge ["a", "b"])

theorem checkEdge_unsortedEdge : checkEdge ["r"] 0 unsortedEdge = .ok sortedEdge := by
  refine bind_eq_ok_iff.mpr ⟨_, rfl, ?_⟩
  refine bind_eq_ok_iff.mpr ⟨(), rfl, ?_⟩
  refine bind_eq_ok_iff.mpr ⟨_, rfl, ?_⟩
  refine bind_eq_ok_iff.mpr ⟨(), rfl, ?_⟩
  refine bind_eq_ok_iff.mpr ⟨_, rfl, ?_⟩
  refine bind_eq_ok_iff.mpr ⟨(), rfl, ?_⟩
  refine bind_eq_ok_iff.mpr ⟨(), ?_, rfl⟩
  refine requireThat_bind_eq_ok_iff.mpr ⟨rfl, ?_⟩
  refine requireThat_bind_eq_ok_iff.mpr ⟨rfl, ?_⟩
  refine requireThat_bind_eq_ok_iff.mpr ⟨rfl, ?_⟩
  exact requireThat_eq_ok_iff.mpr (decide_eq_true rfl)

/-- The identities of the graph with the two orders. -/
theorem graphIdentity_unsorted :
    graphIdentity (smallGraph [unsortedEdge]) ≠ graphIdentity (smallGraph [sortedEdge]) := by
  simp only [graphIdentity, graphText, sha256Hex_eq_quickHash, dumps_eq_quickDumps]
  decide +kernel

end MncsCommons.Family
