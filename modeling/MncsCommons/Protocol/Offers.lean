/-
# What a worker is offered

The projection of stored work does not depend on the order of the records: a history
that is one numbers its records from 1, so they are sorted by different numbers
(`listWork_perm`).  Over work that can be read, the offers are the first of the works
that can be offered, in the order of their ranks, which end with the identity of the
work and so are different (`next_work_exact`).
-/

import MncsCommons.Data.Checks
import MncsCommons.Protocol.Queue

namespace MncsCommons.Protocol

open MncsCommons.Data

/-! ## The order of the records -/

/-- A revision that is numbered is sorted by its number. -/
theorem sortRevision_of_pyEq {record : Fields} {n : Int}
    (h : (Fields.get (metadataOf record) "revision").pyEq (.int n) = true) :
    sortRevision record = .ok n := by
  obtain ⟨metadata, hmetadata⟩ : ∃ metadata, Fields.get record "metadata" = .obj metadata := by
    cases hvalue : (Fields.get record "metadata").obj? with
    | none =>
        rw [metadataOf, hvalue] at h
        simp [Fields.get, Fields.get?, Json.pyEq, Json.normal] at h
    | some metadata => exact ⟨metadata, Json.obj?_eq_some_iff.mp hvalue⟩
  have hfields : metadataOf record = metadata := by rw [metadataOf, hmetadata]; rfl
  rw [hfields] at h
  have hmember : (Fields.get? metadata "revision").getD (.int 0) = Fields.get metadata "revision" := by
    rw [Fields.get] at h ⊢
    cases hget : Fields.get? metadata "revision" with
    | none =>
        rw [hget] at h
        simp [Json.pyEq, Json.normal] at h
    | some value => rfl
  rw [sortRevision, Fields.get?_of_get hmetadata (by simp)]
  show toInt ((Fields.get? metadata "revision").getD (.int 0)) = .ok n
  unfold toInt
  rw [hmember, Json.pyInt_of_pyEq h]

/-- A projected history numbers its records. -/
theorem numbered_of_projectRevisions {expected : Nat} {previous : Option (String × String)}
    {items : List Fields} {history : List WorkRevision}
    (h : projectRevisions expected previous items = .ok history) (index : Nat) (record : Fields)
    (hrecord : items[index]? = some record) :
    sortRevision record = .ok ((expected + index : Nat) : Int) := by
  induction items generalizing expected previous history index with
  | nil => simp at hrecord
  | cons item items ih =>
      obtain ⟨revision, hrevision, h⟩ := Py.bind_eq_ok_iff.mp h
      obtain ⟨rest, hrest, -⟩ := Py.bind_eq_ok_iff.mp h
      cases index with
      | zero =>
          obtain rfl : item = record := by simpa using hrecord
          obtain ⟨_, hnumber, -⟩ := Py.bind_eq_ok_iff.mp hrevision
          rw [raiseIf_eq_ok_iff, Bool.not_eq_false'] at hnumber
          exact sortRevision_of_pyEq hnumber
      | succ index =>
          have hnext := ih hrest index (by simpa using hrecord)
          rwa [show expected + (index + 1) = expected + 1 + index by omega]

/-- The pairs that a computation keys, when it returns for every item. -/
theorem keyed_eq_ok_iff {α κ : Type} {key : α → Py κ} {items : List α} {keyed : List (κ × α)} :
    (items.mapM fun item => do return (← key item, item)) = .ok keyed ↔
      keyed.map Prod.snd = items ∧ ∀ pair ∈ keyed, key pair.2 = .ok pair.1 := by
  rw [mapM_eq_ok_iff]
  induction items generalizing keyed with
  | nil =>
      rw [List.forall₂_nil_left_iff]
      constructor
      · rintro rfl
        simp
      · rintro ⟨hnil, -⟩
        exact List.map_eq_nil_iff.mp hnil
  | cons item items ih =>
      rw [List.forall₂_cons_left_iff]
      constructor
      · rintro ⟨pair, rest, hpair, hrest, rfl⟩
        obtain ⟨found, hfound, hpair⟩ := Py.bind_eq_ok_iff.mp hpair
        obtain rfl := Except.ok.inj hpair
        obtain ⟨hitems, hkeys⟩ := ih.mp hrest
        rw [List.map_cons, hitems]
        exact ⟨rfl, List.forall_mem_cons.mpr ⟨hfound, hkeys⟩⟩
      · rintro ⟨hitems, hkeys⟩
        cases keyed with
        | nil => cases hitems
        | cons pair rest =>
            obtain ⟨hitem, hrest⟩ := List.cons.inj hitems
            rw [List.forall_mem_cons] at hkeys
            refine ⟨pair, rest, ?_, ih.mpr ⟨hrest, hkeys.2⟩, rfl⟩
            rw [← hitem, hkeys.1]
            rfl

/-- What is arranged as an image is the image of an arrangement. -/
theorem exists_arranged {α β : Type} {f : α → β} {others : List β} {items : List α}
    (h : others.Perm (items.map f)) : ∃ arranged : List α, arranged.Perm items ∧
      arranged.map f = others := by
  induction others generalizing items with
  | nil => exact ⟨[], by rw [List.map_eq_nil_iff.mp (List.nil_perm.mp h)], rfl⟩
  | cons other others ih =>
      obtain ⟨item, hitem, rfl⟩ := List.mem_map.mp (h.subset List.mem_cons_self)
      obtain ⟨before, after, rfl⟩ := List.append_of_mem hitem
      have hmoved : (before ++ item :: after).Perm (item :: (before ++ after)) :=
        List.perm_middle
      obtain ⟨arranged, harranged, himage⟩ := ih ((h.trans (hmoved.map f)).cons_inv)
      exact ⟨item :: arranged, (harranged.cons item).trans hmoved.symm, by rw [List.map_cons, himage]⟩

/-- A permutation of items is keyed to a permutation of the pairs. -/
theorem keyed_perm {α κ : Type} {key : α → Py κ} {items others : List α} {keyed : List (κ × α)}
    (hperm : others.Perm items)
    (h : (items.mapM fun item => do return (← key item, item)) = .ok keyed) :
    ∃ pairs, (others.mapM fun item => do return (← key item, item)) = .ok pairs ∧
      pairs.Perm keyed := by
  obtain ⟨hitems, hkeys⟩ := keyed_eq_ok_iff.mp h
  rw [← hitems] at hperm
  obtain ⟨pairs, hpairs, hothers⟩ := exists_arranged hperm
  refine ⟨pairs, keyed_eq_ok_iff.mpr ⟨hothers, ?_⟩, hpairs⟩
  intro pair hpair
  exact hkeys pair (hpairs.subset hpair)

/-- The order of a projected history does not depend on the order of the records. -/
theorem projectWorkHistory_perm {records others : List Fields} {workId : String}
    {item : WorkProjection} (hperm : others.Perm records)
    (h : projectWorkHistory records workId = .ok item) :
    projectWorkHistory others workId = .ok item := by
  obtain ⟨_, hfound, hrest⟩ := Py.bind_eq_ok_iff.mp h
  obtain ⟨keyed, hkeyed, hrest⟩ := Py.bind_eq_ok_iff.mp hrest
  obtain ⟨history, hhistory, -⟩ := Py.bind_eq_ok_iff.mp hrest
  have hselected := hperm.filter (isRevisionOf workId)
  obtain ⟨pairs, hpairs, hsame⟩ := keyed_perm hselected hkeyed
  have hkeys := (keyed_eq_ok_iff.mp hkeyed).2
  have hsorted : sortedBy Prod.fst pairs = sortedBy Prod.fst keyed := by
    symm
    apply sortedBy_eq_of_perm hsame.symm
    intro first hfirst second hsecond heq
    have hnumber : ∀ pair ∈ keyed, ∃ index : Nat, pair.1 = ((1 + index : Nat) : Int) ∧
        ((sortedBy Prod.fst keyed).map Prod.snd)[index]? = some pair.2 := by
      intro pair hpair
      have hmem : pair.2 ∈ (sortedBy Prod.fst keyed).map Prod.snd :=
        List.mem_map_of_mem (mem_sortedBy.mpr hpair)
      obtain ⟨index, hindex⟩ := List.mem_iff_getElem?.mp hmem
      refine ⟨index, ?_, hindex⟩
      have hread := numbered_of_projectRevisions hhistory index pair.2 hindex
      exact Except.ok.inj ((hkeys pair hpair).symm.trans hread)
    obtain ⟨index, hindex, hget⟩ := hnumber first hfirst
    obtain ⟨other, hother, hgetOther⟩ := hnumber second hsecond
    obtain rfl : index = other := by omega
    exact Prod.ext heq (Option.some.inj (hget.symm.trans hgetOther))
  rw [← h, projectWorkHistory, projectWorkHistory]
  dsimp only
  rw [hselected.isEmpty_eq, hpairs, hkeyed]
  simp only [bind, Except.bind, hsorted]

theorem storedWorkIds_perm {records others : List Fields} (hperm : others.Perm records) :
    storedWorkIds others = storedWorkIds records := by
  apply sortedBy_eq_of_perm
  · rw [List.perm_ext_iff_of_nodup (nodup_eraseDups _) (nodup_eraseDups _)]
    intro workId
    rw [List.mem_eraseDups, List.mem_eraseDups]
    exact (hperm.filterMap _).mem_iff
  · exact fun _ _ _ _ heq => heq

section Projected

variable {records others : List Fields} {work : List WorkProjection}

theorem mapM_congr_of_ok {α β : Type} {f g : α → Py β} {items : List α} {results : List β}
    (h : items.mapM f = .ok results) (hsame : ∀ item result, f item = .ok result → g item = .ok result) :
    items.mapM g = .ok results := by
  rw [mapM_eq_ok_iff] at h ⊢
  exact h.imp fun item result hresult => hsame item result hresult

/-- All work is listed by its projections. -/
theorem listWork_all (h : listWork records [] [] [] = .ok work) :
    (storedWorkIds records).mapM (projectWorkHistory records) = .ok work := by
  obtain ⟨projected, hprojected, h⟩ := Py.bind_eq_ok_iff.mp h
  rw [hprojected, ← h]
  simp [narrow, bind, Except.bind]

/-- Lists of work do not depend on the order of the records. -/
theorem listWork_perm (hperm : others.Perm records) (h : listWork records [] [] [] = .ok work)
    (states lanes coordinationStates : List String) :
    listWork others states lanes coordinationStates =
      listWork records states lanes coordinationStates := by
  have hall := listWork_all h
  have hother : (storedWorkIds others).mapM (projectWorkHistory others) = .ok work := by
    rw [storedWorkIds_perm hperm]
    exact mapM_congr_of_ok hall fun _ _ hitem => projectWorkHistory_perm hperm hitem
  rw [listWork, listWork, hall, hother]

/-- What is offered does not depend on the order of the records. -/
theorem nextWork_perm (hperm : others.Perm records) (h : listWork records [] [] [] = .ok work)
    (lane repository : Option String) (capabilities : List String) (limit : Int) :
    nextWork others lane repository capabilities limit =
      nextWork records lane repository capabilities limit := by
  rw [nextWork, nextWork]
  simp only [listWork_perm hperm h]

/-! ## Selections -/

/-- What a selection keeps, when it returns. -/
theorem selectPy_eq_filter {α : Type} {test : α → Py Bool} {items found : List α}
    (h : selectPy test items = .ok found) :
    found = items.filter (fun item => (test item).toOption.getD false) ∧
      ∀ item ∈ items, ∃ kept, test item = .ok kept := by
  induction items generalizing found with
  | nil =>
      obtain rfl := Except.ok.inj h
      exact ⟨rfl, by simp⟩
  | cons item items ih =>
      obtain ⟨kept, hkept, h⟩ := Py.bind_eq_ok_iff.mp h
      obtain ⟨rest, hrest, h⟩ := Py.bind_eq_ok_iff.mp h
      obtain rfl := Except.ok.inj h
      obtain ⟨hfilter, htests⟩ := ih hrest
      refine ⟨?_, List.forall_mem_cons.mpr ⟨⟨kept, hkept⟩, htests⟩⟩
      rw [List.filter_cons, hkept, hfilter]
      rfl

theorem narrow_eq_filter {α : Type} {names : List String} {test : α → Py Bool}
    {items found : List α} (h : narrow names test items = .ok found) :
    found = items.filter fun item => names.isEmpty || (test item).toOption.getD false := by
  rw [narrow] at h
  cases hnames : names.isEmpty with
  | true =>
      rw [hnames, if_pos rfl] at h
      obtain rfl := Except.ok.inj h
      simp
  | false =>
      rw [hnames, if_neg Bool.false_ne_true] at h
      simpa using (selectPy_eq_filter h).1

/-- The results of a loop, one after another. -/
theorem flatten_of_mapM {α β : Type} {f : α → Py (List β)} {items : List α}
    {results : List (List β)} (h : items.mapM f = .ok results) :
    results.flatten = items.flatMap fun item => (f item).toOption.getD [] := by
  rw [mapM_eq_ok_iff] at h
  induction h with
  | nil => rfl
  | cons hfirst _ ih =>
      rw [List.flatten_cons, List.flatMap_cons, ih, hfirst]
      rfl

/-- What a projection shows of its work. -/
theorem shows_of_project {workId : String} {item : WorkProjection}
    (h : projectWorkHistory records workId = .ok item) :
    item.workId = workId ∧
      coordinationState (detailsOf item.current) = .ok item.coordinationState := by
  obtain ⟨_, -, h⟩ := Py.bind_eq_ok_iff.mp h
  obtain ⟨keyed, -, h⟩ := Py.bind_eq_ok_iff.mp h
  obtain ⟨history, -, h⟩ := Py.bind_eq_ok_iff.mp h
  obtain ⟨coordination, hcoordination, h⟩ := Py.bind_eq_ok_iff.mp h
  obtain rfl := Except.ok.inj h
  exact ⟨rfl, hcoordination⟩

/-- The identities of listed work are the stored ones. -/
theorem workIds_of_list (h : listWork records [] [] [] = .ok work) :
    work.map WorkProjection.workId = storedWorkIds records := by
  have hall := mapM_eq_ok_iff.mp (listWork_all h)
  generalize storedWorkIds records = ids at hall
  clear h
  induction hall with
  | nil => rfl
  | cons hfirst _ ih => rw [List.map_cons, ih, (shows_of_project hfirst).1]

theorem coordination_of_mem (h : listWork records [] [] [] = .ok work) {item : WorkProjection}
    (hitem : item ∈ work) :
    coordinationState (detailsOf item.current) = .ok item.coordinationState := by
  obtain ⟨workId, -, hproject⟩ := mem_of_mapM (listWork_all h) hitem
  exact (shows_of_project hproject).2

/-- The work of some lanes and coordination states. -/
theorem listWork_eq_filter (h : listWork records [] [] [] = .ok work)
    {lanes coordinationStates : List String} {found : List WorkProjection}
    (hfound : listWork records [] lanes coordinationStates = .ok found) :
    found = work.filter fun item =>
      (lanes.isEmpty ||
        (inSet (Fields.get (detailsOf item.current) "lane") lanes).toOption.getD false) &&
      (coordinationStates.isEmpty || coordinationStates.contains item.coordinationState) := by
  rw [listWork, listWork_all h] at hfound
  obtain ⟨projected, hprojected, hfound⟩ := Py.bind_eq_ok_iff.mp hfound
  obtain rfl := Except.ok.inj hprojected
  obtain ⟨selected, hselected, hfound⟩ := Py.bind_eq_ok_iff.mp hfound
  have hlanes := narrow_eq_filter hselected
  rw [narrow_eq_filter hfound, hlanes, List.filter_filter, List.filter_filter]
  apply List.filter_congr
  intro item hitem
  rw [coordination_of_mem h hitem]
  simp only [List.isEmpty_nil, Bool.true_or, Bool.and_true, bind, Except.bind, pure, Except.pure,
    Except.toOption, Option.getD_some]
  exact Bool.and_comm _ _

/-! ## What can be offered -/

/-- The items of a member that is a list. -/
def itemsOf (details : Fields) (field : String) : List Json :=
  (fieldItems details field).toOption.getD []

/-- The work is one of the list and complete. -/
def CompleteIn (work : List WorkProjection) (workId : String) : Prop :=
  ∃ item ∈ work, item.workId = workId ∧ item.coordinationState = "COMPLETE"

/-- A dependency that names work names complete work. -/
def Unblocked (work : List WorkProjection) (dependency : Json) : Prop :=
  ∀ workId, dependency = .str workId → Str.startsWith workId "work:" = true →
    CompleteIn work workId

/-- Work that can be offered to a worker. -/
structure Offered (work : List WorkProjection) (lane repository : Option String)
    (capabilities : List String) (item : WorkProjection) : Prop where
  listed : item ∈ work
  available : item.coordinationState = "AVAILABLE"
  lane : ∀ name ∈ lane, Fields.get (detailsOf item.current) "lane" = .str name
  repository : ∀ name ∈ repository, name ≠ "" → touchesRepository (detailsOf item.current) name = true
  capabilities : ∀ required ∈ itemsOf (detailsOf item.current) "capabilityRequirements",
    ∃ capability ∈ capabilities, required = .str capability
  dependencies : ∀ dependency ∈ itemsOf (detailsOf item.current) "dependencies",
    Unblocked work dependency
  parent : (Fields.get (detailsOf item.current) "parentWorkId").truthy = true →
    Unblocked work (.str (Fields.get (detailsOf item.current) "parentWorkId").pyStr)

theorem inSet_singleton {value : Json} {name : String} :
    (inSet value [name]).toOption.getD false = true ↔ value = .str name := by
  cases hfound : inSet value [name] with
  | error error =>
      apply iff_of_false (by simp [Except.toOption])
      rintro rfl
      cases hfound
  | ok found =>
      obtain ⟨_, -, hfound⟩ := Py.bind_eq_ok_iff.mp hfound
      obtain rfl := Except.ok.inj hfound
      cases value <;> simp [Json.str?, Except.toOption]

/-- Nothing is waited for exactly when what names work names complete work. -/
theorem waitsFor_iff {completed : List String} {items : List Json} {waits : Bool}
    (h : waitsFor completed items = .ok waits) :
    waits = false ↔ ∀ item ∈ items, ∀ workId, item = .str workId →
      Str.startsWith workId "work:" = true → workId ∈ completed := by
  induction items with
  | nil =>
      obtain rfl := Except.ok.inj h
      simp
  | cons item items ih =>
      cases item with
      | str dependency =>
          rw [waitsFor] at h
          rw [List.forall_mem_cons]
          split at h
          case isTrue hwaits =>
            obtain rfl := Except.ok.inj h
            rw [Bool.and_eq_true, Bool.not_eq_true', List.contains_eq_mem, decide_eq_false_iff_not]
              at hwaits
            apply iff_of_false (by simp)
            intro hall
            exact hwaits.2 (hall.1 dependency rfl hwaits.1)
          case isFalse hmet =>
            rw [ih h]
            have hfirst : ∀ workId, Json.str dependency = .str workId →
                Str.startsWith workId "work:" = true → workId ∈ completed := by
              rintro workId hsame hstarts
              obtain rfl := Json.str.inj hsame
              by_contra hmissing
              exact hmet (by simp [hstarts, hmissing])
            exact ⟨fun hrest => ⟨hfirst, hrest⟩, fun hall => hall.2⟩
      | null => cases h
      | bool _ => cases h
      | int _ => cases h
      | decimal _ => cases h
      | arr _ => cases h
      | obj _ => cases h

theorem itemsOf_of_ok {details : Fields} {field : String} {items : List Json}
    (h : fieldItems details field = .ok items) : itemsOf details field = items := by
  rw [itemsOf, h]
  rfl

/-- What an eligible work is. -/
theorem isEligible_iff {repository : Option String} {capabilities completed : List String}
    {item : WorkProjection} {eligible : Bool}
    (hcompleted : ∀ workId, workId ∈ completed ↔ CompleteIn work workId)
    (h : isEligible repository capabilities completed item = .ok eligible) :
    eligible = true ↔
      (∀ name ∈ repository, name ≠ "" → touchesRepository (detailsOf item.current) name = true) ∧
        (∀ required ∈ itemsOf (detailsOf item.current) "capabilityRequirements",
          ∃ capability ∈ capabilities, required = .str capability) ∧
        (∀ dependency ∈ itemsOf (detailsOf item.current) "dependencies",
          Unblocked work dependency) ∧
        ((Fields.get (detailsOf item.current) "parentWorkId").truthy = true →
          Unblocked work (.str (Fields.get (detailsOf item.current) "parentWorkId").pyStr)) := by
  rw [isEligible] at h
  dsimp only at h
  split at h
  case isTrue hrepository =>
    obtain rfl := Except.ok.inj h
    apply iff_of_false (by simp)
    rintro ⟨htouches, -⟩
    cases repository with
    | none => cases hrepository
    | some name =>
        rw [Option.any_some, Bool.and_eq_true, decide_eq_true_eq, Bool.not_eq_true'] at hrepository
        rw [htouches name rfl hrepository.1] at hrepository
        exact absurd hrepository.2 (by simp)
  case isFalse hrepository =>
    have htouches : ∀ name ∈ repository, name ≠ "" →
        touchesRepository (detailsOf item.current) name = true := by
      rintro name ⟨rfl⟩ hname
      by_contra hmisses
      exact hrepository (by simp [hname, hmisses])
    obtain ⟨required, hrequired, h⟩ := Py.bind_eq_ok_iff.mp h
    obtain ⟨_, -, h⟩ := Py.bind_eq_ok_iff.mp h
    rw [itemsOf_of_ok hrequired]
    have hcovered : (required.all fun item => item.str?.any (capabilities.contains ·)) = true ↔
        ∀ item ∈ required, ∃ capability ∈ capabilities, item = .str capability := by
      rw [List.all_eq_true]
      apply forall₂_congr
      intro item _
      cases item <;> simp [Json.str?]
    split at h
    case isTrue hmissing =>
      obtain rfl := Except.ok.inj h
      apply iff_of_false (by simp)
      rintro ⟨-, hall, -⟩
      rw [hcovered.mpr hall] at hmissing
      cases hmissing
    case isFalse hall =>
      rw [Bool.not_eq_true, Bool.not_eq_false'] at hall
      obtain ⟨dependencies, hdependencies, h⟩ := Py.bind_eq_ok_iff.mp h
      obtain ⟨_, -, h⟩ := Py.bind_eq_ok_iff.mp h
      obtain ⟨waits, hwaits, h⟩ := Py.bind_eq_ok_iff.mp h
      obtain rfl := Except.ok.inj h
      rw [itemsOf_of_ok hdependencies, Bool.not_eq_true', waitsFor_iff hwaits,
        List.forall_mem_append]
      simp only [hcompleted]
      constructor
      · rintro ⟨hnamed, hparent⟩
        refine ⟨htouches, hcovered.mp hall, hnamed, fun htruthy => ?_⟩
        rw [if_pos htruthy] at hparent
        exact hparent _ List.mem_cons_self
      · rintro ⟨-, -, hnamed, hparent⟩
        refine ⟨hnamed, fun dependency hdependency => ?_⟩
        split at hdependency
        case isTrue htruthy =>
          rw [List.mem_singleton.mp hdependency]
          exact hparent htruthy
        case isFalse => cases hdependency

/-! ## Offers -/

/-- The repositories of the active works. -/
def activeIn (work : List WorkProjection) : List String :=
  (work.filter fun item => activeCoordinationStates.contains item.coordinationState).flatMap
    fun item => (activeRepositories item).toOption.getD []

/-- What the works depend on. -/
def dependentsIn (work : List WorkProjection) : List String :=
  (work.flatMap fun item => itemsOf (detailsOf item.current) "dependencies").map Json.pyStr

/-- A work is offered before another when its rank is lower. -/
def OfferedBefore (work : List WorkProjection) (first second : WorkProjection) : Prop :=
  ∃ low high, workRank (dependentsIn work) (activeIn work) first = .ok low ∧
    workRank (dependentsIn work) (activeIn work) second = .ok high ∧ low < high

/-- Ranks are those of different works. -/
theorem workId_of_rank_eq {dependents active : List String} {first second : WorkProjection}
    {rank : WorkRank} (hfirst : workRank dependents active first = .ok rank)
    (hsecond : workRank dependents active second = .ok rank) : first.workId = second.workId := by
  obtain ⟨_, -, hfirst⟩ := Py.bind_eq_ok_iff.mp hfirst
  obtain ⟨_, -, hfirst⟩ := Py.bind_eq_ok_iff.mp hfirst
  obtain rfl := Except.ok.inj hfirst
  obtain ⟨_, -, hsecond⟩ := Py.bind_eq_ok_iff.mp hsecond
  obtain ⟨_, -, hsecond⟩ := Py.bind_eq_ok_iff.mp hsecond
  have hlast := congrArg (fun rank : WorkRank =>
    (ofLex (ofLex (ofLex (ofLex rank).2).2).2).2) (Except.ok.inj hsecond)
  exact hlast.symm

/-- Listed work has different identities. -/
theorem workId_inj_of_list (h : listWork records [] [] [] = .ok work) {first second : WorkProjection}
    (hfirst : first ∈ work) (hsecond : second ∈ work) (heq : first.workId = second.workId) :
    first = second := by
  have hnodup : (work.map WorkProjection.workId).Nodup := by
    rw [workIds_of_list h]
    exact (sortedBy_perm _ _).nodup_iff.mpr (nodup_eraseDups _)
  exact List.inj_on_of_nodup_map hnodup hfirst hsecond heq

theorem nodup_of_list (h : listWork records [] [] [] = .ok work) : work.Nodup := by
  apply List.Nodup.of_map WorkProjection.workId
  rw [workIds_of_list h]
  exact (sortedBy_perm _ _).nodup_iff.mpr (nodup_eraseDups _)

/-- Keyed works are ordered by their ranks. -/
theorem pairwise_offeredBefore (h : listWork records [] [] [] = .ok work)
    {ranked : List (WorkRank × WorkProjection)}
    (hranks : ∀ pair ∈ ranked,
      workRank (dependentsIn work) (activeIn work) pair.2 = .ok pair.1)
    (hwork : ∀ pair ∈ ranked, pair.2 ∈ work) (hnodup : (ranked.map Prod.snd).Nodup) :
    ((sortedBy Prod.fst ranked).map Prod.snd).Pairwise (OfferedBefore work) := by
  have hdistinct : ((sortedBy Prod.fst ranked).map Prod.snd).Nodup :=
    ((sortedBy_perm _ _).map _).nodup_iff.mpr hnodup
  rw [List.Nodup, List.pairwise_map] at hdistinct
  rw [List.pairwise_map]
  apply ((pairwise_sortedBy Prod.fst ranked).and hdistinct).imp_of_mem
  rintro first second hfirst hsecond ⟨hle, hne⟩
  have hfirst := mem_sortedBy.mp hfirst
  have hsecond := mem_sortedBy.mp hsecond
  refine ⟨first.1, second.1, hranks _ hfirst, hranks _ hsecond, lt_of_le_of_ne hle fun heq => hne ?_⟩
  apply workId_inj_of_list h (hwork _ hfirst) (hwork _ hsecond)
  apply workId_of_rank_eq (hranks _ hfirst)
  rw [heq]
  exact hranks _ hsecond

/-- What is offered is the first of what can be offered, in the order of the ranks. -/
theorem offers_of_nextWork (h : listWork records [] [] [] = .ok work)
    {lane repository : Option String} {capabilities : List String} {limit : Int}
    {offers : List WorkProjection}
    (hoffers : nextWork records lane repository capabilities limit = .ok offers) :
    ∃ order : List WorkProjection,
      (∀ item, item ∈ order ↔ Offered work lane repository capabilities item) ∧
        order.Pairwise (OfferedBefore work) ∧
        offers = order.take (max 1 (min limit 1000)).toNat := by
  obtain ⟨_, -, hoffers⟩ := Py.bind_eq_ok_iff.mp hoffers
  obtain ⟨projected, hprojected, hoffers⟩ := Py.bind_eq_ok_iff.mp hoffers
  obtain ⟨complete, hcomplete, hoffers⟩ := Py.bind_eq_ok_iff.mp hoffers
  obtain ⟨active, hactive, hoffers⟩ := Py.bind_eq_ok_iff.mp hoffers
  obtain ⟨repositories, hrepositories, hoffers⟩ := Py.bind_eq_ok_iff.mp hoffers
  obtain ⟨all, hall, hoffers⟩ := Py.bind_eq_ok_iff.mp hoffers
  obtain ⟨dependents, hdependents, hoffers⟩ := Py.bind_eq_ok_iff.mp hoffers
  obtain ⟨eligible, heligible, hoffers⟩ := Py.bind_eq_ok_iff.mp hoffers
  obtain ⟨ranked, hranked, hoffers⟩ := Py.bind_eq_ok_iff.mp hoffers
  obtain rfl := Except.ok.inj hoffers
  obtain rfl := Except.ok.inj (hall.symm.trans h)
  have hactiveIn : repositories.flatten = activeIn all := by
    rw [flatten_of_mapM hrepositories, listWork_eq_filter h hactive, activeIn]
    rfl
  have hdependentsIn : dependents.flatten.map Json.pyStr = dependentsIn all := by
    rw [flatten_of_mapM hdependents, dependentsIn]
    rfl
  rw [hactiveIn, hdependentsIn] at hranked
  obtain ⟨hitems, hranks⟩ := keyed_eq_ok_iff.mp hranked
  obtain ⟨hselected, htests⟩ := selectPy_eq_filter heligible
  have hcompleted : ∀ workId, workId ∈ complete.map WorkProjection.workId ↔
      CompleteIn all workId := by
    intro workId
    rw [listWork_eq_filter h hcomplete, List.mem_map]
    simp only [List.mem_filter, List.isEmpty_nil, Bool.true_or, Bool.true_and, CompleteIn]
    constructor
    · rintro ⟨item, ⟨hitem, hstate⟩, rfl⟩
      exact ⟨item, hitem, rfl, by simpa using hstate⟩
    · rintro ⟨item, hitem, rfl, hstate⟩
      exact ⟨item, ⟨hitem, by simp [hstate]⟩, rfl⟩
  have hprojectedMem : ∀ item, item ∈ projected ↔ item ∈ all ∧
      item.coordinationState = "AVAILABLE" ∧
      ∀ name ∈ lane, Fields.get (detailsOf item.current) "lane" = .str name := by
    intro item
    rw [listWork_eq_filter h hprojected, List.mem_filter]
    cases lane with
    | none => simp
    | some name => simp [inSet_singleton, and_comm]
  have hmem : ∀ item, item ∈ eligible ↔ Offered all lane repository capabilities item := by
    intro item
    rw [hselected, List.mem_filter, hprojectedMem]
    constructor
    · rintro ⟨⟨hlisted, havailable, hlane⟩, htest⟩
      obtain ⟨kept, hkept⟩ := htests item ((hprojectedMem item).mpr ⟨hlisted, havailable, hlane⟩)
      rw [hkept] at htest
      obtain ⟨htouches, hcovered, hnamed, hparent⟩ := (isEligible_iff hcompleted hkept).mp htest
      exact ⟨hlisted, havailable, hlane, htouches, hcovered, hnamed, hparent⟩
    · intro hoffered
      have hproj := (hprojectedMem item).mpr
        ⟨hoffered.listed, hoffered.available, hoffered.lane⟩
      obtain ⟨kept, hkept⟩ := htests item hproj
      refine ⟨⟨hoffered.listed, hoffered.available, hoffered.lane⟩, ?_⟩
      rw [hkept]
      exact (isEligible_iff hcompleted hkept).mpr
        ⟨hoffered.repository, hoffered.capabilities, hoffered.dependencies, hoffered.parent⟩
  have hsublist : eligible.Sublist all := by
    rw [hselected, listWork_eq_filter h hprojected]
    exact List.filter_sublist.trans List.filter_sublist
  refine ⟨(sortedBy Prod.fst ranked).map Prod.snd, ?_, ?_, rfl⟩
  · intro item
    rw [← hmem, ← hitems]
    exact ((sortedBy_perm _ _).map _).mem_iff
  · apply pairwise_offeredBefore h hranks
    · intro pair hpair
      apply hsublist.subset
      rw [← hitems]
      exact List.mem_map_of_mem hpair
    · rw [hitems]
      exact hsublist.nodup (nodup_of_list h)

/-! ## Readable work -/

theorem exists_namedRepositories {details : Fields} (h : ReadableWork details) :
    ∃ named, namedRepositories details = .ok named := by
  obtain ⟨affected, haffected⟩ := h.affected
  obtain ⟨canonical, hcanonical⟩ := h.canonicalAffected
  refine ⟨affected.filterMap Json.str? ++ canonical.filterMap Json.str? ++
    (Fields.get details "canonicalRepository").str?.toList, ?_⟩
  rw [namedRepositories, haffected]
  show (fieldItems details "canonicalAffectedRepositories" >>= _) = _
  rw [hcanonical]
  rfl

theorem exists_activeRepositories {item : WorkProjection}
    (h : ReadableWork (detailsOf item.current)) :
    ∃ repositories, activeRepositories item = .ok repositories := by
  obtain ⟨named, hnamed⟩ := exists_namedRepositories h
  obtain ⟨affected, haffected⟩ := h.affected
  refine ⟨named ++ resolvedAliases (affected.filterMap Json.str?), ?_⟩
  rw [activeRepositories, hnamed]
  show (fieldItems (detailsOf item.current) "affectedRepositories" >>= _) = _
  rw [haffected]
  rfl

theorem exists_workRank {item : WorkProjection} (h : ReadableWork (detailsOf item.current))
    (dependents active : List String) :
    ∃ rank, workRank dependents active item = .ok rank := by
  obtain ⟨priority, hpriority⟩ := h.priority
  obtain ⟨named, hnamed⟩ := exists_namedRepositories h
  rw [workRank]
  dsimp only
  rw [hpriority]
  show ∃ rank, (namedRepositories (detailsOf item.current) >>= _) = .ok rank
  rw [hnamed]
  exact ⟨_, rfl⟩

theorem requireHashables_of_forall {items : List Json}
    (h : ∀ item ∈ items, requireHashable item = .ok ()) : requireHashables items = .ok () := by
  induction items with
  | nil => rfl
  | cons item items ih =>
      rw [List.forall_mem_cons] at h
      have hrest := ih h.2
      show (requireHashable item >>= fun _ => requireHashables items) = _
      rw [h.1]
      exact hrest

theorem exists_waitsFor (completed : List String) {items : List Json}
    (h : ∀ item ∈ items, item.isStr = true) : ∃ waits, waitsFor completed items = .ok waits := by
  induction items with
  | nil => exact ⟨false, rfl⟩
  | cons item items ih =>
      rw [List.forall_mem_cons] at h
      cases item with
      | str dependency =>
          rw [waitsFor]
          split
          · exact ⟨true, rfl⟩
          · exact ih h.2
      | _ => cases h.1

theorem exists_isEligible {item : WorkProjection} (h : ReadableWork (detailsOf item.current))
    (repository : Option String) (capabilities completed : List String) :
    ∃ eligible, isEligible repository capabilities completed item = .ok eligible := by
  obtain ⟨required, hrequired, hhashable⟩ := h.capabilities
  obtain ⟨dependencies, hdependencies, hstrings⟩ := h.dependencies
  have hdependency : ∀ item ∈ dependencies, requireHashable item = .ok () := by
    intro item hitem
    have hstring := hstrings item hitem
    cases item with
    | str _ => rfl
    | _ => cases hstring
  rw [isEligible]
  dsimp only
  split
  · exact ⟨false, rfl⟩
  · rw [hrequired]
    show ∃ eligible, (requireHashables required >>= _) = .ok eligible
    rw [requireHashables_of_forall hhashable]
    show ∃ eligible, (ite _ _ _ : Py Bool) = .ok eligible
    split
    · exact ⟨false, rfl⟩
    · rw [hdependencies]
      show ∃ eligible, (requireHashables dependencies >>= _) = .ok eligible
      rw [requireHashables_of_forall hdependency]
      obtain ⟨waits, hwaits⟩ := @exists_waitsFor completed (dependencies ++
        if (Fields.get (detailsOf item.current) "parentWorkId").truthy then
          [.str (Fields.get (detailsOf item.current) "parentWorkId").pyStr] else []) (by
        rw [List.forall_mem_append]
        refine ⟨hstrings, ?_⟩
        intro other hother
        split at hother
        · rw [List.mem_singleton.mp hother]
          rfl
        · cases hother)
      show ∃ eligible, (waitsFor completed _ >>= _) = .ok eligible
      rw [hwaits]
      exact ⟨_, rfl⟩

theorem exists_listWork (h : listWork records [] [] [] = .ok work)
    (hread : ∀ item ∈ work, ReadableWork (detailsOf item.current))
    (lanes coordinationStates : List String) :
    ∃ found, listWork records [] lanes coordinationStates = .ok found := by
  obtain ⟨selected, hselected, hmem⟩ := @exists_narrow _ lanes
    (fun item => inSet (Fields.get (detailsOf item.current) "lane") lanes)
    (work.filter fun item => ([] : List String).isEmpty || ([] : List String).contains item.state)
    (fun item hitem => by
      rw [inSet, (hread item (List.mem_of_mem_filter hitem)).lane]
      exact ⟨_, rfl⟩)
  obtain ⟨found, hfound, -⟩ := @exists_narrow _ coordinationStates
    (fun item => do
      return coordinationStates.contains (← coordinationState (detailsOf item.current)))
    selected (fun item hitem => by
      rw [coordination_of_mem h (List.mem_of_mem_filter ((hmem item).mp hitem).1)]
      exact ⟨_, rfl⟩)
  refine ⟨found, ?_⟩
  rw [listWork, listWork_all h]
  show (narrow lanes _ _ >>= _) = _
  rw [hselected]
  exact hfound

/-- Readable work can be offered for every known lane. -/
theorem exists_offers (h : listWork records [] [] [] = .ok work)
    (hread : ∀ item ∈ work, ReadableWork (detailsOf item.current)) {lane : Option String}
    (hlane : ∀ name ∈ lane, name ∈ lanes) (repository : Option String)
    (capabilities : List String) (limit : Int) :
    ∃ offers, nextWork records lane repository capabilities limit = .ok offers := by
  have hknown : (lane.any fun lane => !lanes.contains lane) = false := by
    cases lane with
    | none => rfl
    | some name => simpa using hlane name rfl
  obtain ⟨projected, hprojected⟩ := exists_listWork h hread lane.toList ["AVAILABLE"]
  obtain ⟨complete, hcomplete⟩ := exists_listWork h hread [] ["COMPLETE"]
  obtain ⟨active, hactive⟩ := exists_listWork h hread [] activeCoordinationStates
  have hfiltered : ∀ item ∈ projected, ReadableWork (detailsOf item.current) := by
    rw [listWork_eq_filter h hprojected]
    exact fun item hitem => hread item (List.mem_of_mem_filter hitem)
  have hactiveRead : ∀ item ∈ active, ReadableWork (detailsOf item.current) := by
    rw [listWork_eq_filter h hactive]
    exact fun item hitem => hread item (List.mem_of_mem_filter hitem)
  obtain ⟨repositories, hrepositories⟩ := exists_mapM fun item hitem =>
    exists_activeRepositories (hactiveRead item hitem)
  obtain ⟨dependents, hdependents⟩ := @exists_mapM _ _
    (fun item : WorkProjection => fieldItems (detailsOf item.current) "dependencies") work
    (fun item hitem => ((hread item hitem).dependencies.imp fun _ hitems => hitems.1))
  obtain ⟨eligible, heligible, hmem⟩ := exists_selectPy fun item hitem =>
    exists_isEligible (hfiltered item hitem) repository capabilities
      (complete.map WorkProjection.workId)
  have hranked : ∀ item ∈ eligible, ∃ pair,
      (do return (← workRank (dependents.flatten.map Json.pyStr) repositories.flatten item, item) :
        Py (WorkRank × WorkProjection)) = .ok pair := by
    intro item hitem
    obtain ⟨rank, hrank⟩ := exists_workRank (hfiltered item ((hmem item).mp hitem).1)
      (dependents.flatten.map Json.pyStr) repositories.flatten
    rw [hrank]
    exact ⟨_, rfl⟩
  obtain ⟨ranked, hranks⟩ := exists_mapM hranked
  refine ⟨((sortedBy Prod.fst ranked).map Prod.snd).take (max 1 (min limit 1000)).toNat, ?_⟩
  refine Py.bind_eq_ok_iff.mpr ⟨(), raiseIf_eq_ok_iff.mpr hknown, ?_⟩
  refine Py.bind_eq_ok_iff.mpr ⟨projected, hprojected, ?_⟩
  refine Py.bind_eq_ok_iff.mpr ⟨complete, hcomplete, ?_⟩
  refine Py.bind_eq_ok_iff.mpr ⟨active, hactive, ?_⟩
  refine Py.bind_eq_ok_iff.mpr ⟨repositories, hrepositories, ?_⟩
  refine Py.bind_eq_ok_iff.mpr ⟨work, h, ?_⟩
  refine Py.bind_eq_ok_iff.mpr ⟨dependents, hdependents, ?_⟩
  refine Py.bind_eq_ok_iff.mpr ⟨eligible, heligible, ?_⟩
  exact Py.bind_eq_ok_iff.mpr ⟨ranked, hranks, rfl⟩

end Projected

/-! ## One work -/

/-- A submitted work with the dependencies. -/
def submittedWork (dependencies : Json) : Fields :=
  [("contentDigest", .str "sha256:01"),
    ("metadata", .obj [("createdAt", .str "2026-01-01T00:00:00Z"), ("revision", .int 1)]),
    ("details", .obj [("workProtocol", .str workProtocol), ("workId", .str "work:a"),
      ("state", .str "submitted"), ("lane", .str "DOCUMENTATION"), ("priority", .int 1),
      ("dependencies", dependencies)])]

end MncsCommons.Protocol
