/-
# A decision to stop

A plan that speaks for a whole repository and says it may stop is accepted when
every required obligation is current and has passing evidence.  What is shown:
the evidence is bound to the obligation by identities that are there exactly
where the obligation states them.
-/

import MncsCommons.Family.Plans

namespace MncsCommons.Family

open MncsCommons.Data MncsCommons.Protocol

/-! ## Values that were kept -/

theorem eq_str_of_planString {value : Json} {path text : String}
    (h : planString value path = .ok text) : value = .str text := by
  unfold planString at h
  split at h
  · split_ifs at h
    exact congrArg Json.str (Except.ok.inj h)
  · cases h

theorem truthy_of_planString {value : Json} {path text : String}
    (h : planString value path = .ok text) : (Json.str text).truthy = true := by
  unfold planString at h
  split at h
  · rename_i found
    split_ifs at h with hblank hlong
    obtain rfl := Except.ok.inj h
    have hne : found ≠ "" := by
      rintro rfl
      exact hblank rfl
    simpa [Json.truthy] using hne
  · cases h

theorem planObject_eq_ok_iff {value : Json} {path : String} {fields : Fields} :
    planObject value path = .ok fields ↔ value = .obj fields := by
  cases value <;> simp [planObject]

theorem planArray_eq_ok_iff {value : Json} {path message : String} {items : List Json} :
    planArray value path message = .ok items ↔ value = .arr items := by
  cases value <;> simp [planArray]

theorem planBool_eq_ok_iff {value : Json} {path : String} {b : Bool} :
    planBool value path = .ok b ↔ value = .bool b := by
  cases value <;> simp [planBool]

theorem eq_str_of_planWord {value : Json} {allowed : List String} {path subject word : String}
    (h : planWord value allowed path subject = .ok word) : value = .str word := by
  unfold planWord at h
  split at h
  · rename_i found hfound
    obtain rfl := Except.ok.inj h
    exact Json.str?_eq_some_iff.mp (Option.filter_eq_some_iff.mp hfound).1
  · cases h

theorem eq_str_of_planSetWord {value : Json} {allowed : List String} {path subject word : String}
    (h : planSetWord value allowed path subject = .ok word) : value = .str word := by
  unfold planSetWord at h
  split at h
  · cases h
  · cases h
  · exact eq_str_of_planWord h

theorem eq_str_of_planScope {value : Json} {scope : String} (h : planScope value = .ok scope) :
    value = .str scope := by
  unfold planScope at h
  split at h
  · rename_i found hfound
    obtain rfl := Except.ok.inj h
    exact Json.str?_eq_some_iff.mp (Option.filter_eq_some_iff.mp hfound).1
  · cases h

theorem eq_map_str_of_mapM {items : List Json} {texts : List String}
    (h : items.mapM nonEmptyText = some texts) : items = texts.map .str := by
  induction items generalizing texts with
  | nil =>
      obtain rfl := Option.some.inj h
      rfl
  | cons item items ih =>
      rw [List.mapM_cons] at h
      obtain ⟨text, htext, h⟩ := Option.bind_eq_some_iff.mp h
      obtain ⟨rest, hrest, h⟩ := Option.bind_eq_some_iff.mp h
      obtain rfl := Option.some.inj h
      have hitem := Json.str?_eq_some_iff.mp (Option.filter_eq_some_iff.mp htext).1
      rw [hitem, ih hrest, List.map_cons]

/-- A checked array of strings is the array of those strings. -/
theorem eq_arr_of_planStrings {value : Json} {path : String} {allowed : Option (List String)}
    {texts : List String} (h : planStrings value path allowed = .ok texts) :
    value = .arr (texts.map .str) := by
  unfold planStrings at h
  split at h
  · cases h
  · rename_i found hfound
    obtain ⟨-, h⟩ := requireThat_bind_eq_ok_iff.mp h
    obtain ⟨-, h⟩ := requireThat_bind_eq_ok_iff.mp h
    obtain rfl := Except.ok.inj h
    obtain ⟨items, hitems, hmap⟩ := Option.bind_eq_some_iff.mp hfound
    rw [Json.arr?_eq_some_iff.mp hitems, eq_map_str_of_mapM hmap]

/-- Members that are given are kept, and no others are made up. -/
theorem get_givenMembers {item given : Fields} {path : String} {names : List String}
    (h : givenMembers item path names = .ok given) (name : String) :
    Fields.get given name = if name ∈ names then Fields.get item name else .null := by
  induction names generalizing given with
  | nil =>
      obtain rfl := Except.ok.inj h
      rfl
  | cons first names ih =>
      simp only [givenMembers] at h
      split at h
      · rename_i hnull
        rw [ih h]
        by_cases hname : name = first
        · subst hname
          simp [hnull]
        · simp [hname]
      · obtain ⟨text, htext, h⟩ := bind_eq_ok_iff.mp h
        obtain ⟨rest, hrest, h⟩ := bind_eq_ok_iff.mp h
        obtain rfl := Except.ok.inj h
        have hvalue := eq_str_of_planString htext
        by_cases hname : name = first
        · subst hname
          simp [Fields.get, Fields.get?] at hvalue ⊢
          exact hvalue.symm
        · have hfollow := ih hrest
          simp [Fields.get, Fields.get?, Ne.symm hname, hname] at hfollow ⊢
          exact hfollow

/-- A member that is given is a string. -/
theorem text_of_givenMembers {item given : Fields} {path name : String} {names : List String}
    (h : givenMembers item path names = .ok given) (hname : Fields.get given name ≠ .null) :
    ∃ text, Fields.get given name = .str text := by
  induction names generalizing given with
  | nil =>
      obtain rfl := Except.ok.inj h
      exact absurd rfl hname
  | cons first names ih =>
      simp only [givenMembers] at h
      split at h
      · exact ih h hname
      · obtain ⟨text, -, h⟩ := bind_eq_ok_iff.mp h
        obtain ⟨rest, hrest, h⟩ := bind_eq_ok_iff.mp h
        obtain rfl := Except.ok.inj h
        by_cases heq : first = name
        · exact ⟨text, by simp [Fields.get, Fields.get?, heq]⟩
        · have htail : Fields.get ((first, Json.str text) :: rest) name = Fields.get rest name := by
            simp [Fields.get, Fields.get?, heq]
          rw [htail] at hname ⊢
          exact ih hrest hname

/-! ## Obligations and evidence as the document has them -/

/-- The two have the same values under the names, with `null` for a missing one. -/
def AgreeOn (names : List String) (first second : Fields) : Prop :=
  ∀ name ∈ names, Fields.get first name = Fields.get second name

/-- Members in front that have other names are passed over. -/
theorem get_append_of_not_mem {first second : Fields} {name : String}
    (h : name ∉ Fields.keys first) : Fields.get (first ++ second) name = Fields.get second name := by
  rw [Fields.get, Fields.get, Fields.get?_append, Fields.get?_eq_none_iff.mpr h, Option.none_or]

/-- The executor of an obligation hides no other member. -/
theorem get?_executorMember {value : Json} {path name : String} {fields : Fields}
    (h : executorMember value path = .ok fields) (hname : name ≠ "executor") :
    Fields.get? fields name = none := by
  unfold executorMember at h
  split at h
  · obtain rfl := Except.ok.inj h
    rfl
  · obtain ⟨executor, -, h⟩ := bind_eq_ok_iff.mp h
    obtain rfl := Except.ok.inj h
    simp [Fields.get?, Ne.symm hname]

/-- A selected obligation beside its object of the document. -/
structure Selected (raw item : Fields) : Prop where
  agree : AgreeOn (["identity", "status"] ++ bindingFields) raw item
  scope : (Fields.get? raw "scope").getD (.str "local") = Fields.get item "scope"
  named : (Fields.get item "identity").truthy = true
  texts : ∀ field ∈ bindingFields, Fields.get item field ≠ .null →
    ∃ text, Fields.get item field = .str text

theorem bindingFields_given : ∀ name ∈ bindingFields, name ∈ ["definition_identity",
    "subject_identity", "subject_fingerprint", "executor_identity", "verifier_identity",
    "invalidation_identity"] := by decide

theorem bindingFields_not_leading : ∀ name ∈ bindingFields, name ∉ ["identity", "scope", "status",
    "lifecycle", "guarantee_domain", "evidence_role", "reason", "evidence_identities",
    "test_case_identities"] := by decide

/-- A checked obligation is the object of the document. -/
theorem selected_of_validateSelected {index : Nat} {value : Json} {item : Fields}
    (h : validateSelected index value = .ok item) :
    ∃ raw, value = .obj raw ∧ Selected raw item := by
  simp only [validateSelected] at h
  obtain ⟨raw, hraw, h⟩ := bind_eq_ok_iff.mp h
  obtain ⟨status, hstatus, h⟩ := bind_eq_ok_iff.mp h
  obtain ⟨lifecycle, -, h⟩ := bind_eq_ok_iff.mp h
  obtain ⟨domain, -, h⟩ := bind_eq_ok_iff.mp h
  obtain ⟨role, -, h⟩ := bind_eq_ok_iff.mp h
  obtain ⟨identity, hidentity, h⟩ := bind_eq_ok_iff.mp h
  obtain ⟨reason, -, h⟩ := bind_eq_ok_iff.mp h
  obtain ⟨evidence, -, h⟩ := bind_eq_ok_iff.mp h
  obtain ⟨tests, -, h⟩ := bind_eq_ok_iff.mp h
  obtain ⟨-, h⟩ := requireThat_bind_eq_ok_iff.mp h
  obtain ⟨given, hgiven, h⟩ := bind_eq_ok_iff.mp h
  obtain ⟨executor, hexecutor, h⟩ := bind_eq_ok_iff.mp h
  obtain rfl := Except.ok.inj h
  have hbindings : ∀ name ∈ bindingFields, Fields.get
      ([("identity", Json.str identity), ("scope", (Fields.get? raw "scope").getD (.str "local")),
        ("status", .str status), ("lifecycle", .str lifecycle), ("guarantee_domain", .str domain),
        ("evidence_role", .str role), ("reason", .str reason),
        ("evidence_identities", .arr (evidence.map .str)),
        ("test_case_identities", .arr (tests.map .str))] ++ given ++ executor) name =
      Fields.get given name := by
    intro name hname
    rw [List.append_assoc, get_append_of_not_mem (bindingFields_not_leading name hname),
      Fields.get, Fields.get, Fields.get?_append,
      get?_executorMember hexecutor (ne_of_mem_of_not_mem hname (by decide)), Option.or_none]
  refine ⟨raw, planObject_eq_ok_iff.mp hraw, fun name hname => ?_, rfl,
    truthy_of_planString hidentity, fun name hname hgive => ?_⟩
  · rcases List.mem_append.mp hname with hname | hname
    · rcases List.mem_pair.mp hname with rfl | rfl
      · exact eq_str_of_planString hidentity
      · exact eq_str_of_planWord hstatus
    · rw [hbindings name hname, get_givenMembers hgiven, if_pos (bindingFields_given name hname)]
  · rw [hbindings name hname] at hgive ⊢
    exact text_of_givenMembers hgiven hgive

/-- The identities an evidence entry is bound by. -/
def evidenceFields : List String :=
  ["obligation_identity", "repository_identity", "repository_fingerprint"] ++ bindingFields

theorem evidenceFields_given : ∀ name ∈ evidenceFields, name ∈ ["obligation_identity",
    "repository_identity", "repository_revision", "repository_fingerprint", "subject_identity",
    "subject_fingerprint", "definition_identity", "executor_identity", "verifier_identity",
    "invalidation_identity", "reason"] := by decide

theorem evidenceFields_not_leading :
    ∀ name ∈ evidenceFields, name ∉ ["status", "evidence_identity"] := by decide

/-- A checked evidence entry is the object of the document. -/
theorem agreeOn_of_validateEvidence {path : String} {value : Json} {item : Fields}
    (h : validateEvidence path value = .ok item) :
    ∃ raw, value = .obj raw ∧ AgreeOn ("status" :: evidenceFields) raw item := by
  simp only [validateEvidence] at h
  obtain ⟨raw, hraw, h⟩ := bind_eq_ok_iff.mp h
  obtain ⟨status, hstatus, h⟩ := bind_eq_ok_iff.mp h
  obtain ⟨identity, -, h⟩ := bind_eq_ok_iff.mp h
  obtain ⟨given, hgiven, h⟩ := bind_eq_ok_iff.mp h
  obtain rfl := Except.ok.inj h
  refine ⟨raw, planObject_eq_ok_iff.mp hraw, fun name hname => ?_⟩
  rcases List.mem_cons.mp hname with rfl | hname
  · exact eq_str_of_planSetWord hstatus
  · have hgive := get_givenMembers hgiven name
    rw [if_pos (evidenceFields_given name hname)] at hgive
    rw [get_append_of_not_mem (evidenceFields_not_leading name hname), hgive]

/-! ## The document -/

/-- The object under a name, without members where there is none. -/
def objectAt (root : Fields) (name : String) : Fields := ((Fields.get root name).obj?).getD []

/-- The objects of the array under a name. -/
def objectsAt (root : Fields) (name : String) : List Fields :=
  (((Fields.get root name).arr?).getD []).filterMap Json.obj?

/-- The obligations a document requires of its repository. -/
def requiredIdentities (root : Fields) : List String :=
  (((Fields.get (objectAt root "repository") "required_obligation_identities").arr?).getD []).filterMap
    Json.str?

/-- The value of the name is there and the same in both. -/
def SharedText (first second : Fields) (firstName secondName : String) : Prop :=
  ∃ text, Fields.get first firstName = .str text ∧ Fields.get second secondName = .str text

/-- An evidence entry is bound to an obligation of a repository: all the identities
are there, and those of the evidence are those of the other two. -/
structure BoundTo (repository obligation entry : Fields) : Prop where
  obligation_identity : SharedText entry obligation "obligation_identity" "identity"
  repository_identity : SharedText entry repository "repository_identity" "identity"
  repository_fingerprint : SharedText entry repository "repository_fingerprint" "fingerprint"
  bindings : ∀ field ∈ bindingFields, SharedText entry obligation field field

/-- A required obligation is selected for the whole repository and current, has
passing evidence bound to it, and none bound to it that does not pass. -/
def Earned (root : Fields) (identity : String) : Prop :=
  ∃ obligation ∈ objectsAt root "obligations",
    Fields.get obligation "identity" = .str identity ∧
    Fields.get obligation "scope" = .str "repository_canonical" ∧
    Fields.get obligation "status" = .str "current" ∧
    (∃ entry ∈ objectsAt root "evidence", BoundTo (objectAt root "repository") obligation entry ∧
      Fields.get entry "status" = .str "PASS") ∧
    ∀ entry ∈ objectsAt root "evidence", BoundTo (objectAt root "repository") obligation entry →
      Fields.get entry "status" = .str "PASS"

/-- The obligations selected under an identity state all that evidence is bound by. -/
def StatesBindings (root : Fields) (identity : String) : Prop :=
  ∀ obligation ∈ objectsAt root "obligations", Fields.get obligation "identity" = .str identity →
    ∀ field ∈ bindingFields, Fields.get obligation field ≠ .null

/-! ## What is accepted -/

/-- The objects of a list of checked values, item by item. -/
theorem forall₂_objects {check : Nat → Json → Checked Fields} {related : Fields → Fields → Prop}
    (hcheck : ∀ {index value item}, check index value = .ok item →
      ∃ raw, value = .obj raw ∧ related raw item)
    {index : Nat} {values : List Json} {items : List Fields}
    (h : checkEach check index values = .ok items) :
    List.Forall₂ related (values.filterMap Json.obj?) items := by
  have hall := forall₂_of_checkEach h
  clear h
  induction hall with
  | nil => exact .nil
  | cons hvalue _ ih =>
      obtain ⟨position, hposition⟩ := hvalue
      obtain ⟨raw, rfl, hraw⟩ := hcheck hposition
      exact .cons hraw ih

/-- What an accepted plan is made of. -/
theorem parts_of_accepted {root plan : Fields}
    (h : validateObligationPlan (.obj root) = .ok plan) :
    ∃ closure stop obligations evidence,
      checkRepository (Fields.get root "repository") = .ok closure ∧
      checkStop (Fields.get root "stop") = .ok stop ∧
      checkClosure closure stop obligations evidence = .ok () ∧
      (obligations.map fun item => Fields.get item "identity").Nodup ∧
      List.Forall₂ Selected (objectsAt root "obligations") obligations ∧
      List.Forall₂ (AgreeOn ("status" :: evidenceFields)) (objectsAt root "evidence") evidence := by
  simp only [validateObligationPlan] at h
  obtain ⟨fields, hroot, h⟩ := bind_eq_ok_iff.mp h
  obtain rfl := Json.obj.inj (planObject_eq_ok_iff.mp hroot)
  obtain ⟨-, -, h⟩ := bind_eq_ok_iff.mp h
  obtain ⟨-, -, h⟩ := bind_eq_ok_iff.mp h
  obtain ⟨-, -, h⟩ := bind_eq_ok_iff.mp h
  obtain ⟨closure, hclosure, h⟩ := bind_eq_ok_iff.mp h
  obtain ⟨items, hitems, h⟩ := bind_eq_ok_iff.mp h
  obtain ⟨obligations, hobligations, h⟩ := bind_eq_ok_iff.mp h
  obtain ⟨hnodup, h⟩ := requireThat_bind_eq_ok_iff.mp h
  obtain ⟨-, -, h⟩ := bind_eq_ok_iff.mp h
  obtain ⟨entries, hentries, h⟩ := bind_eq_ok_iff.mp h
  obtain ⟨evidence, hevidence, h⟩ := bind_eq_ok_iff.mp h
  obtain ⟨stop, hstop, h⟩ := bind_eq_ok_iff.mp h
  obtain ⟨⟨⟩, hcheck, -⟩ := bind_eq_ok_iff.mp h
  have hobjects : objectsAt root "obligations" = items.filterMap Json.obj? := by
    rw [objectsAt, planArray_eq_ok_iff.mp hitems]
    rfl
  have hfound : objectsAt root "evidence" = entries.filterMap Json.obj? := by
    have hentries := planArray_eq_ok_iff.mp hentries
    rw [objectsAt, Fields.get]
    cases hget : Fields.get? root "evidence" with
    | none =>
        rw [hget] at hentries
        obtain rfl := Json.arr.inj hentries
        rfl
    | some value =>
        rw [hget] at hentries
        rw [Option.getD_some] at hentries ⊢
        rw [hentries]
        rfl
  refine ⟨closure, stop, obligations, evidence, hclosure, hstop, hcheck, of_decide_eq_true hnodup,
    ?_, ?_⟩
  · rw [hobjects]
    exact forall₂_objects selected_of_validateSelected hobligations
  · rw [hfound]
    exact forall₂_objects agreeOn_of_validateEvidence hevidence

/-- The closure of a plan is read from its repository. -/
theorem closure_of_checkRepository {repository : Fields} {read : Option RepositoryClosure}
    (h : checkRepository (.obj repository) = .ok read) :
    ∃ closure, read = some closure ∧
      Fields.get repository "identity" = .str closure.identity ∧
      Fields.get repository "fingerprint" = .str closure.fingerprint ∧
      Fields.get repository "scope" = .str closure.scope ∧
      Fields.get repository "required_obligation_identities" =
        .arr (closure.required.map .str) := by
  unfold checkRepository at h
  split at h
  · rename_i hnull
    cases hnull
  · obtain ⟨fields, hfields, h⟩ := bind_eq_ok_iff.mp h
    obtain rfl := Json.obj.inj (planObject_eq_ok_iff.mp hfields)
    obtain ⟨identity, hidentity, h⟩ := bind_eq_ok_iff.mp h
    obtain ⟨revision, -, h⟩ := bind_eq_ok_iff.mp h
    obtain ⟨fingerprint, hfingerprint, h⟩ := bind_eq_ok_iff.mp h
    obtain ⟨inventory, -, h⟩ := bind_eq_ok_iff.mp h
    obtain ⟨scope, hscope, h⟩ := bind_eq_ok_iff.mp h
    obtain ⟨complete, -, h⟩ := bind_eq_ok_iff.mp h
    obtain ⟨required, hrequired, h⟩ := bind_eq_ok_iff.mp h
    obtain ⟨selected, -, h⟩ := bind_eq_ok_iff.mp h
    obtain ⟨missing, -, h⟩ := bind_eq_ok_iff.mp h
    obtain ⟨inventories, -, h⟩ := bind_eq_ok_iff.mp h
    obtain ⟨-, -, h⟩ := bind_eq_ok_iff.mp h
    obtain ⟨-, h⟩ := requireThat_bind_eq_ok_iff.mp h
    obtain ⟨-, h⟩ := requireThat_bind_eq_ok_iff.mp h
    obtain rfl := Except.ok.inj h
    exact ⟨_, rfl, eq_str_of_planString hidentity,
      eq_str_of_planString hfingerprint, eq_str_of_planScope hscope,
      eq_arr_of_planStrings hrequired⟩

/-- The decision of a plan is read from its stop object. -/
theorem sufficient_of_checkStop {value : Json} {stop : StopDecision}
    (h : checkStop value = .ok stop) :
    ∃ fields, value = .obj fields ∧
      Fields.get fields "sufficient_to_stop" = .bool stop.sufficient := by
  simp only [checkStop] at h
  obtain ⟨fields, hfields, h⟩ := bind_eq_ok_iff.mp h
  obtain ⟨sufficient, hsufficient, h⟩ := bind_eq_ok_iff.mp h
  obtain ⟨required, -, h⟩ := bind_eq_ok_iff.mp h
  obtain ⟨execution, -, h⟩ := bind_eq_ok_iff.mp h
  obtain ⟨escalation, -, h⟩ := bind_eq_ok_iff.mp h
  obtain ⟨boundary, -, h⟩ := bind_eq_ok_iff.mp h
  obtain rfl := Except.ok.inj h
  exact ⟨fields, planObject_eq_ok_iff.mp hfields, planBool_eq_ok_iff.mp hsufficient⟩

/-! ## What a closure is checked for -/

theorem byIdentity_eq_some {obligations : List Fields} {identity : String} {item : Fields}
    (h : byIdentity obligations identity = some item) :
    item ∈ obligations ∧ Fields.get item "identity" = .str identity :=
  ⟨List.mem_reverse.mp (List.mem_of_find?_eq_some h),
    by simpa using List.find?_some h⟩

theorem current_of_allCurrent {obligations : List Fields} {identities : List String}
    (h : allCurrent obligations identities = .ok true) {identity : String}
    (hidentity : identity ∈ identities) {item : Fields}
    (hitem : byIdentity obligations identity = some item) :
    Fields.get item "status" = .str "current" := by
  induction identities with
  | nil => cases hidentity
  | cons first identities ih =>
      simp only [allCurrent] at h
      split at h
      · cases h
      · rename_i found hfound
        split_ifs at h with hcurrent
        · rcases List.mem_cons.mp hidentity with rfl | hidentity
          · obtain rfl := Option.some.inj (hfound.symm.trans hitem)
            exact hcurrent
          · exact ih h hidentity
        · cases h

/-- Every required obligation of a closure that may stop was found, for the whole
repository and current, and its exact evidence passes. -/
theorem required_of_checkCanonicalClosure {closure : RepositoryClosure} {stop : StopDecision}
    {obligations evidence : List Fields} (hstop : stop.sufficient = true)
    (h : checkCanonicalClosure closure stop obligations evidence = .ok ())
    {identity : String} (hidentity : identity ∈ closure.required) :
    ∃ item ∈ obligations, Fields.get item "identity" = .str identity ∧
      Fields.get item "scope" = .str "repository_canonical" ∧
      Fields.get item "status" = .str "current" ∧
      exactEvidence closure item evidence identity ≠ [] ∧
      ∀ entry ∈ exactEvidence closure item evidence identity,
        Fields.get entry "status" = .str "PASS" := by
  simp only [checkCanonicalClosure] at h
  obtain ⟨hcomplete, h⟩ := requireThat_bind_eq_ok_iff.mp h
  obtain ⟨hsame, h⟩ := requireThat_bind_eq_ok_iff.mp h
  obtain ⟨-, h⟩ := requireThat_bind_eq_ok_iff.mp h
  obtain ⟨-, h⟩ := requireThat_bind_eq_ok_iff.mp h
  obtain ⟨_, hrequired, h⟩ := bind_eq_ok_iff.mp h
  rw [if_pos hstop] at h
  obtain ⟨current, hcurrent, h⟩ := bind_eq_ok_iff.mp h
  obtain rfl := requireThat_eq_ok_iff.mp h
  have hcomplete : closure.complete = true := by simpa [hstop] using hcomplete
  have hidentity : identity ∈ stop.required := by
    simp only [sameMembers, Bool.and_eq_true, List.all_eq_true, List.contains_iff_mem] at hsame
    exact hsame.1 identity hidentity
  obtain ⟨_, -, _, hcheck⟩ := exists_of_mem_left (forall₂_of_checkEach hrequired) hidentity
  simp only [checkRequired] at hcheck
  split at hcheck
  · simp [hcomplete] at hcheck
  · rename_i item hitem
    have hstatus := current_of_allCurrent hcurrent hidentity hitem
    obtain ⟨hmem, hname⟩ := byIdentity_eq_some hitem
    obtain ⟨hscope, hcheck⟩ := requireThat_bind_eq_ok_iff.mp hcheck
    rw [if_pos hstatus] at hcheck
    have hexact := requireThat_eq_ok_iff.mp hcheck
    simp only [Bool.and_eq_true, Bool.not_eq_true', List.isEmpty_eq_false_iff, List.all_eq_true,
      decide_eq_true_eq] at hexact
    exact ⟨item, hmem, hname, of_decide_eq_true hscope, hstatus, hexact.1, hexact.2⟩

/-! ## The evidence of a required obligation -/

/-- The names of the obligations are those of the document. -/
theorem map_identity_eq {raws items : List Fields} (h : List.Forall₂ Selected raws items) :
    (raws.map fun raw => Fields.get raw "identity") =
      items.map fun item => Fields.get item "identity" := by
  induction h with
  | nil => rfl
  | cons hselected _ ih =>
      rw [List.map_cons, List.map_cons, ih, hselected.agree "identity" (by simp)]

section Bound

variable {closure : RepositoryClosure} {repository raw item rawEntry entry : Fields}
  {identity : String} {evidence : List Fields}

/-- Evidence bound to the obligation of the document is exact for the checked one. -/
theorem mem_exactEvidence_of_boundTo
    (hidentity : Fields.get repository "identity" = .str closure.identity)
    (hfingerprint : Fields.get repository "fingerprint" = .str closure.fingerprint)
    (hselected : Selected raw item) (hname : Fields.get item "identity" = .str identity)
    (hentry : AgreeOn ("status" :: evidenceFields) rawEntry entry) (hmem : entry ∈ evidence)
    (hbound : BoundTo repository raw rawEntry) :
    entry ∈ exactEvidence closure item evidence identity := by
  have hshared : ∀ {first second : Fields} {firstName secondName : String},
      SharedText first second firstName secondName →
        Fields.get first firstName = Fields.get second secondName := by
    rintro _ _ _ _ ⟨text, hfirst, hsecond⟩
    rw [hfirst, hsecond]
  have hobligation : Fields.get entry "obligation_identity" = .str identity := by
    rw [← hname, ← hselected.agree "identity" (by simp), ← hshared hbound.obligation_identity]
    exact (hentry "obligation_identity" (by decide)).symm
  have hrepository : Fields.get entry "repository_identity" = .str closure.identity := by
    rw [← hidentity, ← hshared hbound.repository_identity]
    exact (hentry "repository_identity" (by decide)).symm
  have hprint : Fields.get entry "repository_fingerprint" = .str closure.fingerprint := by
    rw [← hfingerprint, ← hshared hbound.repository_fingerprint]
    exact (hentry "repository_fingerprint" (by decide)).symm
  have hbindings : ∀ field ∈ bindingFields, Fields.get entry field = Fields.get item field := by
    intro field hfield
    rw [← hselected.agree field (List.mem_append_right _ hfield),
      ← hentry field (List.mem_cons_of_mem _ (List.mem_append_right _ hfield))]
    exact hshared (hbound.bindings field hfield)
  have htruthy : (Json.str identity).truthy = true := hname ▸ hselected.named
  refine List.mem_filter.mpr ⟨hmem, ?_⟩
  simp only [Bool.and_eq_true, List.all_eq_true, decide_eq_true_eq]
  exact ⟨⟨⟨⟨by rw [hobligation, htruthy], hobligation⟩, hrepository⟩, hprint⟩, hbindings⟩

/-- Exact evidence of an obligation that states its bindings is bound to it. -/
theorem boundTo_of_mem_exactEvidence
    (hidentity : Fields.get repository "identity" = .str closure.identity)
    (hfingerprint : Fields.get repository "fingerprint" = .str closure.fingerprint)
    (hselected : Selected raw item) (hname : Fields.get item "identity" = .str identity)
    (hstates : ∀ field ∈ bindingFields, Fields.get raw field ≠ .null)
    (hentry : AgreeOn ("status" :: evidenceFields) rawEntry entry)
    (hexact : entry ∈ exactEvidence closure item evidence identity) :
    BoundTo repository raw rawEntry := by
  obtain ⟨-, hexact⟩ := List.mem_filter.mp hexact
  simp only [Bool.and_eq_true, List.all_eq_true, decide_eq_true_eq] at hexact
  obtain ⟨⟨⟨⟨-, hobligation⟩, hrepository⟩, hprint⟩, hbindings⟩ := hexact
  refine ⟨⟨identity, ?_, ?_⟩, ⟨closure.identity, ?_, hidentity⟩,
    ⟨closure.fingerprint, ?_, hfingerprint⟩, fun field hfield => ?_⟩
  · rw [hentry "obligation_identity" (by decide), hobligation]
  · rw [hselected.agree "identity" (by simp), hname]
  · rw [hentry "repository_identity" (by decide), hrepository]
  · rw [hentry "repository_fingerprint" (by decide), hprint]
  · have hagree := hselected.agree field (List.mem_append_right _ hfield)
    obtain ⟨text, htext⟩ := hselected.texts field hfield (hagree ▸ hstates field hfield)
    refine ⟨text, ?_, hagree.trans htext⟩
    rw [hentry field (List.mem_cons_of_mem _ (List.mem_append_right _ hfield)),
      hbindings field hfield, htext]

end Bound

/-- A plan that is accepted for a whole repository and says it may stop has earned
it exactly where the required obligations state all that evidence is bound by: an
identity that both the obligation and the evidence leave out counts as the same. -/
theorem stop_is_earned_iff {root plan : Fields}
    (haccepted : validateObligationPlan (.obj root) = .ok plan)
    (hscope : Fields.get (objectAt root "repository") "scope" = .str "repository_canonical")
    (hstop : Fields.get (objectAt root "stop") "sufficient_to_stop" = .bool true) :
    (∀ identity ∈ requiredIdentities root, Earned root identity) ↔
      ∀ identity ∈ requiredIdentities root, StatesBindings root identity := by
  obtain ⟨read, stop, obligations, evidence, hclosure, hdecision, hcheck, hnodup, hobligations,
    hevidence⟩ := parts_of_accepted haccepted
  have hnames : ((objectsAt root "obligations").map fun raw => Fields.get raw "identity").Nodup :=
    map_identity_eq hobligations ▸ hnodup
  constructor
  · intro hearned identity hidentity other hother hname field hfield
    obtain ⟨obligation, hmem, hsame, -, -, ⟨entry, -, hbound, -⟩, -⟩ := hearned identity hidentity
    obtain rfl := List.inj_on_of_nodup_map hnames hother hmem (hname.trans hsame.symm)
    obtain ⟨text, -, htext⟩ := hbound.bindings field hfield
    rw [htext]
    exact Json.noConfusion
  · intro hstates identity hidentity
    cases hrepository : Fields.get root "repository" with
    | obj repository =>
        have hobject : objectAt root "repository" = repository := by
          rw [objectAt, hrepository]
          rfl
        rw [hrepository] at hclosure
        rw [hobject] at hscope
        obtain ⟨closure, rfl, hclosureIdentity, hclosurePrint, hclosureScope, hclosureRequired⟩ :=
          closure_of_checkRepository hclosure
        obtain ⟨fields, hfields, hsufficient⟩ := sufficient_of_checkStop hdecision
        rw [objectAt, hfields] at hstop
        have hsuff : stop.sufficient = true := Json.bool.inj (hsufficient.symm.trans hstop)
        have hcanonical : closure.scope = "repository_canonical" :=
          Json.str.inj (hclosureScope.symm.trans hscope)
        rw [checkClosure, if_pos hcanonical] at hcheck
        have hrequired : identity ∈ closure.required := by
          simpa [requiredIdentities, hobject, hclosureRequired, Json.arr?, List.filterMap_map,
            Function.comp_def, Json.str?] using hidentity
        obtain ⟨item, hitem, hname, hitemScope, hcurrent, hexact, hpass⟩ :=
          required_of_checkCanonicalClosure hsuff hcheck hrequired
        obtain ⟨raw, hraw, hselected⟩ := exists_of_mem_right hobligations hitem
        have hrawName := (hselected.agree "identity" (by simp)).trans hname
        have hbindings := hstates identity hidentity raw hraw hrawName
        refine ⟨raw, hraw, hrawName, ?_,
          (hselected.agree "status" (by simp)).trans hcurrent, ?_, fun rawEntry hrawEntry hbound => ?_⟩
        · have hraised := hselected.scope.trans hitemScope
          rw [Fields.get]
          cases hget : Fields.get? raw "scope" with
          | none => rw [hget] at hraised; exact absurd hraised (by decide)
          | some value => rw [hget] at hraised; exact hraised
        · obtain ⟨entry, hentry⟩ := List.exists_mem_of_ne_nil _ hexact
          obtain ⟨rawEntry, hrawEntry, hagree⟩ :=
            exists_of_mem_right hevidence (List.mem_filter.mp hentry).1
          rw [hobject]
          exact ⟨rawEntry, hrawEntry, boundTo_of_mem_exactEvidence hclosureIdentity hclosurePrint
            hselected hname hbindings hagree hentry,
            (hagree "status" List.mem_cons_self).trans (hpass entry hentry)⟩
        · obtain ⟨entry, hentry, hagree⟩ := exists_of_mem_left hevidence hrawEntry
          rw [hobject] at hbound
          exact (hagree "status" List.mem_cons_self).trans
            (hpass entry (mem_exactEvidence_of_boundTo hclosureIdentity hclosurePrint hselected
              hname hagree hentry hbound))
    | _ =>
        exfalso
        revert hscope
        rw [objectAt, hrepository]
        intro hscope
        cases hscope

/-! ## A plan of one obligation -/

/-- A plan that may stop, with one obligation and one passing evidence entry that
give the same bindings. -/
def planBinding (bindings : Fields) (planId : String) : Fields :=
  [("schema_version", .str obligationPlanSchema), ("obligation_plan_id", .str planId),
    ("verification_plan_id", .str "v"),
    ("source", .obj [("path", .str "p"), ("sha256", .str "s")]), ("impact_identity", .str "i"),
    ("inventory", .obj [("repository", .str "r"), ("identity", .str "n"), ("revision", .int 1)]),
    ("repository", .obj [("identity", .str "r"), ("revision", .str "1"), ("fingerprint", .str "f"),
      ("inventory_identity", .str "n"), ("scope", .str "repository_canonical"),
      ("complete", .bool true), ("required_obligation_identities", .arr [.str "o"]),
      ("selected_obligation_identities", .arr [.str "o"]),
      ("missing_obligation_identities", .arr [])]),
    ("obligations", .arr [.obj ([("identity", .str "o"), ("scope", .str "repository_canonical"),
      ("status", .str "current"), ("lifecycle", .str "permanent"),
      ("guarantee_domain", .str "runtime"), ("evidence_role", .str "conformance"),
      ("reason", .str "r")] ++ bindings)]),
    ("evidence", .arr [.obj ([("status", .str "PASS"), ("evidence_identity", .str "e"),
      ("obligation_identity", .str "o"), ("repository_identity", .str "r"),
      ("repository_fingerprint", .str "f")] ++ bindings)]),
    ("stop", .obj [("sufficient_to_stop", .bool true),
      ("required_obligation_identities", .arr [.str "o"]), ("new_execution_required", .arr []),
      ("escalation_reasons", .arr []), ("boundary", .str "b")])]

def boundPlan : Fields :=
  planBinding (bindingFields.map fun field => (field, .str "x"))
    "ec04067d5349d28ec5295ea6436800a40a9bd84b48f6c868df071e76d5f6f4eb"

def unboundPlan : Fields :=
  planBinding [] "0e58737c4460fb28dfc46187bc3576d26ec5d038481e7ee316ad0d490d0d67a3"

theorem boundPlan_accepted : validateObligationPlan (.obj boundPlan) = .ok boundPlan := by
  simp only [validateObligationPlan, checkHeader, obligationPlanIdentity, sha256Hex_eq_quickHash,
    dumps_eq_quickDumps]
  decide +kernel

theorem unboundPlan_accepted : validateObligationPlan (.obj unboundPlan) = .ok unboundPlan := by
  simp only [validateObligationPlan, checkHeader, obligationPlanIdentity, sha256Hex_eq_quickHash,
    dumps_eq_quickDumps]
  decide +kernel

/-- The plan that states its bindings has earned its stop. -/
theorem bound_plan_earns_its_stop :
    "o" ∈ requiredIdentities boundPlan ∧ Earned boundPlan "o" := by
  have hstates : ∀ identity ∈ requiredIdentities boundPlan, StatesBindings boundPlan identity := by
    unfold StatesBindings
    decide +kernel
  have hearned := (stop_is_earned_iff boundPlan_accepted (by decide) (by decide)).mpr hstates
  exact ⟨by decide, hearned "o" (by decide)⟩

/-- The plan without bindings may stop all the same, on evidence that names no subject. -/
theorem unbound_plan_stops :
    ¬ ∀ root plan, validateObligationPlan (.obj root) = .ok plan →
      Fields.get (objectAt root "repository") "scope" = .str "repository_canonical" →
      Fields.get (objectAt root "stop") "sufficient_to_stop" = .bool true →
      ∀ identity ∈ requiredIdentities root, Earned root identity := by
  intro hearned
  obtain ⟨_, -, -, -, -, ⟨entry, hentry, hbound, -⟩, -⟩ :=
    hearned unboundPlan unboundPlan unboundPlan_accepted (by decide) (by decide) "o" (by decide)
  have hunnamed : ∀ entry ∈ objectsAt unboundPlan "evidence",
      Fields.get entry "subject_identity" = .null := by decide
  obtain ⟨text, htext, -⟩ := hbound.bindings "subject_identity" (by decide)
  rw [hunnamed entry hentry] at htext
  cases htext

end MncsCommons.Family
