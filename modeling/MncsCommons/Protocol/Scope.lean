/-
# The scope of hygiene work

Hygiene work is local to one repository.  The check reads the canonical spellings of
the repositories where a record has them, and the submitted spellings where it has
none.  What it finds therefore holds of the submitted spellings as long as the
canonical ones mask nothing (`Unmasked`).

A proposal gets its canonical spellings from its submitted ones, so it masks nothing
(`Classified.unmasked`); a request may bring its own.
-/

import MncsCommons.Protocol.Classification

namespace MncsCommons.Protocol

open MncsCommons.Data

/-! ## Spellings of repositories -/

theorem resolveRepository_eq_some_iff {value : Json} {repository : String} :
    resolveRepository value = .ok (some repository) ↔
      ∃ text identity, value = .str text ∧ canonicalProjectIdentity text = .ok (some identity) ∧
        identity.repository = repository := by
  cases value with
  | str text =>
      rw [resolveRepository, map_eq_ok_iff]
      constructor
      · rintro ⟨found, hfound, h⟩
        obtain ⟨identity, rfl, hrepository⟩ := Option.map_eq_some_iff.mp h
        exact ⟨text, identity, rfl, hfound, hrepository⟩
      · rintro ⟨_, identity, heq, hfound, rfl⟩
        rw [Json.str.inj heq]
        exact ⟨_, hfound, rfl⟩
  | _ => simp [resolveRepository]

/-- A repository that a spelling resolves to is a spelling of itself. -/
theorem resolveRepository_resolved {value : Json} {repository : String}
    (h : resolveRepository value = .ok (some repository)) :
    resolveRepository (.str repository) = .ok (some repository) := by
  obtain ⟨text, identity, -, hidentity, rfl⟩ := resolveRepository_eq_some_iff.mp h
  exact resolveRepository_eq_some_iff.mpr
    ⟨_, _, rfl, canonicalProjectIdentity_of_mem (mem_family_of_identity hidentity), rfl⟩

theorem isText_of_resolveRepository {value : Json} {repository : String}
    (h : resolveRepository value = .ok (some repository)) : isText value = true := by
  obtain ⟨text, identity, rfl, hidentity, -⟩ := resolveRepository_eq_some_iff.mp h
  rw [canonicalProjectIdentity] at hidentity
  split at hidentity
  · cases hidentity
  · next hblank => simpa [isText] using hblank

/-- Every value is a spelling of the repository. -/
def AllResolve (values : List Json) (repository : String) : Prop :=
  ∀ value ∈ values, resolveRepository value = .ok (some repository)

theorem resolveRepositories_eq_some {items : List Json} {repositories : List String}
    (h : resolveRepositories items = .ok (some repositories)) :
    List.Forall₂ (fun item repository => resolveRepository item = .ok (some repository)) items
      repositories := by
  induction items generalizing repositories with
  | nil =>
      obtain rfl := Option.some.inj (Except.ok.inj h)
      exact .nil
  | cons item items ih =>
      obtain ⟨first, hfirst, h⟩ := Py.bind_eq_ok_iff.mp h
      cases first with
      | none => cases h
      | some first =>
          obtain ⟨rest, hrest, h⟩ := Py.bind_eq_ok_iff.mp h
          obtain ⟨rest, rfl, rfl⟩ := Option.map_eq_some_iff.mp (Except.ok.inj h)
          exact .cons hfirst (ih hrest)

/-- The spellings of one repository, the given one. -/
theorem allResolve_of_single {items : List Json} {repositories : List String} {primary : String}
    (h : resolveRepositories items = .ok (some repositories))
    (hsingle : repositories.eraseDups.length = 1) (hprimary : primary ∈ repositories) :
    items ≠ [] ∧ AllResolve items primary := by
  obtain ⟨only, honly⟩ := List.length_eq_one_iff.mp hsingle
  have hsame : ∀ repository ∈ repositories, repository = primary := by
    intro repository hrepository
    rw [← List.mem_eraseDups, honly, List.mem_singleton] at hrepository hprimary
    rw [hrepository, hprimary]
  have hforall := resolveRepositories_eq_some h
  constructor
  · rintro rfl
    rw [List.forall₂_nil_left_iff.mp hforall] at hprimary
    cases hprimary
  · intro item hitem
    obtain ⟨n, hn, rfl⟩ := List.getElem_of_mem hitem
    have hlength := hforall.length_eq
    have hget := (List.forall₂_iff_get.mp hforall).2 n hn (hlength ▸ hn)
    rw [List.get_eq_getElem, List.get_eq_getElem,
      hsame repositories[n] (List.getElem_mem _)] at hget
    exact hget

/-! ## Masks -/

/-- Whether the work is hygiene work. -/
def isHygiene (details : Fields) : Bool :=
  (Fields.get details "lane").str? = some WorkLane.repoHygiene.value

/-- The submitted spellings are all of one repository, the primary one. -/
def RepoLocal (details : Fields) : Prop :=
  ∃ repository items, resolveRepository (Fields.get details "repository") = .ok (some repository) ∧
    Fields.get details "affectedRepositories" = .arr items ∧ AllResolve items repository

/-- Where the canonical spellings resolve, the submitted ones resolve alike. -/
structure Unmasked (details : Fields) (affected : Option (List Json)) : Prop where
  primary : ∀ repository,
    resolveRepository (Fields.get details "canonicalRepository") = .ok (some repository) →
      resolveRepository (Fields.get details "repository") = .ok (some repository)
  affected : ∀ repository named,
    Fields.get details "canonicalAffectedRepositories" = .arr named → named ≠ [] →
      AllResolve named repository →
        ∃ items, affected = some items ∧
          ∀ item ∈ items, isText item = true → resolveRepository item = .ok (some repository)

/-- The affected repositories that the details name. -/
def affectedOf (details : Fields) : Option (List Json) :=
  (Fields.get details "affectedRepositories").arr?

/-- The affected repositories that a request names. -/
def submittedAffected (request : Fields) : Option (List Json) :=
  match Fields.get? request "affectedRepositories" with
  | none => some [Fields.get request "repository"]
  | some .null => some []
  | some value => value.arr?

theorem isText_of_stringList {details : Fields} {items : List Json}
    (h : stringListInvalid details "affectedRepositories" = false)
    (hitems : Fields.get details "affectedRepositories" = .arr items) :
    ∀ item ∈ items, isText item = true := by
  rw [stringListInvalid, Fields.get?_of_get hitems (by simp)] at h
  simp only [Bool.or_eq_false_iff, Bool.not_eq_false', List.all_eq_true] at h
  exact h.2

/-- Hygiene work in scope is local to a repository, when nothing is masked. -/
theorem repoLocal_of_inScope {details : Fields} (h : hygieneScopeInvalid details = .ok false)
    (hlane : isHygiene details = true)
    (hcoordination : Fields.get details "coordinationState" ≠ .str "NEEDS_RECONCILIATION")
    (hlist : stringListInvalid details "affectedRepositories" = false)
    (hunmasked : Unmasked details (affectedOf details)) : RepoLocal details := by
  rw [isHygiene, decide_eq_true_eq] at hlane
  rw [hygieneScopeInvalid, if_neg (not_not.mpr hlane),
    if_neg (by rwa [Json.str?_eq_some_iff])] at h
  obtain ⟨primary, hprimary, h⟩ := Py.bind_eq_ok_iff.mp h
  cases primary with
  | none => cases h
  | some primary =>
      obtain ⟨repositories, hrepositories, h⟩ := Py.bind_eq_ok_iff.mp h
      cases repositories with
      | none => cases h
      | some repositories =>
          have h := Except.ok.inj h
          simp only [Bool.or_eq_false_iff, decide_eq_false_iff_not, not_not, Bool.not_eq_false',
            List.contains_iff_mem] at h
          obtain ⟨hne, hall⟩ := allResolve_of_single hrepositories h.1 h.2
          have hrepository : resolveRepository (Fields.get details "repository") =
              .ok (some primary) := by
            split at hprimary
            · exact hunmasked.primary primary hprimary
            · exact hprimary
          split at hne
          · next hcanonical =>
            rw [if_pos hcanonical] at hall
            cases hnamed : Fields.get details "canonicalAffectedRepositories" with
            | arr named =>
                rw [hnamed] at hne hall
                obtain ⟨items, hitems, hresolve⟩ := hunmasked.affected primary named hnamed hne hall
                have hitems := Json.arr?_eq_some_iff.mp hitems
                exact ⟨primary, items, hrepository, hitems, fun item hitem =>
                  hresolve item hitem (isText_of_stringList hlist hitems item hitem)⟩
            | _ => simp [hnamed, Json.arr?] at hcanonical
          · next hcanonical =>
            rw [if_neg hcanonical] at hall
            cases hitems : Fields.get details "affectedRepositories" with
            | arr items =>
                rw [hitems] at hall
                exact ⟨primary, items, hrepository, hitems, hall⟩
            | _ => simp [hitems, Json.arr?] at hne

/-! ## Key order -/

@[simp]
theorem isHygiene_sortKeys (details : Fields) :
    isHygiene (Fields.sortKeys details) = isHygiene details := by
  rw [isHygiene, isHygiene, Fields.get_sortKeys, Json.str?_sortKeys]

theorem allResolve_map_sortKeys {items : List Json} {repository : String} :
    AllResolve (items.map Json.sortKeys) repository ↔ AllResolve items repository := by
  simp [AllResolve]

theorem affectedOf_sortKeys (details : Fields) :
    affectedOf (Fields.sortKeys details) = (affectedOf details).map (List.map Json.sortKeys) := by
  rw [affectedOf, affectedOf, Fields.get_sortKeys, Json.arr?_sortKeys]

theorem Unmasked.sortKeys {details : Fields} (h : Unmasked details (affectedOf details)) :
    Unmasked (Fields.sortKeys details) (affectedOf (Fields.sortKeys details)) where
  primary repository hcanonical := by
    rw [Fields.get_sortKeys, resolveRepository_sortKeys] at hcanonical ⊢
    exact h.primary repository hcanonical
  affected repository named hnamed hne hall := by
    rw [Fields.get_sortKeys] at hnamed
    have harr := congrArg Json.arr? hnamed
    rw [Json.arr?_sortKeys] at harr
    obtain ⟨before, hbefore, rfl⟩ := Option.map_eq_some_iff.mp harr
    obtain ⟨items, hitems, hresolve⟩ := h.affected repository before
      (Json.arr?_eq_some_iff.mp hbefore) (fun hnil => hne (by rw [hnil]; rfl))
      (allResolve_map_sortKeys.mp hall)
    refine ⟨items.map Json.sortKeys, by rw [affectedOf_sortKeys, hitems]; rfl, ?_⟩
    intro sorted hsorted htext
    obtain ⟨item, hitem, rfl⟩ := List.mem_map.mp hsorted
    rw [isText_sortKeys] at htext
    rw [resolveRepository_sortKeys]
    exact hresolve item hitem htext

theorem RepoLocal.sortKeys {details : Fields} (h : RepoLocal details) :
    RepoLocal (Fields.sortKeys details) := by
  obtain ⟨repository, items, hrepository, hitems, hall⟩ := h
  refine ⟨repository, items.map Json.sortKeys, ?_, ?_, allResolve_map_sortKeys.mpr hall⟩
  · rwa [Fields.get_sortKeys, resolveRepository_sortKeys]
  · rw [Fields.get_sortKeys, hitems, Json.sortKeys_arr]

/-! ## Requests -/

theorem resolveRepository_strip (text : String) :
    resolveRepository (.str (Str.strip text)) = resolveRepository (.str text) := by
  rw [resolveRepository, resolveRepository, canonicalProjectIdentity_strip]

theorem resolveRepository_of_optionalText {value : Json} {field : String} {text : Option String}
    (h : optionalText value field = .ok text) :
    resolveRepository ((text.map Json.str).getD .null) = resolveRepository value := by
  obtain ⟨rfl, rfl⟩ | ⟨s, rfl, -, rfl⟩ := optionalText_eq_ok h
  · rfl
  · exact resolveRepository_strip s

/-- Each text of a list that was read is one of the list, and each of the list was
read. -/
theorem resolves_of_stringList {value : Json} {field : String} {texts : List String}
    (h : stringList value field = .ok texts) :
    value = .null ∧ texts = [] ∨ ∃ items, value = .arr items ∧
      List.Forall₂ (fun item text => isText item = true ∧
        resolveRepository (.str text) = resolveRepository item) items texts := by
  obtain hnull | ⟨items, hitems, hread⟩ := stringList_eq_ok h
  · exact .inl hnull
  · refine .inr ⟨items, hitems, hread.imp fun item text hitem => ?_⟩
    obtain ⟨s, rfl, hblank, rfl⟩ := hitem
    exact ⟨by rw [isText, hblank]; rfl, resolveRepository_strip s⟩

theorem allResolve_ofStrings_iff {items : List Json} {texts : List String} {repository : String}
    (h : List.Forall₂ (fun item text => isText item = true ∧
      resolveRepository (.str text) = resolveRepository item) items texts) :
    AllResolve (texts.map Json.str) repository ↔ AllResolve items repository := by
  induction h with
  | nil => exact Iff.rfl
  | cons hfirst _ ih =>
      simp only [AllResolve, List.map_cons, List.forall_mem_cons] at ih ⊢
      rw [hfirst.2, ih]

theorem isText_of_forall₂ {items : List Json} {texts : List String}
    (h : List.Forall₂ (fun item text => isText item = true ∧
      resolveRepository (.str text) = resolveRepository item) items texts) :
    ∀ item ∈ items, isText item = true := by
  induction h with
  | nil => simp
  | cons hfirst _ ih => exact List.forall_mem_cons.mpr ⟨hfirst.1, ih⟩

/-- The affected repositories of the record are those that the request names. -/
theorem allResolve_affected {uuid repository : String} {request : Fields}
    {submission : WorkSubmission} {named : List Json} (hread : ReadFrom uuid request submission)
    (hnamed : submittedAffected request = some named)
    (h : ∀ item ∈ named, isText item = true → resolveRepository item = .ok (some repository)) :
    AllResolve (submission.affectedRepositories.map Json.str) repository := by
  obtain ⟨-, hnil⟩ | ⟨items, hitems, hforall⟩ := resolves_of_stringList hread.affectedRepositories
  · rw [hnil]
    simp [AllResolve]
  rw [allResolve_ofStrings_iff hforall]
  have htexts := isText_of_forall₂ hforall
  rw [submittedAffected] at hnamed
  cases hget : Fields.get? request "affectedRepositories" with
  | some value =>
      rw [hget] at hnamed hitems
      obtain rfl : value = .arr items := hitems
      obtain rfl := Option.some.inj hnamed
      exact fun item hitem => h item hitem (htexts item hitem)
  | none =>
      -- The request names none: its own repository is the affected one.
      rw [hget] at hnamed hitems
      obtain rfl := Option.some.inj hnamed
      obtain rfl : submission.repository.toList.map Json.str = items := Json.arr.inj hitems
      obtain ⟨-, hnone⟩ | ⟨s, hs, hblank, hsome⟩ := optionalText_eq_ok hread.repository
      · rw [hnone]
        simp [AllResolve]
      · have hresolve := h _ List.mem_cons_self (by rw [hs, isText, hblank]; rfl)
        rw [hsome]
        intro item hitem
        obtain rfl := List.mem_singleton.mp hitem
        rw [resolveRepository_strip, ← hs]
        exact hresolve

/-- The record of a request masks nothing when the request does not. -/
theorem unmasked_of_request {uuid : String} {request : Fields} {submission : WorkSubmission}
    (hread : ReadFrom uuid request submission) (hlane : submission.lane.isSome = true)
    (h : Unmasked request (submittedAffected request)) :
    Unmasked submission.details (affectedOf submission.details) where
  primary repository hcanonical := by
    rw [submission.get_canonicalRepository,
      resolveRepository_of_optionalText hread.canonicalRepository] at hcanonical
    rw [submission.get_repository, resolveRepository_of_optionalText hread.repository]
    exact h.primary repository hcanonical
  affected repository named hnamed hne hall := by
    have haffected : affectedOf submission.details =
        some (submission.affectedRepositories.map Json.str) := by
      rw [affectedOf, Fields.get, submission.get?_affectedRepositories hlane]
      rfl
    rw [Fields.get, submission.get?_canonicalAffected] at hnamed
    split at hnamed
    · cases hnamed
    · next hcanonical =>
      obtain rfl : submission.canonicalAffected.map Json.str = named := Json.arr.inj hnamed
      obtain ⟨-, hnil⟩ | ⟨items, hitems, hforall⟩ := resolves_of_stringList hread.canonicalAffected
      · exact absurd hnil hcanonical
      · have hitemsNe : items ≠ [] := by
          rintro rfl
          exact hcanonical (List.forall₂_nil_left_iff.mp hforall)
        obtain ⟨others, hothers, hresolve⟩ := h.affected repository items hitems hitemsNe
          ((allResolve_ofStrings_iff hforall).mp hall)
        exact ⟨_, haffected, fun item hitem _ =>
          allResolve_affected hread hothers hresolve item hitem⟩

/-! ## Proposals -/

theorem mem_named_of_resolved {items : List Json} {read : List (Option String)} {item : Json}
    {spelling : String} (h : items.mapM resolvedOrStripped = .ok read) (hitem : item ∈ items)
    (hspelling : resolvedOrStripped item = .ok (some spelling)) :
    spelling ∈ read.filterMap id := by
  obtain ⟨result, hresult, hread⟩ := mem_results_of_mapM h hitem
  obtain rfl := Except.ok.inj (hspelling.symm.trans hread)
  exact List.mem_filterMap.mpr ⟨_, hresult, rfl⟩

/-- What a list of affected repositories is normalised to has the canonical one, and
resolves as the list does. -/
theorem resolves_of_normalizedAffected {canonical repository : String} {affected : Json}
    {named : List String} (h : normalizedAffected canonical affected = .ok named)
    (hall : AllResolve (named.map Json.str) repository) :
    resolveRepository (.str canonical) = .ok (some repository) ∧
      ∀ items, affected = .arr items →
        ∀ item ∈ items, isText item = true → resolveRepository item = .ok (some repository) := by
  have hmem : ∀ spelling ∈ named, resolveRepository (.str spelling) = .ok (some repository) :=
    fun spelling hspelling => hall _ (List.mem_map_of_mem hspelling)
  cases affected with
  | arr items =>
      obtain ⟨read, hread, h⟩ := Py.bind_eq_ok_iff.mp h
      have hsubset : ∀ spelling ∈ read.filterMap id, spelling ∈ named := by
        intro spelling hspelling
        rw [← Except.ok.inj h]
        split
        · exact hspelling
        · exact List.mem_append_left _ hspelling
      refine ⟨hmem canonical ?_, ?_⟩
      · rw [← Except.ok.inj h]
        split
        · next hcontains => exact List.contains_iff_mem.mp hcontains
        · exact List.mem_append_right _ (List.mem_singleton_self _)
      · rintro _ ⟨rfl⟩ item hitem htext
        cases item with
        | str text =>
            obtain ⟨result, hresult, hitemRead⟩ := mem_results_of_mapM hread hitem
            rw [resolvedOrStripped, strippedText, if_pos htext] at hitemRead
            obtain ⟨found, hfound, hitemRead⟩ := Py.bind_eq_ok_iff.mp hitemRead
            obtain rfl := Except.ok.inj hitemRead
            have hspelling := hmem _ (hsubset _ (List.mem_filterMap.mpr ⟨_, hresult, rfl⟩))
            cases found with
            | some found =>
                rw [Option.getD_some, resolveRepository_resolved hfound] at hspelling
                rw [hfound, hspelling]
            | none =>
                rw [Option.getD_none, resolveRepository_strip] at hspelling
                exact hspelling
        | _ => cases htext
  | _ =>
      obtain rfl := Except.ok.inj h
      exact ⟨hmem canonical (List.mem_singleton_self _), nofun⟩

theorem get?_proposalCandidate (proposal : Fields) {key : String}
    (hkey : key = "canonicalRepository" ∨ key = "canonicalAffectedRepositories") :
    Fields.get? (proposalCandidate proposal).1 key = none := by
  have hsource : key ≠ "source" ∧ key ≠ "proposalSource" := by
    obtain rfl | rfl := hkey <;> decide
  rw [proposalCandidate, get?_set_of_ne hsource.2, Fields.get?_erase, if_neg hsource.1.symm]
  simp only [List.foldl_cons, List.foldl_nil, Fields.get?_erase]
  obtain rfl | rfl := hkey <;> rfl

/-- The fields that the scope of work is read from. -/
def scopeFields : List String :=
  ["lane", "repository", "affectedRepositories", "canonicalRepository",
    "canonicalAffectedRepositories"]

/-- The two have the same scope. -/
def SameScope (first second : Fields) : Prop :=
  ∀ key ∈ scopeFields, Fields.get? first key = Fields.get? second key

theorem SameScope.get {first second : Fields} (h : SameScope first second) {key : String}
    (hkey : key ∈ scopeFields) : Fields.get first key = Fields.get second key := by
  rw [Fields.get, Fields.get, h key hkey]

theorem SameScope.isHygiene {first second : Fields} (h : SameScope first second) :
    isHygiene first = isHygiene second := by
  rw [Protocol.isHygiene, Protocol.isHygiene, h.get (by decide)]

theorem SameScope.unmasked {first second : Fields} (h : SameScope first second)
    {affected : Option (List Json)} (hsecond : Unmasked second affected) :
    Unmasked first affected where
  primary repository hcanonical := by
    rw [h.get (by decide)] at hcanonical ⊢
    exact hsecond.primary repository hcanonical
  affected repository named hnamed := by
    rw [h.get (by decide)] at hnamed
    exact hsecond.affected repository named hnamed

theorem SameScope.submittedAffected {first second : Fields} (h : SameScope first second) :
    submittedAffected first = submittedAffected second := by
  rw [Protocol.submittedAffected, Protocol.submittedAffected, h "affectedRepositories" (by decide),
    h.get (by decide)]

theorem SameScope.affectedOf {first second : Fields} (h : SameScope first second) :
    affectedOf first = affectedOf second := by
  rw [Protocol.affectedOf, Protocol.affectedOf, h.get (by decide)]

theorem sameScope_acceptedCandidate (candidate : Fields) :
    SameScope (acceptedCandidate candidate) candidate := by
  intro key hkey
  have hne : key ≠ "coordinationState" ∧ key ≠ "proposalStatus" := by
    constructor <;> rintro rfl <;> revert hkey <;> decide
  rw [acceptedCandidate, get?_set_of_ne hne.1, get?_set_of_ne hne.2]

theorem sameScope_reconciliationCandidate (candidate : Fields) (reasons ambiguous : List String) :
    SameScope (reconciliationCandidate candidate reasons ambiguous) candidate := by
  intro key hkey
  have hne : key ≠ "deduplication" ∧ key ≠ "proposalReason" ∧ key ≠ "coordinationState" ∧
      key ≠ "proposalStatus" := by
    refine ⟨?_, ?_, ?_, ?_⟩ <;> rintro rfl <;> revert hkey <;> decide
  simp only [reconciliationCandidate, List.foldl_cons, List.foldl_nil]
  rw [get?_set_of_ne hne.1, get?_set_of_ne hne.2.1, get?_set_of_ne hne.2.2.1,
    get?_set_of_ne hne.2.2.2]

/-- A candidate with its canonical repositories masks nothing. -/
theorem unmasked_of_withCanonicalRepository {candidate found : Fields} {reasons : List String}
    (h : withCanonicalRepository candidate = .ok (found, reasons))
    (hrepository : Fields.get? candidate "canonicalRepository" = none)
    (haffected : Fields.get? candidate "canonicalAffectedRepositories" = none)
    (hlist : ∃ items, submittedAffected found = some items) :
    Unmasked found (submittedAffected found) := by
  have hunset : Unmasked candidate (submittedAffected found) := by
    refine ⟨fun repository hcanonical => ?_, fun repository named hnamed => ?_⟩
    · rw [Fields.get, hrepository] at hcanonical
      cases hcanonical
    · rw [Fields.get, haffected] at hnamed
      cases hnamed
  rw [withCanonicalRepository] at h
  split at h
  · obtain ⟨rfl, -⟩ := Prod.mk.inj (Except.ok.inj h)
    exact hunset
  · obtain ⟨canonical, hcanonical, h⟩ := Py.bind_eq_ok_iff.mp h
    cases canonical with
    | none =>
        obtain ⟨rfl, -⟩ := Prod.mk.inj (Except.ok.inj h)
        exact hunset
    | some canonical =>
        obtain ⟨affected, hnormalized, h⟩ := Py.bind_eq_ok_iff.mp h
        obtain ⟨rfl, -⟩ := Prod.mk.inj (Except.ok.inj h)
        have hnamedRepository : Fields.get (Fields.set (Fields.set candidate "canonicalRepository"
            (.str canonical)) "canonicalAffectedRepositories" (Json.ofStrings affected))
              "repository" = Fields.get candidate "repository" := by
          rw [Fields.get, get?_set_of_ne (by decide), get?_set_of_ne (by decide), Fields.get]
        have hcanonicalRepository : Fields.get (Fields.set (Fields.set candidate
            "canonicalRepository" (.str canonical)) "canonicalAffectedRepositories"
              (Json.ofStrings affected)) "canonicalRepository" = .str canonical := by
          rw [Fields.get, get?_set_of_ne (by decide), Fields.get?_set, if_pos rfl, Option.getD_some]
        refine ⟨fun repository hresolved => ?_, fun repository named hnamed _ hall => ?_⟩
        · rw [hcanonicalRepository, resolveRepository_resolved hcanonical] at hresolved
          rw [hnamedRepository, hcanonical, hresolved]
        · rw [Fields.get, Fields.get?_set, if_pos rfl, Option.getD_some] at hnamed
          obtain rfl : affected.map Json.str = named := Json.arr.inj hnamed
          obtain ⟨hsame, hitems⟩ := resolves_of_normalizedAffected hnormalized hall
          rw [resolveRepository_resolved hcanonical] at hsame
          obtain ⟨items, hnamed⟩ := hlist
          refine ⟨items, hnamed, fun item hitem htext => ?_⟩
          rw [submittedAffected, get?_set_of_ne (by decide), get?_set_of_ne (by decide),
            hnamedRepository] at hnamed
          split at hnamed
          · next hnone =>
            obtain rfl := Option.some.inj hnamed
            rw [List.mem_singleton.mp hitem, hcanonical, hsame]
          · obtain rfl := Option.some.inj hnamed
            cases hitem
          · next value hvalue =>
            obtain rfl := Json.arr?_eq_some_iff.mp hnamed
            rw [hvalue, Option.getD_some] at hitems
            exact hitems items rfl item hitem htext

theorem exists_submittedAffected {uuid : String} {request : Fields} {submission : WorkSubmission}
    (hread : ReadFrom uuid request submission) :
    ∃ items, submittedAffected request = some items := by
  have hread := hread.affectedRepositories
  rw [submittedAffected]
  cases hget : Fields.get? request "affectedRepositories" with
  | none => exact ⟨_, rfl⟩
  | some value =>
      rw [hget, Option.getD_some] at hread
      obtain ⟨rfl, -⟩ | ⟨items, rfl, -⟩ := stringList_eq_ok hread
      · exact ⟨[], rfl⟩
      · exact ⟨items, rfl⟩

/-- The record of a proposal masks nothing. -/
theorem unmasked_of_proposal {lower : String → String} {work : List WorkProjection}
    {proposal submitted : Fields} {uuid : String} {submission : WorkSubmission}
    (h : classifyProposal lower work proposal = .ok (.submit submitted))
    (hread : ReadFrom uuid submitted submission) :
    Unmasked submitted (submittedAffected submitted) := by
  obtain ⟨classified, hsubmitted⟩ := classified_of_submit h
  have hsame : SameScope submitted classified.candidate := by
    obtain ⟨-, -, rfl⟩ | ⟨-, rfl⟩ := hsubmitted
    · exact sameScope_acceptedCandidate _
    · exact sameScope_reconciliationCandidate _ _ _
  have hlist := exists_submittedAffected hread
  rw [hsame.submittedAffected] at hlist ⊢
  exact hsame.unmasked (unmasked_of_withCanonicalRepository classified.candidate_eq
    (get?_proposalCandidate proposal (.inl rfl)) (get?_proposalCandidate proposal (.inr rfl)) hlist)

/-! ## Revisions -/

/-- A revision has the scope of the one before. -/
theorem NextRevision.sameScope {now : String} {current transition revised : Fields}
    (revision : NextRevision now current transition revised) :
    SameScope (detailsOf revised) (detailsOf current) :=
  fun _ hkey => revision.get?_details fun hchanged => by
    simp only [scopeFields, List.mem_cons, List.not_mem_nil, or_false] at hkey
    obtain rfl | rfl | rfl | rfl | rfl := hkey <;> revert hchanged <;> decide

end MncsCommons.Protocol
