/-
# Repositories and instants of the pressure exchange

How a pressure document names a repository and a point in time.  A repository is
resolved to its canonical name, by the family registry or by the exchange's own
aliases, and a spelling that resolves to none stays unresolved.  An instant is an
RFC 3339 UTC timestamp; as a sort key, a value that is no timestamp is the start
of year 1.

A timestamp without an offset is in the host's local time: `zone` is the
conversion of local time to UTC.
-/

import MncsCommons.Data.DateTime
import MncsCommons.Protocol.Lanes

namespace MncsCommons.Pressure

open MncsCommons.Data MncsCommons.Protocol

/-! ## Repositories -/

/-- The downstream consumers that the exchange adds to the family registry. -/
def extraAliases : List (String × String) :=
  [("mncs-environment", "mncs-environment"), ("mncs-compiler", "mncs-compiler"),
    ("mncs-numerics", "mncs-numerics"), ("mncs-store", "mncs-store"),
    ("mncs-ingest", "mncs-ingest"), ("mncs-web", "mncs-web"), ("mncs-doctor", "mncs-doctor"),
    ("mncs-ravel", "ravel"), ("mncs-forge", "mncs-forge"), ("mncs-signal", "mncs-signal"),
    ("mncs-data", "mncs-data"), ("mncs-engine", "mncs-engine"), ("mncs-index", "mncs-index"),
    ("mncs-geometry", "mncs-geometry"), ("mncs-math", "mncs-math"),
    ("mncs-physics", "mncs-physics"), ("mncs-doc", "mncs-doc"), ("mncs-test", "mncs-test"),
    ("mncs-debug", "mncs-debug"), ("mncs-actions", "mncs-actions"),
    ("mncs-fabric", "mncs-fabric"), ("mncs-commons", "mncs-commons"), ("ravel", "ravel"),
    ("forge", "mncs-forge")]

/-- The projects that are their own alias. -/
def aliasProjects : List String :=
  ["mncs", "mncds", "mncs-rights-provenance", "mncs-language", "mncs-language-service",
    "mncs-validator-rs", "mncs-forge", "mncs-fabric", "mncs-commons", "mncs-harness",
    "mncs-control-mcp", "mncs-atlas", "mncs-reference-studies", "ravel", "mnel",
    "mncs-lineage", "mncs-tui", "mncs-test", "mncs-debug", "mncs-actions", "mncs-doc"]

/-- `_repository_aliases`. -/
def repositoryAliases : List (String × String) :=
  (extraAliases ++ aliasProjects.map (fun project => (project, project)) ++
    [("mncs-forge-mcp", "mncs-forge"), ("mncs-control-mcp", "mncs-control-mcp"),
      ("RAVEL", "ravel")]).foldl
    (fun aliases entry => Fields.set aliases entry.1 entry.2) []

/-- The alias of a stripped spelling, as written or in lower case without the
`.git` suffix and the owner. -/
def aliasOf (submitted : String) : Option String :=
  let lowered := Str.removeSuffix (Str.lower submitted) ".git"
  ((Fields.get? repositoryAliases submitted).or (Fields.get? repositoryAliases lowered)).or
    (if Str.startsWith lowered "epi13/" then
      Fields.get? repositoryAliases (Str.removePrefix lowered "epi13/")
    else none)

/-- `normalize_repository`. -/
def normalizeRepository (value : Json) : Py (Option String) :=
  match value with
  | .str text =>
      if Str.isBlank text then .ok none
      else do
        match ← canonicalProjectIdentity (Str.strip text) with
        | some identity => return some identity.projectId
        | none => return aliasOf (Str.strip text)
  | _ => .ok none

/-- `normalize_repository(value) or str(value)`. -/
def repositoryName (value : Json) : Py String := do
  return (← normalizeRepository value).getD value.pyStr

/-! ## Instants -/

/-- The shape `YYYY-MM-DDTHH:MM:SS[.fff]Z`. -/
def matchesInstant (text : Text) : Bool :=
  let shape := "dddd-dd-ddTdd:dd:dd".toList
  let fits := (shape.zip text).all fun (mark, c) => if mark = 'd' then c.isDigit else c == mark
  let rest := text.drop shape.length
  fits && decide (shape.length ≤ text.length) &&
    (rest == ['Z'] ||
      (rest.head? == some '.' && decide (3 ≤ rest.length) && rest.getLast? == some 'Z' &&
        ((rest.drop 1).dropLast).all Char.isDigit))

/-- The timestamp with `Z` read as an offset of zero. -/
def parseInstant (text : String) : Option DateTime :=
  DateTime.fromIsoFormat (Str.replaceChar text 'Z' "+00:00").toList

/-- `_instant`. -/
def isInstant (value : Json) (allowNone : Bool) : Bool :=
  match value with
  | .null => allowNone
  | .str text => matchesInstant text.toList && (parseInstant text).isSome
  | _ => false

section Zone

variable (zone : Int → Py Int)

/-- `astimezone(timezone.utc)`. -/
def asUtc (value : DateTime) : Py Int :=
  match value.offset with
  | some _ => match value.toUtc with
      | some micros => .ok micros
      | none => .error (.overflowError "date value out of range")
  | none => zone value.micros

/-- `_instant_key`: what raises a `ValueError` counts as the earliest instant. -/
def instantKey (value : Json) : Py Int :=
  match value with
  | .str text => match parseInstant text with
      | none => .ok 0
      | some parsed => match asUtc zone parsed with
          | .ok micros => .ok micros
          | .error error => if error.isValueError then .ok 0 else .error error
  | _ => .ok 0

end Zone

/-! ## Canonical names -/

/-- The names that a spelling can resolve to. -/
def repositoryNames : List String := Fields.keys canonicalFamily ++ repositoryAliases.map Prod.snd

/-- `normalizeRepository` of a text with its comparisons made on code points. -/
def normalizeByCodes (text : String) : Py (Option String) :=
  if Str.isBlank text then .ok none
  else do
    match ← identityByCodes (Str.strip text) with
    | some identity => return some identity.projectId
    | none => return aliasOf (Str.strip text)

theorem normalizeRepository_eq_byCodes (text : String) :
    normalizeRepository (.str text) = normalizeByCodes text := by
  rw [normalizeRepository, normalizeByCodes, canonicalProjectIdentity_eq_byCodes]

theorem repositoryNames_resolved :
    (repositoryNames.eraseDups.all fun name =>
      decide (normalizeRepository (.str name) = .ok (some name))) = true := by
  simp only [normalizeRepository_eq_byCodes, normalizeByCodes, identityByCodes, projectNames,
    repositoryFromUrl, Str.isBlank, Str.strip, Str.removeSuffix, Str.endsWith,
    ← quickChars_eq]
  decide +kernel

theorem mem_repositoryNames {value : Json} {name : String}
    (h : normalizeRepository value = .ok (some name)) : name ∈ repositoryNames := by
  have halias : ∀ text, aliasOf text = some name → name ∈ repositoryNames := by
    intro text htext
    have hget : ∀ key, Fields.get? repositoryAliases key = some name → name ∈ repositoryNames := by
      intro key hkey
      exact List.mem_append_right _ (List.mem_map.mpr
        ⟨_, Fields.mem_of_get?_eq_some hkey, rfl⟩)
    rw [aliasOf, Option.or_eq_some_iff, Option.or_eq_some_iff] at htext
    rcases htext with (hkey | ⟨-, hkey⟩) | ⟨-, hkey⟩
    · exact hget _ hkey
    · exact hget _ hkey
    · split at hkey
      · exact hget _ hkey
      · exact absurd hkey (by simp)
  cases value with
  | str text =>
      rw [normalizeRepository] at h
      split at h
      · exact absurd (Except.ok.inj h) (by simp)
      · obtain ⟨identity, hidentity, h⟩ := Py.bind_eq_ok_iff.mp h
        cases identity with
        | none => exact halias _ (Except.ok.inj h)
        | some identity =>
            obtain rfl := Option.some_inj.mp (Except.ok.inj h)
            exact List.mem_append_left _
              (List.mem_map.mpr ⟨_, mem_family_of_identity hidentity, rfl⟩)
  | null | bool _ | int _ | decimal _ | arr _ | obj _ => exact absurd (Except.ok.inj h) (by simp)

/-- A resolved name resolves to itself. -/
theorem normalizeRepository_of_resolved {value : Json} {name : String}
    (h : normalizeRepository value = .ok (some name)) :
    normalizeRepository (.str name) = .ok (some name) :=
  of_decide_eq_true (List.all_eq_true.mp repositoryNames_resolved name
    (List.mem_eraseDups.mpr (mem_repositoryNames h)))

/-! ## The shape of an instant -/

/-- A digit is no other character. -/
theorem ne_of_isDigit {c other : Char} (h : c.isDigit = true) (hother : other.isDigit = false) :
    c ≠ other := by
  rintro rfl
  rw [h] at hother
  exact absurd hother (by simp)

/-- Reading `Z` as an offset leaves a text without it. -/
theorem flatMap_zone_of_ne {text : Text} (h : ∀ c ∈ text, c ≠ 'Z') :
    text.flatMap (fun c => if c = 'Z' then "+00:00".toList else [c]) = text := by
  induction text with
  | nil => rfl
  | cons c text ih =>
      rw [List.flatMap_cons, if_neg (h c List.mem_cons_self),
        ih fun c hc => h c (List.mem_cons_of_mem _ hc)]
      rfl

/-- A text of the shape of an instant is a calendar date, a `T`, a clock without
signs and a `Z`. -/
theorem matchesInstant_cases {text : Text} (h : matchesInstant text = true) :
    ∃ date clock : Text, text = date ++ 'T' :: (clock ++ ['Z']) ∧
      date.length = 10 ∧ date[4]? = some '-' ∧ date[5]? ≠ some 'W' ∧ (∀ c ∈ date, c ≠ 'Z') ∧
        ∀ c ∈ clock, c ≠ 'Z' ∧ c ≠ '-' ∧ c ≠ '+' := by
  obtain ⟨⟨hfits, hlength⟩, hrest⟩ : ((_ ∧ _) ∧ _) := by
    simpa only [matchesInstant, Bool.and_eq_true, decide_eq_true_eq] using h
  have hshape : "dddd-dd-ddTdd:dd:dd".toList = ['d', 'd', 'd', 'd', '-', 'd', 'd', '-', 'd', 'd',
    'T', 'd', 'd', ':', 'd', 'd', ':', 'd', 'd'] := by decide
  rw [hshape] at hfits hlength hrest
  have hmark : ∀ c : Char, c.isDigit = true ∨ c = ':' ∨ c = '.' → c ≠ 'Z' ∧ c ≠ '-' ∧ c ≠ '+' := by
    rintro c (hc | rfl | rfl)
    · exact ⟨ne_of_isDigit hc rfl, ne_of_isDigit hc rfl, ne_of_isDigit hc rfl⟩
    · decide
    · decide
  have hfraction : ∃ fraction : Text, text.drop 19 = fraction ++ ['Z'] ∧
      ∀ c ∈ fraction, c.isDigit = true ∨ c = ':' ∨ c = '.' := by
    simp only [List.length_cons, List.length_nil, Nat.reduceAdd, Bool.or_eq_true, beq_iff_eq,
      Bool.and_eq_true] at hrest
    rcases hrest with hrest | ⟨⟨⟨hdot, -⟩, hlast⟩, hdigits⟩
    · exact ⟨[], hrest, by simp⟩
    · generalize text.drop 19 = rest at hdot hlast hdigits
      obtain ⟨tail, rfl⟩ := List.head?_eq_some_iff.mp hdot
      obtain ⟨fraction, hfraction⟩ := List.getLast?_eq_some_iff.mp hlast
      refine ⟨fraction, hfraction, ?_⟩
      cases fraction with
      | nil => exact absurd hfraction (by simp)
      | cons first fraction =>
          obtain ⟨rfl, rfl⟩ := List.cons_eq_cons.mp hfraction
          intro c hc
          rcases List.mem_cons.mp hc with rfl | hc
          · exact .inr (.inr rfl)
          · left
            rw [List.drop_one, List.tail_cons, List.append_eq, List.dropLast_concat] at hdigits
            exact List.all_eq_true.mp hdigits c hc
  obtain ⟨fraction, hfraction, hsigns⟩ := hfraction
  have hhead : (text.take 19).length = 19 := by
    rw [List.length_take]
    exact Nat.min_eq_left hlength
  rw [← List.take_append_drop 19 text, hfraction] at hfits ⊢
  generalize text.take 19 = head at hfits hhead ⊢
  match head, hhead with
  | [y₁, y₂, y₃, y₄, d₁, m₁, m₂, d₂, a₁, a₂, t, h₁, h₂, c₁, n₁, n₂, c₂, s₁, s₂], _ =>
    simp at hfits
    obtain ⟨hy₁, hy₂, hy₃, hy₄, rfl, hm₁, hm₂, rfl, ha₁, ha₂, rfl, hh₁, hh₂, rfl, hn₁, hn₂, rfl, hs₁,
      hs₂⟩ := hfits
    refine ⟨[y₁, y₂, y₃, y₄, '-', m₁, m₂, '-', a₁, a₂],
      [h₁, h₂, ':', n₁, n₂, ':', s₁, s₂] ++ fraction, rfl, rfl, rfl, ?_, ?_, ?_⟩
    · simpa using @ne_of_isDigit m₁ 'W' hm₁ rfl
    · have hdate : ∀ c ∈ [y₁, y₂, y₃, y₄, '-', m₁, m₂, '-', a₁, a₂], c.isDigit = true ∨ c = '-' := by
        simp [hy₁, hy₂, hy₃, hy₄, hm₁, hm₂, ha₁, ha₂]
      intro c hc
      rcases hdate c hc with hdigit | rfl
      · exact ne_of_isDigit hdigit rfl
      · decide
    · intro c hc
      apply hmark
      rcases List.mem_append.mp hc with hc | hc
      · have htime : ∀ c ∈ [h₁, h₂, ':', n₁, n₂, ':', s₁, s₂],
            c.isDigit = true ∨ c = ':' ∨ c = '.' := by
          simp [hh₁, hh₂, hn₁, hn₂, hs₁, hs₂]
        exact htime c hc
      · exact hsigns c hc

/-- An instant is in UTC. -/
theorem parseInstant_offset {text : String} {value : DateTime}
    (hshape : matchesInstant text.toList = true) (h : parseInstant text = some value) :
    value.offset = some 0 := by
  obtain ⟨date, clock, htext, hlength, hdash, hweek, hdate, hclock⟩ := matchesInstant_cases hshape
  have hreplaced : (Str.replaceChar text 'Z' "+00:00").toList =
      date ++ 'T' :: (clock ++ "+00:00".toList) := by
    rw [Str.replaceChar, String.toList_ofList, htext, List.flatMap_append, flatMap_zone_of_ne hdate,
      List.flatMap_cons, List.flatMap_append, flatMap_zone_of_ne fun c hc => (hclock c hc).1]
    rfl
  rw [parseInstant, hreplaced] at h
  generalize hrest : clock ++ "+00:00".toList = rest at h
  unfold DateTime.fromIsoFormat at h
  split at h
  · exact absurd h (by simp)
  · obtain ⟨location, hlocation, h⟩ := Option.bind_eq_some_iff.mp h
    obtain ⟨ordinal, -, h⟩ := Option.bind_eq_some_iff.mp h
    have hten : location = 10 := by
      have h4 : (date ++ 'T' :: rest)[4]? = some '-' := by
        rw [List.getElem?_append_left (by omega), hdash]
      have h5 : (date ++ 'T' :: rest)[5]? ≠ some 'W' := by
        rwa [List.getElem?_append_left (by omega)]
      have hlong : (date ++ 'T' :: rest).length ≠ 7 := by
        rw [List.length_append]
        omega
      rw [DateTime.separatorLocation, if_neg hlong, if_pos h4, if_neg h5, Option.some_inj] at hlocation
      exact hlocation.symm
    subst hten
    have hdrop : List.drop (10 + 1) (date ++ 'T' :: rest) = rest := by
      rw [← hlength, List.drop_append, List.drop_eq_nil_of_le (Nat.le_succ _)]
      simp
    have hne : rest ≠ [] := by
      rw [← hrest]
      simp
    dsimp only at h
    rw [hdrop, if_neg hne] at h
    obtain ⟨⟨time, offset⟩, htime, h⟩ := Option.bind_eq_some_iff.mp h
    rw [← hrest] at htime
    rw [← Option.some_inj.mp h]
    exact DateTime.parseTime_offset htime fun c hc => (hclock c hc).2

/-- An instant is read without an overflow. -/
theorem instantKey_of_isInstant {zone : Int → Py Int} {value : Json} {allowNone : Bool}
    (h : isInstant value allowNone = true) : ∃ micros, instantKey zone value = .ok micros := by
  cases value with
  | null => exact ⟨0, rfl⟩
  | str text =>
      rw [isInstant, Bool.and_eq_true] at h
      obtain ⟨hshape, hparsed⟩ := h
      obtain ⟨parsed, hparse⟩ := Option.isSome_iff_exists.mp hparsed
      have hoffset := parseInstant_offset hshape hparse
      have hrange := DateTime.fromIsoFormat_range hparse
      refine ⟨parsed.micros, ?_⟩
      rw [instantKey, hparse]
      simp [asUtc, hoffset, DateTime.toUtc, hrange]
  | bool _ | int _ | decimal _ | arr _ | obj _ => exact absurd h (by simp [isInstant])

end MncsCommons.Pressure
