/-
# Work lanes and project identities

The lane policy bounds what a work request may change.  A hygiene request must
stay inside one repository, so spellings of a repository (a project identifier,
an alias, an owner/name pair, a GitHub URL) are resolved to one family identity
first.

`urlSplit` follows the standard library's URL parser as far as host and path
need it.  A bracketed host is treated as malformed; the validity of an IPv6
literal and the compatibility normalisation of a non-ASCII host are not
modelled.  No host of either form is `github.com`.
-/

import MncsCommons.Data.QuickText
import MncsCommons.Protocol.Models

namespace MncsCommons.Protocol

open MncsCommons.Data

/-! ## Lanes -/

/-- The work lanes. -/
inductive WorkLane where
  | documentation | conversionPrep | verification | repoLocal | repoHygiene | sharedCore
  deriving DecidableEq, Repr

namespace WorkLane

def value : WorkLane → String
  | .documentation => "DOCUMENTATION"
  | .conversionPrep => "CONVERSION_PREP"
  | .verification => "VERIFICATION"
  | .repoLocal => "REPO_LOCAL"
  | .repoHygiene => "REPO_HYGIENE"
  | .sharedCore => "SHARED_CORE"

def all : List WorkLane :=
  [.documentation, .conversionPrep, .verification, .repoLocal, .repoHygiene, .sharedCore]

/-- The lane a string names. -/
def ofString? (text : String) : Option WorkLane := all.find? fun lane => lane.value = text

end WorkLane

/-- The lane names. -/
def lanes : List String := WorkLane.all.map WorkLane.value

/-- `lane_policy(lane).write`. -/
def writeScope : WorkLane → List String
  | .documentation =>
      ["assigned_repo/docs/**", "assigned_repo/README*", "assigned_repo/examples/**"]
  | .conversionPrep => ["assigned_repo/**"]
  | .verification =>
      ["assigned_repo/tests/**", "assigned_repo/fixtures/**", "assigned_repo/.github/**"]
  | .repoLocal => ["assigned_repo/**"]
  | .repoHygiene =>
      ["assigned_repo/.github/**", "assigned_repo/tests/**", "assigned_repo/fixtures/**",
        "assigned_repo/**"]
  | .sharedCore => ["explicitly-authorized-shared-core/**"]

/-- What every lane but the shared core must leave alone. -/
def sharedForbidden : List String :=
  ["mncs-language/compiler/**", "mncs-language/src/**", "mncs-language/stdlib/**",
    "Commons protocol/schema semantics", "Fabric protocol semantics", "Harness policy semantics",
    "family-wide semantic schemas", "conformance and evaluator semantics"]

/-- `lane_policy(lane).must_not_modify`. -/
def mustNotModify : WorkLane → List String
  | .sharedCore => []
  | _ => sharedForbidden

/-- The code and field of a lane and scope mismatch. -/
def validateLaneRequest (details : Fields) : List (String × String) :=
  match Fields.get details "lane" with
  | .null => []
  | lane => match lane.str?.bind WorkLane.ofString? with
      | none => [("WORK_LANE_INVALID", "details.lane")]
      | some lane =>
          let sharedImpact : Bool := Fields.get details "sharedCoreImpact" = .bool true
          if lane = .sharedCore ∧ !sharedImpact then
            [("WORK_SHARED_CORE_IMPACT_REQUIRED", "details.sharedCoreImpact")]
          else if lane ≠ .sharedCore ∧ sharedImpact then
            [("WORK_SAFE_LANE_SHARED_CORE", "details.sharedCoreImpact")]
          else
            let forbidden := (Fields.get details "forbiddenWriteScope").arr?.getD []
            if forbidden.any fun item => !item.str?.any ((mustNotModify lane).contains ·) then
              [("WORK_FORBIDDEN_SCOPE_INVALID", "details.forbiddenWriteScope")]
            else []

/-! ## Repository spellings -/

/-- The characters of a URL scheme. -/
def isSchemeChar (c : Char) : Bool :=
  c.isAlpha || c.isDigit || c == '+' || c == '-' || c == '.'

/-- The text after a leading scheme and whether it had one of the schemes whose
paths carry parameters. -/
def splitScheme (url : Text) : Text × Bool :=
  let scheme := url.takeWhile (· ≠ ':')
  let rest := url.drop scheme.length
  if rest ≠ [] ∧ (scheme.head?.any Char.isAlpha) ∧ scheme.all isSchemeChar then
    (rest.drop 1, ["ftp", "hdl", "prospero", "http", "https", "shttp", "rtsp", "sip", "sips",
      "mms", "sftp", "tel"].contains (String.ofList (scheme.map Char.toLower)))
  else (url, true)

/-- Drop the parameters of the last path segment. -/
def dropParams (path : Text) : Text :=
  let lastSegment := (path.reverse.takeWhile (· ≠ '/')).reverse
  path.take (path.length - lastSegment.length) ++ lastSegment.takeWhile (· ≠ ';')

/-- The host of a network location, in lower case up to a zone mark. -/
def hostOfNetloc (netloc : Text) : Text :=
  let hostInfo := (netloc.reverse.takeWhile (· ≠ '@')).reverse
  let host := hostInfo.takeWhile (· ≠ ':')
  let name := host.takeWhile (· ≠ '%')
  name.map Char.toLower ++ host.drop name.length

/-- The host and the path of a URL. -/
def urlSplit (url : Text) : Py (Text × Text) := do
  let url := (url.dropWhile fun c => c.toNat ≤ 32).filter fun c =>
    c ≠ '\t' && c ≠ '\r' && c ≠ '\n'
  let (rest, hasParams) := splitScheme url
  let hasNetloc : Bool := rest.take 2 = ['/', '/']
  let afterSlashes := if hasNetloc then rest.drop 2 else rest
  let netloc := if hasNetloc then
      afterSlashes.takeWhile fun c => c ≠ '/' && c ≠ '?' && c ≠ '#'
    else []
  raiseIf (netloc.contains '[' || netloc.contains ']') (.valueError "Invalid IPv6 URL")
  let path := (afterSlashes.drop netloc.length).takeWhile fun c => c ≠ '#' && c ≠ '?'
  return (hostOfNetloc netloc, if hasParams then dropParams path else path)

/-- The owner and name of a GitHub URL. -/
def repositoryFromUrl (value : String) : Py (Option String) := do
  let (host, path) ← urlSplit value.toList
  if host ≠ "github.com".toList then return none
  else
    match (Str.splitChar '/' (stripChars (· = '/') path)).filter (· ≠ []) with
    | [owner, name] =>
        return some (String.ofList owner ++ "/" ++
          Str.removeSuffix (String.ofList name) ".git")
    | _ => return none

/-- The active family: project identifiers and their repositories. -/
def canonicalFamily : List (String × String) :=
  [("mncs", "epi13/machine-native-complexity-standard"),
    ("mncds", "epi13/machine-native-complexity-development-specification"),
    ("mncs-rights-provenance", "epi13/mncs-rights-provenance"),
    ("mncs-language", "epi13/mncs-language"),
    ("mncs-language-service", "epi13/mncs-language-service"),
    ("mncs-test", "epi13/mncs-test"),
    ("mncs-debug", "epi13/mncs-debug"),
    ("mncs-doctor", "epi13/mncs-doctor"),
    ("mncs-actions", "epi13/mncs-actions"),
    ("mncs-validator-rs", "epi13/mncs-validator-rs"),
    ("mncs-forge", "epi13/mncs-forge"),
    ("mncs-fabric", "epi13/mncs-fabric"),
    ("mncs-commons", "epi13/MNCS-Commons"),
    ("mncs-ingest", "epi13/mncs-ingest"),
    ("mncs-store", "epi13/mncs-store"),
    ("mncs-index", "epi13/mncs-index"),
    ("mncs-service", "epi13/mncs-service"),
    ("mncs-harness", "epi13/mncs-harness"),
    ("mncs-control-mcp", "epi13/mncs-control-mcp"),
    ("mncs-atlas", "epi13/mncs-atlas"),
    ("mncs-reference-studies", "epi13/mncs-reference-studies"),
    ("ravel", "epi13/RAVEL"),
    ("mnel", "epi13/Machine-Native-Experimental-Learning"),
    ("mncs-lineage", "epi13/mncs-lineage"),
    ("mncs-tui", "epi13/mncs-tui")]

/-- Source aliases and the project each names. -/
def sourceIdAliases : List (String × String) :=
  [("mncs-forge-mcp", "mncs-forge"), ("forge", "mncs-forge"),
    ("mncs-control", "mncs-control-mcp"), ("control", "mncs-control-mcp"),
    ("fabric", "mncs-fabric"), ("rights-provenance", "mncs-rights-provenance"),
    ("rust-validator", "mncs-validator-rs"), ("reference-studies", "mncs-reference-studies"),
    ("commons", "mncs-commons"), ("atlas", "mncs-atlas")]

/-- A resolved family identity. -/
structure ProjectIdentity where
  projectId : String
  repository : String
  submitted : String
  deriving DecidableEq

/-- The spellings of one project, in lower case. -/
def projectAliases (projectId repository : String) : List String :=
  let aliases := (sourceIdAliases.filter fun entry => entry.2 = projectId).map Prod.fst
  let name := String.ofList (repository.toList.reverse.takeWhile (· ≠ '/')).reverse
  ([projectId, repository, name] ++ aliases ++ aliases.map ("epi13/" ++ ·)).map Str.lower

/-- The spellings of one project as the tables have them. -/
def projectNames (projectId repository : String) : List String :=
  let aliases := (sourceIdAliases.filter fun entry => entry.2 = projectId).map Prod.fst
  let name := String.ofList (repository.toList.reverse.takeWhile (· ≠ '/')).reverse
  [projectId, repository, name] ++ aliases ++ aliases.map ("epi13/" ++ ·)

theorem projectAliases_eq (projectId repository : String) :
    projectAliases projectId repository = (projectNames projectId repository).map Str.lower := rfl

/-- Resolve a repository spelling or source alias to one family identity. -/
def canonicalProjectIdentity (value : String) : Py (Option ProjectIdentity) := do
  if Str.isBlank value then return none
  else
    let submitted := Str.strip value
    let fromUrl ← repositoryFromUrl submitted
    let repository := match fromUrl with
      | some repository => some repository
      | none =>
          if submitted.toList.count '/' = 1 then some (Str.removeSuffix submitted ".git") else none
    -- An empty repository is falsy and falls back to the submitted text.
    let candidate := Str.lower ((repository.filter (· ≠ "")).getD submitted)
    return (canonicalFamily.find? fun entry =>
      (projectAliases entry.1 entry.2).contains candidate).map fun entry =>
        ⟨entry.1, entry.2, submitted⟩

/-! Spellings are compared as lists of numbers where the family table is evaluated. -/

/-- The code points of a text in lower case. -/
def lowerCodes (text : Text) : List Nat := text.map fun c => c.toLower.toNat

theorem lower_eq_lower_iff {s t : String} :
    Str.lower s = Str.lower t ↔ lowerCodes s.toList = lowerCodes t.toList := by
  have hcodes : ∀ text : Text, lowerCodes text = (text.map Char.toLower).map Char.toNat := by
    intro text
    simp [lowerCodes]
  have hinj : Function.Injective (List.map Char.toNat) :=
    List.map_injective_iff.mpr fun _ _ h => Char.toNat_inj.mp h
  rw [Str.lower, Str.lower, String.ofList_inj, hcodes, hcodes, hinj.eq_iff]

theorem contains_map_lower (names : List String) (s : String) :
    (names.map Str.lower).contains (Str.lower s) =
      (names.map fun name => lowerCodes name.toList).contains (lowerCodes s.toList) := by
  rw [Bool.eq_iff_iff, List.contains_iff_mem, List.contains_iff_mem, List.mem_map, List.mem_map]
  simp only [lower_eq_lower_iff]

/-- `canonicalProjectIdentity` with its comparisons made on code points. -/
def identityByCodes (value : String) : Py (Option ProjectIdentity) := do
  if Str.isBlank value then return none
  else
    let submitted := Str.strip value
    let fromUrl ← repositoryFromUrl submitted
    let repository := match fromUrl with
      | some repository => some repository
      | none =>
          if submitted.toList.count '/' = 1 then some (Str.removeSuffix submitted ".git") else none
    let candidate := lowerCodes ((repository.filter (· ≠ "")).getD submitted).toList
    return (canonicalFamily.find? fun entry =>
      ((projectNames entry.1 entry.2).map fun name => lowerCodes name.toList).contains
        candidate).map fun entry => ⟨entry.1, entry.2, submitted⟩

theorem canonicalProjectIdentity_eq_byCodes :
    canonicalProjectIdentity = identityByCodes := by
  funext value
  simp only [canonicalProjectIdentity, identityByCodes, projectAliases_eq, contains_map_lower]

theorem canonicalFamily_resolved :
    (canonicalFamily.all fun entry => decide
      (canonicalProjectIdentity entry.2 = .ok (some ⟨entry.1, entry.2, entry.2⟩))) = true := by
  rw [canonicalProjectIdentity_eq_byCodes]
  simp only [identityByCodes, projectNames, repositoryFromUrl, Str.isBlank, Str.strip,
    Str.removeSuffix, Str.endsWith, ← quickChars_eq]
  decide +kernel

/-- The repository of a member of the family is a spelling of itself. -/
theorem canonicalProjectIdentity_of_mem {entry : String × String} (h : entry ∈ canonicalFamily) :
    canonicalProjectIdentity entry.2 = .ok (some ⟨entry.1, entry.2, entry.2⟩) :=
  of_decide_eq_true (List.all_eq_true.mp canonicalFamily_resolved entry h)

@[simp]
theorem canonicalProjectIdentity_strip (value : String) :
    canonicalProjectIdentity (Str.strip value) = canonicalProjectIdentity value := by
  rw [canonicalProjectIdentity, canonicalProjectIdentity, Str.isBlank_strip, Str.strip_strip]

theorem mem_family_of_identity {value : String} {identity : ProjectIdentity}
    (h : canonicalProjectIdentity value = .ok (some identity)) :
    (identity.projectId, identity.repository) ∈ canonicalFamily := by
  rw [canonicalProjectIdentity] at h
  split at h
  · cases h
  · obtain ⟨_, -, h⟩ := Py.bind_eq_ok_iff.mp h
    obtain ⟨entry, hentry, hidentity⟩ := Option.map_eq_some_iff.mp (Except.ok.inj h)
    rw [← hidentity]
    exact List.mem_of_find?_eq_some hentry

/-! ## Key order -/

@[simp]
theorem sortKeys_eq_bool {value : Json} {b : Bool} :
    value.sortKeys = .bool b ↔ value = .bool b := by
  cases value <;> simp

@[simp]
theorem validateLaneRequest_sortKeys (details : Fields) :
    validateLaneRequest (Fields.sortKeys details) = validateLaneRequest details := by
  have hforbidden : ∀ lane : WorkLane,
      (((Fields.get details "forbiddenWriteScope").arr?.map (List.map Json.sortKeys)).getD []).any
          (fun item => !item.str?.any ((mustNotModify lane).contains ·)) =
        ((Fields.get details "forbiddenWriteScope").arr?.getD []).any
          fun item => !item.str?.any ((mustNotModify lane).contains ·) := by
    intro lane
    cases (Fields.get details "forbiddenWriteScope").arr? <;> simp [Function.comp_def]
  simp only [validateLaneRequest, Fields.get_sortKeys, sortKeys_eq_bool, Json.arr?_sortKeys,
    hforbidden]
  cases Fields.get details "lane" <;> simp [Json.str?]

end MncsCommons.Protocol
