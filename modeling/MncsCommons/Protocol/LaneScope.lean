/-
# The scope of a lane

A safe lane writes inside the repository it is assigned, where its patterns match,
and leaves the shared core alone.  `scopeDecision` matches a path as it is written.
What is shown: a path that is spelled without dot segments is confined exactly where
none of the lane's forbidden patterns matches it, and a path with dot segments may
lead anywhere.
-/

import MncsCommons.Data.Glob
import MncsCommons.Data.Paths
import MncsCommons.Protocol.Lanes

namespace MncsCommons.Protocol

open MncsCommons.Data

/-! ## The decision -/

/-- `LanePolicy.as_dict`. -/
def lanePolicyDict (lane : WorkLane) : Fields :=
  let strings (texts : List String) : Json := .arr (texts.map .str)
  [("lane", .str lane.value), ("read", strings ["mncs-family/**"]),
    ("write", strings (writeScope lane)),
    ("mayPublish", strings ["observations", "findings", "work_requests", "blockers", "handoffs"]),
    ("mustNotModify", strings (mustNotModify lane)),
    ("exclusive", .bool (decide (lane = .sharedCore)))]

/-- `str.strip("/")`. -/
def stripSlashes (text : Text) : Text := stripChars (· = '/') text

/-- A path without the spaces and slashes around it. -/
def normalizedPath (path : String) : Text := stripSlashes (Str.strip path).toList

/-- A pattern of an assigned repository. -/
def assignedPattern (repository : Text) (pattern : String) : String :=
  String.ofList (replaceFrom "assigned_repo/".toList (repository ++ ['/']) 0 pattern.toList)

/-- Whether one of the patterns, in the assigned repository, matches the path. -/
def matchedBy (repository : Text) (patterns : List String) (path : Text) : Bool :=
  patterns.any fun pattern => fnmatchcase (String.ofList path) (assignedPattern repository pattern)

/-- A decision that carries its policy. -/
def decided (lane : WorkLane) (path : Text) (allowed : Bool) (code : String) : Fields :=
  [("allowed", .bool allowed), ("code", .str code), ("lane", .str lane.value),
    ("path", .str (String.ofList path)), ("policy", .obj (lanePolicyDict lane)),
    ("authority", .str "policy hint; repository/Harness authorization remains external")]

/-- `scope_decision`. -/
def scopeDecision (lane path : String) (assignedRepository : Option String)
    (allowedWriteScope : Option (List String)) : Py Fields :=
  match WorkLane.ofString? lane with
  | none => .error (.valueError ("unsupported work lane: " ++ lane))
  | some policy =>
      let normalized := normalizedPath path
      let repository := stripSlashes (assignedRepository.getD "").toList
      let patterns := allowedWriteScope.getD (writeScope policy)
      let verdict (allowed : Bool) : Fields :=
        decided policy normalized allowed (if allowed then "SCOPE_ALLOWED" else "SCOPE_DENIED")
      if normalized = [] ∨ Char.ofNat 0 ∈ normalized then
        .ok [("allowed", .bool false), ("code", .str "SCOPE_INVALID"), ("lane", .str lane),
          ("path", .str path)]
      else if policy = .sharedCore then
        .ok (verdict (patterns.any (fnmatchcase (String.ofList normalized))))
      else if repository = [] then
        .ok (decided policy normalized false "SCOPE_REPOSITORY_REQUIRED")
      else
        .ok (verdict (matchedBy repository patterns normalized &&
          matchedBy repository (writeScope policy) normalized))

/-! ## Confinement -/

/-- The patterns of paths among what the lane must leave alone. -/
def forbiddenPaths (lane : WorkLane) : List String :=
  (mustNotModify lane).filter (Str.endsWith · "/**")

/-- Where a path leads, its dot segments followed. -/
def resolvedSegments (path : Text) : List Text := Path.resolve (Path.segments path)

/-- A path is confined when it leads into the assigned repository, to a place that
the lane writes and the given scope has, and that the lane need not leave alone. -/
structure Confined (lane : WorkLane) (repository : Text) (scope : Option (List String))
    (path : Text) : Prop where
  inside : ∃ rest ≠ [], resolvedSegments path = resolvedSegments repository ++ rest
  written : matchedBy repository (writeScope lane) (Path.ofSegments (resolvedSegments path)) = true
  scope : ∀ patterns ∈ scope,
    matchedBy repository patterns (Path.ofSegments (resolvedSegments path)) = true
  free : ∀ pattern ∈ forbiddenPaths lane,
    fnmatchcase (String.ofList (Path.ofSegments (resolvedSegments path))) pattern = false

/-- The decision lets the path through. -/
def Allowed (lane : WorkLane) (path : String) (repository : String)
    (scope : Option (List String)) : Prop :=
  ∃ decision, scopeDecision lane.value path (some repository) scope = .ok decision ∧
    Fields.get decision "allowed" = .bool true

/-- No segment of the path is empty or made of dots. -/
def SpelledOut (path : Text) : Prop := ∀ segment ∈ Path.segments path, Path.IsPlain segment

theorem ofString?_value (lane : WorkLane) : WorkLane.ofString? lane.value = some lane := by
  cases lane <;> decide

/-- What lets a path through a safe lane: patterns of the scope and of the lane. -/
theorem matchedBy_of_allowed {lane : WorkLane} (hlane : lane ≠ .sharedCore)
    {path repository : String} {scope : Option (List String)}
    (h : Allowed lane path repository scope) :
    matchedBy (stripSlashes repository.toList) (scope.getD (writeScope lane))
        (normalizedPath path) = true ∧
      matchedBy (stripSlashes repository.toList) (writeScope lane) (normalizedPath path) = true := by
  obtain ⟨decision, hdecision, hallowed⟩ := h
  simp only [scopeDecision, ofString?_value, Option.getD_some, if_neg hlane] at hdecision
  split at hdecision
  · obtain rfl := Except.ok.inj hdecision
    cases hallowed
  · split at hdecision
    · obtain rfl := Except.ok.inj hdecision
      cases hallowed
    · obtain rfl := Except.ok.inj hdecision
      exact Bool.and_eq_true_iff.mp (Json.bool.inj hallowed)

theorem mem_of_mem_stripSlashes {c : Char} {text : Text} (h : c ∈ stripSlashes text) : c ∈ text :=
  (List.dropWhile_sublist _).subset
    (List.mem_reverse.mp ((List.dropWhile_sublist _).subset (List.mem_reverse.mp h)))

theorem exists_tail_of_mem_writeScope {lane : WorkLane} (hlane : lane ≠ .sharedCore) :
    ∀ pattern ∈ writeScope lane, ∃ tail, pattern.toList = "assigned_repo/".toList ++ tail := by
  have hstart : ∀ pattern ∈ writeScope lane,
      "assigned_repo/".toList.isPrefixOf pattern.toList = true := by
    cases lane <;> first | exact absurd rfl hlane | decide
  intro pattern hpattern
  obtain ⟨tail, htail⟩ := List.isPrefixOf_iff_prefix.mp (hstart pattern hpattern)
  exact ⟨tail, htail.symm⟩

/-- A path that a safe lane writes begins with the assigned repository. -/
theorem exists_append_of_matchedBy {lane : WorkLane} (hlane : lane ≠ .sharedCore)
    {repository path : Text} (hliteral : IsLiteral repository)
    (h : matchedBy repository (writeScope lane) path = true) :
    ∃ rest, path = repository ++ '/' :: rest := by
  obtain ⟨pattern, hpattern, hmatch⟩ := List.any_eq_true.mp h
  obtain ⟨tail, htail⟩ := exists_tail_of_mem_writeScope hlane pattern hpattern
  rw [assignedPattern, htail, replaceFrom_append (by decide), String.ofList_append] at hmatch
  have hstart : IsLiteral (String.ofList (repository ++ ['/'])).toList := by
    rw [String.toList_ofList]
    intro c hc
    rcases List.mem_append.mp hc with hc | hc
    · exact hliteral c hc
    · rw [List.mem_singleton.mp hc]
      decide
  obtain ⟨rest, hrest⟩ := exists_append_of_fnmatchcase hstart hmatch
  rw [String.toList_ofList, String.toList_ofList, List.append_assoc] at hrest
  exact ⟨rest, hrest⟩

/-- A path spelled without dot segments leads where it says. -/
theorem resolvedSegments_of_spelledOut {path : Text} (h : SpelledOut path) :
    resolvedSegments path = Path.segments path :=
  Path.resolve_of_plain h

/-- An allowed path that is spelled without empty or dot segments is confined
exactly where no pattern that the lane must leave alone matches it. -/
theorem scope_is_confined_iff {lane : WorkLane} (hlane : lane ≠ .sharedCore)
    {repository path : String} (hliteral : IsLiteral repository.toList)
    {scope : Option (List String)} (hallowed : Allowed lane path repository scope)
    (hspelled : SpelledOut (normalizedPath path)) :
    Confined lane (stripSlashes repository.toList) scope (normalizedPath path) ↔
      ∀ pattern ∈ forbiddenPaths lane,
        fnmatchcase (String.ofList (normalizedPath path)) pattern = false := by
  have hpath : Path.ofSegments (resolvedSegments (normalizedPath path)) = normalizedPath path := by
    rw [resolvedSegments_of_spelledOut hspelled, Path.ofSegments_segments]
  constructor
  · intro hconfined pattern hpattern
    have hfree := hconfined.free pattern hpattern
    rwa [hpath] at hfree
  · intro hfree
    obtain ⟨hscope, hwritten⟩ := matchedBy_of_allowed hlane hallowed
    have hstripped : IsLiteral (stripSlashes repository.toList) :=
      fun c hc => hliteral c (mem_of_mem_stripSlashes hc)
    obtain ⟨rest, hrest⟩ := exists_append_of_matchedBy hlane hstripped hwritten
    have hsegments : Path.segments (normalizedPath path) =
        Path.segments (stripSlashes repository.toList) ++ Path.segments rest := by
      rw [hrest, Path.segments_append]
    have hrepository : SpelledOut (stripSlashes repository.toList) := by
      intro segment hsegment
      exact hspelled segment (hsegments ▸ List.mem_append_left _ hsegment)
    refine ⟨⟨Path.segments rest, Path.segments_ne_nil rest, ?_⟩, ?_, fun patterns hpatterns => ?_,
      fun pattern hpattern => ?_⟩
    · rw [resolvedSegments_of_spelledOut hspelled, resolvedSegments_of_spelledOut hrepository,
        hsegments]
    · rw [hpath, hwritten]
    · rw [hpath]
      obtain rfl := Option.mem_def.mp hpatterns
      exact hscope
    · rw [hpath, hfree pattern hpattern]

/-- A test of an assigned repository. -/
theorem test_path_is_confined :
    Confined .verification (stripSlashes "mncs-tui".toList) none
      (normalizedPath "mncs-tui/tests/test_layout.py") := by
  apply (scope_is_confined_iff (by decide +kernel) (by decide +kernel) ⟨_, rfl, by decide +kernel⟩
    (by unfold SpelledOut; decide)).mpr
  decide

/-- Documentation work reaches the compiler of another repository through dot
segments, and local work reaches it in the language repository itself. -/
theorem allowed_path_is_not_confined :
    (Allowed .documentation "mncs-tui/docs/../../mncs-language/compiler/parser.mncs" "mncs-tui"
        none ∧
      ¬ Confined .documentation (stripSlashes "mncs-tui".toList) none
        (normalizedPath "mncs-tui/docs/../../mncs-language/compiler/parser.mncs")) ∧
    Allowed .repoLocal "mncs-language/compiler/parser.mncs" "mncs-language" none ∧
      ¬ Confined .repoLocal (stripSlashes "mncs-language".toList) none
        (normalizedPath "mncs-language/compiler/parser.mncs") := by
  refine ⟨⟨⟨_, rfl, by decide +kernel⟩, fun h => ?_⟩, ⟨_, rfl, by decide +kernel⟩, fun h => ?_⟩
  · exact absurd h.written (by decide +kernel)
  · exact absurd (h.free "mncs-language/compiler/**" (by decide)) (by decide +kernel)

end MncsCommons.Protocol
