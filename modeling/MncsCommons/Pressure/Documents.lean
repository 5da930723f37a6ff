/-
# Pressure documents

The vocabularies of the exchange, the identities derived from content, and the
checks on the values a caller passes.  The id of a pressure is derived from its
stable identity fields, the ids of observations and events from their whole
content, and every document carries the digest of the rest of it.
-/

import MncsCommons.Pressure.Projection
import MncsCommons.Protocol.Canonical

namespace MncsCommons.Pressure

open MncsCommons.Data MncsCommons.Protocol

/-! ## Vocabularies -/

def pressureSchema : String := "commons.mncs.dev/family-pressure/v1"
def observationSchema : String := "commons.mncs.dev/family-pressure-observation/v1"
def eventSchema : String := "commons.mncs.dev/family-pressure-event/v1"
def repositorySchema : String := "commons.mncs.dev/family-repository/v1"
def pressureVersion : String := "1"

/-- The targets and the prefix of the ids of each. -/
def prefixes : List (String × String) :=
  [("language", "LANG"), ("compiler", "COMPILER"), ("runtime", "RUNTIME"), ("library", "LIB"),
    ("tooling", "TOOLING"), ("backend", "BACKEND"), ("verification", "VERIFY"),
    ("profile", "PROFILE"), ("ecosystem", "ECO")]

def targets : List String := Fields.keys prefixes

def severities : List String := ["blocker", "blocking", "critical", "major", "moderate", "minor"]

def evidenceStatuses : List String := ["PASS", "FAIL", "UNKNOWN"]

def relationKinds : List String :=
  ["duplicate_of", "duplicate_candidate", "same_root_cause", "related_to", "parent_of", "child_of",
    "blocked_by", "supersedes", "implements", "reframes"]

/-! ## Shapes of identities -/

/-- A character of `[A-F0-9]`. -/
def isUpperHex (c : Char) : Bool := c.isDigit || ('A' ≤ c && c ≤ 'F')

/-- A character of `[A-Z0-9]`. -/
def isUpperAlnum (c : Char) : Bool := c.isDigit || ('A' ≤ c && c ≤ 'Z')

/-- Twelve upper-case hexadecimal digits. -/
def isShortHash (text : Text) : Bool := text.length == 12 && text.all isUpperHex

/-- `MNCS-[A-Z0-9]+-[A-F0-9]{12}`. -/
def isPressureId (text : String) : Bool :=
  match Str.splitChar '-' text.toList with
  | [scheme, area, hash] =>
      scheme == ['M', 'N', 'C', 'S'] && !area.isEmpty && area.all isUpperAlnum && isShortHash hash
  | _ => false

/-- `MNCS-[A-Z0-9]+-[A-F0-9]{12}--OBS-[A-F0-9]{12}`. -/
def isObservationId (text : String) : Bool :=
  match Str.splitChar '-' text.toList with
  | [scheme, area, hash, [], mark, observation] =>
      scheme == ['M', 'N', 'C', 'S'] && !area.isEmpty && area.all isUpperAlnum &&
        isShortHash hash && mark == ['O', 'B', 'S'] && isShortHash observation
  | _ => false

/-- At most 180 letters, digits and characters of `_ . : / -`. -/
def isAlias (text : String) : Bool :=
  decide (1 ≤ text.length ∧ text.length ≤ 180) &&
    text.toList.all fun c => c.isAlphanum || ['_', '.', ':', '/', '-'].contains c

example : isPressureId "MNCS-LANG-0123456789AB" = true ∧
    isPressureId "MNCS-LANG-0123456789ab" = false := by
  decide +kernel

/-! ## Derived identities -/

/-- The first digits of the hash of a document, in upper case. -/
def shortHash (digits : Nat) (document : Fields) : String :=
  Str.upper (String.ofList ((sha256Hex (canonicalJson (.obj document))).take digits))

/-- `_hash_document`. -/
def hashDocument (document : Fields) : String := digestOfText (canonicalJson (.obj document))

/-! The identities by the quick encoding and the quick hash. -/

theorem shortHash_eq_quick (digits : Nat) (document : Fields) :
    shortHash digits document =
      Str.upper (String.ofList
        ((quickHash (quickDumps (canonicalize [] (.obj document)))).take digits)) := by
  rw [shortHash, canonicalJson, sha256Hex_eq_quickHash, dumps_eq_quickDumps]

theorem hashDocument_eq_quick (document : Fields) :
    hashDocument document =
      "sha256:" ++ String.ofList (quickHash (quickDumps (canonicalize [] (.obj document)))) := by
  rw [hashDocument, digestOfText, canonicalJson, sha256Hex_eq_quickHash, dumps_eq_quickDumps]

/-- The document with the digest of its other members. -/
def withDigest (document : Fields) : Fields :=
  Fields.set document "contentDigest" (.str (hashDocument (Fields.erase document "contentDigest")))

/-- `pressure_id`. -/
def pressureId (target domain capability signature : String) : Py String :=
  match Fields.get? prefixes target with
  | none => .error (.valueError ("unknown pressure target: " ++ target))
  | some area => .ok ("MNCS-" ++ area ++ "-" ++ shortHash 12
      [("target", .str target), ("domain", .str (Str.strip domain)),
        ("capability", .str (Str.strip capability)),
        ("reproducerSignature", .str (Str.strip signature))])

/-- `_observation_id`. -/
def observationId (pressure : String) (value : Fields) : String :=
  pressure ++ "--OBS-" ++ shortHash 12 value

/-- `_event_id`. -/
def eventId (value : Fields) : String := "EVT-" ++ shortHash 16 value

/-! ## Values of a caller -/

/-- `_text` of a required text. -/
def requiredText (value : Json) (field : String) (maximum : Nat) : Py String :=
  match value with
  | .str text =>
      if Str.isBlank text then .error (.valueError (field ++ " must be a non-empty string"))
      else if maximum < (Str.strip text).length then
        .error (.valueError (field ++ " exceeds " ++ toString maximum ++ " characters"))
      else .ok (Str.strip text)
  | _ => .error (.valueError (field ++ " must be a non-empty string"))

/-- `_text` of a text that is not required, where nothing counts as empty. -/
def textOrEmpty (value : Json) (field : String) (maximum : Nat) : Py String :=
  match value with
  | .str text =>
      if maximum < (Str.strip text).length then
        .error (.valueError (field ++ " exceeds " ++ toString maximum ++ " characters"))
      else .ok (Str.strip text)
  | _ => .ok ""

/-- `_list`. -/
def boundedList (value : Json) (field : String) : Py (List Json) :=
  match value with
  | .null => .ok []
  | .arr items =>
      if 256 < items.length then
        .error (.valueError (field ++ " must be a list with at most 256 entries"))
      else .ok items
  | _ => .error (.valueError (field ++ " must be a list with at most 256 entries"))

/-- `_require_repository`. -/
def requireRepository (value : Json) (field : String) : Py String := do
  match ← normalizeRepository value with
  | some repository => return repository
  | none => .error (.valueError (field ++ " is not a known MNCS family repository: " ++
      String.ofList (reprValue value)))

/-- `_sorted_unique_strings`. -/
def sortedUniqueStrings (values : List Json) : List String :=
  sortedBy id ((((values.filterMap Json.str?).filter fun text => !Str.isBlank text).map
    Str.strip).eraseDups)

/-- `_evidence_status`: whether the entry has one of the statuses. -/
def hasEvidenceStatus (entry : Fields) : Py Bool :=
  inSet (member entry "status" (Fields.get entry "verdict")) evidenceStatuses

/-- `spec.get(key, spec.get(other, default))`. -/
def eitherMember (spec : Fields) (key other : String) (default : Json) : Json :=
  member spec key (member spec other default)

end MncsCommons.Pressure
