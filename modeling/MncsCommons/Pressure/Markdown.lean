/-
# Legacy pressure ledgers

What the importer reads off a Markdown file: the pressure entries, one for each
heading with an identifier, and of each entry its sections, labelled paragraphs,
status, severity and fallback language.  Nothing is interpreted.

Lower case, words and digits are those of Unicode, which the host has tables of.
-/

import MncsCommons.Data.Regex
import MncsCommons.Pressure.Documents

namespace MncsCommons.Pressure

open MncsCommons.Data MncsCommons.Protocol

/-- The tables of Unicode. -/
structure Unicode where
  lower : String → String
  isWord : Char → Bool
  isDigit : Char → Bool

/-- A character of `[A-Z]` when case is ignored. -/
def isLetter (c : Char) : Bool :=
  c.isAlpha || [0x130, 0x131, 0x17F, 0x212A].contains c.toNat

/-- A character of `[A-Z0-9]` when case is ignored. -/
def isLetterOrDigit (c : Char) : Bool := isLetter c || c.isDigit

/-- `.` -/
def lineChar : Pattern := .char fun c => c ≠ '\n'

/-! ## Patterns -/

/-- A heading with at most as many marks: `^#{1,most}\s+(.+?)\s*$`. -/
def headingPattern (most : Nat) : Pattern :=
  .sequence [.lineStart, .between 1 (most - 1) (.among "#"), .oneOrMore .space,
    .group (.oneOrMoreLazy lineChar), .many .space, .lineEnd]

/-- `_LEGACY_ID_RE`. -/
def legacyIdPattern (unicode : Unicode) : Pattern :=
  .sequence [.wordEdge, .char isLetter, .many (.char isLetterOrDigit),
    .many (.seq (.among "-") (.oneOrMore (.char isLetterOrDigit))),
    .among "-", .oneOrMore (.char unicode.isDigit), .wordEdge]

/-- `\s*[—:-]?\s*`. -/
def separatorPattern : Pattern :=
  .sequence [.many .space, .optional (.among "—:-"), .many .space]

/-- The identifier at the start of a heading. -/
def leadingIdPattern (legacyId : String) : Pattern :=
  .sequence [.textStart, .optional (.sequence [.caseless "pressure", .oneOrMore .space,
    .caseless "finding", .oneOrMore .space]), .caseless legacyId, separatorPattern]

/-- The identifier anywhere in a heading. -/
def innerIdPattern (legacyId : String) : Pattern :=
  .sequence [.wordEdge, .caseless legacyId, .wordEdge, separatorPattern]

/-- `^\s*(?:[-*]\s*)?label\s*:\s*`. -/
def fieldPattern (label : String) : Pattern :=
  .sequence [.lineStart, .many .space, .optional (.seq (.among "-*") (.many .space)),
    .caseless label, .many .space, .among ":", .many .space]

/-- `^label(?:\s*\([^\n)]*\))?\s*:\s*`. -/
def labelPattern (label : String) : Pattern :=
  .sequence [.lineStart, .caseless label,
    .optional (.sequence [.many .space, .among "(", .many (.noneOf "\n)"), .among ")"]),
    .many .space, .among ":", .many .space]

/-- The start of the next label or heading. -/
def boundaryPattern : Pattern :=
  .seq .lineStart (.either
    (.sequence [.char fun c => 'A' ≤ c && c ≤ 'Z',
      .between 2 78 (.char fun c => c.isAlphanum || " /()._-".toList.contains c), .among ":"])
    (.seq (.between 1 2 (.among "#")) (.oneOrMore .space)))

/-- What may name a fallback language, with the text after it. -/
def fallbackPattern : Pattern :=
  .seq
    (.oneOf [.caseless "workaround", .caseless "fallback",
      .sequence [.caseless "host", .among "- ", .either (.caseless "side") (.caseless "language")],
      .caseless "implemented outside", .caseless "implemented in"])
    (.atMost 500 (.char fun _ => true))

/-- A word by itself. -/
def wordPattern (word : Pattern) : Pattern := .sequence [.wordEdge, word, .wordEdge]

/-! ## Entries -/

variable (unicode : Unicode)

/-- `str.strip`. -/
def stripText (text : Text) : Text := stripChars isSpace text

def lowerText (text : Text) : Text := (unicode.lower (String.ofList text)).toList

/-- An entry of a ledger. -/
structure LegacyEntry where
  legacyId : String
  title : String
  text : Text

/-- A heading with an identifier, and where it starts. -/
structure LegacyHeading where
  legacyId : String
  heading : Text
  start : Nat

/-- The headings with an identifier. -/
def legacyHeadings (text : Text) : List LegacyHeading :=
  ((headingPattern 3).findAll unicode.isWord text).filterMap fun found =>
    let heading := stripText found.inner
    match (legacyIdPattern unicode).search unicode.isWord heading with
    | none => none
    | some identifier =>
        if ["stage-0".toList, "stage-1".toList].contains (lowerText unicode identifier.whole) then
          none
        else some ⟨String.ofList identifier.whole, heading, found.first⟩

/-- The title that is left of a heading. -/
def legacyTitle (heading : LegacyHeading) : Text :=
  let title := stripText
    ((leadingIdPattern heading.legacyId).removeAll unicode.isWord heading.heading)
  if title = heading.heading then
    stripText ((innerIdPattern heading.legacyId).removeAll unicode.isWord heading.heading)
  else title

/-- The entries of headings, each up to the next one. -/
def entriesBetween (text : Text) : List LegacyHeading → List LegacyEntry
  | [] => []
  | heading :: headings =>
      let next := (headings.head?.map LegacyHeading.start).getD text.length
      let title := legacyTitle unicode heading
      ⟨heading.legacyId, if title = [] then heading.legacyId else String.ofList title,
        stripText (text.slice heading.start next)⟩ :: entriesBetween text headings

/-- `_legacy_entries`. -/
def legacyEntries (text : Text) : List LegacyEntry :=
  entriesBetween unicode text (legacyHeadings unicode text)

/-! ## Parts of an entry -/

/-- The sections of matched headings, each up to the next one. -/
def sectionsBetween (text : Text) : List Match → List (String × Text)
  | [] => []
  | found :: others =>
      let next := (others.head?.map Match.first).getD text.length
      (String.ofList (lowerText unicode (stripText found.inner)),
        stripText (text.slice found.last next)) :: sectionsBetween text others

/-- `_load_legacy_sections`; of two sections with one heading the later one counts. -/
def loadLegacySections (text : Text) : List (String × Text) :=
  Fields.update []
    (sectionsBetween unicode text ((headingPattern 2).findAll unicode.isWord text))

/-- `sections.get(heading, "")`. -/
def sectionText (sections : List (String × Text)) (heading : String) : Text :=
  (Fields.get? sections heading).getD []

/-- `_legacy_status`. -/
def legacyStatus (text : Text) : Option Text :=
  ((Pattern.sequence [fieldPattern "status", .group (.oneOrMoreLazy lineChar), .many .space,
    .lineEnd]).search unicode.isWord text).map fun found => stripText found.inner

/-- `_legacy_labeled`. -/
def legacyLabeled (text : Text) (label : String) : Text :=
  match (labelPattern label).search unicode.isWord text with
  | none => []
  | some found =>
      let rest := text.drop found.last
      match boundaryPattern.search unicode.isWord rest with
      | none => stripText rest
      | some boundary => stripText (rest.take boundary.first)

/-- Whether a text contains another. -/
def containsText (text part : Text) : Bool := text.tails.any (part.isPrefixOf ·)

/-- `_legacy_domain`. -/
def legacyDomain (title filename : String) : String :=
  let haystack := lowerText unicode (title ++ " " ++ filename).toList
  match [("filesystem", "io.filesystem"), ("file", "io.filesystem"), ("effect", "effects"),
      ("backend", "backend"), ("generic", "type-system.generics"),
      ("record", "type-system.records"), ("view", "type-system.views"),
      ("hash", "integrity.hashing"), ("identity", "identity"),
      ("iteration", "control-flow.iteration")].find? fun entry =>
        containsText haystack entry.1.toList with
  | some entry => entry.2
  | none => "language-semantics"

/-- `_slug`. -/
def slug (value : String) : String :=
  let isKept := fun c : Char => c.isLower || c.isDigit
  let replaced := (lowerText unicode value.toList).splitBy fun c d => isKept c == isKept d
  let joined := replaced.flatMap fun part => if part.all isKept then part else ['-']
  let stripped := stripChars (· = '-') joined
  if stripped = [] then "unknown" else String.ofList stripped

/-- `_legacy_capability`. -/
def legacyCapability (legacyId : String) : String := "legacy." ++ slug unicode legacyId

/-- `_legacy_severity`. -/
def legacySeverity (text : Text) : String :=
  let value := match (Pattern.seq (fieldPattern "severity")
      (.group (.oneOrMore (.char fun c => !isSpace c && c ≠ '#' && c ≠ '(')))).search
        unicode.isWord text with
    | some found => String.ofList (lowerText unicode found.inner)
    | none => ""
  if ["blocker", "blocking", "critical"].contains value then value
  else if ["major", "high"].contains value then "major"
  else if ["moderate", "medium"].contains value then "moderate"
  else if ["minor", "low"].contains value then "minor"
  else if ((wordPattern (.caseless "blocker")).search unicode.isWord text).isSome then "blocker"
  else "major"

/-- `_legacy_fallback_language`. -/
def legacyFallbackLanguage (text : Text) : Option String :=
  let relevant := (fallbackPattern.findAll unicode.isWord text).map Match.whole
  let joined := lowerText unicode (List.intercalate ['\n'] relevant)
  if ((wordPattern (.literal "python")).search unicode.isWord joined).isSome then some "python"
  else if ((wordPattern (.literal "rust")).search unicode.isWord joined).isSome then some "rust"
  else none

end MncsCommons.Pressure
