/-
# Shell patterns

`fnmatch.fnmatchcase`: a pattern of literals, `?` for one character, `*` for any
text, separators included, and bracketed classes.  A pattern is first cut into
parts, and the parts are then matched against the text from the left.
-/

import MncsCommons.Data.Json

namespace MncsCommons.Data

/-- One part of a pattern.  A class lists the ranges it admits, or shuts out. -/
inductive GlobPart where
  | star
  | any
  | lit (c : Char)
  | range (negated : Bool) (ranges : List (Char × Char))
  deriving DecidableEq

/-! ## Classes -/

/-- The text between the brackets of a class, where a bracket closes it. -/
def classBody (rest : Text) : Option Text :=
  let start := if rest.head? = some '!' then 1 else 0
  let start := if (rest.drop start).head? = some ']' then start + 1 else start
  let body := (rest.drop start).takeWhile (· ≠ ']')
  if start + body.length < rest.length then some (rest.take start ++ body) else none

/-- Cut a class at the hyphens that make ranges.  A hyphen among the first `skip`
characters, or at the end, stands for itself. -/
def classChunks : Nat → Nat → Text → List Text
  | 0, _, body => [body]
  | fuel + 1, skip, body =>
      let chunk := body.take skip ++ (body.drop skip).takeWhile (· ≠ '-')
      match body.drop chunk.length with
      | [] => [body]
      | [_] => [chunk ++ ['-']]
      | _ :: after => chunk :: classChunks fuel 2 after

/-- Drop the ranges that are empty, from the last. -/
def mergeChunks : List Text → List Text
  | [] => []
  | chunk :: chunks =>
      match mergeChunks chunks with
      | [] => [chunk]
      | next :: more =>
          if next.headD '-' < chunk.getLastD '-' then (chunk.dropLast ++ next.tail) :: more
          else chunk :: next :: more

/-- The ranges of a class, a single character being a range of its own. -/
def classRanges (chunk : Text) : List Text → List (Char × Char)
  | [] => chunk.map fun c => (c, c)
  | next :: chunks =>
      if chunk = [] then ('-', '-') :: classRanges next chunks
      else (chunk.dropLast.map fun c => (c, c)) ++
        (chunk.getLastD '-', next.headD '-') :: classRanges next.tail chunks

/-- The part a class stands for. -/
def classPart (body : Text) : GlobPart :=
  match mergeChunks (classChunks body.length (if body.head? = some '!' then 2 else 1) body) with
  | ('!' :: chunk) :: chunks => .range true (classRanges chunk chunks)
  | chunk :: chunks => .range false (classRanges chunk chunks)
  | [] => .range false []

/-! ## Patterns -/

/-- The parts of a pattern, after the next `skip` characters. -/
def globFrom : Nat → Text → List GlobPart
  | _, [] => []
  | skip + 1, _ :: rest => globFrom skip rest
  | 0, c :: rest =>
      if c = '*' then .star :: globFrom 0 rest
      else if c = '?' then .any :: globFrom 0 rest
      else if c = '[' then
        match classBody rest with
        | none => .lit '[' :: globFrom 0 rest
        | some body => classPart body :: globFrom (body.length + 1) rest
      else .lit c :: globFrom 0 rest

/-- Whether a part admits a character. -/
def GlobPart.admits : GlobPart → Char → Bool
  | .star, _ | .any, _ => true
  | .lit c, d => c = d
  | .range negated ranges, d =>
      (ranges.any fun range => decide (range.1 ≤ d ∧ d ≤ range.2)) != negated

/-- Whether the parts match the whole of a text. -/
def globMatches : List GlobPart → Text → Bool
  | [], text => text.isEmpty
  | .star :: parts, text => text.tails.any (globMatches parts)
  | part :: parts, text =>
      match text with
      | [] => false
      | c :: rest => part.admits c && globMatches parts rest

/-- `fnmatchcase(name, pattern)`. -/
def fnmatchcase (name pattern : String) : Bool := globMatches (globFrom 0 pattern.toList) name.toList

/-! ## Literal text -/

/-- Text without the characters that a pattern reads otherwise. -/
def IsLiteral (text : Text) : Prop := ∀ c ∈ text, c ≠ '*' ∧ c ≠ '?' ∧ c ≠ '['

instance (text : Text) : Decidable (IsLiteral text) :=
  decidable_of_iff ((text.all fun c => decide (c ≠ '*' ∧ c ≠ '?' ∧ c ≠ '[')) = true)
    (by simp [IsLiteral])

theorem globFrom_append {text : Text} (h : IsLiteral text) (rest : Text) :
    globFrom 0 (text ++ rest) = text.map GlobPart.lit ++ globFrom 0 rest := by
  induction text with
  | nil => rfl
  | cons c text ih =>
      obtain ⟨hstar, hany, hclass⟩ := h c List.mem_cons_self
      rw [List.cons_append, globFrom, if_neg hstar, if_neg hany, if_neg hclass,
        ih fun d hd => h d (List.mem_cons_of_mem _ hd)]
      rfl

/-- What begins with literal parts begins with their text. -/
theorem exists_append_of_globMatches {text : Text} {parts : List GlobPart} {name : Text}
    (h : globMatches (text.map GlobPart.lit ++ parts) name = true) :
    ∃ rest, name = text ++ rest ∧ globMatches parts rest = true := by
  induction text generalizing name with
  | nil => exact ⟨name, rfl, h⟩
  | cons c text ih =>
      cases name with
      | nil => simp [globMatches] at h
      | cons d name =>
          simp only [List.map_cons, List.cons_append, globMatches, GlobPart.admits,
            Bool.and_eq_true, decide_eq_true_eq] at h
          obtain ⟨rfl, h⟩ := h
          obtain ⟨rest, rfl, hrest⟩ := ih h
          exact ⟨rest, rfl, hrest⟩

/-- A name that matches a pattern begins with the literal text the pattern begins with. -/
theorem exists_append_of_fnmatchcase {name start rest : String} (hstart : IsLiteral start.toList)
    (h : fnmatchcase name (start ++ rest) = true) : ∃ tail, name.toList = start.toList ++ tail := by
  rw [fnmatchcase, String.toList_append, globFrom_append hstart] at h
  obtain ⟨tail, htail, -⟩ := exists_append_of_globMatches h
  exact ⟨tail, htail⟩

example : fnmatchcase "tests/a.py" "tests/[!b-z]*" = true := by decide

example : fnmatchcase "x" "[b-a]" = false := by decide

end MncsCommons.Data
