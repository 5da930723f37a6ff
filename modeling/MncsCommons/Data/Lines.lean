/-
# The lines of a document

A text as lines, with the place where each starts, and which of them are fenced code:
a fence is at least three backticks or tildes, indented by at most three spaces, and
code goes on up to a fence of the same mark that is at least as long, or to the end.
-/

import MncsCommons.Data.Python

namespace MncsCommons.Data

/-! ## Parts of a text -/

theorem Str.splitChar_ne_nil (separator : Char) (text : Text) :
    Str.splitChar separator text ≠ [] := by
  cases text with
  | nil => simp [Str.splitChar]
  | cons c rest =>
      rw [Str.splitChar]
      split
      · simp
      · split <;> simp

/-- The parts of a text, put together. -/
theorem Str.intercalate_splitChar (separator : Char) (text : Text) :
    List.intercalate [separator] (Str.splitChar separator text) = text := by
  induction text with
  | nil => rfl
  | cons c rest ih =>
      rw [Str.splitChar]
      cases hparts : Str.splitChar separator rest with
      | nil => exact absurd hparts (Str.splitChar_ne_nil separator rest)
      | cons part parts =>
          rw [hparts] at ih
          split
          · rename_i hsame
            rw [List.intercalate_cons_cons, ih, hsame]
            rfl
          · dsimp only
            rw [← ih]
            cases parts <;> simp [List.intercalate_cons_cons]

theorem Str.not_mem_of_mem_splitChar {separator : Char} {text part : Text}
    (h : part ∈ Str.splitChar separator text) : separator ∉ part := by
  induction text generalizing part with
  | nil =>
      rw [List.mem_singleton.mp h]
      exact List.not_mem_nil
  | cons c rest ih =>
      rw [Str.splitChar] at h
      cases hparts : Str.splitChar separator rest with
      | nil => exact absurd hparts (Str.splitChar_ne_nil separator rest)
      | cons first parts =>
          rw [hparts] at h ih
          split at h
          · obtain rfl | hmem := List.mem_cons.mp h
            · exact List.not_mem_nil
            · exact ih hmem
          · rename_i hother
            obtain rfl | hmem := List.mem_cons.mp h
            · rw [List.mem_cons, not_or]
              exact ⟨Ne.symm hother, ih List.mem_cons_self⟩
            · exact ih (List.mem_cons_of_mem _ hmem)

/-- What passes a test up to a character that does not is determined. -/
theorem append_cons_inj {test : Char → Bool} {first other rest more : Text} {c d : Char}
    (hfirst : ∀ x ∈ first, test x = true) (hother : ∀ x ∈ other, test x = true)
    (hc : test c = false) (hd : test d = false) (h : first ++ c :: rest = other ++ d :: more) :
    first = other ∧ c = d ∧ rest = more := by
  induction first generalizing other with
  | nil =>
      cases other with
      | nil => exact ⟨rfl, List.cons.inj h⟩
      | cons x other =>
          obtain ⟨rfl, -⟩ := List.cons.inj h
          rw [hother c List.mem_cons_self] at hc
          cases hc
  | cons x first ih =>
      obtain ⟨hx, hfirst⟩ := List.forall_mem_cons.mp hfirst
      cases other with
      | nil =>
          obtain ⟨rfl, -⟩ := List.cons.inj h
          rw [hx] at hd
          cases hd
      | cons y other =>
          obtain ⟨rfl, hrest⟩ := List.cons.inj h
          obtain ⟨rfl, heq⟩ := ih hfirst (List.forall_mem_cons.mp hother).2 hrest
          exact ⟨rfl, heq⟩

/-! ## Fenced code -/

/-- A fence that is open. -/
structure Fence where
  mark : Char
  length : Nat

def backtick : Char := Char.ofNat 96

/-- The fence that a line opens; after backticks no other backtick may follow. -/
def openFence (line : Text) : Option Fence :=
  let rest := line.dropWhile (· = ' ')
  match rest with
  | [] => none
  | mark :: _ =>
      let length := (rest.takeWhile (· = mark)).length
      if line.length - rest.length ≤ 3 ∧ 3 ≤ length ∧
          (mark = '~' ∨ mark = backtick ∧ backtick ∉ rest.dropWhile (· = backtick)) then
        some ⟨mark, length⟩
      else none

/-- Whether a line closes the fence. -/
def Fence.isClosedBy (fence : Fence) (line : Text) : Bool :=
  let rest := line.dropWhile (· = ' ')
  decide (line.length - rest.length ≤ 3 ∧
      fence.length ≤ (rest.takeWhile (· = fence.mark)).length) &&
    (rest.dropWhile (· = fence.mark)).all fun c => c = ' ' || c = '\t'

/-- The fence that is open after a line. -/
def nextFence (fence : Option Fence) (line : Text) : Option Fence :=
  match fence with
  | none => openFence line
  | some fence => if fence.isClosedBy line then none else some fence

/-! ## Lines -/

/-- A line of a document; the fences of code are code. -/
structure Line where
  start : Nat
  text : Text
  isCode : Bool
  deriving DecidableEq

/-- The lines from a place on, with the fence that is open there. -/
def linesFrom : Nat → Option Fence → List Text → List Line
  | _, _, [] => []
  | start, fence, line :: lines =>
      ⟨start, line, fence.isSome || (openFence line).isSome⟩ ::
        linesFrom (start + line.length + 1) (nextFence fence line) lines

/-- The lines of a document. -/
def documentLines (text : Text) : List Line := linesFrom 0 none (Str.splitChar '\n' text)

/-- Lines start one after the other. -/
theorem le_start_of_mem_linesFrom {start : Nat} {fence : Option Fence} {lines : List Text}
    {line : Line} (h : line ∈ linesFrom start fence lines) : start ≤ line.start := by
  induction lines generalizing start fence with
  | nil => cases h
  | cons text lines ih =>
      rw [linesFrom] at h
      obtain rfl | hmem := List.mem_cons.mp h
      · exact le_rfl
      · have hlater := ih hmem
        omega

theorem pairwise_linesFrom (start : Nat) (fence : Option Fence) (lines : List Text) :
    (linesFrom start fence lines).Pairwise fun first second => first.start < second.start := by
  induction lines generalizing start fence with
  | nil => exact .nil
  | cons text lines ih =>
      refine .cons (fun line hline => ?_) (ih _ _)
      have hlater := le_start_of_mem_linesFrom hline
      change start < line.start
      omega

/-- The text of a document goes on at each line. -/
theorem exists_drop_of_mem_linesFrom {start : Nat} {fence : Option Fence} {lines : List Text}
    {line : Line} (h : line ∈ linesFrom start fence lines) :
    ∃ before after, List.intercalate ['\n'] lines = before ++ (line.text ++ after) ∧
      line.start = start + before.length := by
  induction lines generalizing start fence with
  | nil => cases h
  | cons text lines ih =>
      rw [linesFrom] at h
      obtain rfl | hmem := List.mem_cons.mp h
      · cases lines with
        | nil => exact ⟨[], [], by simp, rfl⟩
        | cons next lines =>
            refine ⟨[], '\n' :: List.intercalate ['\n'] (next :: lines), ?_, rfl⟩
            rw [List.intercalate_cons_cons]
            simp
      · obtain ⟨before, after, hsplit, hstart⟩ := ih hmem
        cases lines with
        | nil => cases hmem
        | cons next lines =>
            refine ⟨text ++ '\n' :: before, after, ?_, ?_⟩
            · rw [List.intercalate_cons_cons, hsplit]
              simp
            · rw [hstart, List.length_append, List.length_cons]
              omega

example : (documentLines "a\n```\nb\n```\nc".toList).map Line.isCode =
    [false, true, true, true, false] := by
  decide +kernel

end MncsCommons.Data
