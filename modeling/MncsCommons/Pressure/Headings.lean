/-
# Headings of legacy ledgers

The importer finds headings with a pattern whose spaces go past the end of a line, and
knows no fenced code.  What it finds is a scan over the lines of the document
(`legacyHeadings_eq`): a line of bare marks takes the next line that is not blank for
its heading.  So the entries are those of the headings with an identifier, and their
texts are the text cut at these headings, exactly when no fenced code and no line
after bare marks gives it an identifier, and no heading names a stage before its
identifier (`reads_headings_iff`).
-/

import MncsCommons.Data.Lines
import MncsCommons.Data.Matching
import MncsCommons.Pressure.Markdown

namespace MncsCommons.Pressure

open MncsCommons.Data MncsCommons.Protocol

/-! ## The pattern of a heading -/

theorem spells_lineChars {isWord : Char → Bool} :
    Pattern.Spells isWord (.oneOrMoreLazy lineChar)
      (Pattern.textsWith fun part => part ≠ [] ∧ '\n' ∉ part) := by
  intro cursor next
  rw [Pattern.oneOrMoreLazy, lineChar, Pattern.mem_ways_plus]
  have hline : ∀ part : Text, (∀ c ∈ part, decide (c ≠ '\n') = true) ↔ '\n' ∉ part := by
    intro part
    constructor
    · intro h hmem
      exact of_decide_eq_true (h _ hmem) rfl
    · intro h c hc
      exact decide_eq_true fun heq => h (heq ▸ hc)
  simp only [hline, Pattern.mem_textsWith, and_assoc]

/-- The marks of a heading. -/
def IsMarks (marks : Text) : Prop :=
  1 ≤ marks.length ∧ marks.length ≤ 3 ∧ ∀ c ∈ marks, c = '#'

section Ways

variable {isWord : Char → Bool} {cursor next : Cursor}

/-- What is left of a heading after its marks and spaces. -/
def headingTail : Pattern :=
  .seq (.group (.oneOrMoreLazy lineChar)) (.seq (.many .space) (.seq .lineEnd .empty))

/-- The ways to read the tail of a heading: its text, which is grouped, and spaces up to
the end of a line. -/
theorem mem_ways_headingTail :
    next ∈ Pattern.ways isWord headingTail cursor ↔
      ∃ heading gap : Text, heading ≠ [] ∧ '\n' ∉ heading ∧ (∀ c ∈ gap, isSpace c = true) ∧
        next.group = heading ∧ next.after.head?.all (· = '\n') = true ∧
          cursor.Passes (heading ++ gap) next := by
  rw [headingTail]
  simp only [Pattern.mem_ways_seq, Pattern.mem_ways_lineEnd, Pattern.mem_ways_empty]
  constructor
  · rintro ⟨middle, hmiddle, last, hlast, _, ⟨hend, rfl⟩, rfl⟩
    obtain ⟨stop, hstop, rfl⟩ := Pattern.mem_ways_group.mp hmiddle
    obtain ⟨heading, ⟨hheading, hline⟩, hreads⟩ := (spells_lineChars _ _).mp hstop
    obtain ⟨gap, hgap, hspaces⟩ := Pattern.mem_ways_star.mp hlast
    refine ⟨heading, gap, hheading, hline, hgap, ?_, hend, ?_⟩
    · rw [hspaces.group]
      exact Pattern.group_of_reads hreads
    · exact hreads.toPasses.trans ⟨hspaces.after, hspaces.before⟩
  · rintro ⟨heading, gap, hheading, hline, hgap, hgroup, hend, hpasses⟩
    have hreads : cursor.Reads heading
        ⟨heading.reverse ++ cursor.before, gap ++ next.after, cursor.group⟩ := by
      refine ⟨⟨?_, rfl⟩, rfl⟩
      rw [hpasses.after, List.append_assoc]
    refine ⟨_, Pattern.mem_ways_group.mpr ⟨_, (spells_lineChars _ _).mpr
      ⟨heading, ⟨hheading, hline⟩, hreads⟩, rfl⟩, next, Pattern.mem_ways_star.mpr
        ⟨gap, hgap, ⟨rfl, ?_⟩, ?_⟩, next, ⟨hend, rfl⟩, rfl⟩
    · rw [hpasses.before, List.reverse_append, List.append_assoc]
    · rw [hgroup]
      exact (Pattern.group_of_reads hreads).symm

theorem isMarks_iff {marks : Text} :
    (1 ≤ marks.length ∧ marks.length ≤ 1 + (3 - 1) ∧
      ∀ c ∈ marks, "#".toList.contains c = true) ↔ IsMarks marks := by
  have hmark : ∀ c, "#".toList.contains c = true ↔ c = '#' := fun c => by simp
  simp only [hmark, IsMarks]

/-- The ways to read a heading. -/
theorem mem_ways_heading :
    next ∈ Pattern.ways isWord (headingPattern 3) cursor ↔
      cursor.before.head?.all (· = '\n') = true ∧ ∃ marks spaces : Text, IsMarks marks ∧
        spaces ≠ [] ∧ (∀ c ∈ spaces, isSpace c = true) ∧
          ∃ middle, cursor.Reads (marks ++ spaces) middle ∧
            next ∈ Pattern.ways isWord headingTail middle := by
  have hpattern : Pattern.ways isWord (headingPattern 3) cursor = Pattern.ways isWord
      (.seq .lineStart (.seq (.between 1 (3 - 1) (.among "#")) (.seq (.oneOrMore .space)
        headingTail))) cursor := rfl
  rw [hpattern]
  constructor
  · intro h
    obtain ⟨_, hstart, hways⟩ := Pattern.mem_ways_seq.mp h
    obtain ⟨hline, rfl⟩ := Pattern.mem_ways_lineStart.mp hstart
    obtain ⟨first, hfirst, hafter⟩ := Pattern.mem_ways_seq.mp hways
    obtain ⟨marks, hmarks, hreads⟩ := (Pattern.spells_between 1 (3 - 1) _ _ _).mp hfirst
    obtain ⟨middle, hmiddle, htail⟩ := Pattern.mem_ways_seq.mp hafter
    obtain ⟨spaces, ⟨hsome, hspaces⟩, hreads'⟩ := (Pattern.spells_oneOrMore isSpace _ _).mp hmiddle
    exact ⟨hline, marks, spaces, isMarks_iff.mp hmarks, hsome, hspaces, middle,
      hreads.trans hreads', htail⟩
  · rintro ⟨hline, marks, spaces, hmarks, hsome, hspaces, middle, hreads, h⟩
    obtain ⟨hfirst, hsecond⟩ := hreads.split
    exact Pattern.mem_ways_seq.mpr ⟨cursor, Pattern.mem_ways_lineStart.mpr ⟨hline, rfl⟩,
      Pattern.mem_ways_seq.mpr ⟨_, (Pattern.spells_between 1 (3 - 1) _ _ _).mpr
        ⟨marks, isMarks_iff.mpr hmarks, hfirst⟩, Pattern.mem_ways_seq.mpr
          ⟨middle, (Pattern.spells_oneOrMore isSpace _ _).mpr ⟨spaces, ⟨hsome, hspaces⟩, hsecond⟩,
            h⟩⟩⟩

/-- The first way to read a heading reads all its marks and all the spaces after them,
wherever a heading ends. -/
theorem head?_ways_heading {marks spaces rest : Text} {stop : Cursor} {before : Text}
    (hline : before.head?.all (· = '\n') = true) (hmarks : IsMarks marks) (hsome : spaces ≠ [])
    (hspaces : ∀ c ∈ spaces, isSpace c = true) (hrest : rest.head?.all (fun c => !isSpace c) = true)
    (hstop : (Pattern.ways isWord headingTail
      ⟨spaces.reverse ++ (marks.reverse ++ before), rest, []⟩).head? = some stop) :
    (Pattern.ways isWord (headingPattern 3) ⟨before, marks ++ (spaces ++ rest), []⟩).head? =
      some stop := by
  have hstart : Pattern.ways isWord .lineStart ⟨before, marks ++ (spaces ++ rest), []⟩ =
      [⟨before, marks ++ (spaces ++ rest), []⟩] := by
    rw [Pattern.ways, if_pos hline]
  have hways : Pattern.ways isWord (headingPattern 3) ⟨before, marks ++ (spaces ++ rest), []⟩ =
      Pattern.ways isWord (.seq (.between 1 (3 - 1) (.among "#")) (.seq (.oneOrMore .space)
        headingTail)) ⟨before, marks ++ (spaces ++ rest), []⟩ := by
    change List.flatMap _ (Pattern.ways isWord .lineStart _) = _
    rw [hstart, List.flatMap_singleton]
    rfl
  cases spaces with
  | nil => exact absurd rfl hsome
  | cons c spaces =>
      obtain ⟨hc, hspaces⟩ := List.forall_mem_cons.mp hspaces
      have hdiffers : ∀ c, isSpace c = true → "#".toList.contains c = false := by
        intro c hc
        rw [Bool.eq_false_iff]
        intro hmark
        obtain rfl : c = '#' := by simpa using hmark
        cases hc
      have hmiddle : (⟨marks.reverse ++ before, c :: (spaces ++ rest), []⟩ : Cursor) ∈
          Pattern.ways isWord (.between 1 (3 - 1) (.among "#"))
            ⟨before, marks ++ (c :: spaces ++ rest), []⟩ :=
        (Pattern.spells_between 1 (3 - 1) _ _ _).mpr
          ⟨marks, isMarks_iff.mpr hmarks, ⟨rfl, rfl⟩, rfl⟩
      rw [hways, Pattern.head?_seq_of_only hmiddle]
      · -- the spaces are read greedily
        have hassoc : Pattern.ways isWord (.seq (.oneOrMore .space) headingTail)
            ⟨marks.reverse ++ before, c :: (spaces ++ rest), []⟩ =
            Pattern.ways isWord (.seq (.many (.char isSpace)) headingTail)
              ⟨c :: (marks.reverse ++ before), spaces ++ rest, []⟩ := by
          simp only [Pattern.oneOrMore, Pattern.many, Pattern.space, Pattern.ways, if_pos hc,
            List.flatMap_singleton]
        have hreads : Cursor.Reads ⟨c :: (marks.reverse ++ before), spaces ++ rest, []⟩ spaces
            ⟨(c :: spaces).reverse ++ (marks.reverse ++ before), rest, []⟩ := by
          refine ⟨⟨rfl, ?_⟩, rfl⟩
          rw [List.reverse_cons, List.append_assoc]
          rfl
        rw [hassoc]
        exact Pattern.head?_many_of_run hspaces hreads hrest hstop
      · -- after fewer marks there is no space
        intro other hother hne
        rw [List.eq_nil_iff_forall_not_mem]
        intro next hnext
        obtain ⟨marks', ⟨-, -, hmarks'⟩, hreads⟩ :=
          (Pattern.spells_between 1 (3 - 1) _ _ _).mp hother
        obtain ⟨last, hlast, -⟩ := Pattern.mem_ways_seq.mp hnext
        obtain ⟨spaces', ⟨hsome', hspaces'⟩, hreads'⟩ :=
          (Pattern.spells_oneOrMore isSpace _ _).mp hlast
        cases spaces' with
        | nil => exact hsome' rfl
        | cons d spaces' =>
            have hsplit : marks ++ c :: (spaces ++ rest) =
                marks' ++ d :: (spaces' ++ last.after) := by
              have hafter : marks ++ (c :: spaces ++ rest) = marks' ++ other.after := hreads.after
              rw [hreads'.after] at hafter
              exact hafter
            obtain ⟨rfl, -⟩ := append_cons_inj (isMarks_iff.mpr hmarks).2.2 hmarks'
              (hdiffers c hc) (hdiffers d (hspaces' d List.mem_cons_self)) hsplit
            exact hne (hreads.unique ⟨⟨rfl, rfl⟩, rfl⟩)

end Ways

/-! ## Where a heading is found -/

/-- What is left after stripping: the text between the spaces. -/
theorem stripChars_between {test : Char → Bool} {lead body trail : Text}
    (hlead : ∀ c ∈ lead, test c = true) (htrail : ∀ c ∈ trail, test c = true)
    (hfirst : body.head?.all (fun c => !test c) = true)
    (hlast : body.getLast?.all (fun c => !test c) = true) :
    stripChars test (lead ++ (body ++ trail)) = body := by
  cases hbody : body with
  | nil =>
      rw [List.nil_append, stripChars_eq_nil_iff]
      intro c hc
      obtain hc | hc := List.mem_append.mp hc
      · exact hlead c hc
      · exact htrail c hc
  | cons c rest =>
      rw [hbody, List.head?_cons, Option.all_some, Bool.not_eq_true'] at hfirst
      rw [← hbody]
      have hstart : (lead ++ (body ++ trail)).dropWhile test = body ++ trail := by
        rw [List.dropWhile_append_of_pos hlead, hbody, List.cons_append,
          List.dropWhile_cons_of_neg (by simp [hfirst])]
      rw [stripChars, hstart, List.reverse_append,
        List.dropWhile_append_of_pos (fun c hc => htrail c (List.mem_reverse.mp hc))]
      have hend : body.reverse.dropWhile test = body.reverse := by
        cases hreverse : body.reverse with
        | nil => rfl
        | cons d more =>
            rw [← List.head?_reverse, hreverse, List.head?_cons, Option.all_some,
              Bool.not_eq_true'] at hlast
            rw [List.dropWhile_cons_of_neg (by simp [hlast])]
      rw [hend, List.reverse_reverse]

/-- A heading up to the end of a line is the whole text of the line, perhaps with spaces
after it. -/
theorem exists_spaces_of_heading {body trail tail heading gap rest : Text}
    (h : body ++ (trail ++ tail) = heading ++ (gap ++ rest)) (hbody : '\n' ∉ body)
    (hlast : body.getLast?.all (fun c => !isSpace c) = true)
    (htrail : ∀ c ∈ trail, isSpace c = true) (htail : tail.head?.all (· = '\n') = true)
    (hline : '\n' ∉ heading) (hgap : ∀ c ∈ gap, isSpace c = true)
    (hrest : rest.head?.all (· = '\n') = true) :
    ∃ more, heading = body ++ more ∧ (∀ c ∈ more, isSpace c = true) ∧
      trail ++ tail = more ++ (gap ++ rest) := by
  have hspace : ∀ left : Text, left ≠ [] → (∃ front, body = front ++ left) →
      ¬ ∀ c ∈ left, isSpace c = true := by
    rintro left hleft ⟨front, rfl⟩ hall
    cases hend : left.getLast? with
    | none => exact hleft (List.getLast?_eq_none_iff.mp hend)
    | some c =>
        rw [List.getLast?_append, hend, Option.some_or, Option.all_some,
          hall c (List.mem_of_getLast? hend)] at hlast
        cases hlast
  obtain ⟨more, rfl, hmore⟩ | ⟨left, rfl, hleft⟩ := List.append_eq_append_iff.mp h
  · refine ⟨more, rfl, fun c hc => ?_, hmore⟩
    obtain ⟨inside, rfl, hinside⟩ | ⟨inside, hsplit, -⟩ := List.append_eq_append_iff.mp hmore
    · cases inside with
      | nil => exact htrail c (by simpa using hc)
      | cons d inside =>
          -- the heading would go past the end of the line
          rw [hinside, List.cons_append, List.head?_cons, Option.all_some,
            decide_eq_true_eq] at htail
          rw [htail] at hline
          exact absurd (by simp) hline
    · exact htrail c (by rw [hsplit]; exact List.mem_append_left _ hc)
  · by_cases hnil : left = []
    · subst hnil
      exact ⟨[], by simp, by simp, by simpa using hleft.symm⟩
    exfalso
    obtain ⟨inside, hsplit, hafter⟩ | ⟨inside, hsplit, -⟩ := List.append_eq_append_iff.mp hleft
    · cases inside with
      | nil =>
          rw [List.append_nil] at hsplit
          exact hspace left hnil ⟨heading, rfl⟩ (hsplit ▸ hgap)
      | cons d inside =>
          -- the line would end inside its text
          rw [hafter, List.cons_append, List.head?_cons, Option.all_some,
            decide_eq_true_eq] at hrest
          rw [hsplit, hrest] at hbody
          exact hbody (by simp)
    · exact hspace left hnil ⟨heading, rfl⟩ fun c hc =>
        hgap c (by rw [hsplit]; exact List.mem_append_left _ hc)

section Found

variable {isWord : Char → Bool} {before after : Text}

/-- A heading starts at the start of a line, with a mark. -/
theorem matchAt_heading_eq_none
    (h : before.head?.all (· = '\n') = false ∨ after.head? ≠ some '#') :
    Pattern.matchAt isWord (headingPattern 3) before after = none := by
  rw [Pattern.matchAt_eq_none_iff, List.eq_nil_iff_forall_not_mem]
  intro next hnext
  obtain ⟨hline, marks, spaces, ⟨hsome, -, hmarks⟩, -, -, middle, hreads, -⟩ :=
    mem_ways_heading.mp hnext
  obtain h | h := h
  · rw [h] at hline
    cases hline
  · cases marks with
    | nil => cases hsome
    | cons c marks =>
        have hafter : after = (c :: marks ++ spaces) ++ middle.after := hreads.after
        refine h ?_
        rw [hafter, hmarks c List.mem_cons_self]
        rfl

/-- A search for headings passes a text without marks. -/
theorem searchFrom_heading_skip {skipped rest : Text} (h : '#' ∉ skipped) :
    Pattern.searchFrom isWord (headingPattern 3) before (skipped ++ rest) =
      Pattern.searchFrom isWord (headingPattern 3) (skipped.reverse ++ before) rest := by
  refine Pattern.searchFrom_append fun first last c hsplit => matchAt_heading_eq_none (.inr ?_)
  rw [List.cons_append, List.head?_cons]
  intro hc
  rw [hsplit, Option.some.inj hc] at h
  exact h (by simp)

theorem findFrom_congr {pattern : Pattern} {fuel : Nat} {before' after' : Text}
    (h : Pattern.searchFrom isWord pattern before after =
      Pattern.searchFrom isWord pattern before' after') :
    Pattern.findFrom isWord pattern fuel before after =
      Pattern.findFrom isWord pattern fuel before' after' := by
  cases fuel with
  | zero => rfl
  | succ fuel => rw [Pattern.findFrom, Pattern.findFrom, h]

/-- No heading is found in a text without marks. -/
theorem findFrom_heading_nil {fuel : Nat} (h : '#' ∉ after) :
    Pattern.findFrom isWord (headingPattern 3) fuel before after = [] := by
  cases fuel with
  | zero => rfl
  | succ fuel =>
      have hskip := @searchFrom_heading_skip isWord before after [] h
      rw [List.append_nil] at hskip
      rw [Pattern.findFrom, hskip, Pattern.searchFrom, matchAt_heading_eq_none (.inr (by simp))]

theorem mark_not_mem_of_spaces {part : Text} (h : ∀ c ∈ part, isSpace c = true) : '#' ∉ part := by
  intro hmark
  cases h _ hmark

/-- Marks, spaces that may go past the end of a line, and the text of a line are found as
a heading. -/
theorem exists_heading {marks spaces body trail tail : Text}
    (hline : before.head?.all (· = '\n') = true) (hmarks : IsMarks marks) (hsome : spaces ≠ [])
    (hspaces : ∀ c ∈ spaces, isSpace c = true) (hbody : '\n' ∉ body) (hne : body ≠ [])
    (hfirst : body.head?.all (fun c => !isSpace c) = true)
    (hlast : body.getLast?.all (fun c => !isSpace c) = true)
    (htrail : ∀ c ∈ trail, isSpace c = true) (htail : tail.head?.all (· = '\n') = true) :
    ∃ found, Pattern.matchAt isWord (headingPattern 3) before
        (marks ++ (spaces ++ (body ++ (trail ++ tail)))) = some found ∧
      stripText found.inner = body ∧ ∃ gap : Text, (∀ c ∈ gap, isSpace c = true) ∧
        trail ++ tail = gap ++ found.stop.after ∧ found.stop.before =
          gap.reverse ++ (body.reverse ++ (spaces.reverse ++ (marks.reverse ++ before))) := by
  have hexists : (⟨(body ++ trail).reverse ++ (spaces.reverse ++ (marks.reverse ++ before)), tail,
      body⟩ : Cursor) ∈ Pattern.ways isWord headingTail
        ⟨spaces.reverse ++ (marks.reverse ++ before), body ++ (trail ++ tail), []⟩ := by
    refine mem_ways_headingTail.mpr ⟨body, trail, hne, hbody, htrail, rfl, htail, ?_, rfl⟩
    rw [List.append_assoc]
  cases hstop : (Pattern.ways isWord headingTail ⟨spaces.reverse ++ (marks.reverse ++ before),
      body ++ (trail ++ tail), []⟩).head? with
  | none =>
      rw [List.head?_eq_none_iff.mp hstop] at hexists
      cases hexists
  | some stop =>
      have hhead : (body ++ (trail ++ tail)).head?.all (fun c => !isSpace c) = true := by
        cases body with
        | nil => exact absurd rfl hne
        | cons c body => exact hfirst
      refine ⟨⟨⟨before, marks ++ (spaces ++ (body ++ (trail ++ tail))), []⟩, stop⟩,
        Pattern.matchAt_eq_some_iff.mpr ⟨rfl,
          head?_ways_heading hline hmarks hsome hspaces hhead hstop⟩, ?_⟩
      obtain ⟨heading, gap, -, hheading, hgap, hgroup, hend, hpasses⟩ :=
        mem_ways_headingTail.mp (List.mem_of_head? hstop)
      have hafter : body ++ (trail ++ tail) = heading ++ (gap ++ stop.after) := by
        rw [← List.append_assoc heading]
        exact hpasses.after
      obtain ⟨more, rfl, hmore, hrest⟩ := exists_spaces_of_heading hafter hbody hlast htrail htail
        hheading hgap hend
      refine ⟨?_, more ++ gap, ?_, ?_, ?_⟩
      · rw [Match.inner, hgroup, stripText]
        exact @stripChars_between isSpace [] _ _ (by simp) hmore hfirst hlast
      · exact List.forall_mem_append.mpr ⟨hmore, hgap⟩
      · rw [hrest, List.append_assoc]
      · rw [hpasses.before]
        simp only [List.reverse_append, List.append_assoc]

end Found

/-! ## The scan over the lines -/

/-- What follows one to three marks at the start of a line, if it is a space or nothing. -/
def afterMarks (line : Text) : Option Text :=
  let marks := line.takeWhile (· = '#')
  let rest := line.dropWhile (· = '#')
  if 1 ≤ marks.length ∧ marks.length ≤ 3 ∧ rest.head?.all isSpace = true then some rest else none

/-- Whether there are only spaces. -/
def isBlankText (text : Text) : Bool := text.all isSpace

/-- The headings that the importer takes: where each starts, and its text.  After bare
marks the next line that is not blank is taken for their text. -/
def takenHeadings : Option Nat → List Line → List (Nat × Text)
  | _, [] => []
  | some mark, line :: lines =>
      if isBlankText line.text then takenHeadings (some mark) lines
      else (mark, stripText line.text) :: takenHeadings none lines
  | none, line :: lines =>
      match afterMarks line.text with
      | none => takenHeadings none lines
      | some rest =>
          if isBlankText rest then takenHeadings (some line.start) lines
          else (line.start, stripText rest) :: takenHeadings none lines

theorem afterMarks_eq_some_iff {line rest : Text} :
    afterMarks line = some rest ↔
      ∃ marks, line = marks ++ rest ∧ IsMarks marks ∧ rest.head?.all isSpace = true := by
  rw [afterMarks]
  constructor
  · intro h
    split at h
    · rename_i hmarks
      obtain rfl := Option.some.inj h
      refine ⟨line.takeWhile (· = '#'), List.takeWhile_append_dropWhile.symm,
        ⟨hmarks.1, hmarks.2.1, fun c hc => ?_⟩, hmarks.2.2⟩
      exact of_decide_eq_true (List.mem_takeWhile_imp (p := fun c => decide (c = '#')) hc)
    · cases h
  · rintro ⟨marks, rfl, ⟨hsome, hmost, hmarks⟩, hrest⟩
    have hall : ∀ c ∈ marks, decide (c = '#') = true := fun c hc => decide_eq_true (hmarks c hc)
    have htake : rest.takeWhile (fun c => decide (c = '#')) = [] := by
      cases rest with
      | nil => rfl
      | cons c rest =>
          rw [List.takeWhile_cons_of_neg]
          intro hc
          rw [List.head?_cons, Option.all_some, of_decide_eq_true hc] at hrest
          cases hrest
    have hdrop : rest.dropWhile (fun c => decide (c = '#')) = rest := by
      have hsplit := List.takeWhile_append_dropWhile (p := fun c => decide (c = '#')) (l := rest)
      rwa [htake, List.nil_append] at hsplit
    rw [List.takeWhile_append_of_pos hall, List.dropWhile_append_of_pos hall, htake, hdrop,
      List.append_nil, if_pos ⟨hsome, hmost, hrest⟩]

/-! ## Lines put together -/

/-- The lines after a line. -/
def followingLines (lines : List Text) : Text := lines.flatMap fun line => '\n' :: line

/-- Lines before a line. -/
def precedingLines (lines : List Text) : Text := lines.flatMap fun line => line ++ ['\n']

theorem intercalate_cons (line : Text) (lines : List Text) :
    List.intercalate ['\n'] (line :: lines) = line ++ followingLines lines := by
  induction lines generalizing line with
  | nil => simp [followingLines]
  | cons next lines ih =>
      rw [List.intercalate_cons_cons, ih]
      simp [followingLines]

theorem followingLines_nil : followingLines [] = [] := rfl

theorem followingLines_cons (line : Text) (lines : List Text) :
    followingLines (line :: lines) = '\n' :: List.intercalate ['\n'] (line :: lines) := by
  rw [intercalate_cons]
  rfl

theorem intercalate_append_cons (before : List Text) (line : Text) (after : List Text) :
    List.intercalate ['\n'] (before ++ line :: after) =
      precedingLines before ++ (line ++ followingLines after) := by
  induction before with
  | nil => exact intercalate_cons line after
  | cons first before ih =>
      have hcons : List.intercalate ['\n'] (first :: (before ++ line :: after)) =
          first ++ ['\n'] ++ List.intercalate ['\n'] (before ++ line :: after) := by
        cases before <;> exact List.intercalate_cons_cons
      rw [List.cons_append, hcons, ih]
      simp [precedingLines]

theorem spaces_of_blank {lines : List Text} (h : ∀ line ∈ lines, isBlankText line = true) :
    ∀ c ∈ List.intercalate ['\n'] lines, isSpace c = true := by
  induction lines with
  | nil => simp
  | cons line lines ih =>
      obtain ⟨hline, hlines⟩ := List.forall_mem_cons.mp h
      rw [intercalate_cons]
      refine List.forall_mem_append.mpr ⟨List.all_eq_true.mp hline, ?_⟩
      cases lines with
      | nil => simp [followingLines_nil]
      | cons next lines =>
          rw [followingLines_cons]
          exact List.forall_mem_cons.mpr ⟨by decide, ih hlines⟩

theorem spaces_precedingLines {lines : List Text} (h : ∀ line ∈ lines, isBlankText line = true) :
    ∀ c ∈ precedingLines lines, isSpace c = true := by
  intro c hc
  obtain ⟨line, hline, hc⟩ := List.mem_flatMap.mp hc
  obtain hc | hc := List.mem_append.mp hc
  · exact List.all_eq_true.mp (h line hline) c hc
  · rw [List.mem_singleton.mp hc]
    decide

/-- Lines are all blank, or there is a first one that is not. -/
theorem blank_or_first (lines : List Text) :
    (∀ line ∈ lines, isBlankText line = true) ∨
      ∃ blanks content others, lines = blanks ++ content :: others ∧
        (∀ line ∈ blanks, isBlankText line = true) ∧ isBlankText content = false := by
  induction lines with
  | nil => exact .inl (by simp)
  | cons line lines ih =>
      cases hblank : isBlankText line with
      | false => exact .inr ⟨[], line, lines, rfl, by simp, hblank⟩
      | true =>
          obtain hall | ⟨blanks, content, others, rfl, hblanks, hcontent⟩ := ih
          · exact .inl (List.forall_mem_cons.mpr ⟨hblank, hall⟩)
          · exact .inr ⟨line :: blanks, content, others, rfl,
              List.forall_mem_cons.mpr ⟨hblank, hblanks⟩, hcontent⟩

theorem head?_dropWhile_all (test : Char → Bool) (text : Text) :
    (text.dropWhile test).head?.all (fun c => !test c) = true := by
  induction text with
  | nil => rfl
  | cons c text ih =>
      rw [List.dropWhile_cons]
      split
      · exact ih
      · rename_i hc
        simpa using hc

/-- A line that is not blank is its stripped text between spaces. -/
theorem exists_strip {line : Text} (h : isBlankText line = false) :
    ∃ lead trail : Text, line = lead ++ (stripText line ++ trail) ∧
      (∀ c ∈ lead, isSpace c = true) ∧ (∀ c ∈ trail, isSpace c = true) ∧ stripText line ≠ [] ∧
        (stripText line).head?.all (fun c => !isSpace c) = true ∧
          (stripText line).getLast?.all (fun c => !isSpace c) = true := by
  refine ⟨line.takeWhile isSpace, ((line.dropWhile isSpace).reverse.takeWhile isSpace).reverse,
    ?_, fun c hc => List.mem_takeWhile_imp hc, fun c hc => ?_, ?_, ?_, ?_⟩
  · rw [stripText, stripChars, ← List.reverse_append, List.takeWhile_append_dropWhile,
      List.reverse_reverse, List.takeWhile_append_dropWhile]
  · exact List.mem_takeWhile_imp (List.mem_reverse.mp hc)
  · rw [stripText, Ne, stripChars_eq_nil_iff]
    intro hall
    rw [isBlankText, List.all_eq_true.mpr hall] at h
    cases h
  · rw [stripText, ← dropWhile_stripChars]
    exact head?_dropWhile_all isSpace _
  · rw [stripText, stripChars, List.getLast?_reverse]
    exact head?_dropWhile_all isSpace _

/-! ## The scan finds what the search finds -/

section Taken

variable {fence : Option Fence} {start mark : Nat} {blanks others : List Text} {content : Text}

theorem takenHeadings_blank {lines : List Text}
    (h : ∀ line ∈ lines, isBlankText line = true) :
    takenHeadings (some mark) (linesFrom start fence lines) = [] := by
  induction lines generalizing start fence with
  | nil => rfl
  | cons line lines ih =>
      obtain ⟨hline, hlines⟩ := List.forall_mem_cons.mp h
      rw [linesFrom, takenHeadings, if_pos hline, ih hlines]

/-- After bare marks the first line that is not blank is taken. -/
theorem takenHeadings_pending (hblanks : ∀ line ∈ blanks, isBlankText line = true)
    (hcontent : isBlankText content = false) :
    ∃ fence', takenHeadings (some mark) (linesFrom start fence (blanks ++ content :: others)) =
      (mark, stripText content) :: takenHeadings none
        (linesFrom (start + ((precedingLines blanks).length + content.length + 1)) fence'
          others) := by
  induction blanks generalizing start fence with
  | nil =>
      refine ⟨nextFence fence content, ?_⟩
      rw [List.nil_append, linesFrom, takenHeadings, if_neg (by simp [hcontent])]
      simp only [precedingLines, List.flatMap_nil, List.length_nil, Nat.zero_add, Nat.add_assoc]
  | cons line blanks ih =>
      obtain ⟨hline, hblanks⟩ := List.forall_mem_cons.mp hblanks
      obtain ⟨fence', htaken⟩ := @ih (nextFence fence line) (start + line.length + 1) hblanks
      refine ⟨fence', ?_⟩
      rw [List.cons_append, linesFrom, takenHeadings, if_pos hline, htaken]
      have hlength : (precedingLines (line :: blanks)).length =
          line.length + 1 + (precedingLines blanks).length := by
        rw [precedingLines, List.flatMap_cons, List.length_append, List.length_append]
        rfl
      rw [hlength]
      congr 3
      omega

/-- A marked line takes the first text after its marks. -/
theorem takenHeadings_marked {line rest : Text} {lines : List Text}
    (h : afterMarks line = some rest) (hregion : rest :: lines = blanks ++ content :: others)
    (hblanks : ∀ line ∈ blanks, isBlankText line = true) (hcontent : isBlankText content = false) :
    ∃ fence', takenHeadings none (linesFrom start fence (line :: lines)) =
      (start, stripText content) :: takenHeadings none (linesFrom (start + (line.length -
        rest.length + ((precedingLines blanks).length + content.length + 1))) fence' others) := by
  obtain ⟨marks, hmarks, -, -⟩ := afterMarks_eq_some_iff.mp h
  have hlength : line.length = marks.length + rest.length := by
    rw [hmarks, List.length_append]
  rw [linesFrom, takenHeadings]
  dsimp only
  rw [h]
  cases blanks with
  | nil =>
      obtain ⟨rfl, rfl⟩ := List.cons.inj hregion
      refine ⟨nextFence fence line, ?_⟩
      dsimp only
      rw [if_neg (by simp [hcontent])]
      congr 3
      simp only [precedingLines, List.flatMap_nil, List.length_nil]
      omega
  | cons first blanks =>
      rw [List.cons_append, List.cons.injEq] at hregion
      obtain ⟨rfl, rfl⟩ := hregion
      obtain ⟨hrest, hblanks⟩ := List.forall_mem_cons.mp hblanks
      obtain ⟨fence', htaken⟩ := @takenHeadings_pending (nextFence fence line)
        (start + line.length + 1) start blanks others content hblanks hcontent
      refine ⟨fence', ?_⟩
      dsimp only
      rw [if_pos hrest, htaken]
      congr 3
      have hlines : (precedingLines (rest :: blanks)).length =
          rest.length + 1 + (precedingLines blanks).length := by
        rw [precedingLines, List.flatMap_cons, List.length_append, List.length_append]
        rfl
      omega

end Taken

/-! ## The search over the lines -/

section Search

variable {isWord : Char → Bool} {before : Text}

theorem matchAt_heading_inside {first rest : Text} (hfirst : first ≠ []) (hline : '\n' ∉ first) :
    Pattern.matchAt isWord (headingPattern 3) (first.reverse ++ before) rest = none := by
  refine matchAt_heading_eq_none (.inl ?_)
  cases hend : first.getLast? with
  | none => exact absurd (List.getLast?_eq_none_iff.mp hend) hfirst
  | some c =>
      rw [List.head?_append, List.head?_reverse, hend, Option.some_or, Option.all_some,
        decide_eq_false_iff_not]
      rintro rfl
      exact hline (List.mem_of_getLast? hend)

/-- A line without marks is no heading. -/
theorem matchAt_heading_unmarked {line tail : Text} (h : afterMarks line = none)
    (htail : tail.head?.all (· = '\n') = true) :
    Pattern.matchAt isWord (headingPattern 3) before (line ++ tail) = none := by
  rw [Pattern.matchAt_eq_none_iff, List.eq_nil_iff_forall_not_mem]
  intro next hnext
  obtain ⟨-, marks, spaces, hmarks, hsome, hspaces, middle, hreads, -⟩ :=
    mem_ways_heading.mp hnext
  have hafter : line ++ tail = marks ++ (spaces ++ middle.after) := by
    rw [← List.append_assoc]
    exact hreads.after
  obtain ⟨rest, rfl, hrest⟩ | ⟨rest, rfl, hrest⟩ := List.append_eq_append_iff.mp hafter
  · cases rest with
    | nil =>
        have hmarked : afterMarks line = some [] := by
          rw [List.append_nil] at hmarks
          exact afterMarks_eq_some_iff.mpr ⟨line, by simp, hmarks, rfl⟩
        rw [hmarked] at h
        cases h
    | cons c rest =>
        rw [hrest, List.cons_append, List.head?_cons, Option.all_some, decide_eq_true_eq] at htail
        cases (hmarks.2.2 c (by simp)).symm.trans htail
  · have hstart : rest.head?.all isSpace = true := by
      cases rest with
      | nil => rfl
      | cons c rest =>
          cases spaces with
          | nil => exact absurd rfl hsome
          | cons d spaces =>
              obtain ⟨rfl, -⟩ := List.cons.inj hrest
              exact hspaces d List.mem_cons_self
    rw [afterMarks_eq_some_iff.mpr ⟨marks, rfl, hmarks, hstart⟩] at h
    cases h

/-- A search for headings passes a line without marks. -/
theorem searchFrom_unmarked {line tail : Text} (h : afterMarks line = none) (hline : '\n' ∉ line)
    (htail : tail.head?.all (· = '\n') = true) :
    Pattern.searchFrom isWord (headingPattern 3) before (line ++ tail) =
      Pattern.searchFrom isWord (headingPattern 3) (line.reverse ++ before) tail := by
  refine Pattern.searchFrom_append fun first last c hsplit => ?_
  cases first with
  | nil =>
      rw [List.nil_append] at hsplit
      rw [← hsplit]
      exact matchAt_heading_unmarked h htail
  | cons d first =>
      exact matchAt_heading_inside (by simp) fun hmem =>
        hline (by rw [hsplit]; exact List.mem_append_left _ hmem)

/-- After a space only spaces follow, where only spaces follow the marks. -/
theorem spaces_after_space {marks spaces first rest : Text} {c : Char}
    (hmarks : ∀ d ∈ marks, d = '#') (hspaces : ∀ d ∈ spaces, isSpace d = true)
    (hc : isSpace c = true) (h : marks ++ spaces = first ++ c :: rest) :
    ∀ d ∈ rest, isSpace d = true := by
  obtain ⟨more, rfl, hmore⟩ | ⟨more, rfl, hmore⟩ := List.append_eq_append_iff.mp h
  · exact fun d hd => hspaces d (by rw [hmore]; simp [hd])
  · cases more with
    | nil => exact fun d hd => hspaces d (by rw [← List.nil_append spaces, ← hmore]; simp [hd])
    | cons e more =>
        obtain ⟨rfl, -⟩ := List.cons.inj hmore
        rw [hmarks c (by simp)] at hc
        cases hc

/-- Nothing that is found after marks and spaces alone has a text. -/
theorem findFrom_blank {marks spaces : Text} {fuel : Nat} (hmarks : ∀ c ∈ marks, c = '#')
    (hspaces : ∀ c ∈ spaces, isSpace c = true) :
    ∀ found ∈ Pattern.findFrom isWord (headingPattern 3) fuel before (marks ++ spaces),
      stripText found.inner = [] := by
  intro found hfound
  cases fuel with
  | zero => cases hfound
  | succ fuel =>
      rw [Pattern.findFrom] at hfound
      cases hsearch : Pattern.searchFrom isWord (headingPattern 3) before (marks ++ spaces) with
      | none =>
          rw [hsearch] at hfound
          cases hfound
      | some first =>
          rw [hsearch] at hfound
          obtain ⟨skipped, rest, hsplit, hmatch, -⟩ := Pattern.searchFrom_eq_some hsearch
          obtain ⟨-, marks', spaces', -, hsome, hspaces', middle, hreads, hways⟩ :=
            mem_ways_heading.mp (Pattern.mem_ways_of_matchAt hmatch)
          obtain ⟨heading, gap, -, -, -, hgroup, -, hpasses⟩ := mem_ways_headingTail.mp hways
          cases spaces' with
          | nil => exact absurd rfl hsome
          | cons c spaces' =>
              have hrest : rest = (marks' ++ c :: spaces') ++ middle.after := hreads.after
              have hafter : ∀ d ∈ spaces' ++ (heading ++ gap ++ first.stop.after),
                  isSpace d = true := by
                refine @spaces_after_space marks spaces (skipped ++ marks') _ c hmarks hspaces
                  (hspaces' c List.mem_cons_self) ?_
                rw [hsplit, hrest, hpasses.after]
                simp only [List.append_assoc, List.cons_append]
              have hnone : '#' ∉ first.stop.after := mark_not_mem_of_spaces fun d hd =>
                hafter d (by simp [hd])
              dsimp only at hfound
              rw [findFrom_heading_nil hnone] at hfound
              obtain rfl := List.mem_singleton.mp hfound
              rw [Match.inner, hgroup, stripText, stripChars_eq_nil_iff]
              exact fun d hd => hafter d (by simp [hd])

end Search

/-! ## Imported headings -/

/-- Whether the identifier is the label of a stage. -/
def isStage (unicode : Unicode) (identifier : Text) : Bool :=
  ["stage-0".toList, "stage-1".toList].contains (lowerText unicode identifier)

/-- The identifier that the importer reads off a heading. -/
def importedId (unicode : Unicode) (heading : Text) : Option String :=
  match (legacyIdPattern unicode).search unicode.isWord heading with
  | none => none
  | some found =>
      if isStage unicode found.whole then none else some (String.ofList found.whole)

/-- The imported heading of a taken one. -/
def importedHeading (unicode : Unicode) (taken : Nat × Text) : Option LegacyHeading :=
  (importedId unicode taken.2).map fun id => ⟨id, taken.2, taken.1⟩

theorem importedId_nil (unicode : Unicode) : importedId unicode [] = none := rfl

theorem legacyHeadings_eq_filterMap (unicode : Unicode) (text : Text) :
    legacyHeadings unicode text =
      (((headingPattern 3).findAll unicode.isWord text).map fun found =>
        (found.first, stripText found.inner)).filterMap (importedHeading unicode) := by
  rw [legacyHeadings, List.filterMap_map]
  congr 1
  funext found
  rw [Function.comp_apply, importedHeading, importedId]
  dsimp only
  cases (legacyIdPattern unicode).search unicode.isWord (stripText found.inner) with
  | none => rfl
  | some identifier =>
      dsimp only
      rw [isStage]
      split <;> rfl

section Scan

variable {unicode : Unicode}

/-- From the start of the lines, the search for headings finds what the scan takes, but
for headings without a text. -/
def ScanAgrees (unicode : Unicode) (lines : List Text) : Prop :=
  ∀ (before : Text) (fence : Option Fence) (fuel : Nat), before.head?.all (· = '\n') = true →
    (List.intercalate ['\n'] lines).length < fuel →
      ((Pattern.findFrom unicode.isWord (headingPattern 3) fuel before
        (List.intercalate ['\n'] lines)).map fun found =>
          (found.first, stripText found.inner)).filterMap (importedHeading unicode) =
        (takenHeadings none (linesFrom before.length fence lines)).filterMap
          (importedHeading unicode)

theorem scanAgrees_nil : ScanAgrees unicode [] := by
  intro before fence fuel _ _
  rw [List.intercalate_nil, findFrom_heading_nil (by simp)]
  rfl

theorem head?_followingLines (lines : List Text) :
    (followingLines lines).head?.all (· = '\n') = true := by
  cases lines <;> rfl

/-- A line without marks is passed. -/
theorem scanAgrees_unmarked {line : Text} {lines : List Text} (h : ScanAgrees unicode lines)
    (hmarked : afterMarks line = none) (hline : '\n' ∉ line) :
    ScanAgrees unicode (line :: lines) := by
  intro before fence fuel hbefore hfuel
  rw [linesFrom, takenHeadings]
  dsimp only
  rw [hmarked]
  dsimp only
  rw [intercalate_cons] at hfuel ⊢
  have hpass := @searchFrom_unmarked unicode.isWord before line (followingLines lines) hmarked hline
    (head?_followingLines lines)
  cases lines with
  | nil =>
      rw [findFrom_congr hpass, followingLines_nil, findFrom_heading_nil (by simp)]
      rfl
  | cons next lines =>
      rw [followingLines_cons] at hpass hfuel ⊢
      have hskip := @searchFrom_heading_skip unicode.isWord (line.reverse ++ before) ['\n']
        (List.intercalate ['\n'] (next :: lines)) (by decide)
      rw [List.singleton_append] at hskip
      rw [List.length_append, List.length_cons] at hfuel
      have hrest := h ('\n' :: (line.reverse ++ before)) (nextFence fence line) fuel rfl (by omega)
      have hlength : ('\n' :: (line.reverse ++ before)).length =
          before.length + line.length + 1 := by
        rw [List.length_cons, List.length_append, List.length_reverse]
        omega
      rw [hlength] at hrest
      rw [findFrom_congr (hpass.trans hskip)]
      exact hrest

/-- Marks with only blank lines after them have no text. -/
theorem filterMap_blank {line rest : Text} {lines : List Text} {before : Text}
    {fence : Option Fence} {fuel : Nat} (hmarked : afterMarks line = some rest)
    (hblank : ∀ text ∈ rest :: lines, isBlankText text = true) :
    ((Pattern.findFrom unicode.isWord (headingPattern 3) fuel before
      (List.intercalate ['\n'] (line :: lines))).map fun found =>
        (found.first, stripText found.inner)).filterMap (importedHeading unicode) =
      (takenHeadings none (linesFrom before.length fence (line :: lines))).filterMap
        (importedHeading unicode) := by
  obtain ⟨marks, hsplit, hmarks, hrest⟩ := afterMarks_eq_some_iff.mp hmarked
  have hwhole : List.intercalate ['\n'] (line :: lines) =
      marks ++ List.intercalate ['\n'] (rest :: lines) := by
    rw [intercalate_cons, intercalate_cons, hsplit, List.append_assoc]
  obtain ⟨hrestBlank, hlines⟩ := List.forall_mem_cons.mp hblank
  have htaken : takenHeadings none (linesFrom before.length fence (line :: lines)) = [] := by
    rw [linesFrom, takenHeadings]
    dsimp only
    rw [hmarked]
    dsimp only
    rw [if_pos hrestBlank, takenHeadings_blank hlines]
  rw [htaken, List.filterMap_nil, hwhole, List.filterMap_eq_nil_iff]
  intro taken htaken
  obtain ⟨found, hfound, rfl⟩ := List.mem_map.mp htaken
  have hnone := findFrom_blank hmarks.2.2 (spaces_of_blank hblank) found hfound
  rw [importedHeading, hnone, importedId_nil]
  rfl

/-- A line with marks takes its text, or that of the next line that is not blank. -/
theorem scanAgrees_marked {line rest : Text} {lines : List Text}
    (h : ∀ others, others <:+ lines → ScanAgrees unicode others)
    (hmarked : afterMarks line = some rest) (hlines : ∀ text ∈ line :: lines, '\n' ∉ text) :
    ScanAgrees unicode (line :: lines) := by
  intro before fence fuel hbefore hfuel
  obtain hblank | ⟨blanks, content, others, hregion, hblanks, hcontent⟩ :=
    blank_or_first (rest :: lines)
  · exact filterMap_blank hmarked hblank
  obtain ⟨marks, hsplit, hmarks, hrest⟩ := afterMarks_eq_some_iff.mp hmarked
  obtain ⟨fence', htaken⟩ := @takenHeadings_marked fence before.length blanks others content line
    rest lines hmarked hregion hblanks hcontent
  obtain ⟨lead, trail, hstrip, hlead, htrail, hne, hfirst, hlast⟩ := exists_strip hcontent
  generalize stripText content = body at htaken hstrip hne hfirst hlast
  -- the spaces after the marks go up to the text
  have hwhole : List.intercalate ['\n'] (line :: lines) =
      marks ++ ((precedingLines blanks ++ lead) ++ (body ++ (trail ++ followingLines others))) := by
    have hjoined : List.intercalate ['\n'] (line :: lines) =
        marks ++ List.intercalate ['\n'] (rest :: lines) := by
      rw [intercalate_cons, intercalate_cons, hsplit, List.append_assoc]
    rw [hjoined, hregion, intercalate_append_cons, hstrip]
    simp only [List.append_assoc]
  have hspaces : ∀ c ∈ precedingLines blanks ++ lead, isSpace c = true :=
    List.forall_mem_append.mpr ⟨spaces_precedingLines hblanks, hlead⟩
  have hsome : precedingLines blanks ++ lead ≠ [] := by
    intro hnil
    obtain ⟨hprecedes, rfl⟩ := List.append_eq_nil_iff.mp hnil
    cases blanks with
    | cons first blanks => simp [precedingLines] at hprecedes
    | nil =>
        obtain ⟨rfl, rfl⟩ := List.cons.inj hregion
        cases body with
        | nil => exact hne rfl
        | cons c body =>
            rw [hstrip, List.nil_append, List.cons_append, List.head?_cons,
              Option.all_some] at hrest
            rw [List.head?_cons, Option.all_some, hrest] at hfirst
            cases hfirst
  have hregionLines : ∀ text ∈ rest :: lines, '\n' ∉ text := by
    obtain ⟨hline, hlines⟩ := List.forall_mem_cons.mp hlines
    refine List.forall_mem_cons.mpr ⟨fun hmem => hline ?_, hlines⟩
    rw [hsplit]
    exact List.mem_append_right _ hmem
  have hbody : '\n' ∉ body := by
    intro hmem
    refine hregionLines content (by rw [hregion]; simp) ?_
    rw [hstrip]
    simp [hmem]
  have hsuffix : others <:+ lines := by
    cases blanks with
    | nil =>
        obtain ⟨rfl, rfl⟩ := List.cons.inj hregion
        exact List.suffix_rfl
    | cons first blanks =>
        obtain ⟨-, rfl⟩ := List.cons.inj hregion
        exact ⟨blanks ++ [content], by simp⟩
  obtain ⟨found, hfound, hinner, gap, hgap, hafter, hstop⟩ :=
    @exists_heading unicode.isWord _ _ _ _ _ _ hbefore hmarks hsome hspaces hbody hne hfirst hlast
      htrail (head?_followingLines others)
  rw [hwhole] at hfuel ⊢
  cases fuel with
  | zero => cases hfuel
  | succ fuel =>
      have hstart : found.first = before.length := by
        rw [Match.first, (Pattern.matchAt_eq_some_iff.mp hfound).1]
      have hrestFound : ((Pattern.findFrom unicode.isWord (headingPattern 3) fuel found.stop.before
          found.stop.after).map fun found =>
            (found.first, stripText found.inner)).filterMap (importedHeading unicode) =
          (takenHeadings none (linesFrom (before.length + (line.length - rest.length +
            ((precedingLines blanks).length + content.length + 1))) fence' others)).filterMap
              (importedHeading unicode) := by
        cases others with
        | nil =>
            rw [followingLines_nil, List.append_nil] at hafter
            have hnone : '#' ∉ found.stop.after := fun hmem =>
              mark_not_mem_of_spaces htrail (by rw [hafter]; exact List.mem_append_right _ hmem)
            rw [findFrom_heading_nil hnone]
            rfl
        | cons next others =>
            rw [followingLines_cons] at hafter hfuel
            generalize hplace : body.reverse ++ ((precedingLines blanks ++ lead).reverse ++
              (marks.reverse ++ before)) = place at hstop
            -- from the text on, both go past spaces
            have hpass := @searchFrom_heading_skip unicode.isWord place gap found.stop.after
              (mark_not_mem_of_spaces hgap)
            have hskip := @searchFrom_heading_skip unicode.isWord place (trail ++ ['\n'])
              (List.intercalate ['\n'] (next :: others)) (mark_not_mem_of_spaces
                (List.forall_mem_append.mpr ⟨htrail, List.all_eq_true.mp rfl⟩))
            rw [List.append_assoc, List.singleton_append, hafter, hpass, ← hstop,
              List.reverse_append, List.append_assoc] at hskip
            have hlength : ('\n' :: (trail.reverse ++ place)).length = before.length +
                (line.length - rest.length +
                  ((precedingLines blanks).length + content.length + 1)) := by
              rw [← hplace, hsplit, hstrip]
              simp only [List.length_cons, List.length_append, List.length_reverse]
              omega
            have hagrees := h (next :: others) hsuffix ('\n' :: (trail.reverse ++ place)) fence'
              fuel rfl (by
                simp only [List.length_append, List.length_cons] at hfuel
                omega)
            rw [hlength] at hagrees
            rw [findFrom_congr hskip]
            exact hagrees
      rw [htaken, Pattern.findFrom, Pattern.searchFrom_of_matchAt hfound]
      dsimp only
      rw [List.map_cons, List.filterMap_cons, List.filterMap_cons, hrestFound, hstart, hinner]

theorem scanAgrees (lines : List Text) (h : ∀ line ∈ lines, '\n' ∉ line) :
    ScanAgrees unicode lines := by
  induction hlength : lines.length using Nat.strong_induction_on generalizing lines with
  | _ n ih =>
      cases lines with
      | nil => exact scanAgrees_nil
      | cons line lines =>
          have hothers : ∀ others, others <:+ lines → ScanAgrees unicode others := by
            intro others hothers
            refine ih others.length ?_ others (fun text htext => ?_) rfl
            · rw [← hlength, List.length_cons]
              exact Nat.lt_succ_of_le hothers.length_le
            · exact h text (List.mem_cons_of_mem _ (hothers.subset htext))
          cases hmarked : afterMarks line with
          | none =>
              exact scanAgrees_unmarked (hothers lines List.suffix_rfl) hmarked
                (h line List.mem_cons_self)
          | some rest => exact scanAgrees_marked hothers hmarked h

/-- The importer finds what a scan over the lines of the document takes. -/
theorem legacyHeadings_eq (unicode : Unicode) (text : Text) :
    legacyHeadings unicode text =
      (takenHeadings none (documentLines text)).filterMap (importedHeading unicode) := by
  have hagrees := @scanAgrees unicode (Str.splitChar '\n' text)
    (fun line hline => Str.not_mem_of_mem_splitChar hline) [] none (text.length + 1) rfl
    (by rw [Str.intercalate_splitChar]; exact Nat.lt_succ_self _)
  rw [Str.intercalate_splitChar] at hagrees
  rw [legacyHeadings_eq_filterMap]
  exact hagrees

end Scan

/-! ## Headings with an identifier -/

/-- The heading of a line: its stripped text after one to three marks, if it has one. -/
def lineHeading (line : Text) : Option Text :=
  (afterMarks line).bind fun rest => if isBlankText rest then none else some (stripText rest)

/-- The identifier that a heading carries: the first that is not the label of a stage. -/
def carriedId (unicode : Unicode) (heading : Text) : Option String :=
  ((((legacyIdPattern unicode).findAll unicode.isWord heading).map Match.whole).find? fun found =>
    !isStage unicode found).map String.ofList

/-- The identifier that the heading of a line carries, outside fenced code. -/
def lineId (unicode : Unicode) (line : Line) : Option String :=
  if line.isCode then none else (lineHeading line.text).bind (carriedId unicode)

/-- Where a line with an identifier in its heading starts, and the identifier. -/
def pressureHeading (unicode : Unicode) (line : Line) : Option (Nat × String) :=
  (lineId unicode line).map (line.start, ·)

/-- The headings of a document that carry an identifier. -/
def pressureHeadings (unicode : Unicode) (text : Text) : List (Nat × String) :=
  (documentLines text).filterMap (pressureHeading unicode)

/-- Where an imported heading starts, and its identifier. -/
def importedPlace (unicode : Unicode) (taken : Nat × Text) : Option (Nat × String) :=
  (importedId unicode taken.2).map (taken.1, ·)

/-- The importer reads headings only: a line with a heading gives it the identifier that
the heading carries, and none in fenced code; and a line after bare marks that the
importer takes for their text gives it none, and has no heading that carries one. -/
def HeadingsOnly (unicode : Unicode) : Bool → List Line → Prop
  | _, [] => True
  | true, line :: lines =>
      if isBlankText line.text then HeadingsOnly unicode true lines
      else importedId unicode (stripText line.text) = none ∧ lineId unicode line = none ∧
        HeadingsOnly unicode false lines
  | false, line :: lines =>
      match afterMarks line.text with
      | none => HeadingsOnly unicode false lines
      | some rest =>
          if isBlankText rest then HeadingsOnly unicode true lines
          else importedId unicode (stripText rest) = lineId unicode line ∧
            HeadingsOnly unicode false lines

section Compare

variable {unicode : Unicode}

/-- What is taken starts at a line with marks. -/
theorem mem_takenHeadings_start {pending : Option Nat} {lines : List Line} {taken : Nat × Text}
    (h : taken ∈ takenHeadings pending lines) :
    pending = some taken.1 ∨
      ∃ line ∈ lines, line.start = taken.1 ∧ (afterMarks line.text).isSome = true := by
  induction lines generalizing pending with
  | nil => cases pending <;> cases h
  | cons line lines ih =>
      have hlater : ∀ {pending : Option Nat}, taken ∈ takenHeadings pending lines →
          pending = some taken.1 ∨ ∃ other ∈ line :: lines, other.start = taken.1 ∧
            (afterMarks other.text).isSome = true := by
        intro pending hmem
        obtain hmark | ⟨other, hother, hstart⟩ := ih hmem
        · exact .inl hmark
        · exact .inr ⟨other, List.mem_cons_of_mem _ hother, hstart⟩
      cases pending with
      | some mark =>
          rw [takenHeadings] at h
          split at h
          · exact hlater h
          · obtain rfl | hmem := List.mem_cons.mp h
            · exact .inl rfl
            · exact .inr ((hlater hmem).resolve_left (by simp))
      | none =>
          rw [takenHeadings] at h
          cases hmarked : afterMarks line.text with
          | none =>
              rw [hmarked] at h
              exact hlater h
          | some rest =>
              have hself : line.start = line.start ∧ (afterMarks line.text).isSome = true :=
                ⟨rfl, by rw [hmarked]; rfl⟩
              rw [hmarked] at h
              dsimp only at h
              split at h
              · obtain hmark | hother := hlater h
                · exact .inr ⟨line, List.mem_cons_self, Option.some.inj hmark, hself.2⟩
                · exact .inr hother
              · obtain rfl | hmem := List.mem_cons.mp h
                · exact .inr ⟨line, List.mem_cons_self, hself⟩
                · exact .inr ((hlater hmem).resolve_left (by simp))

/-- What is taken starts at later and later places. -/
theorem pairwise_takenHeadings {pending : Option Nat} {lines : List Line}
    (hlines : lines.Pairwise fun first second => first.start < second.start)
    (hpending : ∀ mark ∈ pending, ∀ line ∈ lines, mark < line.start) :
    (takenHeadings pending lines).Pairwise fun first second => first.1 < second.1 := by
  induction lines generalizing pending with
  | nil => cases pending <;> exact .nil
  | cons line lines ih =>
      obtain ⟨hlater, hlines⟩ := List.pairwise_cons.mp hlines
      have hnone : (takenHeadings none lines).Pairwise fun first second => first.1 < second.1 :=
        ih hlines (by simp)
      have htaken : ∀ taken ∈ takenHeadings none lines, line.start < taken.1 := by
        intro taken hmem
        obtain ⟨other, hother, hstart, -⟩ := (mem_takenHeadings_start hmem).resolve_left (by simp)
        rw [← hstart]
        exact hlater other hother
      cases pending with
      | some mark =>
          have hmark := hpending mark rfl
          rw [takenHeadings]
          split
          · exact ih hlines fun _ hmem other hother =>
              hpending _ hmem other (List.mem_cons_of_mem _ hother)
          · refine .cons (fun taken hmem => ?_) hnone
            exact (hmark line List.mem_cons_self).trans (htaken taken hmem)
      | none =>
          rw [takenHeadings]
          cases afterMarks line.text with
          | none => exact hnone
          | some rest =>
              dsimp only
              split
              · refine ih hlines fun mark hmem other hother => ?_
                obtain rfl := Option.some.inj hmem
                exact hlater other hother
              · exact .cons htaken hnone

/-- Entries of one place agree with each other, and so do the later ones. -/
theorem cons_option_inj {place : Nat} {first second : Option String}
    {others more : List (Nat × String)} (hothers : ∀ entry ∈ others, place < entry.1)
    (hmore : ∀ entry ∈ more, place < entry.1) :
    (first.map (place, ·)).toList ++ others = (second.map (place, ·)).toList ++ more ↔
      first = second ∧ others = more := by
  constructor
  · intro h
    cases first with
    | none =>
        cases second with
        | none => exact ⟨rfl, h⟩
        | some id =>
            exfalso
            change others = (place, id) :: more at h
            exact absurd (hothers (place, id) (by rw [h]; simp)) (lt_irrefl _)
    | some id =>
        cases second with
        | none =>
            exfalso
            change (place, id) :: others = more at h
            exact absurd (hmore (place, id) (by rw [← h]; simp)) (lt_irrefl _)
        | some other =>
            change (place, id) :: others = (place, other) :: more at h
            obtain ⟨hid, hrest⟩ := List.cons.inj h
            rw [(Prod.mk.inj hid).2, hrest]
            exact ⟨rfl, rfl⟩
  · rintro ⟨rfl, rfl⟩
    rfl

theorem lineHeading_of_blank {line : Text} (h : isBlankText line = true) :
    afterMarks line = none := by
  cases hmarked : afterMarks line with
  | none => rfl
  | some rest =>
      obtain ⟨marks, rfl, ⟨hsome, -, hmarks⟩, -⟩ := afterMarks_eq_some_iff.mp hmarked
      cases marks with
      | nil => cases hsome
      | cons c marks =>
          have hspace := List.all_eq_true.mp h c (by simp)
          rw [hmarks c List.mem_cons_self] at hspace
          cases hspace

theorem lineId_of_unmarked {line : Line} (h : afterMarks line.text = none) :
    lineId unicode line = none := by
  rw [lineId, lineHeading, h]
  split <;> rfl

theorem lineId_of_bare {line : Line} {rest : Text} (h : afterMarks line.text = some rest)
    (hrest : isBlankText rest = true) : lineId unicode line = none := by
  rw [lineId, lineHeading, h, Option.bind_some, if_pos hrest]
  split <;> rfl

theorem filterMap_cons_toList {α β : Type} (f : α → Option β) (item : α) (items : List α) :
    (item :: items).filterMap f = (f item).toList ++ items.filterMap f := by
  rw [List.filterMap_cons]
  cases f item <;> rfl

/-- What the importer takes are the headings with an identifier exactly when it reads
headings only. -/
theorem importedPlaces_eq_iff (lines : List Line)
    (hlines : lines.Pairwise fun first second => first.start < second.start)
    (pending : Option Nat) (hpending : ∀ mark ∈ pending, ∀ line ∈ lines, mark < line.start) :
    (takenHeadings pending lines).filterMap (importedPlace unicode) =
        lines.filterMap (pressureHeading unicode) ↔
      HeadingsOnly unicode pending.isSome lines := by
  induction lines generalizing pending with
  | nil => cases pending <;> simp [takenHeadings, HeadingsOnly]
  | cons line lines ih =>
      obtain ⟨hlater, hlines⟩ := List.pairwise_cons.mp hlines
      have hnone := ih hlines none (by simp)
      have htaken : ∀ entry ∈ (takenHeadings none lines).filterMap (importedPlace unicode),
          line.start < entry.1 := by
        intro entry hentry
        obtain ⟨taken, hmem, hplace⟩ := List.mem_filterMap.mp hentry
        obtain ⟨id, -, rfl⟩ := Option.map_eq_some_iff.mp hplace
        obtain ⟨other, hother, hstart, -⟩ := (mem_takenHeadings_start hmem).resolve_left (by simp)
        change line.start < taken.1
        rw [← hstart]
        exact hlater other hother
      have hheadings : ∀ entry ∈ lines.filterMap (pressureHeading unicode),
          line.start < entry.1 := by
        intro entry hentry
        obtain ⟨other, hother, hplace⟩ := List.mem_filterMap.mp hentry
        obtain ⟨id, -, rfl⟩ := Option.map_eq_some_iff.mp hplace
        exact hlater other hother
      rw [filterMap_cons_toList (pressureHeading unicode), pressureHeading]
      cases pending with
      | some mark =>
          have hmark := hpending mark rfl
          rw [takenHeadings, Option.isSome_some, HeadingsOnly]
          by_cases hblank : isBlankText line.text = true
          · rw [if_pos hblank, if_pos hblank, lineId_of_unmarked (lineHeading_of_blank hblank)]
            exact ih hlines (some mark) fun _ hmem other hother =>
              hpending _ hmem other (List.mem_cons_of_mem _ hother)
          · rw [if_neg hblank, if_neg hblank, filterMap_cons_toList, importedPlace]
            -- the entry of the mark is before every heading
            have hstart := hmark line List.mem_cons_self
            have hsplit := @cons_option_inj mark (importedId unicode (stripText line.text)) none
              ((takenHeadings none lines).filterMap (importedPlace unicode))
              (((lineId unicode line).map (line.start, ·)).toList ++
                lines.filterMap (pressureHeading unicode))
              (fun entry hentry => hstart.trans (htaken entry hentry)) (by
                intro entry hentry
                obtain hentry | hentry := List.mem_append.mp hentry
                · obtain ⟨id, -, rfl⟩ := Option.map_eq_some_iff.mp (Option.mem_toList.mp hentry)
                  exact hstart
                · exact hstart.trans (hheadings entry hentry))
            have hrest := @cons_option_inj line.start none (lineId unicode line)
              ((takenHeadings none lines).filterMap (importedPlace unicode))
              (lines.filterMap (pressureHeading unicode)) htaken hheadings
            rw [Option.map_none, Option.toList_none, List.nil_append] at hsplit hrest
            rw [hsplit, hrest, hnone, eq_comm (a := none)]
            rfl
      | none =>
          rw [takenHeadings, Option.isSome_none, HeadingsOnly]
          cases hmarked : afterMarks line.text with
          | none =>
              rw [lineId_of_unmarked hmarked]
              exact hnone
          | some rest =>
              dsimp only
              by_cases hblank : isBlankText rest = true
              · rw [if_pos hblank, if_pos hblank, lineId_of_bare hmarked hblank]
                refine ih hlines (some line.start) fun mark hmem other hother => ?_
                obtain rfl := Option.some.inj hmem
                exact hlater other hother
              · rw [if_neg hblank, if_neg hblank, filterMap_cons_toList, importedPlace,
                  cons_option_inj htaken hheadings, hnone]
                rfl

end Compare

/-! ## The text of the entries -/

/-- The text cut at places: each slice goes up to the next place, the last to the end. -/
inductive Slices (text : Text) : List Nat → List Text → Prop
  | nil : Slices text [] []
  | last (start : Nat) : Slices text [start] [text.drop start]
  | next (start other : Nat) (starts : List Nat) (slice : Text) (slices : List Text)
      (hslice : text.drop start = slice ++ text.drop other)
      (hrest : Slices text (other :: starts) slices) :
      Slices text (start :: other :: starts) (slice :: slices)

/-- The entries of a document are those of its headings with an identifier, in order, and
their texts are the text cut at these headings, without the spaces around. -/
def ReadsHeadings (unicode : Unicode) (text : Text) : Prop :=
  ∃ slices, Slices text ((pressureHeadings unicode text).map Prod.fst) slices ∧
    (legacyEntries unicode text).map (fun entry => (entry.legacyId, entry.text)) =
      ((pressureHeadings unicode text).map Prod.snd).zip (slices.map stripText)

/-- The slices between places. -/
def slicesOf (text : Text) : List Nat → List Text
  | [] => []
  | start :: starts => text.slice start (starts.head?.getD text.length) :: slicesOf text starts

/-- Places where a text has a mark, one after the other. -/
structure Cuts (text : Text) (starts : List Nat) : Prop where
  sorted : starts.Pairwise (· < ·)
  marks : ∀ start ∈ starts, ∃ rest, text.drop start = '#' :: rest

section Slices

variable {text : Text} {starts others : List Nat} {slices : List Text}

theorem Cuts.tail {start : Nat} (h : Cuts text (start :: starts)) : Cuts text starts where
  sorted := (List.pairwise_cons.mp h.sorted).2
  marks other hother := h.marks other (List.mem_cons_of_mem _ hother)

/-- The next place, or the end, is after a place. -/
theorem Cuts.next {start : Nat} (h : Cuts text (start :: starts)) :
    start < starts.head?.getD text.length ∧ starts.head?.getD text.length ≤ text.length := by
  have hlength : ∀ place ∈ start :: starts, place < text.length := by
    intro place hplace
    obtain ⟨rest, hrest⟩ := h.marks place hplace
    have hdrop := congrArg List.length hrest
    rw [List.length_drop, List.length_cons] at hdrop
    omega
  cases starts with
  | nil => exact ⟨hlength start List.mem_cons_self, le_rfl⟩
  | cons other starts =>
      exact ⟨(List.pairwise_cons.mp h.sorted).1 other List.mem_cons_self,
        (hlength other (by simp)).le⟩

theorem length_slicesOf (starts : List Nat) : (slicesOf text starts).length = starts.length := by
  induction starts with
  | nil => rfl
  | cons start starts ih => rw [slicesOf, List.length_cons, List.length_cons, ih]

/-- A text from a place on is its slice and the text from the end of the slice on. -/
theorem drop_eq_slice_append {first last : Nat} (h : first ≤ last) (hlast : last ≤ text.length) :
    text.drop first = text.slice first last ++ text.drop last := by
  conv_lhs => rw [← List.take_append_drop last text]
  rw [List.drop_append, List.length_take, min_eq_left hlast, Nat.sub_eq_zero_of_le h,
    List.drop_zero, Text.slice]

theorem slices_iff (h : Cuts text starts) :
    Slices text starts slices ↔ slices = slicesOf text starts := by
  constructor
  · intro hslices
    induction hslices with
    | nil => rfl
    | last start =>
        rw [slicesOf, slicesOf, List.head?_nil, Option.getD_none, Text.slice, List.take_length]
    | next start other starts slice slices hslice hrest ih =>
        have hnext := h.next
        rw [List.head?_cons, Option.getD_some] at hnext
        rw [drop_eq_slice_append hnext.1.le hnext.2] at hslice
        rw [slicesOf, List.head?_cons, Option.getD_some, List.append_cancel_right hslice, ih h.tail]
  · rintro rfl
    induction starts with
    | nil => exact .nil
    | cons start starts ih =>
        have hnext := h.next
        have hrest := ih h.tail
        cases starts with
        | nil =>
            rw [slicesOf, slicesOf, List.head?_nil, Option.getD_none, Text.slice, List.take_length]
            exact .last start
        | cons other starts =>
            rw [List.head?_cons, Option.getD_some] at hnext
            exact .next start other starts _ _ (drop_eq_slice_append hnext.1.le hnext.2) hrest

/-- Where the stripped text of a slice ends depends on the end of the slice only. -/
theorem length_strip_slice {first last : Nat} (h : first < last) (hlast : last ≤ text.length)
    (hmark : ∃ rest, text.drop first = '#' :: rest) :
    first + (stripText (text.slice first last)).length =
      ((text.take last).reverse.dropWhile isSpace).length := by
  obtain ⟨rest, hrest⟩ := hmark
  have hslice : text.slice first last ++ text.drop last = '#' :: rest := by
    rw [← drop_eq_slice_append h.le hlast, hrest]
  have hlength : (text.slice first last).length = last - first := by
    rw [Text.slice, List.length_drop, List.length_take, min_eq_left hlast]
  have hsplit : text.take last = text.take first ++ text.slice first last := by
    have htake := List.take_append_drop first (text.take last)
    rw [List.take_take, min_eq_left h.le] at htake
    exact htake.symm
  cases hcut : text.slice first last with
  | nil =>
      rw [hcut, List.length_nil] at hlength
      omega
  | cons c slice =>
      rw [hcut, List.cons_append] at hslice
      obtain ⟨rfl, -⟩ := List.cons.inj hslice
      have hnotBlank : ¬ ((('#' :: slice).reverse.dropWhile isSpace).isEmpty = true) := by
        rw [List.isEmpty_iff, List.dropWhile_eq_nil_iff]
        intro hall
        cases hall '#' (by simp)
      rw [hsplit, hcut, List.reverse_append, List.dropWhile_append, if_neg hnotBlank, stripText,
        stripChars, List.dropWhile_cons_of_neg (by decide), List.length_append, List.length_reverse,
        List.length_reverse, List.length_take, min_eq_left (h.le.trans hlast)]
      exact Nat.add_comm _ _

/-- Places with the same stripped slices are the same. -/
theorem starts_eq_of_slices (h : Cuts text starts) (hothers : Cuts text others)
    (hsame : (slicesOf text starts).map stripText = (slicesOf text others).map stripText) :
    starts = others := by
  induction starts generalizing others with
  | nil =>
      cases others with
      | nil => rfl
      | cons other others => cases hsame
  | cons start starts ih =>
      cases others with
      | nil => cases hsame
      | cons other others =>
          obtain ⟨hslice, hslices⟩ := List.cons.inj hsame
          obtain rfl := ih h.tail hothers.tail hslices
          have hend := length_strip_slice h.next.1 h.next.2 (h.marks start List.mem_cons_self)
          have hend' := length_strip_slice hothers.next.1 hothers.next.2
            (hothers.marks other List.mem_cons_self)
          rw [hslice, ← hend'] at hend
          rw [Nat.add_right_cancel hend]

end Slices

section Entries

variable {unicode : Unicode} {text : Text}

/-- A line with marks is where the text of the document has a mark. -/
theorem drop_start_of_marked {line : Line} (hline : line ∈ documentLines text)
    (hmarked : (afterMarks line.text).isSome = true) :
    ∃ rest, text.drop line.start = '#' :: rest := by
  obtain ⟨before, after, hsplit, hstart⟩ := exists_drop_of_mem_linesFrom hline
  rw [Str.intercalate_splitChar] at hsplit
  obtain ⟨tail, htail⟩ := Option.isSome_iff_exists.mp hmarked
  obtain ⟨marks, hmarks, ⟨hsome, -, hall⟩, -⟩ := afterMarks_eq_some_iff.mp htail
  cases marks with
  | nil => cases hsome
  | cons c marks =>
      refine ⟨marks ++ tail ++ after, ?_⟩
      rw [hstart, Nat.zero_add, hsplit, List.drop_left, hmarks, hall c List.mem_cons_self]
      simp

theorem pairwise_documentLines :
    (documentLines text).Pairwise fun first second => first.start < second.start :=
  pairwise_linesFrom _ _ _

/-- Where the imported headings start, with their identifiers. -/
def importedPlaces (unicode : Unicode) (text : Text) : List (Nat × String) :=
  (takenHeadings none (documentLines text)).filterMap (importedPlace unicode)

theorem legacyHeadings_places :
    (legacyHeadings unicode text).map (fun heading => (heading.start, heading.legacyId)) =
      importedPlaces unicode text := by
  rw [legacyHeadings_eq, importedPlaces, List.map_filterMap]
  congr 1
  funext taken
  rw [importedHeading, importedPlace, Option.map_map]
  rfl

theorem cuts_importedPlaces : Cuts text ((importedPlaces unicode text).map Prod.fst) := by
  refine ⟨?_, fun start hstart => ?_⟩
  · rw [List.pairwise_map, importedPlaces, List.pairwise_filterMap]
    refine (pairwise_takenHeadings pairwise_documentLines (by simp)).imp ?_
    intro first second hless place hplace other hother
    obtain ⟨_, -, rfl⟩ := Option.map_eq_some_iff.mp hplace
    obtain ⟨_, -, rfl⟩ := Option.map_eq_some_iff.mp hother
    exact hless
  · obtain ⟨place, hplace, rfl⟩ := List.mem_map.mp hstart
    obtain ⟨taken, htaken, hid⟩ := List.mem_filterMap.mp hplace
    obtain ⟨_, -, rfl⟩ := Option.map_eq_some_iff.mp hid
    obtain ⟨line, hline, hline', hmarked⟩ := (mem_takenHeadings_start htaken).resolve_left (by simp)
    change ∃ rest, text.drop taken.1 = '#' :: rest
    rw [← hline']
    exact drop_start_of_marked hline hmarked

theorem cuts_pressureHeadings : Cuts text ((pressureHeadings unicode text).map Prod.fst) := by
  refine ⟨?_, fun start hstart => ?_⟩
  · rw [List.pairwise_map, pressureHeadings, List.pairwise_filterMap]
    refine pairwise_documentLines.imp ?_
    intro first second hless place hplace other hother
    obtain ⟨_, -, rfl⟩ := Option.map_eq_some_iff.mp hplace
    obtain ⟨_, -, rfl⟩ := Option.map_eq_some_iff.mp hother
    exact hless
  · obtain ⟨place, hplace, rfl⟩ := List.mem_map.mp hstart
    obtain ⟨line, hline, hid⟩ := List.mem_filterMap.mp hplace
    obtain ⟨id, hcarried, rfl⟩ := Option.map_eq_some_iff.mp hid
    refine drop_start_of_marked hline ?_
    cases hmarked : afterMarks line.text with
    | none =>
        rw [lineId_of_unmarked hmarked] at hcarried
        cases hcarried
    | some rest => rfl

/-- The identifiers and texts of the entries. -/
theorem legacyEntries_eq_zip :
    (legacyEntries unicode text).map (fun entry => (entry.legacyId, entry.text)) =
      ((importedPlaces unicode text).map Prod.snd).zip
        ((slicesOf text ((importedPlaces unicode text).map Prod.fst)).map stripText) := by
  rw [legacyEntries, ← legacyHeadings_places, List.map_map, List.map_map]
  induction legacyHeadings unicode text with
  | nil => rfl
  | cons heading headings ih =>
      rw [entriesBetween, List.map_cons, ih]
      cases headings <;> rfl

/-- The entries of a document are those of its headings exactly when the importer reads
headings only. -/
theorem reads_headings_iff (unicode : Unicode) (text : Text) :
    ReadsHeadings unicode text ↔ HeadingsOnly unicode false (documentLines text) := by
  have hplaces := @importedPlaces_eq_iff unicode (documentLines text)
    pairwise_documentLines none (by simp)
  rw [← pressureHeadings, ← importedPlaces, Option.isSome_none] at hplaces
  rw [← hplaces, ReadsHeadings, legacyEntries_eq_zip]
  constructor
  · rintro ⟨slices, hslices, hentries⟩
    obtain rfl := (slices_iff cuts_pressureHeadings).mp hslices
    have hunzip := congrArg List.unzip hentries
    rw [List.unzip_zip (by simp [length_slicesOf]), List.unzip_zip (by simp [length_slicesOf])]
      at hunzip
    obtain ⟨hids, htexts⟩ := Prod.mk.inj hunzip
    have hstarts := starts_eq_of_slices cuts_importedPlaces cuts_pressureHeadings htexts
    have hzip : ∀ places : List (Nat × String), (places.map Prod.fst).zip (places.map Prod.snd) =
        places := by
      intro places
      rw [← List.unzip_fst, ← List.unzip_snd, List.zip_unzip]
    rw [← hzip (importedPlaces unicode text), hstarts, hids, hzip]
  · intro hsame
    rw [hsame]
    exact ⟨_, (slices_iff cuts_pressureHeadings).mpr rfl, rfl⟩

end Entries

/-! ## Two ledgers -/

/-- Tables of ASCII. -/
def asciiLetters : Unicode where
  lower text := String.ofList (text.toList.map Char.toLower)
  isWord c := c.isAlphanum || c == '_'
  isDigit := Char.isDigit

/-- A ledger with a comment in a code sample. -/
def sampledLedger : Text := "## LANG-1 gap\n\n```sh\n# see LANG-2\n```\n".toList

/-- A ledger with a paragraph after bare marks. -/
def bareLedger : Text := "##\n\nas LANG-2 says\n".toList

/-- More entries than headings are not those of the headings. -/
theorem not_readsHeadings_of_length {unicode : Unicode} {text : Text}
    (h : (pressureHeadings unicode text).length < (legacyEntries unicode text).length) :
    ¬ ReadsHeadings unicode text := by
  rintro ⟨slices, -, hentries⟩
  have hlength := congrArg List.length hentries
  rw [List.length_map, List.length_zip, List.length_map] at hlength
  omega

/-- A code sample invents an entry, and so does a paragraph after bare marks. -/
theorem legacy_entries_invented :
    (¬ ∀ (unicode : Unicode) (text : Text), ReadsHeadings unicode text) ∧
      ¬ ReadsHeadings asciiLetters sampledLedger ∧ ¬ ReadsHeadings asciiLetters bareLedger := by
  have hsampled : ¬ ReadsHeadings asciiLetters sampledLedger :=
    not_readsHeadings_of_length (by decide +kernel)
  exact ⟨fun hall => hsampled (hall _ _), hsampled, not_readsHeadings_of_length (by decide +kernel)⟩

end MncsCommons.Pressure
