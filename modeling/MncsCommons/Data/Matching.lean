/-
# What a matcher reads

The ways to match as a relation between cursors: what each pattern reads of the text.
From it come the rules for repetitions of one character, for the first way of a
sequence, and for the matches that a search finds in a text.
-/

import MncsCommons.Data.Regex
import Mathlib.Computability.Language

namespace MncsCommons.Data

/-- The cursor moves past the text. -/
structure Cursor.Passes (cursor : Cursor) (part : Text) (next : Cursor) : Prop where
  after : cursor.after = part ++ next.after
  before : next.before = part.reverse ++ cursor.before

/-- The cursor moves past the text and keeps its group. -/
structure Cursor.Reads (cursor : Cursor) (part : Text) (next : Cursor) : Prop
    extends cursor.Passes part next where
  group : next.group = cursor.group

theorem Cursor.Passes.trans {cursor middle next : Cursor} {part rest : Text}
    (h : cursor.Passes part middle) (hrest : middle.Passes rest next) :
    cursor.Passes (part ++ rest) next := by
  refine ⟨?_, ?_⟩
  · rw [h.after, hrest.after, List.append_assoc]
  · rw [hrest.before, h.before, List.reverse_append, List.append_assoc]

namespace Cursor.Reads

variable {cursor middle next : Cursor} {part rest : Text}

theorem refl (cursor : Cursor) : cursor.Reads [] cursor := ⟨⟨rfl, rfl⟩, rfl⟩

theorem trans (h : cursor.Reads part middle) (hrest : middle.Reads rest next) :
    cursor.Reads (part ++ rest) next :=
  ⟨h.toPasses.trans hrest.toPasses, hrest.group.trans h.group⟩

/-- Where a cursor gets by a text is determined. -/
theorem unique {other : Cursor} (h : cursor.Reads part next) (hother : cursor.Reads part other) :
    next = other := by
  obtain ⟨⟨hafter, hbefore⟩, hgroup⟩ := h
  obtain ⟨⟨hafter', hbefore'⟩, hgroup'⟩ := hother
  have hrest : next.after = other.after := List.append_cancel_left (hafter.symm.trans hafter')
  cases next
  cases other
  simp only at hrest hbefore hbefore' hgroup hgroup'
  rw [hrest, hbefore, hbefore', hgroup, hgroup']

theorem nil_iff : cursor.Reads [] next ↔ next = cursor := by
  constructor
  · intro h
    exact h.unique (refl cursor)
  · rintro rfl
    exact refl _

/-- A cursor reads one text and then the other. -/
theorem split (h : cursor.Reads (part ++ rest) next) :
    cursor.Reads part ⟨part.reverse ++ cursor.before, rest ++ next.after, cursor.group⟩ ∧
      Cursor.Reads ⟨part.reverse ++ cursor.before, rest ++ next.after, cursor.group⟩ rest next := by
  refine ⟨⟨⟨?_, rfl⟩, rfl⟩, ⟨rfl, ?_⟩, h.group⟩
  · rw [h.after, List.append_assoc]
  · rw [h.before, List.reverse_append, List.append_assoc]

/-- A cursor reads the first character and then the rest. -/
theorem cons {c : Char} (h : cursor.Reads (c :: part) next) :
    cursor.Reads [c] ⟨c :: cursor.before, part ++ next.after, cursor.group⟩ ∧
      Cursor.Reads ⟨c :: cursor.before, part ++ next.after, cursor.group⟩ part next :=
  @split _ _ [c] part h

end Cursor.Reads

namespace Pattern

variable {isWord : Char → Bool} {cursor next : Cursor}

/-! ## The ways of a pattern -/

@[simp]
theorem mem_ways_empty : next ∈ ways isWord .empty cursor ↔ next = cursor := List.mem_singleton

@[simp]
theorem mem_ways_seq {first second : Pattern} :
    next ∈ ways isWord (.seq first second) cursor ↔
      ∃ middle ∈ ways isWord first cursor, next ∈ ways isWord second middle :=
  List.mem_flatMap

@[simp]
theorem mem_ways_either {first second : Pattern} :
    next ∈ ways isWord (.either first second) cursor ↔
      next ∈ ways isWord first cursor ∨ next ∈ ways isWord second cursor :=
  List.mem_append

theorem mem_ways_char {test : Char → Bool} :
    next ∈ ways isWord (.char test) cursor ↔ ∃ c, test c = true ∧ cursor.Reads [c] next := by
  obtain ⟨before, after, group⟩ := cursor
  cases after with
  | nil =>
      constructor
      · intro h
        cases h
      · rintro ⟨c, -, hreads⟩
        cases hreads.after
  | cons c after =>
      change next ∈ (if test c = true then [⟨c :: before, after, group⟩] else []) ↔ _
      constructor
      · intro h
        split at h
        · rename_i htest
          obtain rfl := List.mem_singleton.mp h
          exact ⟨c, htest, ⟨rfl, rfl⟩, rfl⟩
        · cases h
      · rintro ⟨d, htest, hreads⟩
        obtain ⟨rfl, -⟩ := List.cons.inj hreads.after
        rw [if_pos htest, List.mem_singleton]
        exact hreads.unique ⟨⟨rfl, rfl⟩, rfl⟩

theorem mem_guard {condition : Bool} :
    next ∈ (if condition = true then [cursor] else []) ↔ condition = true ∧ next = cursor := by
  cases condition with
  | false => simp
  | true => simp

@[simp]
theorem mem_ways_lineStart :
    next ∈ ways isWord .lineStart cursor ↔
      cursor.before.head?.all (· = '\n') = true ∧ next = cursor :=
  mem_guard

@[simp]
theorem mem_ways_lineEnd :
    next ∈ ways isWord .lineEnd cursor ↔
      cursor.after.head?.all (· = '\n') = true ∧ next = cursor :=
  mem_guard

@[simp]
theorem mem_ways_wordEdge :
    next ∈ ways isWord .wordEdge cursor ↔ atWordEdge isWord cursor = true ∧ next = cursor :=
  mem_guard

/-- A group holds what its body reads. -/
theorem mem_ways_group {body : Pattern} :
    next ∈ ways isWord (.group body) cursor ↔
      ∃ last ∈ ways isWord body cursor, next = { last with
        group := (last.before.take (last.before.length - cursor.before.length)).reverse } := by
  refine List.mem_map.trans ?_
  constructor
  · rintro ⟨last, hlast, heq⟩
    exact ⟨last, hlast, heq.symm⟩
  · rintro ⟨last, hlast, heq⟩
    exact ⟨last, hlast, heq.symm⟩

/-- Once a body has read a text, the group is that text. -/
theorem group_of_reads {part : Text} (h : cursor.Reads part next) :
    (next.before.take (next.before.length - cursor.before.length)).reverse = part := by
  have hlength : (part.reverse ++ cursor.before).length - cursor.before.length =
      part.reverse.length := by
    rw [List.length_append, Nat.add_sub_cancel]
  rw [h.before, hlength, List.take_left, List.reverse_reverse]

/-- The ways of a list of tests, one for each character. -/
theorem mem_ways_tests {tests : List (Char → Bool)} :
    next ∈ ways isWord (sequence (tests.map char)) cursor ↔
      ∃ part, List.Forall₂ (fun test c => test c = true) tests part ∧ cursor.Reads part next := by
  induction tests generalizing cursor with
  | nil =>
      rw [List.map_nil, sequence, List.foldr_nil, mem_ways_empty]
      constructor
      · rintro rfl
        exact ⟨[], .nil, .refl _⟩
      · rintro ⟨part, htests, hreads⟩
        cases htests
        exact Cursor.Reads.nil_iff.mp hreads
  | cons test tests ih =>
      rw [List.map_cons, sequence, List.foldr_cons, mem_ways_seq]
      constructor
      · rintro ⟨middle, hmiddle, hnext⟩
        obtain ⟨c, htest, hfirst⟩ := mem_ways_char.mp hmiddle
        obtain ⟨part, htests, hrest⟩ := ih.mp hnext
        exact ⟨c :: part, .cons htest htests, hfirst.trans hrest⟩
      · rintro ⟨part, htests, hreads⟩
        cases htests with
        | @cons _ c _ rest htest htests =>
            obtain ⟨hfirst, hrest⟩ := hreads.cons
            exact ⟨_, mem_ways_char.mpr ⟨c, htest, hfirst⟩, ih.mpr ⟨rest, htests, hrest⟩⟩

/-! ## Repetitions of one character -/

section Star

variable {test : Char → Bool} {isGreedy : Bool}

/-- A repetition takes a turn that reads something, or stops. -/
theorem mem_turns_succ {step : Cursor → List Cursor} {fuel : Nat} :
    next ∈ turns isGreedy step (fuel + 1) cursor ↔
      (∃ middle, (middle ∈ step cursor ∧ middle.after.length < cursor.after.length) ∧
        next ∈ turns isGreedy step fuel middle) ∨ next = cursor := by
  rw [turns]
  cases isGreedy with
  | true =>
      rw [if_pos rfl, List.mem_append, List.mem_flatMap, List.mem_singleton]
      simp only [List.mem_filter, decide_eq_true_eq]
  | false =>
      rw [if_neg Bool.false_ne_true, List.mem_cons, List.mem_flatMap, or_comm]
      simp only [List.mem_filter, decide_eq_true_eq]

theorem mem_turns_char {fuel : Nat} :
    next ∈ turns isGreedy (ways isWord (.char test)) fuel cursor ↔
      ∃ part : Text, part.length ≤ fuel ∧ (∀ c ∈ part, test c = true) ∧ cursor.Reads part next := by
  induction fuel generalizing cursor with
  | zero =>
      rw [turns, List.mem_singleton]
      constructor
      · rintro rfl
        exact ⟨[], le_rfl, by simp, .refl _⟩
      · rintro ⟨part, hlength, -, hreads⟩
        rw [List.length_eq_zero_iff.mp (Nat.le_zero.mp hlength)] at hreads
        exact Cursor.Reads.nil_iff.mp hreads
  | succ fuel ih =>
      rw [mem_turns_succ]
      constructor
      · rintro (⟨middle, ⟨hmiddle, -⟩, hnext⟩ | rfl)
        · obtain ⟨c, htest, hfirst⟩ := mem_ways_char.mp hmiddle
          obtain ⟨part, hlength, htests, hrest⟩ := ih.mp hnext
          exact ⟨c :: part, Nat.succ_le_succ hlength, List.forall_mem_cons.mpr ⟨htest, htests⟩,
            hfirst.trans hrest⟩
        · exact ⟨[], Nat.zero_le _, by simp, .refl _⟩
      · rintro ⟨part, hlength, htests, hreads⟩
        cases part with
        | nil => exact .inr (Cursor.Reads.nil_iff.mp hreads)
        | cons c part =>
            obtain ⟨htest, htests⟩ := List.forall_mem_cons.mp htests
            obtain ⟨hfirst, hrest⟩ := hreads.cons
            refine .inl ⟨_, ⟨mem_ways_char.mpr ⟨c, htest, hfirst⟩, ?_⟩,
              ih.mpr ⟨part, Nat.le_of_succ_le_succ hlength, htests, hrest⟩⟩
            rw [hfirst.after, List.singleton_append, List.length_cons]
            exact Nat.lt_succ_self _

/-- A repetition of a character reads any number of characters that pass. -/
theorem mem_ways_star :
    next ∈ ways isWord (.star isGreedy (.char test)) cursor ↔
      ∃ part : Text, (∀ c ∈ part, test c = true) ∧ cursor.Reads part next := by
  refine mem_turns_char.trans ?_
  constructor
  · rintro ⟨part, -, htests, hreads⟩
    exact ⟨part, htests, hreads⟩
  · rintro ⟨part, htests, hreads⟩
    refine ⟨part, ?_, htests, hreads⟩
    rw [hreads.after, List.length_append]
    exact Nat.le_add_right _ _

/-- One or more characters that pass. -/
theorem mem_ways_plus :
    next ∈ ways isWord (.seq (.char test) (.star isGreedy (.char test))) cursor ↔
      ∃ part : Text, part ≠ [] ∧ (∀ c ∈ part, test c = true) ∧ cursor.Reads part next := by
  rw [mem_ways_seq]
  constructor
  · rintro ⟨middle, hmiddle, hnext⟩
    obtain ⟨c, htest, hfirst⟩ := mem_ways_char.mp hmiddle
    obtain ⟨part, htests, hrest⟩ := mem_ways_star.mp hnext
    exact ⟨c :: part, by simp, List.forall_mem_cons.mpr ⟨htest, htests⟩, hfirst.trans hrest⟩
  · rintro ⟨part, hpart, htests, hreads⟩
    cases part with
    | nil => exact absurd rfl hpart
    | cons c part =>
        obtain ⟨htest, htests⟩ := List.forall_mem_cons.mp htests
        obtain ⟨hfirst, hrest⟩ := hreads.cons
        exact ⟨_, mem_ways_char.mpr ⟨c, htest, hfirst⟩, mem_ways_star.mpr ⟨part, htests, hrest⟩⟩

/-- At most so many characters that pass. -/
theorem mem_ways_atMost {most : Nat} :
    next ∈ ways isWord (atMost most (.char test)) cursor ↔
      ∃ part : Text, part.length ≤ most ∧ (∀ c ∈ part, test c = true) ∧ cursor.Reads part next := by
  induction most generalizing cursor with
  | zero =>
      rw [atMost, mem_ways_empty]
      constructor
      · rintro rfl
        exact ⟨[], le_rfl, by simp, .refl _⟩
      · rintro ⟨part, hlength, -, hreads⟩
        rw [List.length_eq_zero_iff.mp (Nat.le_zero.mp hlength)] at hreads
        exact Cursor.Reads.nil_iff.mp hreads
  | succ most ih =>
      rw [atMost, optional, mem_ways_either, mem_ways_seq, mem_ways_empty]
      constructor
      · rintro (⟨middle, hmiddle, hnext⟩ | rfl)
        · obtain ⟨c, htest, hfirst⟩ := mem_ways_char.mp hmiddle
          obtain ⟨part, hlength, htests, hrest⟩ := ih.mp hnext
          exact ⟨c :: part, Nat.succ_le_succ hlength, List.forall_mem_cons.mpr ⟨htest, htests⟩,
            hfirst.trans hrest⟩
        · exact ⟨[], Nat.zero_le _, by simp, .refl _⟩
      · rintro ⟨part, hlength, htests, hreads⟩
        cases part with
        | nil => exact .inr (Cursor.Reads.nil_iff.mp hreads)
        | cons c part =>
            obtain ⟨htest, htests⟩ := List.forall_mem_cons.mp htests
            obtain ⟨hfirst, hrest⟩ := hreads.cons
            exact .inl ⟨_, mem_ways_char.mpr ⟨c, htest, hfirst⟩,
              ih.mpr ⟨part, Nat.le_of_succ_le_succ hlength, htests, hrest⟩⟩

theorem between_succ {least more : Nat} {body : Pattern} :
    between (least + 1) more body = .seq body (between least more body) := by
  rw [between, List.replicate_succ, List.cons_append, sequence, List.foldr_cons]
  rfl

/-- A bounded number of characters that pass. -/
theorem mem_ways_between {least more : Nat} :
    next ∈ ways isWord (between least more (.char test)) cursor ↔
      ∃ part : Text, least ≤ part.length ∧ part.length ≤ least + more ∧
        (∀ c ∈ part, test c = true) ∧ cursor.Reads part next := by
  induction least generalizing cursor with
  | zero =>
      rw [between, List.replicate_zero, List.nil_append, sequence, List.foldr_cons, List.foldr_nil,
        mem_ways_seq]
      simp only [mem_ways_empty, exists_eq_right', mem_ways_atMost, Nat.zero_le, true_and, zero_add]
  | succ least ih =>
      rw [between_succ, mem_ways_seq]
      constructor
      · rintro ⟨middle, hmiddle, hnext⟩
        obtain ⟨c, htest, hfirst⟩ := mem_ways_char.mp hmiddle
        obtain ⟨part, hleast, hmost, htests, hrest⟩ := ih.mp hnext
        refine ⟨c :: part, Nat.succ_le_succ hleast, ?_, List.forall_mem_cons.mpr ⟨htest, htests⟩,
          hfirst.trans hrest⟩
        rw [List.length_cons]
        omega
      · rintro ⟨part, hleast, hmost, htests, hreads⟩
        cases part with
        | nil => cases hleast
        | cons c part =>
            obtain ⟨htest, htests⟩ := List.forall_mem_cons.mp htests
            obtain ⟨hfirst, hrest⟩ := hreads.cons
            rw [List.length_cons] at hleast hmost
            exact ⟨_, mem_ways_char.mpr ⟨c, htest, hfirst⟩,
              ih.mpr ⟨part, by omega, by omega, htests, hrest⟩⟩

end Star

/-! ## Languages -/

/-- The texts with a property, as a language. -/
def textsWith (property : Text → Prop) : Language Char := Set.ofPred property

@[simp]
theorem mem_textsWith {property : Text → Prop} {text : Text} :
    text ∈ textsWith property ↔ property text := Iff.rfl

/-- The pattern reads the texts of the language, whatever stands around them. -/
def Spells (isWord : Char → Bool) (pattern : Pattern) (language : Language Char) : Prop :=
  ∀ cursor next : Cursor, next ∈ ways isWord pattern cursor ↔
    ∃ part ∈ language, cursor.Reads part next

theorem spells_sequence_nil : Spells isWord (sequence []) 1 := by
  intro cursor next
  rw [sequence, List.foldr_nil]
  simp only [mem_ways_empty, Language.mem_one, exists_eq_left, Cursor.Reads.nil_iff]

theorem spells_many (test : Char → Bool) :
    Spells isWord (many (.char test)) (textsWith fun part => ∀ c ∈ part, test c = true) :=
  fun _ _ => mem_ways_star

theorem spells_oneOrMore (test : Char → Bool) :
    Spells isWord (oneOrMore (.char test))
      (textsWith fun part => part ≠ [] ∧ ∀ c ∈ part, test c = true) := by
  intro cursor next
  rw [oneOrMore, mem_ways_plus]
  simp only [mem_textsWith, and_assoc]

theorem spells_between (least more : Nat) (test : Char → Bool) :
    Spells isWord (between least more (.char test))
      (textsWith fun part => least ≤ part.length ∧ part.length ≤ least + more ∧
        ∀ c ∈ part, test c = true) := by
  intro cursor next
  rw [mem_ways_between]
  simp only [mem_textsWith, and_assoc]

theorem Spells.seq {first second : Pattern} {language other : Language Char}
    (h : Spells isWord first language) (hsecond : Spells isWord second other) :
    Spells isWord (.seq first second) (language * other) := by
  intro cursor next
  rw [mem_ways_seq]
  constructor
  · rintro ⟨middle, hmiddle, hnext⟩
    obtain ⟨part, hpart, hreads⟩ := (h _ _).mp hmiddle
    obtain ⟨rest, hrest, hreads'⟩ := (hsecond _ _).mp hnext
    exact ⟨part ++ rest, Language.append_mem_mul hpart hrest, hreads.trans hreads'⟩
  · rintro ⟨part, hpart, hreads⟩
    obtain ⟨before, hbefore, after, hafter, rfl⟩ := Language.mem_mul.mp hpart
    obtain ⟨hfirst, hrest⟩ := hreads.split
    exact ⟨_, (h _ _).mpr ⟨before, hbefore, hfirst⟩, (hsecond _ _).mpr ⟨after, hafter, hrest⟩⟩

/-- A sequence of patterns reads the texts of one after those of the other. -/
theorem spells_sequence_cons {first : Pattern} {others : List Pattern}
    {language other : Language Char} (h : Spells isWord first language)
    (hothers : Spells isWord (sequence others) other) :
    Spells isWord (sequence (first :: others)) (language * other) :=
  h.seq hothers

/-! ## The first way -/

/-- The first way of a sequence, if only one way of its first part can go on. -/
theorem head?_seq_of_only {first second : Pattern} {middle : Cursor}
    (h : middle ∈ ways isWord first cursor)
    (honly : ∀ other ∈ ways isWord first cursor, other ≠ middle → ways isWord second other = []) :
    (ways isWord (.seq first second) cursor).head? = (ways isWord second middle).head? := by
  rw [ways]
  generalize ways isWord first cursor = middles at h honly
  induction middles with
  | nil => cases h
  | cons other others ih =>
      obtain ⟨hother, hothers⟩ := List.forall_mem_cons.mp honly
      rw [List.flatMap_cons]
      by_cases heq : other = middle
      · subst heq
        cases hways : ways isWord second other with
        | cons stop stops => rfl
        | nil =>
            have hnone : others.flatMap (ways isWord second) = [] := by
              rw [List.flatMap_eq_nil_iff]
              intro next hnext
              by_cases hsame : next = other
              · rw [hsame, hways]
              · exact hothers next hnext hsame
            rw [hnone]
            rfl
      · rw [hother heq, List.nil_append]
        exact ih ((List.mem_cons.mp h).resolve_left (Ne.symm heq)) hothers

/-- A greedy repetition first reads all the characters that pass. -/
theorem head?_many_of_run {test : Char → Bool} {second : Pattern} {run : Text} {stop : Cursor}
    (htests : ∀ c ∈ run, test c = true) (hreads : cursor.Reads run next)
    (hrun : next.after.head?.all (fun c => !test c) = true)
    (hstop : (ways isWord second next).head? = some stop) :
    (ways isWord (.seq (many (.char test)) second) cursor).head? = some stop := by
  have hturns : ∀ fuel, run.length ≤ fuel →
      ((turns true (ways isWord (.char test)) fuel cursor).flatMap (ways isWord second)).head? =
        some stop := by
    intro fuel
    induction run generalizing cursor fuel with
    | nil =>
        intro _
        obtain rfl := Cursor.Reads.nil_iff.mp hreads
        have hnone : ways isWord (.char test) next = [] := by
          rw [List.eq_nil_iff_forall_not_mem]
          intro other hother
          obtain ⟨c, htest, hfirst⟩ := mem_ways_char.mp hother
          rw [hfirst.after] at hrun
          simp [htest] at hrun
        have hself : turns true (ways isWord (.char test)) fuel next = [next] := by
          cases fuel with
          | zero => rfl
          | succ fuel => simp [turns, hnone]
        rw [hself, List.flatMap_singleton]
        exact hstop
    | cons c run ih =>
        intro hlength
        obtain ⟨htest, htests⟩ := List.forall_mem_cons.mp htests
        obtain ⟨hfirst, hrest⟩ := hreads.cons
        cases fuel with
        | zero => cases hlength
        | succ fuel =>
            have hafter := hfirst.after
            rw [List.singleton_append] at hafter
            have hway : ways isWord (.char test) cursor =
                [⟨c :: cursor.before, run ++ next.after, cursor.group⟩] := by
              rw [ways, hafter]
              dsimp only
              rw [if_pos htest]
            have hshorter : (run ++ next.after).length < cursor.after.length := by
              rw [hafter, List.length_cons]
              exact Nat.lt_succ_self _
            have hkept : ∀ other ∈ ways isWord (.char test) cursor,
                decide (other.after.length < cursor.after.length) = true := by
              rw [hway]
              simpa using hshorter
            rw [turns, List.filter_eq_self.mpr hkept, hway, List.flatMap_singleton, if_pos rfl,
              List.flatMap_append, List.head?_append,
              ih htests hrest fuel (Nat.le_of_succ_le_succ hlength)]
            rfl
  rw [ways, many, ways]
  refine hturns _ ?_
  rw [hreads.after, List.length_append]
  exact Nat.le_add_right _ _

/-! ## Searches -/

section Search

variable {pattern : Pattern} {before after : Text} {found : Match}

theorem matchAt_eq_some_iff :
    matchAt isWord pattern before after = some found ↔
      found.start = ⟨before, after, []⟩ ∧
        (ways isWord pattern ⟨before, after, []⟩).head? = some found.stop := by
  rw [matchAt, Option.map_eq_some_iff]
  constructor
  · rintro ⟨stop, hstop, rfl⟩
    exact ⟨rfl, hstop⟩
  · rintro ⟨hstart, hstop⟩
    refine ⟨found.stop, hstop, ?_⟩
    rw [← hstart]

theorem matchAt_eq_none_iff :
    matchAt isWord pattern before after = none ↔ ways isWord pattern ⟨before, after, []⟩ = [] := by
  rw [matchAt, Option.map_eq_none_iff, List.head?_eq_none_iff]

/-- A match stops at one of the ways from its start. -/
theorem mem_ways_of_matchAt (h : matchAt isWord pattern before after = some found) :
    found.stop ∈ ways isWord pattern ⟨before, after, []⟩ :=
  List.mem_of_head? (matchAt_eq_some_iff.mp h).2

/-- A search passes positions without a match. -/
theorem searchFrom_append {skipped rest : Text}
    (h : ∀ first last c, skipped = first ++ c :: last →
      matchAt isWord pattern (first.reverse ++ before) (c :: last ++ rest) = none) :
    searchFrom isWord pattern before (skipped ++ rest) =
      searchFrom isWord pattern (skipped.reverse ++ before) rest := by
  induction skipped generalizing before with
  | nil => rfl
  | cons c skipped ih =>
      have hfirst := h [] skipped c rfl
      rw [List.reverse_nil, List.nil_append] at hfirst
      rw [List.cons_append, searchFrom, ← List.cons_append, hfirst, Option.orElse_none, ih,
        List.reverse_cons, List.append_assoc]
      · rfl
      · intro first last d hsplit
        have hlater := h (c :: first) last d (by rw [hsplit]; rfl)
        rwa [List.reverse_cons, List.append_assoc] at hlater

/-- Where a search finds a match there is one, and none before. -/
theorem searchFrom_eq_some (h : searchFrom isWord pattern before after = some found) :
    ∃ skipped rest, after = skipped ++ rest ∧
      matchAt isWord pattern (skipped.reverse ++ before) rest = some found ∧
      ∀ first last, skipped = first ++ last → last ≠ [] →
        matchAt isWord pattern (first.reverse ++ before) (last ++ rest) = none := by
  induction after generalizing before with
  | nil =>
      refine ⟨[], [], rfl, h, fun first last hsplit hlast => ?_⟩
      exact absurd (List.append_eq_nil_iff.mp hsplit.symm).2 hlast
  | cons c after ih =>
      rw [searchFrom] at h
      cases hfirst : matchAt isWord pattern before (c :: after) with
      | some first =>
          rw [hfirst, Option.orElse_some] at h
          refine ⟨[], c :: after, rfl, by rw [← h]; exact hfirst, fun first last hsplit hlast => ?_⟩
          exact absurd (List.append_eq_nil_iff.mp hsplit.symm).2 hlast
      | none =>
          rw [hfirst, Option.orElse_none] at h
          obtain ⟨skipped, rest, hsplit, hmatch, hnone⟩ := ih h
          refine ⟨c :: skipped, rest, by rw [hsplit]; rfl, ?_, fun first last heq hlast => ?_⟩
          · rwa [List.reverse_cons, List.append_assoc]
          · cases first with
            | nil =>
                rw [List.nil_append] at heq
                rw [← heq, List.cons_append, ← hsplit]
                exact hfirst
            | cons d first =>
                obtain ⟨rfl, hrest⟩ := List.cons.inj heq
                rw [List.reverse_cons, List.append_assoc]
                exact hnone first last hrest hlast

theorem searchFrom_of_matchAt (h : matchAt isWord pattern before after = some found) :
    searchFrom isWord pattern before after = some found := by
  cases after with
  | nil => exact h
  | cons c after => rw [searchFrom, h, Option.orElse_some]

/-- A search that finds nothing passes every position. -/
theorem searchFrom_eq_none (h : searchFrom isWord pattern before after = none)
    {skipped rest : Text} (hsplit : after = skipped ++ rest) :
    matchAt isWord pattern (skipped.reverse ++ before) rest = none := by
  induction after generalizing before skipped with
  | nil =>
      obtain ⟨rfl, rfl⟩ := List.append_eq_nil_iff.mp hsplit.symm
      exact h
  | cons c after ih =>
      rw [searchFrom] at h
      cases hfirst : matchAt isWord pattern before (c :: after) with
      | some first => rw [hfirst] at h; cases h
      | none =>
          rw [hfirst, Option.orElse_none] at h
          cases skipped with
          | nil =>
              rw [List.nil_append] at hsplit
              rw [← hsplit]
              exact hfirst
          | cons d skipped =>
              obtain ⟨rfl, hrest⟩ := List.cons.inj hsplit
              rw [List.reverse_cons, List.append_assoc]
              exact ih h hrest

end Search

/-! ## All matches -/

/-- Every way moves forward. -/
theorem exists_passes {pattern : Pattern} (h : next ∈ ways isWord pattern cursor) :
    ∃ part, cursor.Passes part next := by
  induction pattern generalizing cursor next with
  | empty => exact ⟨[], mem_ways_empty.mp h ▸ ⟨rfl, rfl⟩⟩
  | char test =>
      obtain ⟨c, -, hreads⟩ := mem_ways_char.mp h
      exact ⟨[c], hreads.toPasses⟩
  | seq first second ihFirst ihSecond =>
      obtain ⟨middle, hmiddle, hnext⟩ := mem_ways_seq.mp h
      obtain ⟨part, hpart⟩ := ihFirst hmiddle
      obtain ⟨rest, hrest⟩ := ihSecond hnext
      exact ⟨part ++ rest, hpart.trans hrest⟩
  | either first second ihFirst ihSecond =>
      obtain hfirst | hsecond := mem_ways_either.mp h
      · exact ihFirst hfirst
      · exact ihSecond hsecond
  | star isGreedy body ih =>
      rw [ways] at h
      generalize cursor.after.length = fuel at h
      induction fuel generalizing cursor with
      | zero =>
          obtain rfl := List.mem_singleton.mp h
          exact ⟨[], rfl, rfl⟩
      | succ fuel ihFuel =>
          obtain ⟨middle, ⟨hmiddle, -⟩, hnext⟩ | rfl := mem_turns_succ.mp h
          · obtain ⟨part, hpart⟩ := ih hmiddle
            obtain ⟨rest, hrest⟩ := ihFuel hnext
            exact ⟨part ++ rest, hpart.trans hrest⟩
          · exact ⟨[], rfl, rfl⟩
  | group body ih =>
      obtain ⟨last, hlast, rfl⟩ := mem_ways_group.mp h
      obtain ⟨part, hpart⟩ := ih hlast
      exact ⟨part, hpart.after, hpart.before⟩
  | textStart =>
      rw [ways, mem_guard] at h
      exact ⟨[], h.2 ▸ ⟨rfl, rfl⟩⟩
  | lineStart => exact ⟨[], (mem_ways_lineStart.mp h).2 ▸ ⟨rfl, rfl⟩⟩
  | lineEnd => exact ⟨[], (mem_ways_lineEnd.mp h).2 ▸ ⟨rfl, rfl⟩⟩
  | wordEdge => exact ⟨[], (mem_ways_wordEdge.mp h).2 ▸ ⟨rfl, rfl⟩⟩

/-- No match is empty, and none starts inside another one. -/
structure Apart (isWord : Char → Bool) (pattern : Pattern) : Prop where
  nonempty : ∀ cursor, ∀ stop ∈ ways isWord pattern cursor,
    stop.after.length < cursor.after.length
  apart : ∀ before first last rest group, first ≠ [] → last ≠ [] →
    (⟨last.reverse ++ (first.reverse ++ before), rest, group⟩ : Cursor) ∈
      ways isWord pattern ⟨before, first ++ (last ++ rest), []⟩ →
    ways isWord pattern ⟨first.reverse ++ before, last ++ rest, []⟩ = []

section FindAll

variable {pattern : Pattern} {before after : Text} {found : Match}

theorem mem_findFrom_iff (hpattern : Apart isWord pattern) {fuel : Nat}
    (hfuel : after.length < fuel) :
    found ∈ findFrom isWord pattern fuel before after ↔
      ∃ skipped rest, after = skipped ++ rest ∧
        matchAt isWord pattern (skipped.reverse ++ before) rest = some found := by
  induction fuel generalizing before after with
  | zero => cases hfuel
  | succ fuel ih =>
      rw [findFrom]
      cases hsearch : searchFrom isWord pattern before after with
      | none =>
          constructor
          · intro h
            cases h
          · rintro ⟨skipped, rest, hsplit, hmatch⟩
            rw [searchFrom_eq_none hsearch hsplit] at hmatch
            cases hmatch
      | some first =>
          obtain ⟨passed, rest, rfl, hfirst, hnone⟩ := searchFrom_eq_some hsearch
          have hways := mem_ways_of_matchAt hfirst
          obtain ⟨part, hpart⟩ := exists_passes hways
          have hafter : rest = part ++ first.stop.after := hpart.after
          have hbefore : first.stop.before = part.reverse ++ (passed.reverse ++ before) :=
            hpart.before
          have hless : first.stop.after.length < fuel := by
            have hshort : first.stop.after.length < rest.length := hpattern.nonempty _ _ hways
            rw [List.length_append] at hfuel
            omega
          dsimp only
          rw [List.mem_cons, ih hless]
          constructor
          · rintro (rfl | ⟨skipped, others, hsplit, hmatch⟩)
            · exact ⟨passed, rest, rfl, hfirst⟩
            · refine ⟨passed ++ (part ++ skipped), others, ?_, ?_⟩
              · rw [hafter, hsplit, List.append_assoc, List.append_assoc]
              · rw [hbefore] at hmatch
                rwa [List.reverse_append, List.reverse_append, List.append_assoc,
                  List.append_assoc]
          · rintro ⟨skipped, others, hsplit, hmatch⟩
            obtain ⟨between, rfl, hrest⟩ | ⟨between, hpassed, rfl⟩ :=
              List.append_eq_append_iff.mp hsplit
            · -- the match starts where the first one does, or later
              rw [List.reverse_append, List.append_assoc] at hmatch
              obtain ⟨more, hpartSplit, hothers⟩ | ⟨more, hbetween, hstop⟩ :=
                List.append_eq_append_iff.mp (hrest.symm.trans hafter)
              · cases between with
                | nil =>
                    rw [hrest, List.nil_append] at hfirst
                    exact .inl (Option.some.inj (hmatch.symm.trans hfirst))
                | cons c between =>
                    cases more with
                    | nil =>
                        refine .inr ⟨[], others, hothers.symm, ?_⟩
                        rw [hbefore, hpartSplit, List.append_nil]
                        exact hmatch
                    | cons d more =>
                        -- it would start inside the first one
                        exfalso
                        have hinside := hpattern.apart (passed.reverse ++ before) (c :: between)
                          (d :: more) first.stop.after first.stop.group (by simp) (by simp) (by
                            rw [← hothers, ← hrest, ← List.append_assoc, ← List.reverse_append,
                              ← hpartSplit, ← hbefore]
                            exact hways)
                        rw [← hothers] at hinside
                        rw [matchAt_eq_none_iff.mpr hinside] at hmatch
                        cases hmatch
              · refine .inr ⟨more, others, hstop, ?_⟩
                rw [hbefore]
                rwa [hbetween, List.reverse_append, List.append_assoc] at hmatch
            · cases between with
              | nil =>
                  rw [List.append_nil] at hpassed
                  rw [hpassed] at hfirst
                  exact .inl (Option.some.inj (hmatch.symm.trans hfirst))
              | cons c between =>
                  rw [hnone skipped (c :: between) hpassed (by simp)] at hmatch
                  cases hmatch

/-- If matches are apart, then every one that there is is found. -/
theorem mem_findAll_iff (hpattern : Apart isWord pattern) {text : Text} :
    found ∈ findAll isWord pattern text ↔
      ∃ skipped rest, text = skipped ++ rest ∧
        matchAt isWord pattern skipped.reverse rest = some found := by
  rw [findAll, mem_findFrom_iff hpattern (Nat.lt_succ_self _)]
  simp only [List.append_nil]

end FindAll

end Pattern

end MncsCommons.Data
