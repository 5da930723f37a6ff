/-
# Programs with crash points

A program over a state that survives crashes: it reads and changes the state in
atomic steps, and returns a value or raises.  A run keeps the state after every
atomic step, so the states a crash can leave behind are the members of its
trace, and a statement about every crash point is a statement about every member.

A failed run keeps the state it reached: nothing is rolled back.
-/

import Mathlib.Data.List.Basic

namespace MncsCommons.Exec

universe u

variable {σ ε α β : Type}

/-- One run: the states after its atomic steps, where it ended, and what it
returned or raised. -/
structure Run (σ ε α : Type) where
  /-- The state after each atomic step, in order. -/
  trace : List σ
  /-- The state at the end. -/
  final : σ
  /-- The value returned or the exception raised. -/
  result : Except ε α

/-- A program reads and changes the state, and returns or raises. -/
def Program (σ ε α : Type) := σ → Run σ ε α

namespace Run

/-- Continue a run that returned. -/
def andThen (run : Run σ ε α) (next : α → Program σ ε β) : Run σ ε β :=
  match run.result with
  | .error error => ⟨run.trace, run.final, .error error⟩
  | .ok value =>
      let rest := next value run.final
      ⟨run.trace ++ rest.trace, rest.final, rest.result⟩

@[simp]
theorem andThen_ok (trace : List σ) (final : σ) (value : α) (next : α → Program σ ε β) :
    (Run.mk trace final (.ok value)).andThen next =
      ⟨trace ++ (next value final).trace, (next value final).final,
        (next value final).result⟩ := rfl

@[simp]
theorem andThen_error (trace : List σ) (final : σ) (error : ε) (next : α → Program σ ε β) :
    (Run.mk trace final (.error error)).andThen next = ⟨trace, final, .error error⟩ := rfl

/-- A sequence returns when both parts do. -/
theorem andThen_result_eq_ok_iff {run : Run σ ε α} {next : α → Program σ ε β} {value : β} :
    (run.andThen next).result = .ok value ↔
      ∃ middle, run.result = .ok middle ∧ (next middle run.final).result = .ok value := by
  obtain ⟨trace, final, result⟩ := run
  cases result <;> simp [andThen]

theorem andThen_of_ok {run : Run σ ε α} {middle : α} (h : run.result = .ok middle)
    (next : α → Program σ ε β) :
    run.andThen next =
      ⟨run.trace ++ (next middle run.final).trace, (next middle run.final).final,
        (next middle run.final).result⟩ := by
  obtain ⟨trace, final, result⟩ := run
  subst h
  rfl

theorem andThen_of_error {run : Run σ ε α} {error : ε} (h : run.result = .error error)
    (next : α → Program σ ε β) : run.andThen next = ⟨run.trace, run.final, .error error⟩ := by
  rw [andThen, h]

end Run

namespace Program

/-- Return a value without touching the state. -/
def ret (value : α) : Program σ ε α := fun state => ⟨[], state, .ok value⟩

instance : Monad (Program σ ε) where
  pure := ret
  bind program next := fun state => (program state).andThen next

/-- The current state. -/
def get : Program σ ε σ := fun state => ⟨[], state, .ok state⟩

/-- One atomic change of the state. -/
def step (change : σ → σ) : Program σ ε Unit := fun state => ⟨[change state], change state, .ok ()⟩

/-- Raise. -/
def raise (error : ε) : Program σ ε α := fun state => ⟨[], state, .error error⟩

/-- A computation that does not touch the state. -/
def lift (computation : Except ε α) : Program σ ε α := fun state => ⟨[], state, computation⟩

/-- Run the handler when the program raises, from the state it reached. -/
def handle (program : Program σ ε α) (handler : ε → Program σ ε α) : Program σ ε α := fun state =>
  let run := program state
  match run.result with
  | .ok _ => run
  | .error error =>
      let rest := handler error run.final
      ⟨run.trace ++ rest.trace, rest.final, rest.result⟩

/-- Perform a step for each item in order. -/
def forEach (items : List α) (body : α → Program σ ε Unit) : Program σ ε Unit :=
  match items with
  | [] => pure ()
  | item :: items => do
      body item
      forEach items body

/-! ## Running -/

@[simp]
theorem pure_apply (value : α) (state : σ) :
    (pure value : Program σ ε α) state = ⟨[], state, .ok value⟩ := rfl

@[simp]
theorem bind_apply (program : Program σ ε α) (next : α → Program σ ε β) (state : σ) :
    (program >>= next) state = (program state).andThen next := rfl

@[simp]
theorem get_apply (state : σ) : (get : Program σ ε σ) state = ⟨[], state, .ok state⟩ := rfl

@[simp]
theorem step_apply (change : σ → σ) (state : σ) :
    (step change : Program σ ε Unit) state = ⟨[change state], change state, .ok ()⟩ := rfl

@[simp]
theorem raise_apply (error : ε) (state : σ) :
    (raise error : Program σ ε α) state = ⟨[], state, .error error⟩ := rfl

@[simp]
theorem lift_apply (computation : Except ε α) (state : σ) :
    (lift computation : Program σ ε α) state = ⟨[], state, computation⟩ := rfl

theorem handle_of_ok {program : Program σ ε α} {state : σ} {value : α}
    (h : (program state).result = .ok value) (handler : ε → Program σ ε α) :
    handle program handler state = program state := by
  rw [handle]
  dsimp only
  rw [h]

theorem handle_of_error {program : Program σ ε α} {state : σ} {error : ε}
    (h : (program state).result = .error error) (handler : ε → Program σ ε α) :
    handle program handler state =
      ⟨(program state).trace ++ (handler error (program state).final).trace,
        (handler error (program state).final).final,
        (handler error (program state).final).result⟩ := by
  rw [handle]
  dsimp only
  rw [h]

@[simp]
theorem forEach_nil (body : α → Program σ ε Unit) (state : σ) :
    forEach [] body state = ⟨[], state, .ok ()⟩ := rfl

@[simp]
theorem forEach_cons (item : α) (items : List α) (body : α → Program σ ε Unit) (state : σ) :
    forEach (item :: items) body state = (body item state).andThen fun _ => forEach items body :=
  rfl

/-- A sequence that starts by reading ends where it started, or where the rest ends. -/
theorem final_bind_cases {program : Program σ ε α} {next : α → Program σ ε β} {state : σ}
    (h : (program state).final = state) :
    ((program >>= next) state).final = state ∨
      ∃ value, (program state).result = .ok value ∧
        ((program >>= next) state).final = (next value state).final := by
  rw [bind_apply, Run.andThen]
  cases (program state).result with
  | error error => exact .inl h
  | ok value =>
      right
      refine ⟨value, rfl, ?_⟩
      dsimp only
      rw [h]

/-- A sequence that starts by reading ends in a state with what the start has, when
the rest does. -/
theorem final_bind_of_reads {property : σ → Prop} {program : Program σ ε α}
    {next : α → Program σ ε β} {state : σ} (h : property state)
    (hreads : (program state).final = state)
    (hnext : ∀ value, (program state).result = .ok value → property (next value state).final) :
    property ((program >>= next) state).final := by
  rcases @final_bind_cases _ _ _ _ program next state hreads with
    hfinal | ⟨value, hvalue, hfinal⟩
  · rwa [hfinal]
  · rw [hfinal]
    exact hnext value hvalue

/-- A sequence whose rest leaves the state ends where its start does. -/
theorem final_bind_of_keeps {program : Program σ ε α} {next : α → Program σ ε β}
    (h : ∀ value state, (next value state).final = state) (state : σ) :
    ((program >>= next) state).final = (program state).final := by
  rw [bind_apply, Run.andThen]
  cases (program state).result with
  | error error => rfl
  | ok value => exact h value _

/-- A program with a handler that leaves the state ends where the program does. -/
theorem final_handle_of_keeps {program : Program σ ε α} {handler : ε → Program σ ε α}
    (h : ∀ error state, (handler error state).final = state) (state : σ) :
    (handle program handler state).final = (program state).final := by
  cases hresult : (program state).result with
  | ok value => rw [handle_of_ok hresult]
  | error error =>
      rw [handle_of_error hresult]
      exact h error _

/-! ## Where a program ends

A preorder that every step follows is followed by the whole program, whether it
returns or raises. -/

/-- The state at the end is related to the one at the start. -/
def Follows (relation : σ → σ → Prop) (program : Program σ ε α) : Prop :=
  ∀ state, relation state (program state).final

section Follows

variable {relation : σ → σ → Prop}

theorem follows_pure [Std.Refl relation] (value : α) :
    Follows relation (pure value : Program σ ε α) :=
  fun state => Std.Refl.refl state

theorem follows_get [Std.Refl relation] : Follows relation (get : Program σ ε σ) :=
  fun state => Std.Refl.refl state

theorem follows_raise [Std.Refl relation] (error : ε) :
    Follows relation (raise error : Program σ ε α) :=
  fun state => Std.Refl.refl state

theorem follows_lift [Std.Refl relation] (computation : Except ε α) :
    Follows relation (lift computation : Program σ ε α) :=
  fun state => Std.Refl.refl state

theorem follows_step {change : σ → σ} (h : ∀ state, relation state (change state)) :
    Follows relation (step change : Program σ ε Unit) :=
  h

theorem follows_bind [IsTrans σ relation] {program : Program σ ε α} {next : α → Program σ ε β}
    (hprogram : Follows relation program) (hnext : ∀ value, Follows relation (next value)) :
    Follows relation (program >>= next) := by
  intro state
  have hfirst := hprogram state
  rw [bind_apply, Run.andThen]
  cases (program state).result with
  | error error => exact hfirst
  | ok value => exact IsTrans.trans _ _ _ hfirst (hnext value _)

theorem follows_forEach [Std.Refl relation] [IsTrans σ relation] {body : α → Program σ ε Unit}
    (h : ∀ item, Follows relation (body item)) (items : List α) :
    Follows relation (forEach items body) := by
  induction items with
  | nil => exact follows_pure ()
  | cons item items ih => exact follows_bind (h item) fun _ => ih

end Follows

/-! ## Every state of a run

Pre- and postconditions with an invariant of the states in between: the states a
crash can leave behind satisfy it, and so does the state a program that raises
ends in. -/

/-- The states that a run leaves behind when it is cut off, or ends in. -/
def states (program : Program σ ε α) (state : σ) : List σ :=
  (program state).trace ++ [(program state).final]

/-- From a state with the invariant and the precondition, every state of the run
has the invariant, and what the program returns satisfies the postcondition. -/
def Ensures (inv pre : σ → Prop) (program : Program σ ε α) (post : α → σ → Prop) : Prop :=
  ∀ state, inv state → pre state →
    (∀ other ∈ program.states state, inv other) ∧
      ∀ value, (program state).result = .ok value → post value (program state).final

section Ensures

variable {inv pre : σ → Prop} {post : α → σ → Prop}

theorem ensures_pure {value : α} (h : ∀ state, inv state → pre state → post value state) :
    Ensures inv pre (pure value : Program σ ε α) post := by
  intro state hinv hpre
  refine ⟨by simpa [states] using hinv, ?_⟩
  rintro other ⟨rfl⟩
  exact h state hinv hpre

theorem ensures_get : Ensures inv pre (get : Program σ ε σ) fun value state =>
    value = state ∧ pre state := by
  intro state hinv hpre
  refine ⟨by simpa [states] using hinv, ?_⟩
  rintro other ⟨rfl⟩
  exact ⟨rfl, hpre⟩

theorem ensures_raise (error : ε) : Ensures inv pre (raise error : Program σ ε α) post :=
  fun _ hinv _ => ⟨by simpa [states] using hinv, fun _ h => nomatch h⟩

theorem ensures_lift (computation : Except ε α) :
    Ensures inv pre (lift computation : Program σ ε α) fun value state =>
      computation = .ok value ∧ pre state :=
  fun _ hinv hpre => ⟨by simpa [states] using hinv, fun _ h => ⟨h, hpre⟩⟩

theorem ensures_step {change : σ → σ} {post : Unit → σ → Prop}
    (h : ∀ state, inv state → pre state → inv (change state) ∧ post () (change state)) :
    Ensures inv pre (step change : Program σ ε Unit) post := by
  intro state hinv hpre
  obtain ⟨hchange, hpost⟩ := h state hinv hpre
  exact ⟨by simpa [states] using hchange, fun _ _ => hpost⟩

theorem ensures_bind {program : Program σ ε α} {next : α → Program σ ε β}
    {post : β → σ → Prop} (middle : α → σ → Prop) (hprogram : Ensures inv pre program middle)
    (hnext : ∀ value, Ensures inv (middle value) (next value) post) :
    Ensures inv pre (program >>= next) post := by
  intro state hinv hpre
  obtain ⟨hstates, hmiddle⟩ := hprogram state hinv hpre
  rw [states, bind_apply, Run.andThen]
  cases hresult : (program state).result with
  | error error => exact ⟨hstates, fun _ h => nomatch h⟩
  | ok value =>
      have hfinal : inv (program state).final := hstates _ (by simp [states])
      obtain ⟨hrest, hpost⟩ := hnext value _ hfinal (hmiddle value hresult)
      refine ⟨fun other hother => ?_, hpost⟩
      rw [List.append_assoc] at hother
      rcases List.mem_append.mp hother with hbefore | hafter
      · exact hstates other (List.mem_append_left _ hbefore)
      · exact hrest other hafter

theorem Ensures.weaken {program : Program σ ε α} {pre' : σ → Prop} {post' : α → σ → Prop}
    (h : Ensures inv pre program post) (hpre : ∀ state, inv state → pre' state → pre state)
    (hpost : ∀ value state, post value state → post' value state) :
    Ensures inv pre' program post' := by
  intro state hinv hbefore
  obtain ⟨hstates, hafter⟩ := h state hinv (hpre state hinv hbefore)
  exact ⟨hstates, fun value hvalue => hpost value _ (hafter value hvalue)⟩

/-- A fact that the precondition gives, whatever the state. -/
theorem ensures_of_fact {program : Program σ ε α} (fact : Prop)
    (hfact : ∀ state, inv state → pre state → fact) (h : fact → Ensures inv pre program post) :
    Ensures inv pre program post :=
  fun state hinv hpre => h (hfact state hinv hpre) state hinv hpre

theorem ensures_exists {program : Program σ ε α} {γ : Type} {pre : γ → σ → Prop}
    (h : ∀ choice, Ensures inv (pre choice) program post) :
    Ensures inv (fun state => ∃ choice, pre choice state) program post :=
  fun state hinv ⟨choice, hpre⟩ => h choice state hinv hpre

/-- A condition that every item keeps is kept by the loop. -/
theorem ensures_forEach {body : α → Program σ ε Unit}
    (h : ∀ item, Ensures inv pre (body item) fun _ => pre) (items : List α) :
    Ensures inv pre (forEach items body) fun _ => pre := by
  induction items with
  | nil => exact ensures_pure fun _ _ hpre => hpre
  | cons item items ih => exact ensures_bind (fun _ => pre) (h item) fun _ => ih

end Ensures

end Program

end MncsCommons.Exec
