/-
# What a call does to the documents

A call that returns has written what it returns, and a call that raises has
written nothing, with one exception: `relate` and `transition` raise after they
have written their event.  What they leave then depends on whether validation
reported or raised, and on whether the event was there before
(`final_writeChecked`).
-/

import MncsCommons.Pressure.Registry

namespace MncsCommons.Pressure

open MncsCommons.Data MncsCommons.Protocol MncsCommons.Exec

/-! ## The frame -/

/-- The registry after `init`. -/
def Registry.framed (host : Host) (registry : Registry) : Registry :=
  { registry with complete := true, manifest := some (packagedManifest host) }

/-- Two registries that hold the same documents. -/
structure SameDocuments (first second : Registry) : Prop where
  records : first.records = second.records
  observations : first.observations = second.observations
  events : first.events = second.events

theorem SameDocuments.refl (registry : Registry) : SameDocuments registry registry := ⟨rfl, rfl, rfl⟩

/-- The frame adds no document. -/
theorem sameDocuments_framed (host : Host) (registry : Registry) :
    SameDocuments (registry.framed host) registry := ⟨rfl, rfl, rfl⟩

/-- The registry with an observation more. -/
def Registry.withObservation (registry : Registry) (name : String) (document : Fields) : Registry :=
  { registry with
    observations := Fields.set registry.observations name (some (Fields.sortKeys document)) }

/-- The registry with a declaration more. -/
def Registry.withRecord (registry : Registry) (name : String) (document : Fields) : Registry :=
  { registry with records := Fields.set registry.records name (some (Fields.sortKeys document)) }

/-- The registry with an event more. -/
def Registry.withEvent (registry : Registry) (name : String) (document : Fields) : Registry :=
  { registry with events := Fields.set registry.events name (some (Fields.sortKeys document)) }

section Calls

variable {host : Host} {now recordId : String} {spec : Fields} {registry : Registry} {α β : Type}

/-- A call whose check raises leaves the frame. -/
theorem checkedCall_of_error {check : Documents → Py β} {next : β → Op α} {error : PyError}
    (h : (documents registry >>= check) = .error error) :
    (checkedCall host check next registry).final = registry.framed host ∧
      (checkedCall host check next registry).result = .error error := by
  have hframed : (documents (registry.framed host) >>= check) = .error error := h
  simp only [checkedCall, Program.bind_apply, init, Program.step_apply, Run.andThen_ok,
    Program.get_apply, Program.lift_apply]
  rw [show ({ registry with complete := true, manifest := some (packagedManifest host) } : Registry) =
    registry.framed host from rfl, hframed]
  exact ⟨rfl, rfl⟩

/-- A call whose check returns goes on from the frame. -/
theorem checkedCall_of_ok {check : Documents → Py β} {next : β → Op α} {value : β}
    (h : (documents registry >>= check) = .ok value) :
    (checkedCall host check next registry).final = (next value (registry.framed host)).final ∧
      (checkedCall host check next registry).result = (next value (registry.framed host)).result := by
  have hframed : (documents (registry.framed host) >>= check) = .ok value := h
  simp only [checkedCall, Program.bind_apply, init, Program.step_apply, Run.andThen_ok,
    Program.get_apply, Program.lift_apply]
  rw [show ({ registry with complete := true, manifest := some (packagedManifest host) } : Registry) =
    registry.framed host from rfl, hframed]
  exact ⟨rfl, rfl⟩

/-! ## Observing -/

/-- Storing an observation writes it when its name is free, and nothing otherwise. -/
theorem storeObservation_cases (entry : String × Fields) (registry : Registry) :
    (storeObservation entry registry).final = registry ∨
      Fields.get? registry.observations entry.1 = none ∧
        (storeObservation entry registry).result = .ok entry.2 ∧
        (storeObservation entry registry).final = registry.withObservation entry.1 entry.2 := by
  simp only [storeObservation, Program.bind_apply, Program.get_apply, Run.andThen_ok]
  cases Fields.get? registry.observations entry.1 with
  | none => exact .inr ⟨rfl, rfl, rfl⟩
  | some contents =>
      cases contents with
      | none => exact .inl rfl
      | some existing =>
          dsimp only
          split
          · exact .inl rfl
          · exact .inl rfl

/-- An observation that is written is new, and a call that raises writes nothing. -/
theorem observe_cases (host : Host) (now recordId : String) (spec : Fields) (registry : Registry) :
    (observe host now recordId spec registry).final = registry.framed host ∨
      ∃ documents entry, Pressure.documents registry = .ok documents ∧
        checkObserveCall now recordId spec documents = .ok entry ∧
        Fields.get? registry.observations entry.1 = none ∧
        (observe host now recordId spec registry).result = .ok entry.2 ∧
        (observe host now recordId spec registry).final =
          (registry.framed host).withObservation entry.1 entry.2 := by
  unfold observe
  cases hcheck : (documents registry >>= checkObserveCall now recordId spec) with
  | error error => exact .inl (checkedCall_of_error hcheck).1
  | ok entry =>
      obtain ⟨hfinal, hresult⟩ := @checkedCall_of_ok host registry Fields _ _ storeObservation _ hcheck
      rw [hfinal, hresult]
      rcases storeObservation_cases entry (registry.framed host) with hsame | ⟨hnew, hok, hwritten⟩
      · exact .inl hsame
      · obtain ⟨documents, hdocuments, hentry⟩ := Py.bind_eq_ok_iff.mp hcheck
        exact .inr ⟨documents, entry, hdocuments, hentry, hnew, hok, hwritten⟩

/-- `verify` observes, or raises before it does anything. -/
theorem verify_cases (host : Host) (now recordId : String) (call : Verification)
    (registry : Registry) :
    (verify host now recordId call registry).final = registry ∨
      ∃ spec, (verify host now recordId call registry).final =
          (observe host now recordId spec registry).final ∧
        (verify host now recordId call registry).result =
          (observe host now recordId spec registry).result := by
  simp only [verify, Program.bind_apply, Program.lift_apply]
  cases inSet call.status evidenceStatuses with
  | error error => exact .inl rfl
  | ok known =>
      rw [Run.andThen_ok]
      cases known with
      | false => exact .inl rfl
      | true =>
          rw [show raiseIf (!true) (PyError.valueError
            "verification status must be PASS, FAIL, or UNKNOWN") = .ok () from rfl]
          simp only [Run.andThen_ok, Program.bind_apply, Program.lift_apply]
          cases isClosed call.workaroundRemoved with
          | error error => exact .inl rfl
          | ok closed =>
              simp only [Run.andThen_ok, Program.bind_apply, Program.lift_apply]
              cases hremoved : !(closed || call.workaroundRemoved.pyEq (.bool false)) with
              | true => exact .inl rfl
              | false => exact .inr ⟨_, rfl, rfl⟩

/-! ## Declaring -/

/-- Writing a document under a free name and unlinking it leaves the directory. -/
theorem erase_set_of_free {directory : Directory} {name : String} (contents : Option Fields)
    (h : Fields.get? directory name = none) :
    Fields.erase (Fields.set directory name contents) name = directory := by
  have hfree := Fields.get?_eq_none_iff.mp h
  rw [Fields.set_of_not_mem contents hfree, Fields.erase, List.filter_append]
  have hkept : directory.filter (fun field => field.1 ≠ name) = directory := by
    rw [List.filter_eq_self]
    intro field hfield
    have hne : field.1 ≠ name := fun heq => hfree (heq ▸ List.mem_map_of_mem hfield)
    simpa using hne
  rw [hkept]
  simp

/-- The first observation is observed, or raises before it does anything. -/
theorem firstObservation_cases (host : Host) (now : String) (spec : Fields)
    (declaration : Declaration) (registry : Registry) :
    (firstObservation host now spec declaration registry).final = registry ∨
      (firstObservation host now spec declaration registry).final = registry.framed host ∨
      ∃ entry : String × Fields, Fields.get? registry.observations entry.1 = none ∧
        (firstObservation host now spec declaration registry).result = .ok entry.2 ∧
        (firstObservation host now spec declaration registry).final =
          (registry.framed host).withObservation entry.1 entry.2 := by
  have hobserve : ∀ observation,
      (observe host now declaration.id observation registry).final = registry.framed host ∨
        ∃ entry : String × Fields, Fields.get? registry.observations entry.1 = none ∧
          (observe host now declaration.id observation registry).result = .ok entry.2 ∧
          (observe host now declaration.id observation registry).final =
            (registry.framed host).withObservation entry.1 entry.2 := by
    intro observation
    rcases observe_cases host now declaration.id observation registry with h |
      ⟨-, entry, -, -, hnew, hok, hfinal⟩
    · exact .inl h
    · exact .inr ⟨entry, hnew, hok, hfinal⟩
  unfold firstObservation
  cases Fields.get spec "observation" with
  | null => exact .inr (hobserve _)
  | obj observation => exact .inr (hobserve observation)
  | bool _ | int _ | decimal _ | str _ | arr _ => exact .inl rfl

/-- A declaration that stays is new and its call returns; a call that raises
leaves no document. -/
theorem add_cases (host : Host) (now : String) (spec : Fields) (registry : Registry) :
    (SameDocuments (add host now spec registry).final registry ∧
        ∃ error, (add host now spec registry).result = .error error) ∨
      ∃ declaration observation, checkAddCall now spec registry.records = .ok declaration ∧
        (add host now spec registry).result = .ok (declaration, observation) ∧
        (add host now spec registry).final.events = registry.events ∧
        (add host now spec registry).final.records =
          Fields.set registry.records declaration.id
            (some (Fields.sortKeys (withDigest declaration.record))) := by
  have hfinal : (add host now spec registry).final =
      ((Program.lift (checkAddCall now spec registry.records) >>= storeDeclaration host now spec)
        (registry.framed host)).final := rfl
  have hresult : (add host now spec registry).result =
      ((Program.lift (checkAddCall now spec registry.records) >>= storeDeclaration host now spec)
        (registry.framed host)).result := rfl
  rw [hfinal, hresult, Program.bind_apply, Program.lift_apply]
  cases hcheck : checkAddCall now spec registry.records with
  | error error => exact .inl ⟨sameDocuments_framed host registry, error, rfl⟩
  | ok declaration =>
      rw [Run.andThen_ok]
      dsimp only
      set written := (registry.framed host).withRecord declaration.id
        (withDigest declaration.record) with hwritten
      have hfree : Fields.get? registry.records declaration.id = none := by
        obtain ⟨head, -, h⟩ := Py.bind_eq_ok_iff.mp hcheck
        obtain ⟨_, hnew, h⟩ := Py.bind_eq_ok_iff.mp h
        obtain ⟨record, -, h⟩ := Py.bind_eq_ok_iff.mp h
        obtain rfl := Except.ok.inj h
        simpa [Fields.has] using hnew
      have hstore : ∀ rest : Run Registry PyError (Declaration × Fields),
          (Program.handle (firstObservation host now spec declaration) (fun error => do
              unlinkRecord declaration.id
              .raise error) >>= fun observation => pure (declaration, observation)) written = rest →
          (storeDeclaration host now spec declaration (registry.framed host)).final = rest.final ∧
            (storeDeclaration host now spec declaration (registry.framed host)).result =
              rest.result := by
        rintro rest rfl
        exact ⟨rfl, rfl⟩
      rw [(hstore _ rfl).1, (hstore _ rfl).2, Program.bind_apply]
      cases hresult : (firstObservation host now spec declaration written).result with
      | error error =>
          left
          rw [Program.handle_of_error hresult]
          have hfinal : (firstObservation host now spec declaration written).final = written ∨
              (firstObservation host now spec declaration written).final = written.framed host := by
            rcases firstObservation_cases host now spec declaration written with h | h |
              ⟨entry, -, hok, -⟩
            · exact .inl h
            · exact .inr h
            · rw [hresult] at hok
              exact absurd hok (by simp)
          have herase := erase_set_of_free
            (some (Fields.sortKeys (withDigest declaration.record))) hfree
          refine ⟨?_, error, rfl⟩
          rcases hfinal with h | h
          · rw [h]
            exact ⟨herase, rfl, rfl⟩
          · rw [h]
            exact ⟨herase, rfl, rfl⟩
      | ok observation =>
          right
          rw [Program.handle_of_ok hresult, Run.andThen_of_ok hresult]
          refine ⟨declaration, observation, rfl, rfl, ?_, ?_⟩
          · rcases firstObservation_cases host now spec declaration written with h | h |
              ⟨entry, -, -, h⟩
            all_goals
              simp only [Program.pure_apply, h]
              rfl
          · rcases firstObservation_cases host now spec declaration written with h | h |
              ⟨entry, -, -, h⟩
            all_goals
              simp only [Program.pure_apply, h]
              rfl

/-! ## Writing an event -/

/-- The event that a value becomes: its name and the document. -/
def eventOf (value : Fields) : String × Fields :=
  ((withEventId value).1, withDigest (withEventId value).2)

/-- The registry with the event of a value. -/
def Registry.withEventOf (registry : Registry) (value : Fields) : Registry :=
  registry.withEvent (eventOf value).1 (eventOf value).2

/-- An event stays when the registry is valid with it, and when validation
raises; it is unlinked when validation reports. -/
theorem writeChecked_cases (host : Host) (subject : String) (value : Fields)
    (registry : Registry) :
    (validate host (registry.withEventOf value) = .ok [] ∧
        (writeChecked host subject value registry).result = .ok (withEventId value).2 ∧
        (writeChecked host subject value registry).final = registry.withEventOf value) ∨
      (∃ diagnostics, diagnostics ≠ [] ∧
        validate host (registry.withEventOf value) = .ok diagnostics ∧
        (∃ error, (writeChecked host subject value registry).result = .error error) ∧
        (writeChecked host subject value registry).final =
          { registry.withEventOf value with
            events := Fields.erase (registry.withEventOf value).events (eventOf value).1 }) ∨
      ∃ error, validate host (registry.withEventOf value) = .error error ∧
        (writeChecked host subject value registry).result = .error error ∧
        (writeChecked host subject value registry).final = registry.withEventOf value := by
  have hwrite : ∀ rest : Run Registry PyError Fields,
      (Program.lift (validate host (registry.withEventOf value)) >>= fun report =>
        if report.isEmpty then (pure (withEventId value).2 : Op Fields)
        else do
          unlinkEvent (withEventId value).1
          .raise (.valueError (subject ++ " would make the registry invalid: " ++
            diagnosticText report))) (registry.withEventOf value) = rest →
      (writeChecked host subject value registry).final = rest.final ∧
        (writeChecked host subject value registry).result = rest.result := by
    rintro rest rfl
    exact ⟨rfl, rfl⟩
  rw [(hwrite _ rfl).1, (hwrite _ rfl).2, Program.bind_apply, Program.lift_apply]
  cases hvalidate : validate host (registry.withEventOf value) with
  | error error => exact .inr (.inr ⟨error, rfl, rfl, rfl⟩)
  | ok diagnostics =>
      cases diagnostics with
      | nil => exact .inl ⟨rfl, rfl, rfl⟩
      | cons diagnostic diagnostics =>
          exact .inr (.inl ⟨diagnostic :: diagnostics, by simp, rfl, ⟨_, rfl⟩, rfl⟩)

/-- A call that writes a valid event leaves the frame with the event. -/
theorem checkedWrite_final {check : Documents → Py Fields} {subject : String} {value : Fields}
    (h : (documents registry >>= check) = .ok value)
    (hvalid : validate host ((registry.framed host).withEventOf value) = .ok []) :
    (checkedCall host check (writeChecked host subject) registry).final =
      (registry.framed host).withEventOf value := by
  rw [(checkedCall_of_ok h).1]
  rcases writeChecked_cases host subject value (registry.framed host) with
    ⟨-, -, hfinal⟩ | ⟨diagnostics, hne, hreport, -⟩ | ⟨error, hraises, -⟩
  · exact hfinal
  · rw [hvalid] at hreport
    exact absurd (Except.ok.inj hreport).symm hne
  · rw [hvalid] at hraises
    cases hraises

end Calls

end MncsCommons.Pressure
