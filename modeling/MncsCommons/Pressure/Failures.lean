/-
# Calls that raise

What a call that raises leaves behind.  Declaring and observing leave nothing.
Relating and moving write their event before they validate: a report unlinks
it, which takes an event away that was there before, and a validation that
raises leaves it.
-/

import MncsCommons.Pressure.Effects

namespace MncsCommons.Pressure

open MncsCommons.Data MncsCommons.Protocol MncsCommons.Exec

/-- The event that a call is about to write when its checks have passed. -/
def RegistryCall.pending (host : Host) (now : String) (registry : Registry) :
    RegistryCall → Option Fields
  | .relate call => (documents registry >>= checkRelateCall now call).toOption
  | .transition call => (documents registry >>= checkTransitionCall host now call).toOption
  | _ => none

/-- The call raises before it writes, or its event is new where validation
reports, or already there as it is written where validation raises. -/
def FailsCleanly (host : Host) (now : String) (registry : Registry) (call : RegistryCall) : Prop :=
  ∀ value, call.pending host now registry = some value →
    match validate host ((registry.framed host).withEventOf value) with
    | .ok _ => Fields.get? registry.events (eventOf value).1 = none
    | .error _ =>
        Fields.get? registry.events (eventOf value).1 = some (some (eventOf value).2.sortKeys)

section Failures

variable {host : Host} {now : String} {registry : Registry} {α β : Type}

theorem forget_final (program : Op α) : (forget program registry).final = (program registry).final := by
  simp only [forget, Program.bind_apply]
  cases h : (program registry).result with
  | error error => rw [Run.andThen_of_error h]
  | ok value => rw [Run.andThen_of_ok h]; rfl

/-- A call raises with its result forgotten where it raises. -/
theorem result_of_forget {program : Op α} {error : PyError}
    (h : (forget program registry).result = .error error) :
    (program registry).result = .error error := by
  simp only [forget, Program.bind_apply] at h
  cases hresult : (program registry).result with
  | error other =>
      rw [Run.andThen_of_error hresult] at h
      exact congrArg _ (Except.error.inj h)
  | ok value =>
      rw [Run.andThen_of_ok hresult] at h
      exact absurd h (by simp [Program.pure_apply])

/-- Unlinking what was written restores the directory when the name was free. -/
theorem erase_set_eq_self_iff {directory : Directory} {name : String} {contents : Option Fields} :
    Fields.erase (Fields.set directory name contents) name = directory ↔
      Fields.get? directory name = none := by
  constructor
  · intro h
    rw [← h, Fields.get?_erase, if_pos rfl]
  · exact erase_set_of_free contents

theorem set_eq_self_iff {directory : Directory} {name : String} {contents : Option Fields} :
    Fields.set directory name contents = directory ↔
      Fields.get? directory name = some contents := by
  constructor
  · intro h
    rw [← h, Fields.get?_set, if_pos rfl]
  · exact Fields.set_of_get?_eq_some

/-- A checked write that raises leaves the documents when it fails cleanly. -/
theorem sameDocuments_checkedWrite_iff {check : Documents → Py Fields} {subject : String}
    {error : PyError}
    (h : (checkedCall host check (writeChecked host subject) registry).result = .error error) :
    SameDocuments (checkedCall host check (writeChecked host subject) registry).final registry ↔
      ∀ value, (documents registry >>= check).toOption = some value →
        match validate host ((registry.framed host).withEventOf value) with
        | .ok _ => Fields.get? registry.events (eventOf value).1 = none
        | .error _ =>
            Fields.get? registry.events (eventOf value).1 = some (some (eventOf value).2.sortKeys) := by
  cases hcheck : (documents registry >>= check) with
  | error other =>
      rw [(checkedCall_of_error hcheck).1]
      exact iff_of_true (sameDocuments_framed host registry) (by simp [Except.toOption])
  | ok value =>
      obtain ⟨hfinal, hresult⟩ :=
        @checkedCall_of_ok host registry _ _ _ (writeChecked host subject) _ hcheck
      rw [hfinal]
      rw [hresult] at h
      simp only [Except.toOption, Option.some_inj, forall_eq']
      obtain ⟨-, hok, -⟩ | ⟨diagnostics, -, hreport, -, hunlinked⟩ | ⟨raised, hraise, -, hkept⟩ :=
        writeChecked_cases host subject value (registry.framed host)
      · rw [hok] at h
        exact absurd h (by simp)
      · rw [hreport, hunlinked, ← erase_set_eq_self_iff]
        exact ⟨fun hsame => hsame.events, fun hsame => ⟨rfl, rfl, hsame⟩⟩
      · rw [hraise, hkept, ← set_eq_self_iff]
        exact ⟨fun hsame => hsame.events, fun hsame => ⟨rfl, rfl, hsame⟩⟩

end Failures

/-! ## A validation that raises -/

/-- A host whose local time is UTC and whose packaged view is empty. -/
def utcHost : Host := ⟨.ok, []⟩

/-- Two declarations, of which one has legacy ids that are no list. -/
def unlistedRegistry : Registry :=
  ⟨true, none, [("A", some [("legacyIds", .int 5)]), ("B", some [])], [], []⟩

/-- A relation between them. -/
def unlistedRelation : RelateCall :=
  ⟨"A", "related_to", "B", .str "mncs", [], [], .str "2026-01-01T00:00:00Z"⟩

end MncsCommons.Pressure
