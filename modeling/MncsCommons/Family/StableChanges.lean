/-
# Stability of validated changes

What validation returns is accepted again, part by part, except for the producer:
a missing `checkout_kind` passes its check by the default of the check and is then
written as an empty text, which does not pass it.  The identity is that of the
core, and by the encoding two accepted changes have one identity exactly when
their cores are the same (`validated_change_stays_valid_iff`).
-/

import MncsCommons.Data.KeyOrder
import MncsCommons.Family.Changes
import MncsCommons.Protocol.NormalForm

namespace MncsCommons.Family

open MncsCommons.Data MncsCommons.Protocol

/-! ## Values pass their checks again -/

theorem changeObject_eq_ok_iff {value : Json} {message : String} {fields : Fields} :
    changeObject value message = .ok fields ↔ value = .obj fields := by
  cases value <;> simp [changeObject]

theorem changeText_eq_ok {value : Json} {field : String} {maximum : Nat} {text : String}
    (h : changeText value field maximum = .ok text) : value = .str text ∧ text ≠ "" := by
  cases value with
  | str given =>
      rw [changeText] at h
      split at h
      · cases h
      · rename_i hne
        split at h
        · cases h
        · obtain rfl := Except.ok.inj h
          exact ⟨rfl, hne⟩
  | _ => cases h

theorem boundedList_eq_ok {value : Json} {field : String} {maximum : Nat} {items : List Json}
    (h : boundedList value field maximum = .ok items) :
    value = .arr items ∧ items.length ≤ maximum := by
  cases value with
  | arr given =>
      rw [boundedList] at h
      split at h
      · cases h
      · rename_i hlength
        obtain rfl := Except.ok.inj h
        exact ⟨rfl, Nat.not_lt.mp hlength⟩
  | _ => cases h

theorem boundedList_arr {items : List Json} {field : String} {maximum : Nat}
    (h : items.length ≤ maximum) : boundedList (.arr items) field maximum = .ok items :=
  if_neg (Nat.not_lt.mpr h)

/-- A list of texts is the value it was read from. -/
theorem boundedTexts_again {value : Json} {field : String} {maximum textMaximum : Nat}
    {items : List Json} (h : boundedTexts value field maximum textMaximum = .ok items) :
    boundedTexts (.arr items) field maximum textMaximum = .ok items := by
  obtain ⟨given, hgiven, hrest⟩ := bind_eq_ok_iff.mp h
  obtain ⟨texts, htexts, hitems⟩ := bind_eq_ok_iff.mp hrest
  obtain rfl := Except.ok.inj hitems
  obtain rfl := (boundedList_eq_ok hgiven).1
  exact h

/-! ## Parts pass their checks again -/

theorem validateOperation_again {field : String} {operation out : Json}
    (h : validateOperation field operation = .ok out) : validateOperation field out = .ok out := by
  obtain ⟨fields, -, h⟩ := bind_eq_ok_iff.mp h
  obtain ⟨op, hop, h⟩ := bind_eq_ok_iff.mp h
  obtain ⟨hknown, h⟩ := requireThat_bind_eq_ok_iff.mp h
  obtain ⟨params, -, h⟩ := bind_eq_ok_iff.mp h
  obtain ⟨paths, hpaths, h⟩ := bind_eq_ok_iff.mp h
  obtain ⟨preimage, -, h⟩ := bind_eq_ok_iff.mp h
  obtain rfl := Except.ok.inj h
  refine bind_eq_ok_iff.mpr ⟨_, rfl, ?_⟩
  refine bind_eq_ok_iff.mpr ⟨op, (changeText_eq_ok hop).1 ▸ hop, ?_⟩
  refine requireThat_bind_eq_ok_iff.mpr ⟨hknown, ?_⟩
  refine bind_eq_ok_iff.mpr ⟨params, rfl, ?_⟩
  refine bind_eq_ok_iff.mpr ⟨paths, boundedTexts_again hpaths, ?_⟩
  exact bind_eq_ok_iff.mpr ⟨preimage, rfl, rfl⟩

theorem validateBase_again {value out : Json} (h : validateBase value = .ok out) :
    validateBase out = .ok out := by
  obtain ⟨base, -, h⟩ := bind_eq_ok_iff.mp h
  obtain ⟨head, hhead, h⟩ := bind_eq_ok_iff.mp h
  obtain ⟨generation, hgeneration, h⟩ := bind_eq_ok_iff.mp h
  obtain rfl := Except.ok.inj h
  refine bind_eq_ok_iff.mpr ⟨_, rfl, ?_⟩
  refine bind_eq_ok_iff.mpr ⟨head, hhead, ?_⟩
  exact bind_eq_ok_iff.mpr ⟨generation, hgeneration, rfl⟩

theorem validateState_again {value out : Json} (h : validateState value = .ok out) :
    validateState out = .ok out := by
  obtain ⟨state, hstate, hrest⟩ := bind_eq_ok_iff.mp h
  obtain ⟨-, hout⟩ := requireThat_bind_eq_ok_iff.mp hrest
  obtain rfl := Except.ok.inj hout
  obtain rfl := (changeText_eq_ok hstate).1
  exact h

theorem validateSubject_again {index : Nat} {subject out : Json}
    (h : validateSubject index subject = .ok out) : validateSubject index out = .ok out := by
  obtain ⟨fields, -, h⟩ := bind_eq_ok_iff.mp h
  obtain ⟨identity, hidentity, h⟩ := bind_eq_ok_iff.mp h
  obtain ⟨kind, hkind, h⟩ := bind_eq_ok_iff.mp h
  obtain ⟨paths, hpaths, h⟩ := bind_eq_ok_iff.mp h
  obtain rfl := Except.ok.inj h
  refine bind_eq_ok_iff.mpr ⟨_, rfl, ?_⟩
  refine bind_eq_ok_iff.mpr ⟨identity, hidentity, ?_⟩
  refine bind_eq_ok_iff.mpr ⟨kind, hkind, ?_⟩
  exact bind_eq_ok_iff.mpr ⟨paths, boundedTexts_again hpaths, rfl⟩

theorem validateContract_again {index : Nat} {contract out : Json}
    (h : validateContract index contract = .ok out) : validateContract index out = .ok out := by
  obtain ⟨fields, hfields, hrest⟩ := bind_eq_ok_iff.mp h
  obtain ⟨name, -, hout⟩ := bind_eq_ok_iff.mp hrest
  obtain rfl := Except.ok.inj hout
  obtain rfl := changeObject_eq_ok_iff.mp hfields
  exact h

theorem validateIntent_again {value out : Json} (h : validateIntent value = .ok out) :
    validateIntent out = .ok out := by
  obtain ⟨fields, hfields, hrest⟩ := bind_eq_ok_iff.mp h
  obtain ⟨-, hout⟩ := requireThat_bind_eq_ok_iff.mp hrest
  obtain rfl := Except.ok.inj hout
  obtain rfl := changeObject_eq_ok_iff.mp hfields
  exact h

/-- A member that is there has no default. -/
theorem getOr_of_get {fields : Fields} {key : String} {value : Json}
    (h : Fields.get fields key = value) (hne : value ≠ .null) (default : Json) :
    getOr fields key default = value := by
  rw [getOr, Fields.get?_of_get h hne, Option.getD_some]

/-- The members of a producer that are written. -/
def writtenProducer (producer : Fields) : Fields :=
  ["repository", "checkout_kind", "session", "consumer", "claim_id"].map fun key =>
    (key, getOr producer key (.str ""))

/-- A producer passes its check again when it says how it was checked out. -/
theorem validateProducer_again_iff {producer : Fields} {out : Json}
    (h : validateProducer (.obj producer) = .ok out) :
    validateProducer out = .ok out ↔ Fields.has producer "checkout_kind" = true := by
  obtain ⟨_, hsame, h⟩ := bind_eq_ok_iff.mp h
  obtain rfl := Except.ok.inj hsame
  obtain ⟨names, hnames, h⟩ := bind_eq_ok_iff.mp h
  obtain ⟨kind, hkind, h⟩ := bind_eq_ok_iff.mp h
  obtain rfl : Json.obj (writtenProducer producer) = out := Except.ok.inj h
  have hwritten : ∀ key ∈ ["repository", "session", "consumer"],
      Fields.get (writtenProducer producer) key = Fields.get producer key := by
    intro key hkey
    obtain ⟨text, -, position, htext⟩ := exists_of_mem_left (forall₂_of_checkEach hnames) hkey
    have hsome := getOr_of_get (changeText_eq_ok htext).1 (by simp) (.str "")
    rw [(changeText_eq_ok htext).1, ← hsome]
    simp only [List.mem_cons, List.not_mem_nil, or_false] at hkey
    rcases hkey with rfl | rfl | rfl <;> rfl
  have hnamesAgain : checkEach (fun _ key => changeText (Fields.get (writtenProducer producer) key)
      ("producer." ++ key) maxIdentityString) 0 ["repository", "session", "consumer"] = .ok names := by
    rw [← hnames]
    simp only [checkEach, hwritten "repository" (by decide), hwritten "session" (by decide),
      hwritten "consumer" (by decide)]
  constructor
  · intro hagain
    obtain ⟨_, hobject, hagain⟩ := bind_eq_ok_iff.mp hagain
    obtain rfl := Except.ok.inj hobject
    obtain ⟨-, -, hagain⟩ := bind_eq_ok_iff.mp hagain
    obtain ⟨text, htext, -⟩ := bind_eq_ok_iff.mp hagain
    rw [Fields.has, Option.isSome_iff_ne_none]
    intro hnone
    have hempty : getOr (writtenProducer producer) "checkout_kind" (.str "worktree") = .str "" := by
      change getOr producer "checkout_kind" (.str "") = .str ""
      rw [getOr, hnone, Option.getD_none]
    rw [hempty] at htext
    cases htext
  · intro hhas
    obtain ⟨value, hvalue⟩ := Option.isSome_iff_exists.mp hhas
    have hsame : getOr (writtenProducer producer) "checkout_kind" (.str "worktree") =
        getOr producer "checkout_kind" (.str "worktree") := by
      change getOr producer "checkout_kind" (.str "") = _
      rw [getOr, getOr, hvalue, Option.getD_some, Option.getD_some]
    refine bind_eq_ok_iff.mpr ⟨_, rfl, ?_⟩
    refine bind_eq_ok_iff.mpr ⟨names, hnamesAgain, ?_⟩
    exact bind_eq_ok_iff.mpr ⟨kind, hsame ▸ hkind, rfl⟩

/-! ## Changes -/

/-- What validation reads from a change. -/
structure ValidChange where
  producer : Json
  base : Json
  state : Json
  supersedes : List Json
  subjects : List Json
  contracts : List Json
  operations : List Json
  evidence : Fields
  verification : Fields
  intent : Json
  identity : String

/-- The record that validation returns. -/
def ValidChange.record (change : ValidChange) : Fields :=
  [("schema_version", .str familyChangeSchema), ("producer", change.producer),
    ("base", change.base), ("state", change.state), ("supersedes", .arr change.supersedes),
    ("subjects", .arr change.subjects), ("contracts_changed", .arr change.contracts),
    ("operations", .arr change.operations), ("evidence_refs", .obj change.evidence),
    ("verification", .obj change.verification), ("intent", change.intent),
    ("identity", .str change.identity)]

/-- Each check of a record gives the part of the change. -/
structure Reads (record : Fields) (change : ValidChange) : Prop where
  schema : Fields.get record "schema_version" = .str familyChangeSchema
  producer : validateProducer (Fields.get record "producer") = .ok change.producer
  base : validateBase (Fields.get record "base") = .ok change.base
  state : validateState (Fields.get record "state") = .ok change.state
  supersedes : boundedTexts (getOr record "supersedes" (.arr [])) "supersedes" 8
    maxIdentityString = .ok change.supersedes
  subjects : ∃ items, boundedList (getOr record "subjects" (.arr [])) "subjects" maxSubjects =
    .ok items ∧ checkEach validateSubject 0 items = .ok change.subjects
  contracts : ∃ items, boundedList (getOr record "contracts_changed" (.arr []))
    "contracts_changed" maxContracts = .ok items ∧
      checkEach validateContract 0 items = .ok change.contracts
  operations : ∃ items, boundedList (getOr record "operations" (.arr [])) "operations"
    maxOperations = .ok items ∧ checkEach (fun index => validateOperation
      (itemPath "operations" index)) 0 items = .ok change.operations
  evidence : getOr record "evidence_refs" (.obj []) = .obj change.evidence
  verification : getOr record "verification" (.obj []) = .obj change.verification
  intent : validateIntent (getOr record "intent" (.obj [])) = .ok change.intent
  identity : changeText (Fields.get record "identity") "identity" 72 = .ok change.identity
  binds : change.identity = changeIdentity (changeCore change.record)

theorem reads_of_validateFamilyChange {value : Json} {out : Fields}
    (h : validateFamilyChange value = .ok out) :
    ∃ record change, value = .obj record ∧ Reads record change ∧ out = change.record := by
  obtain ⟨record, hrecord, h⟩ := bind_eq_ok_iff.mp h
  obtain ⟨hschema, h⟩ := requireThat_bind_eq_ok_iff.mp h
  obtain ⟨producer, hproducer, h⟩ := bind_eq_ok_iff.mp h
  obtain ⟨base, hbase, h⟩ := bind_eq_ok_iff.mp h
  obtain ⟨state, hstate, h⟩ := bind_eq_ok_iff.mp h
  obtain ⟨supersedes, hsupersedes, h⟩ := bind_eq_ok_iff.mp h
  obtain ⟨givenSubjects, hgivenSubjects, h⟩ := bind_eq_ok_iff.mp h
  obtain ⟨subjects, hsubjects, h⟩ := bind_eq_ok_iff.mp h
  obtain ⟨givenContracts, hgivenContracts, h⟩ := bind_eq_ok_iff.mp h
  obtain ⟨contracts, hcontracts, h⟩ := bind_eq_ok_iff.mp h
  obtain ⟨givenOperations, hgivenOperations, h⟩ := bind_eq_ok_iff.mp h
  obtain ⟨operations, hoperations, h⟩ := bind_eq_ok_iff.mp h
  obtain ⟨evidence, hevidence, h⟩ := bind_eq_ok_iff.mp h
  obtain ⟨verification, hverification, h⟩ := bind_eq_ok_iff.mp h
  obtain ⟨intent, hintent, h⟩ := bind_eq_ok_iff.mp h
  obtain ⟨identity, hidentity, h⟩ := bind_eq_ok_iff.mp h
  obtain ⟨hbinds, h⟩ := requireThat_bind_eq_ok_iff.mp h
  exact ⟨record, ⟨producer, base, state, supersedes, subjects, contracts, operations, evidence,
      verification, intent, identity⟩, changeObject_eq_ok_iff.mp hrecord,
    ⟨of_decide_eq_true hschema, hproducer, hbase, hstate, hsupersedes,
      ⟨_, hgivenSubjects, hsubjects⟩, ⟨_, hgivenContracts, hcontracts⟩,
      ⟨_, hgivenOperations, hoperations⟩, changeObject_eq_ok_iff.mp hevidence,
      changeObject_eq_ok_iff.mp hverification, hintent, hidentity, of_decide_eq_true hbinds⟩,
    (Except.ok.inj h).symm⟩

theorem Reads.validateFamilyChange {record : Fields} {change : ValidChange}
    (h : Reads record change) : validateFamilyChange (.obj record) = .ok change.record := by
  obtain ⟨givenSubjects, hgivenSubjects, hsubjects⟩ := h.subjects
  obtain ⟨givenContracts, hgivenContracts, hcontracts⟩ := h.contracts
  obtain ⟨givenOperations, hgivenOperations, hoperations⟩ := h.operations
  refine bind_eq_ok_iff.mpr ⟨record, rfl, ?_⟩
  refine requireThat_bind_eq_ok_iff.mpr ⟨decide_eq_true h.schema, ?_⟩
  refine bind_eq_ok_iff.mpr ⟨_, h.producer, ?_⟩
  refine bind_eq_ok_iff.mpr ⟨_, h.base, ?_⟩
  refine bind_eq_ok_iff.mpr ⟨_, h.state, ?_⟩
  refine bind_eq_ok_iff.mpr ⟨_, h.supersedes, ?_⟩
  refine bind_eq_ok_iff.mpr ⟨_, hgivenSubjects, ?_⟩
  refine bind_eq_ok_iff.mpr ⟨_, hsubjects, ?_⟩
  refine bind_eq_ok_iff.mpr ⟨_, hgivenContracts, ?_⟩
  refine bind_eq_ok_iff.mpr ⟨_, hcontracts, ?_⟩
  refine bind_eq_ok_iff.mpr ⟨_, hgivenOperations, ?_⟩
  refine bind_eq_ok_iff.mpr ⟨_, hoperations, ?_⟩
  refine bind_eq_ok_iff.mpr ⟨_, changeObject_eq_ok_iff.mpr h.evidence, ?_⟩
  refine bind_eq_ok_iff.mpr ⟨_, changeObject_eq_ok_iff.mpr h.verification, ?_⟩
  refine bind_eq_ok_iff.mpr ⟨_, h.intent, ?_⟩
  refine bind_eq_ok_iff.mpr ⟨_, h.identity, ?_⟩
  exact requireThat_bind_eq_ok_iff.mpr ⟨decide_eq_true h.binds, rfl⟩

theorem length_checkEach {ε α β : Type} {check : Nat → α → Except ε β} {index : Nat}
    {items : List α} {values : List β} (h : checkEach check index items = .ok values) :
    values.length = items.length :=
  (forall₂_of_checkEach h).length_eq.symm

/-- A list part that was read is read again. -/
theorem list_again {value : Json} {field : String} {maximum : Nat}
    {check : Nat → Json → ChangeChecked Json} {values : List Json}
    (hagain : ∀ index item out, check index item = .ok out → check index out = .ok out)
    (h : ∃ items, boundedList value field maximum = .ok items ∧
      checkEach check 0 items = .ok values) :
    ∃ items, boundedList (.arr values) field maximum = .ok items ∧
      checkEach check 0 items = .ok values := by
  obtain ⟨items, hitems, hvalues⟩ := h
  refine ⟨values, boundedList_arr ?_, checkEach_idem hagain hvalues⟩
  rw [length_checkEach hvalues]
  exact (boundedList_eq_ok hitems).2

/-- What was read from a change is read again, when its producer is. -/
theorem Reads.again {record : Fields} {change : ValidChange} (h : Reads record change)
    (hproducer : validateProducer change.producer = .ok change.producer) :
    Reads change.record change where
  schema := rfl
  producer := hproducer
  base := validateBase_again h.base
  state := validateState_again h.state
  supersedes := boundedTexts_again h.supersedes
  subjects := list_again (fun _ _ _ hsubject => validateSubject_again hsubject) h.subjects
  contracts := list_again (fun _ _ _ hcontract => validateContract_again hcontract) h.contracts
  operations := list_again (fun _ _ _ hoperation => validateOperation_again hoperation) h.operations
  evidence := rfl
  verification := rfl
  intent := validateIntent_again h.intent
  identity := by
    have hidentity := h.identity
    rwa [(changeText_eq_ok hidentity).1] at hidentity
  binds := h.binds

/-! ## Well-formed parts -/

theorem wf_getOr {fields : Fields} (h : (Json.obj fields).wf = true) (key : String)
    {default : Json} (hdefault : default.wf = true) : (getOr fields key default).wf = true := by
  rw [getOr]
  cases hvalue : Fields.get? fields key with
  | none => exact hdefault
  | some value => exact (Json.wf_obj_iff.mp h).2 _ (Fields.mem_of_get?_eq_some hvalue)

theorem wf_boundedTexts {value : Json} {field : String} {maximum textMaximum : Nat}
    {items : List Json} (hwf : value.wf = true)
    (h : boundedTexts value field maximum textMaximum = .ok items) : (Json.arr items).wf = true := by
  obtain ⟨given, hgiven, hrest⟩ := bind_eq_ok_iff.mp h
  obtain ⟨texts, -, hitems⟩ := bind_eq_ok_iff.mp hrest
  obtain rfl := Except.ok.inj hitems
  rwa [(boundedList_eq_ok hgiven).1] at hwf

theorem wf_checkEach {check : Nat → Json → ChangeChecked Json} {value : Json} {field : String}
    {maximum : Nat} {values : List Json} (hwf : value.wf = true)
    (hcheck : ∀ index item out, item.wf = true → check index item = .ok out → out.wf = true)
    (h : ∃ items, boundedList value field maximum = .ok items ∧
      checkEach check 0 items = .ok values) : (Json.arr values).wf = true := by
  obtain ⟨items, hitems, hvalues⟩ := h
  rw [(boundedList_eq_ok hitems).1, Json.wf_arr_iff] at hwf
  rw [Json.wf_arr_iff]
  intro out hmem
  obtain ⟨item, hitem, index, hout⟩ := exists_of_mem_right (forall₂_of_checkEach hvalues) hmem
  exact hcheck index item out (hwf item hitem) hout

theorem wf_validateProducer {value out : Json} (hwf : value.wf = true)
    (h : validateProducer value = .ok out) : out.wf = true := by
  obtain ⟨producer, hproducer, h⟩ := bind_eq_ok_iff.mp h
  obtain ⟨-, -, h⟩ := bind_eq_ok_iff.mp h
  obtain ⟨-, -, h⟩ := bind_eq_ok_iff.mp h
  obtain rfl : Json.obj (writtenProducer producer) = out := Except.ok.inj h
  obtain rfl := changeObject_eq_ok_iff.mp hproducer
  refine Json.wf_obj_iff.mpr ⟨by simp [writtenProducer, Fields.keys], ?_⟩
  intro field hfield
  obtain ⟨key, -, rfl⟩ := List.mem_map.mp hfield
  exact wf_getOr hwf key rfl

theorem wf_validateBase {value out : Json} (hwf : value.wf = true)
    (h : validateBase value = .ok out) : out.wf = true := by
  obtain ⟨base, hbase, h⟩ := bind_eq_ok_iff.mp h
  obtain ⟨-, -, h⟩ := bind_eq_ok_iff.mp h
  obtain ⟨-, -, h⟩ := bind_eq_ok_iff.mp h
  obtain rfl := Except.ok.inj h
  obtain rfl := changeObject_eq_ok_iff.mp hbase
  refine Json.wf_obj_iff.mpr ⟨by simp [Fields.keys], ?_⟩
  simp only [List.forall_mem_cons, List.not_mem_nil, false_imp_iff, implies_true, and_true]
  exact ⟨Json.wf_get hwf "head", Json.wf_get hwf "generation"⟩

theorem wf_validateSubject {index : Nat} {subject out : Json} (hwf : subject.wf = true)
    (h : validateSubject index subject = .ok out) : out.wf = true := by
  obtain ⟨fields, hfields, h⟩ := bind_eq_ok_iff.mp h
  obtain ⟨-, -, h⟩ := bind_eq_ok_iff.mp h
  obtain ⟨-, -, h⟩ := bind_eq_ok_iff.mp h
  obtain ⟨paths, hpaths, h⟩ := bind_eq_ok_iff.mp h
  obtain rfl := Except.ok.inj h
  obtain rfl := changeObject_eq_ok_iff.mp hfields
  refine Json.wf_obj_iff.mpr ⟨by simp [Fields.keys], ?_⟩
  simp only [List.forall_mem_cons, List.not_mem_nil, false_imp_iff, implies_true, and_true]
  exact ⟨Json.wf_get hwf "identity", wf_getOr hwf "kind" rfl,
    wf_boundedTexts (wf_getOr hwf "paths" rfl) hpaths⟩

theorem wf_validateContract {index : Nat} {contract out : Json} (hwf : contract.wf = true)
    (h : validateContract index contract = .ok out) : out.wf = true := by
  obtain ⟨fields, hfields, h⟩ := bind_eq_ok_iff.mp h
  obtain ⟨-, -, h⟩ := bind_eq_ok_iff.mp h
  obtain rfl := Except.ok.inj h
  rwa [← changeObject_eq_ok_iff.mp hfields]

theorem wf_validateOperation {field : String} {operation out : Json} (hwf : operation.wf = true)
    (h : validateOperation field operation = .ok out) : out.wf = true := by
  obtain ⟨fields, hfields, h⟩ := bind_eq_ok_iff.mp h
  obtain ⟨op, -, h⟩ := bind_eq_ok_iff.mp h
  obtain ⟨-, h⟩ := requireThat_bind_eq_ok_iff.mp h
  obtain ⟨params, hparams, h⟩ := bind_eq_ok_iff.mp h
  obtain ⟨paths, hpaths, h⟩ := bind_eq_ok_iff.mp h
  obtain ⟨preimage, hpreimage, h⟩ := bind_eq_ok_iff.mp h
  obtain rfl := Except.ok.inj h
  obtain rfl := changeObject_eq_ok_iff.mp hfields
  refine Json.wf_obj_iff.mpr ⟨by simp [Fields.keys], ?_⟩
  simp only [List.forall_mem_cons, List.not_mem_nil, false_imp_iff, implies_true, and_true]
  exact ⟨rfl, changeObject_eq_ok_iff.mp hparams ▸ Json.wf_get hwf "params",
    wf_boundedTexts (wf_getOr hwf "paths" rfl) hpaths,
    changeObject_eq_ok_iff.mp hpreimage ▸ wf_getOr hwf "preimage" rfl⟩

theorem wf_validateIntent {value out : Json} (hwf : value.wf = true)
    (h : validateIntent value = .ok out) : out.wf = true := by
  obtain ⟨fields, hfields, h⟩ := bind_eq_ok_iff.mp h
  obtain ⟨-, h⟩ := requireThat_bind_eq_ok_iff.mp h
  obtain rfl := Except.ok.inj h
  rwa [← changeObject_eq_ok_iff.mp hfields]

/-- The core of a change that was read from a well-formed record. -/
theorem Reads.wf_core {record : Fields} {change : ValidChange} (h : Reads record change)
    (hwf : (Json.obj record).wf = true) : (Json.obj (changeCore change.record)).wf = true := by
  refine Json.wf_obj_iff.mpr ⟨by simp [changeCore, Fields.keys], ?_⟩
  simp only [changeCore, List.forall_mem_cons, List.not_mem_nil, false_imp_iff, implies_true,
    and_true]
  have hevidence : (Json.obj change.evidence).wf = true := by
    rw [← h.evidence]
    exact wf_getOr hwf _ rfl
  exact ⟨wf_validateProducer (Json.wf_get hwf _) h.producer,
    wf_validateBase (Json.wf_get hwf _) h.base,
    wf_checkEach (wf_getOr hwf _ rfl) (fun _ _ _ => wf_validateSubject) h.subjects,
    wf_checkEach (wf_getOr hwf _ rfl) (fun _ _ _ => wf_validateContract) h.contracts,
    wf_checkEach (wf_getOr hwf _ rfl) (fun _ _ _ => wf_validateOperation) h.operations,
    hevidence, wf_validateIntent (wf_getOr hwf _ rfl) h.intent,
    wf_boundedTexts (wf_getOr hwf _ rfl) h.supersedes⟩

/-! ## Identities -/

/-- The members of the core of a change. -/
def coreMembers : List String :=
  ["producer", "base", "subjects", "contracts_changed", "operations", "evidence_refs", "intent",
    "supersedes"]

/-- Two validated changes have the same core, up to the order of keys. -/
def SameCore (first second : Fields) : Prop :=
  ∀ member ∈ coreMembers,
    (Fields.get first member).sortKeys = (Fields.get second member).sortKeys

/-- The text that the identity of a validated change covers. -/
def coreText (change : Fields) : Text := dumpsAscii (.obj (changeCore change))

theorem changeIdentity_eq_iff {first second : Fields}
    (h : NoCollision (dumpsAscii (.obj first)) (dumpsAscii (.obj second))) :
    changeIdentity first = changeIdentity second ↔
      dumpsAscii (.obj first) = dumpsAscii (.obj second) := by
  constructor
  · intro hsame
    rw [changeIdentity, changeIdentity, ← String.toList_inj, String.toList_append,
      String.toList_append, List.append_cancel_left_eq, String.toList_ofList,
      String.toList_ofList] at hsame
    exact h hsame
  · intro hsame
    rw [changeIdentity, hsame, changeIdentity]

theorem sameCore_iff (first second : ValidChange) :
    Json.sortKeys (.obj (changeCore first.record)) =
      Json.sortKeys (.obj (changeCore second.record)) ↔ SameCore first.record second.record := by
  rw [Json.sortKeys_obj_eq_iff (by simp [changeCore, Fields.keys])
    (by simp [changeCore, Fields.keys])]
  constructor
  · intro h member hmember
    have hsame := h member
    simp only [coreMembers, List.mem_cons, List.not_mem_nil, or_false] at hmember
    rcases hmember with rfl | rfl | rfl | rfl | rfl | rfl | rfl | rfl <;>
      exact Option.some.inj hsame
  · intro h member
    by_cases hmember : member ∈ coreMembers
    · have hsame := h member hmember
      simp only [coreMembers, List.mem_cons, List.not_mem_nil, or_false] at hmember
      rcases hmember with rfl | rfl | rfl | rfl | rfl | rfl | rfl | rfl <;>
        exact congrArg some hsame
    · have hnone : ∀ change : ValidChange,
          Fields.get? (changeCore change.record) member = none := fun change =>
        Fields.get?_eq_none_iff.mpr hmember
      rw [hnone, hnone]

/-- The producer of the change says how it was checked out. -/
def StatesCheckout (value : Json) : Prop :=
  Fields.has ((Fields.get (value.obj?.getD []) "producer").obj?.getD []) "checkout_kind" = true

/-- A validated change is accepted again, unchanged and with its identity, exactly when its
producer stated how it was checked out; and validated changes have one identity exactly when
their cores are the same. -/
theorem validated_change_stays_valid_iff {value : Json} {out : Fields} (hwf : value.wf = true)
    (h : validateFamilyChange value = .ok out) :
    ((validateFamilyChange (.obj out) = .ok out ∧
        Fields.get out "identity" = Fields.get (value.obj?.getD []) "identity") ↔
      StatesCheckout value) ∧
    ∀ other otherOut, other.wf = true → validateFamilyChange other = .ok otherOut →
      NoCollision (coreText out) (coreText otherOut) →
      (Fields.get out "identity" = Fields.get otherOut "identity" ↔ SameCore out otherOut) := by
  obtain ⟨record, change, rfl, hreads, rfl⟩ := reads_of_validateFamilyChange h
  constructor
  · obtain ⟨producer, hobject, -⟩ := bind_eq_ok_iff.mp hreads.producer
    have hproducer := changeObject_eq_ok_iff.mp hobject
    have hagain := validateProducer_again_iff (hproducer ▸ hreads.producer)
    have hcondition : StatesCheckout (.obj record) ↔
        Fields.has producer "checkout_kind" = true := by
      simp [StatesCheckout, Json.obj?, hproducer]
    rw [hcondition, ← hagain]
    constructor
    · rintro ⟨hvalid, -⟩
      obtain ⟨other, same, hobject, hsame, hrecord⟩ := reads_of_validateFamilyChange hvalid
      obtain rfl := Json.obj.inj hobject
      have hpart : change.producer = same.producer :=
        congrArg (fun fields => Fields.get fields "producer") hrecord
      have hread := hsame.producer
      rw [← hpart] at hread
      exact hread
    · intro hvalid
      refine ⟨(hreads.again hvalid).validateFamilyChange, ?_⟩
      exact (changeText_eq_ok hreads.identity).1.symm
  · intro other otherOut hother hvalid hcollision
    obtain ⟨otherRecord, otherChange, rfl, hotherReads, rfl⟩ :=
      reads_of_validateFamilyChange hvalid
    change Json.str change.identity = Json.str otherChange.identity ↔ _
    rw [Json.str.injEq, hreads.binds, hotherReads.binds, changeIdentity_eq_iff hcollision,
      dumpsAscii_eq_iff, dumps_eq_iff (hreads.wf_core hwf) (hotherReads.wf_core hother),
      sameCore_iff]

/-! ## A draft -/

/-- A draft of the given producer, with nothing else in it. -/
def draft (producer : Fields) : ValidChange where
  producer := .obj (writtenProducer producer)
  base := .obj [("head", .str "0000000000000000000000000000000000000000"), ("generation", .int 0)]
  state := .str "draft"
  supersedes := []
  subjects := []
  contracts := []
  operations := []
  evidence := []
  verification := []
  intent := .obj []
  identity := ""

/-- The identity of a draft. -/
def draftIdentity (producer : Fields) : String := changeIdentity (changeCore (draft producer).record)

/-- The record of a draft, its optional members left out. -/
def draftRecord (producer : Fields) : Fields :=
  [("schema_version", .str familyChangeSchema), ("producer", .obj producer),
    ("base", (draft producer).base), ("state", .str "draft"),
    ("identity", .str (draftIdentity producer))]

theorem reads_draftRecord {producer : Fields}
    (h : validateProducer (.obj producer) = .ok (.obj (writtenProducer producer))) :
    Reads (draftRecord producer) { draft producer with identity := draftIdentity producer } where
  schema := rfl
  producer := h
  base := rfl
  state := rfl
  supersedes := rfl
  subjects := ⟨[], rfl, rfl⟩
  contracts := ⟨[], rfl, rfl⟩
  operations := ⟨[], rfl, rfl⟩
  evidence := rfl
  verification := rfl
  intent := rfl
  identity := by
    have hlength : (draftIdentity producer).length = 67 := by
      have hhex : (String.ofList (sha256Hex (coreText (draft producer).record))).toList.length =
          64 := by rw [String.toList_ofList, length_sha256Hex]
      rw [coreText] at hhex
      rw [draftIdentity, changeIdentity, ← String.length_toList, String.toList_append,
        List.length_append, hhex]
      rfl
    change changeText (.str (draftIdentity producer)) "identity" 72 = _
    rw [changeText, if_neg, if_neg]
    · rw [hlength]
      decide
    · intro hempty
      rw [hempty] at hlength
      cases hlength
  binds := rfl

/-- A producer that says how it was checked out. -/
def worktreeProducer : Fields :=
  [("repository", .str "r"), ("checkout_kind", .str "worktree"), ("session", .str "s"),
    ("consumer", .str "c")]

/-- A producer that leaves it to the default. -/
def silentProducer : Fields :=
  [("repository", .str "r"), ("session", .str "s"), ("consumer", .str "c")]

theorem draft_accepted {producer : Fields}
    (h : validateProducer (.obj producer) = .ok (.obj (writtenProducer producer))) :
    validateFamilyChange (.obj (draftRecord producer)) =
      .ok { draft producer with identity := draftIdentity producer : ValidChange }.record :=
  (reads_draftRecord h).validateFamilyChange

/-- A draft that states its checkout stays valid. -/
theorem stated_checkout_stays_valid :
    validateFamilyChange
        (.obj { draft worktreeProducer with
          identity := draftIdentity worktreeProducer : ValidChange }.record) =
      .ok { draft worktreeProducer with
        identity := draftIdentity worktreeProducer : ValidChange }.record :=
  ((@validated_change_stays_valid_iff (.obj (draftRecord worktreeProducer)) _ (by decide +kernel)
    (draft_accepted rfl)).1.mpr rfl).1

/-- A draft that leaves its checkout to the default is accepted once. -/
theorem silent_checkout_accepted_once :
    ∃ out, validateFamilyChange (.obj (draftRecord silentProducer)) = .ok out ∧
      validateFamilyChange (.obj out) ≠ .ok out := by
  refine ⟨_, draft_accepted rfl, fun hagain => ?_⟩
  obtain ⟨other, change, hobject, hreads, hrecord⟩ := reads_of_validateFamilyChange hagain
  obtain rfl := Json.obj.inj hobject
  have hpart : Json.obj (writtenProducer silentProducer) = change.producer :=
    congrArg (fun fields => Fields.get fields "producer") hrecord
  have hread : validateProducer (.obj (writtenProducer silentProducer)) = .ok change.producer :=
    hreads.producer
  rw [← hpart] at hread
  have hstates := (@validateProducer_again_iff silentProducer _ rfl).mp hread
  cases hstates

end MncsCommons.Family
