/-
# What the canonical encoding identifies

Two values are the same up to order at a path when they differ only in the order
of object members and in the order of the arrays declared unordered.  The items
of an array have the array's own path, so an array inside an unordered one is
unordered too.

Each value has a normal form at its path, and values are the same up to order
exactly when their normal forms are equal (`sameUpToOrder_iff`).  The induction
follows the first value.  At an unordered array the normal forms are sorted by
their encoding, which separates normal forms because encoded text reads back.
-/

import MncsCommons.Protocol.Canonical

namespace MncsCommons.Protocol

open MncsCommons.Data

mutual

/-- Equal up to the order of object members and of the unordered arrays. -/
def SameUpToOrder (path : List String) : Json → Json → Prop
  | .arr items, .arr others =>
      if path ∈ unorderedArrayPaths then
        ∃ arranged : List Json, arranged.Perm others ∧ SameItems path items arranged
      else SameItems path items others
  | .obj fields, .obj others =>
      ∃ arranged : Fields, arranged.Perm others ∧ SameFields path fields arranged
  | value, other => value = other

/-- `SameUpToOrder` item by item. -/
def SameItems (path : List String) : List Json → List Json → Prop
  | [], [] => True
  | item :: items, other :: others => SameUpToOrder path item other ∧ SameItems path items others
  | _, _ => False

/-- `SameUpToOrder` member by member. -/
def SameFields (path : List String) : List (String × Json) → List (String × Json) → Prop
  | [], [] => True
  | (key, value) :: fields, (other, otherValue) :: others =>
      key = other ∧ SameUpToOrder (path ++ [key]) value otherValue ∧ SameFields path fields others
  | _, _ => False

end

/-! ## The normal form at a path -/

/-- The normal form of a value found at `path`. -/
def normalAt (path : List String) (value : Json) : Json := (canonicalize path value).sortKeys

/-- The normal form of a member of an object found at `path`. -/
def normalMember (path : List String) (field : String × Json) : String × Json :=
  (field.1, normalAt (path ++ [field.1]) field.2)

theorem normalAt_arr_of_mem {path : List String} (h : path ∈ unorderedArrayPaths)
    (items : List Json) :
    normalAt path (.arr items) = .arr (sortedBy dumps (items.map (normalAt path))) := by
  rw [normalAt, canonicalize_arr_of_mem h, Json.sortKeys_arr, map_sortedBy dumps _ (by simp),
    List.map_map]
  rfl

theorem normalAt_arr_of_not_mem {path : List String} (h : path ∉ unorderedArrayPaths)
    (items : List Json) : normalAt path (.arr items) = .arr (items.map (normalAt path)) := by
  rw [normalAt, canonicalize_arr_of_not_mem h, Json.sortKeys_arr, List.map_map]
  rfl

/-- The normal form of an array is an array. -/
theorem normalAt_arr (path : List String) (items : List Json) :
    ∃ forms, normalAt path (.arr items) = .arr forms := by
  by_cases hpath : path ∈ unorderedArrayPaths
  · exact ⟨_, normalAt_arr_of_mem hpath items⟩
  · exact ⟨_, normalAt_arr_of_not_mem hpath items⟩

theorem normalAt_obj (path : List String) (fields : Fields) :
    normalAt path (.obj fields) = .obj (sortedBy Prod.fst (fields.map (normalMember path))) := by
  rw [normalAt, canonicalize_obj, Json.sortKeys_obj, canonicalizeFields_eq_map, List.map_map]
  rfl

@[simp]
theorem wf_normalAt (path : List String) (value : Json) : (normalAt path value).wf = value.wf := by
  simp [normalAt]

/-- The encoding separates normal forms. -/
theorem normalAt_eq_of_dumps_eq {path other : List String} {first second : Json}
    (hfirst : first.wf = true) (hsecond : second.wf = true)
    (h : dumps (normalAt path first) = dumps (normalAt other second)) :
    normalAt path first = normalAt other second := by
  have hloads := loads_dumps (show (normalAt path first).wf = true by simpa using hfirst)
  rw [h, loads_dumps (by simpa using hsecond)] at hloads
  simpa [normalAt] using (Option.some.inj hloads).symm

/-! ## Sameness is equality of normal forms -/

theorem sameItems_iff {path : List String} {items : List Json}
    (ih : ∀ item ∈ items, ∀ other, other.wf = true →
      (SameUpToOrder path item other ↔ normalAt path item = normalAt path other))
    {others : List Json} (hothers : ∀ other ∈ others, other.wf = true) :
    SameItems path items others ↔ items.map (normalAt path) = others.map (normalAt path) := by
  induction items generalizing others with
  | nil => cases others <;> simp [SameItems]
  | cons item items ihitems =>
      cases others with
      | nil => simp [SameItems]
      | cons other others =>
          rw [SameItems, ih item List.mem_cons_self other (hothers other List.mem_cons_self),
            ihitems (fun item hitem => ih item (List.mem_cons_of_mem _ hitem))
              (fun other hother => hothers other (List.mem_cons_of_mem _ hother)),
            List.map_cons, List.map_cons, List.cons.injEq]

theorem sameFields_iff {path : List String} {fields : Fields}
    (ih : ∀ field ∈ fields, ∀ path other, other.wf = true →
      (SameUpToOrder path field.2 other ↔ normalAt path field.2 = normalAt path other))
    {others : Fields} (hothers : ∀ other ∈ others, other.2.wf = true) :
    SameFields path fields others ↔
      fields.map (normalMember path) = others.map (normalMember path) := by
  induction fields generalizing others with
  | nil => cases others <;> simp [SameFields]
  | cons field fields ihfields =>
      cases others with
      | nil => simp [SameFields]
      | cons other others =>
          have hhead := ih field List.mem_cons_self (path ++ [field.1]) other.2
            (hothers other List.mem_cons_self)
          have htail := ihfields (fun field hfield => ih field (List.mem_cons_of_mem _ hfield))
            (fun other hother => hothers other (List.mem_cons_of_mem _ hother))
          rw [SameFields, hhead, htail, List.map_cons, List.map_cons, List.cons.injEq,
            normalMember, normalMember, Prod.mk.injEq, and_assoc]
          -- the paths of the two members agree only where their keys do
          constructor
          · rintro ⟨hkey, hvalue, hrest⟩
            exact ⟨hkey, hkey ▸ hvalue, hrest⟩
          · rintro ⟨hkey, hvalue, hrest⟩
            exact ⟨hkey, hkey ▸ hvalue, hrest⟩

/-- Values are the same up to order exactly when their normal forms are equal. -/
theorem sameUpToOrder_iff {path : List String} {value other : Json} (hvalue : value.wf = true)
    (hother : other.wf = true) :
    SameUpToOrder path value other ↔ normalAt path value = normalAt path other := by
  induction value using Json.inductionOn generalizing path other with
  | null | bool | int | decimal | str =>
      cases other with
      | arr others =>
          obtain ⟨forms, hforms⟩ := normalAt_arr path others
          rw [hforms]
          simp [SameUpToOrder, normalAt]
      | _ => simp [SameUpToOrder, normalAt]
  | arr items ih =>
      have hitems := Json.wf_arr_iff.mp hvalue
      have ihitem : ∀ item ∈ items, ∀ other, other.wf = true →
          (SameUpToOrder path item other ↔ normalAt path item = normalAt path other) :=
        fun item hitem other hother => ih item hitem (hitems item hitem) hother
      cases other with
      | arr others =>
          have hothers := Json.wf_arr_iff.mp hother
          rw [SameUpToOrder]
          by_cases hpath : path ∈ unorderedArrayPaths
          · rw [if_pos hpath, normalAt_arr_of_mem hpath, normalAt_arr_of_mem hpath,
              Json.arr.injEq, sortedBy_map_eq_iff]
            · refine exists_congr fun arranged => and_congr_right fun hperm => ?_
              exact sameItems_iff ihitem fun other hmem => hothers other (hperm.mem_iff.mp hmem)
            · intro a ha b hb hkey
              obtain ⟨first, hfirst, rfl⟩ := List.mem_map.mp ha
              obtain ⟨second, hsecond, rfl⟩ := List.mem_map.mp hb
              exact normalAt_eq_of_dumps_eq (hitems first hfirst) (hitems second hsecond) hkey
          · rw [if_neg hpath, normalAt_arr_of_not_mem hpath, normalAt_arr_of_not_mem hpath,
              Json.arr.injEq]
            exact sameItems_iff ihitem hothers
      | _ =>
          obtain ⟨forms, hforms⟩ := normalAt_arr path items
          rw [hforms]
          simp [SameUpToOrder, normalAt]
  | obj fields ih =>
      obtain ⟨hnodup, hfields⟩ := Json.wf_obj_iff.mp hvalue
      cases other with
      | obj others =>
          have hothers := (Json.wf_obj_iff.mp hother).2
          rw [SameUpToOrder, normalAt_obj, normalAt_obj, Json.obj.injEq, sortedBy_map_eq_iff]
          · refine exists_congr fun arranged => and_congr_right fun hperm => ?_
            exact sameFields_iff (fun field hfield path other hother =>
                ih field hfield (hfields field hfield) hother)
              fun other hmem => hothers other (hperm.mem_iff.mp hmem)
          · intro a ha b hb hkey
            obtain ⟨first, hfirst, rfl⟩ := List.mem_map.mp ha
            obtain ⟨second, hsecond, rfl⟩ := List.mem_map.mp hb
            rw [List.inj_on_of_nodup_map hnodup hfirst hsecond hkey]
      | arr others =>
          obtain ⟨forms, hforms⟩ := normalAt_arr path others
          rw [hforms]
          simp [SameUpToOrder, normalAt]
      | _ => simp [SameUpToOrder, normalAt]

theorem canonicalJson_eq_iff {value other : Json} (hvalue : value.wf = true)
    (hother : other.wf = true) :
    canonicalJson value = canonicalJson other ↔ SameUpToOrder [] value other := by
  rw [sameUpToOrder_iff hvalue hother]
  constructor
  · exact canon_eq_of_canonicalJson_eq hvalue hother
  · intro h
    have hcanon : canon value = canon other := h
    rw [canonicalJson_eq_dumps_canon, hcanon, canonicalJson_eq_dumps_canon]

/-! ## Digests -/

theorem canonicalize_stripMetadata (value : Json) :
    canonicalize ["metadata"] (stripMetadata value) =
      stripMetadata (canonicalize ["metadata"] value) := by
  cases value with
  | obj metadata =>
      rw [stripMetadata, canonicalize_obj, canonicalize_obj, stripMetadata,
        canonicalizeFields_eq_map, canonicalizeFields_eq_map, Fields.erase, Fields.erase,
        List.filter_map]
      rfl
  | arr items =>
      simp only [stripMetadata,
        canonicalize_arr_of_not_mem (show ["metadata"] ∉ unorderedArrayPaths by decide)]
  | _ => rfl

theorem canonicalizeFields_set (path : List String) (fields : Fields) (key : String) (value : Json) :
    canonicalizeFields path (Fields.set fields key value) =
      Fields.set (canonicalizeFields path fields) key (canonicalize (path ++ [key]) value) := by
  induction fields with
  | nil => rfl
  | cons field fields ih =>
      obtain ⟨name, held⟩ := field
      rw [canonicalizeFields, Fields.set, Fields.set]
      by_cases hname : name = key
      · rw [if_pos hname, if_pos hname, canonicalizeFields, hname]
      · rw [if_neg hname, if_neg hname, canonicalizeFields, ih]

/-- Leaving out the self-digests commutes with sorting the unordered arrays. -/
theorem identityProjection_eq (fields : Fields) :
    identityProjection fields = canonicalizeFields [] (stripSelfDigest fields) := by
  rw [identityProjection, stripSelfDigest, stripSelfDigest, get?_canonicalizeFields]
  cases Fields.get? fields "metadata" with
  | none =>
      rw [Option.map_none, canonicalizeFields_eq_map, canonicalizeFields_eq_map, Fields.erase,
        Fields.erase, List.filter_map]
      rfl
  | some metadata =>
      have hset := canonicalizeFields_set [] fields "metadata" (stripMetadata metadata)
      rw [List.nil_append, canonicalize_stripMetadata] at hset
      rw [Option.map_some]
      dsimp only
      rw [List.nil_append, ← hset, canonicalizeFields_eq_map, canonicalizeFields_eq_map,
        Fields.erase, Fields.erase, List.filter_map]
      rfl

/-- The digest is the hash of the encoding without the self-digests. -/
theorem canonicalDigest_eq (fields : Fields) :
    canonicalDigest fields = digestOfText (canonicalJson (.obj (stripSelfDigest fields))) := by
  rw [canonicalDigest, identityProjection_eq, canonicalJson, canonicalize_obj]

theorem wf_stripSelfDigest {fields : Fields} (h : (Json.obj fields).wf = true) :
    (Json.obj (stripSelfDigest fields)).wf = true := by
  rw [stripSelfDigest]
  cases hmetadata : Fields.get? fields "metadata" with
  | none => exact Json.wf_erase h _
  | some metadata =>
      have hwf := (Json.wf_obj_iff.mp h).2 _ (Fields.mem_of_get?_eq_some hmetadata)
      refine Json.wf_erase (Json.wf_set h ?_) _
      cases metadata with
      | obj members => exact Json.wf_erase hwf _
      | _ => exact hwf

/-- SHA-256 tells two texts apart. -/
def NoCollision (first second : Text) : Prop := sha256Hex first = sha256Hex second → first = second

theorem digestOfText_eq_iff {first second : Text} (h : NoCollision first second) :
    digestOfText first = digestOfText second ↔ first = second := by
  constructor
  · intro hdigest
    rw [digestOfText, digestOfText, ← String.toList_inj, String.toList_append, String.toList_append,
      List.append_cancel_left_eq, String.toList_ofList, String.toList_ofList] at hdigest
    exact h hdigest
  · exact congrArg digestOfText

/-- The canonical encoding is a normal form up to order, encoding what it reads back
as gives the same text, and digests identify objects that are the same without their
self-digests. -/
theorem canonical_encoding_is_normal_form :
    (∀ value other : Json, value.wf = true → other.wf = true →
      (canonicalJson value = canonicalJson other ↔ SameUpToOrder [] value other)) ∧
    (∀ value : Json, value.wf = true → ∃ parsed, loads (canonicalJson value) = some parsed ∧
      canonicalJson parsed = canonicalJson value) ∧
    ∀ fields others : Fields, (Json.obj fields).wf = true → (Json.obj others).wf = true →
      NoCollision (canonicalJson (.obj (stripSelfDigest fields)))
        (canonicalJson (.obj (stripSelfDigest others))) →
      (canonicalDigest fields = canonicalDigest others ↔
        SameUpToOrder [] (.obj (stripSelfDigest fields)) (.obj (stripSelfDigest others))) := by
  refine ⟨fun _ _ => canonicalJson_eq_iff, fun value hvalue => ?_, ?_⟩
  · exact ⟨canon value, loads_canonicalJson hvalue, canonicalJson_canon value⟩
  · intro fields others hfields hothers hcollision
    rw [canonicalDigest_eq, canonicalDigest_eq, digestOfText_eq_iff hcollision]
    exact canonicalJson_eq_iff (wf_stripSelfDigest hfields) (wf_stripSelfDigest hothers)

/-- An envelope with its evidence in some order. -/
def evidenceIn (references : List String) : Fields :=
  [("evidence", .arr (references.map .str)), ("kind", .str "k")]

/-- The order of the evidence and a self-digest do not show in the digest, and other
evidence does. -/
theorem canonical_encoding_of_evidence :
    canonicalJson (.obj (evidenceIn ["a", "b"])) = canonicalJson (.obj (evidenceIn ["b", "a"])) ∧
      (∃ parsed, loads (canonicalJson (.obj (evidenceIn ["b", "a"]))) = some parsed ∧
        canonicalJson parsed = canonicalJson (.obj (evidenceIn ["b", "a"]))) ∧
      canonicalDigest (Fields.set (evidenceIn ["b", "a"]) "contentDigest" .null) =
        canonicalDigest (evidenceIn ["a", "b"]) ∧
      canonicalDigest (evidenceIn ["a"]) ≠ canonicalDigest (evidenceIn ["b"]) := by
  have hsame : SameUpToOrder [] (.obj (evidenceIn ["b", "a"])) (.obj (evidenceIn ["a", "b"])) := by
    refine ⟨evidenceIn ["a", "b"], .refl _, rfl, ?_, rfl, ?_, trivial⟩
    · exact ⟨[.str "b", .str "a"], List.Perm.swap _ _ _, rfl, rfl, trivial⟩
    · rfl
  have hencoded : canonicalJson (.obj (evidenceIn ["b", "a"])) =
      canonicalJson (.obj (evidenceIn ["a", "b"])) :=
    (canonical_encoding_is_normal_form.1 _ _ rfl rfl).mpr hsame
  have hstripped : ∀ references,
      stripSelfDigest (evidenceIn references) = evidenceIn references ∧
      stripSelfDigest (Fields.set (evidenceIn references) "contentDigest" .null) =
        evidenceIn references := fun _ => ⟨rfl, rfl⟩
  refine ⟨hencoded.symm, canonical_encoding_is_normal_form.2.1 _ rfl, ?_, ?_⟩
  · have hdigest := canonical_encoding_is_normal_form.2.2
      (Fields.set (evidenceIn ["b", "a"]) "contentDigest" .null) (evidenceIn ["a", "b"]) rfl rfl
    rw [(hstripped _).1, (hstripped _).2] at hdigest
    exact (hdigest fun _ => hencoded).mpr hsame
  · intro hequal
    have hother : canonicalJson (.obj (evidenceIn ["a"])) ≠ canonicalJson (.obj (evidenceIn ["b"])) ∧
        sha256Hex (canonicalJson (.obj (evidenceIn ["a"]))) ≠
          sha256Hex (canonicalJson (.obj (evidenceIn ["b"]))) := by decide +kernel
    have hdigest := canonical_encoding_is_normal_form.2.2
      (evidenceIn ["a"]) (evidenceIn ["b"]) rfl rfl
    rw [(hstripped _).1, (hstripped _).1] at hdigest
    have hsame := (hdigest fun h => absurd h hother.2).mp hequal
    exact hother.1 ((canonicalJson_eq_iff rfl rfl).mpr hsame)

end MncsCommons.Protocol
