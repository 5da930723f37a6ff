/-
# Canonical JSON and content-derived identities

`canonicalize` sorts the arrays that the protocol declares unordered, by their
encoding; every other array keeps its order.  `canonicalJson` is the encoding of
the result, and a content digest is the hash of that encoding without the
self-digest fields.

Reading canonical text back gives `canon`: the value with its unordered arrays
sorted and its keys in order.  The facts the store relies on are that `canon`
is a normal form (`canon_canon`), that it changes neither the encoding nor the
digest (`canonicalJson_canon`, `canonicalDigest_canon`), and that below a path
which leads to no unordered array nothing changes at all
(`canonicalize_of_inert`).
-/

import MncsCommons.Data.QuickText
import MncsCommons.Protocol.Models

namespace MncsCommons.Protocol

open MncsCommons.Data

/-- The arrays whose order carries no meaning. -/
def unorderedArrayPaths : List (List String) :=
  [["evidence"], ["relationships"], ["dependencies"], ["affectedContracts"],
    ["scope", "reviewWhen"], ["provenance", "sourceRecords"], ["provenance", "ancestry"]]

instance decidableUnordered (path : List String) : Decidable (path ∈ unorderedArrayPaths) :=
  inferInstance

mutual

/-- Sort the unordered arrays of a value found at `path`. -/
def canonicalize (path : List String) : Json → Json
  | .arr items =>
      let items := canonicalizeItems path items
      .arr (if path ∈ unorderedArrayPaths then sortedBy dumps items else items)
  | .obj fields => .obj (canonicalizeFields path fields)
  | value => value

/-- `canonicalize` along an array; the items have the array's own path. -/
def canonicalizeItems (path : List String) : List Json → List Json
  | [] => []
  | item :: items => canonicalize path item :: canonicalizeItems path items

/-- `canonicalize` along an object. -/
def canonicalizeFields (path : List String) : List (String × Json) → List (String × Json)
  | [] => []
  | (key, value) :: fields =>
      (key, canonicalize (path ++ [key]) value) :: canonicalizeFields path fields

end

/-- The deterministic encoding of a value. -/
def canonicalJson (value : Json) : Text := dumps (canonicalize [] value)

/-- `metadata` without its own digest. -/
def stripMetadata : Json → Json
  | .obj metadata => .obj (Fields.erase metadata "contentDigest")
  | value => value

/-- The members without the self-digest fields. -/
def stripSelfDigest (projection : Fields) : Fields :=
  let projection := match Fields.get? projection "metadata" with
    | some metadata => Fields.set projection "metadata" (stripMetadata metadata)
    | none => projection
  Fields.erase projection "contentDigest"

/-- The envelope without its self-digest fields. -/
def identityProjection (fields : Fields) : Fields := stripSelfDigest (canonicalizeFields [] fields)

/-- The digest of an encoding. -/
def digestOfText (text : Text) : String := "sha256:" ++ String.ofList (sha256Hex text)

/-- The content digest of an envelope. -/
def canonicalDigest (fields : Fields) : String :=
  digestOfText (dumps (.obj (identityProjection fields)))

/-- `canonicalDigest`, by the quick encoding and the quick hash. -/
def quickDigest (fields : Fields) : String :=
  "sha256:" ++ String.ofList (quickHash (quickDumps (.obj (identityProjection fields))))

theorem canonicalDigest_eq_quickDigest (fields : Fields) :
    canonicalDigest fields = quickDigest fields := by
  rw [canonicalDigest, digestOfText, sha256Hex_eq_quickHash, dumps_eq_quickDumps, quickDigest]

/-- The digest of a whole value, `projected=False`. -/
def canonicalDigestOfAll (fields : Fields) : String := digestOfText (canonicalJson (.obj fields))

/-- What reading the canonical encoding back gives. -/
def canon (value : Json) : Json := (canonicalize [] value).sortKeys

/-- `canon` of an object's members. -/
def canonFields (fields : Fields) : Fields := Fields.sortKeys (canonicalizeFields [] fields)

/-! ## Recursion equations -/

theorem canonicalizeItems_eq_map (path : List String) (items : List Json) :
    canonicalizeItems path items = items.map (canonicalize path) := by
  induction items with
  | nil => rfl
  | cons item items ih => rw [canonicalizeItems, ih, List.map_cons]

theorem canonicalizeFields_eq_map (path : List String) (fields : Fields) :
    canonicalizeFields path fields =
      fields.map fun field => (field.1, canonicalize (path ++ [field.1]) field.2) := by
  induction fields with
  | nil => rfl
  | cons field fields ih => rw [canonicalizeFields, ih, List.map_cons]

theorem canonicalize_arr_of_mem {path : List String} (h : path ∈ unorderedArrayPaths)
    (items : List Json) :
    canonicalize path (.arr items) = .arr (sortedBy dumps (items.map (canonicalize path))) := by
  rw [canonicalize, if_pos h, canonicalizeItems_eq_map]

theorem canonicalize_arr_of_not_mem {path : List String} (h : path ∉ unorderedArrayPaths)
    (items : List Json) :
    canonicalize path (.arr items) = .arr (items.map (canonicalize path)) := by
  rw [canonicalize, if_neg h, canonicalizeItems_eq_map]

@[simp]
theorem canonicalize_obj (path : List String) (fields : Fields) :
    canonicalize path (.obj fields) = .obj (canonicalizeFields path fields) := by
  rw [canonicalize]

@[simp]
theorem canonicalize_null (path : List String) : canonicalize path .null = .null := rfl

@[simp]
theorem canonicalize_bool (path : List String) (b : Bool) :
    canonicalize path (.bool b) = .bool b := rfl

@[simp]
theorem canonicalize_int (path : List String) (n : Int) :
    canonicalize path (.int n) = .int n := rfl

@[simp]
theorem canonicalize_decimal (path : List String) (d : Decimal) :
    canonicalize path (.decimal d) = .decimal d := rfl

@[simp]
theorem canonicalize_str (path : List String) (s : String) :
    canonicalize path (.str s) = .str s := rfl

@[simp]
theorem keys_canonicalizeFields (path : List String) (fields : Fields) :
    Fields.keys (canonicalizeFields path fields) = Fields.keys fields := by
  rw [canonicalizeFields_eq_map]
  simp [Fields.keys]

theorem get?_canonicalizeFields (path : List String) (fields : Fields) (key : String) :
    Fields.get? (canonicalizeFields path fields) key =
      (Fields.get? fields key).map (canonicalize (path ++ [key])) := by
  induction fields with
  | nil => rfl
  | cons field fields ih =>
      obtain ⟨k, v⟩ := field
      by_cases hk : k = key
      · subst hk
        simp [canonicalizeFields, Fields.get?]
      · simpa [canonicalizeFields, Fields.get?, hk] using ih

/-! ## Key order and canonical order commute -/

@[simp]
theorem dumps_sortKeys (value : Json) : dumps value.sortKeys = dumps value := by
  simp [dumps]

/-- An array step that holds for the items holds for the array, sorted or not. -/
theorem canonicalize_arr_congr {path : List String} {first second : List Json}
    (h : first.map (canonicalize path) = second.map (canonicalize path)) :
    canonicalize path (.arr first) = canonicalize path (.arr second) := by
  by_cases hpath : path ∈ unorderedArrayPaths
  · rw [canonicalize_arr_of_mem hpath, canonicalize_arr_of_mem hpath, h]
  · rw [canonicalize_arr_of_not_mem hpath, canonicalize_arr_of_not_mem hpath, h]

theorem canonicalize_sortKeys (path : List String) (value : Json) :
    canonicalize path value.sortKeys = (canonicalize path value).sortKeys := by
  induction value using Json.inductionOn generalizing path with
  | null | bool | int | decimal | str => rfl
  | arr items ih =>
      have hitems : (items.map Json.sortKeys).map (canonicalize path) =
          (items.map (canonicalize path)).map Json.sortKeys := by
        rw [List.map_map, List.map_map]
        exact List.map_congr_left fun item hitem => ih item hitem path
      by_cases hpath : path ∈ unorderedArrayPaths
      · rw [Json.sortKeys_arr, canonicalize_arr_of_mem hpath, canonicalize_arr_of_mem hpath,
          Json.sortKeys_arr, hitems, map_sortedBy dumps _ (by simp)]
      · rw [Json.sortKeys_arr, canonicalize_arr_of_not_mem hpath,
          canonicalize_arr_of_not_mem hpath, Json.sortKeys_arr, hitems]
  | obj fields ih =>
      rw [Json.sortKeys_obj, canonicalize_obj, canonicalize_obj, Json.sortKeys_obj,
        canonicalizeFields_eq_map, canonicalizeFields_eq_map,
        map_sortedBy Prod.fst _ (by simp), List.map_map, List.map_map]
      congr 2
      refine List.map_congr_left fun field hfield => ?_
      simp [ih field hfield]

@[simp]
theorem canonicalize_canonicalize (path : List String) (value : Json) :
    canonicalize path (canonicalize path value) = canonicalize path value := by
  induction value using Json.inductionOn generalizing path with
  | null | bool | int | decimal | str => rfl
  | arr items ih =>
      have hitems : ∀ sorted : List Json, sorted.Perm (items.map (canonicalize path)) →
          sorted.map (canonicalize path) = sorted := by
        intro sorted hperm
        conv_rhs => rw [← List.map_id sorted]
        refine List.map_congr_left fun item hitem => ?_
        obtain ⟨source, hsource, rfl⟩ := List.mem_map.mp (hperm.mem_iff.mp hitem)
        exact ih source hsource path
      by_cases hpath : path ∈ unorderedArrayPaths
      · rw [canonicalize_arr_of_mem hpath, canonicalize_arr_of_mem hpath,
          hitems _ (sortedBy_perm _ _), sortedBy_sortedBy]
      · rw [canonicalize_arr_of_not_mem hpath, canonicalize_arr_of_not_mem hpath,
          hitems _ (.refl _)]
  | obj fields ih =>
      rw [canonicalize_obj, canonicalize_obj, canonicalizeFields_eq_map,
        canonicalizeFields_eq_map, List.map_map]
      congr 1
      refine List.map_congr_left fun field hfield => ?_
      simp [ih field hfield]

@[simp]
theorem wf_canonicalize (path : List String) (value : Json) :
    (canonicalize path value).wf = value.wf := by
  rw [Bool.eq_iff_iff]
  induction value using Json.inductionOn generalizing path with
  | null | bool | int | decimal | str => rfl
  | arr items ih =>
      have hitems : (∀ item ∈ items.map (canonicalize path), item.wf = true) ↔
          ∀ item ∈ items, item.wf = true := by
        simpa using forall₂_congr fun item hitem => ih item hitem path
      by_cases hpath : path ∈ unorderedArrayPaths
      · rw [canonicalize_arr_of_mem hpath, Json.wf_arr_iff, Json.wf_arr_iff, ← hitems]
        simp
      · rw [canonicalize_arr_of_not_mem hpath, Json.wf_arr_iff, Json.wf_arr_iff, hitems]
  | obj fields ih =>
      rw [canonicalize_obj, Json.wf_obj_iff, Json.wf_obj_iff, keys_canonicalizeFields]
      refine and_congr_right fun _ => ?_
      rw [canonicalizeFields_eq_map, List.forall_mem_map]
      exact forall₂_congr fun field hfield => ih field hfield (path ++ [field.1])

/-! ## Inert paths -/

/-- No unordered array lies at the path or below it. -/
def Inert (path : List String) : Prop := ∀ unordered ∈ unorderedArrayPaths, ¬ path <+: unordered

instance (path : List String) : Decidable (Inert path) :=
  inferInstanceAs (Decidable (∀ unordered ∈ unorderedArrayPaths, ¬ path <+: unordered))

theorem Inert.append {path : List String} (h : Inert path) (more : List String) :
    Inert (path ++ more) := fun unordered hmem hleading =>
  h unordered hmem ((List.prefix_append path more).trans hleading)

theorem canonicalize_of_inert {path : List String} (h : Inert path) (value : Json) :
    canonicalize path value = value := by
  induction value using Json.inductionOn generalizing path with
  | null | bool | int | decimal | str => rfl
  | arr items ih =>
      have hpath : path ∉ unorderedArrayPaths := fun hmem => h path hmem (List.prefix_refl path)
      rw [canonicalize_arr_of_not_mem hpath]
      congr 1
      conv_rhs => rw [← List.map_id items]
      exact List.map_congr_left fun item hitem => ih item hitem h
  | obj fields ih =>
      rw [canonicalize_obj, canonicalizeFields_eq_map]
      congr 1
      conv_rhs => rw [← List.map_id fields]
      refine List.map_congr_left fun field hfield => ?_
      simp [ih field hfield (h.append [field.1])]

/-! ## The normal form -/

theorem wf_canonicalizeFields {path : List String} {fields : Fields}
    (h : (Json.obj fields).wf = true) : (Json.obj (canonicalizeFields path fields)).wf = true := by
  simpa using (wf_canonicalize path (.obj fields)).trans h

theorem canon_obj (fields : Fields) : canon (.obj fields) = .obj (canonFields fields) := by
  rw [canon, canonicalize_obj, Json.sortKeys_obj_eq, canonFields]

theorem canon_sortKeys (value : Json) : canon value.sortKeys = canon value := by
  rw [canon, canonicalize_sortKeys, Json.sortKeys_sortKeys, canon]

@[simp]
theorem canon_canon (value : Json) : canon (canon value) = canon value := by
  rw [canon, canon, canonicalize_sortKeys, canonicalize_canonicalize, Json.sortKeys_sortKeys]

@[simp]
theorem wf_canon (value : Json) : (canon value).wf = value.wf := by
  simp [canon]

theorem loads_canonicalJson {value : Json} (h : value.wf = true) :
    loads (canonicalJson value) = some (canon value) :=
  loads_dumps (by simpa using h)

theorem canonicalJson_eq_dumps_canon (value : Json) :
    canonicalJson value = dumps (canon value) := by
  rw [canonicalJson, canon, dumps_sortKeys]

@[simp]
theorem canonicalJson_sortKeys (value : Json) :
    canonicalJson value.sortKeys = canonicalJson value := by
  rw [canonicalJson_eq_dumps_canon, canon_sortKeys, canonicalJson_eq_dumps_canon]

@[simp]
theorem canonicalJson_canon (value : Json) : canonicalJson (canon value) = canonicalJson value := by
  rw [canonicalJson_eq_dumps_canon, canon_canon, canonicalJson_eq_dumps_canon]

theorem canonicalizeFields_sortKeys (path : List String) (fields : Fields) :
    canonicalizeFields path (Fields.sortKeys fields) =
      Fields.sortKeys (canonicalizeFields path fields) := by
  have h := canonicalize_sortKeys path (.obj fields)
  rw [Json.sortKeys_obj_eq, canonicalize_obj, canonicalize_obj, Json.sortKeys_obj_eq] at h
  exact Json.obj.inj h

@[simp]
theorem canonicalizeFields_canonicalizeFields (path : List String) (fields : Fields) :
    canonicalizeFields path (canonicalizeFields path fields) = canonicalizeFields path fields := by
  have h := canonicalize_canonicalize path (.obj fields)
  rw [canonicalize_obj, canonicalize_obj] at h
  exact Json.obj.inj h

/-- Values with one encoding have one normal form. -/
theorem canon_eq_of_canonicalJson_eq {first second : Json} (hfirst : first.wf = true)
    (hsecond : second.wf = true) (h : canonicalJson first = canonicalJson second) :
    canon first = canon second := by
  have hloads := loads_canonicalJson hfirst
  rw [h, loads_canonicalJson hsecond] at hloads
  exact (Option.some.inj hloads).symm

/-! ## Content digests -/

theorem get?_stripSelfDigest (fields : Fields) (key : String) :
    Fields.get? (stripSelfDigest fields) key =
      if key = "contentDigest" then none
      else if key = "metadata" then (Fields.get? fields key).map stripMetadata
      else Fields.get? fields key := by
  rw [stripSelfDigest, Fields.get?_erase]
  by_cases hdigest : key = "contentDigest"
  · simp [hdigest]
  rw [if_neg (Ne.symm hdigest), if_neg hdigest]
  cases hmetadata : Fields.get? fields "metadata" with
  | none => by_cases hkey : key = "metadata" <;> simp [hkey, hmetadata]
  | some metadata =>
      rw [Fields.get?_set]
      by_cases hkey : key = "metadata"
      · simp [hkey, hmetadata]
      · simp [hkey, Ne.symm hkey]

theorem nodup_keys_stripSelfDigest {fields : Fields} (h : (Fields.keys fields).Nodup) :
    (Fields.keys (stripSelfDigest fields)).Nodup := by
  rw [stripSelfDigest]
  cases Fields.get? fields "metadata" with
  | none => exact Fields.nodup_keys_erase h _
  | some metadata => exact Fields.nodup_keys_erase (Fields.nodup_keys_set _ _ h) _

theorem sortKeys_stripMetadata {value : Json} (h : value.wf = true) :
    (stripMetadata value.sortKeys).sortKeys = (stripMetadata value).sortKeys := by
  cases value with
  | obj metadata =>
      have hnodup := (Json.wf_obj_iff.mp h).1
      rw [Json.sortKeys_obj_eq, stripMetadata, stripMetadata]
      refine Json.sortKeys_obj_ext (Fields.nodup_keys_erase ?_ _)
        (Fields.nodup_keys_erase hnodup _) fun key => ?_
      · exact (Fields.keys_sortKeys_perm metadata).nodup_iff.mpr hnodup
      · rw [Fields.get?_erase, Fields.get?_erase, Fields.get?_sortKeys]
        split <;> simp [Function.comp_def]
  | arr items => simp [stripMetadata, Function.comp_def]
  | _ => rfl

theorem dumps_stripSelfDigest_sortKeys {fields : Fields} (h : (Json.obj fields).wf = true) :
    dumps (.obj (stripSelfDigest (Fields.sortKeys fields))) =
      dumps (.obj (stripSelfDigest fields)) := by
  have hnodup := (Json.wf_obj_iff.mp h).1
  rw [dumps, dumps]
  congr 1
  refine Json.sortKeys_obj_ext (nodup_keys_stripSelfDigest ?_)
    (nodup_keys_stripSelfDigest hnodup) fun key => ?_
  · exact (Fields.keys_sortKeys_perm fields).nodup_iff.mpr hnodup
  · rw [get?_stripSelfDigest, get?_stripSelfDigest, Fields.get?_sortKeys]
    split
    · rfl
    · split
      · cases hvalue : Fields.get? fields key with
        | none => rfl
        | some value =>
            have hwf := (Json.wf_obj_iff.mp h).2 _ (Fields.mem_of_get?_eq_some hvalue)
            simpa using sortKeys_stripMetadata hwf
      · simp [Function.comp_def]

theorem canonicalDigest_sortKeys {fields : Fields} (h : (Json.obj fields).wf = true) :
    canonicalDigest (Fields.sortKeys fields) = canonicalDigest fields := by
  rw [canonicalDigest, identityProjection, canonicalizeFields_sortKeys,
    dumps_stripSelfDigest_sortKeys (wf_canonicalizeFields h), canonicalDigest, identityProjection]

/-- The digest is a function of the normal form. -/
theorem canonicalDigest_canonFields {fields : Fields} (h : (Json.obj fields).wf = true) :
    canonicalDigest (canonFields fields) = canonicalDigest fields := by
  rw [canonFields, canonicalDigest_sortKeys (wf_canonicalizeFields h), canonicalDigest,
    identityProjection, canonicalizeFields_canonicalizeFields, canonicalDigest, identityProjection]

/-- The digest does not depend on the digest field. -/
theorem canonicalDigest_set_contentDigest {fields : Fields} (h : (Json.obj fields).wf = true)
    (value : Json) :
    canonicalDigest (Fields.set fields "contentDigest" value) = canonicalDigest fields := by
  have hnodup := (Json.wf_obj_iff.mp h).1
  rw [canonicalDigest, canonicalDigest, identityProjection, identityProjection, dumps, dumps]
  congr 2
  refine Json.sortKeys_obj_ext (nodup_keys_stripSelfDigest ?_)
    (nodup_keys_stripSelfDigest ?_) fun key => ?_
  · rw [keys_canonicalizeFields]
    exact Fields.nodup_keys_set _ _ hnodup
  · rwa [keys_canonicalizeFields]
  · rw [get?_stripSelfDigest, get?_stripSelfDigest, get?_canonicalizeFields,
      get?_canonicalizeFields, Fields.get?_set]
    by_cases hkey : key = "contentDigest"
    · simp [hkey]
    · simp [hkey, Ne.symm hkey]

@[simp]
theorem canonicalDigestOfAll_sortKeys (fields : Fields) :
    canonicalDigestOfAll (Fields.sortKeys fields) = canonicalDigestOfAll fields := by
  rw [canonicalDigestOfAll, ← Json.sortKeys_obj_eq, canonicalJson_sortKeys, canonicalDigestOfAll]

end MncsCommons.Protocol
