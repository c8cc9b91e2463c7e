import Sigillo.AssocList
import Sigillo.JsonRoundTrip

/-!
# The canonical form

`canonicalJson` sorts the members of every object by name and writes the value without white
space. Two things make it an identity of values:

* **`sortKeys_obj_iff`** — two objects have one sorted form exactly when each name holds, on
  both sides, values of one sorted form: the order of the members is all that is lost;
* **`canonicalJson_injective`** — regular values of one canonical form have one sorted form.

The first asks that no name stands twice in an object (`KeysDistinct`), which holds of whatever was
read from a text. -/

namespace JsonText

open DoubleArith Utf16Text JsonParse AssocList

-- ── The order of the names ───────────────────────────────────────────────────────

theorem lexLe_total (a b : JsString) : lexLe a b || lexLe b a := by
  induction a generalizing b with
  | nil => simp [lexLe]
  | cons u a ih =>
      cases b with
      | nil => simp [lexLe]
      | cons v b =>
          by_cases h : u = v
          · subst h
            simpa [lexLe] using ih b
          · have hne : u.toNat ≠ v.toNat := fun he => h (UInt16.toNat_inj.mp he)
            simp only [lexLe, if_neg h, if_neg (Ne.symm h), Bool.or_eq_true, decide_eq_true_eq]
            omega

theorem lexLe_antisymm {a b : JsString} (hab : lexLe a b = true) (hba : lexLe b a = true) :
    a = b := by
  induction a generalizing b with
  | nil => cases b with
      | nil => rfl
      | cons v b => simp [lexLe] at hba
  | cons u a ih =>
      cases b with
      | nil => simp [lexLe] at hab
      | cons v b =>
          by_cases h : u = v
          · subst h
            simp only [lexLe, if_true] at hab hba
            rw [ih hab hba]
          · simp only [lexLe, if_neg h, if_neg (Ne.symm h), decide_eq_true_eq] at hab hba
            omega

theorem lexLe_trans {a b c : JsString} (hab : lexLe a b = true) (hbc : lexLe b c = true) :
    lexLe a c = true := by
  induction a generalizing b c with
  | nil => simp [lexLe]
  | cons u a ih =>
      cases b with
      | nil => simp [lexLe] at hab
      | cons v b =>
          cases c with
          | nil => simp [lexLe] at hbc
          | cons w c =>
              simp only [lexLe] at hab hbc ⊢
              by_cases huv : u = v
              · subst huv
                by_cases huw : u = w
                · subst huw
                  rw [if_pos rfl] at hab hbc ⊢
                  exact ih hab hbc
                · rw [if_neg huw] at hbc ⊢
                  exact hbc
              · rw [if_neg huv, decide_eq_true_eq] at hab
                by_cases hvw : v = w
                · subst hvw
                  rw [if_neg huv]
                  simpa using hab
                · rw [if_neg hvw, decide_eq_true_eq] at hbc
                  have huw : u ≠ w := by
                    rintro rfl
                    omega
                  rw [if_neg huw, decide_eq_true_eq]
                  omega

-- ── Distinct names ───────────────────────────────────────────────────────────────

/-- No object in the value has two members of one name. -/
inductive KeysDistinct : Json → Prop where
  | null : KeysDistinct .null
  | bool (b : Bool) : KeysDistinct (.bool b)
  | num (x : JsNumber) : KeysDistinct (.num x)
  | str (s : JsString) : KeysDistinct (.str s)
  | arr (items : List Json) : (∀ v ∈ items, KeysDistinct v) → KeysDistinct (.arr items)
  | obj (members : List (JsString × Json)) : (∀ m ∈ members, KeysDistinct m.2) →
      (members.map Prod.fst).Nodup → KeysDistinct (.obj members)

theorem KeysDistinct.of_regular {v : Json} (h : Regular v) : KeysDistinct v := by
  induction h with
  | null => exact .null
  | bool b => exact .bool b
  | nat n h => exact .num _
  | str s => exact .str s
  | arr items _ ih => exact .arr items ih
  | obj members _ hnd ih => exact .obj members ih hnd

theorem KeysDistinct.members {members : List (JsString × Json)}
    (h : KeysDistinct (.obj members)) :
    (∀ m ∈ members, KeysDistinct m.2) ∧ (members.map Prod.fst).Nodup := by
  cases h with
  | obj _ hm hnd => exact ⟨hm, hnd⟩

theorem KeysDistinct.items {items : List Json} (h : KeysDistinct (.arr items)) :
    ∀ v ∈ items, KeysDistinct v := by
  cases h with
  | arr _ hi => exact hi

theorem setMember_keys (members : List (JsString × Json)) (k : JsString) (v : Json) :
    (setMember members k v).map Prod.fst =
      if members.any (fun m => m.1 == k) then members.map Prod.fst
      else members.map Prod.fst ++ [k] := by
  unfold setMember
  split_ifs with h
  · rw [List.map_map]
    refine List.map_congr_left fun m _ => ?_
    by_cases hm : m.1 = k
    · simp [hm]
    · simp [hm]
  · simp

/-- Adding a member keeps the names distinct. -/
theorem keysDistinct_setMember {members : List (JsString × Json)} (h : KeysDistinct (.obj members))
    (k : JsString) {v : Json} (hv : KeysDistinct v) :
    KeysDistinct (.obj (setMember members k v)) := by
  obtain ⟨hm, hnd⟩ := h.members
  refine .obj _ ?_ ?_
  · intro m hmem
    unfold setMember at hmem
    split_ifs at hmem
    · obtain ⟨x, hx, rfl⟩ := List.mem_map.mp hmem
      split_ifs
      · exact hv
      · exact hm x hx
    · rcases List.mem_append.mp hmem with hx | hx
      · exact hm m hx
      · rw [List.mem_singleton.mp hx]
        exact hv
  · rw [setMember_keys]
    split_ifs with hk
    · exact hnd
    · rw [List.nodup_append]
      refine ⟨hnd, by simp, ?_⟩
      rintro a ha b hb rfl
      obtain ⟨m, hm', rfl⟩ := List.mem_map.mp ha
      rw [List.mem_singleton] at hb
      exact hk (List.any_eq_true.mpr ⟨m, hm', by simp [hb]⟩)

theorem keysDistinct_objectOf {members : List (JsString × Json)}
    (h : ∀ m ∈ members, KeysDistinct m.2) : KeysDistinct (objectOf members) := by
  have key : ∀ acc, KeysDistinct (.obj acc) →
      KeysDistinct (.obj (members.foldl (fun acc m => setMember acc m.1 m.2) acc)) := by
    induction members with
    | nil => exact fun acc hacc => hacc
    | cons m ms ih =>
        intro acc hacc
        exact ih (fun x hx => h x (by simp [hx])) _
          (keysDistinct_setMember hacc m.1 (h m (by simp)))
  exact key [] (.obj [] (by simp) (by simp))

-- ── Sorting ──────────────────────────────────────────────────────────────────────

theorem sortKeysItems_eq (items : List Json) : sortKeysItems items = items.map sortKeys := by
  induction items with
  | nil => rfl
  | cons v vs ih => rw [sortKeysItems, ih, List.map_cons]

theorem sortKeysMembers_eq (members : List (JsString × Json)) :
    sortKeysMembers members = members.map fun m => (m.1, sortKeys m.2) := by
  induction members with
  | nil => rfl
  | cons m ms ih => rw [sortKeysMembers, ih, List.map_cons]

/-- The members of an object as its sorted form holds them. -/
def sortedMembers (members : List (JsString × Json)) : List (JsString × Json) :=
  (members.map fun m => (m.1, sortKeys m.2)).mergeSort fun a b => lexLe a.1 b.1

theorem sortKeys_obj (members : List (JsString × Json)) :
    sortKeys (.obj members) = .obj (sortedMembers members) := by
  rw [sortKeys, sortKeysMembers_eq, sortedMembers]

theorem sortKeys_arr (items : List Json) : sortKeys (.arr items) = .arr (items.map sortKeys) := by
  rw [sortKeys, sortKeysItems_eq]

theorem sortedMembers_perm (members : List (JsString × Json)) :
    (sortedMembers members).Perm (members.map fun m => (m.1, sortKeys m.2)) :=
  List.mergeSort_perm _ _

theorem sortedMembers_pairwise (members : List (JsString × Json)) :
    (sortedMembers members).Pairwise fun a b => lexLe a.1 b.1 = true :=
  @List.pairwise_mergeSort _ (fun a b : JsString × Json => lexLe a.1 b.1)
    (fun _ _ _ hab hbc => lexLe_trans hab hbc) (fun a b => lexLe_total a.1 b.1) _

theorem keys_map_sortKeys (members : List (JsString × Json)) :
    (members.map fun m => (m.1, sortKeys m.2)).map Prod.fst = members.map Prod.fst := by
  rw [List.map_map]
  rfl

theorem mem_map_sortKeys {members : List (JsString × Json)} (hnd : (members.map Prod.fst).Nodup)
    {k : JsString} {w : Json} :
    (k, w) ∈ members.map (fun m => (m.1, sortKeys m.2)) ↔
      (members.lookup k).map sortKeys = some w := by
  rw [Option.map_eq_some_iff, List.mem_map]
  constructor
  · rintro ⟨⟨k', v⟩, hm, heq⟩
    obtain ⟨rfl, rfl⟩ := Prod.mk.inj heq
    exact ⟨v, (lookup_eq_some_iff_mem hnd).mpr hm, rfl⟩
  · rintro ⟨v, hv, rfl⟩
    exact ⟨(k, v), (lookup_eq_some_iff_mem hnd).mp hv, rfl⟩

/-- **Two objects have one sorted form exactly when each name holds values of one sorted
    form.** -/
theorem sortKeys_obj_iff {ms ns : List (JsString × Json)} (hms : (ms.map Prod.fst).Nodup)
    (hns : (ns.map Prod.fst).Nodup) :
    sortKeys (.obj ms) = sortKeys (.obj ns) ↔
      ∀ k, (ms.lookup k).map sortKeys = (ns.lookup k).map sortKeys := by
  rw [sortKeys_obj, sortKeys_obj, Json.obj.injEq]
  constructor
  · intro h k
    have hperm : (ms.map fun m => (m.1, sortKeys m.2)).Perm
        (ns.map fun m => (m.1, sortKeys m.2)) :=
      (sortedMembers_perm ms).symm.trans (h ▸ sortedMembers_perm ns)
    refine Option.ext fun w => ?_
    rw [← mem_map_sortKeys hms, ← mem_map_sortKeys hns, hperm.mem_iff]
  · intro h
    have hnd : ∀ xs : List (JsString × Json), (xs.map Prod.fst).Nodup →
        (xs.map fun m => (m.1, sortKeys m.2)).Nodup := fun xs hxs =>
      List.Nodup.of_map Prod.fst (by rw [keys_map_sortKeys]; exact hxs)
    have hperm : (ms.map fun m => (m.1, sortKeys m.2)).Perm
        (ns.map fun m => (m.1, sortKeys m.2)) := by
      rw [List.perm_ext_iff_of_nodup (hnd ms hms) (hnd ns hns)]
      rintro ⟨k, w⟩
      rw [mem_map_sortKeys hms, mem_map_sortKeys hns, h k]
    have hsorted : (sortedMembers ms).Perm (sortedMembers ns) :=
      (sortedMembers_perm ms).trans (hperm.trans (sortedMembers_perm ns).symm)
    refine hsorted.eq_of_pairwise ?_ (sortedMembers_pairwise ms) (sortedMembers_pairwise ns)
    -- members of one name are one member
    rintro ⟨k, v⟩ ⟨k', w⟩ hv hw hle hge
    obtain rfl : k = k' := lexLe_antisymm hle hge
    have hv' := (mem_map_sortKeys hms).mp ((sortedMembers_perm ms).mem_iff.mp hv)
    have hw' := (mem_map_sortKeys hns).mp ((sortedMembers_perm ns).mem_iff.mp hw)
    rw [h k, hw'] at hv'
    rw [Option.some.inj hv']

theorem Regular.sortKeys {v : Json} (h : Regular v) : Regular (sortKeys v) := by
  induction h with
  | null => rw [JsonText.sortKeys]; exact .null
  | bool b => rw [JsonText.sortKeys]; exact .bool b
  | nat n h => rw [JsonText.sortKeys]; exact .nat n h
  | str s => rw [JsonText.sortKeys]; exact .str s
  | arr items _ ih =>
      rw [sortKeys_arr]
      refine .arr _ fun v hv => ?_
      obtain ⟨w, hw, rfl⟩ := List.mem_map.mp hv
      exact ih w hw
  | obj members _ hnd ih =>
      rw [sortKeys_obj]
      refine .obj _ ?_ ?_
      · intro m hm
        obtain ⟨n, hn, rfl⟩ := List.mem_map.mp ((sortedMembers_perm members).mem_iff.mp hm)
        exact ih n hn
      · rw [((sortedMembers_perm members).map Prod.fst).nodup_iff, keys_map_sortKeys]
        exact hnd

/-- Sorting a sorted value changes nothing. -/
theorem Regular.sortKeys_idem {v : Json} (h : Regular v) :
    JsonText.sortKeys (JsonText.sortKeys v) = JsonText.sortKeys v := by
  induction h with
  | null => rfl
  | bool b => rfl
  | nat n h => rfl
  | str s => rfl
  | arr items _ ih =>
      rw [sortKeys_arr, sortKeys_arr, List.map_map]
      exact congrArg Json.arr (List.map_congr_left fun v hv => ih v hv)
  | obj members _ hnd ih =>
      have hsorted : ((sortedMembers members).map Prod.fst).Nodup := by
        rw [((sortedMembers_perm members).map Prod.fst).nodup_iff, keys_map_sortKeys]
        exact hnd
      have hperm : ((sortedMembers members).map fun m => (m.1, JsonText.sortKeys m.2)).Perm
          (members.map fun m => (m.1, JsonText.sortKeys m.2)) := by
        refine ((sortedMembers_perm members).map _).trans (.of_eq ?_)
        rw [List.map_map]
        exact List.map_congr_left fun m hm => Prod.ext rfl (ih m hm)
      have hsame : JsonText.sortKeys (.obj (sortedMembers members))
          = JsonText.sortKeys (.obj members) := by
        refine (sortKeys_obj_iff hsorted hnd).mpr fun k => Option.ext fun w => ?_
        rw [← mem_map_sortKeys hsorted, ← mem_map_sortKeys hnd, hperm.mem_iff]
      rw [sortKeys_obj members, hsame, sortKeys_obj]

/-- **Regular values of one canonical form differ at most in the order of their members.** -/
theorem canonicalJson_injective {v w : Json} (hv : Regular v) (hw : Regular w)
    (h : canonicalJson v = canonicalJson w) : JsonText.sortKeys v = JsonText.sortKeys w :=
  stringify_injective (Regular.sortKeys hv) (Regular.sortKeys hw) h

end JsonText
