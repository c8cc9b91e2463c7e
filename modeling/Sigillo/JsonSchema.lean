import Sigillo.JsonCanonical

/-!
# Schemas

A `Codec α` is a strict schema: which values it accepts, what it reads from them, and the value it
writes. One law ties the three together: a value reads as `a` exactly when it is, up to the order
of members, what `a` is written as. Two facts follow for every schema built from the combinators
below, and they are all the rest of the development asks of a schema:

* **`Codec.decode_encode`** — what was written reads back;
* **`Codec.canonical_injective`** — two values of one canonical form are one value.

An object is built from its `Fields`, required or optional, in the order they are written; a
discriminated union routes on one member, which it reads first. -/

namespace JsonSchema

open DoubleArith Utf16Text JsonText JsonParse AssocList

/-- **A strict schema**, with the values it accepts and the one it writes. -/
structure Codec (α : Type) where
  decode : Json → Option α
  encode : α → Json
  regular : ∀ a, Regular (encode a)
  decode_iff : ∀ {j : Json} {a : α}, KeysDistinct j →
    (decode j = some a ↔ sortKeys j = sortKeys (encode a))

theorem mem_unit : ∀ a : Unit, a ∈ [()] := by simp

namespace Codec

variable {α β : Type}

@[simp] theorem decode_encode (c : Codec α) (a : α) : c.decode (c.encode a) = some a :=
  (c.decode_iff (.of_regular (c.regular a))).mpr rfl

/-- A value is determined by what it is written as, up to the order of members. -/
theorem sortKeys_injective (c : Codec α) {a b : α}
    (h : sortKeys (c.encode a) = sortKeys (c.encode b)) : a = b := by
  have hb := (c.decode_iff (.of_regular (c.regular a))).mpr h
  rw [decode_encode] at hb
  exact Option.some.inj hb

/-- **Values of one canonical form are one value.** -/
theorem canonical_injective (c : Codec α) {a b : α}
    (h : canonicalJson (c.encode a) = canonicalJson (c.encode b)) : a = b :=
  c.sortKeys_injective (canonicalJson_injective (c.regular a) (c.regular b) h)

/-- A text written for a value reads back as it. -/
theorem parse_encode (c : Codec α) (a : α) :
    (jsonParse (stringify (c.encode a))).bind c.decode = some a := by
  rw [jsonParse_stringify (c.regular a), Option.bind_some, decode_encode]

/-- The same schema, read as another type. -/
def iso (c : Codec α) (e : α ≃ β) : Codec β where
  decode j := (c.decode j).map e
  encode b := c.encode (e.symm b)
  regular b := c.regular _
  decode_iff := by
    intro j b hj
    rw [Option.map_eq_some_iff, ← c.decode_iff hj]
    constructor
    · rintro ⟨a, ha, rfl⟩
      rw [ha, e.symm_apply_apply]
    · rintro h
      exact ⟨e.symm b, h, e.apply_symm_apply b⟩

/-- A schema with one more check on what it read. -/
def refine (c : Codec α) (p : α → Prop) [DecidablePred p] : Codec {a : α // p a} where
  decode j := (c.decode j).bind fun a => if h : p a then some ⟨a, h⟩ else none
  encode a := c.encode a.1
  regular a := c.regular a.1
  decode_iff := by
    rintro j ⟨a, ha⟩ hj
    rw [← c.decode_iff hj]
    constructor
    · intro h
      obtain ⟨b, hb, hif⟩ := Option.bind_eq_some_iff.mp h
      split_ifs at hif with hp
      obtain rfl : b = a := by simpa using hif
      exact hb
    · intro h
      rw [h, Option.bind_some, dif_pos ha]

/-- A string that passes a check. -/
def str (p : JsString → Prop) [DecidablePred p] : Codec {s : JsString // p s} where
  decode
    | .str s => if h : p s then some ⟨s, h⟩ else none
    | _ => none
  encode s := .str s.1
  regular s := .str s.1
  decode_iff := by
    rintro j ⟨s, hs⟩ -
    cases j with
    | str t =>
        constructor
        · intro h
          simp only at h
          split_ifs at h with ht
          obtain rfl : t = s := by simpa using h
          rfl
        · intro h
          obtain rfl : t = s := by simpa [sortKeys] using h
          exact dif_pos hs
    | _ => simp [sortKeys]

/-- A natural that is a double and passes a check. -/
def nat (p : ℕ → Prop) [DecidablePred p] : Codec {n : ℕ // IsDouble (n : ℚ) ∧ p n} where
  decode
    | .num x => x.toNat?.bind fun n =>
        if h : IsDouble (n : ℚ) ∧ p n then some ⟨n, h⟩ else none
    | _ => none
  encode n := .num (.fin n.1 n.2.1)
  regular n := .nat n.1 n.2.1
  decode_iff := by
    rintro j ⟨n, hd, hp⟩ -
    cases j with
    | num x =>
        constructor
        · intro h
          obtain ⟨m, hm, hif⟩ := Option.bind_eq_some_iff.mp h
          split_ifs at hif with hc
          obtain rfl : m = n := by simpa using hif
          obtain ⟨_, rfl⟩ := JsNumber.toNat?_eq_some hm
          rfl
        · intro h
          obtain rfl : x = .fin n hd := by simpa [sortKeys] using h
          simp only [JsNumber.toNat?_fin_natCast, Option.bind_some]
          exact dif_pos ⟨hd, hp⟩
    | _ => simp [sortKeys]

/-- One of finitely many strings. -/
def enum (all : List α) (hall : ∀ a, a ∈ all) (name : α → JsString)
    (hname : ∀ a b, name a = name b → a = b) : Codec α where
  decode
    | .str s => all.find? fun a => name a == s
    | _ => none
  encode a := .str (name a)
  regular a := .str _
  decode_iff := by
    rintro j a -
    cases j with
    | str s =>
        constructor
        · intro h
          have := List.find?_some h
          rw [beq_iff_eq] at this
          rw [this]
        · intro h
          obtain rfl : s = name a := by simpa [sortKeys] using h
          cases hf : all.find? fun b => name b == name a with
          | none => exact absurd (List.find?_eq_none.mp hf a (hall a)) (by simp)
          | some b =>
              have hb := List.find?_some hf
              rw [beq_iff_eq] at hb
              rw [← hname b a hb] at hf ⊢
              exact hf
    | _ => simp [sortKeys]

/-- One of finitely many naturals. -/
def natEnum (all : List α) (hall : ∀ a, a ∈ all) (value : α → ℕ)
    (hdouble : ∀ a, IsDouble (value a : ℚ)) (hvalue : ∀ a b, value a = value b → a = b) :
    Codec α where
  decode
    | .num x => x.toNat?.bind fun n => all.find? fun a => value a == n
    | _ => none
  encode a := .num (.fin (value a) (hdouble a))
  regular a := .nat _ _
  decode_iff := by
    rintro j a -
    cases j with
    | num x =>
        constructor
        · intro h
          obtain ⟨n, hn, hf⟩ := Option.bind_eq_some_iff.mp h
          have hv := List.find?_some hf
          rw [beq_iff_eq] at hv
          subst hv
          obtain ⟨_, rfl⟩ := JsNumber.toNat?_eq_some hn
          rfl
        · intro h
          obtain rfl : x = .fin (value a) (hdouble a) := by simpa [sortKeys] using h
          simp only [JsNumber.toNat?_fin_natCast, Option.bind_some]
          cases hf : all.find? fun b => value b == value a with
          | none => exact absurd (List.find?_eq_none.mp hf a (hall a)) (by simp)
          | some b =>
              have hb := List.find?_some hf
              rw [beq_iff_eq] at hb
              rw [hvalue b a hb]
    | _ => simp [sortKeys]

/-- `null`, or a value of a schema that never writes `null`. -/
def nullable (c : Codec α) (hc : ∀ a, c.encode a ≠ .null) : Codec (Option α) where
  decode
    | .null => some none
    | j => (c.decode j).map some
  encode
    | none => .null
    | some a => c.encode a
  regular
    | none => .null
    | some a => c.regular a
  decode_iff := by
    intro j a hj
    have hnull : ∀ a, sortKeys (c.encode a) ≠ .null := by
      intro a h
      cases hca : c.encode a with
      | null => exact hc a hca
      | _ => simp [hca, sortKeys] at h
    cases a with
    | none => cases j <;> simp [sortKeys]
    | some a =>
        cases j with
        | null =>
            simp only [sortKeys]
            exact iff_of_false (by simp) fun h => hnull a h.symm
        | _ => simpa using c.decode_iff hj

theorem mapM_decode_iff (c : Codec α) {items : List Json} (h : ∀ v ∈ items, KeysDistinct v)
    (as : List α) :
    items.mapM c.decode = some as ↔
      items.map sortKeys = as.map fun a => sortKeys (c.encode a) := by
  induction items generalizing as with
  | nil => cases as <;> simp
  | cons v vs ih =>
      have hvs := ih fun w hw => h w (by simp [hw])
      rw [List.mapM_cons]
      cases as with
      | nil => simp [Option.bind_eq_some_iff]
      | cons a as =>
          rw [List.map_cons, List.map_cons, List.cons.injEq, ← c.decode_iff (h v (by simp)),
            ← hvs as]
          simp [Option.bind_eq_some_iff]

/-- A list, each item by the schema of items. -/
def arr (c : Codec α) : Codec (List α) where
  decode
    | .arr items => items.mapM c.decode
    | _ => none
  encode as := .arr (as.map c.encode)
  regular as := .arr _ (by
    intro v hv
    obtain ⟨a, -, rfl⟩ := List.mem_map.mp hv
    exact c.regular a)
  decode_iff := by
    intro j as hj
    cases j with
    | arr items =>
        rw [sortKeys_arr, sortKeys_arr, Json.arr.injEq, List.map_map]
        exact c.mapM_decode_iff hj.items as
    | _ => simp [sortKeys]

end Codec

-- ── Objects ──────────────────────────────────────────────────────────────────────

/-- **Some members of a strict object**: their names, how they are read given what stands under
    each name, and how they are written. -/
structure Fields (α : Type) where
  keys : List JsString
  read : (JsString → Option Json) → Option α
  write : α → List (JsString × Json)
  write_sublist : ∀ a, ((write a).map Prod.fst).Sublist keys
  regular : ∀ a, ∀ m ∈ write a, Regular m.2
  read_iff : ∀ {f : JsString → Option Json} {a : α}, (∀ k v, f k = some v → KeysDistinct v) →
    (read f = some a ↔
      ∀ k ∈ keys, (f k).map sortKeys = ((write a).lookup k).map sortKeys)

namespace Fields

variable {α β : Type}

/-- A member that must be there. -/
def req (key : JsString) (c : Codec α) : Fields α where
  keys := [key]
  read f := (f key).bind c.decode
  write a := [(key, c.encode a)]
  write_sublist _ := by simp
  regular a := by simpa using c.regular a
  read_iff := by
    intro f a hf
    simp only [List.mem_singleton, forall_eq, List.lookup_cons_self, Option.map_some]
    cases hk : f key with
    | none => simp
    | some j => simpa using c.decode_iff (hf key j hk)

/-- A member that may be left out. -/
def opt (key : JsString) (c : Codec α) : Fields (Option α) where
  keys := [key]
  read f := match f key with
    | none => some none
    | some j => (c.decode j).map some
  write
    | none => []
    | some a => [(key, c.encode a)]
  write_sublist a := by cases a <;> simp
  regular a := by
    cases a with
    | none => simp
    | some a => simpa using c.regular a
  read_iff := by
    intro f a hf
    simp only [List.mem_singleton, forall_eq]
    cases hk : f key with
    | none => cases a <;> simp
    | some j =>
        cases a with
        | none => simp
        | some a => simpa using c.decode_iff (hf key j hk)

/-- The members of one group, then those of another. -/
def both (F : Fields α) (G : Fields β) (h : ∀ k ∈ F.keys, k ∉ G.keys) : Fields (α × β) where
  keys := F.keys ++ G.keys
  read f := (F.read f).bind fun a => (G.read f).map fun b => (a, b)
  write p := F.write p.1 ++ G.write p.2
  write_sublist p := by
    rw [List.map_append]
    exact (F.write_sublist p.1).append (G.write_sublist p.2)
  regular p := by
    intro m hm
    rcases List.mem_append.mp hm with hm | hm
    · exact F.regular p.1 m hm
    · exact G.regular p.2 m hm
  read_iff := by
    rintro f ⟨a, b⟩ hf
    have hleft : ∀ k ∈ F.keys, ((F.write a ++ G.write b).lookup k) = (F.write a).lookup k := by
      intro k hk
      rw [List.lookup_append,
        lookup_of_not_mem fun hg => h k hk ((G.write_sublist b).subset hg), Option.or_none]
    have hright : ∀ k ∈ G.keys, ((F.write a ++ G.write b).lookup k) = (G.write b).lookup k := by
      intro k hk
      rw [List.lookup_append,
        lookup_of_not_mem fun hg => h k ((F.write_sublist a).subset hg) hk, Option.none_or]
    rw [List.forall_mem_append]
    have hF := F.read_iff (a := a) hf
    have hG := G.read_iff (a := b) hf
    constructor
    · intro hr
      obtain ⟨a', ha', hr⟩ := Option.bind_eq_some_iff.mp hr
      obtain ⟨b', hb', heq⟩ := Option.map_eq_some_iff.mp hr
      obtain ⟨rfl, rfl⟩ := Prod.mk.inj heq
      refine ⟨fun k hk => ?_, fun k hk => ?_⟩
      · rw [hleft k hk]
        exact hF.mp ha' k hk
      · rw [hright k hk]
        exact hG.mp hb' k hk
    · rintro ⟨hl, hr⟩
      have ha := hF.mpr fun k hk => by rw [← hleft k hk]; exact hl k hk
      have hb := hG.mpr fun k hk => by rw [← hright k hk]; exact hr k hk
      rw [ha, hb]
      rfl

/-- The same members, read as another type. -/
def iso (F : Fields α) (e : α ≃ β) : Fields β where
  keys := F.keys
  read f := (F.read f).map e
  write b := F.write (e.symm b)
  write_sublist b := F.write_sublist _
  regular b := F.regular _
  read_iff := by
    intro f b hf
    rw [Option.map_eq_some_iff, ← F.read_iff hf]
    constructor
    · rintro ⟨a, ha, rfl⟩
      rw [ha, e.symm_apply_apply]
    · rintro h
      exact ⟨e.symm b, h, e.apply_symm_apply b⟩

-- What a group of members reads, member by member.

theorem read_req {key : JsString} {c : Codec α} {f : JsString → Option Json} {j : Json} {a : α}
    (hf : f key = some j) : (req key c).read f = some a ↔ c.decode j = some a := by
  simp only [req, hf, Option.bind_some]

theorem read_opt {key : JsString} {c : Codec α} {f : JsString → Option Json} {a : α} {j : Json}
    (hf : f key = some j) : (opt key c).read f = some (some a) ↔ c.decode j = some a := by
  simp only [opt, hf, Option.map_eq_some_iff, Option.some.injEq, exists_eq_right]

theorem read_opt_none {key : JsString} {c : Codec α} {f : JsString → Option Json}
    {o : Option α} (hf : f key = none) : (opt key c).read f = some o ↔ o = none := by
  simp only [opt, hf, Option.some.injEq]
  exact eq_comm

theorem read_opt_ne_none {key : JsString} {c : Codec α} {f : JsString → Option Json} {j : Json}
    (hf : f key = some j) : (opt key c).read f ≠ some none := by
  simp only [opt, hf]
  cases c.decode j with
  | none => simp
  | some a => simp

theorem read_both {F : Fields α} {G : Fields β} {h : ∀ k ∈ F.keys, k ∉ G.keys}
    {f : JsString → Option Json} {p : α × β} :
    (both F G h).read f = some p ↔ F.read f = some p.1 ∧ G.read f = some p.2 := by
  simp only [both, Option.bind_eq_some_iff, Option.map_eq_some_iff]
  constructor
  · rintro ⟨a, ha, b, hb, rfl⟩
    exact ⟨ha, hb⟩
  · rintro ⟨ha, hb⟩
    exact ⟨p.1, ha, p.2, hb, rfl⟩

theorem read_iso {F : Fields α} {e : α ≃ β} {f : JsString → Option Json} {b : β} :
    (F.iso e).read f = some b ↔ F.read f = some (e.symm b) := by
  simp only [iso, Option.map_eq_some_iff]
  constructor
  · rintro ⟨a, ha, rfl⟩
    rwa [e.symm_apply_apply]
  · intro h
    exact ⟨_, h, e.apply_symm_apply b⟩

end Fields

namespace Codec

variable {α β : Type}

-- What a schema reads, layer by layer.

theorem decode_iso {c : Codec α} {e : α ≃ β} {j : Json} {b : β} :
    (c.iso e).decode j = some b ↔ c.decode j = some (e.symm b) := by
  simp only [iso, Option.map_eq_some_iff]
  constructor
  · rintro ⟨a, ha, rfl⟩
    rwa [e.symm_apply_apply]
  · intro h
    exact ⟨_, h, e.apply_symm_apply b⟩

theorem decode_refine {c : Codec α} {p : α → Prop} [DecidablePred p] {j : Json} {a : {a // p a}} :
    (c.refine p).decode j = some a ↔ c.decode j = some a.1 := by
  simp only [refine, Option.bind_eq_some_iff]
  constructor
  · rintro ⟨b, hb, hif⟩
    split_ifs at hif with hp
    rw [hb, ← Option.some.inj hif]
  · intro h
    exact ⟨a.1, h, dif_pos a.2⟩

theorem decode_str {p : JsString → Prop} [DecidablePred p] {s : JsString} {a : {s // p s}} :
    (str p).decode (.str s) = some a ↔ s = a.1 := by
  simp only [str]
  constructor
  · intro h
    split_ifs at h
    rw [← Option.some.inj h]
  · rintro rfl
    exact dif_pos a.2

theorem decode_nullable {c : Codec α} {hc : ∀ a, c.encode a ≠ .null} {j : Json} {a : α}
    (hj : j ≠ .null) : (c.nullable hc).decode j = some (some a) ↔ c.decode j = some a := by
  cases j with
  | null => exact absurd rfl hj
  | _ => simp [nullable]

theorem decode_nullable_none {c : Codec α} {hc : ∀ a, c.encode a ≠ .null} {j : Json} :
    (c.nullable hc).decode j = some none ↔ j = .null := by
  cases j with
  | null => simp [nullable]
  | _ => simp [nullable]

theorem decode_arr {c : Codec α} {items : List Json} {as : List α} :
    (c.arr).decode (.arr items) = some as ↔ List.Forall₂ (fun j a => c.decode j = some a) items as := by
  simp only [arr]
  induction items generalizing as with
  | nil =>
      rw [List.forall₂_nil_left_iff, List.mapM_nil]
      constructor
      · intro h
        exact (Option.some.inj h).symm
      · rintro rfl
        rfl
  | cons j rest ih =>
      rw [List.mapM_cons, List.forall₂_cons_left_iff]
      simp only [Option.bind_eq_bind, Option.bind_eq_some_iff]
      constructor
      · rintro ⟨a, ha, as', has', h⟩
        exact ⟨a, as', ha, ih.mp has', (Option.some.inj h).symm⟩
      · rintro ⟨a, as', ha, has', rfl⟩
        exact ⟨a, ha, as', ih.mpr has', rfl⟩

/-- An object with exactly these members. -/
def object (F : Fields α) (h : F.keys.Nodup) : Codec α where
  decode
    | .obj ms => if ∀ m ∈ ms, m.1 ∈ F.keys then F.read fun k => ms.lookup k else none
    | _ => none
  encode a := .obj (F.write a)
  regular a := .obj _ (F.regular a) ((F.write_sublist a).nodup h)
  decode_iff := by
    intro j a hj
    cases j with
    | obj ms =>
        obtain ⟨hkd, hnd⟩ := hj.members
        have hread := F.read_iff (f := fun k => ms.lookup k) (a := a) fun k v hv =>
          hkd _ ((lookup_eq_some_iff_mem hnd).mp hv)
        rw [sortKeys_obj_iff hnd ((F.write_sublist a).nodup h)]
        constructor
        · intro hd k
          simp only at hd
          split_ifs at hd with hall
          by_cases hk : k ∈ F.keys
          · exact hread.mp hd k hk
          · rw [lookup_of_not_mem fun hm => hk ((F.write_sublist a).subset hm),
              lookup_of_not_mem]
            intro hm
            obtain ⟨m, hmem, rfl⟩ := List.mem_map.mp hm
            exact hk (hall m hmem)
        · intro hl
          have hall : ∀ m ∈ ms, m.1 ∈ F.keys := by
            intro m hm
            have hm' := hl m.1
            rw [(lookup_eq_some_iff_mem hnd).mpr hm, Option.map_some] at hm'
            by_contra hk
            rw [lookup_of_not_mem fun hw => hk ((F.write_sublist a).subset hw)] at hm'
            cases hm'
          simp only [if_pos hall]
          exact hread.mpr fun k _ => hl k
    | _ => simp [sortKeys]

theorem decode_object {F : Fields α} {h : F.keys.Nodup} {ms : List (JsString × Json)}
    (hkeys : ∀ m ∈ ms, m.1 ∈ F.keys) {a : α} :
    (object F h).decode (.obj ms) = some a ↔ F.read (fun k => ms.lookup k) = some a := by
  simp only [object, if_pos hkeys]

/-- A strict object refuses a member it does not name. -/
theorem object_decode_none {F : Fields α} {h : F.keys.Nodup} {ms : List (JsString × Json)}
    {key : JsString} (hmem : key ∈ ms.map Prod.fst) (hkey : key ∉ F.keys) :
    (object F h).decode (.obj ms) = none := by
  obtain ⟨m, hm, rfl⟩ := List.mem_map.mp hmem
  exact if_neg fun hall => hkey (hall m hm)

/-- **A discriminated union**: the member `key` says which branch reads the object. -/
def union {ι : Type} {γ : ι → Type} (key : JsString) (tag : Codec ι)
    (branch : (i : ι) → Codec (γ i))
    (h : ∀ i a, ∃ ms, (branch i).encode a = .obj ms ∧ ms.lookup key = some (tag.encode i)) :
    Codec (Σ i, γ i) where
  decode
    | .obj ms => (ms.lookup key).bind fun t => (tag.decode t).bind fun i =>
        ((branch i).decode (.obj ms)).map fun a => ⟨i, a⟩
    | _ => none
  encode x := (branch x.1).encode x.2
  regular x := (branch x.1).regular x.2
  decode_iff := by
    rintro j ⟨i, a⟩ hj
    obtain ⟨ns, hns, htag⟩ := h i a
    cases j with
    | obj ms =>
        obtain ⟨hkd, hnd⟩ := hj.members
        constructor
        · intro hd
          obtain ⟨t, -, hd⟩ := Option.bind_eq_some_iff.mp hd
          obtain ⟨i', -, hd⟩ := Option.bind_eq_some_iff.mp hd
          obtain ⟨a', ha', heq⟩ := Option.map_eq_some_iff.mp hd
          obtain ⟨rfl, heq⟩ := Sigma.mk.inj heq
          obtain rfl := eq_of_heq heq
          exact ((branch i').decode_iff hj).mp ha'
        · intro hs
          have hreg : Regular (.obj ns) := hns ▸ (branch i).regular a
          have hk := hs
          rw [hns, sortKeys_obj_iff hnd (KeysDistinct.of_regular hreg).members.2] at hk
          have hkey := hk key
          rw [htag, Option.map_some, Option.map_eq_some_iff] at hkey
          obtain ⟨t, ht, hst⟩ := hkey
          have hdt := (tag.decode_iff (hkd _ ((lookup_eq_some_iff_mem hnd).mp ht))).mpr hst
          have hda := ((branch i).decode_iff hj).mpr hs
          simp only [ht, Option.bind_some, hdt, hda, Option.map_some]
    | _ => simp [sortKeys, hns]

/-- A union reads by the branch its tag names. -/
theorem decode_union {ι : Type} {γ : ι → Type} {key : JsString} {tag : Codec ι}
    {branch : (i : ι) → Codec (γ i)}
    {h : ∀ i a, ∃ ms, (branch i).encode a = .obj ms ∧ ms.lookup key = some (tag.encode i)}
    {ms : List (JsString × Json)} {t : Json} {i : ι} (hlookup : ms.lookup key = some t)
    (htag : tag.decode t = some i) {x : Σ i, γ i} :
    (union key tag branch h).decode (.obj ms) = some x ↔
      ∃ a, (branch i).decode (.obj ms) = some a ∧ x = ⟨i, a⟩ := by
  simp only [union, hlookup, Option.bind_some, htag, Option.map_eq_some_iff]
  exact exists_congr fun a => and_congr_right' eq_comm

end Codec

end JsonSchema
