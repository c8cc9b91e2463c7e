import Mathlib.Data.List.Basic
import Mathlib.Data.List.Forall2
import Mathlib.Tactic.Tauto

/-!
# Association lists

What a list of pairs holds under a key, when no key stands twice; and a map that keeps its entries
in the order their keys came. -/

namespace AssocList

variable {κ ν : Type} [BEq κ] [LawfulBEq κ]

/-- What stands under a key is what is paired with it. -/
theorem lookup_eq_some_iff_mem {entries : List (κ × ν)} (hnd : (entries.map Prod.fst).Nodup)
    {k : κ} {v : ν} : entries.lookup k = some v ↔ (k, v) ∈ entries := by
  induction entries with
  | nil => simp
  | cons entry rest ih =>
      rw [List.map_cons, List.nodup_cons] at hnd
      obtain ⟨a, w⟩ := entry
      by_cases hk : k = a
      · subst hk
        rw [List.lookup_cons_self, List.mem_cons]
        constructor
        · rintro h
          exact .inl (by rw [Option.some.inj h])
        · rintro (h | h)
          · rw [(Prod.mk.inj h).2]
          · exact absurd (List.mem_map_of_mem (f := Prod.fst) h) hnd.1
      · rw [List.lookup_cons, beq_false_of_ne hk, List.mem_cons, ih hnd.2]
        constructor
        · exact .inr
        · rintro (h | h)
          · exact absurd (Prod.mk.inj h).1 hk
          · exact h

/-- A key that is not there has no value. -/
theorem lookup_of_not_mem {entries : List (κ × ν)} {k : κ} (h : k ∉ entries.map Prod.fst) :
    entries.lookup k = none := by
  rw [List.lookup_eq_none_iff]
  intro entry hentry
  rw [bne_iff_ne]
  rintro rfl
  exact h (List.mem_map_of_mem hentry)

/-- What is left under a key once others, or it, are taken out. -/
theorem lookup_filter (p : κ → Bool) (entries : List (κ × ν)) (k : κ) :
    (entries.filter fun entry => p entry.1).lookup k = if p k then entries.lookup k else none := by
  induction entries with
  | nil => rw [List.filter_nil, List.lookup_nil, ite_self]
  | cons entry rest ih =>
      obtain ⟨a, w⟩ := entry
      by_cases ha : p a
      · rw [List.filter_cons, if_pos ha, List.lookup_cons, List.lookup_cons, ih]
        by_cases hk : k = a
        · rw [hk, if_pos ha, if_pos ha]
        · rw [beq_false_of_ne hk]
      · rw [List.filter_cons, if_neg ha, ih, List.lookup_cons]
        by_cases hk : k = a
        · rw [hk, if_neg ha, if_neg ha]
        · rw [beq_false_of_ne hk]

-- ── A map in insertion order ─────────────────────────────────────────────────────

/-- `map.set(key, value)`: in the place of the key, or at the end. -/
def set (entries : List (κ × ν)) (k : κ) (v : ν) : List (κ × ν) :=
  match entries with
  | [] => [(k, v)]
  | (a, w) :: rest => if a == k then (a, v) :: rest else (a, w) :: set rest k v

/-- What a map holds after `set`. -/
theorem lookup_set (entries : List (κ × ν)) (k a : κ) (v : ν) :
    (set entries k v).lookup a = if a == k then some v else entries.lookup a := by
  induction entries with
  | nil =>
      rw [set, List.lookup_cons, List.lookup_nil]
      cases a == k with
      | true => rfl
      | false => rfl
  | cons entry rest ih =>
      obtain ⟨b, w⟩ := entry
      rw [set]
      by_cases hb : b = k
      · subst hb
        rw [if_pos (beq_self_eq_true b), List.lookup_cons, List.lookup_cons]
        cases a == b with
        | true => rfl
        | false => rfl
      · rw [if_neg (by simpa using hb), List.lookup_cons, List.lookup_cons, ih]
        by_cases hab : a = b
        · subst hab
          rw [beq_self_eq_true, beq_false_of_ne hb]
          rfl
        · rw [beq_false_of_ne hab]

/-- The keys of a map after `set`. -/
theorem mem_keys_set {entries : List (κ × ν)} {k a : κ} {v : ν} :
    a ∈ (set entries k v).map Prod.fst ↔ a = k ∨ a ∈ entries.map Prod.fst := by
  induction entries with
  | nil => simp [set]
  | cons entry rest ih =>
      obtain ⟨b, w⟩ := entry
      rw [set]
      by_cases hb : b = k
      · subst hb
        simp
      · rw [if_neg (by simpa using hb), List.map_cons, List.mem_cons, ih, List.map_cons, List.mem_cons]
        tauto

/-- Setting a key keeps the keys distinct. -/
theorem nodup_keys_set {entries : List (κ × ν)} (h : (entries.map Prod.fst).Nodup) (k : κ) (v : ν) :
    ((set entries k v).map Prod.fst).Nodup := by
  induction entries with
  | nil => simp [set]
  | cons entry rest ih =>
      obtain ⟨b, w⟩ := entry
      obtain ⟨hnot, hrest⟩ := List.nodup_cons.mp h
      rw [set]
      by_cases hb : b = k
      · subst hb
        rw [if_pos (beq_self_eq_true b)]
        exact h
      · rw [if_neg (by simpa using hb), List.map_cons, List.nodup_cons]
        refine ⟨fun hmem => ?_, ih hrest⟩
        rcases mem_keys_set.mp hmem with h | h
        · exact hb h
        · exact hnot h

/-- What a map holds under some of its keys after `set`. -/
theorem filter_set (p : κ → Bool) (entries : List (κ × ν)) (k : κ) (v : ν) :
    (set entries k v).filter (fun entry => p entry.1) =
      if p k then set (entries.filter fun entry => p entry.1) k v
      else entries.filter fun entry => p entry.1 := by
  induction entries with
  | nil =>
      cases hp : p k with
      | true => simp [set, hp]
      | false => simp [set, hp]
  | cons entry rest ih =>
      obtain ⟨b, w⟩ := entry
      rw [set]
      by_cases hb : b = k
      · subst hb
        rw [if_pos (beq_self_eq_true b)]
        cases hp : p b with
        | true => simp [set, hp]
        | false => simp [hp]
      · rw [if_neg (by simpa using hb)]
        cases hp : p b with
        | true =>
            simp only [List.filter_cons, hp, if_true, ih]
            cases p k with
            | true => simp [set, hb]
            | false => rfl
        | false => simpa [List.filter_cons, hp] using ih

/-- A new key comes last. -/
theorem set_of_not_mem {entries : List (κ × ν)} {k : κ} (h : k ∉ entries.map Prod.fst) (v : ν) :
    set entries k v = entries ++ [(k, v)] := by
  induction entries with
  | nil => rfl
  | cons entry rest ih =>
      obtain ⟨b, w⟩ := entry
      rw [List.map_cons, List.mem_cons, not_or] at h
      rw [set, if_neg (by simpa using Ne.symm h.1), ih h.2, List.cons_append]

/-- Entries under keys of their own, put into a map one after another. -/
theorem foldl_set {more entries : List (κ × ν)} (h : ((entries ++ more).map Prod.fst).Nodup) :
    more.foldl (fun entries entry => set entries entry.1 entry.2) entries = entries ++ more := by
  induction more generalizing entries with
  | nil => simp
  | cons entry rest ih =>
      have hnot : entry.1 ∉ entries.map Prod.fst := by
        rw [List.map_append, List.map_cons] at h
        intro hmem
        exact (List.nodup_append.mp h).2.2 _ hmem _ (List.mem_cons_self ..) rfl
      rw [List.foldl_cons, set_of_not_mem hnot, ih, List.append_assoc, List.singleton_append]
      rwa [List.append_assoc, List.singleton_append]

-- ── Keys by number ───────────────────────────────────────────────────────────────

section Numbered

variable {key : ℕ → κ} {values : List ν}

/-- A map whose n-th entry stands under the n-th key. -/
def numbered (key : ℕ → κ) (values : List ν) : List (κ × ν) := values.mapIdx fun i v => (key i, v)

omit [BEq κ] [LawfulBEq κ] in
/-- Values behind others are numbered on. -/
theorem numbered_append (key : ℕ → κ) (values more : List ν) :
    numbered key (values ++ more) =
      numbered key values ++ more.mapIdx fun i v => (key (i + values.length), v) :=
  List.mapIdx_append

omit [BEq κ] [LawfulBEq κ] in
/-- Numbering keeps the values. -/
theorem map_snd_numbered (key : ℕ → κ) (values : List ν) :
    (numbered key values).map Prod.snd = values := by
  apply List.ext_getElem?
  intro i
  rw [numbered, List.getElem?_map, List.getElem?_mapIdx, Option.map_map]
  exact Option.map_id_apply ..

omit [BEq κ] [LawfulBEq κ] in
/-- A key of a numbered list is that of a position in it. -/
theorem mem_keys_numbered {k : κ} (h : k ∈ (numbered key values).map Prod.fst) :
    ∃ i < values.length, k = key i := by
  obtain ⟨entry, hentry, rfl⟩ := List.mem_map.mp h
  obtain ⟨i, hi, rfl⟩ := List.mem_mapIdx.mp hentry
  exact ⟨i, hi, rfl⟩

omit [BEq κ] [LawfulBEq κ] in
/-- The next key is not there yet. -/
theorem numbered_next (hkey : ∀ i < values.length, key i ≠ key values.length) :
    key values.length ∉ (numbered key values).map Prod.fst := by
  intro h
  obtain ⟨i, hi, heq⟩ := mem_keys_numbered h
  exact hkey i hi heq.symm

/-- A key that is not in the first part is looked up in the second. -/
theorem lookup_append_of_not_mem {entries more : List (κ × ν)} {k : κ}
    (h : k ∉ entries.map Prod.fst) : (entries ++ more).lookup k = more.lookup k := by
  rw [List.lookup_append, lookup_of_not_mem h, Option.none_or]

/-- A key that is not in the first part is set in the second. -/
theorem set_append_of_not_mem {entries more : List (κ × ν)} {k : κ} (h : k ∉ entries.map Prod.fst)
    (v : ν) : set (entries ++ more) k v = entries ++ set more k v := by
  induction entries with
  | nil => rfl
  | cons entry rest ih =>
      obtain ⟨b, w⟩ := entry
      rw [List.map_cons, List.mem_cons, not_or] at h
      rw [List.cons_append, set, if_neg (by simpa using Ne.symm h.1), ih h.2, List.cons_append]

omit [BEq κ] [LawfulBEq κ] in
/-- A value in its place: what stands before it is under other keys. -/
theorem numbered_split {n : ℕ} {v : ν} (hn : values[n]? = some v) :
    numbered key values = numbered key (values.take n) ++
      (key n, v) :: (values.drop (n + 1)).mapIdx fun i w => (key (i + 1 + n), w) := by
  obtain ⟨hlt, hv⟩ := List.getElem?_eq_some_iff.mp hn
  have hsplit : values = values.take n ++ v :: values.drop (n + 1) := by
    rw [← hv, ← List.drop_eq_getElem_cons hlt, List.take_append_drop]
  have hlen : (values.take n).length = n := List.length_take_of_le (Nat.le_of_lt hlt)
  conv_lhs => rw [hsplit, numbered_append, List.mapIdx_cons, hlen, Nat.zero_add]

omit [BEq κ] [LawfulBEq κ] in
/-- A key of its own is not among those before it. -/
theorem numbered_before {n : ℕ} (hn : n < values.length) (hkey : ∀ i < n, key i ≠ key n) :
    key n ∉ (numbered key (values.take n)).map Prod.fst := by
  intro h
  obtain ⟨i, hi, heq⟩ := mem_keys_numbered h
  rw [List.length_take_of_le (Nat.le_of_lt hn)] at hi
  exact hkey i hi heq.symm

/-- The value at a position is found under its key, where no earlier position has it. -/
theorem lookup_numbered {n : ℕ} {v : ν} (hn : values[n]? = some v)
    (hkey : ∀ i < n, key i ≠ key n) : (numbered key values).lookup (key n) = some v := by
  have hlt := (List.getElem?_eq_some_iff.mp hn).1
  rw [numbered_split hn, lookup_append_of_not_mem (numbered_before hlt hkey),
    List.lookup_cons_self]

/-- **A value put under the n-th key is put in the n-th place.** -/
theorem set_numbered {n : ℕ} {v : ν} (hn : values[n]? = some v) (hkey : ∀ i < n, key i ≠ key n)
    (w : ν) : set (numbered key values) (key n) w = numbered key (values.set n w) := by
  have hlt := (List.getElem?_eq_some_iff.mp hn).1
  have hlen : n < (values.set n w).length := by rwa [List.length_set]
  have hset : (values.set n w)[n]? = some w := by
    rw [List.getElem?_eq_getElem hlen, List.getElem_set_self]
  rw [numbered_split hn, numbered_split hset, set_append_of_not_mem (numbered_before hlt hkey), set,
    if_pos (beq_self_eq_true _), List.take_set_of_le (Nat.le_refl n), List.drop_set_of_lt (Nat.lt_succ_self n)]

/-- The next value goes to the end. -/
theorem set_numbered_next (hkey : ∀ i < values.length, key i ≠ key values.length) (v : ν) :
    set (numbered key values) (key values.length) v = numbered key (values ++ [v]) := by
  rw [set_of_not_mem (numbered_next hkey), numbered_append, List.mapIdx_singleton, Nat.zero_add]

end Numbered

-- ── Groups ───────────────────────────────────────────────────────────────────────

/-- One more value in the group of its key. -/
def addToGroup (groups : List (κ × List ν)) (k : κ) (x : ν) : List (κ × List ν) :=
  set groups k ((groups.lookup k).getD [] ++ [x])

/-- The values under their keys, in the order the keys came. -/
def groupBy (key : ν → κ) (xs : List ν) : List (κ × List ν) :=
  xs.foldl (fun groups x => addToGroup groups (key x) x) []

section Related

variable {R : ν → ν → Prop}

/-- Groups of one key, related member by member. -/
def GroupsRelated (R : ν → ν → Prop) : List (κ × List ν) → List (κ × List ν) → Prop :=
  List.Forall₂ fun g h => g.1 = h.1 ∧ List.Forall₂ R g.2 h.2

omit [BEq κ] [LawfulBEq κ] in
/-- Related groups have related values under every key. -/
theorem GroupsRelated.lookup [BEq κ] {gs hs : List (κ × List ν)} (h : GroupsRelated R gs hs) (k : κ) :
    List.Forall₂ R ((gs.lookup k).getD []) ((hs.lookup k).getD []) := by
  induction h with
  | nil => exact .nil
  | @cons g g' rest rest' hgroup _ ih =>
      rw [List.lookup_cons, List.lookup_cons, hgroup.1]
      cases k == g'.1 with
      | true => exact hgroup.2
      | false => exact ih

omit [LawfulBEq κ] in
/-- Setting related values keeps groups related. -/
theorem GroupsRelated.set {gs hs : List (κ × List ν)} (h : GroupsRelated R gs hs) (k : κ) {xs ys : List ν}
    (hxs : List.Forall₂ R xs ys) : GroupsRelated R (set gs k xs) (AssocList.set hs k ys) := by
  induction h with
  | nil => exact .cons ⟨rfl, hxs⟩ .nil
  | @cons g g' rest rest' hgroup hrest ih =>
      obtain ⟨a, w⟩ := g
      obtain ⟨a', w'⟩ := g'
      obtain rfl : a = a' := hgroup.1
      rw [AssocList.set, AssocList.set]
      cases a == k with
      | true => exact .cons ⟨rfl, hxs⟩ hrest
      | false => exact .cons hgroup ih

omit [LawfulBEq κ] in
/-- **Related values under equal keys make related groups.** -/
theorem groupsRelated_groupBy {key : ν → κ} (hkey : ∀ x y, R x y → key x = key y) {xs ys : List ν}
    (h : List.Forall₂ R xs ys) : GroupsRelated R (groupBy key xs) (groupBy key ys) := by
  have hrun : ∀ gs hs, GroupsRelated R gs hs →
      GroupsRelated R (xs.foldl (fun groups x => addToGroup groups (key x) x) gs)
        (ys.foldl (fun groups x => addToGroup groups (key x) x) hs) := by
    induction h with
    | nil => exact fun gs hs hgroups => hgroups
    | @cons x y xs ys hxy _ ih =>
        intro gs hs hgroups
        refine ih _ _ ?_
        show GroupsRelated R (addToGroup gs (key x) x) (addToGroup hs (key y) y)
        rw [addToGroup, addToGroup, hkey x y hxy]
        exact hgroups.set _ (List.rel_append (hgroups.lookup _) (.cons hxy .nil))
  exact hrun [] [] .nil

end Related

end AssocList
