import Mathlib.Data.List.Forall2
import Mathlib.Control.Basic

/-!
# Computations that may fail

When a computation in `Except` or `Option` succeeds or fails: step by step (**`bind_eq_ok`**,
**`bind_eq_error`**), and over a list item by item (**`mapM_eq_ok`**, **`mapM_eq_some`**). -/

namespace Fallible

variable {ε α β : Type}

/-- What is there is handed on. -/
theorem ok_bind (a : α) (f : α → Except ε β) : (Except.ok a >>= f) = f a := rfl

/-- **Two steps succeed** exactly if the first does and the second does with what it gave. -/
theorem bind_eq_ok {x : Except ε α} {f : α → Except ε β} {b : β} :
    x >>= f = .ok b ↔ ∃ a, x = .ok a ∧ f a = .ok b := by
  cases x with
  | error e =>
      constructor
      · intro h
        cases h
      · rintro ⟨a, h, -⟩
        cases h
  | ok a =>
      constructor
      · intro h
        exact ⟨a, rfl, h⟩
      · rintro ⟨a', h, hb⟩
        obtain rfl := Except.ok.inj h
        exact hb

/-- Two steps fail exactly if the first does, or the second does with what it gave. -/
theorem bind_eq_error {x : Except ε α} {f : α → Except ε β} {e : ε} :
    x >>= f = .error e ↔ x = .error e ∨ ∃ a, x = .ok a ∧ f a = .error e := by
  cases x with
  | error e' =>
      constructor
      · intro h
        exact .inl (congrArg Except.error (Except.error.inj h))
      · rintro (h | ⟨a, h, -⟩)
        · exact congrArg Except.error (Except.error.inj h)
        · cases h
  | ok a =>
      constructor
      · intro h
        exact .inr ⟨a, rfl, h⟩
      · rintro (h | ⟨a', h, he⟩)
        · cases h
        · obtain rfl := Except.ok.inj h
          exact he

/-- Mapping changes no failure. -/
theorem map_eq_error {x : Except ε α} {f : α → β} {e : ε} : x.map f = .error e ↔ x = .error e := by
  cases x with
  | error e => simp [Except.map]
  | ok a => simp [Except.map]

/-- A mapped success is one of a success. -/
theorem map_eq_ok {x : Except ε α} {f : α → β} {b : β} :
    x.map f = .ok b ↔ ∃ a, x = .ok a ∧ f a = b := by
  cases x with
  | error e => simp [Except.map]
  | ok a => simp [Except.map]

-- ── Lists ────────────────────────────────────────────────────────────────────────

/-- Every item of a list has its partner in a list that goes with it. -/
theorem exists_of_forall₂ {R : α → β → Prop} {as : List α} {bs : List β} (h : List.Forall₂ R as bs)
    {b : β} (hb : b ∈ bs) : ∃ a ∈ as, R a b := by
  induction h with
  | nil => cases hb
  | cons hR _ ih =>
      rcases List.mem_cons.mp hb with rfl | hb
      · exact ⟨_, by simp, hR⟩
      · obtain ⟨a, ha, hab⟩ := ih hb
        exact ⟨a, by simp [ha], hab⟩

/-- A list succeeds when each of its items does. -/
theorem mapM_eq_ok {f : α → Except ε β} {items : List α} {bs : List β} :
    items.mapM f = .ok bs ↔ List.Forall₂ (fun a b => f a = .ok b) items bs := by
  induction items generalizing bs with
  | nil =>
      rw [List.forall₂_nil_left_iff, List.mapM_nil]
      constructor
      · intro h
        exact (Except.ok.inj h).symm
      · rintro rfl
        rfl
  | cons a rest ih =>
      rw [List.mapM_cons, bind_eq_ok, List.forall₂_cons_left_iff]
      constructor
      · rintro ⟨b, hb, h⟩
        obtain ⟨bs', hbs', h⟩ := bind_eq_ok.mp h
        exact ⟨b, bs', hb, ih.mp hbs', (Except.ok.inj h).symm⟩
      · rintro ⟨b, bs', hb, hbs', rfl⟩
        exact ⟨b, hb, bind_eq_ok.mpr ⟨bs', ih.mpr hbs', rfl⟩⟩

/-- Something came of each item of a list that succeeds. -/
theorem mem_of_mapM {f : α → Except ε β} {items : List α} {bs : List β} (h : items.mapM f = .ok bs)
    {a : α} (ha : a ∈ items) : ∃ b ∈ bs, f a = .ok b :=
  exists_of_forall₂ (mapM_eq_ok.mp h).flip ha

/-- Each element of a list that was mapped was mapped. -/
theorem exists_of_mapM {f : α → Except ε β} {items : List α} {bs : List β}
    (h : items.mapM f = .ok bs) {a : α} (ha : a ∈ items) : ∃ b, f a = .ok b := by
  obtain ⟨b, -, hb⟩ := mem_of_mapM h ha
  exact ⟨b, hb⟩

/-- **A list succeeds** when something comes of each item. -/
theorem exists_mapM_iff {f : α → Except ε β} {items : List α} :
    (∃ bs, items.mapM f = .ok bs) ↔ ∀ a ∈ items, ∃ b, f a = .ok b := by
  constructor
  · rintro ⟨bs, h⟩ a ha
    exact exists_of_mapM h ha
  · intro h
    induction items with
    | nil => exact ⟨[], rfl⟩
    | cons a rest ih =>
        obtain ⟨b, hb⟩ := h a (by simp)
        obtain ⟨bs, hbs⟩ := ih fun x hx => h x (by simp [hx])
        exact ⟨b :: bs, mapM_eq_ok.mpr (.cons hb (mapM_eq_ok.mp hbs))⟩

/-- What came of a list came of its items. -/
theorem mem_mapM {f : α → Except ε β} {items : List α} {bs : List β} (h : items.mapM f = .ok bs)
    {b : β} (hb : b ∈ bs) : ∃ a ∈ items, f a = .ok b :=
  exists_of_forall₂ (mapM_eq_ok.mp h) hb

/-- As many come out as go in. -/
theorem length_mapM {f : α → Except ε β} {items : List α} {bs : List β} (h : items.mapM f = .ok bs) :
    bs.length = items.length :=
  (mapM_eq_ok.mp h).length_eq.symm

/-- What comes of each item's partner comes of the list. -/
theorem mapM_of_forall₂ {γ : Type} {R : α → β → Prop} {f : β → Except ε γ} {g : α → γ} {as : List α}
    {bs : List β} (h : List.Forall₂ R as bs) (hf : ∀ a b, R a b → f b = .ok (g a)) :
    bs.mapM f = .ok (as.map g) := by
  refine mapM_eq_ok.mpr ?_
  induction h with
  | nil => exact .nil
  | cons hab _ ih => exact .cons (hf _ _ hab) ih

/-- Lists that go together item by item come to results that do. -/
theorem forall₂_of_mapM_zipIdx {S : β → β → Prop} {R : α → α → Prop} {f f' : α × ℕ → Except ε β}
    (hstep : ∀ i x y z w, R x y → f (x, i) = .ok z → f' (y, i) = .ok w → S z w) {xs ys : List α}
    (h : List.Forall₂ R xs ys) {n : ℕ} {zs ws : List β} (hzs : (xs.zipIdx n).mapM f = .ok zs)
    (hws : (ys.zipIdx n).mapM f' = .ok ws) : List.Forall₂ S zs ws := by
  induction h generalizing n zs ws with
  | nil =>
      obtain rfl := Except.ok.inj hzs
      obtain rfl := Except.ok.inj hws
      exact .nil
  | cons hxy _ ih =>
      rw [List.zipIdx_cons] at hzs hws
      cases mapM_eq_ok.mp hzs with
      | cons hz hrest =>
          cases mapM_eq_ok.mp hws with
          | cons hw hrest' =>
              exact .cons (hstep n _ _ _ _ hxy hz hw) (ih (mapM_eq_ok.mpr hrest) (mapM_eq_ok.mpr hrest'))

-- ── Optional values ──────────────────────────────────────────────────────────────

/-- There is a list of results when there is one of each item. -/
theorem mapM_eq_some {f : α → Option β} {items : List α} {bs : List β} :
    items.mapM f = some bs ↔ List.Forall₂ (fun a b => f a = some b) items bs := by
  induction items generalizing bs with
  | nil =>
      rw [List.forall₂_nil_left_iff, List.mapM_nil]
      exact ⟨fun h => (Option.some.inj h).symm, fun h => h ▸ rfl⟩
  | cons a rest ih =>
      rw [List.mapM_cons, List.forall₂_cons_left_iff]
      simp only [Option.bind_eq_bind, Option.bind_eq_some_iff]
      constructor
      · rintro ⟨b, hb, bs', hbs', h⟩
        exact ⟨b, bs', hb, ih.mp hbs', (Option.some.inj h).symm⟩
      · rintro ⟨b, bs', hb, hbs', rfl⟩
        exact ⟨b, hb, bs', ih.mpr hbs', rfl⟩

/-- A step that succeeds on every item succeeds on all of them, in order. -/
theorem exists_mapM_eq_some {f : α → Option β} {items : List α} (h : ∀ a ∈ items, ∃ b, f a = some b) :
    ∃ bs, items.mapM f = some bs ∧ List.Forall₂ (fun a b => f a = some b) items bs := by
  induction items with
  | nil => exact ⟨[], rfl, .nil⟩
  | cons a rest ih =>
      obtain ⟨b, hb⟩ := h a (by simp)
      obtain ⟨bs, -, hall⟩ := ih fun x hx => h x (by simp [hx])
      have hall : List.Forall₂ (fun a b => f a = some b) (a :: rest) (b :: bs) := .cons hb hall
      exact ⟨b :: bs, mapM_eq_some.mpr hall, hall⟩

/-- The results of two lists one after the other. -/
theorem mapM_append_eq_some {f : α → Option β} {items more : List α} {bs : List β} :
    (items ++ more).mapM f = some bs ↔ ∃ front back, items.mapM f = some front ∧
      more.mapM f = some back ∧ bs = front ++ back := by
  rw [List.mapM_append]
  constructor
  · intro h
    obtain ⟨front, hfront, h⟩ := Option.bind_eq_some_iff.mp h
    obtain ⟨back, hback, h⟩ := Option.bind_eq_some_iff.mp h
    exact ⟨front, back, hfront, hback, (Option.some.inj h).symm⟩
  · rintro ⟨front, back, hfront, hback, rfl⟩
    exact Option.bind_eq_some_iff.mpr ⟨front, hfront, Option.bind_eq_some_iff.mpr ⟨back, hback, rfl⟩⟩

end Fallible
