import Sigillo.Utf16Text

/-!
# Text unit by unit

Well-formed text is built of units that stand for themselves and of pairs, in that order: an induction over
it (**`Scalars.induct`**), and what it says of changes that touch no surrogate. -/

namespace Utf16Text

/-- A unit that is a character by itself. -/
def Plain (u : UInt16) : Prop := isHigh u = false ∧ isLow u = false

instance : DecidablePred Plain := fun _ => inferInstanceAs (Decidable (_ ∧ _))

theorem Plain.isSurrogate {u : UInt16} (h : Plain u) : isSurrogate u.toNat = false := by
  obtain ⟨hhigh, hlow⟩ := h
  rw [← Bool.not_eq_true, isHigh_iff] at hhigh
  rw [← Bool.not_eq_true, isLow_iff] at hlow
  rw [← Bool.not_eq_true, isSurrogate_iff]
  omega

theorem Scalars.unit {u : UInt16} {s : JsString} (hu : Plain u) (hs : Scalars s) : Scalars (u :: s) := by
  have hlt : u.toNat < 0x110000 := Nat.lt_trans u.toNat_lt (by decide)
  have hone : Scalars (unitsOf u.toNat) := Scalars.point hlt hu.isSurrogate
  rw [unitsOf_toNat] at hone
  exact hone.append hs

theorem Scalars.pair {hi lo : UInt16} {s : JsString} (hhi : isHigh hi = true) (hlo : isLow lo = true)
    (hs : Scalars s) : Scalars (hi :: lo :: s) := by
  have hpair : Scalars (unitsOf (pairPoint hi lo)) := by
    refine Scalars.point (pairPoint_lt hhi hlo) ?_
    rw [← Bool.not_eq_true, isSurrogate_iff]
    unfold pairPoint
    omega
  rw [unitsOf_pairPoint hhi hlo] at hpair
  exact hpair.append hs

/-- The units of a character: one that stands for itself, or a pair. -/
theorem unitsOf_cases {cp : ℕ} (hmax : cp < 0x110000) (hsur : isSurrogate cp = false) :
    (∃ u, unitsOf cp = [u] ∧ Plain u ∧ u.toNat = cp) ∨
      ∃ hi lo, unitsOf cp = [hi, lo] ∧ isHigh hi = true ∧ isLow lo = true ∧ pairPoint hi lo = cp := by
  rw [← Bool.not_eq_true, isSurrogate_iff] at hsur
  by_cases hsmall : cp < 0x10000
  · have hback : cp.toUInt16.toNat = cp := toUInt16_toNat hsmall
    refine .inl ⟨cp.toUInt16, by rw [unitsOf, if_pos hsmall], ⟨?_, ?_⟩, hback⟩
    · rw [← Bool.not_eq_true, isHigh_iff]
      omega
    · rw [← Bool.not_eq_true, isLow_iff]
      omega
  · have hhi : (0xD800 + (cp - 0x10000) / 0x400).toUInt16.toNat = 0xD800 + (cp - 0x10000) / 0x400 :=
      toUInt16_toNat (by omega)
    have hlo : (0xDC00 + (cp - 0x10000) % 0x400).toUInt16.toNat = 0xDC00 + (cp - 0x10000) % 0x400 :=
      toUInt16_toNat (by omega)
    have hrest : cp - 0x10000 < 0x100000 := by omega
    refine .inr ⟨_, _, by rw [unitsOf, if_neg hsmall], isHigh_iff.mpr ?_, isLow_iff.mpr ?_, ?_⟩
    · rw [hhi]
      omega
    · rw [hlo]
      omega
    unfold pairPoint
    simp only [hhi, hlo]
    omega

/-- **Induction over well-formed text.** -/
theorem Scalars.induct {P : JsString → Prop} (nil : P [])
    (unit : ∀ u s, Plain u → Scalars s → P s → P (u :: s))
    (pair : ∀ hi lo s, isHigh hi = true → isLow lo = true → Scalars s → P s → P (hi :: lo :: s))
    {s : JsString} (h : Scalars s) : P s := by
  obtain ⟨l, rfl, hl⟩ := h
  induction l with
  | nil => exact nil
  | cons cp l ih =>
      obtain ⟨hcp, hrest⟩ := List.forall_mem_cons.mp hl
      have hs : Scalars (l.flatMap unitsOf) := ⟨l, rfl, hrest⟩
      rw [List.flatMap_cons]
      rcases unitsOf_cases hcp.1 hcp.2 with ⟨u, hunits, hu, -⟩ | ⟨hi, lo, hunits, hhi, hlo, -⟩
      · rw [hunits]
        exact unit u _ hu hs (ih hrest)
      · rw [hunits]
        exact pair hi lo _ hhi hlo hs (ih hrest)

theorem scalars_iff {s : JsString} : Scalars s ↔ isWellFormed s = true := by
  refine ⟨Scalars.isWellFormed, fun h => ⟨points s, (flatMap_unitsOf_points s).symm, fun cp hcp => ?_⟩⟩
  exact ⟨points_lt cp hcp, by simpa using List.all_eq_true.mp h cp hcp⟩

/-- What stands before a plain unit of a text is text. -/
theorem Scalars.before {s a t : JsString} (h : Scalars s) {u : UInt16} (hu : Plain u) (hs : s = a ++ u :: t) :
    Scalars a := by
  revert a
  refine Scalars.induct (P := fun s => ∀ {a : JsString}, s = a ++ u :: t → Scalars a) ?_ ?_ ?_ h
  · intro a hs
    exact absurd hs.symm (by simp)
  · intro v s hv _ ih a hs
    cases a with
    | nil => exact .nil
    | cons v' a =>
        obtain ⟨rfl, hrest⟩ := List.cons.inj hs
        exact .unit hv (ih hrest)
  · intro hi lo s hhi hlo _ ih a hs
    rcases a with _ | ⟨v, _ | ⟨w, a⟩⟩
    · obtain ⟨rfl, -⟩ := List.cons.inj hs
      rw [hu.1] at hhi
      cases hhi
    · obtain ⟨-, hrest⟩ := List.cons.inj hs
      obtain ⟨rfl, -⟩ := List.cons.inj hrest
      rw [hu.2] at hlo
      cases hlo
    · obtain ⟨rfl, hlow⟩ := List.cons.inj hs
      obtain ⟨rfl, hrest⟩ := List.cons.inj hlow
      exact .pair hhi hlo (ih hrest)

/-- What stands behind a plain unit is text. -/
theorem Scalars.after {s a t : JsString} (h : Scalars s) {u : UInt16} (hu : Plain u) (hs : s = a ++ u :: t) :
    Scalars t := by
  revert a
  refine Scalars.induct (P := fun s => ∀ {a : JsString}, s = a ++ u :: t → Scalars t) ?_ ?_ ?_ h
  · intro a hs
    exact absurd hs.symm (by simp)
  · intro v s _ hrest ih a hs
    cases a with
    | nil =>
        obtain ⟨-, rfl⟩ := List.cons.inj hs
        exact hrest
    | cons v' a =>
        obtain ⟨-, hs⟩ := List.cons.inj hs
        exact ih hs
  · intro hi lo s hhi hlo _ ih a hs
    rcases a with _ | ⟨v, _ | ⟨w, a⟩⟩
    · obtain ⟨rfl, -⟩ := List.cons.inj hs
      rw [hu.1] at hhi
      cases hhi
    · obtain ⟨-, hrest⟩ := List.cons.inj hs
      obtain ⟨rfl, -⟩ := List.cons.inj hrest
      rw [hu.2] at hlo
      cases hlo
    · obtain ⟨-, hlow⟩ := List.cons.inj hs
      obtain ⟨-, hrest⟩ := List.cons.inj hlow
      exact ih hrest

theorem Scalars.behind {s t : JsString} (h : Scalars s) {u : UInt16} (hu : Plain u) (hs : s = u :: t) : Scalars t :=
  h.after hu (a := []) hs

end Utf16Text
