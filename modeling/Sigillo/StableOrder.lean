import Mathlib.Data.List.Sort

/-!
# Stable sorting by a key

A stable sort leaves elements of one key in the order they came in. So what it makes of a list
depends on that order exactly where two elements of one key differ: where there are none, every
arrangement sorts to one list (**`mergeSort_of_perm`**), and two that differ, side by side, sort
differently once they change places (**`mergeSort_swap`**). -/

namespace StableOrder

variable {α κ β : Type} {key : α → κ} {le : α → α → Bool}

/-- **An order by a key**: total, and tied exactly where the keys are one. -/
structure OrdersBy (key : α → κ) (le : α → α → Bool) : Prop where
  trans : ∀ a b c, le a b = true → le b c = true → le a c = true
  total : ∀ a b, (le a b || le b a) = true
  key_eq : ∀ {a b}, le a b = true → le b a = true → key a = key b
  of_key : ∀ {a b c d}, key a = key c → key b = key d → le a b = le c d

theorem OrdersBy.refl (h : OrdersBy key le) (a : α) : le a a = true := by
  have htotal := h.total a a
  rwa [Bool.or_self] at htotal

/-- **Where ties are equal**, every arrangement sorts to one list. -/
theorem mergeSort_of_perm (h : OrdersBy key le) {l m : List α} (hperm : l.Perm m)
    (hties : ∀ a ∈ l, ∀ b ∈ l, key a = key b → a = b) : l.mergeSort le = m.mergeSort le := by
  have hsorted : ∀ k : List α, (k.mergeSort le).Pairwise fun a b => le a b = true :=
    List.pairwise_mergeSort h.trans h.total
  refine List.Perm.eq_of_pairwise ?_ (hsorted l) (hsorted m) ?_
  · intro a b ha hb hab hba
    refine hties a (List.mem_mergeSort.mp ha) b ?_ (h.key_eq hab hba)
    exact hperm.mem_iff.mpr (List.mem_mergeSort.mp hb)
  · exact (List.mergeSort_perm l le).trans (hperm.trans (List.mergeSort_perm m le).symm)

/-- **Elements of one key keep their order.** -/
theorem filter_mergeSort [DecidableEq κ] (h : OrdersBy key le) (l : List α) (k : κ) :
    (l.mergeSort le).filter (fun a => key a = k) = l.filter fun a => key a = k := by
  have htied : (l.filter fun a => key a = k).Pairwise fun a b => le a b = true := by
    refine List.pairwise_of_forall_mem_list fun a ha b hb => ?_
    have hkey : key a = key b := by
      rw [of_decide_eq_true (List.mem_filter.mp ha).2, of_decide_eq_true (List.mem_filter.mp hb).2]
    rw [h.of_key rfl hkey.symm]
    exact h.refl a
  have hsub : List.Sublist (l.filter fun a => key a = k) (l.mergeSort le) :=
    List.sublist_mergeSort h.trans h.total htied List.filter_sublist
  have hboth : List.Sublist (l.filter fun a => key a = k) ((l.mergeSort le).filter fun a => key a = k) := by
    have hfilter := hsub.filter fun a => key a = k
    rwa [List.filter_filter, List.filter_congr (q := fun a => key a = k) fun a _ => Bool.and_self _] at hfilter
  refine (hboth.eq_of_length ?_).symm
  exact ((List.mergeSort_perm l le).filter _).length_eq.symm

/-- **Two of one key that change places** sort to lists that differ wherever an element is what its key and its
    image say. -/
theorem mergeSort_swap [DecidableEq κ] (h : OrdersBy key le) {f : α → β}
    (hinj : ∀ x y, key x = key y → f x = f y → x = y) {a b : α} {l : List α} (hkey : key a = key b) (hne : a ≠ b) :
    ((a :: b :: l).mergeSort le).map f ≠ ((b :: a :: l).mergeSort le).map f := by
  intro hmap
  have hkeys : ((a :: b :: l).mergeSort le).map key = ((b :: a :: l).mergeSort le).map key := by
    have hsorted : ∀ k : List α, ((k.mergeSort le).map key).Pairwise
        fun x y => ∃ c d, key c = x ∧ key d = y ∧ le c d = true := fun k =>
      List.pairwise_map.mpr ((List.pairwise_mergeSort h.trans h.total k).imp fun hcd => ⟨_, _, rfl, rfl, hcd⟩)
    refine List.Perm.eq_of_pairwise ?_ (hsorted _) (hsorted _) ?_
    · rintro x y - - ⟨c, d, rfl, rfl, hcd⟩ ⟨d', c', hd, hc, hdc⟩
      rw [h.of_key hd hc] at hdc
      exact h.key_eq hcd hdc
    · exact (((List.mergeSort_perm _ le).trans ((List.Perm.swap b a l).trans (List.mergeSort_perm _ le).symm))).map key
  -- an element is known by its key and its image, so the two sorted lists are one
  have hsame : (a :: b :: l).mergeSort le = (b :: a :: l).mergeSort le := by
    have hpairs : ((a :: b :: l).mergeSort le).map (fun x => (key x, f x))
        = ((b :: a :: l).mergeSort le).map fun x => (key x, f x) := by
      rw [← List.zip_map', ← List.zip_map', hkeys, hmap]
    exact List.map_injective_iff.mpr (fun x y hxy => hinj x y (Prod.mk.inj hxy).1 (Prod.mk.inj hxy).2) hpairs
  have hfilter := congrArg (List.filter fun x => key x = key a) hsame
  rw [filter_mergeSort h, filter_mergeSort h,
    List.filter_cons_of_pos (p := fun x => decide (key x = key a)) (a := a) (l := b :: l) (decide_eq_true rfl),
    List.filter_cons_of_pos (p := fun x => decide (key x = key a)) (a := b) (l := a :: l)
      (decide_eq_true hkey.symm)] at hfilter
  exact hne (List.cons.inj hfilter).1

end StableOrder
