import Mathlib.Data.Set.Function
import Mathlib.Data.List.Chain

/-!
# Items linked by hashes

A list in which each item carries the hash of the one before it. The last item then commits to all
of them: two linked lists that meet at one item are the same all the way back (**`Linked.back`**),
as far as the hash tells their items apart. -/

namespace HashLinks

variable {α δ : Type} (hash prev : α → δ)

/-- Each item carries the hash of the one before. -/
def Linked (items : List α) : Prop := items.IsChain fun a b => prev b = hash a

variable {hash prev}

theorem Linked.step {items : List α} (h : Linked hash prev items) {i : ℕ} {a b : α}
    (ha : items[i]? = some a) (hb : items[i + 1]? = some b) : prev b = hash a := by
  obtain ⟨hi, rfl⟩ := List.getElem?_eq_some_iff.mp ha
  obtain ⟨hj, rfl⟩ := List.getElem?_eq_some_iff.mp hb
  exact List.isChain_iff_getElem.mp h i hj

variable {xs ys : List α} (hx : Linked hash prev xs) (hy : Linked hash prev ys)
  {S : Set α} (hS : Set.InjOn hash S) (hxS : ∀ a ∈ xs, a ∈ S) (hyS : ∀ a ∈ ys, a ∈ S)

include hx hy hS hxS hyS

/-- One step back. -/
theorem Linked.before {i j : ℕ} {a b z : α} (ha : xs[i]? = some a) (hb : ys[j]? = some b)
    (hxz : xs[i + 1]? = some z) (hyz : ys[j + 1]? = some z) : a = b := by
  have hhash : hash a = hash b := (hx.step ha hxz).symm.trans (hy.step hb hyz)
  exact hS (hxS a (List.mem_of_getElem? ha)) (hyS b (List.mem_of_getElem? hb)) hhash

/-- **Two linked lists that meet at one item are the same all the way back.** -/
theorem Linked.back {i j d : ℕ} {z : α} (hxz : xs[i + d]? = some z) (hyz : ys[j + d]? = some z) :
    xs[i]? = ys[j]? := by
  induction d generalizing i j with
  | zero =>
      rw [Nat.add_zero] at hxz hyz
      rw [hxz, hyz]
  | succ d ih =>
      -- the items one further on agree already
      have hnext : xs[i + 1]? = ys[j + 1]? := by
        refine ih ?_ ?_
        · rwa [show i + 1 + d = i + (d + 1) by omega]
        · rwa [show j + 1 + d = j + (d + 1) by omega]
      have hilt : i + 1 < xs.length := by
        have := (List.getElem?_eq_some_iff.mp hxz).1
        omega
      have hxn := List.getElem?_eq_getElem hilt
      have hyn := hnext.symm.trans hxn
      have hjlt : j + 1 < ys.length := (List.getElem?_eq_some_iff.mp hyn).1
      have ha := List.getElem?_eq_getElem (show i < xs.length by omega)
      have hb := List.getElem?_eq_getElem (show j < ys.length by omega)
      rw [ha, hb, Linked.before hx hy hS hxS hyS ha hb hxn hyn]

end HashLinks
