import Mathlib.Tactic.Ring
import Mathlib.Data.List.Basic
import Mathlib.Data.Set.Function

/-!
# Merkle trees

The tree of RFC 6962 over entries of any type and any hash function: an uneven tree splits at the
largest power of two below its size. Nothing here is about one program.

* **`frontierRoot_eq`** — the compact frontier, grown one entry at a time by binary carry, has
  the root of the whole tree;
* **`root_injective`** — where the hash function has no collision on what the two trees hash,
  trees of one size and one root hold the same entries. -/

namespace MerkleTree

/-- A hash function, and how an empty tree, an entry and a pair of children are presented to
    it. -/
structure Hashing (α δ β : Type) where
  hash : β → δ
  empty : β
  leaf : α → β
  node : δ → δ → β

variable {α δ β : Type} (h : Hashing α δ β)

/-- The root over nothing. -/
def Hashing.emptyHash : δ := h.hash h.empty

/-- The hash of an entry. -/
def Hashing.leafHash (a : α) : δ := h.hash (h.leaf a)

/-- The hash of two children. -/
def Hashing.nodeHash (l r : δ) : δ := h.hash (h.node l r)

/-- The same hash function over what names the entries. -/
def Hashing.comap {γ : Type} (g : γ → α) : Hashing γ δ β := ⟨h.hash, h.empty, h.leaf ∘ g, h.node⟩

-- ── Where a tree splits ──────────────────────────────────────────────────────────

/-- Doubling `k` for as long as twice it stays below `n`. -/
def splitFrom (n : ℕ) : ℕ → ℕ → ℕ
  | 0, k => k
  | fuel + 1, k => if k * 2 < n then splitFrom n fuel (k * 2) else k

/-- The largest power of two strictly below `n`, where the tree splits. -/
def splitPoint (n : ℕ) : ℕ := splitFrom n n 1

theorem splitFrom_spec (n : ℕ) (fuel p : ℕ) (hlt : 2 ^ p < n) (hfuel : n < 2 ^ p + fuel + 1) :
    ∃ q, splitFrom n fuel (2 ^ p) = 2 ^ q ∧ 2 ^ q < n ∧ n ≤ 2 ^ (q + 1) := by
  induction fuel generalizing p with
  | zero => omega
  | succ fuel ih =>
      have hpow : 2 ^ p * 2 = 2 ^ (p + 1) := by rw [pow_succ]
      have hpos : 0 < 2 ^ p := Nat.two_pow_pos p
      rw [splitFrom]
      split_ifs with hk
      · rw [hpow] at hk ⊢
        exact ih (p + 1) hk (by omega)
      · exact ⟨p, rfl, hlt, by omega⟩

theorem splitPoint_spec {n : ℕ} (hn : 2 ≤ n) :
    ∃ p, splitPoint n = 2 ^ p ∧ 2 ^ p < n ∧ n ≤ 2 ^ (p + 1) :=
  splitFrom_spec n n 0 (by rw [pow_zero]; omega) (by omega)

/-- The split is the one power of two with the size between it and twice it. -/
theorem splitPoint_eq {n p : ℕ} (h1 : 2 ^ p < n) (h2 : n ≤ 2 ^ (p + 1)) : splitPoint n = 2 ^ p := by
  have hpos : 0 < 2 ^ p := Nat.two_pow_pos p
  obtain ⟨q, hq, hq1, hq2⟩ := splitPoint_spec (n := n) (by omega)
  have hpq : p < q + 1 := (Nat.pow_lt_pow_iff_right (by omega)).mp (lt_of_lt_of_le h1 hq2)
  have hqp : q < p + 1 := (Nat.pow_lt_pow_iff_right (by omega)).mp (lt_of_lt_of_le hq1 h2)
  rw [hq, show q = p by omega]

theorem splitPoint_pos {n : ℕ} (hn : 2 ≤ n) : 0 < splitPoint n := by
  obtain ⟨p, hp, -⟩ := splitPoint_spec hn
  rw [hp]
  exact Nat.two_pow_pos p

theorem splitPoint_lt {n : ℕ} (hn : 2 ≤ n) : splitPoint n < n := by
  obtain ⟨p, hp, hlt, -⟩ := splitPoint_spec hn
  rw [hp]
  exact hlt

-- ── The root ─────────────────────────────────────────────────────────────────────

/-- The root of a tree of at most `fuel + 1` entries. -/
def rootWithin : ℕ → List α → δ
  | _, [] => h.emptyHash
  | _, [a] => h.leafHash a
  | 0, _ => h.emptyHash
  | fuel + 1, entries =>
      h.nodeHash (rootWithin fuel (entries.take (splitPoint entries.length)))
        (rootWithin fuel (entries.drop (splitPoint entries.length)))

/-- The root of the tree over some entries. -/
def root (entries : List α) : δ := rootWithin h entries.length entries

@[simp] theorem root_nil : root h [] = h.emptyHash := rfl

@[simp] theorem root_singleton (a : α) : root h [a] = h.leafHash a := rfl

theorem rootWithin_split (fuel : ℕ) {entries : List α} (hlen : 2 ≤ entries.length) :
    rootWithin h (fuel + 1) entries =
      h.nodeHash (rootWithin h fuel (entries.take (splitPoint entries.length)))
        (rootWithin h fuel (entries.drop (splitPoint entries.length))) := by
  match entries, hlen with
  | a :: b :: rest, _ => rw [rootWithin] <;> simp

theorem rootWithin_eq {fuel : ℕ} {entries : List α} (hfuel : entries.length ≤ fuel + 1) :
    rootWithin h fuel entries = root h entries := by
  induction hn : entries.length using Nat.strong_induction_on generalizing fuel entries with
  | _ n ih =>
      match entries with
      | [] => cases fuel <;> rfl
      | [a] => cases fuel <;> rfl
      | a :: b :: rest =>
          have hlen : 2 ≤ (a :: b :: rest).length := by simp
          have hlt := splitPoint_lt hlen
          have hpos := splitPoint_pos hlen
          obtain ⟨f, rfl⟩ : ∃ f, fuel = f + 1 := ⟨fuel - 1, by omega⟩
          have hroot : root h (a :: b :: rest)
              = rootWithin h (rest.length + 1 + 1) (a :: b :: rest) := rfl
          have htake : ((a :: b :: rest).take (splitPoint (a :: b :: rest).length)).length
              = splitPoint (a :: b :: rest).length := List.length_take_of_le hlt.le
          have hdrop : ((a :: b :: rest).drop (splitPoint (a :: b :: rest).length)).length
              = (a :: b :: rest).length - splitPoint (a :: b :: rest).length := List.length_drop
          rw [hroot, rootWithin_split h _ hlen, rootWithin_split h _ hlen]
          simp only [List.length_cons] at htake hdrop hlt hpos hn hfuel ⊢
          rw [ih _ (by omega) (by omega) htake, ih _ (by omega) (by omega) hdrop,
            ih _ (by omega) (by omega) htake, ih _ (by omega) (by omega) hdrop]

/-- **The tree splits at `splitPoint`.** -/
theorem root_split {entries : List α} (hlen : 2 ≤ entries.length) :
    root h entries = h.nodeHash (root h (entries.take (splitPoint entries.length)))
      (root h (entries.drop (splitPoint entries.length))) := by
  have hlt := splitPoint_lt hlen
  have hpos := splitPoint_pos hlen
  obtain ⟨f, hf⟩ : ∃ f, entries.length = f + 1 := ⟨entries.length - 1, by omega⟩
  have htake : (entries.take (splitPoint entries.length)).length = splitPoint entries.length :=
    List.length_take_of_le hlt.le
  have hdrop : (entries.drop (splitPoint entries.length)).length
      = entries.length - splitPoint entries.length := List.length_drop
  rw [root, hf, rootWithin_split h f hlen, rootWithin_eq h (by omega), rootWithin_eq h (by omega),
    hf]

/-- The root of a full left part and a right part that is no longer. -/
theorem root_append {left right : List α} {p : ℕ} (hleft : left.length = 2 ^ p)
    (hright : right ≠ []) (hle : right.length ≤ 2 ^ p) :
    root h (left ++ right) = h.nodeHash (root h left) (root h right) := by
  have hpos : 0 < 2 ^ p := Nat.two_pow_pos p
  have hr : 0 < right.length := List.length_pos_iff.mpr hright
  have hsplit : splitPoint (left ++ right).length = left.length := by
    rw [hleft]
    apply splitPoint_eq
    · rw [List.length_append]; omega
    · rw [List.length_append, pow_succ]; omega
  rw [root_split h (by rw [List.length_append]; omega), hsplit, List.take_left, List.drop_left]

-- ── The frontier ─────────────────────────────────────────────────────────────────

/-- **The roots of the full subtrees** a tree splits into, the largest first. -/
structure Frontier (δ : Type) where
  size : ℕ
  nodes : List δ
deriving DecidableEq

/-- The frontier of nothing. -/
def emptyFrontier : Frontier δ := ⟨0, []⟩

/-- Merging a node with the smallest subtrees, from the last one back, once for every trailing 1
    bit of the count; `none` where a subtree is missing. -/
def carryInto : ℕ → ℕ → List δ → δ → Option (List δ)
  | 0, _, _, _ => none
  | fuel + 1, carry, smallestFirst, node =>
      if carry % 2 = 1 then
        match smallestFirst with
        | [] => none
        | left :: rest => carryInto fuel (carry / 2) rest (h.nodeHash left node)
      else some (node :: smallestFirst)

/-- Adds one entry to a frontier; `none` where it holds fewer nodes than its size requires. -/
def frontierAppend (f : Frontier δ) (entry : α) : Option (Frontier δ) :=
  (carryInto h (f.size + 1) f.size f.nodes.reverse (h.leafHash entry)).map fun smallestFirst =>
    ⟨f.size + 1, smallestFirst.reverse⟩

/-- The root of the tree a frontier is of. -/
def frontierRoot (f : Frontier δ) : δ :=
  match f.nodes.reverse with
  | [] => h.emptyHash
  | last :: rest => rest.foldl (fun root node => h.nodeHash node root) last

/-- The nodes are the roots of the full subtrees of the entries: `carry` of them at height `p`
    and above, the smallest first. -/
def Peaks : ℕ → ℕ → List α → List δ → Prop
  | _, 0, entries, nodes => entries = [] ∧ nodes = []
  | p, carry + 1, entries, nodes =>
      if (carry + 1) % 2 = 1 then
        ∃ front block rest, entries = front ++ block ∧ block.length = 2 ^ p ∧
          nodes = root h block :: rest ∧ Peaks (p + 1) ((carry + 1) / 2) front rest
      else Peaks (p + 1) ((carry + 1) / 2) entries nodes
termination_by _ carry => carry
decreasing_by all_goals omega

theorem peaks_odd {p carry : ℕ} (hodd : carry % 2 = 1) {entries : List α} {nodes : List δ} :
    Peaks h p carry entries nodes ↔ ∃ front block rest, entries = front ++ block ∧
      block.length = 2 ^ p ∧ nodes = root h block :: rest ∧
      Peaks h (p + 1) (carry / 2) front rest := by
  cases carry with
  | zero => omega
  | succ c => rw [Peaks, if_pos hodd]

theorem peaks_even {p carry : ℕ} (heven : carry % 2 = 0) {entries : List α} {nodes : List δ} :
    Peaks h p carry entries nodes ↔ Peaks h (p + 1) (carry / 2) entries nodes := by
  cases carry with
  | zero => rw [Nat.zero_div, Peaks, Peaks]
  | succ c => rw [Peaks, if_neg (by omega)]

/-- **One carry adds a full subtree.** -/
theorem carryInto_spec {fuel p carry : ℕ} (hfuel : carry < fuel) {entries block : List α}
    {nodes : List δ} (hpeaks : Peaks h p carry entries nodes) (hblock : block.length = 2 ^ p) :
    ∃ nodes', carryInto h fuel carry nodes (root h block) = some nodes' ∧
      Peaks h p (carry + 1) (entries ++ block) nodes' := by
  induction fuel generalizing p carry entries block nodes with
  | zero => omega
  | succ fuel ih =>
      rcases Nat.mod_two_eq_zero_or_one carry with heven | hodd
      · refine ⟨root h block :: nodes, by simp only [carryInto, if_neg (show ¬ carry % 2 = 1 by
          omega)], ?_⟩
        rw [peaks_odd h (by omega)]
        refine ⟨entries, block, nodes, rfl, hblock, rfl, ?_⟩
        rw [show (carry + 1) / 2 = carry / 2 by omega]
        exact (peaks_even h heven).mp hpeaks
      · obtain ⟨front, left, rest, rfl, hleft, rfl, hrest⟩ := (peaks_odd h hodd).mp hpeaks
        have hne : block ≠ [] := by
          rintro rfl
          exact absurd hblock (Nat.two_pow_pos p).ne
        have hnode := root_append h hleft hne (by omega)
        obtain ⟨nodes', hcarry, hpeaks'⟩ := ih (show carry / 2 < fuel by omega) hrest
          (show (left ++ block).length = 2 ^ (p + 1) by
            rw [List.length_append, hleft, hblock, pow_succ]; omega)
        refine ⟨nodes', ?_, ?_⟩
        · simp only [carryInto, if_pos hodd, ← hnode, hcarry]
        · rw [peaks_even h (by omega), show (carry + 1) / 2 = carry / 2 + 1 by omega,
            List.append_assoc]
          exact hpeaks'

/-- The frontier of the tree over some entries. -/
def IsFrontier (f : Frontier δ) (entries : List α) : Prop :=
  f.size = entries.length ∧ Peaks h 0 f.size entries f.nodes.reverse

theorem isFrontier_empty : IsFrontier h emptyFrontier ([] : List α) := by
  refine ⟨rfl, ?_⟩
  show Peaks h 0 0 [] []
  rw [Peaks]
  exact ⟨rfl, rfl⟩

/-- **Adding an entry to the frontier of a tree gives the frontier of the tree with it.** -/
theorem frontierAppend_spec {f : Frontier δ} {entries : List α} (hf : IsFrontier h f entries)
    (entry : α) :
    ∃ f', frontierAppend h f entry = some f' ∧ IsFrontier h f' (entries ++ [entry]) := by
  obtain ⟨hsize, hpeaks⟩ := hf
  obtain ⟨nodes, hcarry, hpeaks'⟩ := carryInto_spec h (Nat.lt_succ_self f.size) hpeaks
    (show [entry].length = 2 ^ 0 from rfl)
  refine ⟨⟨f.size + 1, nodes.reverse⟩, ?_, ?_, ?_⟩
  · rw [root_singleton] at hcarry
    rw [frontierAppend, hcarry, Option.map_some]
  · simp [hsize]
  · simpa using hpeaks'

/-- Folding the remaining nodes over the root of what is to their right. -/
theorem foldl_peaks {p carry : ℕ} {entries tail : List α} {nodes : List δ}
    (hpeaks : Peaks h p carry entries nodes) (htail : tail ≠ []) (hle : tail.length ≤ 2 ^ p) :
    nodes.foldl (fun root node => h.nodeHash node root) (root h tail) = root h (entries ++ tail) := by
  induction carry using Nat.strong_induction_on generalizing p entries tail nodes with
  | _ carry ih =>
      cases carry with
      | zero =>
          rw [Peaks] at hpeaks
          obtain ⟨rfl, rfl⟩ := hpeaks
          rfl
      | succ c =>
          rcases Nat.mod_two_eq_zero_or_one (c + 1) with heven | hodd
          · exact ih _ (by omega) ((peaks_even h heven).mp hpeaks) htail
              (by rw [pow_succ]; omega)
          · obtain ⟨front, block, rest, rfl, hblock, rfl, hrest⟩ := (peaks_odd h hodd).mp hpeaks
            rw [List.foldl_cons, ← root_append h hblock htail hle, List.append_assoc]
            refine ih _ (by omega) hrest (by simp [htail]) ?_
            rw [List.length_append, hblock, pow_succ]
            omega

/-- **The root of a frontier is the root of its tree.** -/
theorem frontierRoot_eq {f : Frontier δ} {entries : List α} (hf : IsFrontier h f entries) :
    frontierRoot h f = root h entries := by
  obtain ⟨-, hpeaks⟩ := hf
  have key : ∀ carry p (nodes : List δ), Peaks h p carry entries nodes →
      (match nodes with
        | [] => h.emptyHash
        | last :: rest => rest.foldl (fun root node => h.nodeHash node root) last)
        = root h entries := by
    intro carry
    induction carry using Nat.strong_induction_on with
    | _ carry ih =>
        intro p nodes hp
        cases carry with
        | zero =>
            rw [Peaks] at hp
            obtain ⟨rfl, rfl⟩ := hp
            rfl
        | succ c =>
            rcases Nat.mod_two_eq_zero_or_one (c + 1) with heven | hodd
            · exact ih _ (by omega) (p + 1) nodes ((peaks_even h heven).mp hp)
            · obtain ⟨front, block, rest, rfl, hblock, rfl, hrest⟩ := (peaks_odd h hodd).mp hp
              refine foldl_peaks h hrest ?_ ?_
              · rintro rfl
                exact absurd hblock (Nat.two_pow_pos p).ne
              · rw [hblock, pow_succ]
                omega
  exact key _ 0 f.nodes.reverse hpeaks

/-- The ones in the binary form of a number, by halving it. -/
def bitsFrom : ℕ → ℕ → ℕ
  | 0, _ => 0
  | fuel + 1, rest => if rest = 0 then 0 else rest % 2 + bitsFrom fuel (rest / 2)

/-- How many bits of a number are set. -/
def setBits (n : ℕ) : ℕ := bitsFrom n n

theorem peaks_length {p carry fuel : ℕ} (hfuel : carry ≤ fuel) {entries : List α}
    {nodes : List δ} (hpeaks : Peaks h p carry entries nodes) :
    nodes.length = bitsFrom fuel carry := by
  induction fuel generalizing p carry entries nodes with
  | zero =>
      obtain rfl : carry = 0 := by omega
      rw [Peaks] at hpeaks
      rw [hpeaks.2]
      rfl
  | succ fuel ih =>
      by_cases hzero : carry = 0
      · subst hzero
        rw [Peaks] at hpeaks
        rw [hpeaks.2]
        rfl
      · rw [bitsFrom, if_neg hzero]
        rcases Nat.mod_two_eq_zero_or_one carry with heven | hodd
        · rw [heven, Nat.zero_add]
          exact ih (by omega) ((peaks_even h heven).mp hpeaks)
        · obtain ⟨front, block, rest, -, -, rfl, hrest⟩ := (peaks_odd h hodd).mp hpeaks
          rw [hodd, List.length_cons, ih (by omega) hrest, Nat.add_comm]

/-- **A frontier holds one node for each set bit of its size.** -/
theorem IsFrontier.length_nodes {f : Frontier δ} {entries : List α} (hf : IsFrontier h f entries) :
    f.nodes.length = setBits f.size := by
  have := peaks_length h (le_refl f.size) hf.2
  rwa [List.length_reverse] at this

-- ── Binding ──────────────────────────────────────────────────────────────────────

/-- Everything that is hashed for a tree of at most `fuel + 1` entries. -/
def preimagesWithin : ℕ → List α → List β
  | _, [] => [h.empty]
  | _, [a] => [h.leaf a]
  | 0, _ => []
  | fuel + 1, entries =>
      h.node (rootWithin h fuel (entries.take (splitPoint entries.length)))
          (rootWithin h fuel (entries.drop (splitPoint entries.length))) ::
        (preimagesWithin fuel (entries.take (splitPoint entries.length)) ++
          preimagesWithin fuel (entries.drop (splitPoint entries.length)))

theorem preimagesWithin_split (fuel : ℕ) {entries : List α} (hlen : 2 ≤ entries.length) :
    preimagesWithin h (fuel + 1) entries =
      h.node (rootWithin h fuel (entries.take (splitPoint entries.length)))
          (rootWithin h fuel (entries.drop (splitPoint entries.length))) ::
        (preimagesWithin h fuel (entries.take (splitPoint entries.length)) ++
          preimagesWithin h fuel (entries.drop (splitPoint entries.length))) := by
  match entries, hlen with
  | a :: b :: rest, _ => rw [preimagesWithin] <;> simp

/-- Everything that is hashed for the tree over some entries. -/
def preimages (entries : List α) : List β := preimagesWithin h entries.length entries

/-- An entry and a pair of children can be read back from what is hashed for them. -/
structure Hashing.Readable : Prop where
  leaf : Function.Injective h.leaf
  node : ∀ l r l' r', h.node l r = h.node l' r' → l = l' ∧ r = r'

variable {h}

theorem rootWithin_injective (hread : h.Readable) {S : Set β} (hS : Set.InjOn h.hash S)
    {fuel : ℕ} {xs ys : List α} (hlen : xs.length = ys.length) (hfuel : xs.length ≤ fuel + 1)
    (hxs : ∀ b ∈ preimagesWithin h fuel xs, b ∈ S) (hys : ∀ b ∈ preimagesWithin h fuel ys, b ∈ S)
    (heq : rootWithin h fuel xs = rootWithin h fuel ys) : xs = ys := by
  induction fuel generalizing xs ys with
  | zero =>
      match xs, ys, hlen, hfuel with
      | [], [], _, _ => rfl
      | [x], [y], _, _ =>
          have := hS (hxs _ (List.mem_singleton_self _)) (hys _ (List.mem_singleton_self _)) heq
          rw [hread.leaf this]
  | succ fuel ih =>
      match xs, ys, hlen with
      | [], [], _ => rfl
      | [x], [y], _ =>
          have := hS (hxs _ (List.mem_singleton_self _)) (hys _ (List.mem_singleton_self _)) heq
          rw [hread.leaf this]
      | x :: x' :: xs, y :: y' :: ys, hlen =>
          generalize hX : x :: x' :: xs = X at hlen hfuel hxs heq ⊢
          generalize hY : y :: y' :: ys = Y at hlen hys heq ⊢
          have h2 : 2 ≤ X.length := by rw [← hX]; simp
          have hlt := splitPoint_lt h2
          have hpos := splitPoint_pos h2
          rw [preimagesWithin_split h fuel h2] at hxs
          rw [preimagesWithin_split h fuel (hlen ▸ h2)] at hys
          rw [rootWithin_split h fuel h2, rootWithin_split h fuel (hlen ▸ h2)] at heq
          obtain ⟨hl, hr⟩ := hread.node _ _ _ _ (hS (hxs _ (List.mem_cons_self ..))
            (hys _ (List.mem_cons_self ..)) heq)
          have hleft := ih (by simp [hlen]) (by rw [List.length_take]; omega)
            (fun b hb => hxs b (List.mem_cons_of_mem _ (List.mem_append_left _ hb)))
            (fun b hb => hys b (List.mem_cons_of_mem _ (List.mem_append_left _ hb))) hl
          have hright := ih (by simp [hlen]) (by rw [List.length_drop]; omega)
            (fun b hb => hxs b (List.mem_cons_of_mem _ (List.mem_append_right _ hb)))
            (fun b hb => hys b (List.mem_cons_of_mem _ (List.mem_append_right _ hb))) hr
          rw [← List.take_append_drop (splitPoint X.length) X, hleft, hright,
            List.take_append_drop]

/-- **Trees of one size and one root hold the same entries**, where the hash function has no
    collision on what the two hash. -/
theorem root_injective (hread : h.Readable) {xs ys : List α} (hlen : xs.length = ys.length)
    (hS : Set.InjOn h.hash {b | b ∈ preimages h xs ∨ b ∈ preimages h ys})
    (heq : root h xs = root h ys) : xs = ys := by
  rw [root, root, ← hlen] at heq
  refine rootWithin_injective hread hS hlen (by omega) (fun b hb => .inl hb) (fun b hb => .inr ?_)
    heq
  rw [preimages, ← hlen]
  exact hb

-- ── Named entries ────────────────────────────────────────────────────────────────

variable {γ : Type} (h : Hashing α δ β) (g : γ → α)

theorem rootWithin_comap (fuel : ℕ) (entries : List γ) :
    rootWithin (h.comap g) fuel entries = rootWithin h fuel (entries.map g) := by
  induction fuel generalizing entries with
  | zero =>
      match entries with
      | [] => rfl
      | [a] => rfl
      | a :: b :: rest => rfl
  | succ fuel ih =>
      match entries with
      | [] => rfl
      | [a] => rfl
      | a :: b :: rest =>
          have h2 : 2 ≤ (a :: b :: rest).length := by simp
          rw [rootWithin_split _ fuel h2, rootWithin_split h fuel (by rw [List.length_map]; exact h2), ih, ih,
            List.map_take, List.map_drop, List.length_map]
          rfl

/-- The tree over named entries is the tree over the entries. -/
theorem root_comap (entries : List γ) : root (h.comap g) entries = root h (entries.map g) := by
  rw [root, root, List.length_map]
  exact rootWithin_comap h g _ entries

theorem preimagesWithin_comap (fuel : ℕ) (entries : List γ) :
    preimagesWithin (h.comap g) fuel entries = preimagesWithin h fuel (entries.map g) := by
  induction fuel generalizing entries with
  | zero =>
      match entries with
      | [] => rfl
      | [a] => rfl
      | a :: b :: rest => rfl
  | succ fuel ih =>
      match entries with
      | [] => rfl
      | [a] => rfl
      | a :: b :: rest =>
          have h2 : 2 ≤ (a :: b :: rest).length := by simp
          rw [preimagesWithin_split _ fuel h2, preimagesWithin_split h fuel (by rw [List.length_map]; exact h2),
            ih, ih, rootWithin_comap, rootWithin_comap, List.map_take, List.map_drop, List.length_map]
          rfl

theorem preimages_comap (entries : List γ) :
    preimages (h.comap g) entries = preimages h (entries.map g) := by
  rw [preimages, preimages, List.length_map]
  exact preimagesWithin_comap h g _ entries

end MerkleTree
