import Sigillo.MerkleTree

/-!
# Audit paths

The hashes beside the way from an entry up to the root of its tree, and the climb that rebuilds the
root from them. The climb is told no sides: they follow from the entry's position and the last
position of the tree, halved together at each step.

* **`climb_inclusionProof`** — the audit path of an entry climbs to the root of its tree;
* **`length_inclusionProof`** — it has as many steps as its position calls for;
* **`inclusionProof_of_climb`** — where the hash function has no collision, nothing else climbs to
  that root from that position. -/

namespace MerkleTree

variable {α δ β : Type} (h : Hashing α δ β)

/-- The audit path for one entry of a tree of at most `fuel + 1`: siblings from the leaf upwards. -/
def pathWithin : ℕ → List α → ℕ → List δ
  | _, [], _ => []
  | _, [_], _ => []
  | 0, _, _ => []
  | fuel + 1, entries, index =>
      let k := splitPoint entries.length
      if index < k then pathWithin fuel (entries.take k) index ++ [root h (entries.drop k)]
      else pathWithin fuel (entries.drop k) (index - k) ++ [root h (entries.take k)]

/-- The audit path for one entry; `none` for a position outside the tree. -/
def inclusionProof (entries : List α) (index : ℕ) : Option (List δ) :=
  if index < entries.length then some (pathWithin h entries.length entries index) else none

/-- How many steps an audit path has, in a tree of at most `fuel + 1`. -/
def pathLengthWithin : ℕ → ℕ → ℕ → ℕ
  | 0, _, _ => 0
  | fuel + 1, index, size =>
      if size ≤ 1 then 0
      else
        let k := splitPoint size
        1 + if index < k then pathLengthWithin fuel index k
          else pathLengthWithin fuel (index - k) (size - k)

/-- How many steps an audit path for this position must have. -/
def auditPathLength (index size : ℕ) : ℕ := pathLengthWithin size index size

/-- Halving both positions while the first is even and not zero. -/
def skipLevels : ℕ → ℕ × ℕ → ℕ × ℕ
  | 0, p => p
  | fuel + 1, (leaf, last) =>
      if leaf ≠ 0 ∧ leaf % 2 = 0 then skipLevels fuel (leaf / 2, last / 2) else (leaf, last)

/-- One step of the climb: the node so far, its position and the last position at its level. -/
def climbStep (s : δ × ℕ × ℕ) (sibling : δ) : δ × ℕ × ℕ :=
  let (node, leaf, last) := s
  if leaf = last ∨ leaf % 2 = 1 then
    let (leaf', last') := skipLevels leaf (leaf, last)
    (h.nodeHash sibling node, leaf' / 2, last' / 2)
  else (h.nodeHash node sibling, leaf / 2, last / 2)

/-- The root that an audit path claims for an entry. -/
def climb (entry : α) (index last : ℕ) (path : List δ) : δ :=
  (path.foldl (climbStep h) (h.leafHash entry, index, last)).1

-- ── Steps of the climb ───────────────────────────────────────────────────────────

theorem climbStep_left {node sibling : δ} {leaf last : ℕ} (heven : leaf % 2 = 0)
    (hlt : leaf < last) :
    climbStep h (node, leaf, last) sibling = (h.nodeHash node sibling, leaf / 2, last / 2) := by
  rw [climbStep, if_neg (by omega)]

theorem skipLevels_odd (fuel : ℕ) {leaf last : ℕ} (hodd : leaf % 2 = 1) :
    skipLevels fuel (leaf, last) = (leaf, last) := by
  cases fuel with
  | zero => rfl
  | succ fuel => rw [skipLevels, if_neg (by omega)]

theorem climbStep_odd {node sibling : δ} {leaf last : ℕ} (hodd : leaf % 2 = 1) :
    climbStep h (node, leaf, last) sibling = (h.nodeHash sibling node, leaf / 2, last / 2) := by
  simp only [climbStep, if_pos (show leaf = last ∨ leaf % 2 = 1 by omega), skipLevels_odd _ hodd]

/-- The last position of an incomplete level is brought up to where it is a right child. -/
theorem skipLevels_shift {fuel b s : ℕ} (hfuel : s ≤ fuel) :
    skipLevels fuel ((2 * b + 1) * 2 ^ s, (2 * b + 1) * 2 ^ s) = (2 * b + 1, 2 * b + 1) := by
  induction fuel generalizing s with
  | zero =>
      obtain rfl : s = 0 := by omega
      rw [pow_zero, mul_one]
      rfl
  | succ fuel ih =>
      cases s with
      | zero =>
          rw [pow_zero, mul_one]
          exact skipLevels_odd _ (by omega)
      | succ s =>
          have hhalf : (2 * b + 1) * 2 ^ (s + 1) = (2 * b + 1) * 2 ^ s * 2 := by
            rw [pow_succ, mul_assoc]
          have hpos : 0 < (2 * b + 1) * 2 ^ s := Nat.mul_pos (by omega) (Nat.two_pow_pos s)
          rw [skipLevels, if_pos (by rw [hhalf]; omega), hhalf,
            Nat.mul_div_cancel _ (by norm_num)]
          exact ih (by omega)

theorem climbStep_last {node sibling : δ} {b s : ℕ} :
    climbStep h (node, (2 * b + 1) * 2 ^ s, (2 * b + 1) * 2 ^ s) sibling
      = (h.nodeHash sibling node, b, b) := by
  have hfuel : s ≤ (2 * b + 1) * 2 ^ s := by
    have h1 : s < 2 ^ s := Nat.lt_two_pow_self
    have h2 : 1 * 2 ^ s ≤ (2 * b + 1) * 2 ^ s := Nat.mul_le_mul_right _ (by omega)
    omega
  simp only [climbStep, true_or, if_true, skipLevels_shift hfuel]
  rw [show (2 * b + 1) / 2 = b by omega]

-- ── The path ─────────────────────────────────────────────────────────────────────

theorem pathWithin_split (fuel : ℕ) {entries : List α} (hlen : 2 ≤ entries.length) (index : ℕ) :
    pathWithin h (fuel + 1) entries index =
      if index < splitPoint entries.length then
        pathWithin h fuel (entries.take (splitPoint entries.length)) index
          ++ [root h (entries.drop (splitPoint entries.length))]
      else pathWithin h fuel (entries.drop (splitPoint entries.length))
          (index - splitPoint entries.length)
          ++ [root h (entries.take (splitPoint entries.length))] := by
  match entries, hlen with
  | a :: b :: rest, _ => rw [pathWithin] <;> simp

-- ── What a path claims ───────────────────────────────────────────────────────────

/-- The root a path claims for an entry, from the sibling beside the root's child down. -/
def claimed : ℕ → α → ℕ → List δ → δ
  | _, entry, _, [] => h.leafHash entry
  | size, entry, index, sibling :: below =>
      let k := splitPoint size
      if index < k then h.nodeHash (claimed k entry index below) sibling
      else h.nodeHash sibling (claimed (size - k) entry (index - k) below)

theorem pathLengthWithin_split {fuel index size : ℕ} (hsize : 2 ≤ size) :
    pathLengthWithin (fuel + 1) index size =
      1 + if index < splitPoint size then pathLengthWithin fuel index (splitPoint size)
        else pathLengthWithin fuel (index - splitPoint size) (size - splitPoint size) := by
  rw [pathLengthWithin, if_neg (by omega)]

theorem pathLengthWithin_one (fuel index : ℕ) : pathLengthWithin fuel index 1 = 0 := by
  cases fuel with
  | zero => rfl
  | succ fuel => rw [pathLengthWithin, if_pos le_rfl]

/-- A full tree has as many levels as its size has halvings. -/
theorem pathLengthWithin_full {p fuel index : ℕ} (hfuel : 2 ^ p ≤ fuel + 1) (hindex : index < 2 ^ p) :
    pathLengthWithin fuel index (2 ^ p) = p := by
  induction p generalizing fuel index with
  | zero => exact pathLengthWithin_one fuel index
  | succ p ih =>
      have hpos : 0 < 2 ^ p := Nat.two_pow_pos p
      have hdouble : 2 ^ (p + 1) = 2 ^ p + 2 ^ p := by rw [pow_succ]; omega
      obtain ⟨fuel, rfl⟩ : ∃ f, fuel = f + 1 := ⟨fuel - 1, by omega⟩
      have hk : splitPoint (2 ^ (p + 1)) = 2 ^ p := splitPoint_eq (by omega) (by omega)
      rw [pathLengthWithin_split (by omega), hk]
      split_ifs with hside
      · rw [ih (by omega) hside, Nat.add_comm]
      · rw [show 2 ^ (p + 1) - 2 ^ p = 2 ^ p by omega, ih (by omega) (by omega), Nat.add_comm]

/-- The climb through a full subtree that is not the last of its level. -/
theorem climb_full {p : ℕ} {path : List δ} {entry : α} {index a last : ℕ} (hlen : path.length = p)
    (hindex : index < 2 ^ p) (hlast : (a + 1) * 2 ^ p ≤ last) :
    path.foldl (climbStep h) (h.leafHash entry, a * 2 ^ p + index, last)
      = (claimed h (2 ^ p) entry index path.reverse, a, last / 2 ^ p) := by
  induction p generalizing path index a with
  | zero =>
      obtain rfl := List.length_eq_zero_iff.mp hlen
      obtain rfl : index = 0 := by simpa using hindex
      simp [claimed]
  | succ p ih =>
      obtain ⟨below, sibling, rfl⟩ : ∃ below sibling, path = below ++ [sibling] :=
        ⟨_, _, (List.dropLast_append_getLast (List.ne_nil_of_length_eq_add_one hlen)).symm⟩
      have hbelow : below.length = p := by simpa using hlen
      have hpos : 0 < 2 ^ p := Nat.two_pow_pos p
      have hdouble : 2 ^ (p + 1) = 2 ^ p + 2 ^ p := by rw [pow_succ]; omega
      have hk : splitPoint (2 ^ (p + 1)) = 2 ^ p := splitPoint_eq (by omega) (by omega)
      have hquot : last / 2 ^ p / 2 = last / 2 ^ (p + 1) := by
        rw [Nat.div_div_eq_div_mul, pow_succ]
      have hstart : a * 2 ^ (p + 1) = 2 * a * 2 ^ p := by rw [pow_succ]; ring
      have hend : (a + 1) * 2 ^ (p + 1) = (2 * a + 1 + 1) * 2 ^ p := by rw [pow_succ]; ring
      rw [hend] at hlast
      rw [List.foldl_append, List.reverse_append, List.reverse_singleton, List.singleton_append,
        claimed, hk]
      split_ifs with hside
      · have hle : (2 * a + 1) * 2 ^ p ≤ last :=
          le_trans (Nat.mul_le_mul_right _ (by omega)) hlast
        rw [hstart, ih hbelow hside hle, List.foldl_cons, List.foldl_nil,
          climbStep_left h (by omega) ((Nat.le_div_iff_mul_le hpos).mpr hle), hquot]
        rw [show 2 * a / 2 = a by omega]
      · have hshift : a * 2 ^ (p + 1) + index = (2 * a + 1) * 2 ^ p + (index - 2 ^ p) := by
          rw [hstart, add_mul, one_mul]
          omega
        rw [hshift, ih hbelow (by omega) hlast, List.foldl_cons, List.foldl_nil,
          climbStep_odd h (by omega), hquot, show 2 ^ (p + 1) - 2 ^ p = 2 ^ p by omega]
        rw [show (2 * a + 1) / 2 = a by omega]

/-- A tree of one entry has nothing to climb. -/
theorem climb_single {fuel : ℕ} {path : List δ} {entry : α} {index a m : ℕ} (hindex : index < 1)
    (hlen : path.length = pathLengthWithin fuel index 1) :
    ∃ t ≤ m, path.foldl (climbStep h) (h.leafHash entry, a * 2 ^ m + index, a * 2 ^ m + (1 - 1))
      = (claimed h 1 entry index path.reverse, a * 2 ^ (m - t), a * 2 ^ (m - t)) := by
  rw [pathLengthWithin_one] at hlen
  obtain rfl := List.length_eq_zero_iff.mp hlen
  obtain rfl : index = 0 := by omega
  exact ⟨0, Nat.zero_le m, rfl⟩

/-- The climb through the last subtree of its level: it ends at the level's last position, some
    levels short of where the subtree would be full. -/
theorem climb_last {fuel size : ℕ} {path : List δ} {entry : α} {index a m : ℕ} (hsize : size ≤ 2 ^ m)
    (hfuel : size ≤ fuel + 1) (hindex : index < size)
    (hlen : path.length = pathLengthWithin fuel index size) :
    ∃ t ≤ m, path.foldl (climbStep h) (h.leafHash entry, a * 2 ^ m + index, a * 2 ^ m + (size - 1))
      = (claimed h size entry index path.reverse, a * 2 ^ (m - t), a * 2 ^ (m - t)) := by
  induction fuel generalizing size path index a m with
  | zero =>
      obtain rfl : size = 1 := by omega
      exact climb_single h hindex hlen
  | succ fuel ih =>
      by_cases hone : size = 1
      · subst hone
        exact climb_single h hindex hlen
      · have h2 : 2 ≤ size := by omega
        rw [pathLengthWithin_split h2] at hlen
        obtain ⟨below, sibling, rfl⟩ : ∃ below sibling, path = below ++ [sibling] :=
          ⟨_, _, (List.dropLast_append_getLast (List.ne_nil_of_length_pos (by omega))).symm⟩
        obtain ⟨p, hk, hk1, hk2⟩ := splitPoint_spec h2
        have hpos : 0 < 2 ^ p := Nat.two_pow_pos p
        have hpm : p < m := (Nat.pow_lt_pow_iff_right (by norm_num)).mp (lt_of_lt_of_le hk1 hsize)
        have hdouble : 2 ^ (p + 1) = 2 ^ p + 2 ^ p := by rw [pow_succ]; omega
        have hstep : a * 2 ^ m = a * 2 ^ (m - (p + 1)) * 2 * 2 ^ p := by
          rw [mul_assoc, mul_assoc, ← pow_succ', ← pow_add]
          congr 2
          omega
        have hbelow : below.length + 1 = 1 + if index < 2 ^ p then pathLengthWithin fuel index (2 ^ p)
            else pathLengthWithin fuel (index - 2 ^ p) (size - 2 ^ p) := by
          rw [← hk]
          simpa using hlen
        refine ⟨p + 1, hpm, ?_⟩
        rw [List.foldl_append, List.reverse_append, List.reverse_singleton, List.singleton_append,
          claimed, hk]
        set b := a * 2 ^ (m - (p + 1)) with hb
        split_ifs with hside
        · -- a full left subtree, its sibling beside it on an incomplete level
          rw [if_pos hside, pathLengthWithin_full (by omega) hside] at hbelow
          have hlast : (b * 2 + 1) * 2 ^ p ≤ b * 2 * 2 ^ p + (size - 1) := by
            rw [add_mul, one_mul]
            omega
          have hquot : (b * 2 * 2 ^ p + (size - 1)) / 2 ^ p = b * 2 + 1 := by
            have hone : (size - 1) / 2 ^ p = 1 := Nat.div_eq_of_lt_le (by omega) (by omega)
            rw [Nat.mul_comm (b * 2), Nat.mul_add_div hpos, hone]
          rw [hstep, climb_full h (by omega) hside hlast, List.foldl_cons, List.foldl_nil, hquot,
            climbStep_left h (by omega) (by omega)]
          rw [show b * 2 / 2 = b by omega, show (b * 2 + 1) / 2 = b by omega]
        · rw [if_neg hside] at hbelow
          have hshift : b * 2 * 2 ^ p + index = (2 * b + 1) * 2 ^ p + (index - 2 ^ p) := by
            rw [add_mul, one_mul, Nat.mul_comm b 2]
            omega
          have hend : b * 2 * 2 ^ p + (size - 1) = (2 * b + 1) * 2 ^ p + (size - 2 ^ p - 1) := by
            rw [add_mul, one_mul, Nat.mul_comm b 2]
            omega
          have hright : size - 2 ^ p ≤ 2 ^ p := by omega
          have hinside : index - 2 ^ p < size - 2 ^ p := by omega
          have hsteps : below.length = pathLengthWithin fuel (index - 2 ^ p) (size - 2 ^ p) := by omega
          obtain ⟨t, ht, hrun⟩ := ih (a := 2 * b + 1) hright (by omega) hinside hsteps
          rw [hstep, hshift, hend, hrun, List.foldl_cons, List.foldl_nil, climbStep_last]

/-- **The climb comes to what the path claims**, when the path has the steps its position calls
    for. -/
theorem climb_eq_claimed {path : List δ} {entry : α} {index size : ℕ} (hindex : index < size)
    (hlen : path.length = auditPathLength index size) :
    climb h entry index (size - 1) path = claimed h size entry index path.reverse := by
  have hrun : ∃ t ≤ size, path.foldl (climbStep h)
      (h.leafHash entry, 0 * 2 ^ size + index, 0 * 2 ^ size + (size - 1))
        = (claimed h size entry index path.reverse, 0 * 2 ^ (size - t), 0 * 2 ^ (size - t)) :=
    climb_last h Nat.lt_two_pow_self.le (show size ≤ size + 1 by omega) hindex hlen
  obtain ⟨t, -, hrun⟩ := hrun
  rw [Nat.zero_mul, Nat.zero_add, Nat.zero_add] at hrun
  rw [climb, hrun]

/-- The path of an entry claims the root of its tree. -/
theorem claimed_pathWithin {fuel : ℕ} {entries : List α} {entry : α} {index : ℕ}
    (hfuel : entries.length ≤ fuel + 1) (hentry : entries[index]? = some entry) :
    claimed h entries.length entry index (pathWithin h fuel entries index).reverse = root h entries := by
  induction fuel generalizing entries index with
  | zero =>
      match entries, hentry with
      | [e], hentry =>
          obtain ⟨hi, he⟩ := List.getElem?_eq_some_iff.mp hentry
          obtain rfl : index = 0 := by simpa using hi
          rw [← he]
          rfl
      | a :: b :: rest, _ => simp at hfuel
  | succ fuel ih =>
      match entries, hentry with
      | [e], hentry =>
          obtain ⟨hi, he⟩ := List.getElem?_eq_some_iff.mp hentry
          obtain rfl : index = 0 := by simpa using hi
          rw [← he]
          rfl
      | e :: e' :: rest, hentry =>
          generalize hE : e :: e' :: rest = entries at hfuel hentry ⊢
          have h2 : 2 ≤ entries.length := by rw [← hE]; simp
          have hlt := splitPoint_lt h2
          have hpos := splitPoint_pos h2
          have htake : (entries.take (splitPoint entries.length)).length = splitPoint entries.length :=
            List.length_take_of_le hlt.le
          have hdrop : (entries.drop (splitPoint entries.length)).length
              = entries.length - splitPoint entries.length := List.length_drop
          rw [pathWithin_split h fuel h2, root_split h h2]
          split_ifs with hside
          · have hat : (entries.take (splitPoint entries.length))[index]? = some entry := by
              rw [List.getElem?_take, if_pos hside]
              exact hentry
            have hleft := ih (by omega) hat
            rw [htake] at hleft
            rw [List.reverse_append, List.reverse_singleton, List.singleton_append, claimed,
              if_pos hside, hleft]
          · have hat : (entries.drop (splitPoint entries.length))[index - splitPoint entries.length]?
                = some entry := by
              rw [List.getElem?_drop, show splitPoint entries.length
                + (index - splitPoint entries.length) = index by omega]
              exact hentry
            have hright := ih (by omega) hat
            rw [hdrop] at hright
            rw [List.reverse_append, List.reverse_singleton, List.singleton_append, claimed,
              if_neg hside, hright]

theorem length_pathWithin {fuel : ℕ} {entries : List α} {index : ℕ}
    (hfuel : entries.length ≤ fuel) :
    (pathWithin h fuel entries index).length = pathLengthWithin fuel index entries.length := by
  induction fuel generalizing entries index with
  | zero =>
      obtain rfl : entries = [] := List.length_eq_zero_iff.mp (by omega)
      rfl
  | succ fuel ih =>
      match entries with
      | [] => rfl
      | [e] => rfl
      | e :: e' :: rest =>
          generalize hE : e :: e' :: rest = entries at hfuel ⊢
          have h2 : 2 ≤ entries.length := by rw [← hE]; simp
          have hlt := splitPoint_lt h2
          have hpos := splitPoint_pos h2
          have hmany : ¬ entries.length ≤ 1 := by omega
          rw [pathWithin_split h fuel h2, pathLengthWithin, if_neg hmany]
          simp only
          split_ifs with hside
          · rw [List.length_append, ih (by rw [List.length_take]; omega), List.length_singleton,
              List.length_take_of_le hlt.le, Nat.add_comm]
          · rw [List.length_append, ih (by rw [List.length_drop]; omega), List.length_singleton,
              List.length_drop, Nat.add_comm]

/-- **An audit path has the steps its position calls for.** -/
theorem length_inclusionProof {entries : List α} {index : ℕ} {path : List δ}
    (hpath : inclusionProof h entries index = some path) :
    path.length = auditPathLength index entries.length := by
  rw [inclusionProof] at hpath
  split_ifs at hpath
  rw [← Option.some.inj hpath, length_pathWithin h (le_refl _)]
  rfl

/-- **The audit path of an entry climbs to the root of its tree.** -/
theorem climb_inclusionProof {entries : List α} {index : ℕ} {entry : α} {path : List δ}
    (hentry : entries[index]? = some entry) (hpath : inclusionProof h entries index = some path) :
    climb h entry index (entries.length - 1) path = root h entries := by
  rw [climb_eq_claimed h (List.getElem?_eq_some_iff.mp hentry).1 (length_inclusionProof h hpath)]
  rw [inclusionProof] at hpath
  split_ifs at hpath
  rw [← Option.some.inj hpath]
  exact claimed_pathWithin h (by omega) hentry

-- ── Binding ──────────────────────────────────────────────────────────────────────

/-- Everything that is hashed for what a path claims. -/
def claimedPreimages : ℕ → α → ℕ → List δ → List β
  | _, entry, _, [] => [h.leaf entry]
  | size, entry, index, sibling :: below =>
      let k := splitPoint size
      if index < k then h.node (claimed h k entry index below) sibling :: claimedPreimages k entry index below
      else h.node sibling (claimed h (size - k) entry (index - k) below)
        :: claimedPreimages (size - k) entry (index - k) below

variable {h}

theorem pathWithin_of_claimed_single (hread : h.Readable) {S : Set β} (hS : Set.InjOn h.hash S) {fuel : ℕ}
    {e entry : α} {index : ℕ} {path : List δ} (hindex : index < 1)
    (hlen : path.length = pathLengthWithin fuel index 1)
    (hentries : ∀ b ∈ preimagesWithin h fuel [e], b ∈ S)
    (hclaimed : ∀ b ∈ claimedPreimages h 1 entry index path, b ∈ S)
    (heq : claimed h 1 entry index path = rootWithin h fuel [e]) :
    [e][index]? = some entry ∧ path.reverse = pathWithin h fuel [e] index := by
  rw [pathLengthWithin_one] at hlen
  obtain rfl := List.length_eq_zero_iff.mp hlen
  obtain rfl : index = 0 := by omega
  have hroot : rootWithin h fuel [e] = h.leafHash e := by cases fuel <;> rfl
  have hpre : preimagesWithin h fuel [e] = [h.leaf e] := by cases fuel <;> rfl
  have hpath : pathWithin h fuel [e] 0 = [] := by cases fuel <;> rfl
  rw [hroot] at heq
  rw [hpre] at hentries
  have hsame := hS (hclaimed _ (List.mem_singleton_self _)) (hentries _ (List.mem_singleton_self _)) heq
  rw [hpath, hread.leaf hsame]
  exact ⟨rfl, rfl⟩

/-- **A path that claims a tree's root is the tree's own**, and so is the entry: the two hash the same
    bytes from the root down. -/
theorem pathWithin_of_claimed (hread : h.Readable) {S : Set β} (hS : Set.InjOn h.hash S) {fuel : ℕ}
    {entries : List α} {entry : α} {index : ℕ} {path : List δ} (hfuel : entries.length ≤ fuel + 1)
    (hindex : index < entries.length) (hlen : path.length = pathLengthWithin fuel index entries.length)
    (hentries : ∀ b ∈ preimagesWithin h fuel entries, b ∈ S)
    (hclaimed : ∀ b ∈ claimedPreimages h entries.length entry index path, b ∈ S)
    (heq : claimed h entries.length entry index path = rootWithin h fuel entries) :
    entries[index]? = some entry ∧ path.reverse = pathWithin h fuel entries index := by
  induction fuel generalizing entries index path with
  | zero =>
      match entries, hindex, hfuel with
      | [e], hindex, _ => exact pathWithin_of_claimed_single hread hS hindex hlen hentries hclaimed heq
  | succ fuel ih =>
      match entries, hindex with
      | [e], hindex => exact pathWithin_of_claimed_single hread hS hindex hlen hentries hclaimed heq
      | e :: e' :: rest, hindex =>
          generalize hE : e :: e' :: rest = entries at hfuel hindex hlen hentries hclaimed heq ⊢
          have h2 : 2 ≤ entries.length := by rw [← hE]; simp
          have hlt := splitPoint_lt h2
          have hpos := splitPoint_pos h2
          have htake : (entries.take (splitPoint entries.length)).length = splitPoint entries.length :=
            List.length_take_of_le hlt.le
          have hdrop : (entries.drop (splitPoint entries.length)).length
              = entries.length - splitPoint entries.length := List.length_drop
          rw [pathLengthWithin_split h2] at hlen
          rw [preimagesWithin_split h fuel h2] at hentries
          rw [rootWithin_split h fuel h2] at heq
          rw [pathWithin_split h fuel h2]
          match path, hlen with
          | [], hlen => rw [List.length_nil] at hlen; omega
          | sibling :: below, hlen =>
              rw [claimedPreimages] at hclaimed
              rw [claimed] at heq
              have hbelow : below.length = if index < splitPoint entries.length then
                  pathLengthWithin fuel index (splitPoint entries.length)
                  else pathLengthWithin fuel (index - splitPoint entries.length)
                    (entries.length - splitPoint entries.length) := by
                rw [List.length_cons] at hlen
                omega
              by_cases hside : index < splitPoint entries.length
              · rw [if_pos hside] at heq hbelow ⊢
                rw [if_pos hside] at hclaimed
                obtain ⟨hleft, hright⟩ := hread.node _ _ _ _ (hS (hclaimed _ (List.mem_cons_self ..))
                  (hentries _ (List.mem_cons_self ..)) heq)
                have hwithin : index < (entries.take (splitPoint entries.length)).length := by omega
                obtain ⟨hentry, hpath⟩ := ih (by omega) hwithin (by rw [htake]; exact hbelow)
                  (fun b hb => hentries b (List.mem_cons_of_mem _ (List.mem_append_left _ hb)))
                  (fun b hb => hclaimed b (List.mem_cons_of_mem _ (by rwa [htake] at hb)))
                  (by rw [htake]; exact hleft)
                rw [List.getElem?_take, if_pos hside] at hentry
                refine ⟨hentry, ?_⟩
                rw [List.reverse_cons, hpath, hright, rootWithin_eq h (by omega)]
              · rw [if_neg hside] at heq hbelow ⊢
                rw [if_neg hside] at hclaimed
                obtain ⟨hleft, hright⟩ := hread.node _ _ _ _ (hS (hclaimed _ (List.mem_cons_self ..))
                  (hentries _ (List.mem_cons_self ..)) heq)
                rw [← hdrop] at hright hbelow
                obtain ⟨hentry, hpath⟩ := ih (by omega) (by omega) hbelow
                  (fun b hb => hentries b (List.mem_cons_of_mem _ (List.mem_append_right _ hb)))
                  (fun b hb => hclaimed b (List.mem_cons_of_mem _ (hdrop ▸ hb))) hright
                rw [List.getElem?_drop, show splitPoint entries.length
                  + (index - splitPoint entries.length) = index by omega] at hentry
                refine ⟨hentry, ?_⟩
                rw [List.reverse_cons, hpath, hleft, rootWithin_eq h (by omega)]

/-- **An audit path binds**: one that climbs to the root of a tree is that of the tree's own entry,
    where the hash function has no collision on what the two hash. -/
theorem inclusionProof_of_climb (hread : h.Readable) {entries : List α} {entry : α} {index : ℕ}
    {path : List δ} (hindex : index < entries.length)
    (hlen : path.length = auditPathLength index entries.length)
    (hS : Set.InjOn h.hash {b | b ∈ preimages h entries ∨
      b ∈ claimedPreimages h entries.length entry index path.reverse})
    (heq : climb h entry index (entries.length - 1) path = root h entries) :
    entries[index]? = some entry ∧ inclusionProof h entries index = some path := by
  rw [climb_eq_claimed h hindex hlen] at heq
  have hfuel : entries.length ≤ entries.length + 1 := by omega
  obtain ⟨hentry, hpath⟩ := pathWithin_of_claimed hread hS hfuel hindex
    (by rw [List.length_reverse]; exact hlen) (fun b hb => .inl hb) (fun b hb => .inr hb) heq
  rw [List.reverse_reverse] at hpath
  rw [inclusionProof, if_pos hindex, hpath]
  exact ⟨hentry, rfl⟩

-- ── Named entries ────────────────────────────────────────────────────────────────

variable {γ : Type} (h : Hashing α δ β) (g : γ → α)

theorem pathWithin_comap (fuel : ℕ) (entries : List γ) (index : ℕ) :
    pathWithin (h.comap g) fuel entries index = pathWithin h fuel (entries.map g) index := by
  induction fuel generalizing entries index with
  | zero =>
      match entries with
      | [] => rfl
      | [a] => rfl
      | a :: b :: rest => rfl
  | succ fuel ih =>
      match entries with
      | [] => rfl
      | [a] => rfl
      | a :: b :: rest =>
          have h2 : 2 ≤ (a :: b :: rest).length := by simp
          rw [pathWithin_split _ fuel h2, pathWithin_split h fuel (by rw [List.length_map]; exact h2), ih, ih,
            root_comap, root_comap, List.map_take, List.map_drop, List.length_map]

/-- The audit path of a named entry is the entry's. -/
theorem inclusionProof_comap (entries : List γ) (index : ℕ) :
    inclusionProof (h.comap g) entries index = inclusionProof h (entries.map g) index := by
  rw [inclusionProof, inclusionProof, List.length_map, pathWithin_comap]

end MerkleTree
