import Sigillo.EcmaText
import Sigillo.Fallible
import Sigillo.SignerFiles

/-!
# A frontier, its tree and its text

* **`frontier_of_entries`** — entries appended one after another give the frontier of their tree,
  which is read back from what it is written as;
* **`parseFrontier_nodes`** — whatever is read holds a node for each set bit of its size;
* **`parseFrontier_iff`** — a frontier is read from its own object only, in either order of members,
  which is what the signer's schema reads too (**`frontierSchema_decode_iff`**). -/

namespace Sigillo

open DoubleArith Utf16Text JsonText JsonParse HexBase64 EcmaText Fallible AssocList

-- ── Reading a frontier ───────────────────────────────────────────────────────────

/-- A whole size, 0 or more. -/
def frontierSize : Option Json → Option ℕ
  | some (.num x) => if isSafeInteger x then x.toNat? else none
  | _ => none

/-- One node, 64 lower-case hexadecimal digits. -/
def frontierNode : Json → Except JsString Digest
  | .str s =>
      if h : IsHex 64 s then .ok (digestOfHex ⟨s, h⟩)
      else .error (js "a frontier's nodes are 64 " ++ js "lowercase hex characters each")
  | _ => .error (js "a frontier's nodes are 64 " ++ js "lowercase hex characters each")

/-- The frontier of a size and its nodes, where there are as many as the size has set bits. -/
def frontierOfNodes (size : ℕ) : Option Json → Except JsString MerkleFrontier
  | some (.arr nodes) =>
      if nodes.length = MerkleTree.setBits size then
        (nodes.mapM frontierNode).map fun nodes => ⟨size, nodes⟩
      else .error (js "a frontier of size " ++ countText size ++ js " holds exactly "
        ++ countText (MerkleTree.setBits size) ++ js " nodes")
  | _ => .error (js "a frontier of size " ++ countText size ++ js " holds exactly "
      ++ countText (MerkleTree.setBits size) ++ js " nodes")

/-- **`parseFrontier`.** -/
def parseFrontier : Json → Except JsString MerkleFrontier
  | .obj members =>
      if (members.map Prod.fst).mergeSort lexLe = [js "nodes", js "size"] then
        match frontierSize (members.lookup (js "size")) with
        | none => .error (js "a frontier's size must be " ++ js "a whole number, 0 or more")
        | some size => frontierOfNodes size (members.lookup (js "nodes"))
      else .error (js "a frontier has exactly " ++ js "two members, size and nodes")
  | _ => .error (js "a frontier must be an object")

-- ── What is accepted ─────────────────────────────────────────────────────────────

/-- A node is read from its own text only. -/
theorem frontierNode_eq_ok {v : Json} {node : Digest} : frontierNode v = .ok node ↔ v = .str node.hex.1 := by
  cases v with
  | str s =>
      rw [frontierNode, Json.str.injEq]
      by_cases hs : IsHex 64 s
      · rw [dif_pos hs]
        constructor
        · intro h
          rw [← Except.ok.inj h, hex_digestOfHex]
        · rintro rfl
          exact congrArg Except.ok (digestOfHex_hex node)
      · rw [dif_neg hs]
        exact iff_of_false (fun h => by cases h) fun h => hs (h ▸ node.hex.2)
  | null | bool _ | num _ | arr _ | obj _ => exact iff_of_false (fun h => by cases h) (fun h => by cases h)

/-- Nodes are read from their own texts only. -/
theorem mapM_frontierNode {items : List Json} {nodes : List Digest} :
    items.mapM frontierNode = .ok nodes ↔ items = nodes.map fun node => .str node.hex.1 := by
  rw [mapM_eq_ok]
  simp only [frontierNode_eq_ok]
  rw [← List.forall₂_map_right_iff (f := fun node : Digest => Json.str node.hex.1) (R := fun a b => a = b),
    List.forall₂_eq_eq_eq]

/-- What `parseFrontier` finds by the time it answers. -/
theorem parseFrontier_eq_ok {value : Json} {f : MerkleFrontier} (h : parseFrontier value = .ok f) :
    ∃ members, value = .obj members ∧ (members.map Prod.fst).Perm [js "nodes", js "size"] ∧
      f.size ≤ 2 ^ 53 - 1 ∧ f.nodes.length = MerkleTree.setBits f.size ∧
      members.lookup (js "size") = some (.num (.ofNat f.size)) ∧
      members.lookup (js "nodes") = some (.arr (f.nodes.map fun node => .str node.hex.1)) := by
  cases value with
  | obj members =>
      by_cases hkeys : (members.map Prod.fst).mergeSort lexLe = [js "nodes", js "size"]
      · rw [parseFrontier, if_pos hkeys] at h
        have hperm : (members.map Prod.fst).Perm [js "nodes", js "size"] :=
          (List.mergeSort_perm _ lexLe).symm.trans (.of_eq hkeys)
        match hsize : members.lookup (js "size"), h with
        | some (.num x), h =>
            rw [frontierSize] at h
            by_cases hsafe : isSafeInteger x = true
            · rw [if_pos hsafe] at h
              cases hx : x.toNat? with
              | none =>
                  rw [hx] at h
                  cases h
              | some size =>
                  rw [hx] at h
                  change frontierOfNodes size (members.lookup (js "nodes")) = .ok f at h
                  obtain ⟨hdouble, rfl⟩ := JsNumber.toNat?_eq_some hx
                  have hsmall : size < 2 ^ 53 := by
                    rw [isSafeInteger, decide_eq_true_eq, abs_of_nonneg (Nat.cast_nonneg size)] at hsafe
                    exact_mod_cast hsafe.2
                  match hnodes : members.lookup (js "nodes"), h with
                  | some (.arr items), h =>
                      rw [frontierOfNodes] at h
                      split_ifs at h with hlen
                      obtain ⟨nodes, hread, rfl⟩ := map_eq_ok.mp h
                      refine ⟨members, rfl, hperm, Nat.le_sub_one_of_lt hsmall, (length_mapM hread).trans hlen, ?_, ?_⟩
                      · rw [hsize, JsNumber.ofNat_of_isDouble hdouble]
                      · rw [hnodes, mapM_frontierNode.mp hread]
                  | none, h | some .null, h | some (.bool _), h | some (.num _), h | some (.str _), h
                  | some (.obj _), h => cases h
            · rw [if_neg hsafe] at h
              cases h
        | none, h | some .null, h | some (.bool _), h | some (.str _), h | some (.arr _), h
        | some (.obj _), h => cases h
      · rw [parseFrontier, if_neg hkeys] at h
        cases h
  | null | bool _ | num _ | str _ | arr _ => cases h

/-- **Whatever is read holds a node for each set bit of its size.** -/
theorem parseFrontier_nodes {value : Json} {f : MerkleFrontier} (h : parseFrontier value = .ok f) :
    f.nodes.length = MerkleTree.setBits f.size := by
  obtain ⟨_, -, -, -, hnodes, -⟩ := parseFrontier_eq_ok h
  exact hnodes

-- ── What is written ──────────────────────────────────────────────────────────────

/-- The two members, in whatever order they stand. -/
theorem sorted_frontier_keys {keys : List JsString} (h : keys.Perm [js "nodes", js "size"]) :
    keys.mergeSort lexLe = [js "nodes", js "size"] := by
  have hperm : (keys.mergeSort lexLe).Perm [js "nodes", js "size"] := (List.mergeSort_perm _ _).trans h
  have hsorted : ∀ keys : List JsString, (keys.mergeSort lexLe).Pairwise fun a b => lexLe a b = true :=
    List.pairwise_mergeSort (fun _ _ _ => lexLe_trans) lexLe_total
  exact hperm.eq_of_pairwise (fun _ _ _ _ => lexLe_antisymm) (hsorted _) (by decide)

theorem frontierSize_ofNat {n : ℕ} (h : n < 2 ^ 53) : frontierSize (some (.num (.ofNat n))) = some n := by
  have hdouble : IsDouble (n : ℚ) := isDouble_natCast (Nat.le_of_lt h)
  have hsafe : isSafeInteger (.ofNat n) = true := by
    rw [JsNumber.ofNat_of_isDouble hdouble, isSafeInteger]
    refine decide_eq_true ⟨rfl, ?_⟩
    rw [abs_of_nonneg (Nat.cast_nonneg n)]
    exact_mod_cast h
  rw [frontierSize, if_pos hsafe, JsNumber.toNat?_ofNat hdouble]

/-- **A frontier's object is read**, whichever of its two members stands first. -/
theorem parseFrontier_of_members {members : List (JsString × Json)} {f : MerkleFrontier}
    (hkeys : (members.map Prod.fst).Perm [js "nodes", js "size"]) (hsize : f.size < 2 ^ 53)
    (hnodes : f.nodes.length = MerkleTree.setBits f.size)
    (hsizeAt : members.lookup (js "size") = some (.num (.ofNat f.size)))
    (hnodesAt : members.lookup (js "nodes") = some (.arr (f.nodes.map fun node => .str node.hex.1))) :
    parseFrontier (.obj members) = .ok f := by
  rw [parseFrontier, if_pos (sorted_frontier_keys hkeys), hsizeAt, frontierSize_ofNat hsize]
  show frontierOfNodes f.size (members.lookup (js "nodes")) = _
  rw [hnodesAt, frontierOfNodes, List.length_map, if_pos hnodes, mapM_frontierNode.mpr rfl]
  rfl

/-- **A frontier is read back from what it is written as.** -/
theorem parseFrontier_serializeFrontier {f : MerkleFrontier} (hsize : f.size < 2 ^ 53)
    (hnodes : f.nodes.length = MerkleTree.setBits f.size) :
    parseFrontier (serializeFrontier f) = .ok f :=
  parseFrontier_of_members (List.Perm.swap _ _ _) hsize hnodes rfl rfl

-- ── The two readings ─────────────────────────────────────────────────────────────

/-- What sorts to a number or a list of strings is one. -/
theorem sortKeys_eq_num {v : Json} {x : JsNumber} (h : sortKeys v = .num x) : v = .num x := by
  cases v with
  | num y => exact h
  | arr items => rw [sortKeys_arr] at h; cases h
  | obj members => rw [sortKeys_obj] at h; cases h
  | _ => cases h

theorem sortKeys_eq_str {v : Json} {s : JsString} (h : sortKeys v = .str s) : v = .str s := by
  cases v with
  | str t => exact h
  | arr items => rw [sortKeys_arr] at h; cases h
  | obj members => rw [sortKeys_obj] at h; cases h
  | _ => cases h

theorem sortKeys_eq_strings {v : Json} {nodes : List Digest}
    (h : sortKeys v = sortKeys (.arr (nodes.map fun node => .str node.hex.1))) :
    v = .arr (nodes.map fun node => .str node.hex.1) := by
  have hstrings : (nodes.map fun node => Json.str node.hex.1).map sortKeys
      = nodes.map fun node => .str node.hex.1 := by
    rw [List.map_map]
    rfl
  rw [sortKeys_arr, hstrings] at h
  cases v with
  | arr items =>
      rw [sortKeys_arr, Json.arr.injEq] at h
      have hitems : items.map sortKeys = items.map id := List.map_congr_left fun item hitem => by
        have hmem : sortKeys item ∈ nodes.map fun node => Json.str node.hex.1 := h ▸ List.mem_map_of_mem hitem
        obtain ⟨node, -, hnode⟩ := List.mem_map.mp hmem
        rw [sortKeys_eq_str hnode.symm]
        rfl
      rw [List.map_id] at hitems
      rw [← hitems, h]
  | obj members => rw [sortKeys_obj] at h; cases h
  | _ => cases h

/-- **A frontier is read from its own object only**, with the members in either order. -/
theorem parseFrontier_iff {value : Json} (hvalue : KeysDistinct value) {f : MerkleFrontier} :
    parseFrontier value = .ok f ↔ f.size ≤ 2 ^ 53 - 1 ∧ f.nodes.length = MerkleTree.setBits f.size ∧
      sortKeys value = sortKeys (serializeFrontier f) := by
  have hwritten : ([(js "size", Json.num (.ofNat f.size)),
      (js "nodes", .arr (f.nodes.map fun node => .str node.hex.1))].map Prod.fst).Nodup := by
    show [js "size", js "nodes"].Nodup
    decide
  constructor
  · intro h
    obtain ⟨members, rfl, hperm, hsize, hnodes, hlookup, hlookup'⟩ := parseFrontier_eq_ok h
    refine ⟨hsize, hnodes, (sortKeys_obj_iff hvalue.members.2 hwritten).mpr fun k => ?_⟩
    by_cases hk : k ∈ [js "nodes", js "size"]
    · rcases List.mem_pair.mp hk with rfl | rfl
      · rw [hlookup']
        rfl
      · rw [hlookup]
        rfl
    · rw [lookup_of_not_mem fun hmem => hk (hperm.subset hmem), lookup_of_not_mem fun hmem => hk ?_]
      exact (List.Perm.swap _ _ _).subset hmem
  · rintro ⟨hsize, hnodes, hsorted⟩
    cases value with
    | obj members =>
        have hnodup := hvalue.members.2
        have hlookup := (sortKeys_obj_iff hnodup hwritten).mp hsorted
        obtain ⟨size, hsizeAt, hsizeIs⟩ := Option.map_eq_some_iff.mp (hlookup (js "size"))
        obtain ⟨nodes, hnodesAt, hnodesAre⟩ := Option.map_eq_some_iff.mp (hlookup (js "nodes"))
        have hkeys : (members.map Prod.fst).Perm [js "nodes", js "size"] := by
          refine (List.perm_ext_iff_of_nodup hnodup (by decide)).mpr fun k => ⟨fun hk => ?_, fun hk => ?_⟩
          · by_contra hother
            obtain ⟨m, hm, rfl⟩ := List.mem_map.mp hk
            have hsome := hlookup m.1
            rw [(lookup_eq_some_iff_mem hnodup).mpr hm, lookup_of_not_mem fun hmem => hother ?_] at hsome
            · cases hsome
            · exact (List.Perm.swap _ _ _).subset hmem
          · rcases List.mem_pair.mp hk with rfl | rfl
            · exact List.mem_map.mpr ⟨_, (lookup_eq_some_iff_mem hnodup).mp hnodesAt, rfl⟩
            · exact List.mem_map.mpr ⟨_, (lookup_eq_some_iff_mem hnodup).mp hsizeAt, rfl⟩
        refine parseFrontier_of_members hkeys (by omega) hnodes ?_ ?_
        · rw [hsizeAt, sortKeys_eq_num hsizeIs]
        · rw [hnodesAt, sortKeys_eq_strings hnodesAre]
    | _ => cases hsorted

/-- **The signer's schema and `parseFrontier` read the same frontiers.** -/
theorem frontierSchema_decode_iff {value : Json} (hvalue : KeysDistinct value) {f : WholeFrontier} :
    frontierSchema.decode value = some f ↔ parseFrontier value = .ok f.frontier := by
  have hnodes : f.frontier.nodes.length = MerkleTree.setBits f.frontier.size := by
    rw [WholeFrontier.frontier, List.length_map]
    exact f.2
  have hsame : wholeFrontier f.frontier f.1.1.2.2 hnodes = f := by
    refine Subtype.ext (Prod.ext rfl ?_)
    show (f.1.2.map digestOfHex).map Digest.hex = f.1.2
    rw [List.map_map]
    exact List.map_id'' (fun h => hex_digestOfHex h) f.1.2
  rw [frontierSchema.decode_iff hvalue, parseFrontier_iff hvalue, serializeFrontier_eq f.1.1.2.2 hnodes, hsame]
  exact ⟨fun h => ⟨f.1.1.2.2, hnodes, h⟩, fun h => h.2.2⟩

-- ── Set bits ─────────────────────────────────────────────────────────────────────

theorem bitsFrom_eq {fuel n : ℕ} (h : n ≤ fuel) :
    MerkleTree.bitsFrom fuel n = (Nat.digits 2 n).count 1 := by
  induction fuel generalizing n with
  | zero =>
      obtain rfl := Nat.le_zero.mp h
      rfl
  | succ fuel ih =>
      by_cases hzero : n = 0
      · subst hzero
        rfl
      · rw [MerkleTree.bitsFrom, if_neg hzero, ih (by omega),
          Nat.digits_def' (by decide) (Nat.pos_of_ne_zero hzero), List.count_cons]
        rcases Nat.mod_two_eq_zero_or_one n with heven | hodd
        · rw [heven, Nat.zero_add]
          rfl
        · rw [hodd, Nat.add_comm]
          rfl

/-- Halving counts the ones of the binary digits. -/
theorem setBits_eq (n : ℕ) : MerkleTree.setBits n = (Nat.digits 2 n).count 1 := bitsFrom_eq (le_refl n)

-- ── The frontier of a list ───────────────────────────────────────────────────────

variable (c : Crypto)

/-- Entries appended to a frontier of those before them. -/
theorem foldlM_frontierAppend {f : MerkleFrontier} {before : List Digest}
    (hf : MerkleTree.IsFrontier c.tree f before) (entries : List Digest) :
    ∃ f', entries.foldlM (frontierAppend c) f = some f' ∧
      MerkleTree.IsFrontier c.tree f' (before ++ entries) := by
  induction entries generalizing f before with
  | nil => exact ⟨f, rfl, by rwa [List.append_nil]⟩
  | cons entry entries ih =>
      obtain ⟨next, happend, hnext⟩ := MerkleTree.frontierAppend_spec c.tree hf entry
      obtain ⟨f', hfold, hf'⟩ := ih hnext
      refine ⟨f', ?_, ?_⟩
      · rw [List.foldlM_cons, frontierAppend, happend]
        exact hfold
      · rwa [List.append_assoc, List.singleton_append] at hf'

/-- **The frontier of a list**: appending never fails, the size is the list's, the nodes are as many
    as it has set bits, the root is that of the whole tree, and a size that a number holds is read
    back; and nothing is read that is not of this form. -/
theorem frontier_of_entries :
    (∀ entries : List Digest, ∃ f,
      entries.foldlM (frontierAppend c) MerkleTree.emptyFrontier = some f ∧
      f.size = entries.length ∧ f.nodes.length = (Nat.digits 2 f.size).count 1 ∧
      frontierRoot c f = merkleRoot c entries ∧
      (f.size < 2 ^ 53 → parseFrontier (serializeFrontier f) = .ok f)) ∧
    ∀ value f, parseFrontier value = .ok f → f.nodes.length = (Nat.digits 2 f.size).count 1 := by
  constructor
  · intro entries
    obtain ⟨f, hfold, hf⟩ := foldlM_frontierAppend c (MerkleTree.isFrontier_empty c.tree) entries
    rw [List.nil_append] at hf
    have hnodes := hf.length_nodes
    refine ⟨f, hfold, hf.1, ?_, MerkleTree.frontierRoot_eq c.tree hf, fun hsize =>
      parseFrontier_serializeFrontier hsize hnodes⟩
    rw [← setBits_eq]
    exact hnodes
  · intro value f h
    rw [← setBits_eq]
    exact parseFrontier_nodes h

end Sigillo
