import Sigillo.Crypto

/-!
# Chains of receipts

What makes a list of receipts one system's chain: each stands at its own position, and carries as
`prev_hash` the hash of the receipt before it. The chain says this of every prefix at once, so what
is proved of one receipt after its predecessors is proved of every run, every window and every
copy of the chain. -/

namespace Sigillo

open DoubleArith HexBase64

variable (c : Crypto)

/-- The `prev_hash` of the receipt that comes after these. -/
def prevHashAfter (before : List Receipt) : Hex 64 :=
  match before.getLast? with
  | none => GENESIS_PREV_HASH
  | some last => receiptHashHex c last.toUnsignedReceipt

/-- **The next receipt of a chain.** -/
structure Follows (systemId : SystemId) (before : List Receipt) (r : UnsignedReceipt) : Prop where
  systemId : r.systemId = systemId
  seq : r.seq.1 = before.length
  genesis : r.seq.1 = 0 ↔ r.action.kind = .genesis
  prevHash : r.prevHash = prevHashAfter c before

/-- **A chain**: every receipt of it is the next one after those before it. -/
def IsChain (systemId : SystemId) (chain : List Receipt) : Prop :=
  ∀ n r, chain[n]? = some r → Follows c systemId (chain.take n) r.toUnsignedReceipt

/-- The entries of the Merkle tree over some receipts. -/
def receiptHashes (receipts : List Receipt) : List Digest :=
  receipts.map fun r => receiptHash c r.toUnsignedReceipt

/-- The receipts of one system, in the order they were committed. -/
def chainOf (committed : List Receipt) (systemId : SystemId) : List Receipt :=
  committed.filter fun r => decide (r.systemId = systemId)

@[simp] theorem length_receiptHashes (receipts : List Receipt) :
    (receiptHashes c receipts).length = receipts.length := List.length_map _

theorem receiptHashes_take (receipts : List Receipt) (n : ℕ) :
    receiptHashes c (receipts.take n) = (receiptHashes c receipts).take n := List.map_take

theorem prevHashAfter_take {chain : List Receipt} {n : ℕ} {p : Receipt} (h : chain[n]? = some p) :
    prevHashAfter c (chain.take (n + 1)) = receiptHashHex c p.toUnsignedReceipt := by
  have hlast : (chain.take (n + 1)).getLast? = some p := by
    obtain ⟨hn, rfl⟩ := List.getElem?_eq_some_iff.mp h
    rw [List.take_succ_eq_append_getElem hn, List.getLast?_append, List.getLast?_singleton]
    rfl
  rw [prevHashAfter, hlast]

-- ── One receipt more ─────────────────────────────────────────────────────────────

variable {c}

theorem isChain_nil (systemId : SystemId) : IsChain c systemId [] := by
  intro n r h
  cases h

/-- **The next receipt makes a longer chain.** -/
theorem IsChain.append {systemId : SystemId} {chain : List Receipt} {r : Receipt}
    (hchain : IsChain c systemId chain)
    (hr : Follows c systemId chain r.toUnsignedReceipt) : IsChain c systemId (chain ++ [r]) := by
  intro n s hs
  rcases lt_trichotomy n chain.length with hlt | heq | hgt
  · rw [List.getElem?_append_left hlt] at hs
    rw [List.take_append_of_le_length hlt.le]
    exact hchain n s hs
  · rw [heq, List.getElem?_concat_length] at hs
    obtain rfl := Option.some.inj hs
    rwa [heq, List.take_left]
  · rw [List.getElem?_eq_none (by rw [List.length_append, List.length_singleton]; omega)] at hs
    cases hs

/-- The first receipts of a chain are a chain. -/
theorem IsChain.take {systemId : SystemId} {chain : List Receipt} (h : IsChain c systemId chain)
    (n : ℕ) : IsChain c systemId (chain.take n) := by
  intro m r hr
  rw [List.getElem?_take] at hr
  split_ifs at hr with hm
  rw [List.take_take, min_eq_left hm.le]
  exact h m r hr

theorem IsChain.seq_eq {systemId : SystemId} {chain : List Receipt} (h : IsChain c systemId chain)
    {n : ℕ} {r : Receipt} (hr : chain[n]? = some r) : r.seq.1 = n := by
  obtain ⟨hn, -⟩ := List.getElem?_eq_some_iff.mp hr
  rw [(h n r hr).seq, List.length_take, min_eq_left hn.le]

/-- **A chain holds one receipt at each position.** -/
theorem IsChain.eq_of_seq {systemId : SystemId} {chain : List Receipt}
    (h : IsChain c systemId chain) {r s : Receipt} (hr : r ∈ chain) (hs : s ∈ chain)
    (hseq : r.seq.1 = s.seq.1) : r = s := by
  obtain ⟨m, hm⟩ := List.mem_iff_getElem?.mp hr
  obtain ⟨n, hn⟩ := List.mem_iff_getElem?.mp hs
  have hmn : m = n := by rw [← h.seq_eq hm, hseq, h.seq_eq hn]
  rw [hmn, hn] at hm
  exact (Option.some.inj hm).symm

/-- Positions are numbers a double holds, so no chain is longer than `2 ^ 53 + 1`. -/
theorem IsChain.length_le {systemId : SystemId} {chain : List Receipt}
    (h : IsChain c systemId chain) : chain.length ≤ 2 ^ 53 + 1 := by
  by_contra hlong
  have hlt : 2 ^ 53 + 1 < chain.length := by omega
  have hseq := h.seq_eq (List.getElem?_eq_getElem hlt)
  have hdouble := (chain[2 ^ 53 + 1]).seq.2.1
  rw [hseq] at hdouble
  exact absurd hdouble (by decide +kernel)

-- ── Chains by system ─────────────────────────────────────────────────────────────

theorem mem_chainOf {committed : List Receipt} {systemId : SystemId} {r : Receipt} :
    r ∈ chainOf committed systemId ↔ r ∈ committed ∧ r.systemId = systemId := by
  simp [chainOf]

theorem chainOf_append (committed more : List Receipt) (systemId : SystemId) :
    chainOf (committed ++ more) systemId = chainOf committed systemId ++ chainOf more systemId :=
  List.filter_append ..

theorem chainOf_append_self {committed : List Receipt} {r : Receipt} :
    chainOf (committed ++ [r]) r.systemId = chainOf committed r.systemId ++ [r] := by
  simp [chainOf]

theorem chainOf_append_of_ne {committed : List Receipt} {systemId : SystemId} {r : Receipt}
    (h : systemId ≠ r.systemId) : chainOf (committed ++ [r]) systemId = chainOf committed systemId := by
  simp [chainOf, Ne.symm h]

end Sigillo
