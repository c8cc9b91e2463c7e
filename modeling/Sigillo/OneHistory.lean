import Sigillo.Exporter
import Sigillo.StoredReceipts

/-!
# One history behind two exports

Two accepted exports that agree on a receipt, or on the root of a tree rebuilt from their receipts,
should agree on everything before it. They do exactly when neither holds two different receipts at
one position (**`oneHistory_iff`**). The verifier counts positions as doubles, and beyond 2 ^ 53 its
count stands still for two receipts at a time: there it accepts a repeated position. Below, it
cannot (**`singleAt_of_small`**). -/

namespace Sigillo

open DoubleArith Utf16Text JsonText JsonParse HexBase64 IsoTime

variable (c : Crypto)

-- ── Meeting points ───────────────────────────────────────────────────────────────

/-- What is hashed for the receipts of an export and for the trees rebuilt from them. -/
def occurring (v : Verified) : Set Bytes :=
  hashedBytes v.receipts ∪
    {b | ∃ l ∈ v.linkedCheckpoints, rebuildable v.receipts l.entry.checkpoint.treeSize.1 = true ∧
      b ∈ MerkleTree.preimages c.tree ((v.receipts.take l.entry.checkpoint.treeSize.1).map fun r =>
        receiptHash c r.toUnsignedReceipt)}

/-- **The two exports agree at a point**, and should agree on every position below it: on a
    receipt, or on a root rebuilt from the receipts of each. -/
inductive Meet (v w : Verified) : ℕ → Prop where
  | receipt (a b : Receipt) : a ∈ v.receipts → b ∈ w.receipts → a.seq = b.seq →
      receiptHashHex c a.toUnsignedReceipt = receiptHashHex c b.toUnsignedReceipt →
      Meet v w (a.seq.1 + 1)
  | root (k l : LinkedCheckpoint) : k ∈ v.linkedCheckpoints → l ∈ w.linkedCheckpoints →
      rebuildable v.receipts k.entry.checkpoint.treeSize.1 = true →
      rebuildable w.receipts l.entry.checkpoint.treeSize.1 = true →
      k.entry.checkpoint.treeSize = l.entry.checkpoint.treeSize →
      k.entry.checkpoint.rootHash = l.entry.checkpoint.rootHash →
      Meet v w k.entry.checkpoint.treeSize.1

/-- **Below the point the two tell one history**: they agree on every position both hold, on every
    member but the signature, and neither leaves out a position after the first of both. -/
structure OneHistory (xs ys : List Receipt) (bound : ℕ) : Prop where
  same : ∀ a ∈ xs, ∀ b ∈ ys, a.seq = b.seq → a.seq.1 < bound →
    a.toUnsignedReceipt = b.toUnsignedReceipt
  complete : ∀ n : Count, n.1 < bound → (∃ a ∈ xs, a.seq.1 ≤ n.1) → (∃ b ∈ ys, b.seq.1 ≤ n.1) →
    (∃ a ∈ xs, a.seq = n) ∧ ∃ b ∈ ys, b.seq = n

/-- No position below the point, of those the other holds too, stands for two different receipts. -/
def SingleAt (xs others : List Receipt) (bound : ℕ) : Prop :=
  ∀ a ∈ xs, ∀ b ∈ xs, a.seq = b.seq → a.seq.1 < bound → (∃ r ∈ others, r.seq = a.seq) →
    a.toUnsignedReceipt = b.toUnsignedReceipt

variable {c}

/-- **Up to 2 ^ 53 no position stands twice.** -/
theorem singleAt_of_small {first : Receipt} {xs : List Receipt} (h : SoundReceipts c first xs)
    (hsmall : first.seq.1 + xs.length ≤ 2 ^ 53 + 1) (others : List Receipt) (bound : ℕ) :
    SingleAt xs others bound := by
  intro a ha b hb hab _ _
  obtain ⟨i, hi⟩ := List.mem_iff_getElem?.mp ha
  obtain ⟨j, hj⟩ := List.mem_iff_getElem?.mp hb
  have hilt := (List.getElem?_eq_some_iff.mp hi).1
  have hjlt := (List.getElem?_eq_some_iff.mp hj).1
  have hseq : a.seq.1 = b.seq.1 := congrArg Subtype.val hab
  rw [h.seq_eq_add hi (by omega), h.seq_eq_add hj (by omega)] at hseq
  obtain rfl : i = j := by omega
  rw [hi] at hj
  rw [Option.some.inj hj]

-- ── Down from a meeting point ────────────────────────────────────────────────────

section Runs

variable {xs ys : List Receipt} {bound : ℕ}

/-- What agrees with one receipt of a position agrees with any, where the position stands once. -/
theorem same_of_same {a b b' : Receipt} (hys : SingleAt ys xs bound) (ha : a ∈ xs) (hb : b ∈ ys)
    (hb' : b' ∈ ys) (hab : a.seq = b.seq) (hlt : a.seq.1 < bound)
    (hsame : a.toUnsignedReceipt = b'.toUnsignedReceipt) :
    a.toUnsignedReceipt = b.toUnsignedReceipt := by
  have hseq : a.seq = b'.seq := congrArg (fun u => u.seq) hsame
  exact hsame.trans (hys b' hb' b hb (hseq.symm.trans hab) (by rwa [← hseq]) ⟨a, ha, hseq⟩)

variable {f g : Receipt} (hx : SoundReceipts c f xs) (hy : SoundReceipts c g ys)
include hx hy

/-- **From a receipt both hold**, down the links of both. -/
theorem same_below_receipt {S : Set Bytes} (hS : Set.InjOn c.sha256 S) (hxS : hashedBytes xs ⊆ S)
    (hyS : hashedBytes ys ⊆ S) {p q : Receipt} (hp : p ∈ xs) (hq : q ∈ ys)
    (hpq : p.toUnsignedReceipt = q.toUnsignedReceipt) (hxs : SingleAt xs ys (p.seq.1 + 1))
    (hys : SingleAt ys xs (p.seq.1 + 1)) {a b : Receipt} (ha : a ∈ xs) (hb : b ∈ ys)
    (hab : a.seq = b.seq) (hlt : a.seq.1 < p.seq.1 + 1) :
    a.toUnsignedReceipt = b.toUnsignedReceipt := by
  have hpqseq : p.seq = q.seq := congrArg (fun u => u.seq) hpq
  obtain ⟨i, hi⟩ := List.mem_iff_getElem?.mp hp
  obtain ⟨j, hj⟩ := List.mem_iff_getElem?.mp hq
  obtain ⟨k, hk⟩ := List.mem_iff_getElem?.mp ha
  obtain ⟨l, hl⟩ := List.mem_iff_getElem?.mp hb
  rcases Nat.lt_or_eq_of_le (Nat.lt_succ_iff.mp hlt) with hbelow | hat
  · have hki := hx.lt_of_seq_lt hk hi hbelow
    have hlj := hy.lt_of_seq_lt hl hj (by rw [← hab, ← hpqseq]; exact hbelow)
    have hilt := (List.getElem?_eq_some_iff.mp hi).1
    have hjlt := (List.getElem?_eq_some_iff.mp hj).1
    rcases Nat.le_total (i - k) (j - l) with hle | hle
    · -- as many steps down from `q` as lead from `p` to `a`
      have hother := List.getElem?_eq_getElem (show j - (i - k) < ys.length by omega)
      refine same_of_same hys ha hb (List.mem_of_getElem? hother) hab hlt ?_
      refine SoundReceipts.back hS hx hy hxS hyS (d := i - k) ?_ ?_ hpq hk hother
      · rwa [show k + (i - k) = i by omega]
      · rwa [show j - (i - k) + (i - k) = j by omega]
    · have hother := List.getElem?_eq_getElem (show i - (j - l) < xs.length by omega)
      refine (same_of_same hxs hb ha (List.mem_of_getElem? hother) hab.symm
        (by rwa [← hab]) ?_).symm
      refine (SoundReceipts.back hS hx hy hxS hyS (d := j - l) ?_ ?_ hpq hother hl).symm
      · rwa [show i - (j - l) + (j - l) = i by omega]
      · rwa [show l + (j - l) = j by omega]
  · have hapseq : a.seq = p.seq := Subtype.ext hat
    refine same_of_same hys ha hb hq hab hlt ?_
    rw [← hpq]
    exact hxs a ha p hp hapseq hlt ⟨q, hq, hpqseq.symm.trans hapseq.symm⟩

omit hy in
/-- **From a root both rebuild**: the tree binds its entries. -/
theorem same_below_root {S : Set Bytes} (hS : Set.InjOn c.sha256 S) (hxS : hashedBytes xs ⊆ S)
    (hyS : hashedBytes ys ⊆ S) {size : ℕ} (hdouble : IsDouble (size : ℚ))
    (hysize : size ≤ ys.length) (hf : f.seq.1 = 0)
    (htree : (xs.take size).map (fun r => receiptHash c r.toUnsignedReceipt)
      = (ys.take size).map fun r => receiptHash c r.toUnsignedReceipt)
    (hys : SingleAt ys xs size) {a b : Receipt} (ha : a ∈ xs) (hb : b ∈ ys)
    (hab : a.seq = b.seq) (hlt : a.seq.1 < size) :
    a.toUnsignedReceipt = b.toUnsignedReceipt := by
  obtain ⟨k, hk⟩ := List.mem_iff_getElem?.mp ha
  have hksize : k < size := by
    by_contra hge
    have hle := le_roundNat hdouble (not_lt.mp hge)
    rw [hx.seq k a hk, expectedSeqAt, hf, Nat.zero_add] at hlt
    omega
  have hother := List.getElem?_eq_getElem (show k < ys.length by omega)
  refine same_of_same hys ha hb (List.mem_of_getElem? hother) hab hlt ?_
  have hhash := congrArg (fun l => l[k]?) htree
  simp only [List.getElem?_map, List.getElem?_take_of_lt hksize, hk, hother, Option.map_some,
    Option.some.injEq] at hhash
  exact content_eq_of_hash hS hxS hyS ha (List.mem_of_getElem? hother) (congrArg Digest.hex hhash)

end Runs

theorem SoundReceipts.exists_between {f : Receipt} {xs : List Receipt} (hx : SoundReceipts c f xs)
    {n : Count} {a b : Receipt} (ha : a ∈ xs) (hb : b ∈ xs) (han : a.seq.1 ≤ n.1)
    (hnb : n.1 ≤ b.seq.1) : ∃ r ∈ xs, r.seq = n := by
  obtain ⟨last, hlast⟩ : ∃ last, xs.getLast? = some last :=
    Option.isSome_iff_exists.mp (by rw [List.getLast?_isSome]; exact hx.ne_nil)
  exact hx.exists_at hlast ((hx.first_le ha).trans han) (hnb.trans (hx.le_last hlast hb))

/-- A tree rebuilt from the receipts reaches every position below its size. -/
theorem SoundReceipts.exists_of_rebuildable {f : Receipt} {xs : List Receipt}
    (hx : SoundReceipts c f xs) {size : PosCount} (hre : rebuildable xs size.1 = true) :
    f.seq.1 = 0 ∧ size.1 ≤ xs.length ∧ ∃ r ∈ xs, ∀ n : Count, n.1 < size.1 → n.1 ≤ r.seq.1 := by
  simp only [rebuildable, hx.head, Option.map_some, Bool.and_eq_true, beq_iff_eq,
    Option.some.injEq, decide_eq_true_eq] at hre
  obtain ⟨hf, hle⟩ := hre
  have hpos := size.2.2
  have hat := List.getElem?_eq_getElem (show size.1 - 1 < xs.length by omega)
  refine ⟨hf, hle, _, List.mem_of_getElem? hat, fun n hn => ?_⟩
  rw [hx.seq _ _ hat, expectedSeqAt, hf, Nat.zero_add]
  exact le_roundNat n.2.1 (by omega)

/-- **Two accepted exports that meet tell one history below the point exactly when neither holds two
    different receipts at one position there.** -/
theorem oneHistory_iff {o o' : VerifyOptions} {b b' : Bundle} {v w : Verified}
    (hv : verifyBundle o c b = .ok v) (hw : verifyBundle o' c b' = .ok w)
    (hS : Set.InjOn c.sha256 (occurring c v ∪ occurring c w)) {bound : ℕ} (hmeet : Meet c v w bound) :
    OneHistory v.receipts w.receipts bound ↔
      SingleAt v.receipts w.receipts bound ∧ SingleAt w.receipts v.receipts bound := by
  obtain ⟨f, hx, -⟩ := soundReceipts_of_verifyBundle hv
  obtain ⟨g, hy, -⟩ := soundReceipts_of_verifyBundle hw
  have hxS : hashedBytes v.receipts ⊆ occurring c v ∪ occurring c w :=
    fun _ h => .inl (.inl h)
  have hyS : hashedBytes w.receipts ⊆ occurring c v ∪ occurring c w :=
    fun _ h => .inr (.inl h)
  constructor
  · intro h
    constructor
    · rintro p hp q hq hpq hlt ⟨r, hr, hrp⟩
      exact (h.same p hp r hr hrp.symm hlt).trans
        (h.same q hq r hr (hrp.trans hpq).symm (by rwa [← hpq])).symm
    · rintro p hp q hq hpq hlt ⟨r, hr, hrp⟩
      exact (h.same r hr p hp hrp (by rwa [hrp])).symm.trans
        (h.same r hr q hq (hrp.trans hpq) (by rwa [hrp]))
  · rintro ⟨hxs, hys⟩
    cases hmeet with
    | receipt p q hp hq hpq hhash =>
        have hcontent := content_eq_of_hash hS hxS hyS hp hq hhash
        refine ⟨fun a ha b hb hab hlt =>
          same_below_receipt hx hy hS hxS hyS hp hq hcontent hxs hys ha hb hab hlt, ?_⟩
        rintro n hn ⟨a, ha, han⟩ ⟨b, hb, hbn⟩
        exact ⟨hx.exists_between ha hp han (by omega),
          hy.exists_between hb hq hbn (by rw [← hpq]; omega)⟩
    | root k l hk hl hkre hlre hsize hroot =>
        obtain ⟨hf, hkle, p, hp, hpmax⟩ := hx.exists_of_rebuildable hkre
        obtain ⟨-, hlle, q, hq, hqmax⟩ := hy.exists_of_rebuildable hlre
        have htree : (v.receipts.take k.entry.checkpoint.treeSize.1).map
              (fun r => receiptHash c r.toUnsignedReceipt)
            = (w.receipts.take k.entry.checkpoint.treeSize.1).map
              fun r => receiptHash c r.toUnsignedReceipt := by
          have hroots := (rebuilt_of_verifyBundle hv hk hkre).trans
            (hroot.trans (rebuilt_of_verifyBundle hw hl hlre).symm)
          rw [← hsize] at hroots hlle hlre
          refine MerkleTree.root_injective c.readable_tree ?_ (hS.mono ?_)
            (Digest.hex_injective hroots)
          · rw [List.length_map, List.length_map, List.length_take_of_le hkle,
              List.length_take_of_le hlle]
          · rintro bytes (hbytes | hbytes)
            · exact .inl (.inr ⟨k, hk, hkre, hbytes⟩)
            · exact .inr (.inr ⟨l, hl, by rwa [← hsize], by rwa [← hsize]⟩)
        rw [← hsize] at hlle hqmax
        refine ⟨fun a ha b hb hab hlt => same_below_root hx hS hxS hyS
          k.entry.checkpoint.treeSize.2.1 hlle hf htree hys ha hb hab hlt, ?_⟩
        rintro n hn ⟨a, ha, han⟩ ⟨b, hb, hbn⟩
        exact ⟨hx.exists_between ha hp han (hpmax n hn), hy.exists_between hb hq hbn (hqmax n hn)⟩

-- ── Short chains ─────────────────────────────────────────────────────────────────

/-- The receipt after another in a plain chain, at a given position. -/
def plainAfter (seq : Count) (before : Receipt) : Receipt :=
  plainReceipt seq .toolCall (receiptHashHex linkCrypto before.toUnsignedReceipt)

theorem receiptHash_plainAfter (seq : Count) (before : Receipt) :
    receiptHash linkCrypto (plainAfter seq before).toUnsignedReceipt
      = nextDigest (receiptHash linkCrypto before.toUnsignedReceipt) := by
  rw [receiptHash_link]
  exact congrArg nextDigest (digestOfHex_hex _)

theorem plainAfter_prevHash (seq : Count) (before : Receipt) :
    (plainAfter seq before).prevHash = receiptHashHex linkCrypto before.toUnsignedReceipt := rfl

theorem plainReceipt_systemId (seq : Count) (kind : ActionKind) (prevHash : Hex 64) :
    (plainReceipt seq kind prevHash).systemId = ⟨js "s", by decide⟩ := rfl

/-- A plain receipt and the one after it are a run, at positions counted one after the other. -/
theorem plain_pair {n m : Count} {kind : ActionKind} {prevHash : Hex 64} (h : m.1 = roundNat (n.1 + 1)) :
    SoundReceipts linkCrypto (plainReceipt n kind prevHash)
      [plainReceipt n kind prevHash, plainAfter m (plainReceipt n kind prevHash)] :=
  soundReceipts_pair ((plainReceipt_systemId _ _ _).trans (plainReceipt_systemId _ _ _).symm) h
    (plainAfter_prevHash _ _)

/-- The first receipt of a plain chain or window, linked to nothing. -/
def plainFirst (seq : Count) (kind : ActionKind) : Receipt := plainReceipt seq kind GENESIS_PREV_HASH

/-- Three receipts, each linked to the one before, have three hashes. -/
theorem injOn_plain (n m k : Count) (kind : ActionKind) :
    Set.InjOn linkCrypto.sha256 (hashedBytes [plainFirst n kind, plainAfter m (plainFirst n kind),
      plainAfter k (plainAfter m (plainFirst n kind))]) := by
  have hfirst : receiptHash linkCrypto (plainFirst n kind).toUnsignedReceipt
      = nextDigest (digestOfHex GENESIS_PREV_HASH) := receiptHash_link _
  refine injOn_hashedBytes ?_
  simp only [List.map_cons, List.map_nil, receiptHash_plainAfter, hfirst]
  decide

/-- Plain receipts that are a run are accepted. -/
theorem plain_run_accepted {receipts : List Receipt} {first : Receipt} (hfit : FitsArray receipts)
    (hrun : SoundReceipts linkCrypto first receipts)
    (hplain : ∀ r ∈ receipts, ∃ seq kind prevHash, r = plainReceipt seq kind prevHash)
    (hgenesis : first.seq.1 = 0 → first.action.kind = .genesis ∧ first.prevHash = GENESIS_PREV_HASH) :
    ∃ b v, verifyBundle anyKey linkCrypto b = .ok v ∧ v.receipts = receipts ∧ v.linkedCheckpoints = [] := by
  obtain ⟨seq, kind, prevHash, hfirst⟩ := hplain first (List.mem_of_mem_head? hrun.head)
  have hzeros : (linkCrypto.sha256 (List.replicate 32 0)).1 = List.replicate 32 0 := by decide +kernel
  obtain ⟨b, v, hv, hvr, hvl, -⟩ := plain_accepted (o := anyKey) rfl hzeros (fun _ _ _ => rfl) hfit hrun
    (by rw [hfirst]; rfl) (fun h => ⟨(hgenesis h).1, by rw [hfirst]; rfl, (hgenesis h).2⟩)
    fun r hr => by obtain ⟨_, _, _, rfl⟩ := hplain r hr; rfl
  exact ⟨b, v, hv, hvr, hvl⟩

/-- The plain chain of three receipts. -/
def plainSecond : Receipt := plainAfter ⟨1, isDouble_natCast (by norm_num), Nat.zero_le _⟩ plainGenesis

/-- The receipt after it. -/
def plainThird : Receipt := plainAfter ⟨2, isDouble_natCast (by norm_num), Nat.zero_le _⟩ plainSecond

theorem plain_early : SoundReceipts linkCrypto plainGenesis [plainGenesis, plainSecond] :=
  plain_pair (roundNat_of_le (n := 1) (by norm_num)).symm

theorem plain_late : SoundReceipts linkCrypto plainSecond [plainSecond, plainThird] :=
  plain_pair (roundNat_of_le (n := 2) (by norm_num)).symm

theorem plain_all : SoundReceipts linkCrypto plainGenesis [plainGenesis, plainSecond, plainThird] where
  head := rfl
  system r hr := by
    simp only [List.mem_cons, List.not_mem_nil, or_false] at hr
    rcases hr with rfl | rfl | rfl <;> rfl
  seq := by
    rintro (_ | _ | _ | i) r hr
    · obtain rfl := Option.some.inj hr
      exact plain_early.seq 0 _ rfl
    · obtain rfl := Option.some.inj hr
      exact plain_early.seq 1 _ rfl
    · obtain rfl := Option.some.inj hr
      exact (roundNat_of_le (n := 2) (by norm_num)).symm
    · cases hr
  links := by
    rintro (_ | _ | i) p r hp hr
    · exact plain_early.links 0 p r hp hr
    · exact plain_late.links 0 p r hp hr
    · cases hr

/-- Only the receipts are hashed where no checkpoint is linked. -/
theorem occurring_of_not_linked {v : Verified} (h : v.linkedCheckpoints = []) :
    occurring c v = hashedBytes v.receipts := by
  simp [occurring, h]

/-- A chain of three and the window over its last two have a receipt in common: up to there the two
    tell one history. -/
theorem plain_oneHistory : ∃ b b' v w, verifyBundle anyKey linkCrypto b = .ok v ∧
    verifyBundle anyKey linkCrypto b' = .ok w ∧ v.receipts = [plainGenesis, plainSecond, plainThird] ∧
    w.receipts = [plainSecond, plainThird] ∧ OneHistory v.receipts w.receipts 3 := by
  obtain ⟨b, v, hv, hvr, hvl⟩ := plain_run_accepted (by decide) plain_all
    (by simp only [List.mem_cons, List.not_mem_nil, or_false]
        rintro r (rfl | rfl | rfl) <;> exact ⟨_, _, _, rfl⟩)
    (fun _ => ⟨rfl, rfl⟩)
  obtain ⟨b', w, hw, hwr, hwl⟩ := plain_run_accepted (by decide) plain_late
    (by rintro r hr; rcases List.mem_pair.mp hr with rfl | rfl <;> exact ⟨_, _, _, rfl⟩)
    (fun h => absurd h (by decide))
  have hS : Set.InjOn linkCrypto.sha256 (occurring linkCrypto v ∪ occurring linkCrypto w) := by
    refine Set.InjOn.mono ?_ (injOn_plain plainGenesis.seq plainSecond.seq plainThird.seq .genesis)
    rw [occurring_of_not_linked hvl, occurring_of_not_linked hwl, hvr, hwr]
    rintro bytes (⟨r, hr, rfl⟩ | ⟨r, hr, rfl⟩)
    · exact ⟨r, hr, rfl⟩
    · exact ⟨r, List.mem_cons_of_mem _ hr, rfl⟩
  have hmeet : Meet linkCrypto v w (plainThird.seq.1 + 1) :=
    .receipt plainThird plainThird (by rw [hvr]; simp) (by rw [hwr]; simp) rfl rfl
  refine ⟨b, b', v, w, hv, hw, hvr, hwr, (oneHistory_iff hv hw hS hmeet).mpr ⟨?_, ?_⟩⟩
  · rw [hvr]
    exact singleAt_of_small plain_all (by decide) _ _
  · rw [hwr]
    exact singleAt_of_small plain_late (by decide) _ _

-- ── Beyond 2 ^ 53 ────────────────────────────────────────────────────────────────

/-- The first position at which the verifier's count stands still. -/
def stuckSeq : Count := ⟨2 ^ 53, isDouble_natCast le_rfl, Nat.zero_le _⟩

/-- A receipt at the position that repeats. -/
def firstAtStuck : Receipt := plainReceipt stuckSeq .toolCall GENESIS_PREV_HASH

/-- A hash that tells the first receipt from everything else. -/
def forkCrypto : Crypto where
  sha256 bytes :=
    if bytes = canonicalReceiptBytes firstAtStuck.toUnsignedReceipt then
      ⟨List.replicate 32 1, length_ones⟩
    else ⟨List.replicate 32 0, length_zeros⟩
  verify _ _ _ := true

/-- A second receipt at the same position, linked to the first. -/
def secondAtStuck : Receipt :=
  plainReceipt stuckSeq .toolCall (receiptHashHex forkCrypto firstAtStuck.toUnsignedReceipt)

/-- No canonical form is 32 zeros: a JSON text has no control characters. -/
theorem zeros_ne_canonicalReceiptBytes (r : UnsignedReceipt) :
    List.replicate 32 0 ≠ canonicalReceiptBytes r := by
  intro h
  have hreg := Regular.sortKeys (unsignedReceiptSchema.regular r)
  have htext : utf8Decode (List.replicate 32 0) = canonicalJson (unsignedReceiptSchema.encode r) := by
    rw [h]
    exact utf8Decode_utf8Encode (isWellFormed_stringifyAt 0 0 _)
  have hmem : (0 : UInt16) ∈ canonicalJson (unsignedReceiptSchema.encode r) := by
    rw [← htext]
    decide
  exact absurd (control_property.stringifyAt _ 0 0 hmem) (by decide)

theorem forkCrypto_first : receiptHashHex forkCrypto firstAtStuck.toUnsignedReceipt
    = Digest.hex ⟨List.replicate 32 1, length_ones⟩ := by
  have hsha : forkCrypto.sha256 (canonicalReceiptBytes firstAtStuck.toUnsignedReceipt)
      = ⟨List.replicate 32 1, length_ones⟩ := if_pos rfl
  rw [receiptHashHex, receiptHash, hsha]

/-- The two are different receipts, so the hash tells them apart. -/
theorem secondAtStuck_ne : canonicalReceiptBytes secondAtStuck.toUnsignedReceipt
    ≠ canonicalReceiptBytes firstAtStuck.toUnsignedReceipt := by
  intro h
  have hprev := congrArg (fun u => u.prevHash) (canonicalReceiptBytes_injective h)
  rw [show secondAtStuck.toUnsignedReceipt.prevHash
    = receiptHashHex forkCrypto firstAtStuck.toUnsignedReceipt from rfl, forkCrypto_first] at hprev
  revert hprev
  decide

theorem stuck_run : SoundReceipts forkCrypto firstAtStuck [firstAtStuck, secondAtStuck] where
  head := rfl
  system := by
    rintro r hr
    rcases List.mem_pair.mp hr with rfl | rfl
    · rfl
    · rfl
  seq := by
    rintro (_ | _ | i) r hr
    · obtain rfl := Option.some.inj hr
      decide +kernel
    · obtain rfl := Option.some.inj hr
      decide +kernel
    · cases hr
  links := by
    rintro (_ | i) p r hp hr
    · obtain rfl := Option.some.inj hp
      obtain rfl := Option.some.inj hr
      rfl
    · cases hr

/-- The second receipt alone is a run too. -/
theorem stuck_tail : SoundReceipts forkCrypto secondAtStuck [secondAtStuck] where
  head := rfl
  system := by
    rintro r hr
    rw [List.mem_singleton.mp hr]
  seq := by
    rintro (_ | i) r hr
    · obtain rfl := Option.some.inj hr
      decide +kernel
    · cases hr
  links := by
    rintro i p r hp hr
    cases hr

theorem forkCrypto_key : (forkCrypto.sha256 (List.replicate 32 0)).1 = List.replicate 32 0 :=
  congrArg Subtype.val (if_neg (zeros_ne_canonicalReceiptBytes _))

theorem stuck_accepted : ∃ b v, verifyBundle anyKey forkCrypto b = .ok v ∧
    v.receipts = [firstAtStuck, secondAtStuck] ∧ v.linkedCheckpoints = [] ∧
    v.summary.systemId = ⟨js "s", by decide⟩ := by
  refine plain_accepted rfl forkCrypto_key (fun _ _ _ => rfl) (by decide) stuck_run rfl
    (fun h => absurd h (by decide)) fun r hr => ?_
  rcases List.mem_pair.mp hr with rfl | rfl
  · rfl
  · rfl

theorem stuck_tail_accepted : ∃ b v, verifyBundle anyKey forkCrypto b = .ok v ∧
    v.receipts = [secondAtStuck] ∧ v.linkedCheckpoints = [] ∧
    v.summary.systemId = ⟨js "s", by decide⟩ := by
  refine plain_accepted rfl forkCrypto_key (fun _ _ _ => rfl) (by decide) stuck_tail rfl
    (fun h => absurd h (by decide)) fun r hr => ?_
  rw [List.mem_singleton.mp hr]
  rfl

/-- **Two accepted exports of one system, one with a receipt put in before the receipt both end
    with.** -/
theorem inserted_receipt_accepted : ∃ b b' v w, verifyBundle anyKey forkCrypto b = .ok v ∧
    verifyBundle anyKey forkCrypto b' = .ok w ∧ v.summary.systemId = w.summary.systemId ∧
    Set.InjOn forkCrypto.sha256 (occurring forkCrypto v ∪ occurring forkCrypto w) ∧
    Meet forkCrypto v w (2 ^ 53 + 1) ∧ ¬ OneHistory v.receipts w.receipts (2 ^ 53 + 1) := by
  obtain ⟨b, v, hv, hvr, hvl, hvs⟩ := stuck_accepted
  obtain ⟨b', w, hw, hwr, hwl, hws⟩ := stuck_tail_accepted
  refine ⟨b, b', v, w, hv, hw, hvs.trans hws.symm, ?_, ?_, ?_⟩
  · -- what is hashed is one of the two receipts
    have hocc : occurring forkCrypto v ∪ occurring forkCrypto w ⊆
        {canonicalReceiptBytes firstAtStuck.toUnsignedReceipt,
          canonicalReceiptBytes secondAtStuck.toUnsignedReceipt} := by
      rw [occurring_of_not_linked hvl, occurring_of_not_linked hwl, hvr, hwr]
      rintro bytes (⟨r, hr, rfl⟩ | ⟨r, hr, rfl⟩)
      · rcases List.mem_pair.mp hr with rfl | rfl
        · exact .inl rfl
        · exact .inr rfl
      · rw [List.mem_singleton.mp hr]
        exact .inr rfl
    refine Set.InjOn.mono hocc ?_
    rw [Set.injOn_pair]
    intro h
    have hfirst : forkCrypto.sha256 (canonicalReceiptBytes firstAtStuck.toUnsignedReceipt)
        = ⟨List.replicate 32 1, length_ones⟩ := if_pos rfl
    have hsecond : forkCrypto.sha256 (canonicalReceiptBytes secondAtStuck.toUnsignedReceipt)
        = ⟨List.replicate 32 0, length_zeros⟩ := if_neg secondAtStuck_ne
    rw [hfirst, hsecond] at h
    exact absurd (congrArg Subtype.val h) (by decide)
  · exact .receipt secondAtStuck secondAtStuck (by rw [hvr]; simp) (by rw [hwr]; simp) rfl rfl
  · intro h
    have hsame := h.same firstAtStuck (by rw [hvr]; simp) secondAtStuck (by rw [hwr]; simp) rfl
      (by decide)
    exact secondAtStuck_ne (congrArg canonicalReceiptBytes hsame).symm

end Sigillo
