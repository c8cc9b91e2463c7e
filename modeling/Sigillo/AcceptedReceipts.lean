import Sigillo.VerifierFacts
import Sigillo.HashLinks

/-!
# Accepted receipts

The receipts of an accepted export are a run (`SoundReceipts`): each linked to the one before, at
positions counted up from the first. The count is a sum of doubles, so beyond 2 ^ 53 a position can
stand more than once; what holds of every run is that positions never go back, none between the
first and the last is left out (`exists_at`), and up to 2 ^ 53 each stands once (`seq_eq_add`). -/

namespace Sigillo

open DoubleArith Utf16Text HexBase64 HashLinks

variable {c : Crypto}

/-- **A run of receipts as the verifier accepts it.** -/
structure SoundReceipts (c : Crypto) (first : Receipt) (receipts : List Receipt) : Prop where
  head : receipts.head? = some first
  system : ∀ r ∈ receipts, r.systemId = first.systemId
  seq : ∀ i r, receipts[i]? = some r → r.seq.1 = expectedSeqAt first i
  links : ∀ i p r, receipts[i]? = some p → receipts[i + 1]? = some r →
    r.prevHash = receiptHashHex c p.toUnsignedReceipt

theorem Export.Valid.soundReceipts {o : VerifyOptions} {x : Export} {keys : List (Hex 16 × Bytes)}
    {first last : Receipt} (hx : x.Valid o c keys first last) :
    SoundReceipts c first x.receipts where
  head := hx.head
  system r hr := (hx.system r hr).trans (hx.system first (List.mem_of_mem_head? hx.head)).symm
  seq := hx.sequence
  links := hx.links

/-- **The receipts of an accepted bundle are a run**, of the system it says. -/
theorem soundReceipts_of_verifyBundle {o : VerifyOptions} {b : Bundle} {v : Verified}
    (h : verifyBundle o c b = .ok v) :
    ∃ first, SoundReceipts c first v.receipts ∧ first.systemId = v.summary.systemId := by
  obtain ⟨x, keys, first, last, -, hx, rfl⟩ := verifyBundle_eq_ok.mp h
  exact ⟨first, hx.soundReceipts, hx.system first (List.mem_of_mem_head? hx.head)⟩

/-- A root rebuilt from the receipts of an accepted bundle is the checkpoint's. -/
theorem rebuilt_of_verifyBundle {o : VerifyOptions} {b : Bundle} {v : Verified}
    (h : verifyBundle o c b = .ok v) {l : LinkedCheckpoint} (hl : l ∈ v.linkedCheckpoints)
    (hre : rebuildable v.receipts l.entry.checkpoint.treeSize.1 = true) :
    recomputedRoot c v.receipts l.entry.checkpoint.treeSize.1 = l.entry.checkpoint.rootHash := by
  obtain ⟨x, keys, first, last, -, hx, rfl⟩ := verifyBundle_eq_ok.mp h
  exact (hx.linked hl).2.root hre

namespace SoundReceipts

variable {first : Receipt} {receipts : List Receipt} (h : SoundReceipts c first receipts)
include h

theorem ne_nil : receipts ≠ [] := by
  rintro rfl
  have := h.head
  cases this

theorem seq_mono {i j : ℕ} {a b : Receipt} (ha : receipts[i]? = some a) (hb : receipts[j]? = some b)
    (hij : i ≤ j) : a.seq.1 ≤ b.seq.1 := by
  rw [h.seq i a ha, h.seq j b hb]
  exact roundNat_mono (by omega)

theorem lt_of_seq_lt {i j : ℕ} {a b : Receipt} (ha : receipts[i]? = some a)
    (hb : receipts[j]? = some b) (hab : a.seq.1 < b.seq.1) : i < j := by
  by_contra hji
  have := h.seq_mono hb ha (not_lt.mp hji)
  omega

theorem first_le {r : Receipt} (hr : r ∈ receipts) : first.seq.1 ≤ r.seq.1 := by
  obtain ⟨i, hi⟩ := List.mem_iff_getElem?.mp hr
  have h0 : receipts[0]? = some first := by rw [← List.head?_eq_getElem?]; exact h.head
  exact h.seq_mono h0 hi (Nat.zero_le i)

theorem le_last {r last : Receipt} (hlast : receipts.getLast? = some last) (hr : r ∈ receipts) :
    r.seq.1 ≤ last.seq.1 := by
  obtain ⟨i, hi⟩ := List.mem_iff_getElem?.mp hr
  rw [List.getLast?_eq_getElem?] at hlast
  have := (List.getElem?_eq_some_iff.mp hi).1
  exact h.seq_mono hi hlast (by omega)

/-- **No position between the first and the last is left out.** -/
theorem exists_at {n : Count} {last : Receipt} (hlast : receipts.getLast? = some last)
    (hfirst : first.seq.1 ≤ n.1) (hn : n.1 ≤ last.seq.1) : ∃ r ∈ receipts, r.seq = n := by
  have hround : roundNat n.1 = n.1 := roundNat_of_isDouble n.2.1
  rw [List.getLast?_eq_getElem?] at hlast
  rcases Nat.lt_or_ge (n.1 - first.seq.1) receipts.length with hlt | hge
  · have hi := List.getElem?_eq_getElem hlt
    refine ⟨_, List.mem_of_getElem? hi, Subtype.ext ?_⟩
    rw [h.seq _ _ hi, expectedSeqAt, Nat.add_sub_cancel' hfirst, hround]
  · -- the count has run past the list, so it stopped on the last position
    refine ⟨last, List.mem_of_getElem? hlast, Subtype.ext (le_antisymm ?_ hn)⟩
    rw [h.seq _ _ hlast, expectedSeqAt]
    calc roundNat (first.seq.1 + (receipts.length - 1)) ≤ roundNat n.1 := roundNat_mono (by omega)
      _ = n.1 := hround

/-- Up to 2 ^ 53 a position is the sum it stands for. -/
theorem seq_eq_add {i : ℕ} {r : Receipt} (hr : receipts[i]? = some r)
    (hi : first.seq.1 + i ≤ 2 ^ 53) : r.seq.1 = first.seq.1 + i := by
  rw [h.seq i r hr, expectedSeqAt, roundNat_of_le hi]

/-- A position that stands twice stays where the count is stuck. -/
theorem repeated {i : ℕ} {a b : Receipt} (ha : receipts[i]? = some a) (hb : receipts[i + 1]? = some b)
    (hab : a.seq = b.seq) : roundNat (a.seq.1 + 1) = a.seq.1 := by
  have hai := h.seq i a ha
  have hbi := h.seq (i + 1) b hb
  rw [← hab] at hbi
  rw [expectedSeqAt] at hai hbi
  refine le_antisymm ?_ (le_roundNat a.seq.2.1 (Nat.le_succ _))
  rcases Nat.lt_or_ge (first.seq.1 + i) a.seq.1 with hlt | hge
  · -- the count was below the position and rounded up to it
    obtain ⟨n, hn⟩ : ∃ n, a.seq.1 = n + 1 := ⟨a.seq.1 - 1, by omega⟩
    have hpred : roundNat n = n + 1 := by
      rw [← hn]
      refine le_antisymm (roundNat_le a.seq.2.1 (by omega)) ?_
      calc a.seq.1 = roundNat (first.seq.1 + i) := hai
        _ ≤ roundNat n := roundNat_mono (by omega)
    rw [hn, roundNat_succ_of_pred hpred]
  · calc roundNat (a.seq.1 + 1) ≤ roundNat (first.seq.1 + (i + 1)) := roundNat_mono (by omega)
      _ = a.seq.1 := hbi.symm

end SoundReceipts

/-- One receipt is a run. -/
theorem soundReceipts_singleton (c : Crypto) (r : Receipt) : SoundReceipts c r [r] where
  head := rfl
  system s hs := by rw [List.mem_singleton.mp hs]
  seq := by
    rintro (_ | i) s hs
    · obtain rfl := Option.some.inj hs
      exact (roundNat_of_isDouble r.seq.2.1).symm
    · cases hs
  links := by
    rintro i p s hp hs
    cases hs

/-- Two receipts are a run when the second is linked to the first, at the next position counted. -/
theorem soundReceipts_pair {r s : Receipt} (hsystem : s.systemId = r.systemId)
    (hseq : s.seq.1 = roundNat (r.seq.1 + 1))
    (hlink : s.prevHash = receiptHashHex c r.toUnsignedReceipt) : SoundReceipts c r [r, s] where
  head := rfl
  system t ht := by
    rcases List.mem_pair.mp ht with rfl | rfl
    · rfl
    · exact hsystem
  seq := by
    rintro (_ | _ | i) t ht
    · obtain rfl := Option.some.inj ht
      exact (roundNat_of_isDouble r.seq.2.1).symm
    · obtain rfl := Option.some.inj ht
      exact hseq
    · cases ht
  links := by
    rintro (_ | i) p t hp ht
    · obtain rfl := Option.some.inj hp
      obtain rfl := Option.some.inj ht
      exact hlink
    · cases ht

/-- **One receipt right after another as the verifier counts**: linked to it, with no position left
    out between the two. From 2 ^ 53 on the count stands still for two receipts at a time, so there
    the position may be the same one again. -/
structure FollowsInCount (c : Crypto) (p r : Receipt) : Prop where
  link : r.prevHash = receiptHashHex c p.toUnsignedReceipt
  le : p.seq.1 ≤ r.seq.1
  noGap : ∀ n : Count, p.seq.1 < n.1 → r.seq.1 ≤ n.1
  next : p.seq.1 < 2 ^ 53 → r.seq.1 = p.seq.1 + 1

/-- **One receipt at the position right after another**, and linked to it. -/
structure Successive (c : Crypto) (p r : Receipt) : Prop where
  link : r.prevHash = receiptHashHex c p.toUnsignedReceipt
  seq : r.seq.1 = p.seq.1 + 1

/-- From 2 ^ 53 on no position of a receipt is one more than another: a double there is even. -/
theorem not_next_of_large {a b : Count} (ha : 2 ^ 53 ≤ a.1) : b.1 ≠ a.1 + 1 := by
  intro h
  have hodd := even_of_isDouble b.2.1 (by omega)
  rw [h, Nat.even_add_one] at hodd
  exact hodd (even_of_isDouble a.2.1 ha)

/-- **What follows in the count is the next receipt exactly below 2 ^ 53.** -/
theorem FollowsInCount.successive_iff {p r : Receipt} (h : FollowsInCount c p r) :
    Successive c p r ↔ p.seq.1 < 2 ^ 53 := by
  constructor
  · intro hnext
    by_contra hlarge
    exact not_next_of_large (not_lt.mp hlarge) hnext.seq
  · exact fun hsmall => ⟨h.link, h.next hsmall⟩

/-- **A list that follows in the count is a run of positions** exactly when every receipt of it but
    the last stands below 2 ^ 53. -/
theorem isChain_successive_iff {receipts : List Receipt} (h : receipts.IsChain (FollowsInCount c)) :
    receipts.IsChain (Successive c) ↔ ∀ r ∈ receipts.dropLast, r.seq.1 < 2 ^ 53 := by
  induction receipts with
  | nil => simp
  | cons p rest ih =>
      cases rest with
      | nil => simp
      | cons r rest =>
          obtain ⟨hpr, hrest⟩ := List.isChain_cons_cons.mp h
          rw [List.isChain_cons_cons, hpr.successive_iff, ih hrest, List.dropLast_cons_cons,
            List.forall_mem_cons]

theorem SoundReceipts.followsInCount {first : Receipt} {receipts : List Receipt}
    (h : SoundReceipts c first receipts) {i : ℕ} {p r : Receipt} (hp : receipts[i]? = some p)
    (hr : receipts[i + 1]? = some r) : FollowsInCount c p r where
  link := h.links i p r hp hr
  le := h.seq_mono hp hr (Nat.le_succ i)
  noGap n hn := by
    rw [h.seq _ r hr, expectedSeqAt]
    refine roundNat_le n.2.1 ?_
    by_contra hlt
    -- a count past the next position has rounded to at least it
    have hle : n.1 ≤ roundNat (first.seq.1 + i) := le_roundNat n.2.1 (by omega)
    rw [h.seq i p hp, expectedSeqAt] at hn
    omega
  next hlt := by
    have hi : first.seq.1 + i < 2 ^ 53 := by
      by_contra hge
      have hle := le_roundNat (isDouble_natCast le_rfl) (not_lt.mp hge)
      rw [h.seq i p hp, expectedSeqAt] at hlt
      omega
    rw [h.seq_eq_add hp (by omega), h.seq_eq_add hr (by omega)]
    omega

/-- An accepted run is one receipt right after another in the count. -/
theorem SoundReceipts.isChain {first : Receipt} {receipts : List Receipt}
    (h : SoundReceipts c first receipts) : receipts.IsChain (FollowsInCount c) :=
  List.isChain_iff_getElem.mpr fun _ hi =>
    h.followsInCount (List.getElem?_eq_getElem (by omega)) (List.getElem?_eq_getElem hi)

-- ── Two runs ─────────────────────────────────────────────────────────────────────

/-- The bytes hashed for the receipts of an export. -/
def hashedBytes (receipts : List Receipt) : Set Bytes :=
  {b | ∃ r ∈ receipts, canonicalReceiptBytes r.toUnsignedReceipt = b}

/-- **Receipts of one hash are one receipt but for their signatures.** -/
theorem content_eq_of_hash {S : Set Bytes} (hS : Set.InjOn c.sha256 S) {xs ys : List Receipt}
    (hxs : hashedBytes xs ⊆ S) (hys : hashedBytes ys ⊆ S) {a b : Receipt} (ha : a ∈ xs) (hb : b ∈ ys)
    (hhash : receiptHashHex c a.toUnsignedReceipt = receiptHashHex c b.toUnsignedReceipt) :
    a.toUnsignedReceipt = b.toUnsignedReceipt :=
  receiptHashHex_injOn c hS (hxs ⟨a, ha, rfl⟩) (hys ⟨b, hb, rfl⟩) hhash

/-- Receipts that are hashed to different digests are hashed injectively. -/
theorem injOn_hashedBytes {receipts : List Receipt}
    (h : (receipts.map fun r => receiptHash c r.toUnsignedReceipt).Nodup) :
    Set.InjOn c.sha256 (hashedBytes receipts) := by
  rintro _ ⟨a, ha, rfl⟩ _ ⟨b, hb, rfl⟩ hab
  rw [List.inj_on_of_nodup_map h ha hb hab]

theorem SoundReceipts.linked {first : Receipt} {receipts : List Receipt}
    (h : SoundReceipts c first receipts) :
    Linked (receiptHashHex c) (fun u => u.prevHash)
      (receipts.map fun r => r.toUnsignedReceipt) := by
  rw [Linked, List.isChain_map]
  exact List.isChain_iff_getElem.mpr fun i hi =>
    h.links i _ _ (List.getElem?_eq_getElem (by omega)) (List.getElem?_eq_getElem hi)

/-- **Two runs that meet at one receipt are the same all the way back.** -/
theorem SoundReceipts.back {S : Set Bytes} (hS : Set.InjOn c.sha256 S) {f g : Receipt}
    {xs ys : List Receipt} (hx : SoundReceipts c f xs) (hy : SoundReceipts c g ys)
    (hxs : hashedBytes xs ⊆ S) (hys : hashedBytes ys ⊆ S) {i j d : ℕ} {a b a' b' : Receipt}
    (ha : xs[i + d]? = some a) (hb : ys[j + d]? = some b)
    (hab : a.toUnsignedReceipt = b.toUnsignedReceipt) (ha' : xs[i]? = some a')
    (hb' : ys[j]? = some b') : a'.toUnsignedReceipt = b'.toUnsignedReceipt := by
  have hinj : Set.InjOn (receiptHashHex c) {u | canonicalReceiptBytes u ∈ S} :=
    fun u hu w hw huw => receiptHashHex_injOn c hS hu hw huw
  have hback := Linked.back hx.linked hy.linked hinj
    (fun u hu => by obtain ⟨r, hr, rfl⟩ := List.mem_map.mp hu; exact hxs ⟨r, hr, rfl⟩)
    (fun u hu => by obtain ⟨r, hr, rfl⟩ := List.mem_map.mp hu; exact hys ⟨r, hr, rfl⟩)
    (show (xs.map fun r => r.toUnsignedReceipt)[i + d]? = some a.toUnsignedReceipt by
      rw [List.getElem?_map, ha]; rfl)
    (show (ys.map fun r => r.toUnsignedReceipt)[j + d]? = some a.toUnsignedReceipt by
      rw [List.getElem?_map, hb, hab]; rfl)
  rw [List.getElem?_map, List.getElem?_map, ha', hb'] at hback
  exact Option.some.inj hback

end Sigillo
