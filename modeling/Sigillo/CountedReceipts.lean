import Sigillo.OneHistory

/-!
# The positions of an accepted export

The verifier means the positions of an accepted export to run from `range.from_seq` to
`range.to_seq`, one at a time, with no gap, no repeat and no reordering (`CountedOut`). It compares
each with `first.seq + index`, a sum of doubles, so what it accepts is counted out exactly when the
export has one receipt or its count stays within 2 ^ 53 (**`countedOut_iff`**). -/

namespace Sigillo

open DoubleArith Utf16Text

variable {c : Crypto}

/-- **The positions are counted out**: `range.from_seq`, the next, and so on in the order of the
    file up to `range.to_seq`, each once, and as many as `counts.receipts` says. -/
structure CountedOut (m : Manifest) (receipts : List Receipt) : Prop where
  inOrder : receipts.map (fun r => r.seq.1)
    = List.range' m.range.fromSeq.1 (m.range.toSeq.1 + 1 - m.range.fromSeq.1)
  distinct : (receipts.map fun r => r.seq).Nodup
  counted : m.counts.receipts.1 + m.range.fromSeq.1 = m.range.toSeq.1 + 1

/-- One receipt, or no position after 2 ^ 53. -/
def CountFits (m : Manifest) : Prop :=
  m.counts.receipts.1 = 1 ∨ m.range.fromSeq.1 + m.counts.receipts.1 ≤ 2 ^ 53 + 1

/-- The manifest of an accepted bundle declares the receipts it holds. -/
theorem manifest_of_verifyBundle {o : VerifyOptions} {b : Bundle} {v : Verified}
    (h : verifyBundle o c b = .ok v) : ∃ m first last, readManifest o b = .ok m ∧
      SoundReceipts c first v.receipts ∧ v.receipts.getLast? = some last ∧
      first.seq = m.range.fromSeq ∧ last.seq = m.range.toSeq ∧
      m.counts.receipts.1 = v.receipts.length := by
  obtain ⟨x, keys, first, last, hb, hx, rfl⟩ := verifyBundle_eq_ok.mp h
  exact ⟨x.manifest, first, last, readEntry_ok.mpr hb.manifest, hx.soundReceipts, hx.tail,
    hx.manifest.fromSeq, hx.manifest.toSeq, hx.manifest.receipts⟩

namespace SoundReceipts

variable {first : Receipt} {receipts : List Receipt} (h : SoundReceipts c first receipts)
include h

/-- **Within 2 ^ 53 the positions are the numbers from the first on.** -/
theorem map_seq (hfits : first.seq.1 + receipts.length ≤ 2 ^ 53 + 1) :
    receipts.map (fun r => r.seq.1) = List.range' first.seq.1 receipts.length := by
  refine List.ext_getElem ?_ fun i hi _ => ?_
  · rw [List.length_map, List.length_range']
  · rw [List.length_map] at hi
    rw [List.getElem_map, List.getElem_range', one_mul]
    exact h.seq_eq_add (List.getElem?_eq_getElem hi) (by omega)

/-- One receipt stands at the first position. -/
theorem map_seq_of_length_one (hone : receipts.length = 1) :
    receipts.map (fun r => r.seq.1) = List.range' first.seq.1 receipts.length := by
  obtain ⟨r, rfl⟩ := List.length_eq_one_iff.mp hone
  obtain rfl := Option.some.inj h.head
  rfl

end SoundReceipts

/-- **Receipts that reach a position after 2 ^ 53 are not the numbers from the first on**: the count
    stands still at 2 ^ 53, or began on an even number beyond it. -/
theorem map_seq_ne {first : Receipt} {receipts : List Receipt} (htwo : 2 ≤ receipts.length)
    (hpast : 2 ^ 53 + 1 < first.seq.1 + receipts.length) :
    receipts.map (fun r => r.seq.1) ≠ List.range' first.seq.1 receipts.length := by
  intro hmap
  have hseq : ∀ i, ∀ hi : i < receipts.length, receipts[i].seq.1 = first.seq.1 + i := by
    intro i hi
    have hat := List.getElem_of_eq hmap (by rwa [List.length_map])
    rwa [List.getElem_map, List.getElem_range', one_mul] at hat
  have hnext : ∀ i, i < receipts.length → 2 ^ 53 ≤ first.seq.1 + i → Even (first.seq.1 + i) := by
    intro i hi hge
    have hdouble := receipts[i].seq.2.1
    rw [hseq i hi] at hdouble
    exact even_of_isDouble hdouble hge
  rcases Nat.le_total first.seq.1 (2 ^ 53) with hle | hge
  · -- the position after 2 ^ 53 is odd
    have hodd := hnext (2 ^ 53 + 1 - first.seq.1) (by omega) (by omega)
    rw [show first.seq.1 + (2 ^ 53 + 1 - first.seq.1) = 2 ^ 53 + 1 by omega] at hodd
    exact absurd hodd (by decide)
  · have hfirst := hnext 0 (by omega) (by omega)
    have hsecond := hnext 1 (by omega) (by omega)
    rw [Nat.even_add_one] at hsecond
    exact hsecond hfirst

/-- **The positions of an accepted export are counted out exactly when it has one receipt or its
    count stays within 2 ^ 53.** -/
theorem countedOut_iff {o : VerifyOptions} {b : Bundle} {v : Verified}
    (h : verifyBundle o c b = .ok v) :
    ∃ m, readManifest o b = .ok m ∧ (CountedOut m v.receipts ↔ CountFits m) := by
  obtain ⟨m, first, last, hm, hrun, hlast, hfrom, hto, hcount⟩ := manifest_of_verifyBundle h
  have hne : v.receipts.length ≠ 0 := fun hnil => hrun.ne_nil (List.length_eq_zero_iff.mp hnil)
  refine ⟨m, hm, ?_, ?_⟩
  · rintro ⟨hmap, -, hcounted⟩
    by_contra hfits
    rw [CountFits, hcount, ← hfrom, not_or] at hfits
    rw [← hfrom, show m.range.toSeq.1 + 1 - first.seq.1 = v.receipts.length by
      rw [hfrom]; omega] at hmap
    exact map_seq_ne (by omega) (by omega) hmap
  · intro hfits
    rw [CountFits, hcount, ← hfrom] at hfits
    have hmap : v.receipts.map (fun r => r.seq.1) = List.range' first.seq.1 v.receipts.length :=
      hfits.elim hrun.map_seq_of_length_one hrun.map_seq
    have hend : last.seq.1 = first.seq.1 + (v.receipts.length - 1) := by
      have hi : v.receipts.length - 1 < v.receipts.length := by omega
      have hat := List.getElem_of_eq hmap (by rwa [List.length_map])
      rw [List.getElem_map, List.getElem_range', one_mul] at hat
      rw [List.getLast?_eq_getElem?, List.getElem?_eq_getElem hi] at hlast
      rw [← Option.some.inj hlast, hat]
    have hsize : m.range.toSeq.1 + 1 - m.range.fromSeq.1 = v.receipts.length := by
      rw [← hfrom, ← hto, hend]
      omega
    refine ⟨by rw [hsize, ← hfrom, hmap], ?_, by rw [hcount, ← hfrom, ← hto, hend]; omega⟩
    refine List.Nodup.of_map Subtype.val ?_
    rw [List.map_map]
    exact (congrArg List.Nodup hmap).mpr List.nodup_range'

/-- A window that begins at position 1 is counted out. -/
theorem countedOut_window : ∃ b v m, verifyBundle anyKey linkCrypto b = .ok v ∧
    readManifest anyKey b = .ok m ∧ v.receipts = [plainSecond, plainThird] ∧ CountedOut m v.receipts := by
  obtain ⟨b, v, hv, hvr, -⟩ := plain_run_accepted (by decide) plain_late
    (by rintro r hr; rcases List.mem_pair.mp hr with rfl | rfl <;> exact ⟨_, _, _, rfl⟩)
    (fun h => absurd h (by decide))
  obtain ⟨m, hm, hiff⟩ := countedOut_iff hv
  obtain ⟨m', first, last, hm', hrun, -, hfrom, -, hcount⟩ := manifest_of_verifyBundle hv
  obtain rfl := Except.ok.inj (hm.symm.trans hm')
  have hhead := hrun.head
  rw [hvr] at hhead hcount
  obtain rfl := Option.some.inj hhead
  exact ⟨b, v, m, hv, hm, hvr, hiff.mpr (.inr (by rw [hcount, ← hfrom]; decide))⟩

/-- **An accepted export of two receipts, both at 2 ^ 53.** -/
theorem position_twice : ∃ b v m, verifyBundle anyKey forkCrypto b = .ok v ∧
    readManifest anyKey b = .ok m ∧
    v.receipts.map (fun r => r.seq.1) = [9007199254740992, 9007199254740992] ∧
    m.counts.receipts.1 = 2 ∧ m.range.fromSeq = m.range.toSeq ∧ ¬ CountedOut m v.receipts := by
  obtain ⟨b, v, hv, hvr, -, -⟩ := stuck_accepted
  obtain ⟨m, first, last, hm, hrun, hlast, hfrom, hto, hcount⟩ := manifest_of_verifyBundle hv
  have hhead := hrun.head
  rw [hvr] at hlast hhead hcount
  obtain rfl := Option.some.inj hlast
  obtain rfl := Option.some.inj hhead
  refine ⟨b, v, m, hv, hm, by rw [hvr]; rfl, hcount, hfrom.symm.trans hto, fun hcounted => ?_⟩
  have hdistinct := hcounted.distinct
  rw [hvr] at hdistinct
  exact absurd hdistinct (by decide)

end Sigillo
