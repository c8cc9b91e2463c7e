import Sigillo.StoreTransactions
import Sigillo.WrittenReceipts
import Sigillo.ReceiptChain

/-!
# The chains of the database

In every run each system's rows are the rows of a chain: receipts at positions counted from 0, each
linked to the one before (`Whole`). Writing appends one, recovery appends what continues the chain,
and a deletion takes a chain whole. -/

namespace Sigillo

open DoubleArith Utf16Text JsonText JsonSchema HexBase64 IsoTime Fallible

variable {c : Crypto} {u : Unicode} {key : WriterKey}

-- ── Rows in order ────────────────────────────────────────────────────────────────

namespace Database

variable {db db' : Database} {systemId : SystemId}

theorem chainRows_of_receipts (h : db'.receipts = db.receipts) :
    db'.chainRows systemId = db.chainRows systemId := by
  rw [chainRows, chainRows, h]

/-- Rows of other systems leave a chain as it is. -/
theorem chainRows_append_of_ne {rows : List ReceiptRow} (h : db'.receipts = db.receipts ++ rows)
    (hrows : ∀ row ∈ rows, row.systemId ≠ systemId) :
    db'.chainRows systemId = db.chainRows systemId := by
  have hnone : (rows.filter fun r => r.systemId == systemId) = [] := by
    rw [List.filter_eq_nil_iff]
    intro row hrow
    rw [beq_iff_eq]
    exact hrows row hrow
  rw [chainRows, h, List.filter_append, hnone, List.append_nil, chainRows]

/-- **A row after all others of its chain is its last**, where each position stands once. -/
theorem chainRows_append_self {row : ReceiptRow} (h : db'.receipts = db.receipts ++ [row])
    (hsystem : row.systemId = systemId)
    (honce : ∀ a ∈ db.chainRows systemId, ∀ b ∈ db.chainRows systemId, a.seq = b.seq → a = b)
    (hlast : ∀ a ∈ db.chainRows systemId, a.seq.1 < row.seq.1) :
    db'.chainRows systemId = db.chainRows systemId ++ [row] := by
  have hown : ([row].filter fun r => r.systemId == systemId) = [row] := by
    rw [List.filter_singleton, beq_iff_eq.mpr hsystem, cond_true]
  have htotal : ∀ a b : ReceiptRow, (decide (a.seq.1 ≤ b.seq.1) || decide (b.seq.1 ≤ a.seq.1)) = true := by
    intro a b
    rw [Bool.or_eq_true, decide_eq_true_eq, decide_eq_true_eq]
    exact Nat.le_total _ _
  have htrans : ∀ a b d : ReceiptRow, decide (a.seq.1 ≤ b.seq.1) = true →
      decide (b.seq.1 ≤ d.seq.1) = true → decide (a.seq.1 ≤ d.seq.1) = true := by
    intro a b d hab hbd
    rw [decide_eq_true_eq] at *
    exact hab.trans hbd
  have hsorted := List.pairwise_mergeSort htrans htotal (db.receipts.filter fun r => r.systemId == systemId)
  rw [chainRows, h, List.filter_append, hown]
  have hrank : ∀ rows : List ReceiptRow,
      (rows.mergeSort fun a b => decide (a.seq.1 ≤ b.seq.1)).Pairwise fun a b =>
        decide (a.seq.1 ≤ b.seq.1) = true :=
    fun rows => List.pairwise_mergeSort htrans htotal rows
  refine List.Perm.eq_of_pairwise ?_ (hrank _) ?_ ?_
  · intro a b ha hb hab hba
    rw [decide_eq_true_eq] at hab hba
    have hseq : a.seq = b.seq := Subtype.ext (le_antisymm hab hba)
    rw [List.mem_mergeSort, List.mem_append, List.mem_singleton] at ha
    rw [List.mem_append, List.mem_singleton] at hb
    have hin : ∀ x, x ∈ db.receipts.filter (fun r => r.systemId == systemId) → x ∈ db.chainRows systemId :=
      fun x hx => List.mem_mergeSort.mpr hx
    rcases ha with ha | rfl
    · rcases hb with hb | rfl
      · exact honce a (hin a ha) b hb hseq
      · exact absurd (hlast a (hin a ha)) (by rw [hseq]; exact lt_irrefl _)
    · rcases hb with hb | rfl
      · exact absurd (hlast b hb) (by rw [hseq]; exact lt_irrefl _)
      · rfl
  · rw [List.pairwise_append]
    refine ⟨hsorted, List.pairwise_singleton _ _, fun a ha b hb => ?_⟩
    rw [List.mem_singleton.mp hb, decide_eq_true_eq]
    exact (hlast a ha).le
  · exact (List.mergeSort_perm _ _).trans ((List.mergeSort_perm _ _).symm.append_right [row])

/-- Chains that are deleted are gone, and the others stay. -/
theorem chainRows_filter {gone : SystemId → Bool}
    (h : db'.receipts = db.receipts.filter fun r => !gone r.systemId) :
    db'.chainRows systemId = if gone systemId then [] else db.chainRows systemId := by
  rw [chainRows, h, List.filter_filter]
  by_cases hgone : gone systemId = true
  · rw [if_pos hgone, List.filter_eq_nil_iff.mpr, List.mergeSort_nil]
    intro r _
    rw [Bool.and_eq_true, beq_iff_eq]
    rintro ⟨rfl, hkept⟩
    rw [hgone] at hkept
    cases hkept
  · rw [if_neg hgone, chainRows]
    congr 1
    refine List.filter_congr fun r _ => ?_
    by_cases hr : r.systemId = systemId
    · rw [hr, beq_self_eq_true, Bool.true_and, eq_false_of_ne_true hgone]
      rfl
    · rw [beq_eq_false_iff_ne.mpr hr, Bool.false_and]

end Database

/-- Elements that each agree with all before them, after a list that does. -/
theorem pairwise_append_of_each {α : Type} {R : α → α → Prop} {l more : List α} (h : l.Pairwise R)
    (hmore : ∀ before a after, more = before ++ a :: after → ∀ b ∈ l ++ before, R b a) :
    (l ++ more).Pairwise R := by
  induction more using List.reverseRecOn with
  | nil => rwa [List.append_nil]
  | append_singleton before a ih =>
      rw [← List.append_assoc, List.pairwise_append]
      refine ⟨ih fun xs x ys hsplit => hmore xs x (ys ++ [a]) (by rw [hsplit]; simp), List.pairwise_singleton _ _, ?_⟩
      intro b hb x hx
      rw [List.mem_singleton.mp hx]
      exact hmore before a [] rfl b hb

-- ── Receipts at their places ─────────────────────────────────────────────────────

/-- A receipt at its place after others: its position is how many there are, its link the last. -/
structure Placed (c : Crypto) (systemId : SystemId) (before : List Receipt) (r : UnsignedReceipt) : Prop where
  systemId : r.systemId = systemId
  seq : r.seq.1 = before.length
  prevHash : r.prevHash = prevHashAfter c before

/-- **Receipts in their places**, each after those before it. -/
def PlacedChain (c : Crypto) (systemId : SystemId) (chain : List Receipt) : Prop :=
  ∀ n r, chain[n]? = some r → Placed c systemId (chain.take n) r.toUnsignedReceipt

namespace PlacedChain

variable {systemId : SystemId} {chain : List Receipt}

theorem nil : PlacedChain c systemId [] := by
  intro n r h
  cases h

theorem append (h : PlacedChain c systemId chain) {r : Receipt}
    (hr : Placed c systemId chain r.toUnsignedReceipt) : PlacedChain c systemId (chain ++ [r]) := by
  intro n s hs
  rcases lt_trichotomy n chain.length with hlt | heq | hgt
  · rw [List.getElem?_append_left hlt] at hs
    rw [List.take_append_of_le_length hlt.le]
    exact h n s hs
  · rw [heq, List.getElem?_concat_length] at hs
    obtain rfl := Option.some.inj hs
    rwa [heq, List.take_left]
  · rw [List.getElem?_eq_none (by rw [List.length_append, List.length_singleton]; omega)] at hs
    cases hs

theorem seq_eq (h : PlacedChain c systemId chain) {n : ℕ} {r : Receipt} (hr : chain[n]? = some r) :
    r.seq.1 = n := by
  obtain ⟨hn, -⟩ := List.getElem?_eq_some_iff.mp hr
  rw [(h n r hr).seq, List.length_take, min_eq_left hn.le]

theorem system (h : PlacedChain c systemId chain) {r : Receipt} (hr : r ∈ chain) : r.systemId = systemId := by
  obtain ⟨n, hn⟩ := List.mem_iff_getElem?.mp hr
  exact (h n r hn).systemId

theorem seq_lt (h : PlacedChain c systemId chain) {r : Receipt} (hr : r ∈ chain) :
    r.seq.1 < chain.length := by
  obtain ⟨n, hn⟩ := List.mem_iff_getElem?.mp hr
  rw [h.seq_eq hn]
  exact (List.getElem?_eq_some_iff.mp hn).1

theorem eq_of_seq (h : PlacedChain c systemId chain) {a b : Receipt} (ha : a ∈ chain) (hb : b ∈ chain)
    (hseq : a.seq = b.seq) : a = b := by
  obtain ⟨m, hm⟩ := List.mem_iff_getElem?.mp ha
  obtain ⟨n, hn⟩ := List.mem_iff_getElem?.mp hb
  have hmn : m = n := by rw [← h.seq_eq hm, ← h.seq_eq hn, hseq]
  rw [hmn, hn] at hm
  exact (Option.some.inj hm).symm

/-- Positions are numbers a double holds. -/
theorem length_le (h : PlacedChain c systemId chain) : chain.length ≤ 2 ^ 53 + 1 := by
  by_contra hlong
  have hlt : 2 ^ 53 + 1 < chain.length := by omega
  have hseq := h.seq_eq (List.getElem?_eq_getElem hlt)
  have hdouble := (chain[2 ^ 53 + 1]).seq.2.1
  rw [hseq] at hdouble
  exact absurd hdouble (by decide +kernel)

end PlacedChain

/-- A system's rows are those of a chain. -/
def ChainOf (c : Crypto) (db : Database) (systemId : SystemId) (chain : List Receipt) : Prop :=
  db.chainRows systemId = chain.map (receiptRow c) ∧ PlacedChain c systemId chain

namespace ChainOf

variable {db db' : Database} {systemId : SystemId} {chain : List Receipt}

theorem tipRow (h : ChainOf c db systemId chain) : db.tipRow systemId
    = chain.getLast?.map fun r => ⟨r.seq, receiptHashHex c r.toUnsignedReceipt, r.tsReceived⟩ := by
  rw [Database.tipRow, h.1, List.getLast?_map, Option.map_map]
  rfl

theorem seqAfter (h : ChainOf c db systemId chain) : seqAfter (db.tipRow systemId) = chain.length := by
  rw [h.tipRow]
  rcases List.eq_nil_or_concat chain with rfl | ⟨before, last, rfl⟩
  · rfl
  · have hlast := h.2.seq_eq (n := before.length) (r := last) (by simp)
    simp [Sigillo.seqAfter, hlast]

theorem prevHash (h : ChainOf c db systemId chain) :
    prevHashOf (db.tipRow systemId) = prevHashAfter c chain := by
  rw [h.tipRow, prevHashAfter]
  cases chain.getLast? with
  | none => rfl
  | some last => rfl

/-- **A receipt at its place becomes the last of its chain.** -/
theorem append (h : ChainOf c db systemId chain) {r : Receipt}
    (hr : Placed c systemId chain r.toUnsignedReceipt)
    (hrows : db'.receipts = db.receipts ++ [receiptRow c r]) : ChainOf c db' systemId (chain ++ [r]) := by
  refine ⟨?_, h.2.append hr⟩
  rw [List.map_append, List.map_singleton, ← h.1]
  refine Database.chainRows_append_self hrows hr.systemId ?_ ?_
  · rw [h.1]
    intro a ha b hb hseq
    obtain ⟨x, hx, rfl⟩ := List.mem_map.mp ha
    obtain ⟨y, hy, rfl⟩ := List.mem_map.mp hb
    rw [h.2.eq_of_seq hx hy hseq]
  · rw [h.1]
    intro a ha
    obtain ⟨x, hx, rfl⟩ := List.mem_map.mp ha
    show x.seq.1 < r.seq.1
    rw [hr.seq]
    exact h.2.seq_lt hx

/-- Receipts that are each at their place after a chain. -/
theorem appendAll {taken : List Receipt} (h : ChainOf c db systemId chain)
    (htaken : PlacedChain c systemId (chain ++ taken))
    (hrows : db'.receipts = db.receipts ++ taken.map (receiptRow c)) :
    ChainOf c db' systemId (chain ++ taken) := by
  induction taken generalizing db chain with
  | nil =>
      rw [List.map_nil, List.append_nil] at hrows
      rw [List.append_nil]
      exact ⟨(Database.chainRows_of_receipts hrows).trans h.1, h.2⟩
  | cons r rest ih =>
      have hr : Placed c systemId chain r.toUnsignedReceipt := by
        have hat := htaken chain.length r (by simp)
        rwa [List.take_left] at hat
      have hone : ChainOf c { db with receipts := db.receipts ++ [receiptRow c r] } systemId (chain ++ [r]) :=
        h.append hr rfl
      rw [← List.singleton_append, ← List.append_assoc] at htaken ⊢
      refine ih hone htaken ?_
      rw [hrows, List.map_cons, List.append_assoc, List.singleton_append]

theorem mem_receipts (h : ChainOf c db systemId chain) {row : ReceiptRow} :
    (row ∈ db.receipts ∧ row.systemId = systemId) ↔ ∃ r ∈ chain, receiptRow c r = row := by
  rw [← mem_chainRows, h.1, List.mem_map]

end ChainOf

-- ── Every run ────────────────────────────────────────────────────────────────────

/-- **The database of a run**: every system's rows are a chain, no two rows clash, every nonce is of a
    receipt that is there, and every chain is of a system that is there once. -/
structure Whole (c : Crypto) (db : Database) : Prop where
  chains : ∀ systemId, ∃ chain, ChainOf c db systemId chain
  noClash : db.receipts.Pairwise fun a b => ¬ Database.Clash a b
  openings : ∀ o ∈ db.openings, ∃ row ∈ db.receipts, row.systemId = o.systemId ∧ row.seq = o.seq
  registered : ∀ row ∈ db.receipts, ∃ record ∈ db.systems, record.systemId = row.systemId
  systemsOnce : (db.systems.map (·.systemId)).Nodup

theorem whole_fresh (key : WriterKey) : Whole c (Store.fresh key).db where
  chains systemId := ⟨[], by rw [Database.chainRows]; exact List.mergeSort_nil, .nil⟩
  noClash := List.Pairwise.nil
  openings := by simp [Store.fresh, Database.fresh]
  registered := by simp [Store.fresh, Database.fresh]
  systemsOnce := List.nodup_nil

namespace Whole

variable {db db' : Database}

/-- A change of no row that matters. -/
theorem frame (h : Whole c db) (hreceipts : db'.receipts = db.receipts) (hopenings : db'.openings ⊆ db.openings)
    (hsystems : db'.systems.map (·.systemId) = db.systems.map (·.systemId)) : Whole c db' where
  chains systemId := by
    obtain ⟨chain, hrows, hplaced⟩ := h.chains systemId
    exact ⟨chain, (Database.chainRows_of_receipts hreceipts).trans hrows, hplaced⟩
  noClash := hreceipts ▸ h.noClash
  openings o ho := hreceipts ▸ h.openings o (hopenings ho)
  registered row hrow := by
    obtain ⟨record, hrecord, hsame⟩ := h.registered row (hreceipts ▸ hrow)
    have hmem : row.systemId ∈ db'.systems.map (·.systemId) := by
      rw [hsystems, ← hsame]
      exact List.mem_map_of_mem hrecord
    exact List.mem_map.mp hmem
  systemsOnce := hsystems ▸ h.systemsOnce

/-- Chains deleted with their nonces. -/
theorem delete (h : Whole c db) (gone : SystemId → Bool)
    (hreceipts : db'.receipts = db.receipts.filter fun r => !gone r.systemId)
    (hopenings : ∀ o ∈ db'.openings, o ∈ db.openings ∧ gone o.systemId = false)
    (hsystems : db'.systems = db.systems.filter fun r => !gone r.systemId) : Whole c db' where
  chains systemId := by
    have hrows : db'.chainRows systemId = if gone systemId then [] else db.chainRows systemId :=
      Database.chainRows_filter hreceipts
    by_cases hgone : gone systemId = true
    · rw [if_pos hgone] at hrows
      exact ⟨[], hrows, .nil⟩
    · rw [if_neg hgone] at hrows
      obtain ⟨chain, hchain, hplaced⟩ := h.chains systemId
      exact ⟨chain, hrows.trans hchain, hplaced⟩
  noClash := by
    rw [hreceipts]
    exact h.noClash.filter _
  openings o ho := by
    obtain ⟨hmem, hkept⟩ := hopenings o ho
    obtain ⟨row, hrow, hsystem, hseq⟩ := h.openings o hmem
    refine ⟨row, ?_, hsystem, hseq⟩
    rw [hreceipts, List.mem_filter, hsystem, hkept]
    exact ⟨hrow, rfl⟩
  registered row hrow := by
    rw [hreceipts, List.mem_filter] at hrow
    obtain ⟨record, hrecord, hsame⟩ := h.registered row hrow.1
    refine ⟨record, ?_, hsame⟩
    rw [hsystems, List.mem_filter, hsame]
    exact ⟨hrecord, hrow.2⟩
  systemsOnce := by
    rw [hsystems]
    exact (List.filter_sublist.map _).nodup h.systemsOnce

/-- **The next receipt of a chain stands at its place**: past what a double counts, its rounded
    position would be taken. -/
theorem placed {event : ChainEvent} {mode : WriteMode} {attempt : Attempt} {prepared : Prepared}
    {receipt : Receipt} (hwrites : Writes c u key db event mode attempt prepared receipt db')
    {chain : List Receipt} (hchain : ChainOf c db event.systemId chain) :
    Placed c event.systemId chain receipt.toUnsignedReceipt := by
  have hrecords := records_of_buildUnsigned _ _ _ _ hwrites.built
  have hseq := hrecords.seq
  rw [hchain.seqAfter] at hseq
  refine ⟨hrecords.systemId, ?_, hrecords.prevHash.trans hchain.prevHash⟩
  by_cases hfits : chain.length ≤ 2 ^ 53
  · rw [JsNumber.ofNat_of_isDouble (isDouble_natCast hfits), JsNumber.fin.injEq] at hseq
    exact_mod_cast hseq.symm
  · have hlength : chain.length = 2 ^ 53 + 1 := le_antisymm hchain.2.length_le (by omega)
    have hround : JsNumber.ofNat (2 ^ 53 + 1) = .fin (2 ^ 53 : ℕ) (isDouble_natCast le_rfl) := by
      decide +kernel
    rw [hlength, hround, JsNumber.fin.injEq] at hseq
    have hrounded : receipt.seq.1 = 2 ^ 53 := by exact_mod_cast hseq.symm
    have hlast : 2 ^ 53 < chain.length := by omega
    have hrow := (hchain.mem_receipts).mpr ⟨chain[2 ^ 53], List.getElem_mem hlast, rfl⟩
    refine absurd (.inl ⟨?_, ?_⟩) (hwrites.noClash _ hrow.1)
    · rw [hrow.2]
      exact hrecords.systemId.symm
    · refine Subtype.ext ?_
      show chain[2 ^ 53].seq.1 = receipt.seq.1
      rw [hrounded, hchain.2.seq_eq (List.getElem?_eq_getElem hlast)]

theorem wrote (h : Whole c db) {event : ChainEvent} {mode : WriteMode} {attempt : Attempt}
    {prepared : Prepared} {receipt : Receipt}
    (hwrites : Writes c u key db event mode attempt prepared receipt db') : Whole c db' := by
  have hreceipts : db'.receipts = db.receipts ++ [receiptRow c receipt] := by rw [hwrites.db_eq]; rfl
  have hsystems : db'.systems = systemsAfter db event mode := by rw [hwrites.db_eq]; rfl
  have hsystem : receipt.systemId = event.systemId :=
    (records_of_buildUnsigned _ _ _ _ hwrites.built).systemId
  have hkept : ∀ record ∈ db.systems, record ∈ db'.systems := by
    intro record hrecord
    rw [hsystems]
    cases mode with
    | genesis organizationId => exact List.mem_append_left _ hrecord
    | continuation => exact hrecord
  constructor
  case chains =>
    intro systemId
    obtain ⟨chain, hchain⟩ := h.chains systemId
    by_cases hown : systemId = event.systemId
    · obtain rfl := hown
      exact ⟨_, hchain.append (placed hwrites hchain) hreceipts⟩
    · refine ⟨chain, (Database.chainRows_append_of_ne hreceipts ?_).trans hchain.1, hchain.2⟩
      intro row hrow
      rw [List.mem_singleton.mp hrow]
      exact fun hsame => hown (hsame.symm.trans hsystem)
  case noClash =>
    rw [hreceipts, List.pairwise_append]
    refine ⟨h.noClash, List.pairwise_singleton _ _, fun a ha b hb => ?_⟩
    rw [List.mem_singleton.mp hb]
    exact hwrites.noClash a ha
  case openings =>
    intro o ho
    have hopenings : db'.openings
        = db.openings ++ openingRows receipt (some (prepared.input, prepared.output)) := by
      rw [hwrites.db_eq]
      rfl
    rw [hreceipts]
    rw [hopenings, List.mem_append] at ho
    rcases ho with ho | ho
    · obtain ⟨row, hrow, hat⟩ := h.openings o ho
      exact ⟨row, List.mem_append_left _ hrow, hat⟩
    · obtain ⟨hname, hseq⟩ := mem_openingRows ho
      exact ⟨_, List.mem_append_right _ (List.mem_singleton_self _), hname.symm, hseq.symm⟩
  case registered =>
    intro row hrow
    rw [hreceipts, List.mem_append, List.mem_singleton] at hrow
    rcases hrow with hrow | rfl
    · obtain ⟨record, hrecord, hsame⟩ := h.registered row hrow
      exact ⟨record, hkept record hrecord, hsame⟩
    · show ∃ record ∈ db'.systems, record.systemId = receipt.systemId
      rw [hsystem]
      cases mode with
      | genesis organizationId =>
          rw [hsystems]
          exact ⟨_, List.mem_append_right _ (List.mem_singleton_self _), rfl⟩
      | continuation =>
          -- a chain that is carried on has a receipt, and with it a system
          obtain ⟨row, hrow⟩ : ∃ row, row ∈ db.chainRows event.systemId := by
            refine List.exists_mem_of_ne_nil _ fun hnil => ?_
            have hplaced := hwrites.placed
            rw [Database.tipRow, hnil] at hplaced
            cases hplaced
          obtain ⟨hmem, hname⟩ := mem_chainRows.mp hrow
          obtain ⟨record, hrecord, hsame⟩ := h.registered row hmem
          exact ⟨record, hkept record hrecord, hsame.trans hname⟩
  case systemsOnce =>
    rw [hsystems]
    cases mode with
    | genesis organizationId =>
        show ((db.systems ++ [(_ : SystemRow)]).map (·.systemId)).Nodup
        rw [List.map_append, List.nodup_append]
        refine ⟨h.systemsOnce, List.nodup_singleton _, ?_⟩
        rintro a ha b hb rfl
        obtain ⟨record, hrecord, rfl⟩ := List.mem_map.mp ha
        exact (hwrites.newSystem organizationId rfl).2 record hrecord (List.mem_singleton.mp hb)
    | continuation => exact h.systemsOnce

end Whole

-- ── Receipts taken back ──────────────────────────────────────────────────────────

/-- **What a chain takes back continues it**, up to the signer's head. -/
theorem placedChain_takeMissing {db : Database} {systemId : SystemId} {headSeq seq : ℕ} {previous : Hex 64}
    {journal taken chain : List Receipt} (hchain : PlacedChain c systemId chain) (hseq : seq = chain.length)
    (hprevious : previous = prevHashAfter c chain)
    (h : takeMissing c key db systemId headSeq seq previous journal = .ok taken) :
    PlacedChain c systemId (chain ++ taken) := by
  induction journal generalizing seq previous taken chain with
  | nil =>
      obtain rfl := Except.ok.inj h
      rwa [List.append_nil]
  | cons r rest ih =>
      rw [takeMissing] at h
      by_cases hcontinues : continuesChain c key db systemId seq previous r = true
      · rw [if_pos hcontinues] at h
        rw [continuesChain, Bool.and_eq_true, Bool.and_eq_true, Bool.and_eq_true, decide_eq_true_eq,
          decide_eq_true_eq, decide_eq_true_eq] at hcontinues
        obtain ⟨⟨⟨hsystem, hat⟩, hlink⟩, -⟩ := hcontinues
        have hplaced : Placed c systemId chain r.toUnsignedReceipt :=
          ⟨hsystem, hat.trans hseq, hlink.trans hprevious⟩
        by_cases hlast : seq = headSeq
        · rw [if_pos hlast] at h
          obtain rfl := Except.ok.inj h
          exact hchain.append hplaced
        · rw [if_neg hlast] at h
          obtain ⟨later, hlater, rfl⟩ := map_eq_ok.mp h
          rw [← List.singleton_append, ← List.append_assoc]
          refine ih (hchain.append hplaced) ?_ ?_ hlater
          · rw [List.length_append, List.length_singleton, hseq]
          · rw [prevHashAfter, List.getLast?_append, List.getLast?_singleton]
            rfl
      · rw [if_neg hcontinues] at h
        cases h

theorem firstMissingOf_eq_seqAfter (tip : Option TipRow) : firstMissingOf tip = seqAfter tip := by
  cases tip with
  | none => rfl
  | some t => rfl

namespace Whole

variable {db db' : Database}

/-- **A chain that recovered is a chain still.** -/
theorem recovered (h : Whole c db) {systemId : SystemId} {head : Receipt} {journal : Option (List Receipt)}
    {taken : List Receipt} (hmissing : Missing c key db systemId head journal taken)
    (hrestores : Restores c db systemId taken db') : Whole c db' := by
  obtain ⟨added, hsystems, hadded⟩ := hrestores.systems
  obtain ⟨chain, hchain⟩ := h.chains systemId
  have hopenings : db'.openings = db.openings := by rw [hrestores.rest]
  have hplaced : PlacedChain c systemId (chain ++ taken) := by
    refine placedChain_takeMissing hchain.2 ?_ hchain.prevHash hmissing.taken_eq
    rw [firstMissingOf_eq_seqAfter, hchain.seqAfter]
  have hown : ∀ r ∈ taken, r.systemId = systemId := fun r hr =>
    hplaced.system (List.mem_append_right _ hr)
  constructor
  case chains =>
    intro other
    by_cases hsame : other = systemId
    · obtain rfl := hsame
      exact ⟨_, hchain.appendAll hplaced hrestores.receipts⟩
    · obtain ⟨rows, hrows⟩ := h.chains other
      refine ⟨rows, (Database.chainRows_append_of_ne hrestores.receipts ?_).trans hrows.1, hrows.2⟩
      intro row hrow
      obtain ⟨r, hr, rfl⟩ := List.mem_map.mp hrow
      exact fun heq => hsame (heq.symm.trans (hown r hr))
  case noClash =>
    rw [hrestores.receipts]
    exact pairwise_append_of_each h.noClash fun before row after hsplit => by
      obtain ⟨before', rest', rfl, rfl, hrest⟩ := List.map_eq_append_iff.mp hsplit
      obtain ⟨r, after', rfl, rfl, rfl⟩ := List.map_eq_cons_iff.mp hrest
      exact hrestores.noClash before' r after' rfl
  case openings =>
    intro o ho
    obtain ⟨row, hrow, hat⟩ := h.openings o (hopenings ▸ ho)
    exact ⟨row, hrestores.receipts ▸ List.mem_append_left _ hrow, hat⟩
  case registered =>
    intro row hrow
    rw [hrestores.receipts, List.mem_append] at hrow
    have hkept : ∀ record ∈ db.systems, record ∈ db'.systems := fun record hrecord =>
      hsystems ▸ List.mem_append_left _ hrecord
    rcases hrow with hrow | hrow
    · obtain ⟨record, hrecord, hsame⟩ := h.registered row hrow
      exact ⟨record, hkept record hrecord, hsame⟩
    · obtain ⟨r, hr, rfl⟩ := List.mem_map.mp hrow
      show ∃ record ∈ db'.systems, record.systemId = r.systemId
      rw [hown r hr]
      rcases List.eq_nil_or_concat chain with rfl | ⟨before, last, rfl⟩
      · -- the chain was taken back whole, its genesis with it
        obtain ⟨first, hfirst⟩ : ∃ first, ([] ++ taken)[0]? = some first :=
          ⟨_, List.getElem?_eq_getElem (List.length_pos_of_mem hr)⟩
        refine hrestores.opened first (List.mem_of_getElem? hfirst) ?_
        exact hplaced.seq_eq hfirst
      · have hlast := hchain.mem_receipts.mpr ⟨last, by simp, rfl⟩
        obtain ⟨record, hrecord, hsame⟩ := h.registered _ hlast.1
        exact ⟨record, hkept record hrecord, hsame.trans hlast.2⟩
  case systemsOnce => exact hrestores.systemsOnce h.systemsOnce

/-- Many chains deleted, each with its nonces. -/
theorem deleteAll (h : Whole c db) {records : List SystemRow}
    (hreceipts : db'.receipts = db.receipts.filter fun r =>
      !(records.any fun record => record.systemId == r.systemId))
    (hopenings : db'.openings = db.openings.filter fun o =>
      !(records.any fun record => record.systemId == o.systemId))
    (hsystems : db'.systems = db.systems.filter fun r =>
      !(records.any fun record => record.systemId == r.systemId)) : Whole c db' := by
  refine h.delete (fun systemId => records.any fun record => record.systemId == systemId)
    hreceipts (fun o ho => ?_) hsystems
  rw [hopenings, List.mem_filter, Bool.not_eq_true'] at ho
  exact ho

/-- **Every transaction keeps the chains.** -/
theorem commit {s s' : Store} {k : Kind} (h : Commit c u key s k s') (hs : Whole c s.db) : Whole c s'.db := by
  cases h with
  | wrote writes genesis => exact hs.wrote writes
  | recovered ahead missing restores => exact hs.recovered missing restores
  | beside h => exact hs.frame h.receipts (fun _ ho => h.openings ▸ ho) h.systems
  | deletedEmpty only first noOpening deletes openings =>
      refine hs.delete (fun name => name == _) deletes.receipts (fun o ho => ?_) deletes.systems
      rw [openings] at ho
      refine ⟨ho, beq_eq_false_iff_ne.mpr fun hsystem => ?_⟩
      -- a nonce of the deleted chain would be of its genesis
      obtain ⟨row, hrow, hname, hseq⟩ := hs.openings o ho
      have hmem := mem_chainRows.mpr ⟨hrow, hname.trans hsystem⟩
      rw [only, List.mem_singleton] at hmem
      exact noOpening o ho ⟨hsystem, hseq.symm.trans (by rw [hmem])⟩
  | erasedOperator found own deletes openings =>
      refine hs.delete (fun name => name == _) deletes.receipts (fun o ho => ?_) deletes.systems
      rw [openings, List.mem_filter, Bool.not_eq_true'] at ho
      exact ho
  | erasedOrganization owned receipts openings subjects systems adminLog =>
      exact hs.deleteAll receipts openings systems
  | erasedSubject receipts openings systems adminLog =>
      exact hs.frame receipts (fun _ ho => openings ▸ ho) (by rw [systems])
  | erasedOpenings receipts subjects systems openings adminLog =>
      refine hs.frame receipts ?_ (by rw [systems])
      rw [openings]
      exact List.filter_subset_self _

end Whole

/-- **Every system's rows are a chain, over any run.** -/
theorem whole_run (ops : List Operation) : Whole c (run c u key (.fresh key) ops).db :=
  run_keeps (P := fun s => Whole c s.db) (fun _ _ _ _ h hs => hs.commit h) (whole_fresh key)

end Sigillo
