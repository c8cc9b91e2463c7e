import Sigillo.StoredReceipts
import Sigillo.AssocList
import Sigillo.Fallible

/-!
# The chain health monitor

At every tick the monitor verifies what is new of each chain, from where the last tick left off. The database
it reads may have been tampered with: a stored row is a number, a text and a signature, whatever they are.

* **`check`** — one call, system by system; what a row that is no receipt throws leaves the rest of the systems
  unchecked
* **`IsIntact`** — what verifying a whole chain from its genesis asks
* **`Holds`** — what is remembered of a chain, against the chain
* **`check_agrees_iff`** — after a call of any run over chains numbered from zero the verdicts are those of whole
  chains exactly where every row it had to read can be read
* **`below_zero_unread`** — a chain stored below zero is called sound, whatever it holds -/

namespace Sigillo

open DoubleArith Utf16Text JsonText JsonParse JsonSchema HexBase64 IsoTime Fallible AssocList

-- ── What the database holds ──────────────────────────────────────────────────────

/-- A row of `receipts`, in a file anybody may have written: its number, an `INTEGER` of whatever sign, and the two
    texts the monitor reads. -/
structure LedgerRow where
  seq : ℤ
  canonical : JsString
  sig : JsString

/-- **The part of the database a monitor reads**: `listSystems`, the rows of each system in the order of their
    numbers, which are unique, and the raw bytes of the keys. -/
structure Ledger where
  systems : List JsString
  rows : JsString → List LedgerRow
  keys : List (JsString × Bytes)
  distinct : systems.Nodup
  ascending : ∀ systemId, (rows systemId).Pairwise fun a b => a.seq < b.seq

/-- `rowToReceipt`; `none` where it throws. -/
def LedgerRow.receipt (row : LedgerRow) : Option Receipt :=
  match jsonParse row.canonical with
  | some (.obj members) => receiptSchema.decode (.obj (setMember members (js "sig") (.str row.sig)))
  | _ => none

namespace Ledger

/-- `readChainFrom`; `none` where a row throws. -/
def readChainFrom (ledger : Ledger) (systemId : JsString) (afterSeq : ℤ) : Option (List Receipt) :=
  ((ledger.rows systemId).filter fun row => afterSeq < row.seq).mapM LedgerRow.receipt

/-- `publicKeyFor(keyId) ?? this.publicKey`; `none` where the stored key is no key, and it throws. -/
def keyOf (ledger : Ledger) (fallback : Bytes) (keyId : Hex 16) : Option Bytes :=
  match ledger.keys.lookup keyId.1 with
  | none => some fallback
  | some raw => if raw.length = 32 then some raw else none

end Ledger

-- ── The monitor ──────────────────────────────────────────────────────────────────

namespace ChainHealthMonitor

/-- Why a chain failed. -/
inductive ChainFailure where
  | link (seq : ℕ)
  | signature (seq : ℕ)
deriving DecidableEq

/-- What is remembered of a chain. -/
structure TrackedState where
  lastSeq : ℤ
  lastHash : Hex 64
  failed : Bool
  failure : Option ChainFailure
deriving DecidableEq

variable (c : Crypto) (fallback : Bytes)

/-- The loop of `checkSystem`; `none` where it throws. -/
def checkReceipts (ledger : Ledger) : ℤ → Hex 64 → List Receipt → Option TrackedState
  | lastSeq, lastHash, [] => some ⟨lastSeq, lastHash, false, none⟩
  | lastSeq, lastHash, receipt :: receipts =>
      if receipt.prevHash ≠ lastHash then some ⟨lastSeq, lastHash, true, some (.link receipt.seq.1)⟩
      else
        match ledger.keyOf fallback receipt.keyId with
        | none => none
        | some key =>
            if verifyReceiptSignature c receipt key = false then
              some ⟨lastSeq, lastHash, true, some (.signature receipt.seq.1)⟩
            else checkReceipts ledger receipt.seq.1 (receiptHashHex c receipt.toUnsignedReceipt) receipts

/-- `this.tracked`. -/
abbrev Tracked := List (JsString × TrackedState)

/-- `previous?.lastSeq ?? -1` and `previous?.lastHash ?? GENESIS_PREV_HASH`. -/
def Tracked.from (tracked : Tracked) (systemId : JsString) : TrackedState :=
  (tracked.lookup systemId).getD ⟨-1, GENESIS_PREV_HASH, false, none⟩

/-- `checkSystem`: what is new of one chain. -/
def checkSystem (ledger : Ledger) (tracked : Tracked) (systemId : JsString) : Option Tracked :=
  if (tracked.from systemId).failed = true then some tracked
  else do
    let receipts ← ledger.readChainFrom systemId (tracked.from systemId).lastSeq
    let state ← checkReceipts c fallback ledger (tracked.from systemId).lastSeq (tracked.from systemId).lastHash
      receipts
    return AssocList.set tracked systemId state

/-- `check` over some systems: what is remembered, and whether it went to the end. -/
def checkSystems (ledger : Ledger) : List JsString → Tracked → Tracked × Bool
  | [], tracked => (tracked, true)
  | systemId :: systemIds, tracked =>
      match checkSystem c fallback ledger tracked systemId with
      | none => (tracked, false)
      | some tracked' => checkSystems ledger systemIds tracked'

/-- **`check`**. -/
def check (ledger : Ledger) (tracked : Tracked) : Tracked × Bool :=
  checkSystems c fallback ledger ledger.systems tracked

-- ── A whole chain ────────────────────────────────────────────────────────────────

/-- Each carries the hash of the one before, the first a given one. -/
def LinkedFrom : Hex 64 → List Receipt → Prop
  | _, [] => True
  | hash, receipt :: receipts =>
      receipt.prevHash = hash ∧ LinkedFrom (receiptHashHex c receipt.toUnsignedReceipt) receipts

/-- Its signature verifies under the key it names. -/
def VerifiesUnderKey (ledger : Ledger) (receipt : Receipt) : Prop :=
  ∃ key, ledger.keyOf fallback receipt.keyId = some key ∧ verifyReceiptSignature c receipt key = true

/-- **An intact chain**: every stored row is a receipt, every link is right and every signature verifies. -/
def IsIntact (ledger : Ledger) (systemId : JsString) : Prop :=
  ∃ receipts, (ledger.rows systemId).mapM LedgerRow.receipt = some receipts ∧
    LinkedFrom c GENESIS_PREV_HASH receipts ∧ ∀ receipt ∈ receipts, VerifiesUnderKey c fallback ledger receipt

/-- **The verdicts agree** with those of whole chains, for every system, in a call that went to the end. -/
def Agrees (ledger : Ledger) (result : Tracked × Bool) : Prop :=
  result.2 = true ∧ ∀ systemId ∈ ledger.systems,
    ((result.1.from systemId).failed = true ↔ ¬ IsIntact c fallback ledger systemId)

-- ── The loop over receipts ───────────────────────────────────────────────────────

/-- The hash the next receipt has to carry. -/
def hashAfter : Hex 64 → List Receipt → Hex 64
  | hash, [] => hash
  | _, receipt :: receipts => hashAfter (receiptHashHex c receipt.toUnsignedReceipt) receipts

/-- The number of the last receipt, or the one before them. -/
def seqAfter : ℤ → List Receipt → ℤ
  | seq, [] => seq
  | _, receipt :: receipts => seqAfter receipt.seq.1 receipts

/-- **The keys can be read**, of every receipt that the check comes to. -/
def KeysReadable (ledger : Ledger) : Hex 64 → List Receipt → Prop
  | _, [] => True
  | hash, receipt :: receipts => receipt.prevHash = hash →
      ∃ key, ledger.keyOf fallback receipt.keyId = some key ∧ (verifyReceiptSignature c receipt key = true →
        KeysReadable ledger (receiptHashHex c receipt.toUnsignedReceipt) receipts)

/-- Linked and signed, from a hash on. -/
def IsFine (ledger : Ledger) (hash : Hex 64) (receipts : List Receipt) : Prop :=
  LinkedFrom c hash receipts ∧ ∀ receipt ∈ receipts, VerifiesUnderKey c fallback ledger receipt

variable {c fallback} {ledger : Ledger}

theorem isFine_nil (hash : Hex 64) : IsFine c fallback ledger hash [] := ⟨trivial, fun _ h => nomatch h⟩

theorem isFine_cons {hash : Hex 64} {receipt : Receipt} {receipts : List Receipt} :
    IsFine c fallback ledger hash (receipt :: receipts) ↔ receipt.prevHash = hash ∧
      VerifiesUnderKey c fallback ledger receipt ∧
      IsFine c fallback ledger (receiptHashHex c receipt.toUnsignedReceipt) receipts := by
  rw [IsFine, IsFine, LinkedFrom, List.forall_mem_cons]
  tauto

theorem isFine_append {hash : Hex 64} {a b : List Receipt} :
    IsFine c fallback ledger hash (a ++ b) ↔
      IsFine c fallback ledger hash a ∧ IsFine c fallback ledger (hashAfter c hash a) b := by
  induction a generalizing hash with
  | nil => exact ⟨fun h => ⟨isFine_nil hash, h⟩, fun h => h.2⟩
  | cons receipt a ih =>
      rw [List.cons_append, isFine_cons, isFine_cons, ih, hashAfter]
      tauto

theorem hashAfter_append (hash : Hex 64) (a b : List Receipt) :
    hashAfter c hash (a ++ b) = hashAfter c (hashAfter c hash a) b := by
  induction a generalizing hash with
  | nil => rfl
  | cons receipt a ih => exact ih _

theorem keysReadable_append {hash : Hex 64} {a b : List Receipt} (h : IsFine c fallback ledger hash a) :
    KeysReadable c fallback ledger hash (a ++ b) ↔ KeysReadable c fallback ledger (hashAfter c hash a) b := by
  induction a generalizing hash with
  | nil => exact Iff.rfl
  | cons receipt a ih =>
      obtain ⟨hlink, ⟨key, hkey, hverifies⟩, hrest⟩ := isFine_cons.mp h
      rw [List.cons_append, KeysReadable, hashAfter, ← ih hrest]
      constructor
      · intro hall
        obtain ⟨key', hkey', hnext⟩ := hall hlink
        obtain rfl := Option.some.inj (hkey.symm.trans hkey')
        exact hnext hverifies
      · intro hnext _
        exact ⟨key, hkey, fun _ => hnext⟩

variable (c fallback ledger) in
/-- **What the loop comes to**: it throws at a key it cannot read, and else says whether the receipts are fine. -/
theorem checkReceipts_spec (seq : ℤ) (hash : Hex 64) (receipts : List Receipt) :
    (checkReceipts c fallback ledger seq hash receipts = none ↔ ¬ KeysReadable c fallback ledger hash receipts) ∧
    ∀ state, checkReceipts c fallback ledger seq hash receipts = some state →
      (state.failed = true ∧ ¬ IsFine c fallback ledger hash receipts) ∨
      (state.failed = false ∧ IsFine c fallback ledger hash receipts ∧ state.lastHash = hashAfter c hash receipts ∧
        state.lastSeq = seqAfter seq receipts) := by
  induction receipts generalizing seq hash with
  | nil =>
      refine ⟨⟨fun h => (nomatch h), fun h => absurd trivial h⟩, fun state h => .inr ?_⟩
      obtain rfl := Option.some.inj h
      exact ⟨rfl, isFine_nil hash, rfl, rfl⟩
  | cons receipt receipts ih =>
      rw [checkReceipts, KeysReadable, isFine_cons]
      by_cases hlink : receipt.prevHash = hash
      · rw [if_neg (not_not.mpr hlink)]
        cases hkey : ledger.keyOf fallback receipt.keyId with
        | none =>
            refine ⟨⟨fun _ hall => ?_, fun _ => rfl⟩, fun state h => (nomatch h)⟩
            obtain ⟨key, hsome, -⟩ := hall hlink
            cases hsome
        | some key =>
            dsimp only
            have hunder : VerifiesUnderKey c fallback ledger receipt ↔ verifyReceiptSignature c receipt key = true := by
              rw [VerifiesUnderKey, hkey]
              constructor
              · rintro ⟨key', hsome, hverifies⟩
                rw [Option.some.inj hsome]
                exact hverifies
              · exact fun hverifies => ⟨key, rfl, hverifies⟩
            cases hverifies : verifyReceiptSignature c receipt key with
            | false =>
                rw [if_pos rfl]
                refine ⟨⟨fun h => (nomatch h), fun hnot => ?_⟩, fun state h => .inl ?_⟩
                · exact absurd (fun _ => ⟨key, rfl, fun h => (nomatch (hverifies.symm.trans h))⟩) hnot
                · obtain rfl := Option.some.inj h
                  refine ⟨rfl, fun hfine => ?_⟩
                  rw [hunder, hverifies] at hfine
                  cases hfine.2.1
            | true =>
                rw [if_neg (by exact nofun)]
                obtain ⟨hthrows, hstates⟩ := ih receipt.seq.1 (receiptHashHex c receipt.toUnsignedReceipt)
                refine ⟨hthrows.trans (not_congr ?_), fun state h => ?_⟩
                · constructor
                  · intro hnext _
                    exact ⟨key, rfl, fun _ => hnext⟩
                  · intro hall
                    obtain ⟨key', hsome, hnext⟩ := hall hlink
                    exact hnext ((Option.some.inj hsome) ▸ hverifies)
                · rw [hunder, hverifies]
                  rcases hstates state h with ⟨hfailed, hnot⟩ | ⟨hfailed, hfine, hhash, hseq⟩
                  · exact .inl ⟨hfailed, fun hfine => hnot hfine.2.2⟩
                  · exact .inr ⟨hfailed, ⟨hlink, rfl, hfine⟩, hhash, hseq⟩
      · rw [if_pos hlink]
        refine ⟨⟨fun h => (nomatch h), fun hnot => absurd (fun h => absurd h hlink) hnot⟩, fun state h => .inl ?_⟩
        obtain rfl := Option.some.inj h
        exact ⟨rfl, fun hfine => hlink hfine.1⟩

-- ── What is remembered ───────────────────────────────────────────────────────────

/-- The number of the last row, or the one before all. -/
def lastNumber (rows : List LedgerRow) : ℤ := (rows.getLast?.map fun row => row.seq).getD (-1)

variable (c fallback ledger)

/-- **What is remembered of a chain, against the chain**: it failed, and is not intact; or the rows up to a point were
    fine, and those after it are the ones that come next. -/
structure Holds (systemId : JsString) (state : TrackedState) : Prop where
  failed : state.failed = true → ¬ IsIntact c fallback ledger systemId
  fine : state.failed = false → ∃ done rest receipts, ledger.rows systemId = done ++ rest ∧
    done.mapM LedgerRow.receipt = some receipts ∧ IsFine c fallback ledger GENESIS_PREV_HASH receipts ∧
    state.lastHash = hashAfter c GENESIS_PREV_HASH receipts ∧ state.lastSeq = lastNumber done

/-- All of a chain can be read: each row is a receipt, and the keys are keys as far as the check comes. -/
def CanBeRead (systemId : JsString) : Prop :=
  ∃ receipts, (ledger.rows systemId).mapM LedgerRow.receipt = some receipts ∧
    KeysReadable c fallback ledger GENESIS_PREV_HASH receipts

/-- No row of a chain is stored below zero. -/
def FromZero (systemId : JsString) : Prop := ∀ row ∈ ledger.rows systemId, 0 ≤ row.seq

/-- The last row of a chain is stored under the number its receipt has. -/
def LastNumbered (systemId : JsString) : Prop :=
  ∀ row receipt, (ledger.rows systemId).getLast? = some row → row.receipt = some receipt → receipt.seq.1 = row.seq

variable {c fallback ledger}

theorem holds_fresh (systemId : JsString) :
    Holds c fallback ledger systemId ⟨-1, GENESIS_PREV_HASH, false, none⟩ where
  failed h := nomatch h
  fine _ := ⟨[], ledger.rows systemId, [], rfl, rfl, isFine_nil _, rfl, rfl⟩

/-- The rows that are read are those after the ones that were fine. -/
theorem filter_rest {systemId : JsString} (hzero : FromZero ledger systemId) {done rest : List LedgerRow}
    (h : ledger.rows systemId = done ++ rest) :
    ((ledger.rows systemId).filter fun row => lastNumber done < row.seq) = rest := by
  have hascending := ledger.ascending systemId
  rw [h, List.pairwise_append] at hascending
  obtain ⟨hdone, -, hbetween⟩ := hascending
  rw [h, List.filter_append]
  have hnone : (done.filter fun row => lastNumber done < row.seq) = [] := by
    rw [List.filter_eq_nil_iff]
    intro row hrow
    rw [decide_eq_true_iff, not_lt]
    obtain ⟨last, hlast⟩ : ∃ last, done.getLast? = some last := by
      cases hlast : done.getLast? with
      | none =>
          rw [List.getLast?_eq_none_iff.mp hlast] at hrow
          cases hrow
      | some last => exact ⟨last, rfl⟩
    rw [lastNumber, hlast]
    show row.seq ≤ last.seq
    obtain ⟨front, rfl⟩ := List.getLast?_eq_some_iff.mp hlast
    rw [List.pairwise_append] at hdone
    rcases List.mem_append.mp hrow with hfront | hend
    · exact (hdone.2.2 row hfront last (List.mem_singleton_self last)).le
    · rw [List.mem_singleton.mp hend]
  have hall : (rest.filter fun row => lastNumber done < row.seq) = rest := by
    rw [List.filter_eq_self]
    intro row hrow
    rw [decide_eq_true_iff, lastNumber]
    cases hlast : done.getLast? with
    | none =>
        have hrow : 0 ≤ row.seq := hzero row (h ▸ List.mem_append_right _ hrow)
        show (-1 : ℤ) < row.seq
        omega
    | some last => exact hbetween last (List.mem_of_getLast? hlast) row hrow
  rw [hnone, hall, List.nil_append]

theorem seqAfter_append (seq : ℤ) (front : List Receipt) (last : Receipt) :
    seqAfter seq (front ++ [last]) = last.seq.1 := by
  induction front generalizing seq with
  | nil => rfl
  | cons receipt front ih => exact ih _

/-- The number remembered is that of the last row. -/
theorem seqAfter_rows {systemId : JsString} {done rest : List LedgerRow} {receipts : List Receipt}
    (h : ledger.rows systemId = done ++ rest) (hreceipts : rest.mapM LedgerRow.receipt = some receipts)
    (hnumbered : LastNumbered ledger systemId) : seqAfter (lastNumber done) receipts = lastNumber (done ++ rest) := by
  cases hlast : rest.getLast? with
  | none =>
      rw [List.getLast?_eq_none_iff] at hlast
      subst hlast
      obtain rfl := Option.some.inj hreceipts
      rw [List.append_nil]
      rfl
  | some row =>
      obtain ⟨front, rfl⟩ := List.getLast?_eq_some_iff.mp hlast
      obtain ⟨receipts, back, -, hback, rfl⟩ := mapM_append_eq_some.mp hreceipts
      obtain ⟨receipt, hreceipt, hback⟩ := Option.bind_eq_some_iff.mp (List.mapM_cons.symm.trans hback)
      obtain rfl : [receipt] = back := Option.some.inj hback
      have hend : (ledger.rows systemId).getLast? = some row := by
        rw [h, List.getLast?_append, hlast]
        rfl
      rw [seqAfter_append, hnumbered row receipt hend hreceipt, lastNumber, ← h, hend]
      rfl

/-- **One system**: it throws where what is left cannot be read, and else remembers whether the chain is intact. -/
theorem checkSystem_spec {tracked : Tracked} {systemId : JsString} (hzero : FromZero ledger systemId)
    (hholds : Holds c fallback ledger systemId (tracked.from systemId)) :
    (checkSystem c fallback ledger tracked systemId = none ↔
      (tracked.from systemId).failed = false ∧ ¬ CanBeRead c fallback ledger systemId) ∧
    ∀ tracked', checkSystem c fallback ledger tracked systemId = some tracked' →
      ((tracked'.from systemId).failed = true ↔ ¬ IsIntact c fallback ledger systemId) ∧
      (∀ other, other ≠ systemId → tracked'.from other = tracked.from other) ∧
      (LastNumbered ledger systemId → Holds c fallback ledger systemId (tracked'.from systemId)) := by
  rw [checkSystem]
  cases hfailed : (tracked.from systemId).failed with
  | true =>
      rw [if_pos rfl]
      refine ⟨⟨fun h => (nomatch h), fun h => (nomatch h.1)⟩, fun tracked' h => ?_⟩
      obtain rfl := Option.some.inj h
      exact ⟨⟨fun _ => hholds.failed hfailed, fun _ => hfailed⟩, fun _ _ => rfl, fun _ => hholds⟩
  | false =>
      rw [if_neg Bool.false_ne_true]
      obtain ⟨done, rest, front, hrows, hdone, hfine, hhash, hseq⟩ := hholds.fine hfailed
      have hread : ledger.readChainFrom systemId (tracked.from systemId).lastSeq
          = rest.mapM LedgerRow.receipt := by
        rw [Ledger.readChainFrom, hseq, filter_rest hzero hrows]
      rw [hread, hhash]
      cases hrest : rest.mapM LedgerRow.receipt with
      | none =>
          refine ⟨⟨fun _ => ⟨rfl, ?_⟩, fun _ => rfl⟩, fun tracked' h => (nomatch h)⟩
          rintro ⟨receipts, hall, -⟩
          rw [hrows] at hall
          obtain ⟨_, back, -, hback, -⟩ := mapM_append_eq_some.mp hall
          rw [hrest] at hback
          cases hback
      | some back =>
          have hall : (ledger.rows systemId).mapM LedgerRow.receipt = some (front ++ back) := by
            rw [hrows]
            exact mapM_append_eq_some.mpr ⟨front, back, hdone, hrest, rfl⟩
          have hintact : IsIntact c fallback ledger systemId ↔
              IsFine c fallback ledger (hashAfter c GENESIS_PREV_HASH front) back := by
            constructor
            · rintro ⟨receipts, hreceipts, hsound⟩
              obtain rfl := Option.some.inj (hall.symm.trans hreceipts)
              exact (isFine_append.mp hsound).2
            · exact fun h => ⟨_, hall, isFine_append.mpr ⟨hfine, h⟩⟩
          have hcan : CanBeRead c fallback ledger systemId ↔
              KeysReadable c fallback ledger (hashAfter c GENESIS_PREV_HASH front) back := by
            rw [← keysReadable_append hfine]
            constructor
            · rintro ⟨receipts, hreceipts, hkeys⟩
              obtain rfl := Option.some.inj (hall.symm.trans hreceipts)
              exact hkeys
            · exact fun h => ⟨_, hall, h⟩
          obtain ⟨hthrows, hstates⟩ := checkReceipts_spec c fallback ledger
            (tracked.from systemId).lastSeq (hashAfter c GENESIS_PREV_HASH front) back
          show ((checkReceipts c fallback ledger _ _ back >>= fun state =>
            some (AssocList.set tracked systemId state)) = none ↔ _) ∧ ∀ tracked',
              (checkReceipts c fallback ledger _ _ back >>= fun state =>
                some (AssocList.set tracked systemId state)) = some tracked' → _
          cases hstate : checkReceipts c fallback ledger (tracked.from systemId).lastSeq
              (hashAfter c GENESIS_PREV_HASH front) back with
          | none => exact ⟨⟨fun _ => ⟨rfl, hcan.not.mpr (hthrows.mp hstate)⟩, fun _ => rfl⟩, fun _ h => nomatch h⟩
          | some state =>
              refine ⟨⟨fun h => (nomatch h), fun h => ?_⟩, fun tracked' h => ?_⟩
              · rw [hthrows.mpr (hcan.not.mp h.2)] at hstate
                cases hstate
              · obtain rfl := Option.some.inj h
                have hself : Tracked.from (AssocList.set tracked systemId state) systemId = state := by
                  rw [Tracked.from, lookup_set, beq_self_eq_true]
                  rfl
                have hothers : ∀ other, other ≠ systemId →
                    Tracked.from (AssocList.set tracked systemId state) other = tracked.from other := by
                  intro other hne
                  rw [Tracked.from, lookup_set, beq_false_of_ne hne]
                  rfl
                rw [hself]
                rcases hstates state hstate with ⟨hred, hnot⟩ | ⟨hgreen, hback, hlast, hnumber⟩
                · have hbroken := hintact.not.mpr hnot
                  refine ⟨⟨fun _ => hbroken, fun _ => hred⟩, hothers, fun _ => ⟨fun _ => hbroken, fun h => ?_⟩⟩
                  rw [hred] at h
                  cases h
                · have hwhole := hintact.mpr hback
                  refine ⟨⟨fun h => ?_, fun h => absurd hwhole h⟩, hothers, fun hnumbered => ⟨fun h => ?_, fun _ => ?_⟩⟩
                  · rw [hgreen] at h
                    cases h
                  · rw [hgreen] at h
                    cases h
                  · refine ⟨done ++ rest, [], front ++ back, ?_, ?_, isFine_append.mpr ⟨hfine, hback⟩, ?_, ?_⟩
                    · rw [List.append_nil, hrows]
                    · rw [← hrows]
                      exact hall
                    · rw [hlast, hashAfter_append]
                    · rw [hnumber, hseq]
                      exact seqAfter_rows hrows hrest hnumbered

-- ── A call ───────────────────────────────────────────────────────────────────────

/-- **A call over some systems**: it goes to the end where all that is left of them can be read, and then says of each
    whether its chain is intact. -/
theorem checkSystems_spec {systemIds : List JsString} {tracked : Tracked} (hdistinct : systemIds.Nodup)
    (hzero : ∀ systemId ∈ systemIds, FromZero ledger systemId)
    (hholds : ∀ systemId ∈ systemIds, Holds c fallback ledger systemId (tracked.from systemId)) :
    ((checkSystems c fallback ledger systemIds tracked).2 = true ↔ ∀ systemId ∈ systemIds,
      (tracked.from systemId).failed = false → CanBeRead c fallback ledger systemId) ∧
    ((checkSystems c fallback ledger systemIds tracked).2 = true → ∀ systemId ∈ systemIds,
      (((checkSystems c fallback ledger systemIds tracked).1.from systemId).failed = true ↔
        ¬ IsIntact c fallback ledger systemId)) ∧
    (∀ other, other ∉ systemIds →
      (checkSystems c fallback ledger systemIds tracked).1.from other = tracked.from other) ∧
    (∀ systemId ∈ systemIds, LastNumbered ledger systemId →
      Holds c fallback ledger systemId ((checkSystems c fallback ledger systemIds tracked).1.from systemId)) := by
  induction systemIds generalizing tracked with
  | nil =>
      exact ⟨⟨fun _ _ h => (nomatch h), fun _ => rfl⟩, fun _ _ h => (nomatch h), fun _ _ => rfl,
        fun _ h => (nomatch h)⟩
  | cons first systemIds ih =>
      rw [List.nodup_cons] at hdistinct
      rw [List.forall_mem_cons] at hholds hzero
      obtain ⟨hthrows, hgoes⟩ := checkSystem_spec hzero.1 hholds.1
      rw [checkSystems]
      cases hone : checkSystem c fallback ledger tracked first with
      | none =>
          obtain ⟨hfailed, hcannot⟩ := hthrows.mp hone
          refine ⟨⟨fun h => (nomatch h), fun h => absurd (h first List.mem_cons_self hfailed) hcannot⟩,
            fun h => (nomatch h), fun _ _ => rfl, fun systemId hid _ => ?_⟩
          rcases List.mem_cons.mp hid with rfl | hid
          · exact hholds.1
          · exact hholds.2 systemId hid
      | some tracked' =>
          dsimp only
          obtain ⟨hverdict, hothers, hkept⟩ := hgoes tracked' hone
          have hfirst : (tracked.from first).failed = false → CanBeRead c fallback ledger first := by
            intro hfailed
            by_contra hcannot
            rw [hthrows.mpr ⟨hfailed, hcannot⟩] at hone
            cases hone
          have hsame : ∀ systemId ∈ systemIds, tracked'.from systemId = tracked.from systemId :=
            fun systemId hid => hothers systemId fun heq => hdistinct.1 (heq ▸ hid)
          obtain ⟨hend, hverdicts, hrest, hholds'⟩ := ih hdistinct.2 hzero.2
            (fun systemId hid => (hsame systemId hid).symm ▸ hholds.2 systemId hid)
          refine ⟨hend.trans ?_, fun h systemId hid => ?_, fun other hother => ?_, fun systemId hid hnumbered => ?_⟩
          · rw [List.forall_mem_cons]
            constructor
            · intro h
              exact ⟨hfirst, fun systemId hid hfailed => h systemId hid ((hsame systemId hid).symm ▸ hfailed)⟩
            · rintro ⟨-, h⟩ systemId hid hfailed
              rw [hsame systemId hid] at hfailed
              exact h systemId hid hfailed
          · rcases List.mem_cons.mp hid with rfl | hid
            · rw [hrest systemId hdistinct.1]
              exact hverdict
            · exact hverdicts h systemId hid
          · rw [List.mem_cons, not_or] at hother
            rw [hrest other hother.2, hothers other hother.1]
          · rcases List.mem_cons.mp hid with rfl | hid
            · rw [hrest systemId hdistinct.1]
              exact hkept hnumbered
            · exact hholds' systemId hid hnumbered

-- ── Runs ─────────────────────────────────────────────────────────────────────────

/-- **Append-only growth**: systems, rows after those that are there, and keys under names that had none. -/
structure GrowsTo (before after : Ledger) : Prop where
  systems : ∀ systemId ∈ before.systems, systemId ∈ after.systems
  rows : ∀ systemId, before.rows systemId <+: after.rows systemId
  keys : ∀ keyId key, before.keys.lookup keyId = some key → after.keys.lookup keyId = some key

/-- No key is added under a name that a stored receipt gives. -/
def KeepsKeys (before after : Ledger) : Prop :=
  ∀ systemId, ∀ row ∈ before.rows systemId, ∀ receipt, row.receipt = some receipt →
    before.keys.lookup receipt.keyId.1 = none → after.keys.lookup receipt.keyId.1 = none

variable (c fallback) in
/-- **The runs of a monitor**: the database grows and calls are made, in any order; where a call is made the chains are
    stored from zero up and end in rows of the right number, and what is added keeps the keys of the receipts that are
    there. -/
inductive Reached : Ledger → Tracked → Prop
  | start (ledger : Ledger) : Reached ledger []
  | grows {before after : Ledger} {tracked : Tracked} (h : Reached before tracked) (hgrows : GrowsTo before after)
      (hkeys : KeepsKeys before after) : Reached after tracked
  | checks {ledger : Ledger} {tracked : Tracked} (h : Reached ledger tracked)
      (hzero : ∀ systemId ∈ ledger.systems, FromZero ledger systemId)
      (hnumbered : ∀ systemId ∈ ledger.systems, LastNumbered ledger systemId) :
      Reached ledger (check c fallback ledger tracked).1

theorem keyOf_grows {before after : Ledger} (hgrows : GrowsTo before after) (hkeys : KeepsKeys before after)
    {systemId : JsString} {row : LedgerRow} {receipt : Receipt} (hrow : row ∈ before.rows systemId)
    (hreceipt : row.receipt = some receipt) : after.keyOf fallback receipt.keyId = before.keyOf fallback receipt.keyId := by
  rw [Ledger.keyOf, Ledger.keyOf]
  cases hlookup : before.keys.lookup receipt.keyId.1 with
  | none => rw [hkeys systemId row hrow receipt hreceipt hlookup]
  | some key => rw [hgrows.keys _ _ hlookup]

theorem verifies_grows {before after : Ledger} (hgrows : GrowsTo before after) (hkeys : KeepsKeys before after)
    {systemId : JsString} {rows : List LedgerRow} {receipts : List Receipt} (hin : rows ⊆ before.rows systemId)
    (hreceipts : rows.mapM LedgerRow.receipt = some receipts) {receipt : Receipt} (hreceipt : receipt ∈ receipts) :
    VerifiesUnderKey c fallback after receipt ↔ VerifiesUnderKey c fallback before receipt := by
  obtain ⟨row, hrow, hone⟩ := exists_of_forall₂ (mapM_eq_some.mp hreceipts) hreceipt
  rw [VerifiesUnderKey, VerifiesUnderKey, keyOf_grows hgrows hkeys (hin hrow) hone]

/-- **Growth keeps what is remembered true.** -/
theorem Holds.grows {before after : Ledger} (hgrows : GrowsTo before after) (hkeys : KeepsKeys before after)
    {systemId : JsString} {state : TrackedState} (h : Holds c fallback before systemId state) :
    Holds c fallback after systemId state := by
  obtain ⟨more, hmore⟩ := hgrows.rows systemId
  refine ⟨fun hfailed hintact => h.failed hfailed ?_, fun hfailed => ?_⟩
  · obtain ⟨receipts, hreceipts, hlinked, hverify⟩ := hintact
    rw [← hmore] at hreceipts
    obtain ⟨front, back, hfront, -, rfl⟩ := mapM_append_eq_some.mp hreceipts
    have hfine := (isFine_append.mp ⟨hlinked, hverify⟩).1
    refine ⟨front, hfront, hfine.1, fun receipt hreceipt => ?_⟩
    exact (verifies_grows hgrows hkeys (List.Subset.refl _) hfront hreceipt).mp (hfine.2 receipt hreceipt)
  · obtain ⟨done, rest, receipts, hrows, hdone, hfine, hhash, hseq⟩ := h.fine hfailed
    have hin : done ⊆ before.rows systemId := hrows ▸ List.subset_append_left done rest
    refine ⟨done, rest ++ more, receipts, ?_, hdone, ⟨hfine.1, fun receipt hreceipt => ?_⟩, hhash, hseq⟩
    · rw [← hmore, hrows, List.append_assoc]
    · exact (verifies_grows hgrows hkeys hin hdone hreceipt).mpr (hfine.2 receipt hreceipt)

/-- **What is remembered is true along a run.** -/
theorem Reached.holds {ledger : Ledger} {tracked : Tracked} (h : Reached c fallback ledger tracked) :
    ∀ systemId, Holds c fallback ledger systemId (tracked.from systemId) := by
  induction h with
  | start ledger => exact fun systemId => holds_fresh systemId
  | grows h hgrows hkeys ih => exact fun systemId => (ih systemId).grows hgrows hkeys
  | @checks ledger tracked h hzero hnumbered ih =>
      obtain ⟨-, -, hothers, hholds⟩ := checkSystems_spec ledger.distinct hzero (fun systemId _ => ih systemId)
      intro systemId
      by_cases hin : systemId ∈ ledger.systems
      · exact hholds systemId hin (hnumbered systemId hin)
      · rw [check, hothers systemId hin]
        exact ih systemId

/-- **After a call of any run the verdicts are those of whole chains**, exactly where every chain that had not failed can
    be read. -/
theorem check_agrees_iff {ledger : Ledger} {tracked : Tracked} (h : Reached c fallback ledger tracked)
    (hzero : ∀ systemId ∈ ledger.systems, FromZero ledger systemId) :
    Agrees c fallback ledger (check c fallback ledger tracked) ↔ ∀ systemId ∈ ledger.systems,
      (tracked.from systemId).failed = false → CanBeRead c fallback ledger systemId := by
  obtain ⟨hend, hverdicts, -, -⟩ := checkSystems_spec ledger.distinct hzero (fun systemId _ => h.holds systemId)
  constructor
  · exact fun hagrees => hend.mp hagrees.1
  · intro hall
    exact ⟨hend.mpr hall, hverdicts (hend.mpr hall)⟩

/-- **A chain stored below zero is never read**: the first call, and any later one, calls it sound, whatever it holds. -/
theorem below_zero_unread {ledger : Ledger} {tracked : Tracked} {systemId : JsString}
    (hbelow : ∀ row ∈ ledger.rows systemId, row.seq < 0)
    (hfresh : tracked.from systemId = ⟨-1, GENESIS_PREV_HASH, false, none⟩) :
    ∃ tracked', checkSystem c fallback ledger tracked systemId = some tracked' ∧
      tracked'.from systemId = ⟨-1, GENESIS_PREV_HASH, false, none⟩ := by
  have hnone : ledger.readChainFrom systemId (-1) = some [] := by
    have hfilter : (ledger.rows systemId).filter (fun row => -1 < row.seq) = [] := by
      refine List.filter_eq_nil_iff.mpr fun row hrow => ?_
      rw [decide_eq_true_iff, not_lt]
      exact Int.le_sub_one_of_lt (hbelow row hrow)
    rw [Ledger.readChainFrom, hfilter]
    rfl
  refine ⟨AssocList.set tracked systemId ⟨-1, GENESIS_PREV_HASH, false, none⟩, ?_, ?_⟩
  · rw [checkSystem, hfresh, if_neg Bool.false_ne_true, hnone]
    rfl
  · rw [Tracked.from, lookup_set, beq_self_eq_true]
    rfl

/-- Two systems: nothing recorded of the second, and some rows of the first. -/
def toyLedger (rows : List LedgerRow) (h : rows.Pairwise fun a b => a.seq < b.seq) : Ledger where
  systems := [js "a", js "b"]
  rows systemId := if systemId = js "a" then rows else []
  keys := []
  distinct := by decide
  ascending systemId := by
    split_ifs
    · exact h
    · exact List.Pairwise.nil

theorem fromZero_toyLedger {rows : List LedgerRow} {h : rows.Pairwise fun a b => a.seq < b.seq}
    (hzero : ∀ row ∈ rows, 0 ≤ row.seq) (systemId : JsString) : FromZero (toyLedger rows h) systemId := by
  intro row hrow
  have hrow : row ∈ if systemId = js "a" then rows else [] := hrow
  split_ifs at hrow
  · exact hzero row hrow
  · cases hrow

/-- Before the first of them has a row. -/
def toyBefore : Ledger := toyLedger [] List.Pairwise.nil

/-- And once its one row is no receipt. -/
def toyTampered : Ledger := toyLedger [⟨0, js "\x7b\x7d", []⟩] (List.pairwise_singleton _ _)

theorem toyTampered_reached : Reached toyCrypto [] toyTampered (check toyCrypto [] toyBefore []).1 := by
  have hzero : ∀ systemId ∈ toyBefore.systems, FromZero toyBefore systemId :=
    fun systemId _ => fromZero_toyLedger (fun _ h => absurd h List.not_mem_nil) systemId
  refine .grows (.checks (.start toyBefore) hzero ?_) ⟨fun _ h => h, fun systemId => ?_, fun _ _ h => h⟩ fun _ _ _ _ _ h => h
  · intro systemId hid row receipt hlast
    rcases List.mem_cons.mp hid with rfl | hid
    · cases hlast
    · rw [List.mem_singleton.mp hid] at hlast
      cases hlast
  · show (if systemId = js "a" then [] else []) <+: _
    rw [ite_self]
    exact List.nil_prefix

theorem check_agrees_tampered :
    Agrees toyCrypto [] toyTampered (check toyCrypto [] toyTampered (check toyCrypto [] toyBefore []).1) ↔
      ∀ systemId ∈ toyTampered.systems,
        (Tracked.from (check toyCrypto [] toyBefore []).1 systemId).failed = false →
          CanBeRead toyCrypto [] toyTampered systemId :=
  check_agrees_iff toyTampered_reached fun systemId _ => fromZero_toyLedger (by decide) systemId

/-- **A row that is no receipt**: the call throws at it; its chain is not intact and not called failed, and the other
    system is not checked. -/
theorem check_stops_at_row : ¬ IsIntact toyCrypto [] toyTampered (js "a") ∧
    check toyCrypto [] toyTampered [] = ([], false) ∧
    ¬ Agrees toyCrypto [] toyTampered (check toyCrypto [] toyTampered []) := by
  have hstops : check toyCrypto [] toyTampered [] = ([], false) := rfl
  refine ⟨?_, hstops, fun hagrees => ?_⟩
  · rintro ⟨receipts, hreceipts, -⟩
    cases hreceipts
  · rw [hstops] at hagrees
    cases hagrees.1

end ChainHealthMonitor

end Sigillo
