import Sigillo.SessionProtocol
import Sigillo.SignerDivergence

/-!
# Sessions and their receipts

A change is saved with its receipt, in one transaction. So the rows of the sessions and the receipts of the
chains agree, in every run in which no receipt of a connection has to be taken back from the signer, and no
beat outlives its system (**`sessions_agree`**). A receipt that is taken back comes without its row, and the
agent's next beat writes the change again (**`start_twice`**). -/

namespace Sigillo

open DoubleArith Utf16Text JsonText JsonSchema HexBase64 IsoTime Fallible

variable {c : Crypto} {u : Unicode} {key : WriterKey} {options : ConnectionWatchOptions}

namespace WatchWorld

/-- **A step that keeps the rows and the receipts together**: no change comes back from the signer in it, and a
    beat without a receipt is saved where its session still is. -/
structure SavesTogether (c : Crypto) (w : WatchWorld) (x : WatchStep) : Prop where
  others : ∀ op, x = .store op → op.IsOther
  brings : w.BringsNone c x
  beats : ∀ a write rest, x = .write a → w.job = write :: rest → write.note = none →
    rowOf w.watch.store.db.connections write.row.key ≠ none

/-- **The rows and the receipts agree.** -/
structure Agrees (c : Crypto) (w : WatchWorld) : Prop where
  /-- The receipts of connections on a chain are those of the changes written, each once and in their order. -/
  chain : ∀ systemId, ¬ w.Deleted systemId →
    w.watch.store.db.receiptsOf systemId ReceiptRow.isConnections = w.receiptsTold c systemId
  /-- Each of them is named as its change. -/
  named : ∀ session, (w.sessionRows c session).map ReceiptRow.change = (w.changesOf session).map some
  /-- A session's row is in the state its receipts leave it in, and there is none without one. -/
  rows : ∀ session : SessionKey, ¬ w.Deleted session.1 →
    stateOf w.watch.store.db.connections session = w.stateTold session
  /-- Every receipt is of a change: it found its session in another state. -/
  moves : ∀ session, Obeys Change.leaves Change.Moves none (w.changesOf session)
  /-- Of a deleted system there is neither. -/
  deleted : ∀ systemId, w.Deleted systemId →
    (∀ row ∈ w.watch.store.db.connections, row.systemId ≠ systemId) ∧
      ∀ row ∈ w.watch.store.db.receipts, row.systemId ≠ systemId

/-- What carries it from step to step. -/
structure Together (c : Crypto) (w : WatchWorld) : Prop where
  recorded : w.Recorded c Change.Moves
  gone : ∀ systemId, w.Deleted systemId → ∀ row ∈ w.watch.store.db.connections, row.systemId ≠ systemId

variable {w w' : WatchWorld}

theorem Together.agrees (h : w.Together c) : w.Agrees c where
  chain := h.recorded.chain
  named := h.recorded.changes
  rows := h.recorded.consistent.rows
  moves := h.recorded.consistent.obeys
  deleted systemId hgone := ⟨h.gone systemId hgone, (h.recorded.consistent.buried systemId hgone).2⟩

theorem together_fresh (key : WriterKey) (time : Timestamp) : (fresh key time).Together c where
  recorded := recorded_fresh key time
  gone := fun _ h => absurd h List.not_mem_nil

/-- A step that writes nothing of the watch's leaves no row of a deleted system. -/
theorem Together.aside (h : w.Together c) (hrecorded : w'.Recorded c Change.Moves) {takes : Receipt → Prop}
    (haside : Aside takes w.watch.store w'.watch.store) : w'.Together c := by
  obtain ⟨happened, hhistory, -, hgone, -⟩ := haside
  refine ⟨hrecorded, fun systemId hdeleted row hrow hname => ?_⟩
  rw [hgone] at hrow
  obtain ⟨hrow, hkept⟩ := List.mem_filter.mp hrow
  have hmem : .deletedChain systemId ∈ w.watch.store.history ++ happened := hhistory ▸ hdeleted
  rcases List.mem_append.mp hmem with hold | hnew
  · exact h.gone systemId hold row hrow hname
  · rw [← hname] at hnew
    rw [deletes_iff.mpr hnew] at hkept
    cases hkept

/-- A row that is saved over another is of the same system. -/
theorem systemId_savedConnections {row other : ConnectionRow} {rows : List ConnectionRow}
    (h : other ∈ savedConnections row rows) : other = row ∨ ∃ r ∈ rows, other.systemId = r.systemId := by
  rw [savedConnections_eq] at h
  split at h
  · rcases List.mem_append.mp h with hold | hnew
    · exact .inr ⟨other, hold, rfl⟩
    · exact .inl (List.mem_singleton.mp hnew)
  · obtain ⟨r, hr, rfl⟩ := List.mem_map.mp h
    refine .inr ⟨r, hr, ?_⟩
    split
    · rfl
    · rfl

/-- An ordinary beat is of a session that is there. -/
theorem Together.beat (h : w.Together c) {write : SessionWrite}
    (hthere : rowOf w.watch.store.db.connections write.row.key ≠ none)
    (hrecorded : w'.Recorded c Change.Moves)
    (hstore : w'.watch.store = { w.watch.store with db := saveConnection write.row w.watch.store.db }) :
    w'.Together c := by
  refine ⟨hrecorded, fun systemId hgone row hrow => ?_⟩
  have hgone : w.Deleted systemId := by
    have hmem : .deletedChain systemId ∈ w'.watch.store.history := hgone
    rwa [hstore] at hmem
  rw [hstore] at hrow
  have hrow : row ∈ (saveConnection write.row w.watch.store.db).connections := hrow
  rw [saveConnection_eq] at hrow
  have hrow : row ∈ savedConnections write.row w.watch.store.db.connections := hrow
  rcases systemId_savedConnections hrow with rfl | ⟨r, hr, hsame⟩
  · obtain ⟨known, hknown⟩ := Option.ne_none_iff_exists'.mp hthere
    obtain ⟨hmem, hkey⟩ := rowOf_some hknown
    have hname : known.systemId = write.row.systemId := congrArg Prod.fst hkey
    exact hname ▸ h.gone systemId hgone known hmem
  · exact hsame ▸ h.gone systemId hgone r hr

/-- A change is of a system whose chain is there, for its receipt is on it. -/
theorem Together.change (h : w.Together c) {write : SessionWrite} {r : Receipt}
    (hrecorded : w'.Recorded c Change.Moves) (hid : r.systemId = write.row.systemId)
    (hrow : receiptRow c r ∈ w'.watch.store.db.receipts)
    (hconnections : w'.watch.store.db.connections = savedConnections write.row w.watch.store.db.connections)
    (hstill : ∀ systemId, w'.Deleted systemId → w.Deleted systemId) : w'.Together c := by
  refine ⟨hrecorded, fun systemId hgone row hmem => ?_⟩
  rw [hconnections] at hmem
  rcases systemId_savedConnections hmem with rfl | ⟨r, hr, hsame⟩
  · rintro rfl
    exact (hrecorded.consistent.buried _ hgone).2 _ hrow hid
  · exact hsame ▸ h.gone systemId (hstill systemId hgone) r hr

/-- **A write's turn keeps them together.** -/
theorem Together.write (h : w.Together c) {a : Answering} (hstep : w.SavesTogether c (.write a))
    (hrecorded : (w.writeTurn c u key a).Recorded c Change.Moves) : (w.writeTurn c u key a).Together c := by
  cases hjob : w.job with
  | nil =>
      have hsame : w.writeTurn c u key a = w := by
        unfold writeTurn
        rw [hjob]
      rwa [hsame]
  | cons write rest =>
      cases hperform : write.perform c u key w.watch.store a with
      | mk store result =>
          cases result with
          | error e =>
              rw [writeTurn_error hjob hperform] at hrecorded ⊢
              exact h.aside hrecorded (SessionWrite.perform_fails hperform)
          | ok written =>
              rw [writeTurn_ok hjob hperform] at hrecorded ⊢
              cases hnote : write.note with
              | none =>
                  rw [SessionWrite.perform_plain hnote] at hperform
                  exact h.beat (hstep.beats a write rest rfl hjob hnote) hrecorded (Prod.mk.inj hperform).1.symm
              | some note =>
                  obtain ⟨r, rfl, hconnections, taken, prepared, hhistory, -⟩ :=
                    SessionWrite.perform_saves hnote hperform
                  obtain ⟨_, hr, hwrite⟩ := SessionWrite.perform_noted hnote hperform
                  obtain rfl := Option.some.inj hr
                  obtain ⟨hsaid, hrow, -⟩ := writeReceipt_saved rfl hwrite
                  refine h.change hrecorded hsaid.systemId hrow hconnections fun systemId hgone => ?_
                  have hmem : .deletedChain systemId ∈ store.history := hgone
                  rw [hhistory] at hmem
                  -- a write and what it takes back delete nothing
                  rcases List.mem_append.mp hmem with hold | hnew
                  · exact hold
                  · rcases List.mem_append.mp hnew with htaken | hlast
                    · obtain ⟨r, -, heq⟩ := List.mem_map.mp htaken
                      cases heq
                    · cases List.mem_singleton.mp hlast

theorem SavesTogether.allows {x : WatchStep} (h : w.SavesTogether c x) : w.Allows options Change.Moves x := by
  cases x with
  | heartbeat hb sessions time => exact fun _ => allowed_moves hb _
  | store op => exact h.others op rfl
  | sweep sessions time => trivial
  | write a => trivial
  | restart time => trivial

/-- **Whatever step is taken, they stay together**, if it keeps them so. -/
theorem together_step (h : w.Together c) {x : WatchStep} (hx : w.SavesTogether c x) :
    (w.step c u key options x).Together c := by
  have hrecorded : (w.step c u key options x).Recorded c Change.Moves :=
    recorded_step permits_moves h.recorded hx.allows hx.brings
  cases x with
  | heartbeat hb sessions time =>
      have haside : Aside (fun _ => False) w.watch.store
          (w.step c u key options (.heartbeat hb sessions time)).watch.store :=
        store_step_heartbeat w hb sessions time ▸ Aside.refl _
      exact h.aside hrecorded haside
  | sweep sessions time =>
      have hsame : (w.step c u key options (.sweep sessions time)).watch = w.watch := by
        show (if _ then _ else _ : WatchWorld).watch = _
        split
        · rfl
        · rfl
      have haside : Aside (fun _ => False) w.watch.store
          (w.step c u key options (.sweep sessions time)).watch.store := hsame ▸ Aside.refl _
      exact h.aside hrecorded haside
  | write a => exact h.write hx hrecorded
  | store op => exact h.aside hrecorded (perform_aside w.watch.store (hx.others op rfl))
  | restart time =>
      have haside : Aside (fun _ => False) w.watch.store (perform c u key w.watch.store .reopen) := .of_kept rfl rfl
      exact h.aside hrecorded haside

end WatchWorld

/-- **The rows of the sessions and the receipts of their chains agree** in every state of a run whose steps
    keep them together. -/
theorem sessions_agree (c : Crypto) (u : Unicode) (key : WriterKey) (options : ConnectionWatchOptions)
    (time : Timestamp) {steps : List WatchStep}
    (h : WatchWorld.Meets c u key options (WatchWorld.SavesTogether c) (.fresh key time) steps) :
    ((WatchWorld.fresh key time).run c u key options steps).Agrees c := by
  have hstep : ∀ (w : WatchWorld) (x : WatchStep), w.Together c → w.SavesTogether c x →
      (w.step c u key options x).Together c := fun _ _ hw hx => WatchWorld.together_step hw hx
  exact (h.run_keeps hstep (WatchWorld.together_fresh key time)).agrees

-- ── A receipt taken back ─────────────────────────────────────────────────────────

/-- A signature that was made, and is lost on its way. -/
def lostAnswering : Answering :=
  { toyAnswering with replies := { toyReplies with first := ⟨toyRandomness, .error .signerUnavailable⟩ } }

/-- **A chain takes back what it is missing.** -/
theorem reconcileNow_recovers {s : Store} {systemId : SystemId} {view : SignerView} {head : Receipt} {taken : List Receipt}
    {db : Database} (hhead : view.head = .ok (some head)) (hid : head.systemId = systemId)
    (hkey : (keyFor key s.db head).any (verifyReceiptSignature c head) = true)
    (hahead : firstMissingOf (s.db.tipRow systemId) ≤ head.seq.1)
    (hmissing : Missing c key s.db systemId head (journalFrom view head (s.db.tipRow systemId)) taken)
    (hrestored : taken.foldlM (restoreReceipt c systemId view.clock) s.db = .ok db) :
    reconcileNow c key s systemId view
      = ({ db, divergences := s.divergences.filter fun entry => !(entry.1 == systemId),
           history := s.history ++ taken.map .tookBack },
          .ok (.recovered head.seq (receiptHashHex c head.toUnsignedReceipt) taken.length)) := by
  have hbeyond : ¬ ((s.db.tipRow systemId).any fun t => decide (head.seq = t.seq)
      && decide (receiptHashHex c head.toUnsignedReceipt = t.hash)) = true := by
    intro hany
    cases htip : s.db.tipRow systemId with
    | none =>
        rw [htip] at hany
        cases hany
    | some tip =>
        rw [htip] at hany hahead
        rw [Option.any_some, Bool.and_eq_true, decide_eq_true_eq] at hany
        rw [hany.1] at hahead
        exact absurd hahead (Nat.not_succ_le_self _)
  unfold reconcileNow
  simp only [hhead]
  rw [if_neg (not_not.mpr ⟨hid, hkey⟩), if_neg hbeyond, if_neg (not_lt.mpr hahead), hmissing.eq_ok]
  dsimp only
  rw [hrestored]

/-- **The signer is one receipt ahead**, and the chain takes it back. -/
theorem Tame.takesBack {n : ℕ} {s : Store} {systemId : SystemId} (h : Tame n s) (change : Change) (hn : n < 16)
    (hsystem : IsToySystem systemId) (htip : s.db.tipRow systemId ≠ none) (hnever : s.db.deletionOf systemId = none) :
    ∃ receipt s', Says positionCrypto (change.event systemId newYear.1 newYear .ok .sdk) receipt.toUnsignedReceipt ∧
      (reconcileWithSigner positionCrypto toyWriter s [(systemId, headView (some receipt))]).1 = s' ∧
      Tame (n + 1) s' ∧ s'.db.connections = s.db.connections ∧
      s'.db.receipts = s.db.receipts ++ [receiptRow positionCrypto receipt] := by
  obtain ⟨receipt, db, hwrites, hle⟩ : ∃ receipt db, Writes positionCrypto ⟨id, id, id⟩ toyWriter s.db
      (change.event systemId newYear.1 newYear .ok .sdk) .continuation toyReplies.first serversPrepared receipt db ∧
        receipt.seq.1 ≤ n := h.takes change hn hsystem htip newYear.2
  have hrecords := records_of_buildUnsigned _ _ _ _ hwrites.built
  have hsaid : Says positionCrypto (change.event systemId newYear.1 newYear .ok .sdk) receipt.toUnsignedReceipt :=
    hwrites.said
  have hid : receipt.systemId = systemId := hrecords.systemId
  have hseq : receipt.seq.1 = seqAfter (s.db.tipRow systemId) := by
    have hlast := h.seqAfter_le systemId
    have hdouble : IsDouble ((seqAfter (s.db.tipRow systemId) : ℕ) : ℚ) := isDouble_natCast (by omega)
    have hfin : JsNumber.ofNat (seqAfter (s.db.tipRow systemId)) = .fin receipt.seq.1 receipt.seq.2.1 := hrecords.seq
    rw [JsNumber.ofNat_of_isDouble hdouble, JsNumber.fin.injEq] at hfin
    exact_mod_cast hfin.symm
  have hfirst : receipt.seq.1 = firstMissingOf (s.db.tipRow systemId) := by
    rw [firstMissingOf_eq_seqAfter]
    exact hseq
  have hkey : (keyFor toyWriter s.db receipt).any (verifyReceiptSignature positionCrypto receipt) = true := by
    rw [keyFor]
    cases s.db.publicKeyFor receipt.keyId with
    | some known => rfl
    | none =>
        rw [Option.orElse_none, if_pos hrecords.keyId]
        rfl
  have hcontinues : continuesChain positionCrypto toyWriter s.db systemId receipt.seq.1
      (prevHashOf (s.db.tipRow systemId)) receipt = true := by
    rw [continuesChain, decide_eq_true hid, decide_eq_true rfl, hkey]
    have hprev : receipt.prevHash = prevHashOf (s.db.tipRow systemId) := hrecords.prevHash
    rw [decide_eq_true hprev]
    rfl
  have hspan : receipt.source.traceId = none := by
    have hinput : receipt.source.traceId.map _ = none := congrArg SourceInput.traceId hrecords.source
    exact Option.map_eq_none_iff.mp hinput
  have hmissing : Missing positionCrypto toyWriter s.db systemId receipt
      (journalFrom (headView (some receipt)) receipt (s.db.tipRow systemId)) [receipt] := by
    refine ⟨?_, ⟨receipt, rfl, rfl, rfl⟩, hnever, ?_⟩
    · rw [if_pos hfirst, ← hfirst, takeMissing, if_pos hcontinues, if_pos rfl]
    · rw [takenSpan, List.find?_cons, hspan]
      rfl
  obtain ⟨db', hrestored, hconnections, hsubjects⟩ : ∃ db', restoreReceipt positionCrypto systemId
      (headView (some receipt)).clock s.db receipt = .ok db' ∧ db'.connections = s.db.connections ∧
        db'.subjects = s.db.subjects := by
    have hlater : receipt.seq.1 ≠ 0 := by
      obtain ⟨tip, htip⟩ := Option.ne_none_iff_exists'.mp htip
      rw [hseq, htip]
      exact Nat.succ_ne_zero _
    refine ⟨_, bind_eq_ok.mpr ⟨s.db, if_neg hlater, bind_eq_ok.mpr ⟨_, insertRow_eq_ok hwrites.noClash
      (h.whole.no_openings hwrites.noClash), rfl⟩⟩, rfl, rfl⟩
  have hfold : [receipt].foldlM (restoreReceipt positionCrypto systemId (headView (some receipt)).clock) s.db
      = .ok db' := bind_eq_ok.mpr ⟨db', hrestored, rfl⟩
  have hrestores := restores_of_foldlM hfold
  let s' : Store := ⟨db', s.divergences.filter fun entry => !(entry.1 == systemId), s.history ++ [.tookBack receipt]⟩
  have hrecovered : reconcileNow positionCrypto toyWriter s systemId (headView (some receipt)) = (s', _) :=
    reconcileNow_recovers rfl hid hkey hfirst.ge hmissing hfold
  have hreceipts : db'.receipts = s.db.receipts ++ [receiptRow positionCrypto receipt] := hrestores.receipts
  refine ⟨receipt, s', hsaid, ?_, ?_, hconnections, hreceipts⟩
  · rw [reconcileWithSigner, hrecovered]
    rfl
  · refine ⟨h.whole.recovered hmissing hrestores, hsubjects.trans h.subjects, fun row hrow => ?_, fun row hrow => ?_⟩
    · rcases List.mem_append.mp (hreceipts ▸ hrow) with hold | hnew
      · exact h.systems row hold
      · rw [List.mem_singleton.mp hnew]
        have hown : IsToySystem receipt.systemId := hid ▸ hsystem
        exact hown
    · rcases List.mem_append.mp (hreceipts ▸ hrow) with hold | hnew
      · exact Nat.lt_succ_of_lt (h.short row hold)
      · rw [List.mem_singleton.mp hnew]
        exact Nat.lt_succ_of_le hle

/-- A start whose signature is lost on its way and taken back, and the agent's next try. -/
def startTaken (head : Receipt) : List WatchStep :=
  [.store (.createSystem toySystem newYear none toyReplies),
    .heartbeat (startOf toySystem (js "s1")) [] newYear, .write lostAnswering,
    .store (.reconcileWithSigner [(toySystem, headView (some head))]),
    .heartbeat (startOf toySystem (js "s1")) [] newYear, .write toyAnswering]

/-- **One start, two receipts**: the first is on the chain without its session. -/
theorem start_twice : ∃ head r w, w = (WatchWorld.fresh toyWriter newYear).run positionCrypto ⟨id, id, id⟩ toyWriter
      toyWatch (startTaken head) ∧
    [receiptRow positionCrypto head, receiptRow positionCrypto r]
      <:+ w.watch.store.db.receiptsOf toySystem ReceiptRow.isConnections ∧
    w.told = [⟨toySystem, js "s1", .start, r⟩] ∧ ¬ w.Agrees positionCrypto := by
  obtain ⟨g, s₁, hcreate, htame₁, -, hnone, hlog, -, -, htip⟩ := Tame.opens ⟨id, id, id⟩
  have hnever : s₁.db.deletionOf toySystem = none := by
    rw [Database.deletionOf, hlog]
    rfl
  obtain ⟨head, s₂, hsaid, htaken, htame₂, hconnections₂, hreceipts₂⟩ :=
    htame₁.takesBack .start (by decide) (.inl rfl) htip hnever
  have hnone₂ : s₂.db.connections = [] := hconnections₂.trans hnone
  let start : SessionWrite := ⟨openSession toySystem (js "s1"), some ⟨.start, newYear.1, .ok, .sdk⟩, newYear⟩
  let heard : WatchStep := .heartbeat (startOf toySystem (js "s1")) [] newYear
  -- the first start, and the write that comes to nothing
  let w₁ : WatchWorld := ⟨⟨s₁, []⟩, [], dateParse newYear, [], []⟩
  let w₂ : WatchWorld := ⟨⟨s₁, []⟩, [(toySystem, [dateParse newYear])], dateParse newYear, [start], []⟩
  have hcreated : (WatchWorld.fresh toyWriter newYear).step positionCrypto ⟨id, id, id⟩ toyWriter toyWatch
      (.store (.createSystem toySystem newYear none toyReplies)) = w₁ := WatchWorld.step_opens hcreate
  have hfirst : w₁.step positionCrypto ⟨id, id, id⟩ toyWriter toyWatch heard = w₂ := by
    have hfew : (w₁.openedLately toySystem (dateParse newYear)).length < toyWatch.maxNewSessionsPerHour :=
      Nat.zero_lt_succ 59
    exact WatchWorld.step_start (fun r hr => (List.not_mem_nil (hnone ▸ hr)).elim) rfl hfew _ _ _ _
  obtain ⟨e, hlost⟩ : ∃ e, start.perform positionCrypto ⟨id, id, id⟩ toyWriter s₁ lostAnswering = (s₁, .error e) :=
    recordConnection_unsigned rfl unsigned_unavailable
  have hfailed : w₂.step positionCrypto ⟨id, id, id⟩ toyWriter toyWatch (.write lostAnswering) = { w₂ with job := [] } :=
    WatchWorld.writeTurn_error (w := w₂) rfl hlost
  -- the second, once the chain has taken the receipt back
  let w₃ : WatchWorld := ⟨⟨s₂, []⟩, [(toySystem, [dateParse newYear])], dateParse newYear, [], []⟩
  let w₄ : WatchWorld :=
    ⟨⟨s₂, []⟩, [(toySystem, [dateParse newYear, dateParse newYear])], dateParse newYear, [start], []⟩
  have hback : WatchWorld.step positionCrypto ⟨id, id, id⟩ toyWriter toyWatch { w₂ with job := [] }
      (.store (.reconcileWithSigner [(toySystem, headView (some head))])) = w₃ :=
    congrArg (WatchWorld.withStore { w₂ with job := [] }) htaken
  have hagain : w₃.step positionCrypto ⟨id, id, id⟩ toyWriter toyWatch heard = w₄ := by
    have hlately : w₃.openedLately toySystem (dateParse newYear) = [dateParse newYear] := by
      show List.filter _ [dateParse newYear] = [dateParse newYear]
      decide +kernel
    have hfew : (w₃.openedLately toySystem (dateParse newYear)).length < toyWatch.maxNewSessionsPerHour := by
      rw [hlately]
      decide
    have hturn : w₃.step positionCrypto ⟨id, id, id⟩ toyWriter toyWatch heard = _ :=
      WatchWorld.step_start (fun r hr => (List.not_mem_nil (hnone₂ ▸ hr)).elim) rfl hfew _ _ _ _
    rw [hturn, hlately]
    rfl
  obtain ⟨s₃, r, hperform, -, -, hreceipts₃, hid⟩ : ∃ store receipt, start.perform positionCrypto ⟨id, id, id⟩
        toyWriter s₂ toyAnswering = (store, .ok (some receipt)) ∧ _ :=
    htame₂.performs (by decide) rfl (.inl rfl) (tipRow_append hreceipts₂ htip) newYear.2 ⟨id, id, id⟩
  have hsaid' : Says positionCrypto (Change.start.event toySystem newYear.1 newYear .ok .sdk) r.toUnsignedReceipt := by
    obtain ⟨_, hr, hwrite⟩ := SessionWrite.perform_noted rfl hperform
    obtain rfl := Option.some.inj hr
    exact (writeReceipt_saved rfl hwrite).1
  let w₅ : WatchWorld := { w₄.withStore s₃ with job := [], told := [⟨toySystem, js "s1", .start, r⟩] }
  have hrun : (WatchWorld.fresh toyWriter newYear).run positionCrypto ⟨id, id, id⟩ toyWriter toyWatch
      (startTaken head) = w₅ := by
    rw [startTaken, WatchWorld.run_cons, hcreated, WatchWorld.run_cons, hfirst, WatchWorld.run_cons, hfailed,
      WatchWorld.run_cons, hback, WatchWorld.run_cons, hagain]
    exact WatchWorld.writeTurn_ok (w := w₄) rfl hperform
  have hrow : receiptRow positionCrypto r ∈ s₃.db.receipts := by
    rw [hreceipts₃]
    exact List.mem_append_right _ (List.mem_singleton_self _)
  have hchain : [receiptRow positionCrypto head, receiptRow positionCrypto r]
      <:+ s₃.db.receiptsOf toySystem ReceiptRow.isConnections := by
    have hmine : ∀ {receipt : Receipt}, Says positionCrypto (Change.start.event toySystem newYear.1 newYear .ok .sdk)
        receipt.toUnsignedReceipt → ((receiptRow positionCrypto receipt).systemId == toySystem
          && (receiptRow positionCrypto receipt).isConnections) = true := by
      intro receipt hsaid
      rw [Bool.and_eq_true, beq_iff_eq, isConnections_receiptRow hsaid]
      exact ⟨hsaid.systemId, by decide, Change.event_named _ _ _ _ _ _⟩
    rw [Database.receiptsOf, hreceipts₃, hreceipts₂, List.append_assoc, List.filter_append, List.singleton_append]
    have hboth : List.filter (fun row => row.systemId == toySystem && row.isConnections)
        [receiptRow positionCrypto head, receiptRow positionCrypto r]
          = [receiptRow positionCrypto head, receiptRow positionCrypto r] := by
      refine List.filter_eq_self.mpr fun row hrow => ?_
      rcases List.mem_cons.mp hrow with rfl | hrow
      · exact hmine hsaid
      · rw [List.mem_singleton.mp hrow]
        exact hmine hsaid'
    rw [hboth]
    exact List.suffix_append _ _
  refine ⟨head, r, w₅, hrun.symm, hchain, rfl, fun hagrees => ?_⟩
  have hlive : ¬ w₅.Deleted toySystem := fun hgone => (hagrees.deleted toySystem hgone).2 _ hrow hid
  have hone : s₃.db.receiptsOf toySystem ReceiptRow.isConnections = [receiptRow positionCrypto r] :=
    hagrees.chain toySystem hlive
  have hlong := hchain.length_le
  rw [hone] at hlong
  exact absurd hlong (Nat.not_succ_le_self 1)

/-- A step in which at most a toy signer is asked, and only changes are written. -/
theorem WatchWorld.SavesTogether.of_toyReplies {w : WatchWorld} {x : WatchStep}
    (hviews : ∀ view ∈ x.views, view = toyReplies.view) (hothers : ∀ op, x = .store op → op.IsOther)
    (hbeats : ∀ a write rest, x = .write a → w.job = write :: rest → write.note ≠ none) : w.SavesTogether c x where
  others := hothers
  brings := brings_toyReplies hviews
  beats a write rest hx hjob hnote := absurd hnote (hbeats a write rest hx hjob)

/-- A session that starts. -/
def startOnly : List WatchStep :=
  [.store (.createSystem toySystem newYear none toyReplies), .heartbeat (startOf toySystem (js "s1")) [] newYear,
    .write toyAnswering]

/-- **A start keeps the rows and the receipts together.** -/
theorem sessions_agree_start :
    ((WatchWorld.fresh toyWriter newYear).run positionCrypto ⟨id, id, id⟩ toyWriter toyWatch startOnly).Agrees
      positionCrypto := by
  obtain ⟨g, s₁, hcreate, -, -, hnone, -⟩ := Tame.opens ⟨id, id, id⟩
  let w₁ : WatchWorld := ⟨⟨s₁, []⟩, [], dateParse newYear, [], []⟩
  let w₂ : WatchWorld := ⟨⟨s₁, []⟩, [(toySystem, [dateParse newYear])], dateParse newYear,
    [⟨openSession toySystem (js "s1"), some ⟨.start, newYear.1, .ok, .sdk⟩, newYear⟩], []⟩
  have hcreated : (WatchWorld.fresh toyWriter newYear).step positionCrypto ⟨id, id, id⟩ toyWriter toyWatch
      (.store (.createSystem toySystem newYear none toyReplies)) = w₁ := WatchWorld.step_opens hcreate
  have hheard : w₁.step positionCrypto ⟨id, id, id⟩ toyWriter toyWatch
      (.heartbeat (startOf toySystem (js "s1")) [] newYear) = w₂ := by
    have hfew : (w₁.openedLately toySystem (dateParse newYear)).length < toyWatch.maxNewSessionsPerHour :=
      Nat.zero_lt_succ 59
    exact WatchWorld.step_start (fun r hr => (List.not_mem_nil (hnone ▸ hr)).elim) rfl hfew _ _ _ _
  have hmeets : WatchWorld.Meets positionCrypto ⟨id, id, id⟩ toyWriter toyWatch
      (WatchWorld.SavesTogether positionCrypto) (.fresh toyWriter newYear) startOnly := by
    refine ⟨.of_toyReplies (fun _ => List.mem_singleton.mp) (by rintro _ ⟨⟩; trivial) (by rintro a write rest ⟨⟩), ?_⟩
    rw [hcreated]
    refine ⟨.of_toyReplies (fun _ h => absurd h List.not_mem_nil) (by rintro op ⟨⟩) (by rintro a write rest ⟨⟩), ?_⟩
    rw [hheard]
    refine ⟨.of_toyReplies (fun _ => List.mem_singleton.mp) (by rintro op ⟨⟩) ?_, trivial⟩
    intro a write rest _ hjob hnote
    obtain ⟨rfl, -⟩ := List.cons.inj hjob
    cases hnote
  exact sessions_agree positionCrypto ⟨id, id, id⟩ toyWriter toyWatch newYear hmeets

end Sigillo
