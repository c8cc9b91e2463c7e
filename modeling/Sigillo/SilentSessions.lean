import Sigillo.Heartbeats

/-!
# Sessions that fall silent

A sweep writes the loss of every silent session in one loop, which the first system to refuse its receipt
ends: the sessions it has not come to wait for a later sweep, and for as long as that system refuses. So a
sweep serves the systems that take their receipts when it meets all their sessions first
(**`sweep_independent_iff`**), and one system that is refused can keep the losses of another off its chain
(**`healthy_system_unheard`**). -/

namespace Sigillo

open DoubleArith Utf16Text JsonText JsonSchema HexBase64 IsoTime Fallible

variable {c : Crypto} {u : Unicode} {key : WriterKey} {options : ConnectionWatchOptions}

-- ── One write ────────────────────────────────────────────────────────────────────

/-- A write with a change is refused at once, or is the write of its receipt. -/
theorem SessionWrite.perform_of_note {w : SessionWrite} {n : ChangeNote} (hn : w.note = some n) (s : Store)
    (a : Answering) : (∃ e, w.perform c u key s a = (s, .error e)) ∨
      w.perform c u key s a =
        ((writeReceipt c u key s (n.change.event w.row.systemId n.tsEvent w.time n.outcome n.source) .continuation
            (fun db => .ok (saveConnection w.row db)) a.replies).1,
          (writeReceipt c u key s (n.change.event w.row.systemId n.tsEvent w.time n.outcome n.source) .continuation
            (fun db => .ok (saveConnection w.row db)) a.replies).2.map some) := by
  rw [perform, event, hn, Option.map_some, Option.map_some, recordConnection,
    if_neg (not_not.mpr (Change.event_named _ _ _ _ _ _))]
  cases refusedBefore c u key a.seen (n.change.event w.row.systemId n.tsEvent w.time n.outcome n.source) a.checked with
  | some e => exact .inl ⟨e, rfl⟩
  | none =>
      refine .inr ?_
      dsimp only
      cases writeReceipt c u key s (n.change.event w.row.systemId n.tsEvent w.time n.outcome n.source) .continuation
          (fun db => .ok (saveConnection w.row db)) a.replies with
      | mk store result =>
          cases result with
          | error e => rfl
          | ok receipt => rfl

/-- **A write that succeeds with a change writes its receipt.** -/
theorem SessionWrite.perform_noted {w : SessionWrite} {n : ChangeNote} (hn : w.note = some n) {s s' : Store}
    {a : Answering} {written : Option Receipt} (h : w.perform c u key s a = (s', .ok written)) :
    ∃ r, written = some r ∧
      writeReceipt c u key s (n.change.event w.row.systemId n.tsEvent w.time n.outcome n.source) .continuation
        (fun db => .ok (saveConnection w.row db)) a.replies = (s', .ok r) := by
  rcases perform_of_note hn s a with ⟨e, he⟩ | heq
  · cases (Prod.mk.inj (he.symm.trans h)).2
  · obtain ⟨hstore, hresult⟩ := Prod.mk.inj (heq.symm.trans h)
    obtain ⟨r, hr, rfl⟩ := map_eq_ok.mp hresult
    exact ⟨r, rfl, Prod.ext hstore hr⟩

theorem SessionWrite.perform_commits (w : SessionWrite) (s : Store) (a : Answering) :
    Commits c u key Kind.IsOrdinary s (w.perform c u key s a).1 :=
  recordConnection_commits s a.seen w.row _

-- ── A sweep ──────────────────────────────────────────────────────────────────────

/-- What comes between the writes of a sweep, and how each is answered. -/
abbrev Turn := List Operation × Answering

/-- A turn: what the store does before the write, and the write. -/
def turnSteps (turns : List Turn) : List WatchStep :=
  turns.flatMap fun turn => turn.1.map .store ++ [.write turn.2]

/-- Which writes are refused, were each to have its turn. -/
def refusals (c : Crypto) (u : Unicode) (key : WriterKey) (s : Store) : List (SessionWrite × Turn) → List Bool
  | [] => []
  | (write, ops, a) :: rest =>
      let (s, result) := write.perform c u key (run c u key s ops) a
      (!result.toBool) :: refusals c u key s rest

theorem refusals_cons (s : Store) (write : SessionWrite) (ops : List Operation) (a : Answering)
    (rest : List (SessionWrite × Turn)) : refusals c u key s ((write, ops, a) :: rest)
      = (!(write.perform c u key (run c u key s ops) a).2.toBool)
        :: refusals c u key (write.perform c u key (run c u key s ops) a).1 rest := rfl

/-- A receipt of the loss of a session. -/
structure Told.IsLossOf (t : Told) (session : ConnectionRow) : Prop where
  systemId : t.systemId = session.systemId
  sessionId : t.sessionId = session.sessionId
  change : t.change = .lost
  receipt : t.receipt.systemId = session.systemId
  name : t.receipt.action.input.name = Change.lost.receiptName
  tsEvent : t.receipt.tsEvent.1 = session.lastBeatAt.1

/-- **A loss is written**: the watch wrote it as its `i`-th of this sweep, and it is on the chain for as long
    as there is one. -/
def LossWritten (c : Crypto) (before after : WatchWorld) (i : ℕ) (session : ConnectionRow) : Prop :=
  ∃ t, after.told[before.told.length + i]? = some t ∧ t.IsLossOf session ∧
    (receiptRow c t.receipt ∈ after.watch.store.db.receipts ∨
      .deletedChain session.systemId ∈ after.watch.store.history)

/-- **A sweep past the allowance**: the sessions it finds silent, and a turn for each. -/
structure Sweep (options : ConnectionWatchOptions) (w : WatchWorld) where
  sessions : List ConnectionRow
  time : Timestamp
  turns : List Turn
  idle : w.job = []
  listed : w.watch.store.db.ListsOpenConnections sessions
  past : options.lostAfterMs < dateParse time - w.since
  turnEach : turns.length = (silentPast options.lostAfterMs time sessions).length

namespace Sweep

variable {w : WatchWorld} (sweep : Sweep options w)

/-- The sessions silent beyond the allowance. -/
def silent : List ConnectionRow := silentPast options.lostAfterMs sweep.time sweep.sessions

def writes : List (SessionWrite × Turn) := (sweep.silent.map fun session => lossOf session sweep.time).zip sweep.turns

/-- How it ends. -/
def after (c : Crypto) (u : Unicode) (key : WriterKey) : WatchWorld :=
  w.run c u key options (.sweep sweep.sessions sweep.time :: turnSteps sweep.turns)

/-- The systems whose receipts are refused when their turn comes. -/
def RefusesOf (c : Crypto) (u : Unicode) (key : WriterKey) (refused : Set SystemId) : Prop :=
  ∀ (i : ℕ) (session : ConnectionRow), sweep.silent[i]? = some session →
    ((refusals c u key w.watch.store sweep.writes)[i]? = some true ↔ session.systemId ∈ refused)

/-- **Systems are treated independently**: every silent session of a system that is not refused gets its
    loss. -/
def Independent (c : Crypto) (u : Unicode) (key : WriterKey) (refused : Set SystemId) : Prop :=
  ∀ (i : ℕ) (session : ConnectionRow), sweep.silent[i]? = some session → session.systemId ∉ refused →
    LossWritten c w (sweep.after c u key) i session

/-- No session of a system that takes its receipts comes after one of a system that is refused. -/
def HealthyFirst (refused : Set SystemId) : Prop :=
  ∀ (i j : ℕ) (a b : ConnectionRow), i < j → sweep.silent[i]? = some a → sweep.silent[j]? = some b → a.systemId ∈ refused →
    b.systemId ∈ refused

end Sweep

-- ── The loop ─────────────────────────────────────────────────────────────────────

namespace WatchWorld

variable {w : WatchWorld}

theorem run_store (w : WatchWorld) (ops : List Operation) :
    w.run c u key options (ops.map .store) = w.withStore (Sigillo.run c u key w.watch.store ops) := by
  induction ops generalizing w with
  | nil => rfl
  | cons op rest ih =>
      show (w.withStore (perform c u key w.watch.store op)).run c u key options (rest.map .store) = _
      rw [ih]
      rfl

theorem writeTurn_error {write : SessionWrite} {rest : List SessionWrite} {a : Answering} {store : Store}
    {e : StoreError} (hjob : w.job = write :: rest) (h : write.perform c u key w.watch.store a = (store, .error e)) :
    w.writeTurn c u key a = { w.withStore store with job := [] } := by
  unfold writeTurn
  rw [hjob]
  dsimp only
  rw [h]

theorem writeTurn_ok {write : SessionWrite} {rest : List SessionWrite} {a : Answering} {store : Store}
    {written : Option Receipt} (hjob : w.job = write :: rest)
    (h : write.perform c u key w.watch.store a = (store, .ok written)) :
    w.writeTurn c u key a = { w.withStore store with job := rest, told := w.told ++ toldOf write written } := by
  unfold writeTurn
  rw [hjob]
  dsimp only
  rw [h]

/-- Without a job, nothing is written. -/
theorem told_turnSteps (hidle : w.job = []) (turns : List Turn) :
    (w.run c u key options (turnSteps turns)).told = w.told := by
  induction turns generalizing w with
  | nil => rfl
  | cons turn rest ih =>
      show (w.run c u key options ((turn.1.map .store ++ [.write turn.2]) ++ turnSteps rest)).told = _
      rw [run_append, run_append, run_store]
      have hsame : (w.withStore (Sigillo.run c u key w.watch.store turn.1)).run c u key options [.write turn.2]
          = w.withStore (Sigillo.run c u key w.watch.store turn.1) := by
        show (w.withStore (Sigillo.run c u key w.watch.store turn.1)).writeTurn c u key turn.2 = _
        rw [writeTurn]
        dsimp only [withStore]
        rw [hidle]
      rw [hsame]
      exact ih hidle

theorem writeTurn_commits (w : WatchWorld) (a : Answering) :
    Commits c u key Kind.IsOrdinary w.watch.store (w.writeTurn c u key a).watch.store := by
  unfold writeTurn
  cases w.job with
  | nil => exact .refl
  | cons write rest =>
      have hcommits : Commits c u key Kind.IsOrdinary w.watch.store (write.perform c u key w.watch.store a).1 :=
        write.perform_commits w.watch.store a
      dsimp only
      cases hperform : write.perform c u key w.watch.store a with
      | mk store result =>
          rw [hperform] at hcommits
          cases result with
          | error e => exact hcommits
          | ok written => exact hcommits

theorem store_heartbeatTurn (w : WatchWorld) (h : Heartbeat) (sessions : List ConnectionRow) (time : Timestamp) :
    (w.heartbeatTurn options h sessions time).watch.store = w.watch.store := by
  unfold heartbeatTurn gapTurn
  dsimp only
  repeat' split
  all_goals rfl

/-- **Whatever step is taken, the store commits its own transactions.** -/
theorem step_commits (w : WatchWorld) (x : WatchStep) :
    ∃ allowed, Commits c u key allowed w.watch.store (w.step c u key options x).watch.store := by
  cases x with
  | heartbeat h sessions time =>
      refine ⟨Kind.IsOrdinary, ?_⟩
      unfold step
      dsimp only
      split
      · rw [store_heartbeatTurn]
      · exact .refl
  | sweep sessions time =>
      refine ⟨Kind.IsOrdinary, ?_⟩
      unfold step
      dsimp only
      split
      · exact .refl
      · exact .refl
  | write a => exact ⟨Kind.IsOrdinary, w.writeTurn_commits a⟩
  | store op => exact ⟨op.Allows, perform_commits w.watch.store op⟩
  | restart time => exact ⟨Operation.Allows .reopen, perform_commits w.watch.store .reopen⟩

/-- **A receipt stays on its chain for as long as there is one.** -/
theorem row_kept_run {r : Receipt} (steps : List WatchStep)
    (h : receiptRow c r ∈ w.watch.store.db.receipts ∨ .deletedChain r.systemId ∈ w.watch.store.history) :
    receiptRow c r ∈ (w.run c u key options steps).watch.store.db.receipts ∨
      .deletedChain r.systemId ∈ (w.run c u key options steps).watch.store.history := by
  induction steps generalizing w with
  | nil => exact h
  | cons x rest ih =>
      obtain ⟨allowed, hcommits⟩ : ∃ allowed, Commits c u key allowed w.watch.store
          (w.step c u key options x).watch.store := w.step_commits x
      have hkept : receiptRow c r ∈ w.watch.store.db.receipts ∨
          .deletedChain (receiptRow c r).systemId ∈ w.watch.store.history → _ := row_kept hcommits
      exact ih (hkept h)

/-- The losses of the first `n` sessions, and no other receipt. -/
def LossesOf (c : Crypto) (before after : WatchWorld) (sessions : List ConnectionRow) (n : ℕ) : Prop :=
  ∃ new : List Told, after.told = before.told ++ new ∧ new.length = n ∧
    ∀ (i : ℕ) (t : Told) (session : ConnectionRow), new[i]? = some t → sessions[i]? = some session →
      t.IsLossOf session ∧ (receiptRow c t.receipt ∈ after.watch.store.db.receipts ∨
        .deletedChain session.systemId ∈ after.watch.store.history)

theorem LossesOf.cons {before middle after : WatchWorld} {session : ConnectionRow} {rest : List ConnectionRow}
    {n : ℕ} {t : Told} (h : LossesOf c middle after rest n) (htold : middle.told = before.told ++ [t])
    (hloss : t.IsLossOf session) (hkept : receiptRow c t.receipt ∈ after.watch.store.db.receipts ∨
      .deletedChain session.systemId ∈ after.watch.store.history) :
    LossesOf c before after (session :: rest) (n + 1) := by
  obtain ⟨new, hnew, hlength, hlosses⟩ := h
  refine ⟨t :: new, ?_, by rw [List.length_cons, hlength], ?_⟩
  · rw [hnew, htold, List.append_assoc]
    rfl
  · intro i t' session' ht hsession
    cases i with
    | zero =>
        obtain rfl := Option.some.inj ht
        obtain rfl := Option.some.inj hsession
        exact ⟨hloss, hkept⟩
    | succ i => exact hlosses i t' session' ht hsession

/-- How many sessions have their turn before the first that is refused. -/
def untilRefused (c : Crypto) (u : Unicode) (key : WriterKey) (s : Store) (writes : List (SessionWrite × Turn)) : ℕ :=
  ((refusals c u key s writes).takeWhile (!·)).length

/-- **The writes of a sweep** are made up to the first that is refused. -/
theorem run_turns {sessions : List ConnectionRow} {time : Timestamp} {turns : List Turn}
    (hlength : turns.length = sessions.length) (hjob : w.job = sessions.map fun session => lossOf session time) :
    LossesOf c w (w.run c u key options (turnSteps turns)) sessions (untilRefused c u key w.watch.store
      ((sessions.map fun session => lossOf session time).zip turns)) := by
  induction sessions generalizing w turns with
  | nil =>
      obtain rfl := List.length_eq_zero_iff.mp hlength
      exact ⟨[], (List.append_nil _).symm, rfl, fun i t session h => by simp at h⟩
  | cons session rest ih =>
      obtain ⟨⟨ops, a⟩, turns, rfl⟩ := List.exists_cons_of_length_eq_add_one hlength
      have hlength : turns.length = rest.length := Nat.succ.inj hlength
      have hrun : w.run c u key options (turnSteps ((ops, a) :: turns))
          = ((w.withStore (Sigillo.run c u key w.watch.store ops)).writeTurn c u key a).run c u key options
              (turnSteps turns) := by
        show w.run c u key options ((ops.map .store ++ [.write a]) ++ turnSteps turns) = _
        rw [run_append, run_append, run_store]
        rfl
      have hjob' : (w.withStore (Sigillo.run c u key w.watch.store ops)).job
          = lossOf session time :: rest.map fun session => lossOf session time := hjob
      cases hperform : (lossOf session time).perform c u key (Sigillo.run c u key w.watch.store ops) a with
      | mk store result =>
          have huntil : untilRefused c u key w.watch.store
              (((session :: rest).map fun session => lossOf session time).zip ((ops, a) :: turns))
                = ((((!result.toBool)) :: refusals c u key store
                    ((rest.map fun session => lossOf session time).zip turns)).takeWhile (!·)).length := by
            rw [untilRefused, List.map_cons, List.zip_cons_cons, refusals, hperform]
          rw [hrun, huntil]
          cases result with
          | error e =>
              rw [writeTurn_error hjob' hperform]
              refine ⟨[], ?_, rfl, fun i t session h => by simp at h⟩
              rw [told_turnSteps rfl, List.append_nil]
              rfl
          | ok written =>
              rw [writeTurn_ok hjob' hperform]
              obtain ⟨r, rfl, hwrite⟩ := SessionWrite.perform_noted rfl hperform
              obtain ⟨hsaid, hrow, -⟩ := writeReceipt_saved rfl hwrite
              have hsystem : r.systemId = session.systemId := hsaid.systemId
              refine (ih hlength rfl).cons (t := ⟨session.systemId, session.sessionId, .lost, r⟩) rfl
                ⟨rfl, rfl, rfl, hsystem, congrArg ActionInput.name hsaid.action, hsaid.tsEvent⟩ ?_
              rw [← hsystem]
              exact row_kept_run (turnSteps turns) (.inl hrow)

end WatchWorld

-- ── The claim of independence ────────────────────────────────────────────────────

theorem length_refusals (s : Store) (writes : List (SessionWrite × Turn)) :
    (refusals c u key s writes).length = writes.length := by
  induction writes generalizing s with
  | nil => rfl
  | cons x rest ih =>
      obtain ⟨write, ops, a⟩ := x
      rw [refusals]
      exact congrArg Nat.succ (ih _)

/-- What comes before the first that is refused. -/
theorem lt_takeWhile_iff {flags : List Bool} {i : ℕ} (hi : i < flags.length) :
    i < (flags.takeWhile (!·)).length ↔ ∀ j ≤ i, flags[j]? = some false := by
  induction flags generalizing i with
  | nil => exact absurd hi (Nat.not_lt_zero i)
  | cons flag rest ih =>
      cases flag with
      | true =>
          constructor
          · intro h
            exact absurd h (Nat.not_lt_zero i)
          · intro h
            cases h 0 (Nat.zero_le i)
      | false =>
          show i < (rest.takeWhile (!·)).length + 1 ↔ _
          cases i with
          | zero =>
              refine iff_of_true (Nat.succ_pos _) fun j hj => ?_
              rw [Nat.le_zero.mp hj]
              rfl
          | succ i =>
              rw [Nat.succ_lt_succ_iff, ih (Nat.lt_of_succ_lt_succ hi)]
              constructor
              · intro h j hj
                cases j with
                | zero => rfl
                | succ j => exact h j (Nat.le_of_succ_le_succ hj)
              · intro h j hj
                exact h (j + 1) (Nat.succ_le_succ hj)

namespace Sweep

variable {w : WatchWorld} (sweep : Sweep options w)

theorem losses (c : Crypto) (u : Unicode) (key : WriterKey) : WatchWorld.LossesOf c w (sweep.after c u key)
    sweep.silent (WatchWorld.untilRefused c u key w.watch.store sweep.writes) := by
  have hstep : w.step c u key options (.sweep sweep.sessions sweep.time)
      = { w with job := sweep.silent.map fun session => lossOf session sweep.time } := by
    show (if w.job = [] ∧ w.watch.store.db.ListsOpenConnections sweep.sessions then _ else w) = _
    rw [if_pos ⟨sweep.idle, sweep.listed⟩, sweepWrites, if_neg (not_le.mpr sweep.past)]
    rfl
  show WatchWorld.LossesOf c w ((w.step c u key options (.sweep sweep.sessions sweep.time)).run c u key options
    (turnSteps sweep.turns)) sweep.silent _
  rw [hstep]
  exact WatchWorld.run_turns (w := { w with job := sweep.silent.map fun session => lossOf session sweep.time })
    sweep.turnEach rfl

theorem lossWritten_iff {i : ℕ} {session : ConnectionRow} (h : sweep.silent[i]? = some session) :
    LossWritten c w (sweep.after c u key) i session ↔
      i < WatchWorld.untilRefused c u key w.watch.store sweep.writes := by
  obtain ⟨new, htold, hlength, hlosses⟩ := sweep.losses c u key
  rw [← hlength]
  constructor
  · rintro ⟨t, ht, -⟩
    rw [htold, List.getElem?_append_right (Nat.le_add_right _ _), Nat.add_sub_cancel_left] at ht
    exact (List.getElem?_eq_some_iff.mp ht).1
  · intro hi
    obtain ⟨hloss, hkept⟩ := hlosses i new[i] session (List.getElem?_eq_getElem hi) h
    refine ⟨new[i], ?_, hloss, hkept⟩
    rw [htold, List.getElem?_append_right (Nat.le_add_right _ _), Nat.add_sub_cancel_left]
    exact List.getElem?_eq_getElem hi

/-- **A sweep serves every system that takes its receipts** exactly when none of their sessions comes after
    one of a system that is refused. -/
theorem sweep_independent_iff {refused : Set SystemId} (hrefused : sweep.RefusesOf c u key refused) :
    sweep.Independent c u key refused ↔ sweep.HealthyFirst refused := by
  have hlength : (refusals c u key w.watch.store sweep.writes).length = sweep.silent.length := by
    rw [length_refusals, writes, List.length_zip, List.length_map, sweep.turnEach]
    exact min_self _
  constructor
  · intro hindependent i j a b hij ha hb hrefusedA
    by_contra hhealthy
    have hj := (sweep.lossWritten_iff hb).mp (hindependent j b hb hhealthy)
    have hjlt : j < (refusals c u key w.watch.store sweep.writes).length :=
      hlength ▸ (List.getElem?_eq_some_iff.mp hb).1
    have hfalse := (lt_takeWhile_iff hjlt).mp hj i (Nat.le_of_lt hij)
    rw [(hrefused i a ha).mpr hrefusedA] at hfalse
    cases hfalse
  · intro hfirst i session hsession hhealthy
    have hilt : i < (refusals c u key w.watch.store sweep.writes).length :=
      hlength ▸ (List.getElem?_eq_some_iff.mp hsession).1
    refine (sweep.lossWritten_iff hsession).mpr ((lt_takeWhile_iff hilt).mpr fun j hj => ?_)
    have hjlt : j < sweep.silent.length := Nat.lt_of_le_of_lt hj (List.getElem?_eq_some_iff.mp hsession).1
    have hother := List.getElem?_eq_getElem hjlt
    -- whoever comes before a healthy session is not refused either
    have hnot : sweep.silent[j].systemId ∉ refused := by
      intro hmem
      rcases Nat.eq_or_lt_of_le hj with rfl | hlt
      · rw [hother] at hsession
        obtain rfl := Option.some.inj hsession
        exact hhealthy hmem
      · exact hhealthy (hfirst j i _ _ hlt hother hsession hmem)
    obtain ⟨flag, hflag⟩ : ∃ flag, (refusals c u key w.watch.store sweep.writes)[j]? = some flag :=
      ⟨_, List.getElem?_eq_getElem (hlength ▸ hjlt)⟩
    cases flag with
    | false => exact hflag
    | true => exact absurd ((hrefused j _ hother).mp hflag) hnot

end Sweep

-- ── A signer that has forgotten a chain ──────────────────────────────────────────

/-- A position refused, by a signer that holds nothing of the chain. -/
def forgottenReplies : SignerReplies :=
  { toyReplies with first := ⟨toyRandomness, .error (.signerRefused .sequence (js "out of order"))⟩ }

theorem Tame.diverged {n : ℕ} {s : Store} (h : Tame n s) (systemId : SystemId) (detail : JsString)
    (ts : Timestamp) : Tame n (recordDivergence s systemId detail ts) ∧
      (recordDivergence s systemId detail ts).db.connections = s.db.connections ∧
      (recordDivergence s systemId detail ts).db.receipts = s.db.receipts := by
  rw [recordDivergence]
  split
  · exact ⟨h, rfl, rfl⟩
  · exact ⟨⟨h.whole.frame rfl (List.Subset.refl _) rfl, h.subjects, h.systems, h.short⟩, rfl, rfl⟩

/-- The signer has no head, and the chain has a tip. -/
theorem reconcileNow_forgotten {s : Store} {systemId : SystemId} {view : SignerView} (hhead : view.head = .ok none)
    (htip : s.db.tipRow systemId ≠ none) : ∃ detail, reconcileNow c key s systemId view
      = (recordDivergence s systemId detail (view.clock 0), .ok (.diverged detail)) := by
  obtain ⟨tip, htip⟩ := Option.ne_none_iff_exists'.mp htip
  unfold reconcileNow
  simp only [hhead, htip]
  exact ⟨_, rfl⟩

/-- **A chain the signer has forgotten takes no receipt.** -/
theorem Tame.forgotten {n : ℕ} {s : Store} {systemId : SystemId} {tsEvent : JsString} {tsReceived : Timestamp}
    {outcome : Outcome} {source : SourceType} (h : Tame n s) (change : Change) (hn : n < 16)
    (hsystem : IsToySystem systemId) (htip : s.db.tipRow systemId ≠ none) (hts : IsTimestamp tsEvent)
    (row : ConnectionRow) :
    ∃ e s', recordConnection positionCrypto u toyWriter s [] row
        (some (change.event systemId tsEvent tsReceived outcome source, toyRandomness, forgottenReplies))
          = (s', .error e) ∧
      Tame n s' ∧ s'.db.connections = s.db.connections ∧ s'.db.receipts = s.db.receipts := by
  obtain ⟨receipt, db, hwrites, -⟩ : ∃ receipt db, Writes positionCrypto u toyWriter s.db
      (change.event systemId tsEvent tsReceived outcome source) .continuation toyReplies.first serversPrepared
      receipt db ∧ receipt.seq.1 ≤ n := h.takes change hn hsystem htip hts
  obtain ⟨db₁, prepared, hdraft⟩ := hwrites.asked
  have hinsert : insertReceipt positionCrypto u toyWriter s.db
      (change.event systemId tsEvent tsReceived outcome source) .continuation forgottenReplies.first
        = .error (.signerRefused .sequence (js "out of order")) :=
    bind_eq_error.mpr (.inr ⟨_, hdraft, bind_eq_error.mpr (.inl rfl)⟩)
  obtain ⟨detail, hview⟩ : ∃ detail, reconcileNow positionCrypto toyWriter s systemId forgottenReplies.view
      = (recordDivergence s systemId detail newYear, .ok (.diverged detail)) := reconcileNow_forgotten rfl htip
  have hview' : reconcileNow positionCrypto toyWriter s
      (change.event systemId tsEvent tsReceived outcome source).systemId forgottenReplies.view
        = (recordDivergence s systemId detail newYear, .ok (.diverged detail)) := hview
  have hwrite : writeReceipt positionCrypto u toyWriter s
      (change.event systemId tsEvent tsReceived outcome source) .continuation
      (fun db => .ok (saveConnection row db)) forgottenReplies = (recordDivergence s systemId detail newYear,
        .error (.signerRefused .sequence (js "out of order" ++ js "; " ++ detail))) := by
    rw [writeReceipt, attemptReceipt, hinsert]
    dsimp only [bind, Except.bind]
    rw [hview']
  refine ⟨.signerRefused .sequence (js "out of order" ++ js "; " ++ detail),
    recordDivergence s systemId detail newYear, ?_, h.diverged systemId detail newYear⟩
  rw [recordConnection, if_neg (not_not.mpr (Change.event_named _ _ _ _ _ _)),
    Change.checked change hts hsystem.short.1 hsystem.short.2]
  dsimp only
  rw [hwrite]

-- ── Two agents ───────────────────────────────────────────────────────────────────

def toyWatch : ConnectionWatchOptions := { readBoot := fun _ => none }

def toyAnswering : Answering := ⟨[], toyRandomness, toyReplies⟩

def forgottenAnswering : Answering := ⟨[], toyRandomness, forgottenReplies⟩

/-- The start of an agent of a system. -/
def startOf (systemId : SystemId) (sessionId : JsString) : Heartbeat := ⟨systemId, sessionId, .start, none, none⟩

/-- Its session, once it is open. -/
def openSession (systemId : SystemId) (sessionId : JsString) : ConnectionRow :=
  ⟨systemId, sessionId, .«open», newYear, newYear, none, false, none⟩

theorem savedConnections_new {row : ConnectionRow} {rows : List ConnectionRow}
    (h : ∀ r ∈ rows, r.systemId ≠ row.systemId) : savedConnections row rows = rows ++ [row] := by
  rw [savedConnections, if_neg]
  intro hany
  obtain ⟨r, hr, hsame⟩ := List.any_eq_true.mp hany
  rw [Bool.and_eq_true, beq_iff_eq] at hsame
  exact h r hr hsame.1

/-- **A toy system takes the write of a change.** -/
theorem Tame.performs {n : ℕ} {s : Store} {write : SessionWrite} {note : ChangeNote} (h : Tame n s) (hn : n < 16)
    (hnote : write.note = some note) (hsystem : IsToySystem write.row.systemId)
    (htip : s.db.tipRow write.row.systemId ≠ none) (hts : IsTimestamp note.tsEvent) (u : Unicode) :
    ∃ store receipt, write.perform positionCrypto u toyWriter s toyAnswering = (store, .ok (some receipt)) ∧
      Tame (n + 1) store ∧ store.db.connections = savedConnections write.row s.db.connections ∧
      store.db.receipts = s.db.receipts ++ [receiptRow positionCrypto receipt] ∧
      receipt.systemId = write.row.systemId := by
  obtain ⟨receipt, store, hrecord, htame, -, hconnections, hreceipts, hid⟩ :=
    h.record (u := u) hn hsystem htip hts [] write.row
  refine ⟨store, receipt, ?_, htame, hconnections, hreceipts, hid⟩
  rw [SessionWrite.perform, SessionWrite.event, hnote]
  exact hrecord

/-- The world after it. -/
theorem Tame.writes_noted {n : ℕ} {w : WatchWorld} {write : SessionWrite} {rest : List SessionWrite} {note : ChangeNote}
    (h : Tame n w.watch.store) (hn : n < 16) (hjob : w.job = write :: rest) (hnote : write.note = some note)
    (hsystem : IsToySystem write.row.systemId) (htip : w.watch.store.db.tipRow write.row.systemId ≠ none)
    (hts : IsTimestamp note.tsEvent) (u : Unicode) :
    ∃ store receipt, w.writeTurn positionCrypto u toyWriter toyAnswering = { w.withStore store with
        job := rest, told := w.told ++ [⟨write.row.systemId, write.row.sessionId, note.change, receipt⟩] } ∧
      Tame (n + 1) store ∧
      store.db.connections = savedConnections write.row w.watch.store.db.connections ∧
      store.db.receipts = w.watch.store.db.receipts ++ [receiptRow positionCrypto receipt] ∧
      receipt.systemId = write.row.systemId := by
  obtain ⟨store, receipt, hperform, hrest⟩ := h.performs hn hnote hsystem htip hts u
  refine ⟨store, receipt, ?_, hrest⟩
  rw [WatchWorld.writeTurn_ok hjob hperform]
  unfold WatchWorld.toldOf
  rw [hnote]

/-- A system without sessions lists none. -/
theorem Database.listsConnectionsOf_nil {db : Database} {systemId : SystemId}
    (hfirst : ∀ r ∈ db.connections, r.systemId ≠ systemId) : db.ListsConnectionsOf systemId [] := by
  have hfilter : (db.connections.filter fun r => r.systemId == systemId) = [] := by
    refine List.filter_eq_nil_iff.mpr fun r hr hsame => hfirst r hr ?_
    exact beq_iff_eq.mp hsame
  refine ⟨?_, List.Pairwise.nil⟩
  rw [hfilter]

/-- Nor does it know any. -/
theorem Database.connection_eq_none {db : Database} {systemId : SystemId} (sessionId : JsString)
    (hfirst : ∀ r ∈ db.connections, r.systemId ≠ systemId) : db.connection systemId sessionId = none := by
  refine List.find?_eq_none.mpr fun r hr hsame => hfirst r hr ?_
  rw [Bool.and_eq_true, beq_iff_eq] at hsame
  exact hsame.1

/-- The turn of a toy agent's start: the session is not known, nor is any other of its system. -/
theorem WatchWorld.step_start {w : WatchWorld} {systemId : SystemId}
    (hfirst : ∀ r ∈ w.watch.store.db.connections, r.systemId ≠ systemId) (hidle : w.job = [])
    (hfew : (w.openedLately systemId (dateParse newYear)).length < toyWatch.maxNewSessionsPerHour)
    (c : Crypto) (u : Unicode) (key : WriterKey) (sessionId : JsString) :
    w.step c u key toyWatch (.heartbeat (startOf systemId sessionId) [] newYear)
      = { w with
          opened := AssocList.set w.opened systemId
            (w.openedLately systemId (dateParse newYear) ++ [dateParse newYear])
          job := [⟨openSession systemId sessionId, some ⟨.start, newYear.1, .ok, .sdk⟩, newYear⟩] } := by
  have hlisted : w.watch.store.db.ListsConnectionsOf (startOf systemId sessionId).systemId [] :=
    Database.listsConnectionsOf_nil hfirst
  have hunknown : w.watch.store.db.connection (startOf systemId sessionId).systemId
      (startOf systemId sessionId).sessionId = none := Database.connection_eq_none sessionId hfirst
  show (if w.job = [] ∧ w.watch.store.db.ListsConnectionsOf (startOf systemId sessionId).systemId [] then _ else w) = _
  rw [if_pos ⟨hidle, hlisted⟩]
  unfold WatchWorld.heartbeatTurn
  rw [hunknown]
  have hopens : (startOf systemId sessionId).opens none = true := rfl
  show (if (startOf systemId sessionId).opens none = true then _ else _) = _
  rw [if_pos hopens]
  show (if toyWatch.maxNewSessionsPerHour ≤ (w.openedLately systemId (dateParse newYear)).length then _ else _) = _
  rw [if_neg (not_le.mpr hfew)]
  rfl

/-- **A toy agent starts**, the first of its system. -/
theorem Tame.starts {n : ℕ} {w : WatchWorld} {systemId : SystemId} (h : Tame n w.watch.store) (hn : n < 16)
    (hsystem : IsToySystem systemId) (htip : w.watch.store.db.tipRow systemId ≠ none)
    (hfirst : ∀ r ∈ w.watch.store.db.connections, r.systemId ≠ systemId) (hidle : w.job = [])
    (hopened : w.opened.lookup systemId = none) (u : Unicode) (sessionId : JsString) :
    ∃ store receipt, w.run positionCrypto u toyWriter toyWatch
        [.heartbeat (startOf systemId sessionId) [] newYear, .write toyAnswering]
          = { w.withStore store with
              opened := AssocList.set w.opened systemId [dateParse newYear], job := []
              told := w.told ++ [⟨systemId, sessionId, .start, receipt⟩] } ∧
      Tame (n + 1) store ∧
      store.db.connections = w.watch.store.db.connections ++ [openSession systemId sessionId] ∧
      store.db.receipts = w.watch.store.db.receipts ++ [receiptRow positionCrypto receipt] ∧
      receipt.systemId = systemId := by
  have hlately : w.openedLately systemId (dateParse newYear) = [] := by
    show (((w.opened.lookup systemId).getD []).filter _) = []
    rw [hopened]
    rfl
  have hturn : w.step positionCrypto u toyWriter toyWatch (.heartbeat (startOf systemId sessionId) [] newYear) = _ :=
    WatchWorld.step_start hfirst hidle (by rw [hlately]; decide) positionCrypto u toyWriter sessionId
  rw [hlately] at hturn
  obtain ⟨store, receipt, hwrite, htame, hconnections, hreceipts, hid⟩ := Tame.writes_noted
    (w := { w with
      opened := AssocList.set w.opened systemId [dateParse newYear]
      job := [⟨openSession systemId sessionId, some ⟨.start, newYear.1, .ok, .sdk⟩, newYear⟩] })
    h hn rfl rfl hsystem htip newYear.2 u
  refine ⟨store, receipt, ?_, htame, ?_, hreceipts, hid⟩
  · rw [WatchWorld.run_cons, hturn]
    exact hwrite
  · rw [hconnections]
    exact savedConnections_new hfirst

/-- A toy system is opened. -/
theorem Tame.opens (u : Unicode) : ∃ genesis s,
    createSystem positionCrypto u toyWriter (.fresh toyWriter) toySystem newYear none toyReplies = (s, .ok genesis) ∧
    Tame 1 s ∧ s.db.systems = [⟨toySystem, newYear, none, none, none⟩] ∧ s.db.connections = [] ∧ s.db.adminLog = [] ∧
    s.db.receipts = [receiptRow positionCrypto genesis] ∧ genesis.systemId = toySystem ∧
    s.db.tipRow toySystem ≠ none := by
  obtain ⟨g, s, hcreate, htame, hsystems, hconnections, hlog, hreceipts, hid⟩ :=
    Tame.fresh.create (u := u) (by decide) (.inl rfl) (tipRow_fresh toyWriter toySystem) (fun r hr => nomatch hr) rfl
  refine ⟨g, s, hcreate, htame, hsystems, hconnections, hlog, hreceipts, hid, ?_⟩
  have hmem : receiptRow positionCrypto g ∈ s.db.receipts := by
    rw [hreceipts]
    exact List.mem_append_right _ (List.mem_singleton_self _)
  exact tipRow_of_mem hmem hid

/-- The step that opens it. -/
theorem WatchWorld.step_opens {u : Unicode} {genesis : Receipt} {s : Store}
    (h : createSystem positionCrypto u toyWriter (.fresh toyWriter) toySystem newYear none toyReplies
      = (s, .ok genesis)) :
    (WatchWorld.fresh toyWriter newYear).step positionCrypto u toyWriter toyWatch
      (.store (.createSystem toySystem newYear none toyReplies)) = ⟨⟨s, []⟩, [], dateParse newYear, [], []⟩ :=
  congrArg (fun out : Store × Except StoreError Receipt => (WatchWorld.fresh toyWriter newYear).withStore out.1) h

/-- Two systems, and an agent of each that has just started. -/
def twoAgents (u : Unicode) : WatchWorld :=
  (WatchWorld.fresh toyWriter newYear).run positionCrypto u toyWriter toyWatch
    [.store (.createSystem toySystem newYear none toyReplies), .store (.createSystem otherSystem newYear none toyReplies),
     .heartbeat (startOf toySystem (js "s1")) [] newYear, .write toyAnswering,
     .heartbeat (startOf otherSystem (js "s2")) [] newYear, .write toyAnswering]

/-- **What they leave**: two open sessions, on chains that are there. -/
theorem twoAgents_eq (u : Unicode) : ∃ store a b, twoAgents u = ⟨⟨store, []⟩,
      [(toySystem, [dateParse newYear]), (otherSystem, [dateParse newYear])], dateParse newYear, [],
      [⟨toySystem, js "s1", .start, a⟩, ⟨otherSystem, js "s2", .start, b⟩]⟩ ∧
    Tame 4 store ∧
    store.db.connections = [openSession toySystem (js "s1"), openSession otherSystem (js "s2")] ∧
    store.db.tipRow toySystem ≠ none ∧ store.db.tipRow otherSystem ≠ none := by
  have hapart : toySystem ≠ otherSystem := by decide
  obtain ⟨g₁, s₁, hcreate₁, htame₁, hsystems₁, hconnections₁, hlog₁, hreceipts₁, hid₁, htip₁⟩ := Tame.opens u
  have hother : s₁.db.tipRow otherSystem = none := by
    refine tipRow_eq_none fun row hrow => ?_
    rw [hreceipts₁] at hrow
    rw [List.mem_singleton.mp hrow]
    exact fun heq => hapart (hid₁.symm.trans heq)
  have hnever : s₁.db.deletionOf otherSystem = none := by
    rw [Database.deletionOf, hlog₁]
    rfl
  obtain ⟨g₂, s₂, hcreate₂, htame₂, -, hconnections₂, -, hreceipts₂, hid₂⟩ :=
    htame₁.create (u := u) (by decide) (.inr rfl) hother (fun r hr => by
      rw [hsystems₁] at hr
      rw [List.mem_singleton.mp hr]
      exact hapart) hnever
  have hnone₂ : s₂.db.connections = [] := hconnections₂.trans hconnections₁
  have htip₂ : s₂.db.tipRow toySystem ≠ none := tipRow_append hreceipts₂ htip₁
  have htip₂' : s₂.db.tipRow otherSystem ≠ none := by
    have hmem : receiptRow positionCrypto g₂ ∈ s₂.db.receipts := by
      rw [hreceipts₂]
      exact List.mem_append_right _ (List.mem_singleton_self _)
    exact tipRow_of_mem hmem hid₂
  let w₂ : WatchWorld := ⟨⟨s₂, []⟩, [], dateParse newYear, [], []⟩
  obtain ⟨s₃, a, hrun₃, htame₃, hconnections₃, hreceipts₃, hid₃⟩ : ∃ store receipt, w₂.run positionCrypto u toyWriter
        toyWatch [.heartbeat (startOf toySystem (js "s1")) [] newYear, .write toyAnswering] = _ ∧
      Tame 3 store ∧ _ ∧ _ ∧ _ := Tame.starts htame₂ (by decide) (.inl rfl) htip₂
    (fun r hr => (List.not_mem_nil (hnone₂ ▸ hr)).elim) rfl rfl u (js "s1")
  have hconnections₃ : s₃.db.connections = [openSession toySystem (js "s1")] := by
    rw [hconnections₃]
    show s₂.db.connections ++ _ = _
    rw [hnone₂]
    rfl
  let w₃ : WatchWorld := { w₂.withStore s₃ with
    opened := AssocList.set w₂.opened toySystem [dateParse newYear], job := []
    told := w₂.told ++ [⟨toySystem, js "s1", .start, a⟩] }
  obtain ⟨s₄, b, hrun₄, htame₄, hconnections₄, hreceipts₄, hid₄⟩ : ∃ store receipt, w₃.run positionCrypto u toyWriter
        toyWatch [.heartbeat (startOf otherSystem (js "s2")) [] newYear, .write toyAnswering] = _ ∧
      Tame 4 store ∧ _ ∧ _ ∧ _ := by
    refine Tame.starts htame₃ (by decide) (.inr rfl) (tipRow_append hreceipts₃ htip₂') (fun r hr => ?_) rfl rfl u (js "s2")
    have hr : r ∈ s₃.db.connections := hr
    rw [hconnections₃] at hr
    rw [List.mem_singleton.mp hr]
    exact hapart
  refine ⟨s₄, a, b, ?_, htame₄, ?_, ?_, ?_⟩
  · have hcreated : (WatchWorld.fresh toyWriter newYear).run positionCrypto u toyWriter toyWatch
        [.store (.createSystem toySystem newYear none toyReplies),
          .store (.createSystem otherSystem newYear none toyReplies)] = w₂ := by
      show ((WatchWorld.fresh toyWriter newYear).withStore
        (createSystem positionCrypto u toyWriter (.fresh toyWriter) toySystem newYear none toyReplies).1).withStore
          (createSystem positionCrypto u toyWriter
            (createSystem positionCrypto u toyWriter (.fresh toyWriter) toySystem newYear none toyReplies).1
            otherSystem newYear none toyReplies).1 = w₂
      rw [hcreate₁]
      dsimp only
      rw [hcreate₂]
      rfl
    calc twoAgents u
        = (((WatchWorld.fresh toyWriter newYear).run positionCrypto u toyWriter toyWatch
            [.store (.createSystem toySystem newYear none toyReplies),
              .store (.createSystem otherSystem newYear none toyReplies)]).run positionCrypto u toyWriter toyWatch
            [.heartbeat (startOf toySystem (js "s1")) [] newYear, .write toyAnswering]).run positionCrypto u toyWriter
            toyWatch [.heartbeat (startOf otherSystem (js "s2")) [] newYear, .write toyAnswering] := rfl
      _ = w₃.run positionCrypto u toyWriter toyWatch
            [.heartbeat (startOf otherSystem (js "s2")) [] newYear, .write toyAnswering] := by rw [hcreated, hrun₃]
      _ = _ := hrun₄
  · rw [hconnections₄]
    show s₃.db.connections ++ _ = _
    rw [hconnections₃]
    rfl
  · exact tipRow_append hreceipts₄ (tipRow_append hreceipts₃ htip₂)
  · exact tipRow_append hreceipts₄ (tipRow_append hreceipts₃ htip₂')

/-- Ten minutes later. -/
def tenMinutesOn : Timestamp := ⟨js "2026-01-01T00:10:00.000Z", by decide +kernel⟩

/-- Both agents stop, and the signer has forgotten the chain of the first. -/
theorem twoAgents_sweep (u : Unicode) : ∃ sweep : Sweep toyWatch (twoAgents u),
    sweep.silent = [openSession toySystem (js "s1"), openSession otherSystem (js "s2")] ∧
    sweep.RefusesOf positionCrypto u toyWriter {toySystem} := by
  obtain ⟨store, a, b, hworld, htame, hconnections, htip, htip'⟩ := twoAgents_eq u
  have hstore : (twoAgents u).watch.store = store := by rw [hworld]
  have hsilent : silentPast toyWatch.lostAfterMs tenMinutesOn
      [openSession toySystem (js "s1"), openSession otherSystem (js "s2")]
        = [openSession toySystem (js "s1"), openSession otherSystem (js "s2")] := by decide +kernel
  let sweep : Sweep toyWatch (twoAgents u) :=
    { sessions := [openSession toySystem (js "s1"), openSession otherSystem (js "s2")]
      time := tenMinutesOn
      turns := [([], forgottenAnswering), ([], toyAnswering)]
      idle := by rw [hworld]
      listed := by
        rw [hstore, Database.ListsOpenConnections, hconnections]
        exact List.Perm.refl _
      past := by
        have hsince : (twoAgents u).since = dateParse newYear := by rw [hworld]
        rw [hsince]
        decide +kernel
      turnEach := by rw [hsilent]; rfl }
  -- the first system refuses the loss, the second would take it
  obtain ⟨e, s₁, hrefused, htame₁, -, hreceipts₁⟩ : ∃ e s', (lossOf (openSession toySystem (js "s1"))
        tenMinutesOn).perform positionCrypto u toyWriter store forgottenAnswering = (s', .error e) ∧
      Tame 4 s' ∧ s'.db.connections = store.db.connections ∧ s'.db.receipts = store.db.receipts :=
    htame.forgotten .lost (by decide) (.inl rfl) htip newYear.2 _
  obtain ⟨r, s₂, htaken⟩ : ∃ receipt s', (lossOf (openSession otherSystem (js "s2")) tenMinutesOn).perform
      positionCrypto u toyWriter s₁ toyAnswering = (s', .ok (some receipt)) := by
    obtain ⟨receipt, s', htaken, -⟩ := htame₁.record (by decide) (.inr rfl)
      (tipRow_append (hreceipts₁.trans (List.append_nil _).symm) htip') newYear.2 []
      (lossOf (openSession otherSystem (js "s2")) tenMinutesOn).row
    exact ⟨receipt, s', htaken⟩
  have hrefusals : refusals positionCrypto u toyWriter (twoAgents u).watch.store sweep.writes = [true, false] := by
    have hwrites : sweep.writes = [(lossOf (openSession toySystem (js "s1")) tenMinutesOn, [], forgottenAnswering),
        (lossOf (openSession otherSystem (js "s2")) tenMinutesOn, [], toyAnswering)] := by
      rw [Sweep.writes, Sweep.silent]
      show List.zip (List.map _ (silentPast toyWatch.lostAfterMs tenMinutesOn _)) _ = _
      rw [hsilent]
      rfl
    rw [hstore, hwrites]
    rw [refusals_cons, run_nil, hrefused, refusals_cons, run_nil, htaken]
    rfl
  refine ⟨sweep, hsilent, fun i session hi => ?_⟩
  have hi : [openSession toySystem (js "s1"), openSession otherSystem (js "s2")][i]? = some session := hsilent ▸ hi
  rw [hrefusals]
  match i with
  | 0 =>
      obtain rfl := Option.some.inj hi
      exact iff_of_true rfl rfl
  | 1 =>
      obtain rfl := Option.some.inj hi
      exact iff_of_false (by decide) (by decide)
  | i + 2 => cases hi

/-- **A healthy system goes unheard**: its agent is silent and its chain takes receipts, but the sweep ends at
    the system before it. -/
theorem healthy_system_unheard : ∃ sweep : Sweep toyWatch (twoAgents ⟨id, id, id⟩),
    sweep.RefusesOf positionCrypto ⟨id, id, id⟩ toyWriter {toySystem} ∧
    ¬ sweep.Independent positionCrypto ⟨id, id, id⟩ toyWriter {toySystem} := by
  obtain ⟨sweep, hsilent, hrefuses⟩ := twoAgents_sweep ⟨id, id, id⟩
  refine ⟨sweep, hrefuses, fun hindependent => ?_⟩
  have hfirst : sweep.silent[0]? = some (openSession toySystem (js "s1")) := by rw [hsilent]; rfl
  have hsecond : sweep.silent[1]? = some (openSession otherSystem (js "s2")) := by rw [hsilent]; rfl
  have hapart : otherSystem ∉ ({toySystem} : Set SystemId) := by decide
  have hlt := (sweep.lossWritten_iff hsecond).mp (hindependent 1 _ hsecond hapart)
  have hrefused := (hrefuses 0 _ hfirst).mpr rfl
  have hlong := Nat.lt_of_lt_of_le hlt (List.takeWhile_sublist _).length_le
  rw [(lt_takeWhile_iff hlong).mp hlt 0 (Nat.zero_le 1)] at hrefused
  cases hrefused

theorem sweep_independent_iff_two : ∃ sweep : Sweep toyWatch (twoAgents ⟨id, id, id⟩),
    sweep.RefusesOf positionCrypto ⟨id, id, id⟩ toyWriter {toySystem} ∧
    (sweep.Independent positionCrypto ⟨id, id, id⟩ toyWriter {toySystem} ↔ sweep.HealthyFirst {toySystem}) := by
  obtain ⟨sweep, -, hrefuses⟩ := twoAgents_sweep ⟨id, id, id⟩
  exact ⟨sweep, hrefuses, sweep.sweep_independent_iff hrefuses⟩

end Sigillo
