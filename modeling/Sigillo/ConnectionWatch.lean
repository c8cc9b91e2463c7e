import Sigillo.RefusedBatches
import Sigillo.KeptRows

/-!
# Gaps in a connection

The guard process beside an agent sees the computer sleep or its network cut, and tells the server once it
is over; the server writes a receipt of each, for a session that is not closed, so many an hour. Two gaps
that look alike are told apart by the order they were seen in: of this number the program knows nothing. -/

namespace Sigillo

open DoubleArith Utf16Text JsonText JsonSchema HexBase64 IsoTime Fallible

-- ── The guard ────────────────────────────────────────────────────────────────────

/-- Why nothing was heard. -/
inductive GapKind where
  | sleep | offline
deriving DecidableEq

/-- A stretch of time the guard reports after the fact. -/
structure Gap where
  kind : GapKind
  fromTime : Timestamp
  number : ℕ
deriving DecidableEq

/-- What the guard saw of the computer between two looks, and what is still to be told. -/
structure Gaps where
  period : ℚ
  lastTick : ℚ
  lastOk : ℚ
  downSince : Option ℚ
  pending : List Gap
  seen : ℕ

/-- A network cut shorter than this is not worth a receipt. -/
def OFFLINE_MIN_SECONDS : ℚ := 120

namespace Gaps

/-- `Gaps(now, period)`. -/
def start (now period : ℚ) : Gaps := ⟨period, now, now, none, [], 0⟩

variable (iso : ℚ → Timestamp) (g : Gaps)

/-- A gap is noted. -/
def note (kind : GapKind) (since : ℚ) : Gaps :=
  { g with pending := g.pending ++ [⟨kind, iso since, g.seen⟩], seen := g.seen + 1 }

/-- **`tick`**: the guard did not run for far longer than its period, so the computer slept. -/
def tick (now : ℚ) : Gaps :=
  if 3 * g.period + 15 < now - g.lastTick then
    -- an attempt that failed while asleep proves nothing
    { g.note iso .sleep g.lastTick with downSince := none, lastOk := now, lastTick := now }
  else { g with lastTick := now }

/-- **`reached`**: after each attempt to reach the server. -/
def reached (now : ℚ) (ok : Bool) : Gaps :=
  if ok then
    let noted := match g.downSince with
      | none => g
      | some since => if OFFLINE_MIN_SECONDS ≤ now - since then g.note iso .offline since else g
    { noted with downSince := none, lastOk := now }
  else { g with downSince := some (g.downSince.getD g.lastOk) }

end Gaps

-- ── The server ───────────────────────────────────────────────────────────────────

/-- How many gaps one session may report an hour. -/
def MAX_GAPS_PER_HOUR : ℕ := 24

/-- An hour. -/
def HOUR_MS : ℤ := 60 * 60000

/-- The store, and when each session reported its gaps of the last hour: in memory only. -/
structure Watch where
  store : Store
  gaps : List (JsString × List ℤ)

/-- The action a gap is recorded as. -/
def GapKind.receiptName : GapKind → JsString
  | .sleep => CONNECTION_PREFIX ++ js "sleep"
  | .offline => CONNECTION_PREFIX ++ js "offline"

/-- The outcome it is recorded with. -/
def GapKind.outcome : GapKind → Outcome
  | .sleep => .ok
  | .offline => .error

/-- `receiptOf`, as the watch writes what an SDK told it. -/
def connectionEvent (systemId : SystemId) (name tsEvent : JsString) (tsReceived : Timestamp) (outcome : Outcome) :
    ChainEvent where
  systemId
  tsEvent
  tsReceived
  actor := ⟨js "sigillo", none⟩
  action := ⟨.agentStep, name⟩
  inputHash := none
  outputHash := none
  rawInput := none
  rawOutput := none
  inputNonce := none
  outputNonce := none
  outcome
  source := ⟨.sdk, none, none⟩
  artifacts := none
  model := none

/-- One heartbeat session, if it ever started. -/
def Database.connection (db : Database) (systemId : SystemId) (sessionId : JsString) : Option ConnectionRow :=
  db.connections.find? fun r => r.systemId == systemId && r.sessionId == sessionId

/-- The gaps a session reported in the hour before. -/
def Watch.recent (w : Watch) (sessionId : JsString) (now : ℤ) : List ℤ :=
  ((w.gaps.lookup sessionId).getD []).filter fun time => decide (now - time < HOUR_MS)

/-- What a gap becomes: never earlier than the session began, never later than now. -/
def gapEvent (systemId : SystemId) (known : ConnectionRow) (time : Timestamp) (gap : Gap) : ChainEvent :=
  connectionEvent systemId gap.kind.receiptName
    (isoText (min (dateParse time) (max (dateParse gap.fromTime) (dateParse known.startedAt)))) time gap.kind.outcome

/-- What the server draws and is answered, and its clock, as it serves one post. -/
structure Serving where
  time : Timestamp
  seen : List SubjectRow
  checked : Randomness
  replies : SignerReplies

variable (c : Crypto) (u : Unicode) (key : WriterKey)

/-- **`ConnectionWatch.gap`**: written for an open or lost session, at most so many an hour. -/
def Watch.gap (w : Watch) (systemId : SystemId) (known : Option ConnectionRow) (gap : Gap) (serving : Serving) :
    Watch × Except StoreError (Option Receipt) :=
  match known with
  | none => (w, .ok none)
  | some known =>
      if known.state = .closed then (w, .ok none)
      else
        let now := dateParse serving.time
        let recent := w.recent known.sessionId now
        if MAX_GAPS_PER_HOUR ≤ recent.length then (w, .ok none)
        else
          let (store, result) := recordConnection c u key w.store serving.seen known
            (some (gapEvent systemId known serving.time gap, serving.checked, serving.replies))
          (⟨store, AssocList.set w.gaps known.sessionId (recent ++ [now])⟩, result)

/-- **The heartbeat route for a gap**, once the key is accepted and writes are not paused: whatever comes of
    it, the guard is answered. -/
def Watch.heartbeat (w : Watch) (systemId : SystemId) (sessionId : JsString) (admitted : Bool) (gap : Gap)
    (serving : Serving) : Watch × Option Receipt :=
  if admitted then
    let (w, result) := w.gap c u key systemId (w.store.db.connection systemId sessionId) gap serving
    (w, result.toOption.join)
  else (w, none)

-- ── What the server writes of a gap ──────────────────────────────────────────────

variable {c u key} {s s' : Store} {event : ChainEvent}

/-- An event that names no span is no duplicate. -/
theorem duplicateRow_of_no_span (h : event.source.traceId = none) (db : Database) :
    duplicateRow db event .continuation = none := by
  unfold duplicateRow
  rw [h]

/-- An attempt of a connection's receipt that succeeds writes it. -/
theorem attemptReceipt_saved (hspan : event.source.traceId = none) {row : ConnectionRow} {attempt : Attempt}
    {r : Receipt} (h : attemptReceipt c u key s event .continuation (fun db => .ok (saveConnection row db)) attempt
      = (s', .ok r)) :
    ∃ prepared db, Writes c u key s.db event .continuation attempt prepared r db ∧
      s'.db = saveConnection row db ∧ s'.history = s.history ++ [.wrote event prepared r] := by
  rw [attemptReceipt] at h
  cases hresult : insertReceipt c u key s.db event .continuation attempt with
  | error e =>
      rw [hresult] at h
      cases (Prod.mk.inj h).2
  | ok out =>
      obtain ⟨db, written⟩ := out
      rw [hresult] at h
      obtain ⟨hs', hr⟩ := Prod.mk.inj h
      obtain rfl := Except.ok.inj hr
      cases written with
      | duplicate receipt =>
          obtain ⟨-, row, hrow, -⟩ := insertReceipt_duplicate hresult
          rw [duplicateRow_of_no_span hspan] at hrow
          cases hrow
      | new prepared receipt =>
          refine ⟨prepared, db, insertReceipt_new hresult, ?_, ?_⟩
          · rw [← hs']
          · rw [← hs']
            rfl

/-- Saving a session leaves the receipts alone. -/
theorem receipts_saveConnection (row : ConnectionRow) (db : Database) :
    (saveConnection row db).receipts = db.receipts := (beside_saveConnection row db).receipts

/-- **A receipt of a connection says what was to be written**, and is on the chain. -/
theorem writeReceipt_saved (hspan : event.source.traceId = none) {row : ConnectionRow} {replies : SignerReplies}
    {r : Receipt} (h : writeReceipt c u key s event .continuation (fun db => .ok (saveConnection row db)) replies
      = (s', .ok r)) :
    Says c event r.toUnsignedReceipt ∧ receiptRow c r ∈ s'.db.receipts ∧
      ∃ prepared, .wrote event prepared r ∈ s'.history := by
  have hattempt : ∀ {s₁ : Store} {attempt : Attempt}, attemptReceipt c u key s₁ event .continuation
      (fun db => .ok (saveConnection row db)) attempt = (s', .ok r) →
      Says c event r.toUnsignedReceipt ∧ receiptRow c r ∈ s'.db.receipts ∧
        ∃ prepared, .wrote event prepared r ∈ s'.history := by
    intro s₁ attempt h
    obtain ⟨prepared, db, hwrites, hdb, hhistory⟩ := attemptReceipt_saved hspan h
    refine ⟨hwrites.said, ?_, prepared, ?_⟩
    · rw [hdb, receipts_saveConnection]
      exact hwrites.mem_receipts
    · rw [hhistory]
      exact List.mem_append_right _ (List.mem_singleton_self _)
  rw [writeReceipt] at h
  split at h
  · split at h
    · cases (Prod.mk.inj h).2
    · exact hattempt h
    · cases (Prod.mk.inj h).2
    · cases (Prod.mk.inj h).2
  · exact hattempt h

/-- **The signer signs a receipt**: at once, or once the chain took back what it was missing. -/
def SignsEvent (c : Crypto) (u : Unicode) (key : WriterKey) (s : Store) (event : ChainEvent) (replies : SignerReplies) :
    Prop :=
  (∃ prepared receipt db, Writes c u key s.db event .continuation replies.first prepared receipt db) ∨
    ∃ s₂ seq hash count, Compared c u key s event replies (s₂, .ok (.recovered seq hash count)) ∧
      ∃ prepared receipt db, Writes c u key s₂.db event .continuation replies.again prepared receipt db

theorem attemptReceipt_of_writes (hs : Whole c s.db) {row : ConnectionRow} {attempt : Attempt} {prepared : Prepared}
    {receipt : Receipt} {db : Database} (h : Writes c u key s.db event .continuation attempt prepared receipt db) :
    attemptReceipt c u key s event .continuation (fun db => .ok (saveConnection row db)) attempt =
      ({ s with db := saveConnection row db, history := s.history ++ [.wrote event prepared receipt] },
        .ok receipt) := by
  rw [attemptReceipt, insertReceipt_of_writes h (hs.no_openings h.noClash)]
  rfl

/-- **What the signer signs is written.** -/
theorem SignsEvent.written (hs : Whole c s.db) {row : ConnectionRow} {replies : SignerReplies}
    (h : SignsEvent c u key s event replies) : ∃ s' r,
    writeReceipt c u key s event .continuation (fun db => .ok (saveConnection row db)) replies = (s', .ok r) := by
  rcases h with ⟨prepared, receipt, db, hwrites⟩ | ⟨s₂, seq, hash, count, hcompared, prepared, receipt, db, hwrites⟩
  · rw [writeReceipt, attemptReceipt_of_writes hs hwrites]
    exact ⟨_, _, rfl⟩
  · obtain ⟨⟨unsigned, db₁, prepared₁, hdraft⟩, ⟨message, hreply⟩, hview⟩ := hcompared
    have hinsert : insertReceipt c u key s.db event .continuation replies.first
        = .error (.signerRefused .sequence message) :=
      bind_eq_error.mpr (.inr ⟨_, hdraft, bind_eq_error.mpr (.inl hreply)⟩)
    have hfirst : attemptReceipt c u key s event .continuation (fun db => .ok (saveConnection row db)) replies.first
        = (s, .error (.signerRefused .sequence message)) := by
      rw [attemptReceipt, hinsert]
      rfl
    obtain ⟨hwhole, -⟩ := exists_new_of_recovered hview hs
    rw [writeReceipt, hfirst]
    simp only [hview, attemptReceipt_of_writes hwhole hwrites]
    exact ⟨_, _, rfl⟩

/-- **A gap that is written**: a receipt of the session's system, named after what was seen. -/
structure Watch.Wrote (c : Crypto) (w : Watch) (systemId : SystemId) (gap : Gap) (r : Receipt) : Prop where
  systemId_eq : r.systemId = systemId
  name : r.action.input.name = gap.kind.receiptName
  onChain : receiptRow c r ∈ w.store.db.receipts ∨ .deletedChain systemId ∈ w.store.history
  happened : ∃ event prepared, .wrote event prepared r ∈ w.store.history

/-- What was written stays written. -/
theorem Watch.Wrote.kept {w w' : Watch} {systemId : SystemId} {gap : Gap} {r : Receipt} {allowed : Kind → Prop}
    (h : w.Wrote c systemId gap r) (hcommits : Commits c u key allowed w.store w'.store) :
    w'.Wrote c systemId gap r where
  systemId_eq := h.systemId_eq
  name := h.name
  onChain := by
    have hkept : receiptRow c r ∈ w.store.db.receipts ∨ .deletedChain (receiptRow c r).systemId ∈ w.store.history →
        receiptRow c r ∈ w'.store.db.receipts ∨ .deletedChain (receiptRow c r).systemId ∈ w'.store.history :=
      row_kept hcommits
    rw [show (receiptRow c r).systemId = systemId from h.systemId_eq] at hkept
    exact hkept h.onChain
  happened := by
    obtain ⟨event, prepared, hwrote⟩ := h.happened
    exact ⟨event, prepared, history_subset hcommits hwrote⟩

/-- **A gap is due a receipt**: its session is not closed, and reported fewer gaps than an hour allows. -/
structure Watch.Due (c : Crypto) (u : Unicode) (key : WriterKey) (w : Watch) (systemId : SystemId)
    (sessionId : JsString) (gap : Gap) (serving : Serving) (known : ConnectionRow) : Prop where
  known_eq : w.store.db.connection systemId sessionId = some known
  notClosed : known.state ≠ .closed
  allowance : (w.recent known.sessionId (dateParse serving.time)).length < MAX_GAPS_PER_HOUR
  inOrder : refusedBefore c u key serving.seen (gapEvent systemId known serving.time gap) serving.checked = none

/-- **What it takes for a gap to be written**: it is due a receipt, and the signer signs. -/
structure Watch.Writes (c : Crypto) (u : Unicode) (key : WriterKey) (w : Watch) (systemId : SystemId)
    (sessionId : JsString) (gap : Gap) (serving : Serving) (known : ConnectionRow) : Prop
    extends Watch.Due c u key w systemId sessionId gap serving known where
  signs : SignsEvent c u key w.store (gapEvent systemId known serving.time gap) serving.replies

theorem gapEvent_named (systemId : SystemId) (known : ConnectionRow) (time : Timestamp) (gap : Gap) :
    CONNECTION_PREFIX <+: (gapEvent systemId known time gap).action.name := by
  show CONNECTION_PREFIX <+: gap.kind.receiptName
  cases gap.kind with
  | sleep => exact List.prefix_append _ _
  | offline => exact List.prefix_append _ _

/-- **A gap is written where nothing stands against it.** -/
theorem Watch.Writes.written {w : Watch} {systemId : SystemId} {sessionId : JsString} {gap : Gap} {serving : Serving}
    {known : ConnectionRow} (hs : Whole c w.store.db)
    (h : w.Writes c u key systemId sessionId gap serving known) :
    ∃ r, (w.heartbeat c u key systemId sessionId true gap serving).2 = some r := by
  obtain ⟨s', r, hwrite⟩ : ∃ s' r, writeReceipt c u key w.store (gapEvent systemId known serving.time gap)
      .continuation (fun db => .ok (saveConnection known db)) serving.replies = (s', .ok r) := h.signs.written hs
  refine ⟨r, ?_⟩
  have hrecord : recordConnection c u key w.store serving.seen known
      (some (gapEvent systemId known serving.time gap, serving.checked, serving.replies)) = (s', .ok (some r)) := by
    rw [recordConnection, if_neg (not_not.mpr (gapEvent_named systemId known serving.time gap)), h.inOrder, hwrite]
  rw [heartbeat, if_pos rfl, h.known_eq, Watch.gap]
  dsimp only
  rw [if_neg h.notClosed, if_neg (not_le.mpr h.allowance), hrecord]
  rfl

/-- **A gap that is not due a receipt gets none.** -/
theorem Watch.heartbeat_not_due {w : Watch} {systemId : SystemId} {sessionId : JsString} {gap : Gap}
    {serving : Serving} (h : ¬ ∃ known, w.Due c u key systemId sessionId gap serving known) :
    (w.heartbeat c u key systemId sessionId true gap serving).2 = none := by
  rw [heartbeat, if_pos rfl]
  unfold Watch.gap
  cases hknown : w.store.db.connection systemId sessionId with
  | none => rfl
  | some known =>
      dsimp only
      by_cases hclosed : known.state = .closed
      · rw [if_pos hclosed]
        rfl
      · rw [if_neg hclosed]
        by_cases hfull : MAX_GAPS_PER_HOUR ≤ (w.recent known.sessionId (dateParse serving.time)).length
        · rw [if_pos hfull]
          rfl
        · rw [if_neg hfull, recordConnection, if_neg (not_not.mpr (gapEvent_named systemId known serving.time gap))]
          cases hbefore : refusedBefore c u key serving.seen (gapEvent systemId known serving.time gap)
              serving.checked with
          | some e => rfl
          | none => exact absurd ⟨known, hknown, hclosed, not_le.mp hfull, hbefore⟩ h

/-- **What the server does for a gap**: its transactions, and at most one receipt of it. -/
theorem Watch.heartbeat_commits (key : WriterKey) {w : Watch} (systemId : SystemId) (sessionId : JsString)
    (admitted : Bool) (gap : Gap) (serving : Serving) :
    Commits c u key Kind.IsOrdinary w.store (w.heartbeat c u key systemId sessionId admitted gap serving).1.store ∧
      ∀ r, (w.heartbeat c u key systemId sessionId admitted gap serving).2 = some r →
        (w.heartbeat c u key systemId sessionId admitted gap serving).1.Wrote c systemId gap r := by
  rw [heartbeat]
  cases admitted with
  | false => exact ⟨.refl, fun r hr => by cases hr⟩
  | true =>
      rw [if_pos rfl]
      unfold Watch.gap
      cases w.store.db.connection systemId sessionId with
      | none => exact ⟨.refl, fun r hr => by cases hr⟩
      | some known =>
          dsimp only
          by_cases hclosed : known.state = .closed
          · rw [if_pos hclosed]
            exact ⟨.refl, fun r hr => by cases hr⟩
          · rw [if_neg hclosed]
            by_cases hfull : MAX_GAPS_PER_HOUR ≤ (w.recent known.sessionId (dateParse serving.time)).length
            · rw [if_pos hfull]
              exact ⟨.refl, fun r hr => by cases hr⟩
            · rw [if_neg hfull]
              have hcommits : Commits c u key Kind.IsOrdinary w.store (recordConnection c u key w.store serving.seen
                  known (some (gapEvent systemId known serving.time gap, serving.checked, serving.replies))).1 :=
                recordConnection_commits w.store serving.seen known _
              cases hrecord : recordConnection c u key w.store serving.seen known
                  (some (gapEvent systemId known serving.time gap, serving.checked, serving.replies)) with
              | mk store result =>
                  rw [hrecord] at hcommits
                  refine ⟨hcommits, fun r hr => ?_⟩
                  cases result with
                  | error e => cases hr
                  | ok written =>
                      obtain rfl : written = some r := hr
                      rw [recordConnection, if_neg (not_not.mpr (gapEvent_named systemId known serving.time gap))]
                        at hrecord
                      split at hrecord
                      · cases (Prod.mk.inj hrecord).2
                      · cases hwrite : writeReceipt c u key w.store (gapEvent systemId known serving.time gap)
                            .continuation (fun db => .ok (saveConnection known db)) serving.replies with
                        | mk store' answer =>
                            rw [hwrite] at hrecord
                            cases answer with
                            | error e => cases (Prod.mk.inj hrecord).2
                            | ok receipt =>
                                obtain ⟨rfl, hsame⟩ := Prod.mk.inj hrecord
                                obtain rfl := Option.some.inj (Except.ok.inj hsame)
                                obtain ⟨hsaid, hrow, prepared, hwrote⟩ := writeReceipt_saved rfl hwrite
                                exact ⟨hsaid.systemId, congrArg ActionInput.name hsaid.action, .inl hrow,
                                  _, prepared, hwrote⟩

end Sigillo
