import Sigillo.RecordedChanges

/-!
# The protocol of a session

A session starts, is lost and restored any number of times, and is stopped. The receipts on the chains keep
to that in every run in which no session is stopped that the watch never heard of, none that was stopped is
heard from again, and no change comes back from the signer (**`session_protocol`**). In the first two cases
the watch writes a stop without a start (**`stop_without_start`**), and the restoration of a session that was
not lost. -/

namespace Sigillo

open DoubleArith Utf16Text JsonText JsonSchema HexBase64 IsoTime Fallible

variable {c : Crypto} {u : Unicode} {key : WriterKey} {options : ConnectionWatchOptions}

-- ── The protocol ─────────────────────────────────────────────────────────────────

/-- A change that connects a session or disconnects it. -/
def Change.isMove : Change → Bool
  | .start | .stop | .lost | .ended | .restored => true
  | _ => false

/-- The last time a session was connected or disconnected. -/
def lastMove (changes : List Change) : Option Change := (changes.filter Change.isMove).getLast?

/-- **What may be written of a session** after what was written before. -/
def MayFollow (before : List Change) : Change → Prop
  | .start => before = []
  | .lost | .ended => lastMove before = some .start ∨ lastMove before = some .restored
  | .restored => lastMove before = some .lost ∨ lastMove before = some .ended
  | .stop => ∃ move, lastMove before = some move ∧ move ≠ .stop
  | _ => before ≠ []

/-- **The protocol**: a start first and once, a loss of an open session only, a restoration of a lost one only,
    and one stop, after which there is neither. -/
def IsProtocol (changes : List Change) : Prop :=
  ∀ before change after, changes = before ++ change :: after → MayFollow before change

theorem lastMove_append (before : List Change) (change : Change) :
    lastMove (before ++ [change]) = if change.isMove then some change else lastMove before := by
  rw [lastMove, List.filter_append]
  cases hmove : change.isMove with
  | true =>
      rw [List.filter_cons_of_pos hmove, if_pos rfl]
      exact List.getLast?_concat ..
  | false =>
      rw [List.filter_cons_of_neg (by rw [hmove]; exact Bool.false_ne_true), if_neg Bool.false_ne_true]
      rw [List.filter_nil, List.append_nil]
      rfl

/-- **A session is in the state its last move left it in**, as long as the protocol is kept. -/
theorem stateAfter_lastMove {changes : List Change} (h : Obeys Change.leaves Change.Documented none changes) :
    stateAfter changes = (lastMove changes).bind (Change.leaves none) := by
  induction changes using List.reverseRecOn with
  | nil => rfl
  | append_singleton before change ih =>
      obtain ⟨hbefore, hrule, -⟩ := obeys_append.mp h
      have hrule : change.Documented (stateAfter before) := hrule
      rw [WatchWorld.stateAfter_append, lastMove_append]
      have hsame : stateAfter before = (lastMove before).bind (Change.leaves none) := ih hbefore
      cases change with
      | scriptChanged => exact (hrule.symm.trans hsame)
      | powerOff => exact (hrule.symm.trans hsame)
      | sleep => exact hsame
      | offline => exact hsame
      | _ => rfl

/-- A session that anything was written of has started. -/
theorem eq_nil_of_stateAfter {changes : List Change} (h : Obeys Change.leaves Change.Moves none changes)
    (hnone : stateAfter changes = none) : changes = [] := by
  rcases List.eq_nil_or_concat changes with hnil | ⟨before, change, rfl⟩
  · exact hnil
  · exfalso
    obtain ⟨-, hrule, -⟩ := obeys_append.mp (List.concat_eq_append ▸ h)
    have hrule : change.Moves (stateAfter before) := hrule
    rw [List.concat_eq_append, WatchWorld.stateAfter_append] at hnone
    cases change with
    | sleep =>
        have hnone : stateAfter before = none := hnone
        rcases hrule with hopen | hlost
        · rw [hnone] at hopen
          cases hopen
        · rw [hnone] at hlost
          cases hlost
    | offline =>
        have hnone : stateAfter before = none := hnone
        rcases hrule with hopen | hlost
        · rw [hnone] at hopen
          cases hopen
        · rw [hnone] at hlost
          cases hlost
    | _ => cases hnone

/-- The moves that leave a session in a state. -/
theorem moves_of_state {move : Option Change} {state : ConnectionState}
    (h : move.bind (Change.leaves none) = some state) : ∃ m, move = some m ∧ m.leaves none = some state :=
  Option.bind_eq_some_iff.mp h

theorem lastMove_isMove {changes : List Change} {move : Change} (h : lastMove changes = some move) :
    move.isMove = true := (List.mem_filter.mp (List.mem_of_getLast? h)).2

/-- **Changes in order by their states keep the protocol.** -/
theorem isProtocol_of_obeys {changes : List Change} (h : Obeys Change.leaves Change.Documented none changes) :
    IsProtocol changes := by
  rintro before change after rfl
  obtain ⟨hbefore, -⟩ := obeys_append.mp h
  have hrule : change.Documented (stateAfter before) := h.at
  have hmoved : ∀ {state : ConnectionState}, stateAfter before = some state →
      ∃ move, lastMove before = some move ∧ move.isMove = true ∧ move.leaves none = some state := by
    intro state hstate
    rw [stateAfter_lastMove hbefore] at hstate
    obtain ⟨move, hmove, hleaves⟩ := moves_of_state hstate
    exact ⟨move, hmove, lastMove_isMove hmove, hleaves⟩
  have hopen : stateAfter before = some .«open» → lastMove before = some .start ∨ lastMove before = some .restored := by
    intro hstate
    obtain ⟨move, hmove, hismove, hleaves⟩ := hmoved hstate
    cases move with
    | start => exact .inl hmove
    | restored => exact .inr hmove
    | stop => cases hleaves
    | lost => cases hleaves
    | ended => cases hleaves
    | _ => cases hismove
  have hlost : stateAfter before = some .lost → lastMove before = some .lost ∨ lastMove before = some .ended := by
    intro hstate
    obtain ⟨move, hmove, hismove, hleaves⟩ := hmoved hstate
    cases move with
    | lost => exact .inl hmove
    | ended => exact .inr hmove
    | start => cases hleaves
    | restored => cases hleaves
    | stop => cases hleaves
    | _ => cases hismove
  have hstarted : stateAfter before ≠ none → before ≠ [] := by
    rintro hstate rfl
    exact hstate rfl
  cases change with
  | start => exact eq_nil_of_stateAfter (hbefore.mono fun _ _ => Change.Documented.moves) hrule
  | lost => exact hopen hrule
  | ended => exact hopen hrule
  | restored => exact hlost hrule
  | stop =>
      rcases hrule with hstate | hstate
      · rcases hopen hstate with hmove | hmove
        · exact ⟨_, hmove, fun h => nomatch h⟩
        · exact ⟨_, hmove, fun h => nomatch h⟩
      · rcases hlost hstate with hmove | hmove
        · exact ⟨_, hmove, fun h => nomatch h⟩
        · exact ⟨_, hmove, fun h => nomatch h⟩
  | scriptChanged =>
      refine hstarted fun hnone => ?_
      rw [hnone] at hrule
      cases hrule
  | powerOff =>
      refine hstarted fun hnone => ?_
      rw [hnone] at hrule
      cases hrule
  | sleep =>
      refine hstarted fun hnone => ?_
      rw [hnone] at hrule
      rcases hrule with h | h <;> cases h
  | offline =>
      refine hstarted fun hnone => ?_
      rw [hnone] at hrule
      rcases hrule with h | h <;> cases h

-- ── Runs that keep it ────────────────────────────────────────────────────────────

/-- A heartbeat the protocol does not have: the stop of a session never heard of, and the start or beat of one
    that was stopped. -/
def HeartbeatEvent.IsStray : HeartbeatEvent → Option ConnectionState → Prop
  | .stop, none => True
  | .start, some .closed => True
  | .beat, some .closed => True
  | _, _ => False

/-- **A step of the protocol**: none of its heartbeats is stray, unless the system may open no session now, and
    no change comes back from the signer. -/
structure Orderly (c : Crypto) (options : ConnectionWatchOptions) (w : WatchWorld) (x : WatchStep) : Prop where
  strays : ∀ hb sessions time, x = .heartbeat hb sessions time → w.Admits options hb time →
    ¬ hb.event.IsStray (stateOf w.watch.store.db.connections hb.session)
  others : ∀ op, x = .store op → op.IsOther
  brings : w.BringsNone c x

/-- **A chain that keeps the protocol**: its receipts of connections are those the watch wrote, each once and in
    their order, and those of every session are named as changes that keep it. -/
structure WatchWorld.KeepsProtocol (c : Crypto) (w : WatchWorld) (systemId : SystemId) : Prop where
  chain : w.watch.store.db.receiptsOf systemId ReceiptRow.isConnections = w.receiptsTold c systemId
  protocol : ∀ sessionId, ∃ changes, (w.sessionRows c (systemId, sessionId)).map ReceiptRow.change = changes.map some ∧
    IsProtocol changes

theorem permits_documented : Permits Change.Documented := by
  intro before change hmoves hstop hrestored
  cases change with
  | stop => exact absurd rfl hstop
  | restored => exact absurd rfl hrestored
  | _ => exact hmoves

theorem allows_of_orderly {w : WatchWorld} {x : WatchStep} (h : Orderly c options w x) :
    w.Allows options Change.Documented x := by
  cases x with
  | heartbeat hb sessions time =>
      intro hadmits
      have hstray := h.strays hb sessions time rfl hadmits
      generalize stateOf w.watch.store.db.connections hb.session = known at hstray ⊢
      refine ⟨fun hevent hmoves => ?_, fun hevent state hknown hopen => ?_⟩
      · rw [hevent] at hstray
        cases known with
        | none => exact absurd trivial hstray
        | some state =>
            cases state with
            | «open» => exact .inl rfl
            | lost => exact .inr rfl
            | closed => exact absurd rfl hmoves
      · subst hknown
        cases state with
        | «open» => exact absurd rfl hopen
        | lost => rfl
        | closed =>
            rcases hevent with hevent | hevent
            · rw [hevent] at hstray
              exact absurd trivial hstray
            · rw [hevent] at hstray
              exact absurd trivial hstray
  | store op => exact h.others op rfl
  | sweep sessions time => trivial
  | write a => trivial
  | restart time => trivial

/-- What was told of the sessions by their states is a protocol, on every chain that is there. -/
theorem WatchWorld.Recorded.protocol {w : WatchWorld} (h : w.Recorded c Change.Documented) :
    (∀ session, IsProtocol (w.changesOf session)) ∧ ∀ systemId, ¬ w.Deleted systemId → w.KeepsProtocol c systemId :=
  ⟨fun session => isProtocol_of_obeys (h.consistent.obeys session), fun systemId hlive => ⟨h.chain systemId hlive,
    fun sessionId => ⟨_, h.changes (systemId, sessionId), isProtocol_of_obeys (h.consistent.obeys _)⟩⟩⟩

/-- **A run of orderly steps** leaves on the chains what it wrote. -/
theorem recorded_of_orderly (time : Timestamp) {steps : List WatchStep}
    (h : WatchWorld.Meets c u key options (Orderly c options) (.fresh key time) steps) :
    ((WatchWorld.fresh key time).run c u key options steps).Recorded c Change.Documented :=
  h.run_keeps (fun _ _ hw hx => WatchWorld.recorded_step permits_documented hw (allows_of_orderly hx) hx.brings)
    (WatchWorld.recorded_fresh key time)

/-- **In every run of orderly steps the receipts of every session keep the protocol**, whatever else is done,
    fails or is deleted, and the chains that are there hold just these. -/
theorem session_protocol (c : Crypto) (u : Unicode) (key : WriterKey) (options : ConnectionWatchOptions)
    (time : Timestamp) {steps : List WatchStep}
    (h : WatchWorld.Meets c u key options (Orderly c options) (.fresh key time) steps) :
    (∀ session, IsProtocol (((WatchWorld.fresh key time).run c u key options steps).changesOf session)) ∧
    ∀ systemId, ¬ ((WatchWorld.fresh key time).run c u key options steps).Deleted systemId →
      ((WatchWorld.fresh key time).run c u key options steps).KeepsProtocol c systemId := by
  have hrecorded : WatchWorld.Recorded c Change.Documented ((WatchWorld.fresh key time).run c u key options steps) :=
    recorded_of_orderly time h
  exact hrecorded.protocol

-- ── Two sessions ─────────────────────────────────────────────────────────────────

theorem permits_moves : Permits Change.Moves := fun _ _ h _ _ => h

/-- Every heartbeat is allowed by what it finds. -/
theorem allowed_moves (hb : Heartbeat) (known : Option ConnectionState) : hb.Allowed Change.Moves known := by
  refine ⟨fun _ h => h, fun _ state hknown hopen => ?_⟩
  cases state with
  | «open» => exact absurd rfl hopen
  | lost => exact .inl rfl
  | closed => exact .inr rfl

/-- A toy signer that answers shows no receipt, whoever asks. -/
theorem toyReplies_lists (r : Receipt) : ¬ toyReplies.view.Lists r := by
  rintro (hhead | ⟨page, start, receipts, hpage, -⟩)
  · cases hhead
  · cases hpage

/-- A step in which at most a toy signer is asked. -/
theorem brings_toyReplies {w : WatchWorld} {x : WatchStep} (h : ∀ view ∈ x.views, view = toyReplies.view) :
    w.BringsNone c x := .of_views fun view hview r => by
  rw [h view hview]
  exact toyReplies_lists r

/-- The heartbeat by which a toy session ends, and what is to be written of it. -/
def stopOf (sessionId : JsString) : Heartbeat := ⟨toySystem, sessionId, .stop, none, none⟩

/-- A stop of a session. -/
def stopWrite (known : Option ConnectionRow) (sessionId : JsString) : SessionWrite :=
  (stopOf sessionId).noted newYear known .closed (known.any (·.scriptChanged)) .stop newYear.1 .ok

/-- The turn of a session's end, where it is known and not closed, or was never heard of. -/
theorem step_stop {w : WatchWorld} {sessionId : JsString} {sessions : List ConnectionRow}
    (hlisted : w.watch.store.db.ListsConnectionsOf toySystem sessions) (hidle : w.job = [])
    {known : Option ConnectionRow} (hknown : w.watch.store.db.connection toySystem sessionId = known)
    (hopen : ¬ (known.any fun row => decide (row.state = .closed)) = true)
    (hfew : (w.openedLately toySystem (dateParse newYear)).length < toyWatch.maxNewSessionsPerHour)
    (c : Crypto) (u : Unicode) (key : WriterKey) : ∃ opened,
    w.step c u key toyWatch (.heartbeat (stopOf sessionId) sessions newYear)
      = { w with opened, job := [stopWrite known sessionId] } := by
  have hwrites : (stopOf sessionId).writes toyWatch.readBoot newYear known sessions = [stopWrite known sessionId] :=
    if_neg hopen
  have hturn : w.step c u key toyWatch (.heartbeat (stopOf sessionId) sessions newYear)
      = w.heartbeatTurn toyWatch (stopOf sessionId) sessions newYear := if_pos ⟨hidle, hlisted⟩
  have hknown : w.watch.store.db.connection (stopOf sessionId).systemId (stopOf sessionId).sessionId = known := hknown
  rw [hturn]
  unfold WatchWorld.heartbeatTurn
  rw [hknown]
  cases known with
  | none =>
      have hopens : (stopOf sessionId).opens none = true := rfl
      refine ⟨AssocList.set w.opened toySystem (w.openedLately toySystem (dateParse newYear) ++ [dateParse newYear]), ?_⟩
      show (if (stopOf sessionId).opens none = true then _ else _) = _
      rw [if_pos hopens]
      show (if toyWatch.maxNewSessionsPerHour ≤ (w.openedLately toySystem (dateParse newYear)).length then _ else _) = _
      rw [if_neg (not_le.mpr hfew), hwrites]
      rfl
  | some row =>
      refine ⟨w.opened, ?_⟩
      show { w with job := (stopOf sessionId).writes toyWatch.readBoot newYear (some row) sessions } = _
      rw [hwrites]

/-- A session that starts and is stopped. -/
def startAndStop : List WatchStep :=
  [.store (.createSystem toySystem newYear none toyReplies), .heartbeat (startOf toySystem (js "s1")) [] newYear,
    .write toyAnswering, .heartbeat (stopOf (js "s1")) [openSession toySystem (js "s1")] newYear, .write toyAnswering]

/-- A session whose start never came, and its stop. -/
def stopOnly : List WatchStep :=
  [.store (.createSystem toySystem newYear none toyReplies), .heartbeat (stopOf (js "s1")) [] newYear,
    .write toyAnswering]

/-- **A start and a stop** keep the protocol, and are what the chain holds. -/
theorem session_protocol_stopped : ∃ w a b,
    w = (WatchWorld.fresh toyWriter newYear).run positionCrypto ⟨id, id, id⟩ toyWriter toyWatch startAndStop ∧
    w.watch.store.db.receiptsOf toySystem ReceiptRow.isConnections
      = [receiptRow positionCrypto a, receiptRow positionCrypto b] ∧
    w.changesOf (toySystem, js "s1") = [.start, .stop] ∧ w.KeepsProtocol positionCrypto toySystem := by
  obtain ⟨g, s₁, hcreate, htame₁, -, hnone, -, -, -, htip⟩ := Tame.opens ⟨id, id, id⟩
  let w₁ : WatchWorld := ⟨⟨s₁, []⟩, [], dateParse newYear, [], []⟩
  have hcreated : (WatchWorld.fresh toyWriter newYear).step positionCrypto ⟨id, id, id⟩ toyWriter toyWatch
      (.store (.createSystem toySystem newYear none toyReplies)) = w₁ := WatchWorld.step_opens hcreate
  -- the session starts
  have hfirst : ∀ r ∈ s₁.db.connections, r.systemId ≠ toySystem := fun r hr => (List.not_mem_nil (hnone ▸ hr)).elim
  obtain ⟨s₂, a, hstarted, htame₂, hconnections₂, hreceipts₂, hid⟩ :=
    Tame.starts (w := w₁) htame₁ (by decide) (.inl rfl) htip hfirst rfl rfl ⟨id, id, id⟩ (js "s1")
  have hconnections₂ : s₂.db.connections = [openSession toySystem (js "s1")] := by
    rw [hconnections₂]
    exact congrArg (· ++ _) hnone
  let w₂ : WatchWorld := ⟨⟨s₂, []⟩, [(toySystem, [dateParse newYear])], dateParse newYear, [],
    [⟨toySystem, js "s1", .start, a⟩]⟩
  have hstarted : w₁.run positionCrypto ⟨id, id, id⟩ toyWriter toyWatch
      [.heartbeat (startOf toySystem (js "s1")) [] newYear, .write toyAnswering] = w₂ := hstarted
  -- and is stopped
  have hlisted : s₂.db.ListsConnectionsOf toySystem [openSession toySystem (js "s1")] := by
    rw [Database.ListsConnectionsOf, hconnections₂]
    exact ⟨List.Perm.refl _, List.pairwise_singleton _ _⟩
  have hknown : s₂.db.connection toySystem (js "s1") = some (openSession toySystem (js "s1")) := by
    rw [Database.connection, hconnections₂]
    rfl
  have hfew : (w₂.openedLately toySystem (dateParse newYear)).length < toyWatch.maxNewSessionsPerHour := by
    have hlately : w₂.openedLately toySystem (dateParse newYear) = [dateParse newYear] := by
      show List.filter _ [dateParse newYear] = [dateParse newYear]
      decide +kernel
    rw [hlately]
    decide
  obtain ⟨opened, hstop⟩ := step_stop (w := w₂) hlisted rfl hknown (by decide) hfew positionCrypto ⟨id, id, id⟩ toyWriter
  let w₃ : WatchWorld := { w₂ with opened, job := [stopWrite (some (openSession toySystem (js "s1"))) (js "s1")] }
  obtain ⟨s₄, b, hwrote, -, -, hreceipts₄, -⟩ := Tame.writes_noted (w := w₃) htame₂ (by decide) rfl rfl (.inl rfl)
    (tipRow_append hreceipts₂ htip) newYear.2 ⟨id, id, id⟩
  let w₄ : WatchWorld := { w₃.withStore s₄ with
    job := [], told := [⟨toySystem, js "s1", .start, a⟩, ⟨toySystem, js "s1", .stop, b⟩] }
  have hrun : (WatchWorld.fresh toyWriter newYear).run positionCrypto ⟨id, id, id⟩ toyWriter toyWatch startAndStop
      = w₄ := by
    rw [startAndStop, WatchWorld.run_cons, hcreated]
    show WatchWorld.run _ _ _ _ w₁ ([_, _] ++ [_, _]) = w₄
    rw [WatchWorld.run_append, hstarted, WatchWorld.run_cons, hstop]
    exact hwrote
  have hmeets : WatchWorld.Meets positionCrypto ⟨id, id, id⟩ toyWriter toyWatch (Orderly positionCrypto toyWatch)
      (.fresh toyWriter newYear) startAndStop := by
    have hwrite : ∀ w, Orderly positionCrypto toyWatch w (.write toyAnswering) := fun w =>
      ⟨by rintro _ _ _ ⟨⟩, by rintro _ ⟨⟩, brings_toyReplies fun _ => List.mem_singleton.mp⟩
    have hheard : ∀ {w : WatchWorld} {hb sessions}, ¬ hb.event.IsStray (stateOf w.watch.store.db.connections hb.session) →
        Orderly positionCrypto toyWatch w (.heartbeat hb sessions newYear) := by
      refine fun hstray => ⟨?_, by rintro _ ⟨⟩, brings_toyReplies fun _ h => absurd h List.not_mem_nil⟩
      rintro _ _ _ ⟨⟩ -
      exact hstray
    refine ⟨⟨by rintro _ _ _ ⟨⟩, by rintro _ ⟨⟩; trivial, brings_toyReplies fun _ => List.mem_singleton.mp⟩, ?_⟩
    rw [hcreated]
    show WatchWorld.Meets _ _ _ _ _ _ ([_, _] ++ [_, _])
    refine WatchWorld.meets_append.mpr ⟨⟨hheard ?_, hwrite _, trivial⟩, ?_⟩
    · show ¬ HeartbeatEvent.IsStray .start (stateOf s₁.db.connections _)
      rw [hnone]
      exact fun h => h
    · rw [hstarted]
      refine ⟨hheard ?_, hwrite _, trivial⟩
      show ¬ HeartbeatEvent.IsStray .stop (stateOf s₂.db.connections _)
      rw [hconnections₂]
      exact fun h => h
  have hlive : ¬ w₄.Deleted toySystem := by
    have hrecorded : w₄.Recorded positionCrypto Change.Documented := hrun ▸ recorded_of_orderly newYear hmeets
    intro hgone
    refine (hrecorded.consistent.buried toySystem hgone).2 (receiptRow positionCrypto a) ?_ hid
    show _ ∈ s₄.db.receipts
    rw [hreceipts₄]
    show _ ∈ s₂.db.receipts ++ _
    rw [hreceipts₂]
    exact List.mem_append_left _ (List.mem_append_right _ (List.mem_singleton_self _))
  obtain ⟨-, hchains⟩ := session_protocol positionCrypto ⟨id, id, id⟩ toyWriter toyWatch newYear hmeets
  rw [hrun] at hchains
  obtain hkeeps := hchains toySystem hlive
  exact ⟨w₄, a, b, hrun.symm, hkeeps.chain, rfl, hkeeps⟩

/-- **A stop without a start**: the chain has one, the protocol none. -/
theorem stop_without_start : ∃ w r,
    w = (WatchWorld.fresh toyWriter newYear).run positionCrypto ⟨id, id, id⟩ toyWriter toyWatch stopOnly ∧
    w.watch.store.db.receiptsOf toySystem ReceiptRow.isConnections = [receiptRow positionCrypto r] ∧
    (receiptRow positionCrypto r).change = some .stop ∧ w.told = [⟨toySystem, js "s1", .stop, r⟩] ∧
    ¬ IsProtocol (w.changesOf (toySystem, js "s1")) := by
  obtain ⟨g, s, hcreate, htame, -, hnone, -, -, -, htip⟩ := Tame.opens ⟨id, id, id⟩
  let w₁ : WatchWorld := ⟨⟨s, []⟩, [], dateParse newYear, [], []⟩
  have hcreated : (WatchWorld.fresh toyWriter newYear).step positionCrypto ⟨id, id, id⟩ toyWriter toyWatch
      (.store (.createSystem toySystem newYear none toyReplies)) = w₁ := WatchWorld.step_opens hcreate
  have hfirst : ∀ r ∈ s.db.connections, r.systemId ≠ toySystem := fun r hr => (List.not_mem_nil (hnone ▸ hr)).elim
  have hlisted : s.db.ListsConnectionsOf toySystem [] := Database.listsConnectionsOf_nil hfirst
  have hunknown : s.db.connection toySystem (js "s1") = none := Database.connection_eq_none (js "s1") hfirst
  have hfew : (w₁.openedLately toySystem (dateParse newYear)).length < toyWatch.maxNewSessionsPerHour :=
    Nat.zero_lt_succ 59
  obtain ⟨opened, hstop⟩ :=
    step_stop (w := w₁) hlisted rfl hunknown (by decide) hfew positionCrypto ⟨id, id, id⟩ toyWriter
  let w₂ : WatchWorld := { w₁ with opened, job := [stopWrite none (js "s1")] }
  obtain ⟨s', r, hwrote, -, -, hreceipts, hid⟩ :=
    Tame.writes_noted (w := w₂) htame (by decide) rfl rfl (.inl rfl) htip newYear.2 ⟨id, id, id⟩
  let w₃ : WatchWorld := { w₂.withStore s' with job := [], told := [⟨toySystem, js "s1", .stop, r⟩] }
  have hrun : (WatchWorld.fresh toyWriter newYear).run positionCrypto ⟨id, id, id⟩ toyWriter toyWatch stopOnly
      = w₃ := by
    rw [stopOnly, WatchWorld.run_cons, hcreated, WatchWorld.run_cons, hstop]
    exact hwrote
  -- every heartbeat is allowed by what it finds, so the chain holds what was written
  have hrecorded : w₃.Recorded positionCrypto Change.Moves := by
    rw [← hrun, stopOnly, WatchWorld.run_cons, WatchWorld.run_cons, WatchWorld.run_cons, WatchWorld.run_nil]
    refine WatchWorld.recorded_step permits_moves (WatchWorld.recorded_step permits_moves (WatchWorld.recorded_step
      permits_moves (WatchWorld.recorded_fresh toyWriter newYear) ?_ ?_) ?_ ?_) ?_ ?_
    · trivial
    · exact brings_toyReplies fun _ => List.mem_singleton.mp
    · exact fun _ => allowed_moves _ _
    · exact brings_toyReplies fun _ h => absurd h List.not_mem_nil
    · trivial
    · exact brings_toyReplies fun _ => List.mem_singleton.mp
  have hlive : ¬ w₃.Deleted toySystem := by
    intro hgone
    refine (hrecorded.consistent.buried toySystem hgone).2 (receiptRow positionCrypto r) ?_ hid
    show _ ∈ s'.db.receipts
    rw [hreceipts]
    exact List.mem_append_right _ (List.mem_singleton_self _)
  refine ⟨w₃, r, hrun.symm, hrecorded.chain toySystem hlive, ?_, rfl, fun hprotocol => ?_⟩
  · exact hrecorded.named _ (List.mem_singleton_self _)
  · obtain ⟨move, hmove, -⟩ := hprotocol [] .stop [] rfl
    cases hmove

end Sigillo
