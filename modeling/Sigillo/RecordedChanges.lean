import Sigillo.SessionRuns
import Sigillo.WrittenReceipts

/-!
# Changes on the chain

What the watch writes of a session is a receipt under a connection's name, and nothing else writes one. So
the receipts of connections on a chain are those the watch wrote, each once and in their order, as long as
the signer brings none that the chain does not hold (**`WatchWorld.recorded_step`**). -/

namespace Sigillo

open DoubleArith Utf16Text JsonText JsonSchema HexBase64 IsoTime Fallible

variable {c : Crypto} {u : Unicode} {key : WriterKey} {options : ConnectionWatchOptions}

-- ── Receipts of connections ──────────────────────────────────────────────────────

/-- A receipt under a connection's name. -/
def ReceiptRow.isConnections (row : ReceiptRow) : Bool :=
  decide (row.actionKind ≠ .genesis ∧ CONNECTION_PREFIX <+: row.actionName)

theorem isConnections_receiptRow {event : ChainEvent} {r : Receipt} (h : Says c event r.toUnsignedReceipt) :
    (receiptRow c r).isConnections = true ↔ event.IsConnections := by
  have hkind : r.action.kind = event.action.kind := congrArg ActionInput.kind h.action
  have hname : r.action.name.1 = event.action.name := congrArg ActionInput.name h.action
  rw [ReceiptRow.isConnections, decide_eq_true_eq]
  show r.action.kind ≠ _ ∧ _ <+: r.action.name.1 ↔ _
  rw [hkind, hname]
  rfl

/-- The changes there are. -/
def Change.all : List Change :=
  [.start, .stop, .lost, .ended, .restored, .scriptChanged, .sleep, .offline, .powerOff]

/-- The change a receipt is of, by its name. -/
def ReceiptRow.change (row : ReceiptRow) : Option Change :=
  Change.all.find? fun change => change.receiptName == row.actionName

/-- A name says which change a receipt is of. -/
theorem change_of_name {row : ReceiptRow} {change : Change} (h : row.actionName = change.receiptName) :
    row.change = some change := by
  rw [ReceiptRow.change, h]
  cases change with
  | _ => decide

/-- What is signed of a change is a receipt of a connection, under the name of the change. -/
theorem Change.isConnections {change : Change} {systemId : SystemId} {tsEvent : JsString} {tsReceived : Timestamp}
    {outcome : Outcome} {source : SourceType} {r : Receipt}
    (h : Says c (change.event systemId tsEvent tsReceived outcome source) r.toUnsignedReceipt) :
    (receiptRow c r).isConnections = true ∧ (receiptRow c r).change = some change :=
  ⟨(isConnections_receiptRow h).mpr ⟨fun h => (nomatch h), Change.event_named _ _ _ _ _ _⟩,
    change_of_name (congrArg ActionInput.name h.action)⟩

theorem receiptsOf_of_same {db db' : Database} (h : db'.receipts = db.receipts) (systemId : SystemId)
    (kind : ReceiptRow → Bool) : db'.receiptsOf systemId kind = db.receiptsOf systemId kind := by
  rw [Database.receiptsOf, h]
  rfl

/-- What is taken back adds no receipt of a connection. -/
theorem addedTo_of_quiet {systemId : SystemId} {happened : List Happening}
    (hwrote : ∀ event prepared receipt, .wrote event prepared receipt ∈ happened →
      (receiptRow c receipt).isConnections = false)
    (htaken : ∀ r, .tookBack r ∈ happened → (receiptRow c r).isConnections = false) :
    addedTo c systemId ReceiptRow.isConnections happened = [] := by
  rw [addedTo, List.filter_eq_nil_iff]
  intro row hrow
  obtain ⟨x, hx, hrow⟩ := List.mem_filterMap.mp hrow
  have hquiet : row.isConnections = false := by
    cases x with
    | wrote event prepared receipt =>
        obtain rfl := Option.some.inj hrow
        exact hwrote event prepared receipt hx
    | tookBack r =>
        obtain rfl := Option.some.inj hrow
        exact htaken r hx
    | erasedOpenings => cases hrow
    | deletedChain => cases hrow
  rw [hquiet, Bool.and_false]
  exact Bool.false_ne_true

/-- What the signer shows during a step. -/
def WatchStep.views : WatchStep → List SignerView
  | .write a => [a.replies.view]
  | .store op => op.views
  | _ => []

namespace WatchWorld

/-- The receipts the watch wrote of a system's sessions. -/
def receiptsTold (c : Crypto) (w : WatchWorld) (systemId : SystemId) : List ReceiptRow :=
  (w.told.filter fun t => t.systemId = systemId).map fun t => receiptRow c t.receipt

/-- Those of one session. -/
def sessionRows (c : Crypto) (w : WatchWorld) (session : SessionKey) : List ReceiptRow :=
  (w.told.filter fun t => t.session = session).map fun t => receiptRow c t.receipt

/-- **A step in which no change comes back from the signer**: of the receipts it shows, those of connections
    are on their chains. -/
def BringsNone (c : Crypto) (w : WatchWorld) (x : WatchStep) : Prop :=
  ∀ view ∈ x.views, ∀ r, view.Brings c w.watch.store r → (receiptRow c r).isConnections = false

/-- A signer that shows nothing brings none. -/
theorem BringsNone.of_views {w : WatchWorld} {x : WatchStep} (h : ∀ view ∈ x.views, ∀ r, ¬ view.Lists r) :
    w.BringsNone c x := fun view hview r hbrings => absurd hbrings.1 (h view hview r)

/-- **The chains hold what the watch wrote**, and no other receipt of a connection. -/
structure Recorded (c : Crypto) (rule : Option ConnectionState → Change → Prop) (w : WatchWorld) : Prop where
  consistent : w.Consistent rule
  said : ∀ event prepared receipt, .wrote event prepared receipt ∈ w.watch.store.history →
    Says c event receipt.toUnsignedReceipt
  chain : ∀ systemId, ¬ w.Deleted systemId →
    w.watch.store.db.receiptsOf systemId ReceiptRow.isConnections = w.receiptsTold c systemId
  named : ∀ t ∈ w.told, (receiptRow c t.receipt).change = some t.change

variable {w w' : WatchWorld} {rule : Option ConnectionState → Change → Prop}

theorem recorded_fresh (key : WriterKey) (time : Timestamp) : (fresh key time).Recorded c rule where
  consistent := consistent_fresh key time
  said := fun _ _ _ h => absurd h List.not_mem_nil
  chain := fun _ _ => rfl
  named := fun _ h => absurd h List.not_mem_nil

/-- **The receipts of a session say what was told of it.** -/
theorem Recorded.changes (h : w.Recorded c rule) (session : SessionKey) :
    (w.sessionRows c session).map ReceiptRow.change = (w.changesOf session).map some := by
  rw [sessionRows, changesOf, List.map_map, List.map_map]
  exact List.map_congr_left fun t ht => h.named t (List.mem_of_mem_filter ht)

/-- **A step that writes nothing of the watch's** leaves it so. -/
theorem Recorded.aside (h : w.Recorded c rule) {allowed : Kind → Prop} {takes : Receipt → Prop}
    (hcommits : Commits c u key allowed w.watch.store w'.watch.store)
    (haside : Aside takes w.watch.store w'.watch.store) (htold : w'.told = w.told)
    (hconsistent : w'.Consistent rule) (htakes : ∀ r, takes r → (receiptRow c r).isConnections = false) :
    w'.Recorded c rule := by
  obtain ⟨happened, hhistory, hnone, -, htaken⟩ := haside
  have hsaid : ∀ event prepared receipt, .wrote event prepared receipt ∈ w'.watch.store.history →
      Says c event receipt.toUnsignedReceipt := fun event prepared receipt hmem =>
    (says_of_history hcommits hmem).elim (h.said event prepared receipt) id
  refine ⟨hconsistent, hsaid, fun systemId hnot => ?_, htold ▸ h.named⟩
  obtain ⟨happened', hhistory', hcases⟩ := receipts_of_history hcommits systemId ReceiptRow.isConnections
  obtain rfl : happened = happened' := List.append_cancel_left (hhistory.symm.trans hhistory')
  obtain ⟨hold, hnew⟩ : .deletedChain systemId ∉ w.watch.store.history ∧ .deletedChain systemId ∉ happened := by
    have hnot : .deletedChain systemId ∉ w'.watch.store.history := hnot
    rw [hhistory, List.mem_append] at hnot
    exact not_or.mp hnot
  rw [hcases.resolve_left hnew, h.chain systemId hold, addedTo_of_quiet, List.append_nil]
  · rw [receiptsTold, receiptsTold, htold]
  · intro event prepared receipt hmem
    have hsaid := hsaid event prepared receipt (by rw [hhistory]; exact List.mem_append_right _ hmem)
    rw [← Bool.not_eq_true, isConnections_receiptRow hsaid]
    exact hnone event prepared receipt hmem
  · exact fun r hmem => htakes r (htaken r hmem)

theorem receiptsTold_append (w : WatchWorld) (t : Told) (systemId : SystemId) (h : w'.told = w.told ++ [t]) :
    w'.receiptsTold c systemId
      = w.receiptsTold c systemId ++ if t.systemId = systemId then [receiptRow c t.receipt] else [] := by
  rw [receiptsTold, h, List.filter_append, List.map_append]
  by_cases hname : t.systemId = systemId
  · rw [if_pos hname, List.filter_cons_of_pos (by simpa using hname)]
    rfl
  · rw [if_neg hname, List.filter_cons_of_neg (by simpa using hname)]
    rfl

/-- An ordinary beat adds nothing. -/
theorem Recorded.beat (h : w.Recorded c rule) {write : SessionWrite} {rest : List SessionWrite}
    (hjob : w.job = write :: rest) (hnote : write.note = none) :
    Recorded c rule { w.withStore { w.watch.store with db := saveConnection write.row w.watch.store.db } with
      job := rest } :=
  ⟨h.consistent.beat hjob hnote, h.said, fun systemId hnot =>
    (receiptsOf_of_same (receipts_saveConnection write.row w.watch.store.db) _ _).trans (h.chain systemId hnot),
    h.named⟩

/-- **A change is written once.** -/
theorem Recorded.change (h : w.Recorded c rule) {write : SessionWrite} {rest : List SessionWrite} {note : ChangeNote}
    {a : Answering} {store : Store} {r : Receipt} (hjob : w.job = write :: rest) (hnote : write.note = some note)
    (hperform : write.perform c u key w.watch.store a = (store, .ok (some r)))
    (hcommits : Commits c u key Kind.IsOrdinary w.watch.store store)
    (hconnections : store.db.connections = savedConnections write.row w.watch.store.db.connections)
    {taken : List Receipt} {prepared : Prepared} (hhistory : store.history = w.watch.store.history ++
      (taken.map .tookBack ++ [.wrote (note.change.event write.row.systemId note.tsEvent write.time note.outcome
        note.source) prepared r]))
    (htaken : ∀ r ∈ taken, (receiptRow c r).isConnections = false) :
    Recorded c rule { w.withStore store with
      job := rest, told := w.told ++ [⟨write.row.systemId, write.row.sessionId, note.change, r⟩] } := by
  have hconsistent := h.consistent.change hjob hnote hperform hcommits hconnections hhistory
  have hsaid : Says c (note.change.event write.row.systemId note.tsEvent write.time note.outcome note.source)
      r.toUnsignedReceipt := by
    obtain ⟨_, hr, hwrite⟩ := SessionWrite.perform_noted hnote hperform
    obtain rfl := Option.some.inj hr
    exact (writeReceipt_saved rfl hwrite).1
  obtain ⟨hmine, hname⟩ := Change.isConnections hsaid
  refine ⟨hconsistent, fun event prepared receipt hmem => ?_, fun systemId hnot => ?_, fun t ht => ?_⟩
  · exact (says_of_history hcommits hmem).elim (h.said event prepared receipt) id
  · obtain ⟨happened, hhistory', hcases⟩ := receipts_of_history hcommits systemId ReceiptRow.isConnections
    obtain rfl := List.append_cancel_left (hhistory.symm.trans hhistory')
    have hnot : .deletedChain systemId ∉ store.history := hnot
    rw [hhistory, List.mem_append] at hnot
    obtain ⟨hold, hnew⟩ := not_or.mp hnot
    let w' : WatchWorld := { w.withStore store with
      job := rest, told := w.told ++ [⟨write.row.systemId, write.row.sessionId, note.change, r⟩] }
    have hadded : w'.receiptsTold c systemId = w.receiptsTold c systemId ++
        if write.row.systemId = systemId then [receiptRow c r] else [] :=
      receiptsTold_append w ⟨write.row.systemId, write.row.sessionId, note.change, r⟩ systemId rfl
    show store.db.receiptsOf systemId _ = w'.receiptsTold c systemId
    rw [hcases.resolve_left hnew, h.chain systemId hold, hadded, addedTo_append, addedTo_of_quiet, List.nil_append]
    · congr 1
      show List.filter _ [receiptRow c r] = if write.row.systemId = systemId then [receiptRow c r] else []
      have hid : (receiptRow c r).systemId = write.row.systemId := hsaid.systemId
      by_cases hname : write.row.systemId = systemId
      · rw [if_pos hname, List.filter_cons_of_pos]
        · rfl
        · rw [hid, hmine, Bool.and_true, beq_iff_eq]
          exact hname
      · rw [if_neg hname, List.filter_cons_of_neg]
        · rfl
        · rw [hid, hmine, Bool.and_true, beq_iff_eq]
          exact hname
    · intro event prepared receipt hmem
      obtain ⟨r, -, heq⟩ := List.mem_map.mp hmem
      cases heq
    · intro r hmem
      obtain ⟨r', hr', heq⟩ := List.mem_map.mp hmem
      exact Happening.tookBack.inj heq ▸ htaken r' hr'
  · rcases List.mem_append.mp ht with hold | hlast
    · exact h.named t hold
    · rw [List.mem_singleton.mp hlast]
      exact hname

/-- **A write's turn leaves it so.** -/
theorem Recorded.write (h : w.Recorded c rule) {a : Answering}
    (hbrings : ∀ r, a.replies.view.Brings c w.watch.store r → (receiptRow c r).isConnections = false) :
    (w.writeTurn c u key a).Recorded c rule := by
  cases hjob : w.job with
  | nil =>
      have hsame : w.writeTurn c u key a = w := by
        unfold writeTurn
        rw [hjob]
      rwa [hsame]
  | cons write rest =>
      have hcommits : Commits c u key Kind.IsOrdinary w.watch.store (write.perform c u key w.watch.store a).1 :=
        write.perform_commits w.watch.store a
      cases hperform : write.perform c u key w.watch.store a with
      | mk store result =>
          rw [hperform] at hcommits
          cases result with
          | error e =>
              have hconsistent : (w.writeTurn c u key a).Consistent rule := h.consistent.write a
              rw [writeTurn_error hjob hperform] at hconsistent ⊢
              exact h.aside hcommits (SessionWrite.perform_fails hperform) rfl hconsistent hbrings
          | ok written =>
              rw [writeTurn_ok hjob hperform]
              cases hnote : write.note with
              | none =>
                  rw [SessionWrite.perform_plain hnote] at hperform
                  obtain ⟨rfl, -⟩ := Prod.mk.inj hperform
                  have hbeat := h.beat hjob hnote
                  have htold : toldOf write written = [] := by
                    unfold toldOf
                    rw [hnote]
                  rw [htold, List.append_nil]
                  exact hbeat
              | some note =>
                  obtain ⟨r, rfl, hconnections, taken, prepared, hhistory, htaken⟩ :=
                    SessionWrite.perform_saves hnote hperform
                  have htold : toldOf write (some r) = [⟨write.row.systemId, write.row.sessionId, note.change, r⟩] := by
                    unfold toldOf
                    rw [hnote]
                  rw [htold]
                  exact h.change hjob hnote hperform hcommits hconnections hhistory fun r' hr' =>
                    hbrings r' (htaken r' hr')

theorem store_step_heartbeat (w : WatchWorld) (hb : Heartbeat) (sessions : List ConnectionRow) (time : Timestamp) :
    (w.step c u key options (.heartbeat hb sessions time)).watch.store = w.watch.store := by
  show (if _ then _ else _ : WatchWorld).watch.store = _
  split
  · exact store_heartbeatTurn w hb sessions time
  · rfl

/-- **Every step leaves it so**, that is allowed by a rule and in which no change comes back from the
    signer. -/
theorem recorded_step (hrule : Permits rule) (h : w.Recorded c rule) {x : WatchStep}
    (hallowed : w.Allows options rule x) (hbrings : w.BringsNone c x) :
    (w.step c u key options x).Recorded c rule := by
  have hconsistent : (w.step c u key options x).Consistent rule := consistent_step hrule h.consistent hallowed
  cases x with
  | heartbeat hb sessions time =>
      have hstore : (w.step c u key options (.heartbeat hb sessions time)).watch.store = w.watch.store :=
        store_step_heartbeat w hb sessions time
      have htold : (w.step c u key options (.heartbeat hb sessions time)).told = w.told := by
        show (if _ then _ else _ : WatchWorld).told = _
        split
        · exact told_heartbeatTurn w hb sessions time
        · rfl
      have hcommits : Commits c u key Kind.IsOrdinary w.watch.store
          (w.step c u key options (.heartbeat hb sessions time)).watch.store := by rw [hstore]
      have haside : Aside (fun _ => False) w.watch.store
          (w.step c u key options (.heartbeat hb sessions time)).watch.store := hstore ▸ Aside.refl _
      exact h.aside hcommits haside htold hconsistent fun _ hno => hno.elim
  | sweep sessions time =>
      have hsame : (w.step c u key options (.sweep sessions time)).watch = w.watch ∧
          (w.step c u key options (.sweep sessions time)).told = w.told := by
        show (if _ then _ else _ : WatchWorld).watch = _ ∧ (if _ then _ else _ : WatchWorld).told = _
        split
        · exact ⟨rfl, rfl⟩
        · exact ⟨rfl, rfl⟩
      have hcommits : Commits c u key Kind.IsOrdinary w.watch.store
          (w.step c u key options (.sweep sessions time)).watch.store := by rw [hsame.1]
      have haside : Aside (fun _ => False) w.watch.store
          (w.step c u key options (.sweep sessions time)).watch.store := hsame.1 ▸ Aside.refl _
      exact h.aside hcommits haside hsame.2 hconsistent fun _ hno => hno.elim
  | write a => exact h.write fun r hr => hbrings _ (List.mem_singleton_self _) r hr
  | store op =>
      have hcommits : Commits c u key op.Allows w.watch.store (perform c u key w.watch.store op) :=
        perform_commits w.watch.store op
      refine h.aside hcommits (perform_aside w.watch.store hallowed) rfl hconsistent ?_
      rintro r ⟨view, hview, hr⟩
      exact hbrings view hview r hr
  | restart time =>
      have hcommits : Commits c u key (Operation.Allows .reopen) w.watch.store (perform c u key w.watch.store .reopen) :=
        perform_commits w.watch.store .reopen
      have haside : Aside (fun _ => False) w.watch.store (perform c u key w.watch.store .reopen) := .of_kept rfl rfl
      exact h.aside hcommits haside rfl hconsistent fun _ hno => hno.elim

end WatchWorld

end Sigillo
