import Sigillo.ServerReceipts

/-!
# The connection watch

An agent's heartbeats and the sweep for silence, as the watch works them off: one job at a time, whose
writes are settled when it begins and reach the store one by one, until one fails. Between two of them the
store does whatever else it is asked.

* **`Heartbeat.writes`**, **`sweepWrites`** — what a job is to write;
* **`WatchWorld.step`** — the watch and its store, in any interleaving. -/

namespace Sigillo

open DoubleArith Utf16Text JsonText JsonSchema HexBase64 IsoTime Fallible

-- ── Writes ───────────────────────────────────────────────────────────────────────

/-- What `receiptOf` is given of a change, the system and the time it is received at apart. -/
structure ChangeNote where
  change : Change
  tsEvent : JsString
  outcome : Outcome
  source : SourceType

/-- One call of `recordConnection`: the session's row, and the receipt of its change if there is one. -/
structure SessionWrite where
  row : ConnectionRow
  note : Option ChangeNote
  time : Timestamp

/-- The event of a write, where it has one. -/
def SessionWrite.event (w : SessionWrite) : Option ChainEvent :=
  w.note.map fun n => n.change.event w.row.systemId n.tsEvent w.time n.outcome n.source

-- ── Heartbeats ───────────────────────────────────────────────────────────────────

/-- What a guard reports. -/
inductive HeartbeatEvent where
  | start | beat | stop | ended | ping
  | gap (gap : Option Gap)

/-- A heartbeat from one running copy of an agent; `script` is the hash the guard looks at, where it does. -/
structure Heartbeat where
  systemId : SystemId
  sessionId : JsString
  event : HeartbeatEvent
  script : Option (Option JsString)
  boot : Option JsString

/-- Two boot times closer than this are the same boot. -/
def SAME_BOOT_MS : ℤ := 120000

/-- `Date.parse` of a boot time: `none` is NaN. -/
abbrev BootReader := JsString → Option ℤ

/-- `Math.abs(Date.parse(boot) - Date.parse(previous)) > SAME_BOOT_MS`. -/
def otherBoot (readBoot : BootReader) (boot previous : JsString) : Bool :=
  match readBoot boot, readBoot previous with
  | some a, some b => decide (SAME_BOOT_MS < |a - b|)
  | _, _ => false

namespace Heartbeat

variable (readBoot : BootReader) (h : Heartbeat) (at_ : Timestamp) (known : Option ConnectionRow)

/-- What a start or a beat carries for the guard; a stop never does. -/
def guardHash : Option (Option JsString) := match h.event with
  | .stop => none
  | _ => h.script

/-- The session's row, as a change leaves it. -/
def row (state : ConnectionState) (changed : Bool) : ConnectionRow where
  systemId := h.systemId
  sessionId := h.sessionId
  state
  startedAt := known.elim at_ (·.startedAt)
  lastBeatAt := at_
  scriptHash := known.elim (h.guardHash.getD none) (·.scriptHash)
  scriptChanged := changed
  bootAt := known.elim h.boot (·.bootAt)

/-- A write of the session's row with the receipt of a change. -/
def noted (state : ConnectionState) (changed : Bool) (change : Change) (tsEvent : JsString) (outcome : Outcome) :
    SessionWrite :=
  ⟨h.row at_ known state changed, some ⟨change, tsEvent, outcome, .sdk⟩, at_⟩

/-- The session before this one whose computer was switched off in between; `sessions` are the system's, the
    most recent beat first. -/
def poweredOff (sessions : List ConnectionRow) : Option ConnectionRow := do
  let boot ← h.boot
  let previous ← sessions.find? fun s => s.bootAt.isSome
  let before ← previous.bootAt
  if previous.state ≠ .closed ∧ otherBoot readBoot boot before then some previous else none

/-- Whether the script is not the one the last session that sent a hash ran. -/
def scriptReplaced (sessions : List ConnectionRow) : Bool :=
  match h.guardHash, sessions.find? fun s => s.scriptHash.isSome with
  | some hash, some before => decide (before.scriptHash ≠ hash)
  | _, _ => false

/-- What the start of a session shows of the time before it. -/
def dueWithStart (sessions : List ConnectionRow) : List SessionWrite :=
  ((h.poweredOff readBoot sessions).map fun previous =>
      h.noted at_ none .«open» false .powerOff previous.lastBeatAt.1 .ok).toList
    ++ if h.scriptReplaced sessions then [h.noted at_ none .«open» false .scriptChanged at_.1 .error] else []

/-- Whether a running session's script is no longer the one it started with, for the first time. -/
def scriptMoved (known : ConnectionRow) : Bool :=
  match h.guardHash, known.scriptHash with
  | some hash, some before => !known.scriptChanged && decide (hash ≠ some before)
  | _, _ => false

/-- **What a heartbeat is to write**, a gap apart. -/
def writes (sessions : List ConnectionRow) : List SessionWrite :=
  match h.event with
  | .ping => []
  | .gap _ => []
  | .ended =>
      match known with
      | none => []
      | some k => if k.state = .«open» then [⟨{ k with state := .lost }, some ⟨.ended, at_.1, .error, .sdk⟩, at_⟩]
          else []
  | .stop =>
      if known.any fun k => k.state = .closed then []
      else [h.noted at_ known .closed (known.any (·.scriptChanged)) .stop at_.1 .ok]
  | .start | .beat =>
      match known with
      | none => h.noted at_ none .«open» false .start at_.1 .ok :: h.dueWithStart readBoot at_ sessions
      | some k =>
          let restored := if k.state ≠ .«open» then
            [h.noted at_ known .«open» k.scriptChanged .restored at_.1 .ok] else []
          if h.scriptMoved k then restored ++ [h.noted at_ known .«open» true .scriptChanged at_.1 .error]
          else if restored = [] then [⟨h.row at_ known .«open» k.scriptChanged, none, at_⟩]
          else restored

/-- A session not seen before counts against the system's allowance, whatever it is to write. -/
def opens : Bool := known.isNone && match h.event with
  | .start | .beat | .stop => true
  | _ => false

end Heartbeat

-- ── Silence ──────────────────────────────────────────────────────────────────────

/-- The loss of a silent session: it began with the last beat. -/
def lossOf (session : ConnectionRow) (now : Timestamp) : SessionWrite :=
  ⟨{ session with state := .lost }, some ⟨.lost, session.lastBeatAt.1, .error, .api⟩, now⟩

/-- The sessions silent past the allowance. -/
def silentPast (lostAfterMs : ℤ) (now : Timestamp) (sessions : List ConnectionRow) : List ConnectionRow :=
  sessions.filter fun session => !decide (dateParse now - dateParse session.lastBeatAt ≤ lostAfterMs)

/-- **What a sweep is to write**, for a process that has run for longer than the allowance. -/
def sweepWrites (lostAfterMs since : ℤ) (now : Timestamp) (sessions : List ConnectionRow) : List SessionWrite :=
  if dateParse now - since ≤ lostAfterMs then []
  else (silentPast lostAfterMs now sessions).map fun session => lossOf session now

-- ── The watch and its store ──────────────────────────────────────────────────────

/-- How long sessions last. -/
structure ConnectionWatchOptions where
  lostAfterMs : ℤ := 3 * 60000
  maxNewSessionsPerHour : ℕ := 60
  readBoot : BootReader

/-- What one write sees and draws, and is answered. -/
structure Answering where
  seen : List SubjectRow
  checked : Randomness
  replies : SignerReplies

/-- A receipt the watch wrote, and the session it is of: the receipt does not name it. -/
structure Told where
  systemId : SystemId
  sessionId : JsString
  change : Change
  receipt : Receipt

/-- The store, what the watch keeps in memory, the writes its job has left, and what it has written so
    far: of that it keeps no list. -/
structure WatchWorld where
  watch : Watch
  opened : List (SystemId × List ℤ)
  since : ℤ
  job : List SessionWrite
  told : List Told

/-- What may happen next. -/
inductive WatchStep where
  /-- A heartbeat's turn; the system's sessions come as the query lists them. -/
  | heartbeat (h : Heartbeat) (sessions : List ConnectionRow) (time : Timestamp)
  /-- A sweep's turn, with the open sessions as the query lists them. -/
  | sweep (sessions : List ConnectionRow) (time : Timestamp)
  /-- The next write of the job. -/
  | write (answering : Answering)
  /-- Anything else the store is asked to do. -/
  | store (op : Operation)
  /-- Another process of the server takes over. -/
  | restart (time : Timestamp)

/-- `SELECT * FROM connections WHERE system_id = ? ORDER BY last_beat_at DESC`. -/
def Database.ListsConnectionsOf (db : Database) (systemId : SystemId) (sessions : List ConnectionRow) : Prop :=
  sessions.Perm (db.connections.filter fun r => r.systemId == systemId) ∧
    sessions.Pairwise fun a b => lexLe b.lastBeatAt.1 a.lastBeatAt.1 = true

instance (db : Database) (systemId : SystemId) (sessions : List ConnectionRow) :
    Decidable (db.ListsConnectionsOf systemId sessions) := inferInstanceAs (Decidable (_ ∧ _))

/-- `SELECT * FROM connections WHERE state = 'open'`, in whatever order. -/
def Database.ListsOpenConnections (db : Database) (sessions : List ConnectionRow) : Prop :=
  sessions.Perm (db.connections.filter fun r => r.state == .«open»)

instance (db : Database) (sessions : List ConnectionRow) : Decidable (db.ListsOpenConnections sessions) :=
  inferInstanceAs (Decidable (List.Perm _ _))

variable (c : Crypto) (u : Unicode) (key : WriterKey) (options : ConnectionWatchOptions)

/-- **One write**, as the store takes it. -/
def SessionWrite.perform (w : SessionWrite) (s : Store) (a : Answering) : Store × Except StoreError (Option Receipt) :=
  recordConnection c u key s a.seen w.row (w.event.map fun event => (event, a.checked, a.replies))

namespace WatchWorld

/-- A gap's turn: written for an open or lost session, at most so many an hour. -/
def gapTurn (w : WatchWorld) (known : Option ConnectionRow) (gap : Option Gap) (time : Timestamp) : WatchWorld :=
  match known, gap with
  | some known, some gap =>
      let now := dateParse time
      let recent := w.watch.recent known.sessionId now
      if known.state = .closed ∨ MAX_GAPS_PER_HOUR ≤ recent.length then w
      else
        let event := gapEvent known.systemId known time gap
        { w with
          watch := ⟨w.watch.store, AssocList.set w.watch.gaps known.sessionId (recent ++ [now])⟩
          job := [⟨known, some ⟨gap.kind.change, event.tsEvent, gap.kind.outcome, .sdk⟩, time⟩] }
  | _, _ => w

/-- The times a system opened its sessions of the hour before. -/
def openedLately (w : WatchWorld) (systemId : SystemId) (now : ℤ) : List ℤ :=
  ((w.opened.lookup systemId).getD []).filter fun time => decide (now - time < HOUR_MS)

/-- A heartbeat's turn. -/
def heartbeatTurn (w : WatchWorld) (h : Heartbeat) (sessions : List ConnectionRow) (time : Timestamp) : WatchWorld :=
  let known := w.watch.store.db.connection h.systemId h.sessionId
  match h.event with
  | .gap gap => w.gapTurn known gap time
  | _ =>
      if h.opens known then
        let recent := w.openedLately h.systemId (dateParse time)
        if options.maxNewSessionsPerHour ≤ recent.length then
          { w with opened := AssocList.set w.opened h.systemId recent }
        else
          { w with
            opened := AssocList.set w.opened h.systemId (recent ++ [dateParse time])
            job := h.writes options.readBoot time known sessions }
      else { w with job := h.writes options.readBoot time known sessions }

/-- The receipt of a write, with the session it is of. -/
def toldOf (write : SessionWrite) (written : Option Receipt) : List Told :=
  match write.note, written with
  | some note, some receipt => [⟨write.row.systemId, write.row.sessionId, note.change, receipt⟩]
  | _, _ => []

/-- The store, once it has done something else. -/
def withStore (w : WatchWorld) (store : Store) : WatchWorld := { w with watch := { w.watch with store } }

/-- A write's turn: a job that fails is over. -/
def writeTurn (w : WatchWorld) (a : Answering) : WatchWorld :=
  match w.job with
  | [] => w
  | write :: rest =>
      match write.perform c u key w.watch.store a with
      | (store, .error _) => { w.withStore store with job := [] }
      | (store, .ok written) => { w.withStore store with job := rest, told := w.told ++ toldOf write written }

/-- **One step.** -/
def step (w : WatchWorld) : WatchStep → WatchWorld
  | .heartbeat h sessions time =>
      if w.job = [] ∧ w.watch.store.db.ListsConnectionsOf h.systemId sessions then
        w.heartbeatTurn options h sessions time
      else w
  | .sweep sessions time =>
      if w.job = [] ∧ w.watch.store.db.ListsOpenConnections sessions then
        { w with job := sweepWrites options.lostAfterMs w.since time sessions }
      else w
  | .write a => w.writeTurn c u key a
  | .store op => w.withStore (perform c u key w.watch.store op)
  | .restart time =>
      { w with
        watch := ⟨perform c u key w.watch.store .reopen, []⟩
        opened := [], since := dateParse time, job := [] }

/-- A run. -/
def run (w : WatchWorld) (steps : List WatchStep) : WatchWorld := steps.foldl (step c u key options) w

/-- A server that has just started, on a store of its own. -/
def fresh (time : Timestamp) : WatchWorld := ⟨⟨.fresh key, []⟩, [], dateParse time, [], []⟩

@[simp] theorem run_nil (w : WatchWorld) : w.run c u key options [] = w := rfl

@[simp] theorem run_cons (w : WatchWorld) (x : WatchStep) (steps : List WatchStep) :
    w.run c u key options (x :: steps) = (w.step c u key options x).run c u key options steps := rfl

theorem run_append (w : WatchWorld) (before after : List WatchStep) :
    w.run c u key options (before ++ after) = (w.run c u key options before).run c u key options after :=
  List.foldl_append ..

-- ── A gap, turn by turn ──────────────────────────────────────────────────────────

variable {c u key} {w : WatchWorld}

theorem writeTurn_of_idle (hidle : w.job = []) (a : Answering) : w.writeTurn c u key a = w := by
  rw [writeTurn, hidle]

/-- **A gap's turn and the write it settled are `ConnectionWatch.gap`**, where nothing comes between the
    two. -/
theorem writeTurn_gapTurn (hidle : w.job = []) {known : Option ConnectionRow} {systemId : SystemId}
    (hsystem : ∀ row, known = some row → row.systemId = systemId) (gap : Gap) (serving : Serving) :
    ((w.gapTurn known (some gap) serving.time).writeTurn c u key
      ⟨serving.seen, serving.checked, serving.replies⟩).watch
        = (w.watch.gap c u key systemId known gap serving).1 := by
  cases known with
  | none => exact congrArg watch (writeTurn_of_idle hidle _)
  | some known =>
      obtain rfl := hsystem known rfl
      rw [gapTurn, Watch.gap]
      by_cases hclosed : known.state = .closed
      · simp only [hclosed, true_or, if_true]
        rw [writeTurn_of_idle hidle]
      · by_cases hfull : MAX_GAPS_PER_HOUR ≤ (w.watch.recent known.sessionId (dateParse serving.time)).length
        · simp only [hclosed, hfull, or_true, if_true, if_false]
          rw [writeTurn_of_idle hidle]
        · simp only [hclosed, hfull, or_self, if_false]
          have hevent : gap.kind.change.event known.systemId
              (gapEvent known.systemId known serving.time gap).tsEvent serving.time gap.kind.outcome .sdk
                = gapEvent known.systemId known serving.time gap := (gapEvent_eq ..).symm
          rw [writeTurn]
          simp only [SessionWrite.perform, SessionWrite.event, Option.map_some, hevent]
          split
          · rename_i heq
            rw [heq]
            rfl
          · rename_i heq
            rw [heq]
            rfl

end WatchWorld

end Sigillo
