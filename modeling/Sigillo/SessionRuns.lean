import Sigillo.SessionStates

/-!
# Runs of the watch

A job's writes are settled when it begins. They are in order then, and what comes between does not change
that, other than by deleting their system, after which none of them is written: so at its turn every write
finds its session in the state it was settled for (**`WatchWorld.consistent_step`**). -/

namespace Sigillo

open DoubleArith Utf16Text JsonText JsonSchema HexBase64 IsoTime Fallible

variable {c : Crypto} {u : Unicode} {key : WriterKey} {options : ConnectionWatchOptions}

-- ── What a write leaves ──────────────────────────────────────────────────────────

theorem reconcileNow_left {s s' : Store} {systemId : SystemId} {view : SignerView}
    {result : Except StoreError ReconcileOutcome} (h : reconcileNow c key s systemId view = (s', result)) :
    s'.db.connections = s.db.connections ∧ ∃ taken : List Receipt,
      s'.history = s.history ++ taken.map .tookBack ∧ ∀ r ∈ taken, view.Brings c s r := by
  have hcases : Reconciles c key s systemId view (reconcileNow c key s systemId view) :=
    reconcileNow_reconciles s systemId view
  rw [h] at hcases
  have hnone : s.history = s.history ++ ([] : List Receipt).map .tookBack ∧
      ∀ r ∈ ([] : List Receipt), view.Brings c s r :=
    ⟨(List.append_nil _).symm, fun r hr => absurd hr List.not_mem_nil⟩
  cases hcases with
  | failed e => exact ⟨rfl, [], hnone⟩
  | inSync => exact ⟨rfl, [], hnone⟩
  | diverged detail =>
      rw [recordDivergence]
      split
      · exact ⟨rfl, [], hnone⟩
      · exact ⟨rfl, [], hnone⟩
  | recovered head taken db ahead missing restored =>
      refine ⟨?_, taken, rfl, brings_of_missing ahead missing (restores_of_foldlM restored)⟩
      show db.connections = _
      rw [(restores_of_foldlM restored).rest]

theorem attemptReceipt_saves {s s' : Store} {event : ChainEvent} (hspan : event.source.traceId = none)
    {row : ConnectionRow} {attempt : Attempt} {r : Receipt}
    (h : attemptReceipt c u key s event .continuation (fun db => .ok (saveConnection row db)) attempt = (s', .ok r)) :
    s'.db.connections = savedConnections row s.db.connections ∧
      ∃ prepared, s'.history = s.history ++ [.wrote event prepared r] := by
  obtain ⟨prepared, db, hwrites, hdb, hhistory⟩ := attemptReceipt_saved hspan h
  refine ⟨?_, prepared, hhistory⟩
  rw [hdb, saveConnection_eq, hwrites.db_eq]
  rfl

/-- **A session is saved with the receipt of its change**, after what its chain took back. -/
theorem writeReceipt_saves {s s' : Store} {event : ChainEvent} (hspan : event.source.traceId = none)
    {row : ConnectionRow} {replies : SignerReplies} {r : Receipt}
    (h : writeReceipt c u key s event .continuation (fun db => .ok (saveConnection row db)) replies = (s', .ok r)) :
    s'.db.connections = savedConnections row s.db.connections ∧
      ∃ (taken : List Receipt) (prepared : Prepared),
        s'.history = s.history ++ (taken.map .tookBack ++ [.wrote event prepared r]) ∧
        ∀ r ∈ taken, replies.view.Brings c s r := by
  rw [writeReceipt] at h
  cases hfirst : attemptReceipt c u key s event .continuation (fun db => .ok (saveConnection row db)) replies.first with
  | mk s₁ result =>
      rw [hfirst] at h
      cases result with
      | ok receipt =>
          obtain ⟨rfl, hr⟩ := Prod.mk.inj h
          obtain rfl := Except.ok.inj hr
          obtain ⟨hsaved, prepared, hhistory⟩ := attemptReceipt_saves hspan hfirst
          exact ⟨hsaved, [], prepared, hhistory, fun r hr => absurd hr List.not_mem_nil⟩
      | error e =>
          obtain ⟨rfl, -⟩ := attemptReceipt_error hfirst
          split at h
          · rename_i s₂ message heq
            obtain ⟨rfl, -⟩ := Prod.mk.inj heq
            cases hview : reconcileNow c key s₁ event.systemId replies.view with
            | mk s₃ outcome =>
                rw [hview] at h
                obtain ⟨hconnections, taken, htaken, hbrings⟩ := reconcileNow_left hview
                cases outcome with
                | error e => cases (Prod.mk.inj h).2
                | ok outcome =>
                    cases outcome with
                    | inSync => cases (Prod.mk.inj h).2
                    | diverged detail => cases (Prod.mk.inj h).2
                    | recovered seq hash count =>
                        obtain ⟨hsaved, prepared, hhistory⟩ := attemptReceipt_saves hspan h
                        refine ⟨hsaved.trans (congrArg _ hconnections), taken, prepared, ?_, hbrings⟩
                        rw [hhistory, htaken, List.append_assoc]
          · cases (Prod.mk.inj h).2

/-- What fails saves nothing. -/
theorem writeReceipt_fails {s s' : Store} {event : ChainEvent} {row : ConnectionRow} {replies : SignerReplies}
    {e : StoreError}
    (h : writeReceipt c u key s event .continuation (fun db => .ok (saveConnection row db)) replies = (s', .error e)) :
    s'.db.connections = s.db.connections ∧ ∃ taken : List Receipt,
      s'.history = s.history ++ taken.map .tookBack ∧ ∀ r ∈ taken, replies.view.Brings c s r := by
  rw [writeReceipt] at h
  cases hfirst : attemptReceipt c u key s event .continuation (fun db => .ok (saveConnection row db)) replies.first with
  | mk s₁ result =>
      rw [hfirst] at h
      cases result with
      | ok receipt => cases (Prod.mk.inj h).2
      | error e =>
          obtain ⟨rfl, -⟩ := attemptReceipt_error hfirst
          split at h
          · rename_i s₂ message heq
            obtain ⟨rfl, -⟩ := Prod.mk.inj heq
            cases hview : reconcileNow c key s₁ event.systemId replies.view with
            | mk s₃ outcome =>
                rw [hview] at h
                have hleft := reconcileNow_left hview
                cases outcome with
                | error e =>
                    obtain ⟨rfl, -⟩ := Prod.mk.inj h
                    exact hleft
                | ok outcome =>
                    cases outcome with
                    | inSync =>
                        obtain ⟨rfl, -⟩ := Prod.mk.inj h
                        exact hleft
                    | diverged detail =>
                        obtain ⟨rfl, -⟩ := Prod.mk.inj h
                        exact hleft
                    | recovered seq hash count =>
                        obtain ⟨rfl, -⟩ := attemptReceipt_error h
                        exact hleft
          · obtain ⟨rfl, -⟩ := Prod.mk.inj h
            exact ⟨rfl, [], (List.append_nil _).symm, fun r hr => absurd hr List.not_mem_nil⟩

namespace SessionWrite

variable {w : SessionWrite} {s s' : Store} {a : Answering}

/-- **An ordinary beat** is saved without a receipt. -/
theorem perform_plain (hnote : w.note = none) :
    w.perform c u key s a = ({ s with db := saveConnection w.row s.db }, .ok none) := by
  rw [perform, event, hnote]
  rfl

/-- **What a write that succeeds leaves.** -/
theorem perform_saves {note : ChangeNote} (hnote : w.note = some note) {written : Option Receipt}
    (h : w.perform c u key s a = (s', .ok written)) :
    ∃ r, written = some r ∧ s'.db.connections = savedConnections w.row s.db.connections ∧
      ∃ (taken : List Receipt) (prepared : Prepared), s'.history = s.history ++ (taken.map .tookBack ++
        [.wrote (note.change.event w.row.systemId note.tsEvent w.time note.outcome note.source) prepared r]) ∧
        ∀ r ∈ taken, a.replies.view.Brings c s r := by
  obtain ⟨r, rfl, hwrite⟩ := perform_noted hnote h
  exact ⟨r, rfl, writeReceipt_saves rfl hwrite⟩

/-- **A write that fails leaves the sessions aside.** -/
theorem perform_fails {e : StoreError} (h : w.perform c u key s a = (s', .error e)) :
    Aside (a.replies.view.Brings c s) s s' := by
  cases hnote : w.note with
  | none =>
      rw [perform_plain hnote] at h
      cases (Prod.mk.inj h).2
  | some note =>
      rcases perform_of_note hnote s a with ⟨e', he⟩ | heq
      · obtain ⟨rfl, -⟩ := Prod.mk.inj (he.symm.trans h)
        exact .refl _
      · obtain ⟨hstore, hresult⟩ := Prod.mk.inj (heq.symm.trans h)
        obtain ⟨hconnections, taken, hhistory, hbrings⟩ :=
          writeReceipt_fails (Prod.ext hstore (map_eq_error.mp hresult))
        refine .of_same hconnections hhistory (fun event prepared receipt hmem => ?_) (fun systemId hmem => ?_)
          fun r hmem => ?_
        · obtain ⟨r, -, heq⟩ := List.mem_map.mp hmem
          cases heq
        · obtain ⟨r, -, heq⟩ := List.mem_map.mp hmem
          cases heq
        · obtain ⟨r, hr, heq⟩ := List.mem_map.mp hmem
          exact Happening.tookBack.inj heq ▸ hbrings r hr

end SessionWrite

-- ── Writes in order ──────────────────────────────────────────────────────────────

section InOrder

variable (rule : Option ConnectionState → Change → Prop) (deleted : SystemId → Prop)

/-- A write that finds its session as it was settled for: a change is in order and leaves the state of its
    row, a beat without one finds it. -/
def SessionWrite.Finds (state : Option ConnectionState) (write : SessionWrite) : Prop :=
  match write.note with
  | none => state = some write.row.state
  | some note => rule state note.change ∧ note.change.leaves state = some write.row.state

/-- **A job in order**: each of its writes finds its session as the ones before it leave it, unless its system
    is deleted. -/
def InOrder : (SessionKey → Option ConnectionState) → List SessionWrite → Prop
  | _, [] => True
  | state, write :: rest =>
      (deleted write.row.systemId ∨ write.Finds rule (state write.row.key)) ∧
        InOrder (Function.update state write.row.key (some write.row.state)) rest

variable {rule deleted} {state state' : SessionKey → Option ConnectionState} {job : List SessionWrite}

/-- It stays in order when more systems are deleted, whatever state their sessions are taken to be in. -/
theorem InOrder.mono {deleted' : SystemId → Prop} (h : InOrder rule deleted state job)
    (hdeleted : ∀ systemId, deleted systemId → deleted' systemId)
    (hstate : ∀ session, ¬ deleted' session.1 → state' session = state session) : InOrder rule deleted' state' job := by
  induction job generalizing state state' with
  | nil => trivial
  | cons write rest ih =>
      refine ⟨?_, ih h.2 fun session hsession => ?_⟩
      · by_cases hgone : deleted' write.row.systemId
        · exact .inl hgone
        · rcases h.1 with hold | hfinds
          · exact absurd (hdeleted _ hold) hgone
          · exact .inr (hstate write.row.key hgone ▸ hfinds)
      · rw [Function.update_apply, Function.update_apply, hstate session hsession]

/-- Writes of different sessions do not wait for each other. -/
theorem inOrder_of_apart (hapart : (job.map fun write => write.row.key).Nodup)
    (h : ∀ write ∈ job, deleted write.row.systemId ∨ write.Finds rule (state write.row.key)) :
    InOrder rule deleted state job := by
  induction job generalizing state with
  | nil => trivial
  | cons write rest ih =>
      obtain ⟨hfirst, hapart⟩ := List.nodup_cons.mp hapart
      refine ⟨h write List.mem_cons_self, ih hapart fun other hother => ?_⟩
      have hother' := h other (List.mem_cons_of_mem _ hother)
      rw [Function.update_of_ne]
      · exact hother'
      · exact fun heq => hfirst (List.mem_map.mpr ⟨other, hother, heq⟩)

theorem inOrder_singleton {write : SessionWrite} (h : write.Finds rule (state write.row.key)) :
    InOrder rule deleted state [write] := ⟨.inr h, trivial⟩

end InOrder

-- ── What a session's receipts say ────────────────────────────────────────────────

/-- The session a receipt is of. -/
def Told.session (t : Told) : SessionKey := (t.systemId, t.sessionId)

namespace WatchWorld

/-- The changes the watch has written of a session, in their order. -/
def changesOf (w : WatchWorld) (session : SessionKey) : List Change :=
  (w.told.filter fun t => t.session = session).map (·.change)

/-- The state a session is in, by its receipts. -/
def stateTold (w : WatchWorld) (session : SessionKey) : Option ConnectionState := stateAfter (w.changesOf session)

/-- Whether a system was deleted. -/
def Deleted (w : WatchWorld) (systemId : SystemId) : Prop := .deletedChain systemId ∈ w.watch.store.history

/-- **The watch is as its receipts say**: the rows of the sessions in the states their receipts leave, every
    receipt in order when it came, and the job in order. -/
structure Consistent (rule : Option ConnectionState → Change → Prop) (w : WatchWorld) : Prop where
  buried : w.watch.store.Buried
  once : (w.watch.store.db.connections.map ConnectionRow.key).Nodup
  rows : ∀ session, ¬ w.Deleted session.1 → stateOf w.watch.store.db.connections session = w.stateTold session
  obeys : ∀ session, Obeys Change.leaves rule none (w.changesOf session)
  inOrder : InOrder rule w.Deleted w.stateTold w.job

variable {rule : Option ConnectionState → Change → Prop} {w : WatchWorld}

theorem consistent_fresh (key : WriterKey) (time : Timestamp) : (fresh key time).Consistent rule where
  buried := buried_fresh key
  once := List.nodup_nil
  rows := fun _ _ => rfl
  obeys := fun _ => trivial
  inOrder := trivial

theorem changesOf_append (w : WatchWorld) (t : Told) (session : SessionKey) {w' : WatchWorld}
    (h : w'.told = w.told ++ [t]) :
    w'.changesOf session = if t.session = session then w.changesOf session ++ [t.change] else w.changesOf session := by
  rw [changesOf, h, List.filter_append, List.map_append]
  by_cases hkey : t.session = session
  · rw [if_pos hkey, List.filter_cons_of_pos (by simpa using hkey)]
    rfl
  · rw [if_neg hkey, List.filter_cons_of_neg (by simpa using hkey)]
    exact List.append_nil _

theorem stateAfter_append (changes : List Change) (change : Change) :
    stateAfter (changes ++ [change]) = change.leaves (stateAfter changes) := by
  rw [stateAfter, List.foldl_append]
  rfl

/-- **What is not the watch's leaves it as its receipts say.** -/
theorem Consistent.aside (h : w.Consistent rule) {w' : WatchWorld} {allowed : Kind → Prop}
    {takes : Receipt → Prop} (hcommits : Commits c u key allowed w.watch.store w'.watch.store)
    (haside : Aside takes w.watch.store w'.watch.store) (htold : w'.told = w.told)
    (hjob : w'.job = w.job ∨ w'.job = []) : w'.Consistent rule := by
  obtain ⟨happened, hhistory, -, hgone, -⟩ := haside
  have hdeleted : ∀ systemId, w'.Deleted systemId ↔ w.Deleted systemId ∨ .deletedChain systemId ∈ happened := by
    intro systemId
    show _ ∈ w'.watch.store.history ↔ _
    rw [hhistory]
    exact List.mem_append
  have hstate : ∀ session, w'.stateTold session = w.stateTold session := by
    intro session
    rw [stateTold, changesOf, htold]
    rfl
  refine ⟨h.buried.commits hcommits, ?_, fun session hsession => ?_, fun session => ?_, ?_⟩
  · rw [hgone]
    exact h.once.sublist (List.filter_sublist.map _)
  · obtain ⟨hold, hnew⟩ := not_or.mp ((hdeleted session.1).not.mp hsession)
    have hkept : happened.any (Happening.deletes session.1) = false := Bool.not_eq_true _ ▸ deletes_iff.not.mpr hnew
    rw [hstate, hgone, stateOf, rowOf_filter (fun systemId => happened.any (Happening.deletes systemId)) hkept]
    exact h.rows session hold
  · rw [changesOf, htold]
    exact h.obeys session
  · rcases hjob with hjob | hjob
    · rw [hjob]
      exact h.inOrder.mono (fun systemId hold => (hdeleted systemId).mpr (.inl hold)) fun session _ => hstate session
    · rw [hjob]
      trivial

-- ── A write's turn ───────────────────────────────────────────────────────────────

/-- What a receipt adds to what is told. -/
theorem stateTold_append (w : WatchWorld) (t : Told) {w' : WatchWorld} (h : w'.told = w.told ++ [t]) :
    w'.stateTold = Function.update w.stateTold t.session (t.change.leaves (w.stateTold t.session)) := by
  funext session
  rw [stateTold, changesOf_append w t session h, Function.update_apply]
  by_cases hsession : t.session = session
  · rw [if_pos hsession, if_pos hsession.symm, stateAfter_append, hsession]
    rfl
  · rw [if_neg hsession, if_neg (Ne.symm hsession)]
    rfl

theorem obeys_changesOf_append (w : WatchWorld) (t : Told) {w' : WatchWorld} (h : w'.told = w.told ++ [t])
    (hobeys : ∀ session, Obeys Change.leaves rule none (w.changesOf session))
    (hrule : rule (w.stateTold t.session) t.change) (session : SessionKey) :
    Obeys Change.leaves rule none (w'.changesOf session) := by
  rw [changesOf_append w t session h]
  by_cases hsession : t.session = session
  · rw [if_pos hsession]
    refine obeys_append.mpr ⟨hobeys session, ?_, trivial⟩
    rw [← hsession]
    exact hrule
  · rw [if_neg hsession]
    exact hobeys session

/-- An ordinary beat is saved. -/
theorem Consistent.beat (h : w.Consistent rule) {write : SessionWrite} {rest : List SessionWrite}
    (hjob : w.job = write :: rest) (hnote : write.note = none) :
    Consistent rule { w.withStore { w.watch.store with db := saveConnection write.row w.watch.store.db } with
      job := rest } := by
  have horder := h.inOrder
  rw [hjob] at horder
  obtain ⟨hfirst, hrest⟩ := horder
  have hfinds : ¬ w.Deleted write.row.systemId → w.stateTold write.row.key = some write.row.state := by
    intro hnot
    have hfinds := hfirst.resolve_left hnot
    rw [SessionWrite.Finds, hnote] at hfinds
    exact hfinds
  have hconnections : (saveConnection write.row w.watch.store.db).connections
      = savedConnections write.row w.watch.store.db.connections := by rw [saveConnection_eq]
  refine ⟨?_, ?_, fun session hsession => ?_, h.obeys, hrest.mono (fun _ hold => hold) fun session hsession => ?_⟩
  · show Store.Buried { w.watch.store with db := saveConnection write.row w.watch.store.db }
    rw [saveConnection_eq]
    exact h.buried
  · show ((saveConnection _ _).connections.map _).Nodup
    rw [hconnections]
    exact keys_saved h.once
  · show stateOf (saveConnection _ _).connections session = w.stateTold session
    rw [hconnections, stateOf_saved]
    by_cases hkey : session = write.row.key
    · subst hkey
      rw [if_pos rfl]
      exact (hfinds hsession).symm
    · rw [if_neg hkey]
      exact h.rows session hsession
  · rw [Function.update_apply]
    by_cases hkey : session = write.row.key
    · subst hkey
      rw [if_pos rfl]
      exact hfinds hsession
    · rw [if_neg hkey]
      rfl

/-- A change is saved with its receipt. -/
theorem Consistent.change (h : w.Consistent rule) {write : SessionWrite} {rest : List SessionWrite} {note : ChangeNote}
    {a : Answering} {store : Store} {r : Receipt} (hjob : w.job = write :: rest) (hnote : write.note = some note)
    (hperform : write.perform c u key w.watch.store a = (store, .ok (some r)))
    (hcommits : Commits c u key Kind.IsOrdinary w.watch.store store)
    (hconnections : store.db.connections = savedConnections write.row w.watch.store.db.connections)
    {taken : List Receipt} {prepared : Prepared} (hhistory : store.history = w.watch.store.history ++
      (taken.map .tookBack ++ [.wrote (note.change.event write.row.systemId note.tsEvent write.time note.outcome
        note.source) prepared r])) :
    Consistent rule { w.withStore store with
      job := rest, told := w.told ++ [⟨write.row.systemId, write.row.sessionId, note.change, r⟩] } := by
  have horder := h.inOrder
  rw [hjob] at horder
  obtain ⟨hfirst, hrest⟩ := horder
  have hburied := h.buried.commits hcommits
  -- nothing is written of a deleted system
  have hfinds : write.Finds rule (w.stateTold write.row.key) := by
    refine hfirst.resolve_left fun hgone => ?_
    obtain ⟨_, hr, hwrite⟩ := SessionWrite.perform_noted hnote hperform
    obtain rfl := Option.some.inj hr
    obtain ⟨hsaid, hrow, -⟩ := writeReceipt_saved rfl hwrite
    refine (hburied write.row.systemId ?_).2 _ hrow hsaid.systemId
    rw [hhistory]
    exact List.mem_append_left _ hgone
  rw [SessionWrite.Finds, hnote] at hfinds
  obtain ⟨hrule, hleaves⟩ := hfinds
  let w' : WatchWorld := { w.withStore store with
    job := rest, told := w.told ++ [⟨write.row.systemId, write.row.sessionId, note.change, r⟩] }
  have hstate : w'.stateTold = Function.update w.stateTold write.row.key (some write.row.state) := by
    rw [stateTold_append w ⟨write.row.systemId, write.row.sessionId, note.change, r⟩ rfl]
    show Function.update w.stateTold write.row.key (note.change.leaves (w.stateTold write.row.key)) = _
    rw [hleaves]
  have hstill : ∀ systemId, w.Deleted systemId → w'.Deleted systemId := by
    intro systemId hmem
    show _ ∈ store.history
    rw [hhistory]
    exact List.mem_append_left _ hmem
  refine ⟨hburied, ?_, fun session hsession => ?_, obeys_changesOf_append w _ rfl h.obeys hrule, ?_⟩
  · show (store.db.connections.map _).Nodup
    rw [hconnections]
    exact keys_saved h.once
  · show stateOf store.db.connections session = w'.stateTold session
    rw [hconnections, stateOf_saved, hstate, Function.update_apply, h.rows session fun hmem => hsession (hstill _ hmem)]
  · exact hrest.mono hstill fun session _ => congrFun hstate session

/-- **A write's turn keeps the watch as its receipts say.** -/
theorem Consistent.write (h : w.Consistent rule) (a : Answering) : (w.writeTurn c u key a).Consistent rule := by
  cases hjob : w.job with
  | nil =>
      have hsame : w.writeTurn c u key a = w := by
        unfold writeTurn
        rw [hjob]
      rwa [hsame]
  | cons write rest =>
      have hcommits : Commits c u key Kind.IsOrdinary w.watch.store (write.perform c u key w.watch.store a).1 :=
        write.perform_commits w.watch.store a
      cases hperform : write.perform c u key w.watch.store a with
      | mk store result =>
          rw [hperform] at hcommits
          cases result with
          | error e =>
              rw [writeTurn_error hjob hperform]
              exact h.aside hcommits (SessionWrite.perform_fails hperform) rfl (.inr rfl)
          | ok written =>
              rw [writeTurn_ok hjob hperform]
              cases hnote : write.note with
              | none =>
                  rw [SessionWrite.perform_plain hnote] at hperform
                  obtain ⟨rfl, -⟩ := Prod.mk.inj hperform
                  have hbeat := h.beat hjob hnote
                  have htold : toldOf write written = [] := by
                    unfold toldOf
                    rw [hnote]
                  rw [htold, List.append_nil]
                  exact hbeat
              | some note =>
                  obtain ⟨r, rfl, hconnections, taken, prepared, hhistory, -⟩ :=
                    SessionWrite.perform_saves hnote hperform
                  have htold : toldOf write (some r) = [⟨write.row.systemId, write.row.sessionId, note.change, r⟩] := by
                    unfold toldOf
                    rw [hnote]
                  rw [htold]
                  exact h.change hjob hnote hperform hcommits hconnections hhistory

-- ── A turn ───────────────────────────────────────────────────────────────────────

/-- A job that is in order when it begins. -/
theorem Consistent.settle (h : w.Consistent rule) {w' : WatchWorld} (hstore : w'.watch.store = w.watch.store)
    (htold : w'.told = w.told) (hjob : InOrder rule w.Deleted w.stateTold w'.job) : w'.Consistent rule := by
  have hchanges : ∀ session, w'.changesOf session = w.changesOf session := by
    intro session
    rw [changesOf, htold]
    rfl
  have hstate : w'.stateTold = w.stateTold := by
    funext session
    rw [stateTold, hchanges]
    rfl
  have hdeleted : w'.Deleted = w.Deleted := by
    funext systemId
    rw [Deleted, hstore]
    rfl
  refine ⟨hstore ▸ h.buried, hstore ▸ h.once, fun session hsession => ?_, fun session => ?_, ?_⟩
  · rw [hstore, hstate]
    exact h.rows session (hdeleted ▸ hsession)
  · rw [hchanges]
    exact h.obeys session
  · rw [hdeleted, hstate]
    exact hjob

/-- A session's row is in the state its receipts say. -/
theorem Consistent.stateTold_of_row (h : w.Consistent rule) {row : ConnectionRow}
    (hrow : row ∈ w.watch.store.db.connections) (hnot : ¬ w.Deleted row.systemId) :
    w.stateTold row.key = some row.state := by
  rw [← h.rows row.key hnot, stateOf, rowOf_of_mem h.once hrow]
  rfl

/-- **The losses of a sweep are in order.** -/
theorem Consistent.sweep (h : w.Consistent rule) (hrule : rule (some .«open») .lost) {sessions : List ConnectionRow}
    (hlisted : w.watch.store.db.ListsOpenConnections sessions) (lostAfterMs : ℤ) (time : Timestamp) :
    Consistent rule { w with job := sweepWrites lostAfterMs w.since time sessions } := by
  refine h.settle rfl rfl ?_
  show InOrder rule w.Deleted w.stateTold (sweepWrites lostAfterMs w.since time sessions)
  rw [sweepWrites]
  split
  · trivial
  · have hsilent : (silentPast lostAfterMs time sessions).Sublist sessions := List.filter_sublist
    have hopen : ∀ session ∈ silentPast lostAfterMs time sessions,
        session ∈ w.watch.store.db.connections ∧ session.state = .«open» := by
      intro session hsession
      obtain ⟨hmem, hstate⟩ := List.mem_filter.mp (hlisted.mem_iff.mp (hsilent.mem hsession))
      exact ⟨hmem, beq_iff_eq.mp hstate⟩
    refine inOrder_of_apart ?_ fun write hwrite => ?_
    · have hkeys : ((silentPast lostAfterMs time sessions).map ConnectionRow.key).Nodup := by
        refine List.Nodup.sublist (hsilent.map _) ?_
        rw [(hlisted.map _).nodup_iff]
        exact h.once.sublist (List.filter_sublist.map _)
      rw [List.map_map]
      exact hkeys
    · obtain ⟨session, hsession, rfl⟩ := List.mem_map.mp hwrite
      obtain ⟨hmem, hstate⟩ := hopen session hsession
      by_cases hgone : w.Deleted session.systemId
      · exact .inl hgone
      · refine .inr ?_
        have htold : w.stateTold session.key = some .«open» := by rw [h.stateTold_of_row hmem hgone, hstate]
        show rule (w.stateTold session.key) .lost ∧ _
        rw [htold]
        exact ⟨hrule, rfl⟩

end WatchWorld

/-- The session a heartbeat is of. -/
def Heartbeat.session (h : Heartbeat) : SessionKey := (h.systemId, h.sessionId)

/-- A rule that allows every change but a stop and a restoration. -/
def Permits (rule : Option ConnectionState → Change → Prop) : Prop :=
  ∀ before change, Change.Moves before change → change ≠ .stop → change ≠ .restored → rule before change

/-- **A rule allows a heartbeat** of a session that is known so. -/
structure Heartbeat.Allowed (rule : Option ConnectionState → Change → Prop) (h : Heartbeat)
    (known : Option ConnectionState) : Prop where
  stop : h.event = .stop → Change.stop.Moves known → rule known .stop
  restored : h.event = .start ∨ h.event = .beat → ∀ state, known = some state → state ≠ .«open» →
    rule (some state) .restored

namespace Heartbeat

variable {rule : Option ConnectionState → Change → Prop} {deleted : SystemId → Prop} {h : Heartbeat}
  {state : SessionKey → Option ConnectionState} {readBoot : BootReader} {time : Timestamp}

/-- What is due with a start finds the session open. -/
theorem inOrder_dueWithStart (hrule : Permits rule) (hstate : state h.session = some .«open»)
    (sessions : List ConnectionRow) : InOrder rule deleted state (h.dueWithStart readBoot time sessions) := by
  have hopen : Function.update state h.session (some .«open») = state := by
    rw [← hstate]
    exact Function.update_eq_self ..
  have hdue : ∀ {change : Change} {tsEvent : JsString} {outcome : Outcome},
      change = .powerOff ∨ change = .scriptChanged →
      (h.noted time none .«open» false change tsEvent outcome).Finds rule (state h.session) := by
    rintro change tsEvent outcome (rfl | rfl)
    · exact ⟨hrule _ _ hstate (fun h => nomatch h) (fun h => nomatch h), rfl⟩
    · exact ⟨hrule _ _ hstate (fun h => nomatch h) (fun h => nomatch h), rfl⟩
  have hscript : InOrder rule deleted state (if h.scriptReplaced sessions then
      [h.noted time none .«open» false .scriptChanged time.1 .error] else []) := by
    split
    · exact inOrder_singleton (hdue (.inr rfl))
    · trivial
  rw [dueWithStart]
  cases h.poweredOff readBoot sessions with
  | none => exact hscript
  | some previous =>
      refine ⟨.inr (hdue (.inl rfl)), ?_⟩
      show InOrder rule deleted (Function.update state h.session (some .«open»)) _
      rw [hopen]
      exact hscript

/-- The first heartbeat of a session. -/
theorem inOrder_first (hrule : Permits rule) (hstate : state h.session = none) (sessions : List ConnectionRow) :
    InOrder rule deleted state
      (h.noted time none .«open» false .start time.1 .ok :: h.dueWithStart readBoot time sessions) := by
  refine ⟨.inr ?_, inOrder_dueWithStart hrule ?_ sessions⟩
  · show rule (state h.session) .start ∧ _
    exact ⟨hrule _ _ hstate (fun h => nomatch h) (fun h => nomatch h), rfl⟩
  · exact Function.update_self ..

/-- A later one. -/
theorem inOrder_again (hrule : Permits rule) {known : ConnectionRow}
    (hstate : state h.session = some known.state)
    (hrestored : known.state ≠ .«open» → rule (some known.state) .restored) :
    InOrder rule deleted state
      (let restored := if known.state ≠ .«open» then
          [h.noted time (some known) .«open» known.scriptChanged .restored time.1 .ok] else []
        if h.scriptMoved known then
          restored ++ [h.noted time (some known) .«open» true .scriptChanged time.1 .error]
        else if restored = [] then [⟨h.row time (some known) .«open» known.scriptChanged, none, time⟩]
        else restored) := by
  have hmoved : ∀ {state' : SessionKey → Option ConnectionState}, state' h.session = some .«open» →
      InOrder rule deleted state' [h.noted time (some known) .«open» true .scriptChanged time.1 .error] := by
    intro state' hopen
    exact inOrder_singleton ⟨hrule _ _ hopen (fun h => nomatch h) (fun h => nomatch h), rfl⟩
  by_cases hopen : known.state = .«open»
  · rw [hopen] at hstate
    dsimp only
    rw [if_neg (not_not.mpr hopen), List.nil_append, if_pos rfl]
    split
    · exact hmoved hstate
    · exact inOrder_singleton hstate
  · have hfirst : (h.noted time (some known) .«open» known.scriptChanged .restored time.1 .ok).Finds rule
        (state h.session) := by
      refine ⟨?_, rfl⟩
      rw [hstate]
      exact hrestored hopen
    dsimp only
    rw [if_pos hopen, if_neg (List.cons_ne_nil _ _)]
    split
    · exact ⟨.inr hfirst, hmoved (Function.update_self ..)⟩
    · exact ⟨.inr hfirst, trivial⟩

/-- **What a heartbeat is to write is in order.** -/
theorem inOrder_writes (hrule : Permits rule) {known : Option ConnectionRow}
    (hallowed : h.Allowed rule (known.map (·.state))) (hknown : ∀ row ∈ known, row.key = h.session)
    (hstate : state h.session = known.map (·.state)) (sessions : List ConnectionRow) :
    InOrder rule deleted state (h.writes readBoot time known sessions) := by
  have hbeat : h.event = .start ∨ h.event = .beat →
      ∀ k, known = some k → k.state ≠ .«open» → rule (some k.state) .restored := by
    rintro hevent k rfl hopen
    exact hallowed.restored hevent k.state rfl hopen
  unfold writes
  cases hevent : h.event with
  | ping => trivial
  | gap g => trivial
  | ended =>
      cases known with
      | none => trivial
      | some k =>
          dsimp only
          split
          · rename_i hopen
            have hfinds : rule (state k.key) .ended ∧ Change.ended.leaves (state k.key) = some .lost := by
              rw [hknown k rfl, hstate, Option.map_some, hopen]
              exact ⟨hrule _ _ rfl (fun h => nomatch h) (fun h => nomatch h), rfl⟩
            exact inOrder_singleton hfinds
          · trivial
  | stop =>
      dsimp only
      split
      · trivial
      · rename_i hclosed
        refine inOrder_singleton ⟨?_, rfl⟩
        show rule (state h.session) .stop
        rw [hstate]
        refine hallowed.stop hevent fun heq => hclosed ?_
        obtain ⟨k, rfl, hk⟩ := Option.map_eq_some_iff.mp heq
        rw [Option.any_some, hk]
        rfl
  | start =>
      cases known with
      | none => exact inOrder_first hrule hstate sessions
      | some k => exact inOrder_again hrule hstate (hbeat (.inl hevent) k rfl)
  | beat =>
      cases known with
      | none => exact inOrder_first hrule hstate sessions
      | some k => exact inOrder_again hrule hstate (hbeat (.inr hevent) k rfl)

end Heartbeat

namespace WatchWorld

variable {rule : Option ConnectionState → Change → Prop} {w : WatchWorld}

/-- A gap finds its session open or lost. -/
theorem Consistent.gap (h : w.Consistent rule) (hrule : Permits rule) {session : SessionKey} (gap : Option Gap)
    (time : Timestamp) :
    (w.gapTurn (rowOf w.watch.store.db.connections session) gap time).Consistent rule := by
  cases hknown : rowOf w.watch.store.db.connections session with
  | none => exact h
  | some known =>
      cases gap with
      | none => exact h
      | some gap =>
          unfold gapTurn
          dsimp only
          split
          · exact h
          · rename_i hfree
            refine h.settle rfl rfl ⟨?_, trivial⟩
            by_cases hgone : w.Deleted known.systemId
            · exact .inl hgone
            · refine .inr ?_
              have htold := h.stateTold_of_row (rowOf_some hknown).1 hgone
              have hopen : w.stateTold known.key = some .«open» ∨ w.stateTold known.key = some .lost := by
                rw [htold]
                cases hstate : known.state with
                | «open» => exact .inl rfl
                | lost => exact .inr rfl
                | closed => exact absurd (.inl hstate) hfree
              show rule (w.stateTold known.key) gap.kind.change ∧ gap.kind.change.leaves (w.stateTold known.key) = _
              cases gap.kind with
              | sleep => exact ⟨hrule _ _ hopen (fun h => nomatch h) (fun h => nomatch h), htold⟩
              | offline => exact ⟨hrule _ _ hopen (fun h => nomatch h) (fun h => nomatch h), htold⟩

/-- The job of a heartbeat is in order. -/
theorem Consistent.beats (h : w.Consistent rule) (hrule : Permits rule) {hb : Heartbeat}
    (hallowed : hb.Allowed rule (stateOf w.watch.store.db.connections hb.session)) (readBoot : BootReader)
    (time : Timestamp) (sessions : List ConnectionRow) : InOrder rule w.Deleted w.stateTold
      (hb.writes readBoot time (rowOf w.watch.store.db.connections hb.session) sessions) := by
  have horder : InOrder rule w.Deleted
      (Function.update w.stateTold hb.session (stateOf w.watch.store.db.connections hb.session))
      (hb.writes readBoot time (rowOf w.watch.store.db.connections hb.session) sessions) :=
    Heartbeat.inOrder_writes hrule hallowed (fun row hrow => (rowOf_some hrow).2) (Function.update_self ..) sessions
  refine horder.mono (fun _ hold => hold) fun session hsession => ?_
  rw [Function.update_apply]
  by_cases hsame : session = hb.session
  · subst hsame
    rw [if_pos rfl]
    exact (h.rows hb.session hsession).symm
  · rw [if_neg hsame]

/-- The system may open this session now, or has it. -/
def Admits (options : ConnectionWatchOptions) (w : WatchWorld) (hb : Heartbeat) (time : Timestamp) : Prop :=
  hb.opens (rowOf w.watch.store.db.connections hb.session) = true →
    (w.openedLately hb.systemId (dateParse time)).length < options.maxNewSessionsPerHour

/-- **A heartbeat's turn keeps the watch as its receipts say.** -/
theorem Consistent.heartbeat (h : w.Consistent rule) (hrule : Permits rule) {hb : Heartbeat} {time : Timestamp}
    (hallowed : w.Admits options hb time → hb.Allowed rule (stateOf w.watch.store.db.connections hb.session))
    (sessions : List ConnectionRow) : (w.heartbeatTurn options hb sessions time).Consistent rule := by
  have hwrites : ∀ opened, w.Admits options hb time → Consistent rule { w with
      opened, job := hb.writes options.readBoot time (rowOf w.watch.store.db.connections hb.session) sessions } :=
    fun opened hadmits => h.settle rfl rfl (h.beats hrule (hallowed hadmits) _ time sessions)
  have hturn : Consistent rule (if hb.opens (rowOf w.watch.store.db.connections hb.session) then
      if options.maxNewSessionsPerHour ≤ (w.openedLately hb.systemId (dateParse time)).length then
        { w with opened := AssocList.set w.opened hb.systemId (w.openedLately hb.systemId (dateParse time)) }
      else
        { w with
          opened := AssocList.set w.opened hb.systemId (w.openedLately hb.systemId (dateParse time) ++ [dateParse time])
          job := hb.writes options.readBoot time (rowOf w.watch.store.db.connections hb.session) sessions }
      else { w with
        job := hb.writes options.readBoot time (rowOf w.watch.store.db.connections hb.session) sessions }) := by
    split
    · split
      · exact h.settle rfl rfl h.inOrder
      · rename_i hroom
        exact hwrites _ fun _ => Nat.lt_of_not_le hroom
    · rename_i hopens
      exact hwrites _ fun hopen => absurd hopen hopens
  unfold heartbeatTurn
  cases hevent : hb.event with
  | gap gap =>
      have hgap : (w.gapTurn (rowOf w.watch.store.db.connections hb.session) gap time).Consistent rule :=
        h.gap hrule gap time
      exact hgap
  | start => exact hturn
  | beat => exact hturn
  | stop => exact hturn
  | ended => exact hturn
  | ping => exact hturn

/-- **A step a rule allows**: a heartbeat that is in order by it, and nothing of the watch's done by others. -/
def Allows (options : ConnectionWatchOptions) (rule : Option ConnectionState → Change → Prop) (w : WatchWorld) :
    WatchStep → Prop
  | .heartbeat hb _ time =>
      w.Admits options hb time → hb.Allowed rule (stateOf w.watch.store.db.connections hb.session)
  | .store op => op.IsOther
  | _ => True

/-- **A step keeps the watch as its receipts say.** -/
theorem consistent_step (hrule : Permits rule) (h : w.Consistent rule) {x : WatchStep}
    (hx : w.Allows options rule x) : (w.step c u key options x).Consistent rule := by
  cases x with
  | heartbeat hb sessions time =>
      show WatchWorld.Consistent rule (if _ then _ else _)
      split
      · exact h.heartbeat hrule hx sessions
      · exact h
  | sweep sessions time =>
      show WatchWorld.Consistent rule (if _ then _ else _)
      split
      · rename_i hturn
        exact h.sweep (hrule _ _ rfl (fun h => nomatch h) (fun h => nomatch h)) hturn.2 _ time
      · exact h
  | write a => exact h.write a
  | store op =>
      have hcommits : Commits c u key op.Allows w.watch.store (perform c u key w.watch.store op) :=
        perform_commits w.watch.store op
      exact h.aside hcommits (perform_aside w.watch.store hx) rfl (.inl rfl)
  | restart time =>
      have haside : Aside _ w.watch.store (perform c u key w.watch.store .reopen) :=
        perform_aside w.watch.store trivial
      have hcommits : Commits c u key (Operation.Allows .reopen) w.watch.store (perform c u key w.watch.store .reopen) :=
        perform_commits w.watch.store .reopen
      exact h.aside hcommits haside rfl (.inr rfl)

/-- **Every step of a run meets a condition**, in the world it is taken in. -/
def Meets (c : Crypto) (u : Unicode) (key : WriterKey) (options : ConnectionWatchOptions)
    (condition : WatchWorld → WatchStep → Prop) : WatchWorld → List WatchStep → Prop
  | _, [] => True
  | w, x :: rest => condition w x ∧ Meets c u key options condition (w.step c u key options x) rest

/-- **What every step keeps, a run keeps.** -/
theorem Meets.run_keeps {condition : WatchWorld → WatchStep → Prop} {P : WatchWorld → Prop}
    (hstep : ∀ w x, P w → condition w x → P (w.step c u key options x)) {steps : List WatchStep}
    (h : Meets c u key options condition w steps) (hw : P w) : P (w.run c u key options steps) := by
  induction steps generalizing w with
  | nil => exact hw
  | cons x rest ih => exact ih h.2 (hstep w x hw h.1)

/-- A run meets a condition where its parts do. -/
theorem meets_append {condition : WatchWorld → WatchStep → Prop} {before after : List WatchStep} :
    Meets c u key options condition w (before ++ after) ↔ Meets c u key options condition w before ∧
      Meets c u key options condition (w.run c u key options before) after := by
  induction before generalizing w with
  | nil => exact (true_and _).symm ▸ Iff.rfl
  | cons x rest ih =>
      show condition w x ∧ Meets c u key options condition _ (rest ++ after) ↔ _
      rw [ih, ← and_assoc]
      rfl

end WatchWorld

-- ── What a step tells ────────────────────────────────────────────────────────────

namespace WatchWorld

variable {w : WatchWorld}

theorem told_heartbeatTurn (w : WatchWorld) (h : Heartbeat) (sessions : List ConnectionRow) (time : Timestamp) :
    (w.heartbeatTurn options h sessions time).told = w.told := by
  unfold heartbeatTurn gapTurn
  dsimp only
  repeat' split
  all_goals rfl

/-- **What a step tells** is a write of the job that succeeds. -/
theorem told_step (w : WatchWorld) (x : WatchStep) : (w.step c u key options x).told = w.told ∨
    ∃ write rest note r a, w.job = write :: rest ∧ write.note = some note ∧ x = .write a ∧
      write.perform c u key w.watch.store a = ((w.step c u key options x).watch.store, .ok (some r)) ∧
      (w.step c u key options x).told = w.told ++ [⟨write.row.systemId, write.row.sessionId, note.change, r⟩] ∧
      (w.step c u key options x).job = rest := by
  cases x with
  | heartbeat h sessions time =>
      refine .inl ?_
      show WatchWorld.told (if _ then _ else _) = _
      split
      · exact told_heartbeatTurn w h sessions time
      · rfl
  | sweep sessions time =>
      refine .inl ?_
      show WatchWorld.told (if _ then _ else _) = _
      split
      · rfl
      · rfl
  | store op => exact .inl rfl
  | restart time => exact .inl rfl
  | write a =>
      show (w.writeTurn c u key a).told = _ ∨ ∃ write rest note r a', w.job = write :: rest ∧ write.note = some note ∧
        WatchStep.write a = .write a' ∧ write.perform c u key w.watch.store a' = ((w.writeTurn c u key a).watch.store, _) ∧
        (w.writeTurn c u key a).told = _ ∧ (w.writeTurn c u key a).job = rest
      cases hjob : w.job with
      | nil =>
          refine .inl ?_
          unfold writeTurn
          rw [hjob]
      | cons write rest =>
          cases hperform : write.perform c u key w.watch.store a with
          | mk store result =>
              cases result with
              | error e =>
                  rw [writeTurn_error hjob hperform]
                  exact .inl rfl
              | ok written =>
                  rw [writeTurn_ok hjob hperform]
                  cases hnote : write.note with
                  | none =>
                      refine .inl ?_
                      show w.told ++ toldOf write written = _
                      unfold toldOf
                      rw [hnote]
                      exact List.append_nil _
                  | some note =>
                      obtain ⟨r, rfl, -⟩ := SessionWrite.perform_noted hnote hperform
                      refine .inr ⟨write, rest, note, r, a, rfl, hnote, rfl, hperform, ?_, rfl⟩
                      show w.told ++ toldOf write (some r) = _
                      unfold toldOf
                      rw [hnote]

end WatchWorld

end Sigillo
