import Sigillo.SavedSessions

/-!
# What is due with a start

The first heartbeat of a session writes its start and then, one by one, what the start shows of the time
before it: that the computer was switched off, that another script runs. The session's row is saved with the
start, so a later heartbeat no longer sees what was due. In every run in which none of these later writes
fails, the chain holds all of them (**`opened_sessions`**). Once one fails nobody tells it any more
(**`script_untold`**). -/

namespace Sigillo

open DoubleArith Utf16Text JsonText JsonSchema HexBase64 IsoTime Fallible

variable {c : Crypto} {u : Unicode} {key : WriterKey} {options : ConnectionWatchOptions}

-- ── The first heartbeat of a session ─────────────────────────────────────────────

/-- **A change that may be written**: one that moves its session, which starts first. -/
def Change.Starts (before : Option ConnectionState) (change : Change) : Prop :=
  change.Moves before ∧ (before = none → change = .start)

theorem permits_starts : Permits Change.Starts := by
  intro before change hmoves hstop hrestored
  refine ⟨hmoves, ?_⟩
  rintro rfl
  cases change with
  | start => rfl
  | stop => exact absurd rfl hstop
  | restored => exact absurd rfl hrestored
  | sleep => rcases hmoves with h | h <;> cases h
  | offline => rcases hmoves with h | h <;> cases h
  | _ => cases hmoves

/-- What is due with a start, and comes after it. -/
def SessionWrite.isDue (write : SessionWrite) : Bool :=
  write.note.any fun note =>
    note.change == .powerOff || (note.change == .scriptChanged && !write.row.scriptChanged)

/-- A write that is of no session's opening. -/
def SessionWrite.isLater (write : SessionWrite) : Bool :=
  !write.isDue && !write.note.any fun note => note.change == .start

/-- **A write that is signed**: its event is in order, and the signer signs it, at once or once the chain took
    back what it was missing. -/
structure SessionWrite.Signed (c : Crypto) (u : Unicode) (key : WriterKey) (write : SessionWrite) (s : Store)
    (a : Answering) : Prop where
  inOrder : ∀ event ∈ write.event, refusedBefore c u key a.seen event a.checked = none
  signs : ∀ event ∈ write.event, SignsEvent c u key s event a.replies

/-- **What is signed is written.** -/
theorem SessionWrite.Signed.performed {write : SessionWrite} {s : Store} {a : Answering}
    (h : write.Signed c u key s a) (hs : Whole c s.db) : ∃ store r, write.perform c u key s a = (store, .ok r) := by
  cases hnote : write.note with
  | none => exact ⟨_, _, SessionWrite.perform_plain hnote⟩
  | some note =>
      have hevent : note.change.event write.row.systemId note.tsEvent write.time note.outcome note.source
          ∈ write.event := by
        rw [SessionWrite.event, hnote]
        rfl
      obtain ⟨store, r, hwrite⟩ : ∃ store r, writeReceipt c u key s _ .continuation
          (fun db => .ok (saveConnection write.row db)) a.replies = (store, .ok r) := (h.signs _ hevent).written hs
      refine ⟨store, some r, ?_⟩
      rw [SessionWrite.perform, SessionWrite.event, hnote, Option.map_some, Option.map_some, recordConnection,
        if_neg (not_not.mpr (Change.event_named _ _ _ _ _ _)), h.inOrder _ hevent, hwrite]

namespace Heartbeat

variable (readBoot : BootReader) (h : Heartbeat) (at_ : Timestamp) (sessions : List ConnectionRow)

/-- What the first heartbeat of a session is to write. -/
def firstWrites : List SessionWrite :=
  h.noted at_ none .«open» false .start at_.1 .ok :: h.dueWithStart readBoot at_ sessions

/-- The changes of these writes. -/
def changesDue : List Change := (h.firstWrites readBoot at_ sessions).filterMap fun write => write.note.map (·.change)

variable {readBoot h at_ sessions}

theorem writes_first (hevent : h.event = .start ∨ h.event = .beat) :
    h.writes readBoot at_ none sessions = h.firstWrites readBoot at_ sessions := by
  unfold writes
  rcases hevent with hevent | hevent
  · rw [hevent]
    rfl
  · rw [hevent]
    rfl

/-- The writes that are due find what they are of in their row. -/
theorem mem_dueWithStart {write : SessionWrite} (hmem : write ∈ h.dueWithStart readBoot at_ sessions) :
    write.isDue = true ∧ write.row.key = h.session ∧
      ∃ note, write.note = some note ∧ note.change ≠ .start := by
  rcases List.mem_append.mp hmem with hpower | hscript
  · obtain ⟨previous, -, rfl⟩ := Option.map_eq_some_iff.mp (Option.mem_toList.mp hpower)
    exact ⟨rfl, rfl, _, rfl, fun h => nomatch h⟩
  · split at hscript
    · obtain rfl := List.mem_singleton.mp hscript
      exact ⟨rfl, rfl, _, rfl, fun h => nomatch h⟩
    · cases hscript

theorem mem_firstWrites {write : SessionWrite} (hmem : write ∈ h.firstWrites readBoot at_ sessions) :
    write.isLater = false ∧ write.row.key = h.session ∧ ∃ note, write.note = some note := by
  rcases List.mem_cons.mp hmem with rfl | hdue
  · exact ⟨rfl, rfl, _, rfl⟩
  · obtain ⟨hisdue, hkey, note, hnote, -⟩ := mem_dueWithStart hdue
    refine ⟨?_, hkey, note, hnote⟩
    rw [SessionWrite.isLater, hisdue]
    rfl

/-- Every write of an opening but its first is due with it. -/
theorem isDue_drop {n : ℕ} {write : SessionWrite} {rest : List SessionWrite} (hn : 0 < n)
    (h' : (h.firstWrites readBoot at_ sessions).drop n = write :: rest) : write.isDue = true := by
  obtain ⟨n, rfl⟩ := Nat.exists_eq_add_of_lt hn
  rw [Nat.zero_add, firstWrites, List.drop_succ_cons] at h'
  exact (mem_dueWithStart (List.mem_of_mem_drop (h' ▸ List.mem_cons_self))).1

theorem changesDue_eq : h.changesDue readBoot at_ sessions
    = (h.firstWrites readBoot at_ sessions).map fun write => (write.note.map (·.change)).getD .start := by
  rw [changesDue]
  refine List.filterMap_eq_map_iff_forall_eq_some.mpr fun write hmem => ?_
  obtain ⟨-, -, note, hnote⟩ := mem_firstWrites hmem
  rw [hnote]
  rfl

/-- The changes of the first writes, up to the next one. -/
theorem changesDue_take {n : ℕ} {write : SessionWrite} {rest : List SessionWrite} {note : ChangeNote}
    (h' : (h.firstWrites readBoot at_ sessions).drop n = write :: rest) (hnote : write.note = some note) :
    (h.changesDue readBoot at_ sessions).take (n + 1)
      = (h.changesDue readBoot at_ sessions).take n ++ [note.change] := by
  rw [List.take_add_one, changesDue_eq, List.getElem?_map]
  have hget : (h.firstWrites readBoot at_ sessions)[n]? = some write := by
    rw [← List.head?_drop, h']
    rfl
  rw [hget, Option.map_some, hnote]
  rfl

theorem length_changesDue : (h.changesDue readBoot at_ sessions).length = (h.firstWrites readBoot at_ sessions).length := by
  rw [changesDue_eq, List.length_map]

/-- What a session that is known is to write is of no opening, nor is a stop. -/
theorem isLater_writes {known : Option ConnectionRow} (hknown : (h.event = .start ∨ h.event = .beat) → known ≠ none)
    {write : SessionWrite} (hmem : write ∈ h.writes readBoot at_ known sessions) : write.isLater = true := by
  have hbeat : ∀ k : ConnectionRow, write ∈ (let restored := if k.state ≠ .«open» then
          [h.noted at_ (some k) .«open» k.scriptChanged .restored at_.1 .ok] else []
        if h.scriptMoved k then
          restored ++ [h.noted at_ (some k) .«open» true .scriptChanged at_.1 .error]
        else if restored = [] then [⟨h.row at_ (some k) .«open» k.scriptChanged, none, at_⟩]
        else restored) → write.isLater = true := by
    intro k hmem
    dsimp only at hmem
    by_cases hopen : k.state = .«open»
    · rw [if_neg (not_not.mpr hopen), List.nil_append, if_pos rfl] at hmem
      split at hmem
      · rw [List.mem_singleton.mp hmem]
        rfl
      · rw [List.mem_singleton.mp hmem]
        rfl
    · rw [if_pos hopen, if_neg (List.cons_ne_nil _ _)] at hmem
      split at hmem
      · rcases List.mem_cons.mp hmem with rfl | hmem
        · rfl
        · rw [List.mem_singleton.mp hmem]
          rfl
      · rw [List.mem_singleton.mp hmem]
        rfl
  unfold writes at hmem
  cases hevent : h.event with
  | ping =>
      rw [hevent] at hmem
      cases hmem
  | gap g =>
      rw [hevent] at hmem
      cases hmem
  | ended =>
      rw [hevent] at hmem
      cases known with
      | none => cases hmem
      | some k =>
          dsimp only at hmem
          split at hmem
          · rw [List.mem_singleton.mp hmem]
            rfl
          · cases hmem
  | stop =>
      rw [hevent] at hmem
      dsimp only at hmem
      split at hmem
      · cases hmem
      · rw [List.mem_singleton.mp hmem]
        rfl
  | start =>
      rw [hevent] at hmem
      cases known with
      | none => exact absurd rfl (hknown (.inl hevent))
      | some k => exact hbeat k hmem
  | beat =>
      rw [hevent] at hmem
      cases known with
      | none => exact absurd rfl (hknown (.inr hevent))
      | some k => exact hbeat k hmem

end Heartbeat

-- ── Openings in a run ────────────────────────────────────────────────────────────

/-- **A heartbeat that opens its session**: the watch is at rest and has not heard of it, and its system may
    open one now. -/
structure WatchWorld.OpensBy (options : ConnectionWatchOptions) (w : WatchWorld) (hb : Heartbeat)
    (sessions : List ConnectionRow) (time : Timestamp) : Prop where
  idle : w.job = []
  listed : w.watch.store.db.ListsConnectionsOf hb.systemId sessions
  event : hb.event = .start ∨ hb.event = .beat
  unknown : rowOf w.watch.store.db.connections hb.session = none
  admitted : w.Admits options hb time

/-- A heartbeat of these steps that opened a session, and of which something holds. -/
def OpenedIn (c : Crypto) (u : Unicode) (key : WriterKey) (options : ConnectionWatchOptions) (w : WatchWorld)
    (steps : List WatchStep) (session : SessionKey) (P : Heartbeat → List ConnectionRow → Timestamp → Prop) : Prop :=
  ∃ before hb sessions time after, steps = before ++ .heartbeat hb sessions time :: after ∧ hb.session = session ∧
    (w.run c u key options before).OpensBy options hb sessions time ∧ P hb sessions time

theorem OpenedIn.more {w : WatchWorld} {steps : List WatchStep} {session : SessionKey}
    {P Q : Heartbeat → List ConnectionRow → Timestamp → Prop} (h : OpenedIn c u key options w steps session P)
    (himp : ∀ hb sessions time, hb.session = session → P hb sessions time → Q hb sessions time) (x : WatchStep) :
    OpenedIn c u key options w (steps ++ [x]) session Q := by
  obtain ⟨before, hb, sessions, time, after, rfl, hsession, hopens, hP⟩ := h
  exact ⟨before, hb, sessions, time, after ++ [x], by rw [List.append_assoc]; rfl, hsession, hopens,
    himp hb sessions time hsession hP⟩

namespace WatchWorld

/-- **What is due with the start is told**, once: the session starts only once, and a script that is replaced
    later, while it runs, is another change. -/
def TellsDue (options : ConnectionWatchOptions) (w : WatchWorld) (hb : Heartbeat) (sessions : List ConnectionRow)
    (time : Timestamp) : Prop :=
  ∃ rest, w.changesOf hb.session = hb.changesDue options.readBoot time sessions ++ rest ∧
    .start ∉ rest ∧ .powerOff ∉ rest

/-- The job is what is left of an opening after its first `n` writes. -/
structure Opening (options : ConnectionWatchOptions) (w : WatchWorld) (n : ℕ) (hb : Heartbeat)
    (sessions : List ConnectionRow) (time : Timestamp) : Prop where
  job : w.job = (hb.firstWrites options.readBoot time sessions).drop n
  left : n < (hb.firstWrites options.readBoot time sessions).length
  told : ¬ w.Deleted hb.systemId → w.changesOf hb.session = (hb.changesDue options.readBoot time sessions).take n

/-- **A step that loses nothing due with a start**: it keeps rows and receipts together, no session that was
    never heard of is stopped, and a write that is due is signed and not dropped with its process. -/
structure KeepsDue (c : Crypto) (u : Unicode) (key : WriterKey) (w : WatchWorld) (x : WatchStep) : Prop where
  together : w.SavesTogether c x
  stops : ∀ hb sessions time, x = .heartbeat hb sessions time → hb.event = .stop →
    rowOf w.watch.store.db.connections hb.session ≠ none
  writes : ∀ a write rest, x = .write a → w.job = write :: rest → write.isDue = true →
    write.Signed c u key w.watch.store a
  restarts : ∀ time write rest, x = .restart time → w.job = write :: rest → write.isDue = false

/-- What carries it from step to step, for the sessions not heard of in the world `w₀` the steps began in. -/
structure Opened (c : Crypto) (u : Unicode) (key : WriterKey) (options : ConnectionWatchOptions) (w₀ : WatchWorld)
    (steps : List WatchStep) (w : WatchWorld) : Prop where
  consistent : w.Consistent Change.Starts
  job : (∃ session n, OpenedIn c u key options w₀ steps session (w.Opening options n)) ∨
    ∀ write ∈ w.job, write.isLater = true
  sessions : ∀ session : SessionKey, w₀.changesOf session = [] → ¬ w.Deleted session.1 → w.changesOf session ≠ [] →
    (∃ n, 0 < n ∧ OpenedIn c u key options w₀ steps session (w.Opening options n)) ∨
      OpenedIn c u key options w₀ steps session (w.TellsDue options)

variable {w₀ w w' : WatchWorld} {steps : List WatchStep} {x : WatchStep}

theorem Opening.head {n : ℕ} {hb : Heartbeat} {sessions : List ConnectionRow} {time : Timestamp}
    (h : w.Opening options n hb sessions time) : ∃ write rest, w.job = write :: rest ∧ write.isLater = false ∧
      write.row.key = hb.session ∧ (0 < n → write.isDue = true) ∧
      rest = (hb.firstWrites options.readBoot time sessions).drop (n + 1) := by
  have hdrop := List.drop_eq_getElem_cons h.left
  obtain ⟨hlater, hkey, -⟩ := Heartbeat.mem_firstWrites (List.getElem_mem h.left)
  exact ⟨_, _, h.job.trans hdrop, hlater, hkey, fun hn => Heartbeat.isDue_drop hn hdrop, rfl⟩

/-- A job is of one opening, or of none. -/
theorem not_opening_of_later {n : ℕ} {hb : Heartbeat} {sessions : List ConnectionRow} {time : Timestamp}
    (hlater : ∀ write ∈ w.job, write.isLater = true) : ¬ w.Opening options n hb sessions time := by
  intro h
  obtain ⟨write, rest, hjob, hopening, -⟩ := h.head
  have hmem : write ∈ w.job := hjob ▸ List.mem_cons_self
  rw [hlater write hmem] at hopening
  cases hopening

/-- A deletion is never taken back. -/
theorem deleted_step (x : WatchStep) {systemId : SystemId} (h : w.Deleted systemId) :
    (w.step c u key options x).Deleted systemId := by
  obtain ⟨allowed, hcommits⟩ : ∃ allowed, Commits c u key allowed w.watch.store
      (w.step c u key options x).watch.store := w.step_commits x
  obtain ⟨happened, hhistory, -⟩ := receipts_of_history hcommits systemId fun _ => true
  show _ ∈ (w.step c u key options x).watch.store.history
  rw [hhistory]
  exact List.mem_append_left _ h

theorem allows_of_keepsDue (h : w.KeepsDue c u key x) : w.Allows options Change.Starts x := by
  cases x with
  | heartbeat hb sessions time =>
      refine fun _ => ⟨fun hevent hmoves => ⟨hmoves, fun hnone => ?_⟩, fun _ state hknown hopen => ?_⟩
      · exact absurd (Option.map_eq_none_iff.mp hnone) (h.stops hb sessions time rfl hevent)
      · cases state with
        | «open» => exact absurd rfl hopen
        | lost => exact ⟨.inl rfl, fun h => nomatch h⟩
        | closed => exact ⟨.inr rfl, fun h => nomatch h⟩
  | store op => exact h.together.others op rfl
  | sweep sessions time => trivial
  | write a => trivial
  | restart time => trivial

/-- **A step that tells nothing** leaves the openings, if what it drops of the job was not due. -/
theorem Opened.settle (h : Opened c u key options w₀ steps w) (hconsistent : w'.Consistent Change.Starts)
    (htold : w'.told = w.told) (hdeleted : ∀ systemId, w.Deleted systemId → w'.Deleted systemId)
    (hjob : w'.job = w.job ∨ (∀ write rest, w.job = write :: rest → write.isDue = false) ∧
      ((∃ session n, OpenedIn c u key options w₀ (steps ++ [x]) session (w'.Opening options n)) ∨
        ∀ write ∈ w'.job, write.isLater = true)) :
    Opened c u key options w₀ (steps ++ [x]) w' := by
  have hchanges : ∀ session, w'.changesOf session = w.changesOf session := by
    intro session
    rw [changesOf, htold]
    rfl
  have hopening : w'.job = w.job → ∀ {n hb sessions time}, w.Opening options n hb sessions time →
      w'.Opening options n hb sessions time := by
    intro hsame n hb sessions time hopening
    refine ⟨hsame.trans hopening.job, hopening.left, fun hnot => ?_⟩
    rw [hchanges]
    exact hopening.told fun hgone => hnot (hdeleted _ hgone)
  have htells : ∀ {hb sessions time}, w.TellsDue options hb sessions time → w'.TellsDue options hb sessions time := by
    intro hb sessions time htells
    rwa [TellsDue, hchanges]
  refine ⟨hconsistent, ?_, fun session hnew hlive htold => ?_⟩
  · rcases hjob with hsame | ⟨-, hjob⟩
    · rcases h.job with ⟨session, n, hin⟩ | hlater
      · exact .inl ⟨session, n, hin.more (fun _ _ _ _ => hopening hsame) x⟩
      · exact .inr (hsame ▸ hlater)
    · exact hjob
  · rw [hchanges] at htold
    rcases h.sessions session hnew (fun hgone => hlive (hdeleted _ hgone)) htold with ⟨n, hn, hin⟩ | hin
    · rcases hjob with hsame | ⟨hnotDue, -⟩
      · exact .inl ⟨n, hn, hin.more (fun _ _ _ _ => hopening hsame) x⟩
      · -- an opening that has begun has a write that is due
        obtain ⟨before, hb, sessions, time, after, -, -, -, hopen⟩ := hin
        obtain ⟨write, rest, hwrite, -, -, hdue, -⟩ := hopen.head
        have hfalse := hnotDue write rest hwrite
        rw [hdue hn] at hfalse
        cases hfalse
    · exact .inr (hin.more (fun _ _ _ _ => htells) x)

/-- **A write of the job that succeeds.** -/
theorem Opened.tell (h : Opened c u key options w₀ steps w) (hconsistent : w'.Consistent Change.Starts)
    {write : SessionWrite} {rest : List SessionWrite} {note : ChangeNote} {r : Receipt} (hjob : w.job = write :: rest)
    (hnote : write.note = some note)
    (htold : w'.told = w.told ++ [⟨write.row.systemId, write.row.sessionId, note.change, r⟩]) (hrest : w'.job = rest)
    (hdeleted : ∀ systemId, w.Deleted systemId → w'.Deleted systemId) :
    Opened c u key options w₀ (steps ++ [x]) w' := by
  have hchanges : ∀ session, w'.changesOf session
      = if write.row.key = session then w.changesOf session ++ [note.change] else w.changesOf session :=
    fun session => changesOf_append w _ session htold
  have hlive : ∀ {systemId}, ¬ w'.Deleted systemId → ¬ w.Deleted systemId := fun hnot hgone => hnot (hdeleted _ hgone)
  -- a session of another key is as it was
  have hother' : ∀ {hb sessions time}, write.row.key ≠ hb.session → w.TellsDue options hb sessions time →
      w'.TellsDue options hb sessions time := by
    intro hb sessions time hapart htells
    rwa [TellsDue, hchanges, if_neg hapart]
  rcases h.job with ⟨session, n, hin⟩ | hlater
  · obtain ⟨before, hb, sessions, time, after, hsteps, hsession, hopens, hopen⟩ := hin
    have hdrop : (hb.firstWrites options.readBoot time sessions).drop n = write :: rest := hopen.job.symm.trans hjob
    obtain ⟨write', rest', hjob', -, hkey, -, hleft⟩ := hopen.head
    obtain ⟨rfl, rfl⟩ := List.cons.inj (hjob.symm.trans hjob')
    have hmore : ∀ {P : Heartbeat → List ConnectionRow → Timestamp → Prop}, P hb sessions time →
        OpenedIn c u key options w₀ (steps ++ [x]) session P := fun hP =>
      ⟨before, hb, sessions, time, after ++ [x], by rw [hsteps, List.append_assoc]; rfl, hsession, hopens, hP⟩
    have hnext : ¬ w'.Deleted hb.systemId →
        w'.changesOf hb.session = (hb.changesDue options.readBoot time sessions).take (n + 1) := by
      intro hnot
      rw [hchanges, if_pos hkey, hopen.told (hlive hnot), Heartbeat.changesDue_take hdrop hnote]
    -- every other session has its opening behind it
    have hsettled : ∀ other : SessionKey, session ≠ other → w₀.changesOf other = [] → ¬ w'.Deleted other.1 →
        w'.changesOf other ≠ [] → OpenedIn c u key options w₀ (steps ++ [x]) other (w'.TellsDue options) := by
      intro other hapart hnew hnot htold
      rw [hchanges, if_neg (by rw [hkey, hsession]; exact hapart)] at htold
      rcases h.sessions other hnew (hlive hnot) htold with ⟨m, -, hin⟩ | hin
      · obtain ⟨before', hb', sessions', time', after', -, hother, -, hopen'⟩ := hin
        obtain ⟨write', rest', hjob', -, hkey', -⟩ := hopen'.head
        obtain ⟨rfl, -⟩ := List.cons.inj (hjob.symm.trans hjob')
        exact absurd (hsession.symm.trans (hkey.symm.trans (hkey'.trans hother))) hapart
      · refine hin.more (fun hb' _ _ hother htells => ?_) x
        refine hother' ?_ htells
        rw [hkey, hsession, hother]
        exact hapart
    by_cases hmany : n + 1 < (hb.firstWrites options.readBoot time sessions).length
    · have hgoes : w'.Opening options (n + 1) hb sessions time := ⟨hrest.trans hleft, hmany, hnext⟩
      refine ⟨hconsistent, .inl ⟨session, n + 1, hmore hgoes⟩, fun other hnew hnot htold => ?_⟩
      by_cases hsame : session = other
      · subst hsame
        exact .inl ⟨n + 1, Nat.succ_pos n, hmore hgoes⟩
      · exact .inr (hsettled other hsame hnew hnot htold)
    · have hall : n + 1 = (hb.firstWrites options.readBoot time sessions).length :=
        Nat.le_antisymm hopen.left (Nat.not_lt.mp hmany)
      have hdone : rest = [] := hleft.trans (List.drop_eq_nil_of_le hall.ge)
      refine ⟨hconsistent, .inr ?_, fun other hnew hnot htold => ?_⟩
      · rw [hrest, hdone]
        exact fun _ h => absurd h List.not_mem_nil
      · by_cases hsame : session = other
        · subst hsame
          refine .inr (hmore ⟨[], ?_, List.not_mem_nil, List.not_mem_nil⟩)
          rw [List.append_nil, hnext (by rw [← hsession] at hnot; exact hnot), hall, ← Heartbeat.length_changesDue,
            List.take_length]
        · exact .inr (hsettled other hsame hnew hnot htold)
  · have hmine : write.isLater = true := hlater write (hjob ▸ List.mem_cons_self)
    have hchange : note.change ≠ .start ∧ note.change ≠ .powerOff := by
      rw [SessionWrite.isLater, SessionWrite.isDue, hnote] at hmine
      constructor
      · intro heq
        rw [Option.any_some, Option.any_some, heq] at hmine
        cases hmine
      · intro heq
        rw [Option.any_some, Option.any_some, heq] at hmine
        cases hmine
    refine ⟨hconsistent, .inr ?_, fun session hnew hnot htold => ?_⟩
    · rw [hrest]
      exact fun other hmem => hlater other (hjob ▸ List.mem_cons_of_mem _ hmem)
    · have hprevious : w.changesOf session ≠ [] → OpenedIn c u key options w₀ steps session (w.TellsDue options) := by
        intro htold
        rcases h.sessions session hnew (hlive hnot) htold with ⟨m, -, before, hb, sessions, time, after, -, -, -, hopen⟩ | hin
        · exact absurd hopen (not_opening_of_later hlater)
        · exact hin
      rw [hchanges] at htold
      by_cases hkey : write.row.key = session
      · have hstarted : w.changesOf session ≠ [] := by
          intro hnone
          obtain ⟨hfirst, -⟩ : InOrder Change.Starts w.Deleted w.stateTold (write :: rest) := hjob ▸ h.consistent.inOrder
          rcases hfirst with hgone | hfinds
          · rw [← hkey] at hnot
            exact hlive hnot hgone
          · have hnone : w.stateTold write.row.key = none := by
              rw [stateTold, hkey, hnone]
              rfl
            rw [SessionWrite.Finds, hnote, hnone] at hfinds
            exact hchange.1 (hfinds.1.2 rfl)
        refine .inr ((hprevious hstarted).more (fun hb sessions time hsession htells => ?_) x)
        obtain ⟨rest', hwas, hstart, hpower⟩ := htells
        refine ⟨rest' ++ [note.change], ?_, fun hmem => ?_, fun hmem => ?_⟩
        · rw [hchanges, if_pos (hkey.trans hsession.symm), hwas, List.append_assoc]
        · rcases List.mem_append.mp hmem with hmem | hmem
          · exact hstart hmem
          · exact hchange.1 (List.mem_singleton.mp hmem).symm
        · rcases List.mem_append.mp hmem with hmem | hmem
          · exact hpower hmem
          · exact hchange.2 (List.mem_singleton.mp hmem).symm
      · rw [if_neg hkey] at htold
        exact .inr ((hprevious htold).more (fun hb _ _ hsession => hother' (by rw [hsession]; exact hkey)) x)

/-- What a heartbeat's turn comes to: a gap's, no room for another session, or the job it is to be. -/
theorem heartbeatTurn_cases (w : WatchWorld) (hb : Heartbeat) (sessions : List ConnectionRow) (time : Timestamp) :
    (∃ gap, w.heartbeatTurn options hb sessions time
        = w.gapTurn (rowOf w.watch.store.db.connections hb.session) gap time) ∨
      (∃ opened, w.heartbeatTurn options hb sessions time = { w with opened }) ∨
      w.Admits options hb time ∧ ∃ opened, w.heartbeatTurn options hb sessions time = { w with
        opened, job := hb.writes options.readBoot time (rowOf w.watch.store.db.connections hb.session) sessions } := by
  have hbeats : ∀ w', w' = (if hb.opens (rowOf w.watch.store.db.connections hb.session) then
        if options.maxNewSessionsPerHour ≤ (w.openedLately hb.systemId (dateParse time)).length then
          { w with opened := AssocList.set w.opened hb.systemId (w.openedLately hb.systemId (dateParse time)) }
        else
          { w with
            opened := AssocList.set w.opened hb.systemId
              (w.openedLately hb.systemId (dateParse time) ++ [dateParse time])
            job := hb.writes options.readBoot time (rowOf w.watch.store.db.connections hb.session) sessions }
        else { w with
          job := hb.writes options.readBoot time (rowOf w.watch.store.db.connections hb.session) sessions }) →
      (∃ gap, w' = w.gapTurn (rowOf w.watch.store.db.connections hb.session) gap time) ∨
        (∃ opened, w' = { w with opened }) ∨ w.Admits options hb time ∧ ∃ opened, w' = { w with
          opened, job := hb.writes options.readBoot time (rowOf w.watch.store.db.connections hb.session) sessions } := by
    rintro w' rfl
    split
    · split
      · exact .inr (.inl ⟨_, rfl⟩)
      · rename_i hroom
        exact .inr (.inr ⟨fun _ => Nat.lt_of_not_le hroom, _, rfl⟩)
    · rename_i hopens
      exact .inr (.inr ⟨fun hopen => absurd hopen hopens, w.opened, rfl⟩)
  unfold heartbeatTurn
  cases hb.event with
  | gap gap => exact .inl ⟨gap, rfl⟩
  | start => exact hbeats _ rfl
  | beat => exact hbeats _ rfl
  | stop => exact hbeats _ rfl
  | ended => exact hbeats _ rfl
  | ping => exact hbeats _ rfl

/-- A gap is of no opening. -/
theorem isLater_gapTurn {known : Option ConnectionRow} {gap : Option Gap} (time : Timestamp) (hidle : w.job = []) :
    ∀ write ∈ (w.gapTurn known gap time).job, write.isLater = true := by
  intro write hmem
  have hnone : write ∉ w.job := by
    rw [hidle]
    exact List.not_mem_nil
  cases known with
  | none => exact absurd hmem hnone
  | some known =>
      cases gap with
      | none => exact absurd hmem hnone
      | some gap =>
          unfold gapTurn at hmem
          dsimp only at hmem
          split at hmem
          · exact absurd hmem hnone
          · rw [List.mem_singleton.mp hmem]
            obtain ⟨kind, fromTime, number⟩ := gap
            cases kind with
            | sleep => rfl
            | offline => rfl

/-- **A heartbeat's job** is an opening, or of none. -/
theorem job_heartbeatTurn {hb : Heartbeat} {sessions : List ConnectionRow} (hidle : w.job = [])
    (hlisted : w.watch.store.db.ListsConnectionsOf hb.systemId sessions) (time : Timestamp) :
    (w.OpensBy options hb sessions time ∧
        (w.heartbeatTurn options hb sessions time).job = hb.firstWrites options.readBoot time sessions) ∨
      ∀ write ∈ (w.heartbeatTurn options hb sessions time).job, write.isLater = true := by
  rcases w.heartbeatTurn_cases hb sessions time with ⟨gap, hturn⟩ | ⟨opened, hturn⟩ | ⟨hadmits, opened, hturn⟩
  · rw [hturn]
    exact .inr (isLater_gapTurn time hidle)
  · rw [hturn]
    refine .inr fun write hmem => absurd hmem ?_
    rw [hidle]
    exact List.not_mem_nil
  · rw [hturn]
    by_cases hopens : (hb.event = .start ∨ hb.event = .beat) ∧ rowOf w.watch.store.db.connections hb.session = none
    · refine .inl ⟨⟨hidle, hlisted, hopens.1, hopens.2, hadmits⟩, ?_⟩
      rw [hopens.2]
      exact Heartbeat.writes_first hopens.1
    · exact .inr fun write hmem => Heartbeat.isLater_writes (fun hevent hunknown => hopens ⟨hevent, hunknown⟩) hmem

/-- Of a session without a row nothing is told. -/
theorem changesOf_unknown (h : w.Consistent Change.Starts) {session : SessionKey} (hlive : ¬ w.Deleted session.1)
    (hunknown : rowOf w.watch.store.db.connections session = none) : w.changesOf session = [] := by
  refine eq_nil_of_stateAfter ((h.obeys session).mono fun _ _ hrule => hrule.1) ?_
  have hstate : stateOf w.watch.store.db.connections session = stateAfter (w.changesOf session) := h.rows session hlive
  rw [← hstate, stateOf, hunknown]
  rfl

/-- A loss is of no opening. -/
theorem isLater_sweepWrites {lostAfterMs since : ℤ} {now : Timestamp} {sessions : List ConnectionRow} :
    ∀ write ∈ sweepWrites lostAfterMs since now sessions, write.isLater = true := by
  intro write hmem
  rw [sweepWrites] at hmem
  split at hmem
  · cases hmem
  · obtain ⟨session, -, rfl⟩ := List.mem_map.mp hmem
    rfl

/-- What a write's turn drops of the job, where it tells nothing, was not due. -/
theorem Opened.quiet (h : Opened c u key options w₀ steps w) {a : Answering}
    (hs : Whole c w.watch.store.db) (hx : w.KeepsDue c u key (.write a)) (htold : (w.writeTurn c u key a).told = w.told) :
    (w.writeTurn c u key a).job = w.job ∨ (∀ write rest, w.job = write :: rest → write.isDue = false) ∧
      ∀ write ∈ (w.writeTurn c u key a).job, write.isLater = true := by
  cases hjob : w.job with
  | nil =>
      refine .inl ?_
      unfold writeTurn
      rw [hjob]
      exact hjob
  | cons write rest =>
      refine .inr ?_
      cases hperform : write.perform c u key w.watch.store a with
      | mk store result =>
          cases result with
          | error e =>
              rw [writeTurn_error hjob hperform]
              refine ⟨fun write' rest' heq => ?_, fun write' hmem => absurd hmem List.not_mem_nil⟩
              obtain ⟨rfl, -⟩ := List.cons.inj heq
              rw [← Bool.not_eq_true]
              intro hdue
              obtain ⟨store', r, htaken⟩ := (hx.writes a write rest rfl hjob hdue).performed hs
              rw [hperform] at htaken
              cases (Prod.mk.inj htaken).2
          | ok written =>
              have hplain : write.note = none := by
                rw [writeTurn_ok hjob hperform] at htold
                have hnothing : toldOf write written = [] := List.append_right_eq_self.mp htold
                cases hnote : write.note with
                | none => rfl
                | some note =>
                    obtain ⟨r, rfl, -⟩ := SessionWrite.perform_noted hnote hperform
                    unfold toldOf at hnothing
                    rw [hnote] at hnothing
                    cases hnothing
              have hlater : write.isLater = true := by
                rw [SessionWrite.isLater, SessionWrite.isDue, hplain]
                rfl
              rw [writeTurn_ok hjob hperform]
              refine ⟨fun write' rest' heq => ?_, fun write' hmem => ?_⟩
              · obtain ⟨rfl, -⟩ := List.cons.inj heq
                rw [SessionWrite.isDue, hplain]
                rfl
              · rcases h.job with ⟨session, n, before, hb, sessions, time, after, -, -, -, hopen⟩ | hall
                · obtain ⟨head, others, hhead, hopening, -⟩ := hopen.head
                  obtain ⟨rfl, -⟩ := List.cons.inj (hjob.symm.trans hhead)
                  rw [hlater] at hopening
                  cases hopening
                · exact hall write' (hjob ▸ List.mem_cons_of_mem _ hmem)

/-- **A step that loses nothing due** keeps what the openings were. -/
theorem Opened.step (h : Opened c u key options w₀ steps (w₀.run c u key options steps))
    (hs : Whole c (w₀.run c u key options steps).watch.store.db) (hx : (w₀.run c u key options steps).KeepsDue c u key x) :
    Opened c u key options w₀ (steps ++ [x]) (w₀.run c u key options (steps ++ [x])) := by
  rw [run_append, run_cons, run_nil]
  generalize hw : w₀.run c u key options steps = w at h hs hx ⊢
  have hconsistent : (w.step c u key options x).Consistent Change.Starts :=
    consistent_step permits_starts h.consistent (allows_of_keepsDue hx)
  have hdeleted : ∀ systemId, w.Deleted systemId → (w.step c u key options x).Deleted systemId :=
    fun _ hgone => deleted_step x hgone
  have hcases : (w.step c u key options x).told = w.told ∨ _ := w.told_step x
  rcases hcases with htold | ⟨write, rest, note, r, a, hjob, hnote, -, -, htold, hrest⟩
  · refine h.settle hconsistent htold hdeleted ?_
    cases x with
    | heartbeat hb sessions time =>
        by_cases hturn : w.job = [] ∧ w.watch.store.db.ListsConnectionsOf hb.systemId sessions
        · refine .inr ⟨fun write rest hjob => ?_, ?_⟩
          · rw [hturn.1] at hjob
            cases hjob
          · have hstep : w.step c u key options (.heartbeat hb sessions time) = w.heartbeatTurn options hb sessions time :=
              if_pos hturn
            rw [hstep] at htold ⊢
            rcases w.job_heartbeatTurn hturn.1 hturn.2 time with ⟨hopens, hfirst⟩ | hlater
            · refine .inl ⟨hb.session, 0, steps, hb, sessions, time, [], rfl, rfl, hw.symm ▸ hopens, hfirst,
                Nat.succ_pos _, fun hnot => ?_⟩
              have hlive : ¬ w.Deleted hb.systemId := fun hgone => hnot (hstep ▸ hdeleted _ hgone)
              rw [changesOf, htold]
              exact changesOf_unknown h.consistent hlive hopens.unknown
            · exact .inr hlater
        · refine .inl ?_
          have hstep : w.step c u key options (.heartbeat hb sessions time) = w := if_neg hturn
          rw [hstep]
    | sweep sessions time =>
        by_cases hturn : w.job = [] ∧ w.watch.store.db.ListsOpenConnections sessions
        · have hstep : w.step c u key options (.sweep sessions time)
              = { w with job := sweepWrites options.lostAfterMs w.since time sessions } := if_pos hturn
          rw [hstep]
          refine .inr ⟨fun write rest hjob => ?_, .inr isLater_sweepWrites⟩
          rw [hturn.1] at hjob
          cases hjob
        · have hstep : w.step c u key options (.sweep sessions time) = w := if_neg hturn
          rw [hstep]
          exact .inl rfl
    | write a =>
        rcases h.quiet hs hx htold with hsame | ⟨hnotDue, hlater⟩
        · exact .inl hsame
        · exact .inr ⟨hnotDue, .inr hlater⟩
    | store op => exact .inl rfl
    | restart time =>
        refine .inr ⟨fun write rest hjob => hx.restarts time write rest rfl hjob, .inr fun write hmem => ?_⟩
        cases hmem
  · exact h.tell hconsistent hjob hnote htold hrest hdeleted

/-- A run leaves every chain whole. -/
theorem whole_watched (hs : Whole c w.watch.store.db) (steps : List WatchStep) :
    Whole c (w.run c u key options steps).watch.store.db := by
  induction steps generalizing w with
  | nil => exact hs
  | cons x rest ih =>
      obtain ⟨allowed, hcommits⟩ : ∃ allowed, Commits c u key allowed w.watch.store
          (w.step c u key options x).watch.store := w.step_commits x
      exact ih (hs.commits hcommits)

/-- **The openings of a run** whose steps lose nothing due. -/
theorem opened_run (hs : Whole c w₀.watch.store.db) (h : w₀.Consistent Change.Starts) (hidle : w₀.job = []) (steps : List WatchStep)
    (hsteps : Meets c u key options (KeepsDue c u key) w₀ steps) :
    Opened c u key options w₀ steps (w₀.run c u key options steps) := by
  induction steps using List.reverseRecOn with
  | nil =>
      refine ⟨h, .inr fun write hmem => ?_, fun session hnew _ htold => absurd hnew htold⟩
      have hmem : write ∈ w₀.job := hmem
      rw [hidle] at hmem
      cases hmem
  | append_singleton steps x ih =>
      obtain ⟨hbefore, hx, -⟩ := meets_append.mp hsteps
      exact (ih hbefore).step (whole_watched hs steps) hx

end WatchWorld

/-- A step in which at most a toy signer is asked, that stops nothing and writes what it is to. -/
theorem WatchWorld.KeepsDue.of_toyReplies {w : WatchWorld} {x : WatchStep}
    (hviews : ∀ view ∈ x.views, view = toyReplies.view) (hothers : ∀ op, x = .store op → op.IsOther)
    (hstops : ∀ hb sessions time, x = .heartbeat hb sessions time → hb.event ≠ .stop)
    (hwrites : ∀ a write rest, x = .write a → w.job = write :: rest → write.note ≠ none ∧
      write.Signed c u key w.watch.store a)
    (hruns : ∀ time, x ≠ .restart time) : w.KeepsDue c u key x where
  together := .of_toyReplies hviews hothers fun a write rest hx hjob => (hwrites a write rest hx hjob).1
  stops hb sessions time hx hevent := absurd hevent (hstops hb sessions time hx)
  writes a write rest hx hjob _ := (hwrites a write rest hx hjob).2
  restarts time _ _ hx := absurd hx (hruns time)

/-- A toy signer signs a change of a toy system. -/
theorem Tame.signs {n : ℕ} {s : Store} {write : SessionWrite} {note : ChangeNote} (h : Tame n s) (hn : n < 16)
    (hnote : write.note = some note) (hsystem : IsToySystem write.row.systemId)
    (htip : s.db.tipRow write.row.systemId ≠ none) (hts : IsTimestamp note.tsEvent) :
    write.note ≠ none ∧ write.Signed positionCrypto u toyWriter s toyAnswering := by
  have hevent : ∀ event ∈ write.event,
      event = note.change.event write.row.systemId note.tsEvent write.time note.outcome note.source := by
    intro event hmem
    rw [SessionWrite.event, hnote] at hmem
    exact (Option.some.inj hmem).symm
  refine ⟨by rw [hnote]; exact Option.some_ne_none _, ⟨fun event hmem => ?_, fun event hmem => ?_⟩⟩
  · rw [hevent event hmem]
    exact Change.checked note.change hts hsystem.short.1 hsystem.short.2 _ _
  · obtain ⟨receipt, db, hwrites, -⟩ := h.takes (u := u) note.change hn hsystem htip hts
    rw [hevent event hmem]
    exact .inl ⟨_, _, _, hwrites⟩

end Sigillo
