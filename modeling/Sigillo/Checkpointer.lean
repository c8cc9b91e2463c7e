import Mathlib.Algebra.Order.Ring.Int
import Mathlib.Data.List.Basic
import Mathlib.Data.Nat.Find

/-!
# Runs of the checkpointer

The timer's runs, the retries and the runs asked for from the web view stand in one line: each starts once the
one before it has ended. So no two are ever in progress at once, and whoever asks is answered by a run that
began after the request. A run that leaves tokens missing is tried again by a retry timer, but only the timer's
own runs set it, and only where there is an authority to ask (**`checkpointer_holds_iff`**). -/

namespace Sigillo

-- ── The line ─────────────────────────────────────────────────────────────────────

/-- Who wants a run: the interval, the retry timer, or `requestRun`. -/
inductive RunKind where
  | interval
  | retry
  | requested
deriving DecidableEq

/-- How far a run is. -/
inductive RunStatus where
  | waiting
  /-- A run asked for, in its gap. -/
  | sleeping
  | running
  | done
deriving DecidableEq

/-- A run as `serially` chains it: it starts once `after` has ended. -/
structure QueuedRun where
  kind : RunKind
  after : Option ℕ
  status : RunStatus
  /-- Whether its work threw; the promise of a run asked for is then rejected. -/
  threw : Bool
  /-- When its work began; nothing reads it. -/
  beganAt : Option ℕ
deriving DecidableEq

/-- The state of the checkpointer, with all runs that were ever asked for. -/
structure Checkpointer where
  timer : Bool
  retryTimer : Bool
  running : Bool
  /-- The run `lock` waits for. -/
  lock : Option ℕ
  /-- The run of the promise `requested` holds. -/
  requested : Option ℕ
  requestedEndedAt : ℤ
  /-- Every run there was, in the order they were queued in. -/
  runs : List QueuedRun
  /-- The requests: the run that answers each, and when it came; nothing reads it. -/
  asked : List (ℕ × ℕ)
  /-- How many checkpoints were without a token when the last run ended; nothing reads it. -/
  left : ℕ
  /-- How much has happened; nothing reads it. -/
  moment : ℕ
deriving DecidableEq

/-- What is set of the options: whether there is an authority, and the least time between two runs asked for. -/
structure CheckpointerOptions where
  tsa : Bool
  requestGapMs : ℤ := 10000

/-- How a run ends: the checkpoints still without a token, and whether it threw before it could count them. -/
structure RunOutcome where
  left : ℕ
  threw : Bool

/-- The `pending` of a run: none where it threw, nor, by `timestampPending`, where there is no authority. -/
def RunOutcome.pending (options : CheckpointerOptions) (outcome : RunOutcome) : ℕ :=
  if outcome.threw = true ∨ options.tsa = false then 0 else outcome.left

/-- What may happen next. -/
inductive CheckpointEvent where
  | start
  | tick
  | retryFires
  | requestRun
  /-- The promise a run waits for has settled. -/
  | begins (run : ℕ) (now : ℤ)
  /-- The gap of a run asked for is over. -/
  | wakes (run : ℕ)
  | ends (run : ℕ) (outcome : RunOutcome) (now : ℤ)

/-- A checkpointer that was not started. -/
def Checkpointer.fresh : Checkpointer := ⟨false, false, false, none, none, 0, [], [], 0, 0⟩

/-- Something is pending where a run left tokens missing, counted them, and has an authority to ask. -/
theorem RunOutcome.pending_pos {options : CheckpointerOptions} (outcome : RunOutcome) :
    0 < outcome.pending options ↔ 0 < outcome.left ∧ outcome.threw = false ∧ options.tsa = true := by
  rw [RunOutcome.pending]
  split_ifs with h
  · refine iff_of_false (lt_irrefl 0) ?_
    rintro ⟨-, hthrew, htsa⟩
    rcases h with h | h
    · rw [hthrew] at h
      cases h
    · rw [htsa] at h
      cases h
  · rw [not_or, Bool.not_eq_true, Bool.not_eq_false] at h
    exact ⟨fun hleft => ⟨hleft, h⟩, fun hleft => hleft.1⟩

namespace Checkpointer

/-- `serially`: a run at the end of the line. -/
def serially (p : Checkpointer) (kind : RunKind) : Checkpointer :=
  { p with lock := some p.runs.length, runs := p.runs ++ [⟨kind, p.lock, .waiting, false, none⟩] }

/-- `exclusively`, up to the line. -/
def exclusively (p : Checkpointer) (kind : RunKind) : Checkpointer := if p.running then p else p.serially kind

/-- Whether a run is the next to begin. -/
def mayBegin (p : Checkpointer) (run : QueuedRun) : Bool :=
  run.status == .waiting && match run.after with
    | none => true
    | some before => (p.runs[before]?).any fun r => r.status == .done

/-- `whileRunning`, from its beginning. -/
def enter (p : Checkpointer) (i : ℕ) (run : QueuedRun) : Checkpointer :=
  { p with running := true, runs := p.runs.set i { run with status := .running, beganAt := some p.moment } }

/-- **One event**; one that cannot happen changes nothing. -/
def apply (options : CheckpointerOptions) (p : Checkpointer) : CheckpointEvent → Checkpointer
  | .start => if p.timer then p else exclusively { p with timer := true } .interval
  | .tick => if p.timer then p.exclusively .interval else p
  | .retryFires => if p.retryTimer then exclusively { p with retryTimer := false } .retry else p
  | .requestRun =>
      match p.requested with
      | some run => { p with asked := p.asked ++ [(run, p.moment)] }
      | none => { p.serially .requested with
          requested := some p.runs.length
          asked := p.asked ++ [(p.runs.length, p.moment)] }
  | .begins i now =>
      match p.runs[i]? with
      | none => p
      | some run =>
          if p.mayBegin run then
            if run.kind = .requested then
              if 0 < p.requestedEndedAt + options.requestGapMs - now then
                { p with runs := p.runs.set i { run with status := .sleeping } }
              else { p.enter i run with requested := none }
            else p.enter i run
          else p
  | .wakes i =>
      match p.runs[i]? with
      | none => p
      | some run => if run.status = .sleeping then { p.enter i run with requested := none } else p
  | .ends i outcome now =>
      match p.runs[i]? with
      | none => p
      | some run =>
          if run.status = .running then
            have p : Checkpointer := { p with
              running := false
              left := outcome.left
              runs := p.runs.set i { run with status := .done, threw := outcome.threw } }
            if run.kind = .requested then { p with requestedEndedAt := now }
            else if 0 < outcome.pending options ∧ p.timer = true ∧ p.retryTimer = false then
              { p with retryTimer := true }
            else p
          else p

/-- **One event.** -/
def step (options : CheckpointerOptions) (p : Checkpointer) (event : CheckpointEvent) : Checkpointer :=
  { p.apply options event with moment := p.moment + 1 }

/-- Events, one after the other. -/
def run (options : CheckpointerOptions) (p : Checkpointer) (events : List CheckpointEvent) : Checkpointer :=
  events.foldl (step options) p

/-- A checkpointer that was just started. -/
def started (options : CheckpointerOptions) : Checkpointer := fresh.step options .start

-- ── What holds of the line ───────────────────────────────────────────────────────

/-- **The line**: each run waits for the one before it, and none has begun before that has ended; the flag is of
    the one that is running, and the promise of one that has not begun; whoever asked is answered by a run that
    had not. -/
structure SoundAt (moment : ℕ) (p : Checkpointer) : Prop where
  timer : p.timer = true
  chained : ∀ (i : ℕ) (r : QueuedRun), p.runs[i]? = some r → r.after = if i = 0 then none else some (i - 1)
  lock : p.lock = if p.runs.length = 0 then none else some (p.runs.length - 1)
  inOrder : ∀ (i : ℕ) (r : QueuedRun), p.runs[i]? = some r → r.status ≠ .waiting → ∀ (j : ℕ) (s : QueuedRun), j < i → p.runs[j]? = some s → s.status = .done
  running : p.running = true ↔ ∃ (i : ℕ) (r : QueuedRun), p.runs[i]? = some r ∧ r.status = .running
  requested : ∀ i : ℕ, p.requested = some i → ∃ r : QueuedRun, p.runs[i]? = some r ∧ r.kind = .requested ∧
    (r.status = .waiting ∨ r.status = .sleeping)
  began : ∀ (i : ℕ) (r : QueuedRun), p.runs[i]? = some r → (r.status = .running ∨ r.status = .done ↔ r.beganAt ≠ none)
  asked : ∀ i n : ℕ, (i, n) ∈ p.asked → n < moment ∧ ∃ r : QueuedRun, p.runs[i]? = some r ∧ ∀ m, r.beganAt = some m → n < m

namespace SoundAt

variable {p q : Checkpointer} {moment : ℕ}

/-- What was sound stays so later. -/
theorem mono {later : ℕ} (h : SoundAt moment p) (hle : moment ≤ later) : SoundAt later p :=
  { h with asked := fun i n hn => ⟨(h.asked i n hn).1.trans_le hle, (h.asked i n hn).2⟩ }

/-- What else changes does not matter to the line. -/
theorem of_same (h : SoundAt moment p)
    (hsame : (q.timer, q.running, q.lock, q.requested, q.runs, q.asked)
      = (p.timer, p.running, p.lock, p.requested, p.runs, p.asked)) : SoundAt moment q := by
  simp only [Prod.mk.injEq] at hsame
  obtain ⟨htimer, hrunning, hlock, hrequested, hruns, hasked⟩ := hsame
  refine ⟨htimer ▸ h.timer, ?_, ?_, ?_, ?_, ?_, ?_, ?_⟩
  · rw [hruns]
    exact h.chained
  · rw [hruns, hlock]
    exact h.lock
  · rw [hruns]
    exact h.inOrder
  · rw [hruns, hrunning]
    exact h.running
  · rw [hruns, hrequested]
    exact h.requested
  · rw [hruns]
    exact h.began
  · rw [hruns, hasked]
    exact h.asked

/-- What is at a place of the line with one more run. -/
theorem getElem?_concat {l : List QueuedRun} {last r : QueuedRun} {i : ℕ} (h : (l ++ [last])[i]? = some r) :
    l[i]? = some r ∨ (i = l.length ∧ r = last) := by
  rcases lt_trichotomy i l.length with hlt | rfl | hgt
  · rw [List.getElem?_append_left hlt] at h
    exact .inl h
  · rw [List.getElem?_concat_length] at h
    exact .inr ⟨rfl, (Option.some.inj h).symm⟩
  · rw [List.getElem?_eq_none (by rw [List.length_append, List.length_singleton]; omega)] at h
    cases h

/-- A run stays where it is when one is queued behind it. -/
theorem getElem?_append_some {l : List QueuedRun} {last r : QueuedRun} {i : ℕ} (h : l[i]? = some r) :
    (l ++ [last])[i]? = some r := by
  rw [List.getElem?_append_left (List.getElem?_eq_some_iff.mp h).1]
  exact h

/-- **A run joins the line.** -/
theorem serially (h : SoundAt moment p) (kind : RunKind) : SoundAt moment (p.serially kind) where
  timer := h.timer
  chained i r hr := by
    rcases getElem?_concat hr with hr | ⟨rfl, rfl⟩
    · exact h.chained i r hr
    · exact h.lock
  lock := by
    show some p.runs.length = _
    have hlen : (p.serially kind).runs.length = p.runs.length + 1 := List.length_append
    rw [hlen, if_neg (Nat.succ_ne_zero _), Nat.add_sub_cancel]
  inOrder i r hr hstatus j s hj hs := by
    rcases getElem?_concat hr with hr | ⟨rfl, rfl⟩
    · rcases getElem?_concat hs with hs | ⟨rfl, rfl⟩
      · exact h.inOrder i r hr hstatus j s hj hs
      · have hi := (List.getElem?_eq_some_iff.mp hr).1
        omega
    · exact absurd rfl hstatus
  running := by
    refine h.running.trans ⟨fun ⟨i, r, hr, hstatus⟩ => ⟨i, r, getElem?_append_some hr, hstatus⟩, ?_⟩
    rintro ⟨i, r, hr, hstatus⟩
    rcases getElem?_concat hr with hr | ⟨rfl, rfl⟩
    · exact ⟨i, r, hr, hstatus⟩
    · cases hstatus
  requested i hi := by
    obtain ⟨r, hr, hkind, hstatus⟩ := h.requested i hi
    exact ⟨r, getElem?_append_some hr, hkind, hstatus⟩
  began i r hr := by
    rcases getElem?_concat hr with hr | ⟨rfl, rfl⟩
    · exact h.began i r hr
    · exact iff_of_false (by rintro (h | h) <;> cases h) fun h => h rfl
  asked i n hn := by
    obtain ⟨hless, r, hr, hlater⟩ := h.asked i n hn
    exact ⟨hless, r, getElem?_append_some hr, hlater⟩

/-- `exclusively` keeps the queue sound. -/
theorem exclusively (h : SoundAt moment p) (kind : RunKind) : SoundAt moment (p.exclusively kind) := by
  rw [Checkpointer.exclusively]
  split
  · exact h
  · exact h.serially kind

/-- A run that has not ended is the last that has begun. -/
theorem later_waiting (h : SoundAt moment p) {i j : ℕ} {run r : QueuedRun} (hrun : p.runs[i]? = some run)
    (hstatus : run.status ≠ .done) (hij : i < j) (hr : p.runs[j]? = some r) : r.status = .waiting := by
  by_contra hbegun
  exact hstatus (h.inOrder j r hr hbegun i run hij hrun)

/-- A run that may begin has nothing before it that has not ended. -/
theorem earlier_done (h : SoundAt moment p) {i : ℕ} {run : QueuedRun} (hrun : p.runs[i]? = some run)
    (hmay : run.status ≠ .waiting ∨ p.mayBegin run = true) {j : ℕ} {s : QueuedRun} (hj : j < i)
    (hs : p.runs[j]? = some s) : s.status = .done := by
  rcases hmay with hstatus | hmay
  · exact h.inOrder i run hrun hstatus j s hj hs
  · rw [mayBegin, h.chained i run hrun, if_neg (Nat.ne_of_gt (Nat.zero_lt_of_lt hj)), Bool.and_eq_true_iff] at hmay
    obtain ⟨before, hbefore, hended⟩ : ∃ b, p.runs[i - 1]? = some b ∧ b.status = .done := by
      have hended : ((p.runs[i - 1]?).any fun r => r.status == .done) = true := hmay.2
      cases hbefore : p.runs[i - 1]? with
      | none =>
          rw [hbefore] at hended
          cases hended
      | some b =>
          rw [hbefore] at hended
          exact ⟨b, rfl, beq_iff_eq.mp hended⟩
    rcases Nat.lt_or_ge j (i - 1) with hlt | hge
    · exact h.inOrder (i - 1) before hbefore (by rw [hended]; exact fun h => nomatch h) j s hlt hs
    · rw [show i - 1 = j by omega] at hbefore
      rw [Option.some.inj (hs.symm.trans hbefore)]
      exact hended

/-- What is at a place of the line once the run at another is set. -/
theorem getElem?_set_cases {l : List QueuedRun} {i j : ℕ} {run w r : QueuedRun} (hrun : l[i]? = some run)
    (h : (l.set i w)[j]? = some r) : (j = i ∧ r = w) ∨ (j ≠ i ∧ l[j]? = some r) := by
  by_cases hj : i = j
  · subst hj
    rw [List.getElem?_set_self (List.getElem?_eq_some_iff.mp hrun).1] at h
    exact .inl ⟨rfl, (Option.some.inj h).symm⟩
  · rw [List.getElem?_set_ne hj] at h
    exact .inr ⟨Ne.symm hj, h⟩

/-- **The run whose turn it is goes on**: to its gap, to its work, or to its end. -/
theorem goesOn (h : SoundAt moment p) {i : ℕ} {run w : QueuedRun} (hrun : p.runs[i]? = some run)
    (hlive : run.status ≠ .done) (hmay : run.status ≠ .waiting ∨ p.mayBegin run = true)
    (hafter : w.after = run.after) (hkind : w.kind = run.kind) (hmoved : w.status ≠ .waiting)
    (hbegan : w.status = .running ∨ w.status = .done ↔ w.beganAt ≠ none)
    (hasked : ∀ m, w.beganAt = some m → run.beganAt = some m ∨ moment ≤ m)
    (hruns : q.runs = p.runs.set i w) (htimer : q.timer = true) (hlock : q.lock = p.lock)
    (haskedSame : q.asked = p.asked) (hrunning : q.running = true ↔ w.status = .running)
    (hrequested : ∀ k, q.requested = some k → p.requested = some k ∧ (k = i → w.status = .sleeping)) :
    SoundAt moment q where
  timer := htimer
  chained j r hr := by
    rcases getElem?_set_cases hrun (hruns ▸ hr) with ⟨rfl, rfl⟩ | ⟨-, hr⟩
    · exact hafter.trans (h.chained _ _ hrun)
    · exact h.chained j r hr
  lock := by
    rw [hruns, List.length_set, hlock]
    exact h.lock
  inOrder j r hr hstatus k s hk hs := by
    rcases getElem?_set_cases hrun (hruns ▸ hr) with ⟨rfl, rfl⟩ | ⟨hj, hr⟩
    · rcases getElem?_set_cases hrun (hruns ▸ hs) with ⟨rfl, -⟩ | ⟨-, hs⟩
      · exact absurd hk (lt_irrefl _)
      · exact h.earlier_done hrun hmay hk hs
    · rcases getElem?_set_cases hrun (hruns ▸ hs) with ⟨rfl, rfl⟩ | ⟨-, hs⟩
      · exact absurd (h.later_waiting hrun hlive hk hr) hstatus
      · exact h.inOrder j r hr hstatus k s hk hs
  running := by
    refine hrunning.trans ⟨fun hnew => ⟨i, w, ?_, hnew⟩, ?_⟩
    · rw [hruns, List.getElem?_set_self (List.getElem?_eq_some_iff.mp hrun).1]
    · rintro ⟨j, r, hr, hstatus⟩
      rcases getElem?_set_cases hrun (hruns ▸ hr) with ⟨rfl, rfl⟩ | ⟨hj, hr⟩
      · exact hstatus
      · -- nothing else is under way: what is before has ended, what is after waits
        rcases Nat.lt_or_gt_of_ne hj with hlt | hgt
        · rw [h.earlier_done hrun hmay hlt hr] at hstatus
          cases hstatus
        · rw [h.later_waiting hrun hlive hgt hr] at hstatus
          cases hstatus
  requested k hk := by
    obtain ⟨hold, hsame⟩ := hrequested k hk
    obtain ⟨r, hr, hr', hstatus⟩ := h.requested k hold
    by_cases hki : k = i
    · subst hki
      obtain rfl := Option.some.inj (hrun.symm.trans hr)
      refine ⟨w, ?_, hkind.trans hr', .inr (hsame rfl)⟩
      rw [hruns, List.getElem?_set_self (List.getElem?_eq_some_iff.mp hrun).1]
    · refine ⟨r, ?_, hr', hstatus⟩
      rw [hruns, List.getElem?_set_ne (Ne.symm hki)]
      exact hr
  began j r hr := by
    rcases getElem?_set_cases hrun (hruns ▸ hr) with ⟨rfl, rfl⟩ | ⟨-, hr⟩
    · exact hbegan
    · exact h.began j r hr
  asked k n hn := by
    obtain ⟨hless, r, hr, hlater⟩ := h.asked k n (haskedSame ▸ hn)
    refine ⟨hless, ?_⟩
    by_cases hki : k = i
    · subst hki
      obtain rfl := Option.some.inj (hrun.symm.trans hr)
      refine ⟨w, ?_, fun m hm => ?_⟩
      · rw [hruns, List.getElem?_set_self (List.getElem?_eq_some_iff.mp hrun).1]
      · rcases hasked m hm with hold | hnew
        · exact hlater m hold
        · exact hless.trans_le hnew
    · refine ⟨r, ?_, hlater⟩
      rw [hruns, List.getElem?_set_ne (Ne.symm hki)]
      exact hr

/-- Somebody asks for a run, and is answered by one that has not begun. -/
theorem ask (h : SoundAt p.moment p) {i : ℕ} {run : QueuedRun} (hrun : p.runs[i]? = some run)
    (hstatus : run.status = .waiting ∨ run.status = .sleeping) :
    SoundAt (p.moment + 1) { p with asked := p.asked ++ [(i, p.moment)] } := by
  refine { h.mono (Nat.le_succ _) with asked := fun k n hn => ?_ }
  rcases List.mem_append.mp hn with hold | hnew
  · exact (h.mono (Nat.le_succ _)).asked k n hold
  · obtain ⟨rfl, rfl⟩ := Prod.mk.inj (List.mem_singleton.mp hnew)
    refine ⟨Nat.lt_succ_self _, run, hrun, fun m hm => ?_⟩
    have hbegan : run.status = .running ∨ run.status = .done := (h.began _ _ hrun).mpr (by rw [hm]; exact nofun)
    rcases hbegan with hbegan | hbegan
    · rw [hbegan] at hstatus
      rcases hstatus with hstatus | hstatus <;> cases hstatus
    · rw [hbegan] at hstatus
      rcases hstatus with hstatus | hstatus <;> cases hstatus

/-- A run begins its work. -/
theorem enter (h : SoundAt p.moment p) {i : ℕ} {run : QueuedRun} (hrun : p.runs[i]? = some run)
    (hstatus : run.status = .sleeping ∨ p.mayBegin run = true) (hlive : run.status ≠ .done)
    (hruns : q.runs = (p.enter i run).runs) (htimer : q.timer = p.timer) (hlock : q.lock = p.lock)
    (hasked : q.asked = p.asked) (hrunning : q.running = true)
    (hrequested : ∀ k, q.requested = some k → p.requested = some k ∧ k ≠ i) : SoundAt (p.moment + 1) q := by
  have hmay : run.status ≠ .waiting ∨ p.mayBegin run = true :=
    hstatus.imp_left fun hsleeping => by rw [hsleeping]; exact nofun
  refine (h.goesOn hrun hlive hmay rfl rfl (w := { run with status := .running, beganAt := some p.moment })
    (fun h => nomatch h) (iff_of_true (.inl rfl) fun h => nomatch h) (fun m hm => .inr ?_) hruns (htimer.trans h.timer)
    hlock hasked (iff_of_true hrunning rfl) fun k hk => ?_).mono (Nat.le_succ _)
  · exact (Option.some.inj hm).le
  · obtain ⟨hold, hne⟩ := hrequested k hk
    exact ⟨hold, fun heq => absurd heq hne⟩

/-- A run that may begin waits. -/
theorem waiting_of_mayBegin {run : QueuedRun} (h : p.mayBegin run = true) : run.status = .waiting :=
  beq_iff_eq.mp (Bool.and_eq_true_iff.mp h).1

/-- A run of the timers holds no promise. -/
theorem requested_ne (h : SoundAt moment p) {i : ℕ} {run : QueuedRun} (hrun : p.runs[i]? = some run)
    (hkind : run.kind ≠ .requested ∨ run.status = .running) {k : ℕ} (hk : p.requested = some k) : k ≠ i := by
  rintro rfl
  obtain ⟨r, hr, hr', hstatus⟩ := h.requested k hk
  obtain rfl := Option.some.inj (hrun.symm.trans hr)
  rcases hkind with hkind | hkind
  · exact hkind hr'
  · rw [hkind] at hstatus
    rcases hstatus with hstatus | hstatus <;> cases hstatus

/-- **One event keeps the line.** -/
theorem apply (h : SoundAt p.moment p) (options : CheckpointerOptions) (event : CheckpointEvent) :
    SoundAt (p.moment + 1) (p.apply options event) := by
  have hlater : SoundAt (p.moment + 1) p := h.mono (Nat.le_succ _)
  cases event with
  | start =>
      rw [Checkpointer.apply, if_pos h.timer]
      exact hlater
  | tick =>
      rw [Checkpointer.apply, if_pos h.timer]
      exact hlater.exclusively .interval
  | retryFires =>
      rw [Checkpointer.apply]
      by_cases hretry : p.retryTimer = true
      · rw [if_pos hretry]
        exact (hlater.of_same (q := { p with retryTimer := false }) rfl).exclusively .retry
      · rw [if_neg hretry]
        exact hlater
  | requestRun =>
      rw [Checkpointer.apply]
      cases hrequested : p.requested with
      | some i =>
          obtain ⟨run, hrun, -, hstatus⟩ := h.requested i hrequested
          exact (h.ask hrun hstatus).of_same (by rw [hrequested])
      | none =>
          have hlast : (p.serially .requested).runs[p.runs.length]? = some ⟨.requested, p.lock, .waiting, false, none⟩ :=
            List.getElem?_concat_length
          have hsound : SoundAt p.moment { p.serially .requested with requested := some p.runs.length } :=
            { h.serially .requested with
              requested := fun i hi => Option.some.inj hi ▸ ⟨_, hlast, rfl, .inl rfl⟩ }
          exact ask (p := { p.serially .requested with requested := some p.runs.length }) hsound hlast (.inl rfl)
  | begins i now =>
      rw [Checkpointer.apply]
      cases hrun : p.runs[i]? with
      | none => exact hlater
      | some run =>
          dsimp only
          by_cases hmay : p.mayBegin run = true
          · have hwaiting := waiting_of_mayBegin hmay
            have hlive : run.status ≠ .done := by
              rw [hwaiting]
              exact nofun
            rw [if_pos hmay]
            by_cases hkind : run.kind = .requested
            · rw [if_pos hkind]
              by_cases hwait : 0 < p.requestedEndedAt + options.requestGapMs - now
              · rw [if_pos hwait]
                have hnone : run.beganAt = none := by
                  by_contra hbegan
                  rcases (h.began i run hrun).mpr hbegan with hstatus | hstatus
                  · exact absurd (hwaiting.symm.trans hstatus) nofun
                  · exact absurd (hwaiting.symm.trans hstatus) nofun
                let slept : QueuedRun := { run with status := .sleeping }
                have hslept : SoundAt p.moment { p with runs := p.runs.set i slept } := by
                  refine h.goesOn (q := { p with runs := p.runs.set i slept }) (w := slept) hrun hlive (.inr hmay) rfl rfl
                    (fun h => nomatch h) ?_ (fun m hm => .inl hm) rfl h.timer rfl rfl ?_ (fun k hk => ⟨hk, fun _ => rfl⟩)
                  · exact iff_of_false (by rintro (h | h) <;> cases h) fun h => h hnone
                  · refine iff_of_false (fun hrunning => ?_) fun h => nomatch h
                    obtain ⟨j, r, hr, hstatus⟩ := h.running.mp hrunning
                    rcases lt_trichotomy j i with hlt | rfl | hgt
                    · rw [h.earlier_done hrun (.inr hmay) hlt hr] at hstatus
                      cases hstatus
                    · obtain rfl := Option.some.inj (hrun.symm.trans hr)
                      rw [hwaiting] at hstatus
                      cases hstatus
                    · rw [h.later_waiting hrun hlive hgt hr] at hstatus
                      cases hstatus
                exact hslept.mono (Nat.le_succ _)
              · rw [if_neg hwait]
                exact h.enter hrun (.inr hmay) hlive rfl rfl rfl rfl rfl (fun k hk => nomatch hk)
            · rw [if_neg hkind]
              exact h.enter hrun (.inr hmay) hlive rfl rfl rfl rfl rfl
                fun k hk => ⟨hk, h.requested_ne hrun (.inl hkind) hk⟩
          · rw [if_neg hmay]
            exact hlater
  | wakes i =>
      rw [Checkpointer.apply]
      cases hrun : p.runs[i]? with
      | none => exact hlater
      | some run =>
          dsimp only
          by_cases hsleeping : run.status = .sleeping
          · rw [if_pos hsleeping]
            exact h.enter hrun (.inl hsleeping) (by rw [hsleeping]; exact nofun) rfl rfl rfl rfl rfl
              (fun k hk => nomatch hk)
          · rw [if_neg hsleeping]
            exact hlater
  | ends i outcome now =>
      rw [Checkpointer.apply]
      cases hrun : p.runs[i]? with
      | none => exact hlater
      | some run =>
          dsimp only
          by_cases hrunning : run.status = .running
          · rw [if_pos hrunning]
            let finished : QueuedRun := { run with status := .done, threw := outcome.threw }
            have hfinished : SoundAt p.moment { p with
                running := false, left := outcome.left, runs := p.runs.set i finished } := by
              refine h.goesOn (q := { p with running := false, left := outcome.left, runs := p.runs.set i finished })
                (w := finished) hrun (by rw [hrunning]; exact nofun) (.inl (by rw [hrunning]; exact nofun)) rfl rfl
                (fun h => nomatch h) ?_ (fun m hm => .inl hm) rfl h.timer rfl rfl ?_ ?_
              · exact iff_of_true (.inr rfl) ((h.began i run hrun).mp (.inl hrunning))
              · exact iff_of_false (fun h => nomatch h) fun h => nomatch h
              · exact fun k hk => ⟨hk, fun heq => absurd heq (h.requested_ne hrun (.inr hrunning) hk)⟩
            have hended := hfinished.mono (Nat.le_succ p.moment)
            split
            · exact hended.of_same rfl
            · split
              · exact hended.of_same rfl
              · exact hended
          · rw [if_neg hrunning]
            exact hlater

/-- **Every event keeps the queue sound.** -/
theorem step (h : SoundAt p.moment p) (options : CheckpointerOptions) (event : CheckpointEvent) :
    SoundAt (p.step options event).moment (p.step options event) :=
  (h.apply options event).of_same rfl

/-- **The line is kept in every run.** -/
theorem run (h : SoundAt p.moment p) (options : CheckpointerOptions) (events : List CheckpointEvent) :
    SoundAt (p.run options events).moment (p.run options events) := by
  induction events generalizing p with
  | nil => exact h
  | cons event events ih => exact ih (h.step options event)

end SoundAt

-- ── Retries ──────────────────────────────────────────────────────────────────────

/-- **The retry timer is set** once nothing is under way or in line and tokens are missing. -/
def Retried (p : Checkpointer) : Prop := (∀ r ∈ p.runs, r.status = .done) → 0 < p.left → p.retryTimer = true

/-- A run that ends the line and leaves tokens missing is a timer's and counted them, with an authority to ask, or
    the retry timer is set already. -/
def LeavesRetry (options : CheckpointerOptions) (p : Checkpointer) : CheckpointEvent → Prop
  | .ends i outcome _ => ∀ run, p.runs[i]? = some run → run.status = .running →
      (∀ (j : ℕ) (s : QueuedRun), p.runs[j]? = some s → j ≠ i → s.status = .done) → 0 < outcome.left →
        (run.kind ≠ .requested ∧ outcome.threw = false ∧ options.tsa = true) ∨ p.retryTimer = true
  | _ => True

variable {p : Checkpointer} {options : CheckpointerOptions}

/-- Nothing is asked while a run is not over. -/
theorem retried_of_live {q : Checkpointer} {r : QueuedRun} (hr : r ∈ q.runs) (hlive : r.status ≠ .done) : q.Retried :=
  fun hall => absurd (hall r hr) hlive

/-- Queueing a run leaves one that is not over. -/
theorem retried_serially (p : Checkpointer) (kind : RunKind) : (p.serially kind).Retried :=
  retried_of_live (List.mem_append_right _ (List.mem_singleton_self _)) nofun

/-- So does one that runs alone. -/
theorem retried_exclusively {moment : ℕ} (h : SoundAt moment p) (kind : RunKind) : (p.exclusively kind).Retried := by
  rw [exclusively]
  by_cases hrunning : p.running = true
  · rw [if_pos hrunning]
    obtain ⟨i, r, hr, hstatus⟩ := h.running.mp hrunning
    exact retried_of_live (List.mem_of_getElem? hr) (by rw [hstatus]; exact nofun)
  · rw [if_neg hrunning]
    exact retried_serially p kind

/-- A run that is set to what is not done is one. -/
theorem retried_set {q : Checkpointer} {i : ℕ} {run w : QueuedRun} (hrun : p.runs[i]? = some run)
    (hruns : q.runs = p.runs.set i w) (hlive : w.status ≠ .done) : q.Retried := by
  refine retried_of_live (r := w) ?_ hlive
  rw [hruns]
  exact List.mem_of_getElem? (List.getElem?_set_self (List.getElem?_eq_some_iff.mp hrun).1)

/-- Once the last run has ended, the line is over exactly if every other had. -/
theorem all_done_set {i : ℕ} {run : QueuedRun} (hrun : p.runs[i]? = some run) {w : QueuedRun}
    (hnew : w.status = .done) : (∀ r ∈ p.runs.set i w, r.status = .done) ↔
      ∀ (j : ℕ) (s : QueuedRun), p.runs[j]? = some s → j ≠ i → s.status = .done := by
  constructor
  · intro hall j s hs hj
    refine hall s (List.mem_of_getElem? (i := j) ?_)
    rw [List.getElem?_set_ne (Ne.symm hj)]
    exact hs
  · intro hall r hr
    obtain ⟨j, hj⟩ := List.getElem?_of_mem hr
    rcases SoundAt.getElem?_set_cases hrun hj with ⟨-, rfl⟩ | ⟨hne, hj⟩
    · exact hnew
    · exact hall j r hj hne

/-- **One event keeps the retry timer** exactly where it leaves one. -/
theorem retried_step (h : SoundAt p.moment p) (hretried : p.Retried) (event : CheckpointEvent) :
    (p.step options event).Retried ↔ p.LeavesRetry options event := by
  show (p.apply options event).Retried ↔ _
  cases event with
  | start =>
      rw [apply, if_pos h.timer]
      exact iff_of_true hretried trivial
  | tick =>
      rw [apply, if_pos h.timer]
      exact iff_of_true (retried_exclusively h .interval) trivial
  | retryFires =>
      rw [apply]
      by_cases hset : p.retryTimer = true
      · rw [if_pos hset]
        exact iff_of_true (retried_exclusively (h.of_same (q := { p with retryTimer := false }) rfl) .retry) trivial
      · rw [if_neg hset]
        exact iff_of_true hretried trivial
  | requestRun =>
      refine iff_of_true ?_ trivial
      rw [apply]
      cases hrequested : p.requested with
      | some i =>
          obtain ⟨run, hrun, -, hstatus⟩ := h.requested i hrequested
          refine retried_of_live (r := run) (List.mem_of_getElem? hrun) ?_
          rcases hstatus with hstatus | hstatus <;> rw [hstatus] <;> exact nofun
      | none => exact retried_serially p .requested
  | begins i now =>
      refine iff_of_true ?_ trivial
      rw [apply]
      cases hrun : p.runs[i]? with
      | none => exact hretried
      | some run =>
          dsimp only
          split
          · split
            · split
              · exact retried_set hrun rfl nofun
              · exact retried_set hrun rfl nofun
            · exact retried_set hrun rfl nofun
          · exact hretried
  | wakes i =>
      refine iff_of_true ?_ trivial
      rw [apply]
      cases hrun : p.runs[i]? with
      | none => exact hretried
      | some run =>
          dsimp only
          split
          · exact retried_set hrun rfl nofun
          · exact hretried
  | ends i outcome now =>
      rw [apply, LeavesRetry]
      cases hrun : p.runs[i]? with
      | none => exact iff_of_true hretried fun run hrun => nomatch hrun
      | some run =>
          dsimp only
          by_cases hrunning : run.status = .running
          · rw [if_pos hrunning]
            have hdone := all_done_set hrun (w := { run with status := .done, threw := outcome.threw }) rfl
            by_cases hkind : run.kind = .requested
            · rw [if_pos hkind]
              refine ⟨fun hset run' hrun' _ hall hleft => ?_, fun hleaves hall hleft => ?_⟩
              · exact .inr (hset (hdone.mpr hall) hleft)
              · rcases hleaves run rfl hrunning (hdone.mp hall) hleft with ⟨hnot, -⟩ | hset
                · exact absurd hkind hnot
                · exact hset
            · rw [if_neg hkind]
              by_cases hsets : 0 < outcome.pending options ∧ p.timer = true ∧ p.retryTimer = false
              · rw [if_pos hsets]
                refine iff_of_true (fun _ _ => rfl) fun run' hrun' _ _ _ => .inl ?_
                obtain rfl := Option.some.inj hrun'
                exact ⟨hkind, outcome.pending_pos.mp hsets.1 |>.2⟩
              · rw [if_neg hsets]
                refine ⟨fun hset run' hrun' _ hall hleft => ?_, fun hleaves hall hleft => ?_⟩
                · exact .inr (hset (hdone.mpr hall) hleft)
                · rcases hleaves run rfl hrunning (hdone.mp hall) hleft with ⟨-, hthrew⟩ | hset
                  · exact Bool.not_eq_false _ |>.mp fun hunset =>
                      hsets ⟨outcome.pending_pos.mpr ⟨hleft, hthrew⟩, h.timer, hunset⟩
                  · exact hset
          · rw [if_neg hrunning]
            refine iff_of_true hretried fun run' hrun' hrunning' => ?_
            obtain rfl := Option.some.inj hrun'
            exact absurd hrunning' hrunning

-- ── Answers ──────────────────────────────────────────────────────────────────────

/-- **The requests and the runs asked for**: each request is answered by one, and each of these answers one. -/
structure Answerable (p : Checkpointer) : Prop where
  kind : ∀ i n : ℕ, (i, n) ∈ p.asked → ∃ r : QueuedRun, p.runs[i]? = some r ∧ r.kind = .requested
  asker : ∀ (i : ℕ) (r : QueuedRun), p.runs[i]? = some r → r.kind = .requested → ∃ n, (i, n) ∈ p.asked

/-- **No promise is rejected**: a run asked for that has ended did not throw. -/
def Resolved (p : Checkpointer) : Prop := ∀ r ∈ p.runs, r.kind = .requested → r.status = .done → r.threw = false

/-- A run asked for does not throw. -/
def Answers (p : Checkpointer) : CheckpointEvent → Prop
  | .ends i outcome _ => ∀ run, p.runs[i]? = some run → run.status = .running → run.kind = .requested →
      outcome.threw = false
  | _ => True

/-- A run of the timers joins the line, and is nobody's answer. -/
theorem Answerable.serially (h : p.Answerable) {kind : RunKind} (hkind : kind ≠ .requested) :
    (p.serially kind).Answerable where
  kind i n hn := by
    obtain ⟨r, hr, hkind⟩ := h.kind i n hn
    exact ⟨r, SoundAt.getElem?_append_some hr, hkind⟩
  asker i r hr hrequested := by
    rcases SoundAt.getElem?_concat hr with hr | ⟨-, rfl⟩
    · exact h.asker i r hr hrequested
    · exact absurd hrequested hkind

/-- A run that is set keeps its kind. -/
theorem Answerable.set (h : p.Answerable) {q : Checkpointer} {i : ℕ} {run w : QueuedRun} (hrun : p.runs[i]? = some run)
    (hruns : q.runs = p.runs.set i w) (hkind : w.kind = run.kind) (hasked : q.asked = p.asked) : q.Answerable where
  kind j n hn := by
    obtain ⟨r, hr, hrequested⟩ := h.kind j n (hasked ▸ hn)
    rw [hruns]
    by_cases hij : i = j
    · subst hij
      obtain rfl := Option.some.inj (hrun.symm.trans hr)
      exact ⟨w, List.getElem?_set_self (List.getElem?_eq_some_iff.mp hrun).1, hkind.trans hrequested⟩
    · exact ⟨r, (List.getElem?_set_ne hij).trans hr, hrequested⟩
  asker j r hr hrequested := by
    rw [hasked]
    rcases SoundAt.getElem?_set_cases hrun (hruns ▸ hr) with ⟨rfl, rfl⟩ | ⟨-, hr⟩
    · exact h.asker j run hrun (hkind.symm.trans hrequested)
    · exact h.asker j r hr hrequested

/-- What is neither in the line nor a request does not matter. -/
theorem Answerable.of_same (h : p.Answerable) {q : Checkpointer} (hruns : q.runs = p.runs) (hasked : q.asked = p.asked) :
    q.Answerable := ⟨by rw [hruns, hasked]; exact h.kind, by rw [hruns, hasked]; exact h.asker⟩

/-- A run of a timer's is asked for by nobody. -/
theorem Answerable.exclusively (h : p.Answerable) {kind : RunKind} (hkind : kind ≠ .requested) :
    (p.exclusively kind).Answerable := by
  rw [Checkpointer.exclusively]
  split
  · exact h
  · exact h.serially hkind

/-- **One event keeps the requests and the runs together.** -/
theorem Answerable.step (h : p.Answerable) (hsound : SoundAt p.moment p) (event : CheckpointEvent) :
    (p.step options event).Answerable := by
  refine of_same (p := p.apply options event) ?_ rfl rfl
  cases event with
  | start =>
      rw [apply, if_pos hsound.timer]
      exact h
  | tick =>
      rw [apply, if_pos hsound.timer]
      exact h.exclusively nofun
  | retryFires =>
      rw [apply]
      split
      · exact (h.of_same (q := { p with retryTimer := false }) rfl rfl).exclusively nofun
      · exact h
  | requestRun =>
      rw [apply]
      cases hrequested : p.requested with
      | some i =>
          obtain ⟨run, hrun, hkind, -⟩ := hsound.requested i hrequested
          refine ⟨fun j n hn => ?_, fun j r hr hkind => ?_⟩
          · rcases List.mem_append.mp hn with hold | hnew
            · exact h.kind j n hold
            · obtain ⟨rfl, -⟩ := Prod.mk.inj (List.mem_singleton.mp hnew)
              exact ⟨run, hrun, hkind⟩
          · obtain ⟨n, hn⟩ := h.asker j r hr hkind
            exact ⟨n, List.mem_append_left _ hn⟩
      | none =>
          refine ⟨fun j n hn => ?_, fun j r hr hkind => ?_⟩
          · rcases List.mem_append.mp hn with hold | hnew
            · obtain ⟨r, hr, hkind⟩ := h.kind j n hold
              exact ⟨r, SoundAt.getElem?_append_some hr, hkind⟩
            · obtain ⟨rfl, -⟩ := Prod.mk.inj (List.mem_singleton.mp hnew)
              exact ⟨_, List.getElem?_concat_length, rfl⟩
          · rcases SoundAt.getElem?_concat hr with hr | ⟨rfl, -⟩
            · obtain ⟨n, hn⟩ := h.asker j r hr hkind
              exact ⟨n, List.mem_append_left _ hn⟩
            · exact ⟨p.moment, List.mem_append_right _ (List.mem_singleton_self _)⟩
  | begins i now =>
      rw [apply]
      cases hrun : p.runs[i]? with
      | none => exact h
      | some run =>
          dsimp only
          split
          · split
            · split
              · exact h.set hrun rfl rfl rfl
              · exact h.set hrun rfl rfl rfl
            · exact h.set hrun rfl rfl rfl
          · exact h
  | wakes i =>
      rw [apply]
      cases hrun : p.runs[i]? with
      | none => exact h
      | some run =>
          dsimp only
          split
          · exact h.set hrun rfl rfl rfl
          · exact h
  | ends i outcome now =>
      rw [apply]
      cases hrun : p.runs[i]? with
      | none => exact h
      | some run =>
          dsimp only
          split
          · split
            · exact h.set hrun rfl rfl rfl
            · split
              · exact h.set hrun rfl rfl rfl
              · exact h.set hrun rfl rfl rfl
          · exact h

/-- Runs that are not over reject nothing. -/
theorem resolved_set {q : Checkpointer} {i : ℕ} {run w : QueuedRun} (hrun : p.runs[i]? = some run)
    (hruns : q.runs = p.runs.set i w) (h : p.Resolved) (hw : w.kind = .requested → w.status = .done → w.threw = false) :
    q.Resolved := by
  intro r hr
  rw [hruns] at hr
  obtain ⟨j, hj⟩ := List.getElem?_of_mem hr
  rcases SoundAt.getElem?_set_cases hrun hj with ⟨-, rfl⟩ | ⟨-, hj⟩
  · exact hw
  · exact h r (List.mem_of_getElem? hj)

/-- Queueing a run leaves the answers. -/
theorem resolved_serially (h : p.Resolved) (kind : RunKind) : (p.serially kind).Resolved := by
  intro r hr
  rcases List.mem_append.mp hr with hr | hr
  · exact h r hr
  · rw [List.mem_singleton.mp hr]
    exact fun _ hdone => nomatch hdone

/-- So does one that runs alone. -/
theorem resolved_exclusively (h : p.Resolved) (kind : RunKind) : (p.exclusively kind).Resolved := by
  rw [exclusively]
  split
  · exact h
  · exact resolved_serially h kind

/-- **One event rejects no promise** exactly where it answers. -/
theorem resolved_step (hsound : SoundAt p.moment p) (h : p.Resolved) (event : CheckpointEvent) :
    (p.step options event).Resolved ↔ p.Answers event := by
  show (p.apply options event).Resolved ↔ _
  cases event with
  | start =>
      rw [apply, if_pos hsound.timer]
      exact iff_of_true h trivial
  | tick =>
      rw [apply, if_pos hsound.timer]
      exact iff_of_true (resolved_exclusively h .interval) trivial
  | retryFires =>
      refine iff_of_true ?_ trivial
      rw [apply]
      split
      · exact resolved_exclusively (p := { p with retryTimer := false }) h .retry
      · exact h
  | requestRun =>
      refine iff_of_true ?_ trivial
      rw [apply]
      split
      · exact h
      · exact resolved_serially h .requested
  | begins i now =>
      refine iff_of_true ?_ trivial
      rw [apply]
      cases hrun : p.runs[i]? with
      | none => exact h
      | some run =>
          dsimp only
          split
          · split
            · split
              · exact resolved_set hrun rfl h fun _ hdone => nomatch hdone
              · exact resolved_set hrun rfl h fun _ hdone => nomatch hdone
            · exact resolved_set hrun rfl h fun _ hdone => nomatch hdone
          · exact h
  | wakes i =>
      refine iff_of_true ?_ trivial
      rw [apply]
      cases hrun : p.runs[i]? with
      | none => exact h
      | some run =>
          dsimp only
          split
          · exact resolved_set hrun rfl h fun _ hdone => nomatch hdone
          · exact h
  | ends i outcome now =>
      rw [apply, Answers]
      cases hrun : p.runs[i]? with
      | none => exact iff_of_true h fun run hrun => nomatch hrun
      | some run =>
          dsimp only
          by_cases hrunning : run.status = .running
          · rw [if_pos hrunning]
            let finished : QueuedRun := { run with status := .done, threw := outcome.threw }
            have hends : ∀ q : Checkpointer, q.runs = p.runs.set i finished →
                (q.Resolved ↔ (run.kind = .requested → outcome.threw = false)) := by
              intro q hruns
              refine ⟨fun hall hkind => ?_, fun hanswers => resolved_set hrun hruns h fun hkind _ => hanswers hkind⟩
              refine hall finished ?_ hkind rfl
              rw [hruns]
              exact List.mem_of_getElem? (List.getElem?_set_self (List.getElem?_eq_some_iff.mp hrun).1)
            have hone : (run.kind = .requested → outcome.threw = false) ↔ ∀ run', some run = some run' →
                run'.status = .running → run'.kind = .requested → outcome.threw = false :=
              ⟨fun h run' heq _ => Option.some.inj heq ▸ h, fun h => h run rfl hrunning⟩
            refine (hends _ ?_).trans hone
            split
            · rfl
            · split
              · rfl
              · rfl
          · rw [if_neg hrunning]
            refine iff_of_true h fun run' hrun' hrunning' => ?_
            obtain rfl := Option.some.inj hrun'
            exact absurd hrunning' hrunning

-- ── What the checkpointer is for ─────────────────────────────────────────────────

/-- **What holds of a checkpointer**: one run at a time, every request resolved by a run that began after it, a
    line that never stalls, and a retry where tokens are missing. -/
structure Holds (p : Checkpointer) : Prop where
  oneAtATime : ∀ (i j : ℕ) (r s : QueuedRun), p.runs[i]? = some r → p.runs[j]? = some s → r.status = .running →
    s.status = .running → i = j
  answered : ∀ i n : ℕ, (i, n) ∈ p.asked → ∃ r : QueuedRun, p.runs[i]? = some r ∧
    (r.status = .done → r.threw = false ∧ ∃ m, r.beganAt = some m ∧ n < m)
  moves : (∃ r ∈ p.runs, r.status ≠ .done) → ∃ r ∈ p.runs, r.status = .running ∨ r.status = .sleeping ∨
    p.mayBegin r = true
  retried : p.Retried

/-- Where every request is resolved, no promise is rejected. -/
theorem Holds.resolved (h : p.Holds) (hanswerable : p.Answerable) : p.Resolved := by
  intro r hr hkind hdone
  obtain ⟨i, hi⟩ := List.getElem?_of_mem hr
  obtain ⟨n, hn⟩ := hanswerable.asker i r hi hkind
  obtain ⟨r', hr', hended⟩ := h.answered i n hn
  obtain rfl := Option.some.inj (hi.symm.trans hr')
  exact (hended hdone).1

/-- Some run of a line that is not over is under way, or may begin. -/
theorem SoundAt.moves {moment : ℕ} (h : SoundAt moment p) (hlive : ∃ r ∈ p.runs, r.status ≠ .done) :
    ∃ r ∈ p.runs, r.status = .running ∨ r.status = .sleeping ∨ p.mayBegin r = true := by
  have hsome : ∃ i : ℕ, ∃ r : QueuedRun, p.runs[i]? = some r ∧ r.status ≠ .done := by
    obtain ⟨r, hr, hstatus⟩ := hlive
    obtain ⟨i, hi⟩ := List.getElem?_of_mem hr
    exact ⟨i, r, hi, hstatus⟩
  classical
  -- the first run that has not ended
  obtain ⟨r, hr, hstatus⟩ := Nat.find_spec hsome
  have hbefore : ∀ j < Nat.find hsome, ∀ s : QueuedRun, p.runs[j]? = some s → s.status = .done := by
    intro j hj s hs
    by_contra hnot
    exact Nat.find_min hsome hj ⟨s, hs, hnot⟩
  refine ⟨r, List.mem_of_getElem? hr, ?_⟩
  cases hcase : r.status with
  | running => exact .inl rfl
  | sleeping => exact .inr (.inl rfl)
  | done => exact absurd hcase hstatus
  | waiting =>
      refine .inr (.inr ?_)
      rw [mayBegin, hcase, h.chained _ r hr]
      by_cases hzero : Nat.find hsome = 0
      · rw [if_pos hzero]
        rfl
      · rw [if_neg hzero]
        have hlt : Nat.find hsome - 1 < Nat.find hsome := Nat.sub_one_lt hzero
        have hlen : Nat.find hsome - 1 < p.runs.length := hlt.trans (List.getElem?_eq_some_iff.mp hr).1
        have hlast := List.getElem?_eq_getElem hlen
        show (p.runs[Nat.find hsome - 1]?.any fun r => r.status == .done) = true
        rw [hlast]
        exact beq_iff_eq.mpr (hbefore _ hlt _ hlast)

/-- **What is asked of a moment**, from its parts. -/
theorem SoundAt.holds {moment : ℕ} (h : SoundAt moment p) (hanswerable : p.Answerable) (hresolved : p.Resolved)
    (hretried : p.Retried) : p.Holds where
  oneAtATime i j r s hr hs hrunning hrunning' := by
    rcases lt_trichotomy i j with hlt | rfl | hgt
    · rw [h.inOrder j s hs (by rw [hrunning']; exact nofun) i r hlt hr] at hrunning
      cases hrunning
    · rfl
    · rw [h.inOrder i r hr (by rw [hrunning]; exact nofun) j s hgt hs] at hrunning'
      cases hrunning'
  answered i n hn := by
    obtain ⟨-, r, hr, hlater⟩ := h.asked i n hn
    obtain ⟨r', hr', hkind⟩ := hanswerable.kind i n hn
    obtain rfl := Option.some.inj (hr.symm.trans hr')
    refine ⟨r, hr, fun hdone => ⟨hresolved r (List.mem_of_getElem? hr) hkind hdone, ?_⟩⟩
    obtain ⟨m, hm⟩ := Option.ne_none_iff_exists'.mp ((h.began i r hr).mp (.inr hdone))
    exact ⟨m, hm, hlater m hm⟩
  moves := h.moves
  retried := hretried

/-- No run asked for throws, and every run that ends the line and leaves tokens missing leaves a retry. -/
def Meets (options : CheckpointerOptions) (p : Checkpointer) : List CheckpointEvent → Prop
  | [] => True
  | event :: events => (p.Answers event ∧ p.LeavesRetry options event) ∧ (p.step options event).Meets options events

/-- A checkpointer that was started is sound. -/
theorem soundAt_started (options : CheckpointerOptions) : SoundAt (started options).moment (started options) := by
  have hempty : SoundAt 1 { fresh with timer := true } :=
    ⟨rfl, fun _ _ h => (nomatch h), rfl, fun _ _ h => (nomatch h),
      iff_of_false (fun h => nomatch h) fun ⟨_, _, h, _⟩ => (nomatch h), fun _ h => (nomatch h), fun _ _ h => (nomatch h),
      fun _ _ h => absurd h List.not_mem_nil⟩
  exact (hempty.serially .interval).of_same rfl

/-- Its first run is not over. -/
theorem retried_started (options : CheckpointerOptions) : (started options).Retried :=
  retried_of_live (r := ⟨.interval, none, .waiting, false, none⟩) (List.mem_singleton_self _) nofun

/-- Nobody asked for it. -/
theorem answerable_started (options : CheckpointerOptions) : (started options).Answerable where
  kind i n hn := absurd hn List.not_mem_nil
  asker i r hr hkind := by
    have hmem : r ∈ [⟨.interval, none, .waiting, false, none⟩] := List.mem_of_getElem? hr
    rw [List.mem_singleton.mp hmem] at hkind
    cases hkind

/-- Nobody was answered. -/
theorem resolved_started (options : CheckpointerOptions) : (started options).Resolved := by
  intro r hr hkind
  rw [List.mem_singleton.mp hr] at hkind
  cases hkind

/-- What is asked holds at every moment exactly if every completion meets the condition. -/
theorem holds_iff (h : SoundAt p.moment p) (hanswerable : p.Answerable) (hresolved : p.Resolved) (hretried : p.Retried)
    (events : List CheckpointEvent) :
    (∀ before, before <+: events → (p.run options before).Holds) ↔ p.Meets options events := by
  induction events generalizing p with
  | nil =>
      refine iff_of_true (fun before hbefore => ?_) trivial
      rw [List.prefix_nil.mp hbefore]
      exact h.holds hanswerable hresolved hretried
  | cons event events ih =>
      have hretries : (p.step options event).Retried ↔ _ := retried_step h hretried event
      have hresolves : (p.step options event).Resolved ↔ _ := resolved_step h hresolved event
      have hnext : (p.step options event).Answerable := hanswerable.step h event
      constructor
      · intro hall
        have hone : [event] <+: event :: events := ⟨events, rfl⟩
        have hholds : (p.step options event).Holds := hall [event] hone
        refine ⟨⟨hresolves.mp (hholds.resolved hnext), hretries.mp hholds.retried⟩, ?_⟩
        refine (ih (h.step options event) hnext (hholds.resolved hnext) hholds.retried).mp fun before hbefore => ?_
        exact hall (event :: before) ((List.prefix_cons_inj event).mpr hbefore)
      · rintro ⟨⟨hanswers, hleaves⟩, hmeets⟩ before hbefore
        cases before with
        | nil => exact h.holds hanswerable hresolved hretried
        | cons first before =>
            obtain ⟨rfl, hrest⟩ := List.cons_prefix_cons.mp hbefore
            exact (ih (h.step options first) hnext (hresolves.mpr hanswers) (hretries.mpr hleaves)).mpr hmeets before
              hrest

end Checkpointer

/-- **A checkpointer that was started does what it is for**, whatever happens in whatever order, exactly where no
    run asked for throws, and none of these, none that threw, and none without an authority to ask, ends the line
    with tokens missing and no retry timer set. -/
theorem checkpointer_holds_iff (options : CheckpointerOptions) (events : List CheckpointEvent) :
    (∀ before, before <+: events → ((Checkpointer.started options).run options before).Holds) ↔
      (Checkpointer.started options).Meets options events :=
  Checkpointer.holds_iff (Checkpointer.soundAt_started options) (Checkpointer.answerable_started options)
    (Checkpointer.resolved_started options) (Checkpointer.retried_started options) events

/-- **A run asked for that obtains no token** leaves no retry: the first run ends well, the second does not. -/
theorem checkpointer_not_retried : ¬ ∀ (options : CheckpointerOptions) (events : List CheckpointEvent),
    options.tsa = true → ((Checkpointer.started options).run options events).Holds := by
  intro h
  have hretried := (h ⟨true, 10000⟩ [.begins 0 1000000, .ends 0 ⟨0, false⟩ 1000000, .requestRun, .begins 1 2000000,
    .ends 1 ⟨1, false⟩ 2000000] rfl).retried (by decide) (by decide)
  exact absurd hretried (by decide)

end Sigillo
