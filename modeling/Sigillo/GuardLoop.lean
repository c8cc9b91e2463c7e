import Sigillo.ToldGaps

/-!
# The guard's loop

On a computer that stays awake a turn of the loop lasts its period and whatever its own requests
hold it up, up to their timeouts. A turn that is held up too long looks to the next one like a
sleep, and a sleep forgets the network cut that was being measured.

* **`Steady.turn`** — after a turn held up no longer than that, the guard has put exactly the
  network cuts its pings saw;
* **`not_honest_of_late`** — after any longer one it has called it a sleep;
* **`honest_iff`** — so a run is told as it was exactly if no turn but its last is held up longer. -/

namespace Sigillo

open IsoTime

-- ── The loop ─────────────────────────────────────────────────────────────────────

/-- What becomes of a request: how long it holds up the loop, and whether there was an answer. -/
structure GuardReply where
  seconds : ℚ
  answered : Bool
  isTimeout : 0 ≤ seconds ∧ seconds ≤ 10

/-- The replies of one turn: to the ping, if one is due, to the post of each pending gap, and in strict mode
    to what else is asked. -/
structure GuardTurn where
  ping : GuardReply
  posts : ℕ → GuardReply
  others : List GuardReply

/-- The guard between two turns, with all the gaps it put in `pending`, and the pings it made and whether they
    were answered. -/
structure Guard where
  gaps : Gaps
  nextPing : ℚ
  clock : ℚ
  put : List Gap
  pings : List (ℚ × Bool)

namespace Guard

variable (iso : ℚ → Timestamp) (beatEvery : ℚ) (w : Guard) (t : GuardTurn)

/-- A guard that starts. -/
def start (now period : ℚ) : Guard := ⟨.start now period, now + beatEvery, now, [], []⟩

/-- When the turn looks at the clock: on a computer that is awake its sleep lasts the period. -/
def wakes : ℚ := w.clock + w.gaps.period

/-- A ping is due. -/
def PingDue : Prop := w.nextPing ≤ w.wakes

instance : Decidable w.PingDue := inferInstanceAs (Decidable (_ ≤ _))

/-- What the turn saw; the time of a ping is taken before it is sent. -/
def looked : Gaps :=
  let ticked := w.gaps.tick iso w.wakes
  if w.PingDue then ticked.reached iso w.wakes t.ping.answered else ticked

/-- How long the turn's requests hold it up. -/
def heldUp : ℚ :=
  (if w.PingDue then t.ping.seconds else 0)
    + ((List.range (w.looked iso t).pending.length).map fun i => (t.posts i).seconds).sum
    + (t.others.map GuardReply.seconds).sum

/-- **One turn.** What could not be told stays pending. -/
def turn : Guard :=
  let looked := w.looked iso t
  let untold := (looked.pending.zipIdx.filter fun gap => !(t.posts gap.2).answered).map Prod.fst
  { gaps := { looked with pending := untold.drop (untold.length - KEPT_GAPS) }
    nextPing := if w.PingDue then w.wakes + beatEvery else w.nextPing
    clock := w.wakes + w.heldUp iso t
    put := w.put ++ looked.pending.drop w.gaps.pending.length
    pings := if w.PingDue then w.pings ++ [(w.wakes, t.ping.answered)] else w.pings }

/-- Turns, one after the other. -/
def run (turns : List GuardTurn) : Guard := turns.foldl (turn iso beatEvery) w

-- ── What there was to tell ───────────────────────────────────────────────────────

/-- The network cuts that pings saw: from an answered one, here `lastOk`, to the next answered one, at least
    `OFFLINE_MIN_SECONDS` later, with a failed one in between. -/
def outages (lastOk : ℚ) (failed : Bool) : List (ℚ × Bool) → List ℚ
  | [] => []
  | (_, false) :: rest => outages lastOk true rest
  | (time, true) :: rest =>
      if failed = true ∧ OFFLINE_MIN_SECONDS ≤ time - lastOk then lastOk :: outages time false rest
      else outages time false rest

/-- **The gaps put in `pending` are the network cuts, each once and in order**, and no sleep. The start counts
    as an answer. -/
def Honest (now : ℚ) : Prop :=
  w.put.map (fun gap => (gap.kind, gap.fromTime)) = (outages now false w.pings).map fun since => (.offline, iso since)

/-- What a turn may be held up without looking like a sleep to the next. -/
def patience : ℚ := 2 * w.gaps.period + 15

/-- No turn that another follows is held up longer. -/
def Brief (w : Guard) : List GuardTurn → Prop
  | [] => True
  | t :: rest => (rest ≠ [] → w.heldUp iso t ≤ w.patience) ∧ Brief (w.turn iso beatEvery t) rest

-- ── Network cuts ─────────────────────────────────────────────────────────────────

/-- The last answered ping, and whether one failed since. -/
def watched (lastOk : ℚ) (failed : Bool) : List (ℚ × Bool) → ℚ × Bool
  | [] => (lastOk, failed)
  | (_, false) :: rest => watched lastOk true rest
  | (time, true) :: rest => watched time false rest

theorem outages_append (pings more : List (ℚ × Bool)) (lastOk : ℚ) (failed : Bool) :
    outages lastOk failed (pings ++ more) = outages lastOk failed pings
      ++ outages (watched lastOk failed pings).1 (watched lastOk failed pings).2 more := by
  induction pings generalizing lastOk failed with
  | nil => rfl
  | cons ping rest ih =>
      match ping with
      | (_, false) => exact ih lastOk true
      | (time, true) =>
          rw [List.cons_append, outages, outages, watched, ih time false]
          split
          · exact List.cons_append.symm
          · rfl

theorem watched_append (pings more : List (ℚ × Bool)) (lastOk : ℚ) (failed : Bool) :
    watched lastOk failed (pings ++ more)
      = watched (watched lastOk failed pings).1 (watched lastOk failed pings).2 more := by
  induction pings generalizing lastOk failed with
  | nil => rfl
  | cons ping rest ih =>
      match ping with
      | (_, false) => exact ih lastOk true
      | (time, true) => exact ih time false

-- ── One turn ─────────────────────────────────────────────────────────────────────

variable {iso beatEvery w t}

/-- The time since the last look does not look like a sleep. -/
def Prompt (w : Guard) : Prop := w.clock - w.gaps.lastTick ≤ w.patience

/-- What the guard remembers is what its pings were answered, and it put what there was to tell. -/
structure Steady (iso : ℚ → Timestamp) (now : ℚ) (w : Guard) : Prop where
  honest : w.Honest iso now
  lastOk : w.gaps.lastOk = (watched now false w.pings).1
  downSince : w.gaps.downSince = if (watched now false w.pings).2 then some w.gaps.lastOk else none

/-- A look that is in time sees no sleep. -/
theorem tick_prompt (h : w.Prompt) : w.gaps.tick iso w.wakes = { w.gaps with lastTick := w.wakes } := by
  rw [Prompt, patience] at h
  rw [Gaps.tick, wakes, if_neg (by linarith)]

/-- One that is not sees one. -/
theorem tick_late (h : ¬ w.Prompt) : (w.gaps.tick iso w.wakes).pending =
    w.gaps.pending ++ [⟨.sleep, iso w.gaps.lastTick, w.gaps.seen⟩] := by
  rw [Prompt, patience] at h
  rw [Gaps.tick, wakes, if_pos (by linarith)]
  rfl

theorem looked_lastTick_period (w : Guard) (t : GuardTurn) :
    (w.looked iso t).lastTick = w.wakes ∧ (w.looked iso t).period = w.gaps.period := by
  have htick : (w.gaps.tick iso w.wakes).lastTick = w.wakes ∧ (w.gaps.tick iso w.wakes).period = w.gaps.period := by
    rw [Gaps.tick]
    split
    · exact ⟨rfl, rfl⟩
    · exact ⟨rfl, rfl⟩
  rw [looked]
  split
  · rw [Gaps.reached]
    split
    · dsimp only
      split
      · exact htick
      · split
        · exact htick
        · exact htick
    · exact htick
  · exact htick

/-- **How long the turn is held up decides of the next look.** -/
theorem prompt_turn : (w.turn iso beatEvery t).Prompt ↔ w.heldUp iso t ≤ w.patience := by
  obtain ⟨hlast, hperiod⟩ : (w.looked iso t).lastTick = _ ∧ (w.looked iso t).period = _ := looked_lastTick_period w t
  show w.wakes + w.heldUp iso t - (w.looked iso t).lastTick ≤ 2 * (w.looked iso t).period + 15 ↔ _
  rw [hlast, hperiod, patience, add_sub_cancel_left]

/-- A turn that makes no ping, and is in time. -/
theorem looked_not_due (h : w.Prompt) (hdue : ¬ w.PingDue) : w.looked iso t = { w.gaps with lastTick := w.wakes } := by
  rw [looked]
  dsimp only
  rw [if_neg hdue, tick_prompt h]

theorem looked_due (h : w.Prompt) (hdue : w.PingDue) :
    w.looked iso t = ({ w.gaps with lastTick := w.wakes } : Gaps).reached iso w.wakes t.ping.answered := by
  rw [looked]
  dsimp only
  rw [if_pos hdue, tick_prompt h]

/-- **A turn in time keeps the guard's account.** -/
theorem Steady.turn {now : ℚ} (h : Steady iso now w) (hprompt : w.Prompt) : Steady iso now (w.turn iso beatEvery t) := by
  obtain ⟨hhonest, hlastOk, hdownSince⟩ := h
  rw [Honest] at hhonest
  by_cases hdue : w.PingDue
  · have hlooked : w.looked iso t = _ := looked_due hprompt hdue
    have hpings : (w.turn iso beatEvery t).pings = w.pings ++ [(w.wakes, t.ping.answered)] := if_pos hdue
    cases hanswer : t.ping.answered with
    | false =>
        rw [hanswer] at hlooked hpings
        have hput : (w.turn iso beatEvery t).put = w.put := by
          rw [Guard.turn]
          dsimp only
          rw [hlooked]
          exact (congrArg (w.put ++ ·) List.drop_length).trans (List.append_nil _)
        refine ⟨?_, ?_, ?_⟩
        · rw [Honest, hput, hpings, outages_append, hhonest]
          exact congrArg (List.map _) (List.append_nil _).symm
        · rw [hpings, watched_append]
          show (w.looked iso t).lastOk = _
          rw [hlooked]
          exact hlastOk
        · rw [hpings, watched_append]
          show (w.looked iso t).downSince = some (w.looked iso t).lastOk
          rw [hlooked]
          show some (w.gaps.downSince.getD w.gaps.lastOk) = some w.gaps.lastOk
          rw [hdownSince]
          split
          · rfl
          · rfl
    | true =>
        rw [hanswer] at hlooked hpings
        refine ⟨?_, ?_, ?_⟩
        · rw [Honest, hpings, outages_append, List.map_append, ← hhonest, ← hlastOk]
          have hput : (w.turn iso beatEvery t).put =
              w.put ++ (w.looked iso t).pending.drop w.gaps.pending.length := rfl
          rw [hput, List.map_append]
          refine congrArg _ ?_
          rw [hlooked, Gaps.reached, if_pos rfl]
          dsimp only
          rw [hdownSince, outages]
          cases (watched now false w.pings).2 with
          | false =>
              rw [if_neg Bool.false_ne_true, if_neg fun h => Bool.false_ne_true h.1]
              exact congrArg _ List.drop_length
          | true =>
              rw [if_pos rfl]
              dsimp only
              by_cases hlong : OFFLINE_MIN_SECONDS ≤ w.wakes - w.gaps.lastOk
              · rw [if_pos hlong, if_pos ⟨rfl, hlong⟩]
                show ((w.gaps.pending ++ [_]).drop w.gaps.pending.length).map _ = _
                rw [List.drop_left]
                rfl
              · rw [if_neg hlong, if_neg fun h => hlong h.2]
                exact congrArg _ List.drop_length
        · rw [hpings, watched_append]
          show (w.looked iso t).lastOk = w.wakes
          rw [hlooked]
          rfl
        · rw [hpings, watched_append]
          show (w.looked iso t).downSince = none
          rw [hlooked]
          rfl
  · have hlooked : w.looked iso t = _ := looked_not_due hprompt hdue
    have hpings : (w.turn iso beatEvery t).pings = w.pings := if_neg hdue
    have hput : (w.turn iso beatEvery t).put = w.put := by
      rw [Guard.turn]
      dsimp only
      rw [hlooked]
      exact (congrArg (w.put ++ ·) List.drop_length).trans (List.append_nil _)
    refine ⟨?_, ?_, ?_⟩
    · rw [Honest, hput, hpings]
      exact hhonest
    · rw [hpings]
      show (w.looked iso t).lastOk = _
      rw [hlooked]
      exact hlastOk
    · rw [hpings]
      show (w.looked iso t).downSince = if _ then some (w.looked iso t).lastOk else none
      rw [hlooked]
      exact hdownSince

-- ── A sleep that was none ────────────────────────────────────────────────────────

/-- What was put stays among what was put. -/
theorem put_grows (w : Guard) (turns : List GuardTurn) : w.put <+: (w.run iso beatEvery turns).put := by
  induction turns generalizing w with
  | nil => exact List.prefix_refl _
  | cons t rest ih => exact (List.prefix_append _ _).trans (ih (w.turn iso beatEvery t))

/-- **A turn that is too late calls it a sleep**, and the run is not told as it was from then on. -/
theorem not_honest_of_late {now : ℚ} (hlate : ¬ w.Prompt) (turns : List GuardTurn) :
    ¬ ((w.turn iso beatEvery t).run iso beatEvery turns).Honest iso now := by
  intro hhonest
  have hsleep : ⟨.sleep, iso w.gaps.lastTick, w.gaps.seen⟩ ∈ (w.turn iso beatEvery t).put := by
    refine List.mem_append_right _ ?_
    have htick : (w.gaps.tick iso w.wakes).pending = _ := tick_late hlate
    rw [looked]
    split
    · have hgrows : (w.gaps.tick iso w.wakes).Grows ((w.gaps.tick iso w.wakes).reached iso w.wakes t.ping.answered) :=
        Gaps.grows_reached w.wakes t.ping.answered
      obtain ⟨new, hpending, -, -⟩ := hgrows
      rw [hpending, htick, List.append_assoc, List.drop_left]
      exact List.mem_cons_self
    · rw [htick, List.drop_left]
      exact List.mem_cons_self
  have hlast : _ ∈ ((w.turn iso beatEvery t).run iso beatEvery turns).put := (put_grows _ turns).subset hsleep
  have hkind : (GapKind.sleep, iso w.gaps.lastTick) ∈
      ((w.turn iso beatEvery t).run iso beatEvery turns).put.map fun gap => (gap.kind, gap.fromTime) :=
    List.mem_map.mpr ⟨_, hlast, rfl⟩
  rw [hhonest] at hkind
  obtain ⟨since, -, hsince⟩ := List.mem_map.mp hkind
  cases hsince

theorem honest_run_iff {now : ℚ} (turns : List GuardTurn) (h : Steady iso now w) (hprompt : w.Prompt) :
    (w.run iso beatEvery turns).Honest iso now ↔ Brief iso beatEvery w turns := by
  induction turns generalizing w with
  | nil => exact iff_of_true h.honest trivial
  | cons t rest ih =>
      have hnext : Steady iso now (w.turn iso beatEvery t) := h.turn hprompt
      rw [Brief]
      by_cases hbrief : w.heldUp iso t ≤ w.patience
      · rw [and_iff_right fun _ => hbrief]
        exact ih hnext (prompt_turn.mpr hbrief)
      · cases rest with
        | nil =>
            have hlast : (w.run iso beatEvery [t]).Honest iso now := hnext.honest
            exact iff_of_true hlast ⟨fun h => absurd rfl h, trivial⟩
        | cons t' rest =>
            have hlate : ¬ (w.turn iso beatEvery t).Prompt := fun h => hbrief (prompt_turn.mp h)
            have hrun : ¬ (w.run iso beatEvery (t :: t' :: rest)).Honest iso now := not_honest_of_late hlate rest
            exact iff_of_false hrun fun h => hbrief (h.1 (List.cons_ne_nil _ _))

theorem steady_start (now period : ℚ) : Steady iso now (start beatEvery now period) := ⟨rfl, rfl, rfl⟩

variable (iso beatEvery) in
/-- **A run is told as it was** exactly if its requests hold up no turn that another follows for more than
    twice the period and fifteen seconds: no sleep is put in `pending`, and each network cut of at least
    two minutes once, as offline, from the last answered ping. -/
theorem honest_iff (now : ℚ) (period : NNRat) (turns : List GuardTurn) :
    ((start beatEvery now period).run iso beatEvery turns).Honest iso now ↔
      Brief iso beatEvery (start beatEvery now period) turns := by
  refine honest_run_iff turns (steady_start now period) ?_
  rw [Prompt, patience]
  show now - now ≤ 2 * (period : ℚ) + 15
  rw [sub_self]
  have hperiod := period.coe_nonneg
  linarith

-- ── Three requests too slow ──────────────────────────────────────────────────────

/-- A request that ends at its timeout. -/
def timedOut : GuardReply := ⟨10, false, by norm_num⟩

/-- A turn in which nothing is answered. -/
def cutTurn : GuardTurn := ⟨timedOut, fun _ => timedOut, []⟩

/-- One in which only the ping is. -/
def pingTurn : GuardTurn := ⟨⟨0, true, by norm_num⟩, fun _ => timedOut, []⟩

/-- A guard that looks each second and pings each time, after some turns in which nothing was answered. -/
def cutOff (n : ℕ) (pings : List (ℚ × Bool)) : Guard :=
  ⟨⟨1, 11 * n + 1, 0, some 0, [], 0⟩, 11 * n + 2, 11 * n + 11, [], pings⟩

variable (iso)

theorem turn_cutOff (n : ℕ) (pings : List (ℚ × Bool)) :
    ∃ pings', (cutOff n pings).turn iso 1 cutTurn = cutOff (n + 1) pings' := by
  have hprompt : (cutOff n pings).Prompt := by
    rw [Prompt, patience]
    show (11 * n + 11 : ℚ) - (11 * n + 1) ≤ 2 * 1 + 15
    linarith
  have hdue : (cutOff n pings).PingDue := by
    show (11 * n + 2 : ℚ) ≤ 11 * n + 11 + 1
    linarith
  have hlooked : (cutOff n pings).looked iso cutTurn = ⟨1, 11 * (n + 1 : ℕ) + 1, 0, some 0, [], 0⟩ := by
    rw [looked_due hprompt hdue]
    show (⟨1, 11 * n + 11 + 1, 0, some 0, [], 0⟩ : Gaps) = _
    rw [Gaps.mk.injEq]
    refine ⟨rfl, ?_, rfl, rfl, rfl, rfl⟩
    push_cast
    ring
  refine ⟨pings ++ [((cutOff n pings).wakes, false)], ?_⟩
  rw [turn, hlooked, heldUp, hlooked, if_pos hdue, if_pos hdue, if_pos hdue, cutOff, Guard.mk.injEq]
  refine ⟨rfl, ?_, ?_, rfl, rfl⟩
  · show (11 * n + 11 + 1 + 1 : ℚ) = 11 * (n + 1 : ℕ) + 2
    push_cast
    ring
  · show (11 * n + 11 + 1 + (10 + 0 + 0) : ℚ) = 11 * (n + 1 : ℕ) + 11
    push_cast
    ring

theorem run_cutOff (n m : ℕ) (pings : List (ℚ × Bool)) :
    ∃ pings', (cutOff n pings).run iso 1 (List.replicate m cutTurn) = cutOff (n + m) pings' := by
  induction m generalizing n pings with
  | zero => exact ⟨pings, rfl⟩
  | succ m ih =>
      obtain ⟨first, hfirst⟩ := turn_cutOff iso n pings
      obtain ⟨rest, hrest⟩ := ih (n + 1) first
      refine ⟨rest, ?_⟩
      rw [List.replicate_succ]
      show ((cutOff n pings).turn iso 1 cutTurn).run iso 1 _ = _
      rw [hfirst, hrest, Nat.add_right_comm, Nat.add_assoc]

theorem reached_long {g : Gaps} {since time : ℚ} (h : g.downSince = some since)
    (hlong : OFFLINE_MIN_SECONDS ≤ time - since) : g.reached iso time true =
      { g.note iso .offline since with downSince := none, lastOk := time } := by
  rw [Gaps.reached, if_pos rfl, h]
  dsimp only
  rw [if_pos hlong]

/-- Two minutes cut off, one ping answered whose gap could not be told, and two more turns cut off. -/
def cutTwice : List GuardTurn := cutTurn :: (List.replicate 10 cutTurn ++ [pingTurn, cutTurn, cutTurn])

/-- **A second cut is called a sleep**: the turn's two requests, of which one is of a gap still pending, end
    at their timeouts, later than the next look expects. -/
theorem cutTwice_not_honest :
    ¬ ((start 1 0 1).run (fun _ => newYear) 1 cutTwice).Honest (fun _ => newYear) 0 := by
  generalize (fun _ : ℚ => newYear) = iso
  have hfirst : (start 1 0 1).turn iso 1 cutTurn = cutOff 0 [(1, false)] := by
    have hprompt : (start 1 0 1).Prompt := by
      rw [Prompt, patience]
      show (0 : ℚ) - 0 ≤ 2 * 1 + 15
      norm_num
    have hdue : (start 1 0 1).PingDue := by
      show (0 + 1 : ℚ) ≤ 0 + 1
      norm_num
    have hlooked : (start 1 0 1).looked iso cutTurn = ⟨1, 1, 0, some 0, [], 0⟩ := by
      rw [looked_due hprompt hdue]
      show (⟨1, 0 + 1, 0, some 0, [], 0⟩ : Gaps) = _
      rw [zero_add]
    rw [turn, hlooked, heldUp, hlooked, if_pos hdue, if_pos hdue, if_pos hdue, cutOff, Guard.mk.injEq, Gaps.mk.injEq]
    refine ⟨⟨rfl, ?_, rfl, rfl, rfl, rfl⟩, ?_, ?_, rfl, ?_⟩
    · norm_num
    · show (0 + 1 + 1 : ℚ) = 11 * (0 : ℕ) + 2
      norm_num
    · show (0 + 1 + (10 + 0 + 0) : ℚ) = 11 * (0 : ℕ) + 11
      norm_num
    · show [((0 + 1 : ℚ), false)] = _
      rw [zero_add]
  obtain ⟨pings, hcut⟩ := run_cutOff iso 0 10 [(1, false)]
  -- the ping after them is answered, and the gap it shows is not told
  have hpinged : ∃ gap put pings', (cutOff 10 pings).turn iso 1 pingTurn =
      ⟨⟨1, 122, 122, none, [gap], 1⟩, 123, 132, put, pings'⟩ := by
    have hprompt : (cutOff 10 pings).Prompt := by
      rw [Prompt, patience]
      show (11 * (10 : ℕ) + 11 : ℚ) - (11 * (10 : ℕ) + 1) ≤ 2 * 1 + 15
      norm_num
    have hwakes : (cutOff 10 pings).wakes = 122 := by
      show (11 * (10 : ℕ) + 11 + 1 : ℚ) = 122
      norm_num
    have hdue : (cutOff 10 pings).PingDue := by
      rw [PingDue, hwakes]
      show (11 * (10 : ℕ) + 2 : ℚ) ≤ 122
      norm_num
    have hlooked : (cutOff 10 pings).looked iso pingTurn = ⟨1, 122, 122, none, [⟨.offline, iso 0, 0⟩], 1⟩ := by
      have hlong : OFFLINE_MIN_SECONDS ≤ 122 - 0 := by
        rw [OFFLINE_MIN_SECONDS]
        norm_num
      rw [looked_due hprompt hdue, hwakes]
      exact reached_long iso rfl hlong
    refine ⟨⟨.offline, iso 0, 0⟩, [⟨.offline, iso 0, 0⟩], pings ++ [(122, true)], ?_⟩
    rw [turn, hlooked, heldUp, hlooked, if_pos hdue, if_pos hdue, if_pos hdue, hwakes, Guard.mk.injEq]
    refine ⟨rfl, ?_, ?_, rfl, rfl⟩
    · norm_num
    · show (122 + (0 + (10 + 0) + 0) : ℚ) = 132
      norm_num
  obtain ⟨gap, put, pings', hpinged⟩ := hpinged
  have hlate : ¬ ((⟨⟨1, 122, 122, none, [gap], 1⟩, 123, 132, put, pings'⟩ : Guard).turn iso 1 cutTurn).Prompt := by
    have hprompt : (⟨⟨1, 122, 122, none, [gap], 1⟩, 123, 132, put, pings'⟩ : Guard).Prompt := by
      rw [Prompt, patience]
      norm_num
    have hdue : (⟨⟨1, 122, 122, none, [gap], 1⟩, 123, 132, put, pings'⟩ : Guard).PingDue := by
      show (123 : ℚ) ≤ 132 + 1
      norm_num
    rw [prompt_turn, heldUp, if_pos hdue, looked_due hprompt hdue, patience]
    show ¬ (10 + (10 + 0) + 0 : ℚ) ≤ 2 * 1 + 15
    norm_num
  have hrun : (start 1 0 1).run iso 1 cutTwice =
      (((⟨⟨1, 122, 122, none, [gap], 1⟩, 123, 132, put, pings'⟩ : Guard).turn iso 1 cutTurn).turn iso 1 cutTurn).run
        iso 1 [] := by
    rw [cutTwice, run, List.foldl_cons, hfirst, List.foldl_append]
    show ((((cutOff 0 [(1, false)]).run iso 1 (List.replicate 10 cutTurn)).turn iso 1 pingTurn).turn iso 1 cutTurn).turn
      iso 1 cutTurn = _
    rw [hcut, hpinged]
    rfl
  rw [hrun]
  exact not_honest_of_late hlate []

end Guard

end Sigillo
