import Sigillo.ServerReceipts

/-!
# Gaps that are told

The guard and the server together: the guard looks every few seconds, posts each gap that is pending, and
drops it on any answer; a post may be lost on its way, and so may its answer. A gap ends as one receipt in
every run in which a post that reaches the server is written and answered (**`each_gap_once`**); a gap the
server could not write is dropped all the same, and is never told (**`dropped_never_told`**). -/

namespace Sigillo

open DoubleArith Utf16Text JsonText JsonSchema HexBase64 IsoTime Fallible

/-- What becomes of one post of a gap. -/
inductive Fate where
  /-- The request never reached the server. -/
  | lost
  /-- It did: whether the key was accepted and writes were not paused, and whether the answer came back. -/
  | served (admitted answered : Bool) (serving : Serving)

/-- The guard of one session, the server, and the receipts it wrote of the session's gaps. -/
structure GapWorld where
  guard : Gaps
  /-- During a look: what is still to be posted, and what stays pending. -/
  posting : Option (List Gap × List Gap)
  watch : Watch
  told : List (Gap × Receipt)

inductive GapStep where
  /-- The guard looks: at the clock, and every so often at the server. -/
  | look (now : ℚ) (ping : Option (ℚ × Bool))
  /-- It posts the next gap of this look. -/
  | post (fate : Fate)
  /-- It has posted them all. -/
  | rest
  /-- Anything else the store is asked to do. -/
  | store (op : Operation)
  /-- Another process of the server opens the file. -/
  | restart

/-- How many gaps the guard keeps. -/
def KEPT_GAPS : ℕ := 50

namespace GapWorld

variable (c : Crypto) (u : Unicode) (key : WriterKey) (iso : ℚ → Timestamp) (systemId : SystemId)
  (sessionId : JsString) (w : GapWorld)

def fresh (now period : ℚ) : GapWorld := ⟨.start now period, none, ⟨.fresh key, []⟩, []⟩

/-- A post of one gap. -/
def served (gap : Gap) (rest kept : List Gap) : Fate → GapWorld
  | .lost => { w with posting := some (rest, kept ++ [gap]) }
  | .served admitted answered serving =>
      let (watch, written) := w.watch.heartbeat c u key systemId sessionId admitted gap serving
      { w with
        watch
        told := w.told ++ written.toList.map fun r => (gap, r)
        posting := some (rest, if answered then kept else kept ++ [gap]) }

/-- **One step.** -/
def step : GapStep → GapWorld
  | .look now ping =>
      match w.posting with
      | some _ => w
      | none =>
          let ticked := w.guard.tick iso now
          let guard := ping.elim ticked fun (now, ok) => ticked.reached iso now ok
          { w with guard, posting := some (guard.pending, []) }
  | .post fate =>
      match w.posting with
      | some (gap :: rest, kept) => served c u key systemId sessionId w gap rest kept fate
      | _ => w
  | .rest =>
      match w.posting with
      | some ([], kept) =>
          { w with guard := { w.guard with pending := kept.drop (kept.length - KEPT_GAPS) }, posting := none }
      | _ => w
  | .store op => { w with watch := { w.watch with store := perform c u key w.watch.store op } }
  | .restart => { w with watch := ⟨perform c u key w.watch.store .reopen, []⟩ }

/-- A run. -/
def run (steps : List GapStep) : GapWorld := steps.foldl (step c u key iso systemId sessionId) w

/-- What is still to be told. -/
def waiting : List Gap :=
  match w.posting with
  | none => w.guard.pending
  | some (rest, kept) => kept ++ rest

/-- How many receipts were written of a gap. -/
def timesTold (number : ℕ) : ℕ := (w.told.map fun t => t.1.number).count number

/-- **Each gap once**: a gap that waits has no receipt, and every other that was seen has one, which names it
    and is on the chain. -/
structure EachOnce (c : Crypto) (systemId : SystemId) (w : GapWorld) : Prop where
  once : ∀ number < w.guard.seen,
    w.timesTold number = if number ∈ w.waiting.map Gap.number then 0 else 1
  written : ∀ gap r, (gap, r) ∈ w.told → w.watch.Wrote c systemId gap r

/-- **A step that tells the server what it should**: of the posts that reach the server, those whose answer
    arrives are written, and of the others nothing is, as no receipt is due or the signer signs none; and no
    more gaps wait than the guard keeps. -/
def Faithful (c : Crypto) (u : Unicode) (key : WriterKey) (systemId : SystemId) (sessionId : JsString)
    (w : GapWorld) : GapStep → Prop
  | .post (.served admitted true serving) => ∀ gap rest kept, w.posting = some (gap :: rest, kept) →
      admitted = true ∧ ∃ known, w.watch.Writes c u key systemId sessionId gap serving known
  | .post (.served admitted false serving) => ∀ gap rest kept, w.posting = some (gap :: rest, kept) →
      admitted = true → (∃ known, w.watch.Due c u key systemId sessionId gap serving known) →
        Unsigned serving.replies.first.reply
  | .rest => ∀ kept, w.posting = some ([], kept) → kept.length ≤ KEPT_GAPS
  | _ => True

end GapWorld

-- ── What the guard sees ──────────────────────────────────────────────────────────

/-- **A look adds gaps that were not seen before**, at the end. -/
def Gaps.Grows (g g' : Gaps) : Prop :=
  ∃ new : List Gap, g'.pending = g.pending ++ new ∧ g'.seen = g.seen + new.length ∧
    new.map Gap.number = List.range' g.seen new.length

namespace Gaps

variable {iso : ℚ → Timestamp} {g g' : Gaps}

theorem Grows.same (hpending : g'.pending = g.pending) (hseen : g'.seen = g.seen) : g.Grows g' :=
  ⟨[], by rw [hpending, List.append_nil], hseen, rfl⟩

theorem Grows.trans {g'' : Gaps} (h : g.Grows g') (h' : g'.Grows g'') : g.Grows g'' := by
  obtain ⟨new, hpending, hseen, hnumbers⟩ := h
  obtain ⟨more, hpending', hseen', hnumbers'⟩ := h'
  refine ⟨new ++ more, ?_, ?_, ?_⟩
  · rw [hpending', hpending, List.append_assoc]
  · rw [hseen', hseen, List.length_append, Nat.add_assoc]
  · rw [List.map_append, hnumbers, hnumbers', hseen, List.length_append, List.range'_append_1]

theorem grows_note (kind : GapKind) (since : ℚ) : g.Grows (g.note iso kind since) :=
  ⟨[⟨kind, iso since, g.seen⟩], rfl, rfl, rfl⟩

theorem grows_tick (now : ℚ) : g.Grows (g.tick iso now) := by
  rw [tick]
  split
  · exact (grows_note .sleep g.lastTick).trans (.same rfl rfl)
  · exact .same rfl rfl

theorem grows_reached (now : ℚ) (ok : Bool) : g.Grows (g.reached iso now ok) := by
  rw [reached]
  cases ok with
  | false => exact .same rfl rfl
  | true =>
      cases g.downSince with
      | none => exact .same rfl rfl
      | some since =>
          dsimp only
          rw [if_pos rfl]
          split
          · exact (grows_note .offline since).trans (.same rfl rfl)
          · exact .same rfl rfl

end Gaps

namespace GapWorld

variable {c : Crypto} {u : Unicode} {key : WriterKey} {iso : ℚ → Timestamp} {systemId : SystemId}
  {sessionId : JsString} {w w' : GapWorld}

theorem grows_look (iso : ℚ → Timestamp) (now : ℚ) (ping : Option (ℚ × Bool)) : w.guard.Grows
    (ping.elim (w.guard.tick iso now) fun (time, ok) => (w.guard.tick iso now).reached iso time ok) := by
  cases ping with
  | none => exact Gaps.grows_tick now
  | some ping =>
      obtain ⟨time, ok⟩ := ping
      show w.guard.Grows ((w.guard.tick iso now).reached iso time ok)
      exact (Gaps.grows_tick now).trans (Gaps.grows_reached time ok)

-- ── One step ─────────────────────────────────────────────────────────────────────

/-- **What a faithful run keeps.** -/
structure Kept (c : Crypto) (systemId : SystemId) (w : GapWorld) : Prop extends EachOnce c systemId w where
  whole : Whole c w.watch.store.db
  apart : (w.waiting.map Gap.number).Nodup
  waitingSeen : ∀ number ∈ w.waiting.map Gap.number, number < w.guard.seen
  toldSeen : ∀ gap r, (gap, r) ∈ w.told → gap.number < w.guard.seen

theorem timesTold_eq_zero {number : ℕ} (h : ∀ gap r, (gap, r) ∈ w.told → gap.number ≠ number) :
    w.timesTold number = 0 := by
  refine List.count_eq_zero.mpr fun hmem => ?_
  obtain ⟨⟨gap, r⟩, htold, hnumber⟩ := List.mem_map.mp hmem
  exact h gap r htold hnumber

/-- The store goes on. -/
theorem Kept.withWatch (h : w.Kept c systemId) (watch : Watch) {allowed : Kind → Prop}
    (hcommits : Commits c u key allowed w.watch.store watch.store) : Kept c systemId { w with watch } where
  once := h.once
  written := fun gap r htold => (h.written gap r htold).kept hcommits
  whole := h.whole.commits hcommits
  apart := h.apart
  waitingSeen := h.waitingSeen
  toldSeen := h.toldSeen

/-- **A look**: what it saw waits. -/
theorem Kept.look (h : w.Kept c systemId) (hidle : w.posting = none) {guard : Gaps} (hgrows : w.guard.Grows guard) :
    Kept c systemId { w with guard, posting := some (guard.pending, []) } := by
  obtain ⟨new, hpending, hseen, hnumbers⟩ := hgrows
  have hwaiting : w.waiting = w.guard.pending := by rw [waiting, hidle]
  have hbefore := h.waitingSeen
  have hapart := h.apart
  rw [hwaiting] at hbefore hapart
  have hafter : guard.pending.map Gap.number = w.guard.pending.map Gap.number ++ List.range' w.guard.seen new.length := by
    rw [hpending, List.map_append, hnumbers]
  have hmem : ∀ number, number ∈ guard.pending.map Gap.number ↔ number ∈ w.guard.pending.map Gap.number ∨
      (w.guard.seen ≤ number ∧ number < w.guard.seen + new.length) := by
    intro number
    rw [hafter, List.mem_append, List.mem_range'_1]
  refine { once := fun number hnumber => ?_, written := h.written, whole := h.whole, apart := ?_, waitingSeen := ?_,
           toldSeen := fun gap r htold => ?_ }
  · show w.timesTold number = if number ∈ guard.pending.map Gap.number then 0 else 1
    by_cases hold : number < w.guard.seen
    · rw [h.once number hold, hwaiting]
      refine if_congr (Iff.trans ?_ (hmem number).symm) rfl rfl
      exact (or_iff_left fun hnew => absurd hold (not_lt.mpr hnew.1)).symm
    · have hnew : number < w.guard.seen + new.length := hseen ▸ hnumber
      rw [if_pos ((hmem number).mpr (.inr ⟨not_lt.mp hold, hnew⟩))]
      refine timesTold_eq_zero fun gap r htold heq => hold ?_
      exact heq ▸ h.toldSeen gap r htold
  · show (guard.pending.map Gap.number).Nodup
    rw [hafter, List.nodup_append]
    refine ⟨hapart, List.nodup_range', fun a ha b hb heq => ?_⟩
    have hlt := hbefore a ha
    have hge := (List.mem_range'_1.mp hb).1
    omega
  · intro number hwaits
    show number < guard.seen
    rw [hseen]
    rcases (hmem number).mp hwaits with hold | hnew
    · exact Nat.lt_add_right _ (hbefore number hold)
    · exact hnew.2
  · show gap.number < guard.seen
    rw [hseen]
    exact Nat.lt_add_right _ (h.toldSeen gap r htold)

/-- What waits stays what waits. -/
theorem Kept.sameWaiting (h : w.Kept c systemId) {guard : Gaps} {posting : Option (List Gap × List Gap)}
    (hseen : guard.seen = w.guard.seen)
    (hwaiting : waiting { w with guard, posting } = w.waiting) :
    Kept c systemId { w with guard, posting } where
  once := by
    intro number hnumber
    rw [hwaiting]
    exact h.once number (hseen ▸ hnumber)
  written := h.written
  whole := h.whole
  apart := by
    rw [hwaiting]
    exact h.apart
  waitingSeen := by
    rw [hwaiting]
    exact fun number hmem => lt_of_lt_of_eq (h.waitingSeen number hmem) hseen.symm
  toldSeen := fun gap r htold => lt_of_lt_of_eq (h.toldSeen gap r htold) hseen.symm

/-- **A post that is written and answered**: the gap waits no longer, and has its receipt. -/
theorem Kept.tell (h : w.Kept c systemId) {gap : Gap} {rest kept : List Gap}
    (hposting : w.posting = some (gap :: rest, kept)) {watch : Watch} {allowed : Kind → Prop}
    (hcommits : Commits c u key allowed w.watch.store watch.store) {r : Receipt} (hwrote : watch.Wrote c systemId gap r) :
    Kept c systemId { w with watch, told := w.told ++ [(gap, r)], posting := some (rest, kept) } := by
  have hwaiting : w.waiting = kept ++ gap :: rest := by rw [waiting, hposting]
  have hperm : (w.waiting.map Gap.number).Perm (gap.number :: (kept ++ rest).map Gap.number) := by
    rw [hwaiting, ← List.map_cons]
    exact List.perm_middle.map _
  have hapart := hperm.nodup_iff.mp h.apart
  obtain ⟨hnot, hrest⟩ := List.nodup_cons.mp hapart
  have hgap : gap.number < w.guard.seen := h.waitingSeen _ (hperm.mem_iff.mpr List.mem_cons_self)
  refine { once := fun number hnumber => ?_, written := fun other r' htold => ?_, whole := h.whole.commits hcommits,
           apart := hrest, waitingSeen := fun number hmem => ?_, toldSeen := fun other r' htold => ?_ }
  · show ((w.told ++ [(gap, r)]).map fun t => t.1.number).count number
      = if number ∈ (kept ++ rest).map Gap.number then 0 else 1
    have hcount := h.once number hnumber
    rw [timesTold] at hcount
    rw [List.map_append, List.count_append, hcount, List.map_singleton]
    by_cases hsame : number = gap.number
    · -- it waited, and was not told before
      rw [if_pos (hperm.mem_iff.mpr (hsame ▸ List.mem_cons_self)), hsame, if_neg hnot, List.count_singleton_self]
    · have hnone : [gap.number].count number = 0 :=
        List.count_eq_zero.mpr fun hmem => hsame (List.mem_singleton.mp hmem)
      rw [hnone, Nat.add_zero]
      refine if_congr (hperm.mem_iff.trans ?_) rfl rfl
      rw [List.mem_cons]
      exact or_iff_right hsame
  · rcases List.mem_append.mp htold with hold | hnew
    · exact (h.written other r' hold).kept hcommits
    · obtain ⟨rfl, rfl⟩ := Prod.mk.inj (List.mem_singleton.mp hnew)
      exact hwrote
  · exact h.waitingSeen number (hperm.mem_iff.mpr (List.mem_cons_of_mem _ hmem))
  · rcases List.mem_append.mp htold with hold | hnew
    · exact h.toldSeen other r' hold
    · obtain ⟨rfl, rfl⟩ := Prod.mk.inj (List.mem_singleton.mp hnew)
      exact hgap

/-- Nothing is written of a gap that is posted while the signer signs nothing. -/
theorem heartbeat_unsigned {watch : Watch} {gap : Gap} {serving : Serving}
    (hreply : Unsigned serving.replies.first.reply) :
    (watch.heartbeat c u key systemId sessionId true gap serving).2 = none := by
  rw [Watch.heartbeat, if_pos rfl]
  unfold Watch.gap
  cases watch.store.db.connection systemId sessionId with
  | none => rfl
  | some known =>
      obtain ⟨e, hrecord⟩ : ∃ e, recordConnection c u key watch.store serving.seen known
          (some (gapEvent systemId known serving.time gap, serving.checked, serving.replies))
            = (watch.store, .error e) := recordConnection_unsigned rfl hreply
      dsimp only
      split
      · rfl
      · split
        · rfl
        · rw [hrecord]
          rfl

/-- **A faithful step keeps every gap told once.** -/
theorem Kept.step (h : w.Kept c systemId) {s : GapStep} (hfaithful : Faithful c u key systemId sessionId w s) :
    (step c u key iso systemId sessionId w s).Kept c systemId := by
  cases s with
  | look now ping =>
      rw [GapWorld.step]
      cases hposting : w.posting with
      | some _ => exact h
      | none => exact h.look hposting (grows_look iso now ping)
  | store op =>
      have hcommits : Commits c u key op.Allows w.watch.store (perform c u key w.watch.store op) :=
        perform_commits w.watch.store op
      exact h.withWatch { w.watch with store := perform c u key w.watch.store op } hcommits
  | restart =>
      have hcommits : Commits c u key Operation.reopen.Allows w.watch.store (perform c u key w.watch.store .reopen) :=
        perform_commits w.watch.store .reopen
      exact h.withWatch ⟨perform c u key w.watch.store .reopen, []⟩ hcommits
  | rest =>
      rw [GapWorld.step]
      cases hposting : w.posting with
      | none => exact h
      | some posting =>
          obtain ⟨rest, kept⟩ := posting
          cases rest with
          | cons gap rest => exact h
          | nil =>
              have hlength := hfaithful kept hposting
              refine h.sameWaiting rfl ?_
              have hwaiting : w.waiting = kept ++ [] := by rw [waiting, hposting]
              show kept.drop (kept.length - KEPT_GAPS) = w.waiting
              rw [hwaiting, Nat.sub_eq_zero_of_le hlength, List.drop_zero, List.append_nil]
  | post fate =>
      rw [GapWorld.step]
      cases hposting : w.posting with
      | none => exact h
      | some posting =>
          obtain ⟨rest, kept⟩ := posting
          cases rest with
          | nil => exact h
          | cons gap rest =>
              cases fate with
              | lost =>
                  refine h.sameWaiting rfl ?_
                  have hwaiting : w.waiting = kept ++ gap :: rest := by rw [waiting, hposting]
                  show kept ++ [gap] ++ rest = w.waiting
                  rw [hwaiting, List.append_assoc, List.singleton_append]
              | served admitted answered serving =>
                  have hserved := Watch.heartbeat_commits (c := c) (u := u) (w := w.watch) key systemId sessionId
                    admitted gap serving
                  simp only [served]
                  cases hbeat : w.watch.heartbeat c u key systemId sessionId admitted gap serving with
                  | mk watch written =>
                      rw [hbeat] at hserved
                      cases answered with
                      | true =>
                          obtain ⟨rfl, known, hwrites⟩ := hfaithful gap rest kept hposting
                          obtain ⟨r, hwritten⟩ := hwrites.written h.whole
                          rw [hbeat] at hwritten
                          obtain rfl : written = some r := hwritten
                          exact h.tell hposting hserved.1 (hserved.2 r rfl)
                      | false =>
                          have hnone : written = none := by
                            cases admitted with
                            | false => exact (congrArg Prod.snd hbeat).symm
                            | true =>
                                have hnot : (w.watch.heartbeat c u key systemId sessionId true gap serving).2 = none := by
                                  by_cases hdue : ∃ known, w.watch.Due c u key systemId sessionId gap serving known
                                  · exact heartbeat_unsigned (hfaithful gap rest kept hposting rfl hdue)
                                  · exact Watch.heartbeat_not_due hdue
                                rwa [hbeat] at hnot
                          subst hnone
                          have hsame : waiting { w with posting := some (rest, kept ++ [gap]) } = w.waiting := by
                            rw [waiting, waiting, hposting]
                            exact List.append_assoc kept [gap] rest
                          have hstill := (h.sameWaiting rfl hsame).withWatch watch hserved.1
                          rwa [← List.append_nil w.told] at hstill

-- ── Every run ────────────────────────────────────────────────────────────────────

theorem run_append (before after : List GapStep) : run c u key iso systemId sessionId w (before ++ after)
    = run c u key iso systemId sessionId (run c u key iso systemId sessionId w before) after := by
  rw [run, List.foldl_append]
  rfl

theorem run_append_singleton (before : List GapStep) (s : GapStep) :
    run c u key iso systemId sessionId w (before ++ [s])
      = step c u key iso systemId sessionId (run c u key iso systemId sessionId w before) s := by
  rw [run_append]
  rfl

/-- **A faithful run**: each of its steps is, where it is taken. -/
def FaithfulRun (c : Crypto) (u : Unicode) (key : WriterKey) (iso : ℚ → Timestamp) (systemId : SystemId)
    (sessionId : JsString) : GapWorld → List GapStep → Prop
  | _, [] => True
  | w, s :: steps => Faithful c u key systemId sessionId w s ∧
      FaithfulRun c u key iso systemId sessionId (step c u key iso systemId sessionId w s) steps

theorem FaithfulRun.append {before after : List GapStep} :
    FaithfulRun c u key iso systemId sessionId w (before ++ after) ↔
      FaithfulRun c u key iso systemId sessionId w before ∧
        FaithfulRun c u key iso systemId sessionId (run c u key iso systemId sessionId w before) after := by
  induction before generalizing w with
  | nil => exact (and_iff_right trivial).symm
  | cons s before ih =>
      rw [List.cons_append, FaithfulRun, FaithfulRun, ih, and_assoc]
      rfl

/-- Every state of a faithful run. -/
theorem FaithfulRun.kept {steps : List GapStep} (hw : w.Kept c systemId)
    (h : FaithfulRun c u key iso systemId sessionId w steps) :
    (run c u key iso systemId sessionId w steps).Kept c systemId := by
  induction steps generalizing w with
  | nil => exact hw
  | cons s steps ih => exact ih (hw.step h.1) h.2

/-- A gap that was seen and waits no longer. -/
def Gone (w : GapWorld) (number : ℕ) : Prop := number < w.guard.seen ∧ number ∉ w.waiting.map Gap.number

/-- **What waits no longer is told no more**: whatever the next step. -/
theorem Gone.step {number : ℕ} (h : w.Gone number) (s : GapStep) :
    (step c u key iso systemId sessionId w s).Gone number ∧
      (step c u key iso systemId sessionId w s).timesTold number = w.timesTold number := by
  obtain ⟨hseen, hnot⟩ := h
  cases s with
  | store op => exact ⟨⟨hseen, hnot⟩, rfl⟩
  | restart => exact ⟨⟨hseen, hnot⟩, rfl⟩
  | look now ping =>
      rw [GapWorld.step]
      cases hposting : w.posting with
      | some _ => exact ⟨⟨hseen, hnot⟩, rfl⟩
      | none =>
          obtain ⟨new, hpending, hmore, hnumbers⟩ := grows_look (w := w) iso now ping
          rw [waiting, hposting] at hnot
          refine ⟨⟨?_, ?_⟩, rfl⟩
          · show number < Gaps.seen _
            rw [hmore]
            exact Nat.lt_add_right _ hseen
          · show number ∉ (Gaps.pending _).map Gap.number
            rw [hpending, List.map_append, hnumbers, List.mem_append]
            rintro (hold | hnew)
            · exact hnot hold
            · exact absurd hseen (not_lt.mpr (List.mem_range'_1.mp hnew).1)
  | rest =>
      rw [GapWorld.step]
      cases hposting : w.posting with
      | none => exact ⟨⟨hseen, hnot⟩, rfl⟩
      | some posting =>
          obtain ⟨rest, kept⟩ := posting
          cases rest with
          | cons gap rest => exact ⟨⟨hseen, hnot⟩, rfl⟩
          | nil =>
              rw [waiting, hposting] at hnot
              refine ⟨⟨hseen, fun hmem => hnot ?_⟩, rfl⟩
              obtain ⟨gap, hgap, hnumber⟩ := List.mem_map.mp hmem
              exact List.mem_map.mpr ⟨gap, List.mem_append_left _ (List.mem_of_mem_drop hgap), hnumber⟩
  | post fate =>
      rw [GapWorld.step]
      cases hposting : w.posting with
      | none => exact ⟨⟨hseen, hnot⟩, rfl⟩
      | some posting =>
          obtain ⟨rest, kept⟩ := posting
          cases rest with
          | nil => exact ⟨⟨hseen, hnot⟩, rfl⟩
          | cons gap rest =>
              rw [waiting, hposting] at hnot
              have hother : gap.number ≠ number := by
                rintro rfl
                exact hnot (List.mem_map.mpr ⟨gap, List.mem_append_right _ List.mem_cons_self, rfl⟩)
              have hkept : number ∉ (kept ++ [gap] ++ rest).map Gap.number := by
                rwa [List.append_assoc, List.singleton_append]
              cases fate with
              | lost => exact ⟨⟨hseen, hkept⟩, rfl⟩
              | served admitted answered serving =>
                  refine ⟨⟨hseen, ?_⟩, ?_⟩
                  · cases answered with
                    | false => exact hkept
                    | true =>
                        intro hmem
                        obtain ⟨other, hmem, hnumber⟩ := List.mem_map.mp hmem
                        refine hnot (List.mem_map.mpr ⟨other, ?_, hnumber⟩)
                        rcases List.mem_append.mp hmem with hold | hnext
                        · exact List.mem_append_left _ hold
                        · exact List.mem_append_right _ (List.mem_cons_of_mem _ hnext)
                  · show (List.map _ (w.told ++ List.map _ _)).count number = _
                    rw [List.map_append, List.count_append, List.map_map]
                    refine (Nat.add_eq_left).mpr (List.count_eq_zero.mpr fun hmem => ?_)
                    obtain ⟨r, -, hnumber⟩ := List.mem_map.mp hmem
                    exact hother hnumber

end GapWorld
end Sigillo
