import Sigillo.AssocList
import Sigillo.Fallible
import Sigillo.JsonParse

/-!
# Failed attempts

A client that fails too often has to wait, longer each time. Nothing a client does meanwhile changes
when its wait ends, and no wait of a client that is remembered is shorter than the last, as long as
no client is forgotten that still has something held against it (**`throttle_holds`**): forgetting
looks at the last failure only, and both waits and windows may be set longer than it. -/

namespace Sigillo

open DoubleArith Utf16Text JsonText JsonParse AssocList

-- ── Settings ─────────────────────────────────────────────────────────────────────

/-- What an environment variable is refused with. -/
structure ConfigError where
  message : JsString

/-- `positiveInteger`; digits of a number past `max` are past every safe integer that is. -/
def positiveInteger (name : JsString) (value : Option JsString) (fallback max : ℕ) : Except ConfigError ℕ :=
  match value with
  | none => .ok fallback
  | some text =>
      if text ≠ [] ∧ text.all isDigit = true ∧ 1 ≤ digitsValue text ∧ digitsValue text ≤ max then .ok (digitsValue text)
      else .error ⟨name ++ js " must be a whole number from 1 " ++ js "to " ++ countText max ++ js ", received "
        ++ quote text⟩

/-- What the environment sets. -/
structure ThrottleSettings where
  maxFailures : ℕ
  windowMs : ℕ
  lockoutMs : ℕ
  maxLockoutMs : ℕ

/-- The settings, with how long a client is remembered and how many are. -/
structure ThrottleOptions extends ThrottleSettings where
  forgetAfterMs : ℕ
  maxEntries : ℕ

/-- A day. -/
def DAY_MS : ℕ := 24 * 60 * 60000

/-- A minute. -/
def MINUTE_MS : ℕ := 60000

/-- The options a throttle has by default beside its settings. -/
def ThrottleSettings.options (settings : ThrottleSettings) : ThrottleOptions := ⟨settings, DAY_MS, 10000⟩

/-- What is set of the login limits. -/
structure LoginEnvironment where
  maxFailures : Option JsString
  windowMinutes : Option JsString
  lockoutMinutes : Option JsString
  lockoutMaxMinutes : Option JsString

/-- **`parseThrottleSettings`.** -/
def parseThrottleSettings (env : LoginEnvironment) : Except ConfigError ThrottleSettings := do
  let maxFailures ← positiveInteger (js "SIGILLO_LOGIN_MAX_FAILURES") env.maxFailures 5 1000
  let windowMinutes ← positiveInteger (js "SIGILLO_LOGIN_WINDOW_MINUTES") env.windowMinutes 15 (7 * 24 * 60)
  let lockoutMinutes ← positiveInteger (js "SIGILLO_LOGIN_LOCKOUT_MINUTES") env.lockoutMinutes 5 (7 * 24 * 60)
  let maxMinutes ← positiveInteger (js "SIGILLO_LOGIN_LOCKOUT_MAX_" ++ js "MINUTES") env.lockoutMaxMinutes 60 (7 * 24 * 60)
  if maxMinutes * MINUTE_MS < lockoutMinutes * MINUTE_MS then
    .error ⟨js "SIGILLO_LOGIN_LOCKOUT_MAX_" ++ js "MINUTES must be at least " ++ js "SIGILLO_LOGIN_LOCKOUT_MINUTES"⟩
  else .ok ⟨maxFailures, windowMinutes * MINUTE_MS, lockoutMinutes * MINUTE_MS, maxMinutes * MINUTE_MS⟩

-- ── The throttle ─────────────────────────────────────────────────────────────────

/-- What is remembered of a client. -/
structure AttemptEntry where
  failures : List ℕ
  lockedUntil : ℕ
  lockouts : ℕ
  lastFailure : ℕ
deriving DecidableEq

/-- The clients that are remembered, the first of them the oldest. -/
abbrev Attempts := List (JsString × AttemptEntry)

section

variable (o : ThrottleOptions) (entries : Attempts) (client : JsString) (now : ℕ)

/-- `isLocked`. -/
def isLocked : Bool :=
  match entries.lookup client with
  | some entry => decide (now < entry.lockedUntil)
  | none => false

/-- Clients with nothing left to hold against them go, then the oldest while it is still full. -/
def makeRoom : Attempts :=
  if entries.length < o.maxEntries then entries
  else
    let kept := entries.filter fun e => !(decide (e.2.lockedUntil ≤ now) && decide (o.windowMs < now - e.2.lastFailure))
    kept.drop (kept.length + 1 - o.maxEntries)

/-- Whether a client's past is too long ago. -/
def forgets : Bool :=
  match entries.lookup client with
  | some entry => decide (o.forgetAfterMs < now - entry.lastFailure)
  | none => false

/-- Without the client, where it is forgotten. -/
def remembered : Attempts := if forgets o entries client now then entries.filter fun e => !(e.1 == client) else entries

/-- The client's entry, and the others with it. -/
def attemptEntryOf : Attempts × AttemptEntry :=
  match (remembered o entries client now).lookup client with
  | some entry => (remembered o entries client now, entry)
  | none => (makeRoom o (remembered o entries client now) now, ⟨[], 0, 0, now⟩)

/-- How long a client waits that has waited `lockouts` times. -/
def lockoutLength (lockouts : ℕ) : ℕ := min (o.lockoutMs * 2 ^ min lockouts 30) o.maxLockoutMs

/-- An entry once an attempt that counts has failed. -/
def AttemptEntry.failedAt (entry : AttemptEntry) : AttemptEntry :=
  let failures := entry.failures.filter (fun at' => decide (now - at' < o.windowMs)) ++ [now]
  if o.maxFailures ≤ failures.length then
    ⟨[], now + lockoutLength o entry.lockouts, entry.lockouts + 1, now⟩
  else { entry with failures, lastFailure := now }

/-- **`recordFailure`.** -/
def recordFailure : Attempts :=
  match attemptEntryOf o entries client now with
  | (others, entry) =>
      AssocList.set others client (if now < entry.lockedUntil then entry else entry.failedAt o now)

/-- `recordSuccess`. -/
def recordSuccess : Attempts := entries.filter fun e => !(e.1 == client)

end

-- ── Runs ─────────────────────────────────────────────────────────────────────────

/-- A call of the throttle. -/
inductive ThrottleCall where
  | isLocked (client : JsString)
  | recordFailure (client : JsString)
  | recordSuccess (client : JsString)

/-- **What a client is held to** since it last succeeded or was evicted: the end of its last lockout, its attempts
    that counted and failed since that began, and, while it is remembered, how long its lockouts were. -/
structure HeldAttempts where
  lockedUntil : ℕ
  counted : List ℕ
  lengths : List ℕ

/-- Nothing happened yet. -/
def HeldAttempts.nothing : HeldAttempts := ⟨0, [], []⟩

/-- The throttle, the time of its last call, and what each client did. -/
structure ThrottleWorld where
  entries : Attempts
  clock : ℕ
  held : JsString → HeldAttempts

/-- A new throttle. -/
def ThrottleWorld.fresh : ThrottleWorld := ⟨[], 0, fun _ => .nothing⟩

section

variable (o : ThrottleOptions)

/-- What a client is held to once an attempt of it has failed. -/
def HeldAttempts.failedAt (h : HeldAttempts) (entry : AttemptEntry) (now : ℕ) : HeldAttempts :=
  if now < entry.lockedUntil then h
  else if o.maxFailures ≤ (entry.failures.filter (fun at' => decide (now - at' < o.windowMs)) ++ [now]).length then
    ⟨now + lockoutLength o entry.lockouts, [], h.lengths ++ [lockoutLength o entry.lockouts]⟩
  else { h with counted := h.counted ++ [now] }

/-- One call. -/
def ThrottleWorld.step (w : ThrottleWorld) (now : ℕ) : ThrottleCall → ThrottleWorld
  | .isLocked _ => { w with clock := now }
  | .recordSuccess client =>
      ⟨recordSuccess w.entries client, now, fun c => if c = client then .nothing else w.held c⟩
  | .recordFailure client =>
      let others := (attemptEntryOf o w.entries client now).1
      let h := w.held client
      let kept := if forgets o w.entries client now then { h with lengths := [] } else h
      ⟨recordFailure o w.entries client now, now, fun c =>
        if c = client then kept.failedAt o (attemptEntryOf o w.entries client now).2 now
        else if (others.lookup c).isNone then .nothing else w.held c⟩

/-- Calls, one after the other. -/
def ThrottleWorld.run (w : ThrottleWorld) : List (ℕ × ThrottleCall) → ThrottleWorld
  | [] => w
  | (now, call) :: calls => (w.step o now call).run calls

/-- A client that is forgotten has nothing left to be held to: it is not locked, and no failure is in its window. -/
def ThrottleWorld.ForgetsStale (w : ThrottleWorld) (now : ℕ) : ThrottleCall → Prop
  | .recordFailure client => forgets o w.entries client now = true → ∀ entry, w.entries.lookup client = some entry →
      entry.lockedUntil ≤ now ∧ ∀ at' ∈ entry.failures, o.windowMs ≤ now - at'
  | _ => True

/-- Calls at times that never go back, none of which forgets a client that is held to something. -/
def ThrottleWorld.Meets (w : ThrottleWorld) : List (ℕ × ThrottleCall) → Prop
  | [] => True
  | (now, call) :: calls => w.clock ≤ now ∧ w.ForgetsStale o now call ∧ (w.step o now call).Meets calls

end

-- ── What a client is held to ─────────────────────────────────────────────────────

variable {o : ThrottleOptions}

/-- **The entry of a client holds it to what it is held to.** -/
structure HeldBy (o : ThrottleOptions) (clock : ℕ) (entry : AttemptEntry) (h : HeldAttempts) : Prop where
  locked : ∀ t, clock ≤ t → t < h.lockedUntil → t < entry.lockedUntil
  counted : List.Sublist (h.counted.filter fun at' => decide (clock - at' < o.windowMs)) entry.failures
  few : entry.failures.length < o.maxFailures
  sorted : h.lengths.Pairwise (· ≤ ·)
  lengths : ∀ l ∈ h.lengths, l ≤ lockoutLength o entry.lockouts

/-- Lockouts never get shorter. -/
theorem lockoutLength_mono {m n : ℕ} (h : m ≤ n) : lockoutLength o m ≤ lockoutLength o n := by
  have hpow : 2 ^ min m 30 ≤ 2 ^ min n 30 := Nat.pow_le_pow_right (by decide) (min_le_min_right 30 h)
  exact min_le_min_right _ (Nat.mul_le_mul_left _ hpow)

/-- Failures that leave the window never come back to it. -/
theorem filter_window_later {l : List ℕ} {clock now window : ℕ} (h : clock ≤ now) :
    (l.filter fun at' => decide (now - at' < window))
      = (l.filter fun at' => decide (clock - at' < window)).filter fun at' => decide (now - at' < window) := by
  rw [List.filter_filter]
  refine List.filter_congr fun at' _ => ?_
  by_cases hnow : now - at' < window
  · have hclock : clock - at' < window := lt_of_le_of_lt (Nat.sub_le_sub_right h at') hnow
    rw [decide_eq_true hnow, decide_eq_true hclock]
    rfl
  · rw [decide_eq_false hnow, Bool.false_and]

/-- What an entry holds it holds later too. -/
theorem HeldBy.later {clock now : ℕ} {entry : AttemptEntry} {h : HeldAttempts} (held : HeldBy o clock entry h)
    (hle : clock ≤ now) : HeldBy o now entry h :=
  { held with
    locked := fun t ht => held.locked t (hle.trans ht)
    counted := by
      rw [filter_window_later hle]
      exact List.filter_sublist.trans held.counted }

/-- **An attempt that fails** is held against its client. -/
theorem HeldBy.failedAt {now : ℕ} {entry : AttemptEntry} {h : HeldAttempts} (held : HeldBy o now entry h)
    (hmax : 0 < o.maxFailures) (hwindow : 0 < o.windowMs) :
    HeldBy o now (if now < entry.lockedUntil then entry else entry.failedAt o now) (h.failedAt o entry now) := by
  rw [HeldAttempts.failedAt]
  by_cases hlocked : now < entry.lockedUntil
  · rw [if_pos hlocked, if_pos hlocked]
    exact held
  · rw [if_neg hlocked, if_neg hlocked, AttemptEntry.failedAt]
    by_cases hmany : o.maxFailures
        ≤ (entry.failures.filter (fun at' => decide (now - at' < o.windowMs)) ++ [now]).length
    · rw [if_pos hmany, if_pos hmany]
      refine ⟨fun t _ ht => ht, List.Sublist.refl _, hmax, ?_, fun l hl => ?_⟩
      · refine List.pairwise_append.mpr ⟨held.sorted, List.pairwise_singleton _ _, fun a ha b hb => ?_⟩
        rw [List.mem_singleton.mp hb]
        exact held.lengths a ha
      · rcases List.mem_append.mp hl with hl | hl
        · exact (held.lengths l hl).trans (lockoutLength_mono (Nat.le_succ _))
        · rw [List.mem_singleton.mp hl]
          exact lockoutLength_mono (Nat.le_succ _)
    · rw [if_neg hmany, if_neg hmany]
      refine ⟨held.locked, ?_, Nat.lt_of_not_le hmany, held.sorted, held.lengths⟩
      rw [List.filter_append, List.filter_singleton]
      have hnow : decide (now - now < o.windowMs) = true := by
        rw [Nat.sub_self]
        exact decide_eq_true hwindow
      rw [hnow, cond_true]
      refine List.Sublist.append ?_ (List.Sublist.refl _)
      rw [filter_window_later (le_refl now)]
      exact held.counted.filter _

-- ── The clients that are remembered ──────────────────────────────────────────────

/-- What some of a map's entries hold under a key is what the map does, or nothing. -/
theorem lookup_sublist {entries left : Attempts} (hnd : (entries.map Prod.fst).Nodup) (h : List.Sublist left entries)
    (c : JsString) : left.lookup c = none ∨ left.lookup c = entries.lookup c := by
  cases hleft : left.lookup c with
  | none => exact .inl rfl
  | some entry =>
      have hmem := (lookup_eq_some_iff_mem ((h.map Prod.fst).nodup hnd)).mp hleft
      exact .inr ((lookup_eq_some_iff_mem hnd).mpr (h.subset hmem)).symm

/-- Making room only takes clients away. -/
theorem makeRoom_sublist (entries : Attempts) (now : ℕ) : List.Sublist (makeRoom o entries now) entries := by
  rw [makeRoom]
  by_cases hroom : entries.length < o.maxEntries
  · rw [if_pos hroom]
  · rw [if_neg hroom]
    exact (List.drop_sublist _ _).trans List.filter_sublist

/-- **Room is made** for one more. -/
theorem length_makeRoom (hmax : 0 < o.maxEntries) (entries : Attempts) (now : ℕ) :
    (makeRoom o entries now).length < o.maxEntries := by
  rw [makeRoom]
  by_cases hroom : entries.length < o.maxEntries
  · rwa [if_pos hroom]
  · rw [if_neg hroom]
    dsimp only
    rw [List.length_drop]
    omega

/-- Forgetting only takes clients away. -/
theorem remembered_sublist (entries : Attempts) (client : JsString) (now : ℕ) :
    List.Sublist (remembered o entries client now) entries := by
  rw [remembered]
  by_cases hforgets : forgets o entries client now = true
  · rw [if_pos hforgets]
    exact List.filter_sublist
  · rw [if_neg hforgets]

/-- Looking a client up only takes clients away. -/
theorem entryOf_sublist (entries : Attempts) (client : JsString) (now : ℕ) :
    List.Sublist (attemptEntryOf o entries client now).1 entries := by
  rw [attemptEntryOf]
  cases (remembered o entries client now).lookup client with
  | some entry => exact remembered_sublist entries client now
  | none => exact (makeRoom_sublist _ now).trans (remembered_sublist entries client now)

/-- A client whose failure is recorded is remembered already, or there is room for it. -/
theorem room_for_entryOf (hroom : 0 < o.maxEntries) (entries : Attempts) (client : JsString) (now : ℕ) :
    ((attemptEntryOf o entries client now).1.lookup client).isSome = true ∨
      (attemptEntryOf o entries client now).1.length < o.maxEntries := by
  rw [attemptEntryOf]
  cases hentry : (remembered o entries client now).lookup client with
  | some entry =>
      refine .inl ?_
      show ((remembered o entries client now).lookup client).isSome = true
      rw [hentry]
      rfl
  | none => exact .inr (length_makeRoom hroom _ now)

/-- The keys of a map after `set`, counted. -/
theorem length_set (entries : Attempts) (client : JsString) (entry : AttemptEntry) :
    (AssocList.set entries client entry).length
      = if (entries.lookup client).isSome then entries.length else entries.length + 1 := by
  induction entries with
  | nil => rfl
  | cons first rest ih =>
      obtain ⟨c, e⟩ := first
      rw [AssocList.set, List.lookup_cons]
      by_cases hc : c = client
      · subst hc
        rw [if_pos (beq_self_eq_true c), beq_self_eq_true]
        rfl
      · rw [if_neg (by simpa using hc), beq_false_of_ne (Ne.symm hc), List.length_cons, ih, List.length_cons]
        by_cases hsome : (rest.lookup client).isSome = true
        · rw [if_pos hsome, if_pos hsome]
        · rw [if_neg hsome, if_neg hsome]

/-- **What holds in every run**: clients are remembered once and not too many, and each is held to what it is. -/
structure Good (o : ThrottleOptions) (w : ThrottleWorld) : Prop where
  once : (w.entries.map Prod.fst).Nodup
  bounded : w.entries.length ≤ o.maxEntries
  some : ∀ c entry, w.entries.lookup c = some entry → HeldBy o w.clock entry (w.held c)
  none : ∀ c, w.entries.lookup c = none → w.held c = .nothing

/-- A new throttle. -/
theorem good_fresh (o : ThrottleOptions) : Good o .fresh :=
  ⟨List.nodup_nil, Nat.zero_le _, fun _ _ h => (nomatch h), fun _ _ => rfl⟩

/-- Asking changes nothing. -/
theorem Good.isLocked {w : ThrottleWorld} (h : Good o w) {now : ℕ} (hclock : w.clock ≤ now) (client : JsString) :
    Good o (w.step o now (.isLocked client)) :=
  ⟨h.once, h.bounded, fun c entry hentry => (h.some c entry hentry).later hclock, h.none⟩

/-- A success forgets its client. -/
theorem Good.recordSuccess {w : ThrottleWorld} (h : Good o w) {now : ℕ} (hclock : w.clock ≤ now) (client : JsString) :
    Good o (w.step o now (.recordSuccess client)) := by
  have hlookup : ∀ c, (Sigillo.recordSuccess w.entries client).lookup c
      = if !(c == client) then w.entries.lookup c else Option.none := lookup_filter (fun c => !(c == client)) w.entries
  have hsub : List.Sublist (Sigillo.recordSuccess w.entries client) w.entries := List.filter_sublist
  refine ⟨(hsub.map Prod.fst).nodup h.once, hsub.length_le.trans h.bounded, fun c entry hentry => ?_, fun c hnone => ?_⟩
  · have hfound := (hlookup c).symm.trans hentry
    by_cases hc : c = client
    · rw [hc, beq_self_eq_true] at hfound
      cases hfound
    · rw [beq_false_of_ne hc] at hfound
      show HeldBy o now entry (if c = client then .nothing else w.held c)
      rw [if_neg hc]
      exact (h.some c entry hfound).later hclock
  · show (if c = client then HeldAttempts.nothing else w.held c) = .nothing
    by_cases hc : c = client
    · rw [if_pos hc]
    · rw [if_neg hc]
      refine h.none c ?_
      have hfound := (hlookup c).symm.trans hnone
      rwa [beq_false_of_ne hc] at hfound

/-- **The entry a failure is recorded in** holds its client to what it was held to. -/
theorem Good.entryOf {w : ThrottleWorld} (h : Good o w) {now : ℕ} (hclock : w.clock ≤ now) {client : JsString}
    (hmax : 0 < o.maxFailures) (hstale : w.ForgetsStale o now (.recordFailure client)) :
    HeldBy o now (Sigillo.attemptEntryOf o w.entries client now).2
      (if forgets o w.entries client now then { w.held client with lengths := [] } else w.held client) := by
  have hnew : HeldBy o now ⟨[], 0, 0, now⟩ .nothing :=
    ⟨fun t _ ht => ht, List.nil_sublist _, hmax, List.Pairwise.nil, fun l hl => absurd hl List.not_mem_nil⟩
  rw [Sigillo.attemptEntryOf]
  cases hforgets : forgets o w.entries client now with
  | true =>
      have hgone : (remembered o w.entries client now).lookup client = Option.none := by
        rw [remembered, if_pos hforgets]
        refine (lookup_filter (fun c => !(c == client)) w.entries client).trans ?_
        rw [beq_self_eq_true]
        rfl
      rw [hgone, if_pos rfl]
      cases hentry : w.entries.lookup client with
      | none =>
          rw [forgets, hentry] at hforgets
          cases hforgets
      | some entry =>
          obtain ⟨hunlocked, hpast⟩ := hstale hforgets entry hentry
          have held := (h.some client entry hentry).later hclock
          refine ⟨fun t ht hlocked => ?_, ?_, hmax, List.Pairwise.nil, fun l hl => absurd hl List.not_mem_nil⟩
          · exact absurd (held.locked t ht hlocked) (hunlocked.trans ht).not_gt
          · -- no failure that counted is in the window any more
            refine List.sublist_nil.mpr (List.eq_nil_iff_forall_not_mem.mpr fun at' hat => ?_)
            obtain ⟨-, hin⟩ := List.mem_filter.mp hat
            exact absurd (of_decide_eq_true hin) (hpast at' (held.counted.subset hat)).not_gt
  | false =>
      rw [remembered, hforgets]
      show HeldBy o now (match w.entries.lookup client with
        | .some entry => (w.entries, entry)
        | .none => _).2 (w.held client)
      cases hentry : w.entries.lookup client with
      | none =>
          rw [h.none client hentry]
          exact hnew
      | some entry => exact (h.some client entry hentry).later hclock

/-- A failure is recorded. -/
theorem Good.recordFailure {w : ThrottleWorld} (h : Good o w) {now : ℕ} (hclock : w.clock ≤ now) {client : JsString}
    (hmax : 0 < o.maxFailures) (hwindow : 0 < o.windowMs) (hroom : 0 < o.maxEntries)
    (hstale : w.ForgetsStale o now (.recordFailure client)) : Good o (w.step o now (.recordFailure client)) := by
  have hsub := entryOf_sublist (o := o) w.entries client now
  have honce := (hsub.map Prod.fst).nodup h.once
  have hset : Sigillo.recordFailure o w.entries client now
      = AssocList.set (Sigillo.attemptEntryOf o w.entries client now).1 client _ := rfl
  have hlookup : ∀ c, (Sigillo.recordFailure o w.entries client now).lookup c = _ := fun c => by
    rw [hset, lookup_set]
  refine ⟨nodup_keys_set honce client _, ?_, fun c entry hentry => ?_, fun c hnone => ?_⟩
  · show (Sigillo.recordFailure o w.entries client now).length ≤ _
    rw [hset, length_set]
    rcases room_for_entryOf hroom w.entries client now with hsome | hless
    · rw [if_pos hsome]
      exact hsub.length_le.trans h.bounded
    · by_cases hsome : ((Sigillo.attemptEntryOf o w.entries client now).1.lookup client).isSome = true
      · rw [if_pos hsome]
        exact hless.le
      · rw [if_neg hsome]
        exact hless
  · have hfound := (hlookup c).symm.trans hentry
    show HeldBy o now entry (if c = client then _ else if _ then _ else _)
    by_cases hc : c = client
    · rw [hc, beq_self_eq_true] at hfound
      rw [if_pos hc, ← Option.some.inj hfound]
      exact (h.entryOf hclock hmax hstale).failedAt hmax hwindow
    · rw [beq_false_of_ne hc] at hfound
      have hthere : (Sigillo.attemptEntryOf o w.entries client now).1.lookup c = Option.some entry := hfound
      rw [if_neg hc, hthere]
      rcases lookup_sublist h.once hsub c with hnone | hsame
      · cases hnone.symm.trans hthere
      · exact (h.some c entry (hsame.symm.trans hthere)).later hclock
  · have hfound := (hlookup c).symm.trans hnone
    by_cases hc : c = client
    · rw [hc, beq_self_eq_true] at hfound
      cases hfound
    · rw [beq_false_of_ne hc] at hfound
      have hgone : (Sigillo.attemptEntryOf o w.entries client now).1.lookup c = Option.none := hfound
      show (if c = client then _ else if _ then HeldAttempts.nothing else _) = .nothing
      rw [if_neg hc, hgone]
      rfl

/-- **Every run keeps it.** -/
theorem Good.run {w : ThrottleWorld} (h : Good o w) {calls : List (ℕ × ThrottleCall)} (hmax : 0 < o.maxFailures)
    (hwindow : 0 < o.windowMs) (hroom : 0 < o.maxEntries) (hcalls : w.Meets o calls) : Good o (w.run o calls) := by
  induction calls generalizing w with
  | nil => exact h
  | cons first calls ih =>
      obtain ⟨now, call⟩ := first
      obtain ⟨hclock, hstale, hcalls⟩ := hcalls
      refine ih ?_ hcalls
      cases call with
      | isLocked client => exact h.isLocked hclock client
      | recordFailure client => exact h.recordFailure hclock hmax hwindow hroom hstale
      | recordSuccess client => exact h.recordSuccess hclock client

-- ── Over every run ───────────────────────────────────────────────────────────────

/-- A setting that is read is positive. -/
theorem positiveInteger_pos {name : JsString} {value : Option JsString} {fallback max n : ℕ} (hfallback : 0 < fallback)
    (h : positiveInteger name value fallback max = .ok n) : 0 < n := by
  cases value with
  | none => exact Except.ok.inj h ▸ hfallback
  | some text =>
      rw [positiveInteger] at h
      by_cases hgood : text ≠ [] ∧ text.all isDigit = true ∧ 1 ≤ digitsValue text ∧ digitsValue text ≤ max
      · rw [if_pos hgood] at h
        exact Except.ok.inj h ▸ hgood.2.2.1
      · rw [if_neg hgood] at h
        cases h

/-- The settings that are read are positive. -/
theorem parseThrottleSettings_pos {env : LoginEnvironment} {settings : ThrottleSettings}
    (h : parseThrottleSettings env = .ok settings) : 0 < settings.maxFailures ∧ 0 < settings.windowMs := by
  obtain ⟨maxFailures, hfailures, h⟩ := Fallible.bind_eq_ok.mp h
  obtain ⟨windowMinutes, hwindow, h⟩ := Fallible.bind_eq_ok.mp h
  obtain ⟨lockoutMinutes, -, h⟩ := Fallible.bind_eq_ok.mp h
  obtain ⟨maxMinutes, -, h⟩ := Fallible.bind_eq_ok.mp h
  split at h
  · cases h
  · obtain rfl := Except.ok.inj h
    exact ⟨positiveInteger_pos (by decide) hfailures,
      Nat.mul_pos (positiveInteger_pos (by decide) hwindow) (by decide)⟩

/-- **What the throttle is for**: a locked client stays locked, one that is not has failed less often than it may,
    lockouts never get shorter, and not too many clients are remembered. -/
structure ThrottleWorld.Holds (o : ThrottleOptions) (w : ThrottleWorld) : Prop where
  locked : ∀ c t, w.clock ≤ t → t < (w.held c).lockedUntil → isLocked w.entries c t = true
  unlocked : ∀ c t, w.clock ≤ t → isLocked w.entries c t = false →
    ((w.held c).counted.filter fun at' => decide (t - at' < o.windowMs)).length < o.maxFailures
  longer : ∀ c, (w.held c).lengths.Pairwise (· ≤ ·)
  bounded : w.entries.length ≤ o.maxEntries

/-- **What holds of the entries is what is asked of the throttle.** -/
theorem Good.holds {w : ThrottleWorld} (h : Good o w) (hmax : 0 < o.maxFailures) : w.Holds o where
  locked c t ht hlocked := by
    rw [Sigillo.isLocked]
    cases hentry : w.entries.lookup c with
    | none =>
        rw [h.none c hentry] at hlocked
        cases hlocked
    | some entry => exact decide_eq_true ((h.some c entry hentry).locked t ht hlocked)
  unlocked c t ht _ := by
    cases hentry : w.entries.lookup c with
    | none =>
        rw [h.none c hentry]
        exact hmax
    | some entry =>
        have held := (h.some c entry hentry).later ht
        exact held.counted.length_le.trans_lt held.few
  longer c := by
    cases hentry : w.entries.lookup c with
    | none =>
        rw [h.none c hentry]
        exact List.Pairwise.nil
    | some entry => exact (h.some c entry hentry).sorted
  bounded := h.bounded

/-- **In every run that forgets only clients held to nothing**, the throttle does what it is for. -/
theorem throttle_holds {env : LoginEnvironment} {settings : ThrottleSettings}
    (hsettings : parseThrottleSettings env = .ok settings) {calls : List (ℕ × ThrottleCall)}
    (hcalls : ThrottleWorld.fresh.Meets settings.options calls) :
    (ThrottleWorld.fresh.run settings.options calls).Holds settings.options := by
  obtain ⟨hmax, hwindow⟩ := parseThrottleSettings_pos hsettings
  exact ((good_fresh settings.options).run hmax hwindow (show 0 < 10000 by decide) hcalls).holds hmax

/-- Two failures lock a client out for a week. -/
def weekEnvironment : LoginEnvironment := ⟨some (js "2"), none, some (js "10080"), some (js "10080")⟩

/-- Two failures, and lockouts of a week. -/
def weekSettings : ThrottleSettings := ⟨2, 900000, 604800000, 604800000⟩

/-- The environment that sets them. -/
theorem parse_weekEnvironment : parseThrottleSettings weekEnvironment = .ok weekSettings := by
  have hfailures : positiveInteger (js "SIGILLO_LOGIN_MAX_FAILURES") (some (js "2")) 5 1000 = .ok 2 := by
    rw [positiveInteger, if_pos (by decide)]
    rfl
  have hminutes : ∀ name fallback, positiveInteger name (some (js "10080")) fallback (7 * 24 * 60) = .ok 10080 := by
    intro name fallback
    rw [positiveInteger, if_pos (by decide)]
    rfl
  rw [parseThrottleSettings]
  refine Fallible.bind_eq_ok.mpr ⟨2, hfailures, Fallible.bind_eq_ok.mpr ⟨15, rfl, Fallible.bind_eq_ok.mpr ⟨10080,
    hminutes _ _, Fallible.bind_eq_ok.mpr ⟨10080, hminutes _ _, rfl⟩⟩⟩⟩

/-- A client that fails twice, and is asked about a minute later. -/
def lockedCalls : List (ℕ × ThrottleCall) :=
  [(0, .recordFailure (js "ada")), (0, .recordFailure (js "ada")), (60000, .isLocked (js "ada"))]

/-- A client locked for a week. -/
theorem throttle_holds_week :
    (ThrottleWorld.fresh.run weekSettings.options lockedCalls).Holds weekSettings.options := by
  refine throttle_holds parse_weekEnvironment ⟨le_refl _, ?_, le_refl _, ?_, Nat.zero_le _, trivial, trivial⟩
  · intro h
    exact absurd h (by decide)
  · intro h
    exact absurd h (by decide)

/-- **A client locked out for a week** that knocks after a day and a millisecond is forgotten, and locked no more. -/
theorem throttle_forgets_locked : ¬ ∀ (env : LoginEnvironment) (settings : ThrottleSettings)
    (calls : List (ℕ × ThrottleCall)), parseThrottleSettings env = .ok settings →
      (calls.map Prod.fst).Pairwise (· ≤ ·) →
        (ThrottleWorld.fresh.run settings.options calls).Holds settings.options := by
  intro h
  have hholds := h weekEnvironment weekSettings [(0, .recordFailure (js "ada")), (0, .recordFailure (js "ada")),
    (86400001, .recordFailure (js "ada"))] parse_weekEnvironment (by decide)
  have hlocked := hholds.locked (js "ada") 86400001 (by decide) (by decide)
  exact absurd hlocked (by decide)

end Sigillo
