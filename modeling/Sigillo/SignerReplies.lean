import Sigillo.SignerClient

/-!
# Whose reply it is

What the log of a client may hold, entry by entry, given the entries before it (`Rightly`), and that
the log of every run does (**`run_rightly`**): a request is settled once, and fulfilled only by a
reply that carries its id, read on the connection it was written to; and nothing but PUBKEY is
written before the connection's signer has shown the key that was announced first. -/

namespace Sigillo.SignerClient

open DoubleArith Utf16Text JsonText JsonParse HexBase64

-- ── What the log says ────────────────────────────────────────────────────────────

/-- A request was written under the id on the connection. -/
def Written (log : List Entry) (on : Connection) (waiter : Waiter) (id : JsString) : Prop :=
  ∃ message, Entry.wrote on waiter id message ∈ log

/-- An entry that settles a call. -/
def Entry.Settles (number : ℕ) : Entry → Prop
  | .fulfilled n _ => n = number
  | .failed n _ => n = number
  | _ => False

/-- A call was settled. -/
def Settled (log : List Entry) (number : ℕ) : Prop := ∃ e ∈ log, e.Settles number

/-- The identity the client announced first, of a log with the latest entry first. -/
def firstAnnounced : List Entry → Option Identity
  | [] => none
  | .announced _ identity :: older => (firstAnnounced older).or (some identity)
  | _ :: older => firstAnnounced older

/-- The signer at the other end has shown the key that was announced first. -/
def Proved (log : List Entry) (on : Connection) : Prop :=
  ∃ identity first, Entry.announced on identity ∈ log ∧ firstAnnounced log = some first
    ∧ identity.keyId = first.keyId

/-- A reply says `ok`, and under which id it does. -/
def Fulfils (id : JsString) (reply : Fields) : Prop :=
  reply.lookup (js "id") = some (.str id) ∧ reply.lookup (js "ok") = some (.bool true)

/-- The handshake written on a connection has been answered there. -/
def ShakenBy (log : List Entry) (on : Connection) (reply : Fields) : Prop :=
  ∃ id, Written log on .handshake id ∧ Entry.received on id reply ∈ log ∧ Fulfils id reply

variable (c : Crypto)

/-- An entry, given the entries before it. -/
def Rightly : Entry → List Entry → Prop
  | .wrote on (.request number) id _, older =>
      Proved older on ∧ (∀ on waiter, ¬ Written older on waiter id)
        ∧ ∀ on id, ¬ Written older on (.request number) id
  | .wrote _ .handshake id message, older =>
      message = PUBKEY ∧ ∀ on waiter, ¬ Written older on waiter id
  | .received _ id fields, _ => fields.lookup (js "id") = some (.str id)
  | .announced on identity, older =>
      (∃ reply, ShakenBy older on reply ∧ identityOf c reply = .ok identity)
        ∧ ∀ first, firstAnnounced older = some first → identity.keyId = first.keyId
  | .fulfilled number reply, older =>
      ¬ Settled older number ∧ ∃ on id, older.head? = some (.received on id reply)
        ∧ Written older on (.request number) id ∧ Fulfils id reply
  | .failed number _, older => ¬ Settled older number

/-- Each entry of a log is right, given the older ones. -/
def Justified : List Entry → Prop
  | [] => True
  | e :: older => Rightly c e older ∧ Justified older

variable {c}

section Logs

variable {e : Entry} {log : List Entry} {on : Connection} {waiter : Waiter} {id : JsString} {number : ℕ}

/-- What was written stays so. -/
theorem Written.cons (h : Written log on waiter id) (e : Entry) : Written (e :: log) on waiter id := by
  obtain ⟨message, h⟩ := h
  exact ⟨message, List.mem_cons_of_mem _ h⟩

/-- Another entry writes nothing. -/
theorem written_cons (he : ∀ on waiter id message, e ≠ .wrote on waiter id message) :
    Written (e :: log) on waiter id ↔ Written log on waiter id := by
  refine ⟨fun h => ?_, fun h => h.cons e⟩
  obtain ⟨message, h⟩ := h
  rcases List.mem_cons.mp h with h | h
  · exact absurd h.symm (he on waiter id message)
  · exact ⟨message, h⟩

/-- A call is settled by the newest entry or was before. -/
theorem settled_cons : Settled (e :: log) number ↔ e.Settles number ∨ Settled log number := by
  constructor
  · rintro ⟨other, hother, h⟩
    rcases List.mem_cons.mp hother with rfl | hother
    · exact .inl h
    · exact .inr ⟨other, hother, h⟩
  · rintro (h | ⟨other, hother, h⟩)
    · exact ⟨e, List.mem_cons_self .., h⟩
    · exact ⟨other, List.mem_cons_of_mem _ hother, h⟩

/-- Another entry announces nobody. -/
theorem firstAnnounced_cons (he : ∀ on identity, e ≠ .announced on identity) :
    firstAnnounced (e :: log) = firstAnnounced log := by
  cases e with
  | announced on identity => exact absurd rfl (he on identity)
  | _ => rfl

/-- What was announced first stays so. -/
theorem firstAnnounced_of_some {first : Identity} (h : firstAnnounced log = some first) (e : Entry) :
    firstAnnounced (e :: log) = some first := by
  cases e with
  | announced on identity =>
      show (firstAnnounced log).or (some identity) = some first
      rw [h]
      rfl
  | _ => exact h

/-- What was proved stays so. -/
theorem Proved.cons (h : Proved log on) (e : Entry) : Proved (e :: log) on := by
  obtain ⟨identity, first, hmem, hfirst, hkey⟩ := h
  exact ⟨identity, first, List.mem_cons_of_mem _ hmem, firstAnnounced_of_some hfirst e, hkey⟩

/-- A handshake stays answered. -/
theorem ShakenBy.cons {reply : Fields} (h : ShakenBy log on reply) (e : Entry) : ShakenBy (e :: log) on reply := by
  obtain ⟨id, hwritten, hreceived, hok⟩ := h
  exact ⟨id, hwritten.cons e, List.mem_cons_of_mem _ hreceived, hok⟩

end Logs

/-- Digits tell numbers apart. -/
theorem decimal_injective {m n : ℕ} (h : decimal m = decimal n) : m = n := by
  rw [← digitsValue_decimal m, h, digitsValue_decimal]

-- ── The invariant ────────────────────────────────────────────────────────────────

/-- The call a waiter is for. -/
def Waiter.number? : Waiter → Option ℕ
  | .handshake => none
  | .request number => some number

/-- The calls at their `await`. -/
def awaiting (s : SignerClient) : List ℕ :=
  s.waiting.map Awaiting.number ++ s.resumed.map fun call => call.1.number

/-- The calls that are not settled. -/
def numbers (s : SignerClient) : List ℕ :=
  s.awaiting ++ s.pending.filterMap fun entry => entry.2.number?

/-- What holds of the connection, by how far `open()` has come. -/
def Phase (s : SignerClient) : Prop :=
  match s.opening with
  | .idle => ∀ on, s.socket = some on → Proved s.log on
  | .connecting _ => s.socket = none
  | .connected _ => s.socket = none ∧ s.resumed = []
  | .unreachable _ => s.socket = none ∧ s.resumed = []
  | .shaking on => (∀ other, s.socket = some other → other = on) ∧ s.resumed = []
  | .answered on reply =>
      (∀ other, s.socket = some other → other = on) ∧ s.resumed = []
        ∧ ∀ fields, reply = .ok fields → ShakenBy s.log on fields
  | .opened _ => (∀ on, s.socket = some on → Proved s.log on) ∧ s.resumed = []

variable (c)

/-- What holds after every step of the client, and in between. -/
structure Steady (s : SignerClient) : Prop where
  justified : Justified c s.log
  ids : ∀ on waiter id, Written s.log on waiter id → ∃ n, n ≤ s.lastId ∧ id = decimal n
  keys : (s.pending.map Prod.fst).Nodup
  written : ∀ entry ∈ s.pending, ∃ on, Written s.log on entry.2 entry.1
    ∧ ∀ other, s.socket = some other → other = on
  nodup : s.numbers.Nodup
  unsettled : ∀ n ∈ s.numbers, n < s.calls ∧ ¬ Settled s.log n
  unwritten : ∀ n ∈ s.awaiting, ∀ on id, ¬ Written s.log on (.request n) id
  settledBelow : ∀ n, Settled s.log n → n < s.calls
  writtenBelow : ∀ n on id, Written s.log on (.request n) id → n < s.calls
  identity : s.identity.map Identity.keyId = (firstAnnounced s.log).map Identity.keyId
  phase : s.Phase

/-- What holds after every event. -/
structure Sound (s : SignerClient) : Prop extends Steady c s where
  lost : s.socket = none → s.pending = []

variable {c}

/-- An entry that writes and announces nothing leaves the phase as it is. -/
theorem Phase.record {s : SignerClient} (h : s.Phase) (e : Entry) :
    ({ s with log := e :: s.log } : SignerClient).Phase := by
  obtain ⟨path, pending, lastId, buffer, socket, closed, identity, opening, waiting, resumed, ready,
    connections, calls, log⟩ := s
  cases opening with
  | idle => exact fun on hon => (h on hon).cons e
  | answered on reply => exact ⟨h.1, h.2.1, fun fields hfields => (h.2.2 fields hfields).cons e⟩
  | opened result => exact ⟨fun on hon => (h.1 on hon).cons e, h.2⟩
  | _ => exact h

/-- An entry that may stand there is added. -/
theorem Steady.record {s : SignerClient} (h : Steady c s) {e : Entry} (hright : Rightly c e s.log)
    (hsettles : ∀ n, e.Settles n → n ∉ s.numbers ∧ n < s.calls)
    (hwrote : ∀ on waiter id message, e ≠ .wrote on waiter id message)
    (hannounced : ∀ on identity, e ≠ .announced on identity) :
    Steady c { s with log := e :: s.log } where
  justified := ⟨hright, h.justified⟩
  ids on waiter id hid := h.ids on waiter id ((written_cons hwrote).mp hid)
  keys := h.keys
  written entry hentry := by
    obtain ⟨on, hwritten, hon⟩ := h.written entry hentry
    exact ⟨on, hwritten.cons e, hon⟩
  nodup := h.nodup
  unsettled n hn := by
    obtain ⟨hlt, hnot⟩ := h.unsettled n hn
    refine ⟨hlt, fun hsettled => ?_⟩
    rcases settled_cons.mp hsettled with hsettled | hsettled
    · exact (hsettles n hsettled).1 hn
    · exact hnot hsettled
  unwritten n hn on id hid := h.unwritten n hn on id ((written_cons hwrote).mp hid)
  settledBelow n hn := by
    rcases settled_cons.mp hn with hn | hn
    · exact (hsettles n hn).2
    · exact h.settledBelow n hn
  writtenBelow n on id hid := h.writtenBelow n on id ((written_cons hwrote).mp hid)
  identity := by
    show _ = (firstAnnounced (e :: s.log)).map Identity.keyId
    rw [firstAnnounced_cons hannounced]
    exact h.identity
  phase := h.phase.record e

-- ── Settling a request ───────────────────────────────────────────────────────────

/-- A waiter that is a request waits for nothing else, and is not settled. -/
def Free (s : SignerClient) (waiter : Waiter) : Prop :=
  ∀ n, waiter = .request n → n ∉ s.numbers ∧ n < s.calls ∧ ¬ Settled s.log n

/-- An entry of `pending` whose turn has come. -/
theorem Steady.unpend {s : SignerClient} {before after : List (JsString × Waiter)} {id : JsString}
    {waiter : Waiter} (h : Steady c { s with pending := before ++ (id, waiter) :: after }) :
    Steady c { s with pending := before ++ after }
      ∧ Free { s with pending := before ++ after } waiter := by
  have hsub : (before ++ after).Sublist (before ++ (id, waiter) :: after) :=
    (List.sublist_cons_self ..).append_left before
  have hnumbers : (numbers { s with pending := before ++ after }).Sublist
      (numbers { s with pending := before ++ (id, waiter) :: after }) :=
    (hsub.filterMap _).append_left _
  refine ⟨?_, ?_⟩
  · exact {
      justified := h.justified
      ids := h.ids
      keys := (hsub.map Prod.fst).nodup h.keys
      written := fun entry hentry => h.written entry (hsub.subset hentry)
      nodup := hnumbers.nodup h.nodup
      unsettled := fun n hn => h.unsettled n (hnumbers.subset hn)
      unwritten := h.unwritten
      settledBelow := h.settledBelow
      writtenBelow := h.writtenBelow
      identity := h.identity
      phase := h.phase }
  · rintro n rfl
    have hperm : (numbers { s with pending := before ++ (id, .request n) :: after }).Perm
        (n :: numbers { s with pending := before ++ after }) := by
      have hmap : List.filterMap (fun entry : JsString × Waiter => entry.2.number?)
          (before ++ (id, .request n) :: after) = before.filterMap (fun entry => entry.2.number?)
            ++ n :: after.filterMap fun entry => entry.2.number? := by
        rw [List.filterMap_append, List.filterMap_cons]
        rfl
      show (_ ++ List.filterMap _ (before ++ (id, .request n) :: after)).Perm
        (n :: (_ ++ List.filterMap _ (before ++ after)))
      rw [hmap, List.filterMap_append]
      exact (List.perm_middle.append_left _).trans List.perm_middle
    have hnodup := hperm.nodup_iff.mp h.nodup
    have hmem := h.unsettled n (hperm.mem_iff.mpr (List.mem_cons_self ..))
    exact ⟨(List.nodup_cons.mp hnodup).1, hmem⟩

/-- A waiter that is free may be rejected. -/
theorem Steady.reject {s : SignerClient} (h : Steady c s) {waiter : Waiter} (hfree : s.Free waiter)
    (error : SignerError) : Steady c (s.reject waiter error) := by
  cases waiter with
  | request n =>
      obtain ⟨hnumbers, hlt, hsettled⟩ := hfree n rfl
      refine h.record (e := .failed n error) hsettled ?_ (fun _ _ _ _ => by simp) fun _ _ => by simp
      rintro m rfl
      exact ⟨hnumbers, hlt⟩
  | handshake =>
      rw [SignerClient.reject]
      cases hopening : s.opening with
      | shaking on =>
          have hphase := h.phase
          rw [Phase, hopening] at hphase
          exact { h with phase := ⟨hphase.1, hphase.2, fun _ hfields => nomatch hfields⟩ }
      | _ => exact h

/-- A waiter that is free may be given its reply. -/
theorem Steady.resolve {s : SignerClient} (h : Steady c s) {waiter : Waiter} (hfree : s.Free waiter)
    {on : Connection} {id : JsString} {reply : Fields} (hsocket : s.socket = some on)
    (hhead : s.log.head? = some (.received on id reply)) (hwritten : Written s.log on waiter id)
    (hok : Fulfils id reply) : Steady c (s.resolve waiter reply) := by
  cases waiter with
  | request n =>
      obtain ⟨hnumbers, hlt, hsettled⟩ := hfree n rfl
      refine h.record (e := .fulfilled n reply) ⟨hsettled, on, id, hhead, hwritten, hok⟩ ?_
        (fun _ _ _ _ => by simp) fun _ _ => by simp
      rintro m rfl
      exact ⟨hnumbers, hlt⟩
  | handshake =>
      rw [SignerClient.resolve]
      cases hopening : s.opening with
      | shaking other =>
          have hphase := h.phase
          rw [Phase, hopening] at hphase
          obtain rfl := hphase.1 on hsocket
          refine { h with phase := ⟨hphase.1, hphase.2, fun fields hfields => ?_⟩ }
          obtain rfl := Except.ok.inj hfields
          exact ⟨id, hwritten, List.mem_of_mem_head? hhead, hok⟩
      | _ => exact h

-- ── Losing a connection ──────────────────────────────────────────────────────────

@[simp] theorem reject_pending (s : SignerClient) (waiter : Waiter) (error : SignerError) :
    (s.reject waiter error).pending = s.pending := by
  cases waiter with
  | request n => rfl
  | handshake => cases hopening : s.opening <;> simp [SignerClient.reject, hopening]

@[simp] theorem reject_socket (s : SignerClient) (waiter : Waiter) (error : SignerError) :
    (s.reject waiter error).socket = s.socket := by
  cases waiter with
  | request n => rfl
  | handshake => cases hopening : s.opening <;> simp [SignerClient.reject, hopening]

@[simp] theorem resolve_pending (s : SignerClient) (waiter : Waiter) (reply : Fields) :
    (s.resolve waiter reply).pending = s.pending := by
  cases waiter with
  | request n => rfl
  | handshake => cases hopening : s.opening <;> simp [SignerClient.resolve, hopening]

@[simp] theorem resolve_socket (s : SignerClient) (waiter : Waiter) (reply : Fields) :
    (s.resolve waiter reply).socket = s.socket := by
  cases waiter with
  | request n => rfl
  | handshake => cases hopening : s.opening <;> simp [SignerClient.resolve, hopening]

/-- A client with the waiters it has. -/
theorem with_pending {s : SignerClient} {pending : List (JsString × Waiter)} (h : s.pending = pending) :
    ({ s with pending } : SignerClient) = s := by
  subst h
  rfl

/-- All who wait may be rejected. -/
theorem Steady.rejectAll {s : SignerClient} {pending : List (JsString × Waiter)} (error : SignerError)
    (h : Steady c { s with pending }) : Steady c (rejectAll error pending s) := by
  induction pending generalizing s with
  | nil => exact h
  | cons entry rest ih =>
      have h : Steady c { s with pending := [] ++ (entry.1, entry.2) :: rest } := h
      obtain ⟨hrest, hfree⟩ := h.unpend
      rw [SignerClient.rejectAll]
      refine ih ?_
      rw [with_pending (by rw [reject_pending])]
      exact hrest.reject hfree error

/-- Nobody waits after it. -/
theorem rejectAll_pending (error : SignerError) (pending : List (JsString × Waiter)) (s : SignerClient) :
    (rejectAll error pending s).pending = [] := by
  induction pending generalizing s with
  | nil => rfl
  | cons entry rest ih => exact ih _

/-- The connection stays. -/
theorem rejectAll_socket (error : SignerError) (pending : List (JsString × Waiter)) (s : SignerClient) :
    (rejectAll error pending s).socket = s.socket := by
  induction pending generalizing s with
  | nil => rfl
  | cons entry rest ih => rw [rejectAll, ih, reject_socket]

/-- Without a connection every phase holds that held with one. -/
theorem Phase.disconnect {s : SignerClient} (h : s.Phase) : ({ s with socket := none } : SignerClient).Phase := by
  obtain ⟨path, pending, lastId, buffer, socket, closed, identity, opening, waiting, resumed, ready,
    connections, calls, log⟩ := s
  cases opening with
  | idle => exact fun on hon => nomatch hon
  | connecting _ => rfl
  | connected _ => exact ⟨rfl, h.2⟩
  | unreachable _ => exact ⟨rfl, h.2⟩
  | shaking on => exact ⟨fun _ hon => (nomatch hon), h.2⟩
  | answered on reply => exact ⟨fun _ hon => (nomatch hon), h.2⟩
  | opened result => exact ⟨fun _ hon => (nomatch hon), h.2⟩

/-- The connection may go. -/
theorem Steady.disconnect {s : SignerClient} (h : Steady c s) : Steady c { s with socket := none } :=
  { h with
    written := fun entry hentry => by
      obtain ⟨on, hwritten, -⟩ := h.written entry hentry
      exact ⟨on, hwritten, fun _ hother => nomatch hother⟩
    phase := h.phase.disconnect }

/-- A connection that is lost. -/
theorem Sound.lose {s : SignerClient} (h : Sound c s) (socket : Connection) (error : SignerError) :
    Sound c (s.lose socket error) := by
  rw [SignerClient.lose]
  by_cases hsocket : s.socket ≠ some socket
  · rw [if_pos hsocket]
    exact h
  · rw [if_neg hsocket]
    exact { toSteady := h.toSteady.disconnect.rejectAll error, lost := fun _ => rejectAll_pending .. }

/-- After a loss there is no connection. -/
theorem lose_socket {s : SignerClient} {socket : Connection} (error : SignerError)
    (h : ∀ other, s.socket = some other → other = socket) : (s.lose socket error).socket = none := by
  rw [SignerClient.lose]
  by_cases hsocket : s.socket ≠ some socket
  · rw [if_pos hsocket]
    cases hs : s.socket with
    | none => rfl
    | some other =>
        rw [h other hs] at hs
        exact absurd hs hsocket
  · rw [if_neg hsocket, rejectAll_socket]

/-- The connection in use is lost. -/
theorem Sound.loseCurrent {s : SignerClient} (h : Sound c s) (error : SignerError) :
    Sound c (s.loseCurrent error) := by
  rw [SignerClient.loseCurrent]
  cases s.socket with
  | none => exact h
  | some socket => exact h.lose socket error

/-- A client that is closed. -/
theorem Sound.shut {s : SignerClient} (h : Sound c s) : Sound c { s with closed := true } :=
  { h with }

/-- A client that drops its connection. -/
theorem Sound.drop {s : SignerClient} (h : Sound c s) (error : SignerError) : Sound c (s.drop error) :=
  h.shut.loseCurrent error

/-- `close`. -/
theorem Sound.close {s : SignerClient} (h : Sound c s) : Sound c s.close := h.shut.loseCurrent _

-- ── Writing ──────────────────────────────────────────────────────────────────────

/-- A waiter that is free is rejected. -/
theorem Sound.reject {s : SignerClient} (h : Sound c s) {waiter : Waiter} (hfree : s.Free waiter)
    (error : SignerError) : Sound c (s.reject waiter error) where
  toSteady := h.toSteady.reject hfree error
  lost hlost := by
    rw [reject_socket] at hlost
    rw [reject_pending]
    exact h.lost hlost

/-- An id no request has had yet. -/
theorem Steady.fresh {s : SignerClient} (h : Steady c s) (on : Connection) (waiter : Waiter) :
    ¬ Written s.log on waiter (decimal (s.lastId + 1)) := by
  intro hwritten
  obtain ⟨n, hn, hid⟩ := h.ids on waiter _ hwritten
  have := decimal_injective hid
  omega

/-- Writing keeps what the connection went through. -/
theorem Phase.wrote {s : SignerClient} (h : s.Phase) (e : Entry) (pending : List (JsString × Waiter))
    (lastId : ℕ) : ({ s with lastId, pending, log := e :: s.log } : SignerClient).Phase := by
  have h := h.record e
  exact h

/-- **A request is written under an id of its own**: PUBKEY, or a request on a connection whose
    signer has shown the key. -/
theorem Sound.write {s : SignerClient} (h : Sound c s) {on : Connection} (hsocket : s.socket = some on)
    {waiter : Waiter} {message : Fields} (hfree : s.Free waiter)
    (hpubkey : waiter = .handshake → message = PUBKEY)
    (hproved : ∀ n, waiter = .request n → Proved s.log on)
    (hunwritten : ∀ n, waiter = .request n → ∀ on id, ¬ Written s.log on (.request n) id) :
    Sound c (s.write on waiter message) := by
  have hfresh := h.fresh
  have hids : ∀ entry ∈ s.pending, entry.1 ≠ decimal (s.lastId + 1) := by
    intro entry hentry heq
    obtain ⟨other, hwritten, -⟩ := h.written entry hentry
    exact hfresh other entry.2 (heq ▸ hwritten)
  have hnew : ∀ {o w i}, Written (.wrote on waiter (decimal (s.lastId + 1)) message :: s.log) o w i →
      (o = on ∧ w = waiter ∧ i = decimal (s.lastId + 1)) ∨ Written s.log o w i := by
    intro o w i hw
    obtain ⟨m, hm⟩ := hw
    rcases List.mem_cons.mp hm with hm | hm
    · obtain ⟨rfl, rfl, rfl, rfl⟩ := Entry.wrote.inj hm
      exact .inl ⟨rfl, rfl, rfl⟩
    · exact .inr ⟨m, hm⟩
  have hnumbers : (s.write on waiter message).numbers = s.numbers ++ waiter.number?.toList := by
    show s.awaiting ++ List.filterMap _ (s.pending ++ [(decimal (s.lastId + 1), waiter)]) = _
    rw [List.filterMap_append, ← List.append_assoc]
    refine congrArg (s.numbers ++ ·) ?_
    cases waiter <;> rfl
  have hmem : ∀ n, n ∈ waiter.number?.toList → waiter = .request n := by
    intro n hn
    cases waiter with
    | handshake => cases hn
    | request m => rw [List.mem_singleton.mp hn]
  refine { toSteady := ?toSteady, lost := fun hlost => ?lost }
  case lost => exact nomatch hsocket.symm.trans hlost
  case toSteady =>
    exact {
      justified := by
        refine ⟨?_, h.justified⟩
        cases waiter with
        | handshake => exact ⟨hpubkey rfl, hfresh⟩
        | request n => exact ⟨hproved n rfl, hfresh, hunwritten n rfl⟩
      ids := by
        intro o w i hw
        rcases hnew hw with ⟨-, -, rfl⟩ | hw
        · exact ⟨s.lastId + 1, le_rfl, rfl⟩
        · obtain ⟨n, hn, hi⟩ := h.ids o w i hw
          exact ⟨n, Nat.le_succ_of_le hn, hi⟩
      keys := by
        show ((s.pending ++ [_]).map Prod.fst).Nodup
        rw [List.map_append, List.nodup_append]
        refine ⟨h.keys, List.nodup_singleton _, ?_⟩
        rintro id hid other hother rfl
        obtain ⟨entry, hentry, rfl⟩ := List.mem_map.mp hid
        exact hids entry hentry (List.mem_singleton.mp hother)
      written := by
        intro entry hentry
        rcases List.mem_append.mp hentry with hentry | hentry
        · obtain ⟨o, hwritten, ho⟩ := h.written entry hentry
          exact ⟨o, hwritten.cons _, ho⟩
        · obtain rfl := List.mem_singleton.mp hentry
          refine ⟨on, ⟨message, List.mem_cons_self ..⟩, fun other hother => ?_⟩
          exact (Option.some.inj (hsocket.symm.trans hother)).symm
      nodup := by
        rw [hnumbers, List.nodup_append]
        refine ⟨h.nodup, by cases waiter <;> simp [Waiter.number?], ?_⟩
        rintro n hn m hm rfl
        exact (hfree n (hmem n hm)).1 hn
      unsettled := by
        intro n hn
        have hcase : n < s.calls ∧ ¬ Settled s.log n := by
          rw [hnumbers] at hn
          rcases List.mem_append.mp hn with hn | hn
          · exact h.unsettled n hn
          · exact (hfree n (hmem n hn)).2
        refine ⟨hcase.1, fun hsettled => ?_⟩
        exact hcase.2 ((settled_cons.mp hsettled).resolve_left id)
      unwritten := by
        intro n hn o i hw
        rcases hnew hw with ⟨-, hwaiter, -⟩ | hw
        · exact (hfree n hwaiter.symm).1 (List.mem_append_left _ hn)
        · exact h.unwritten n hn o i hw
      settledBelow := fun n hn => h.settledBelow n ((settled_cons.mp hn).resolve_left id)
      writtenBelow := by
        intro n o i hw
        rcases hnew hw with ⟨-, hwaiter, -⟩ | hw
        · exact (hfree n hwaiter.symm).2.1
        · exact h.writtenBelow n o i hw
      identity := h.identity
      phase := h.phase.wrote _ _ _ }

/-- A request is sent, or refused where there is no connection. -/
theorem Sound.send {s : SignerClient} (h : Sound c s) {waiter : Waiter} {message : Fields}
    (hfree : s.Free waiter) (hpubkey : waiter = .handshake → message = PUBKEY)
    (hproved : ∀ n on, waiter = .request n → s.socket = some on → Proved s.log on)
    (hunwritten : ∀ n, waiter = .request n → ∀ on id, ¬ Written s.log on (.request n) id) :
    Sound c (s.send waiter message) := by
  have hwrite : ∀ on, s.socket = some on → Sound c (s.write on waiter message) := fun on hsocket =>
    h.write hsocket hfree hpubkey (fun n hn => hproved n on hn hsocket) hunwritten
  have hreject := h.reject hfree CLOSED
  rw [SignerClient.send]
  split
  · exact hreject
  · next on hsocket =>
      by_cases hclosed : s.closed = true
      · rw [if_pos hclosed]
        exact hreject
      · rw [if_neg hclosed]
        exact hwrite on hsocket

-- ── Reading ──────────────────────────────────────────────────────────────────────

/-- The entry of a map under a key, and the map without it. -/
theorem exists_of_lookup {pending : List (JsString × Waiter)} {id : JsString} {waiter : Waiter}
    (h : pending.lookup id = some waiter) : ∃ before after, pending = before ++ (id, waiter) :: after
      ∧ pending.eraseP (fun entry => entry.1 == id) = before ++ after := by
  induction pending with
  | nil => cases h
  | cons entry rest ih =>
      obtain ⟨key, other⟩ := entry
      by_cases hkey : key = id
      · subst hkey
        rw [List.lookup_cons, beq_self_eq_true] at h
        obtain rfl := Option.some.inj h
        exact ⟨[], rest, rfl, List.eraseP_cons_of_pos (beq_self_eq_true _)⟩
      · rw [List.lookup_cons, beq_false_of_ne (Ne.symm hkey)] at h
        obtain ⟨before, after, hrest, herase⟩ := ih h
        refine ⟨(key, other) :: before, after, by rw [hrest]; rfl, ?_⟩
        rw [List.eraseP_cons_of_neg (by simpa using hkey), herase]
        rfl

/-- A request whose turn has come leaves `pending`. -/
theorem Sound.unpend {s : SignerClient} (h : Sound c s) {id : JsString} {waiter : Waiter}
    (hlookup : s.pending.lookup id = some waiter) :
    Sound c { s with pending := s.pending.eraseP fun entry => entry.1 == id }
      ∧ Free { s with pending := s.pending.eraseP fun entry => entry.1 == id } waiter
      ∧ ∃ on, Written s.log on waiter id ∧ ∀ other, s.socket = some other → other = on := by
  obtain ⟨before, after, hpending, herase⟩ := exists_of_lookup hlookup
  have hsteady : Steady c { s with pending := before ++ (id, waiter) :: after } := by
    rw [with_pending hpending]
    exact h.toSteady
  obtain ⟨hrest, hfree⟩ := hsteady.unpend
  rw [herase]
  refine ⟨{ toSteady := hrest, lost := fun hlost => ?_ }, hfree, h.written (id, waiter) ?_⟩
  · have hnil := h.lost hlost
    rw [hpending] at hnil
    exact absurd hnil (by simp)
  · rw [hpending]
    exact List.mem_append_right _ (List.mem_cons_self ..)

/-- A request runs out of time. -/
theorem Sound.timeOut {s : SignerClient} (h : Sound c s) (id : JsString) : Sound c (s.timeOut id) := by
  rw [SignerClient.timeOut]
  cases hlookup : s.pending.lookup id with
  | none => exact h
  | some waiter =>
      obtain ⟨hrest, hfree, -⟩ := h.unpend hlookup
      exact hrest.reject hfree _

/-- **A reply settles the request that has its id, and no other.** -/
theorem Sound.settle {s : SignerClient} (h : Sound c s) {on : Connection} (hsocket : s.socket = some on)
    (line : Bytes) : Sound c (s.settle on line) := by
  rw [SignerClient.settle]
  cases jsonParse (utf8Decode line) with
  | none => exact h.drop _
  | some value =>
      cases value with
      | obj fields =>
          dsimp only
          cases hid : fields.lookup (js "id") with
          | none => exact h.drop _
          | some name =>
              cases name with
              | str id =>
                  have hreceived : Sound c { s with log := .received on id fields :: s.log } :=
                    { toSteady := h.toSteady.record hid (fun _ hn => hn.elim) (fun _ _ _ _ => by simp)
                        fun _ _ => by simp
                      lost := h.lost }
                  dsimp only
                  cases hlookup : s.pending.lookup id with
                  | none => exact hreceived
                  | some waiter =>
                      obtain ⟨hrest, hfree, other, hwritten, hother⟩ := hreceived.unpend hlookup
                      obtain rfl := hother on hsocket
                      dsimp only
                      split
                      · next hok =>
                          refine { toSteady := ?_, lost := fun hlost => ?_ }
                          · exact hrest.toSteady.resolve hfree hsocket rfl hwritten ⟨hid, hok⟩
                          · rw [resolve_socket] at hlost
                            rw [resolve_pending]
                            exact hrest.lost hlost
                      · exact hrest.reject hfree _
              | _ => exact h.drop _
      | _ => exact h.drop _

/-- Bytes wait for the rest of their line. -/
theorem Sound.buffered {s : SignerClient} (h : Sound c s) (buffer : Bytes) : Sound c { s with buffer } :=
  { h with }

/-- **The lines of some bytes are received.** -/
theorem Sound.receiveLines {s : SignerClient} (h : Sound c s) (line bytes : Bytes) :
    Sound c (s.receiveLines line bytes) := by
  induction bytes generalizing s line with
  | nil => exact h.buffered line
  | cons byte rest ih =>
      rw [SignerClient.receiveLines]
      cases hsocket : s.socket with
      | none =>
          have hkept := h.buffered (line ++ byte :: rest)
          rw [hsocket] at hkept
          exact hkept
      | some on =>
          show Sound c (if byte = 0x0A then _ else _)
          by_cases hnewline : byte = 0x0A
          · rw [if_pos hnewline]
            exact ih (h.settle hsocket line) []
          · rw [if_neg hnewline]
            exact ih h _

-- ── Opening ──────────────────────────────────────────────────────────────────────

/-- An attempt to connect ends. -/
theorem Sound.shut_open {s : SignerClient} (h : Sound c s) {attempt : Connection}
    (hopening : s.opening = .connecting attempt) (hresumed : s.resumed = []) (next : Opening)
    (hnext : next = .connected attempt ∨ ∃ message, next = .unreachable message) :
    Sound c { s with opening := next } := by
  have hphase := h.phase
  rw [Phase, hopening] at hphase
  refine { h with phase := ?_ }
  rcases hnext with rfl | ⟨message, rfl⟩
  · exact ⟨hphase, hresumed⟩
  · exact ⟨hphase, hresumed⟩

/-- **Nothing but PUBKEY is written first** on a connection. -/
theorem Sound.established {s : SignerClient} (h : Sound c s) {attempt : Connection}
    (hopening : s.opening = .connected attempt) : Sound c (s.established attempt) := by
  have hphase := h.phase
  rw [Phase, hopening] at hphase
  obtain ⟨hsocket, hresumed⟩ := hphase
  rw [SignerClient.established]
  by_cases hclosed : s.closed = true
  · rw [if_pos hclosed]
    exact { h with phase := ⟨fun _ hon => (nomatch hsocket.symm.trans hon), hresumed⟩ }
  · rw [if_neg hclosed]
    have hpending := h.lost hsocket
    have hconnected : Sound c
        { s with buffer := [], socket := some attempt, opening := .shaking attempt } := {
      h with
      written := fun entry hentry => by
        have hentry : entry ∈ s.pending := hentry
        rw [hpending] at hentry
        cases hentry
      phase := ⟨fun _ hother => (Option.some.inj hother).symm, hresumed⟩
      lost := fun hlost => (nomatch hlost) }
    exact hconnected.send (fun _ hn => (nomatch hn)) (fun _ => rfl) (fun _ _ hn => (nomatch hn))
      fun _ hn => (nomatch hn)

/-- A loss resumes nobody. -/
theorem lose_resumed (s : SignerClient) (on : Connection) (error : SignerError) :
    (s.lose on error).resumed = s.resumed := by
  have hreject : ∀ (s : SignerClient) (waiter : Waiter), (s.reject waiter error).resumed = s.resumed := by
    intro s waiter
    cases waiter with
    | request n => rfl
    | handshake => cases hopening : s.opening <;> simp [SignerClient.reject, hopening]
  have hall : ∀ (pending : List (JsString × Waiter)) (s : SignerClient),
      (SignerClient.rejectAll error pending s).resumed = s.resumed := by
    intro pending
    induction pending with
    | nil => exact fun _ => rfl
    | cons entry rest ih =>
        intro s
        rw [SignerClient.rejectAll, ih, hreject]
  rw [SignerClient.lose]
  by_cases hsocket : s.socket ≠ some on
  · rw [if_pos hsocket]
  · rw [if_neg hsocket, hall]

/-- An opening that failed is refused to all who wait for it. -/
theorem Sound.refuseOpening {s : SignerClient} (h : Sound c s) {on : Connection} (error : SignerError)
    (hon : ∀ other, s.socket = some other → other = on) (hresumed : s.resumed = []) :
    Sound c (s.refuseOpening on error) := by
  have hlost := h.lose on error
  have hnone := lose_socket error hon
  refine { hlost with phase := ⟨fun other hother => (nomatch hnone.symm.trans hother), ?_⟩ }
  show (s.lose on error).resumed = []
  rw [lose_resumed, hresumed]

/-- **A handshake is accepted only from the key that was announced first.** -/
theorem Sound.shaken {s : SignerClient} (h : Sound c s) {on : Connection}
    {reply : Except SignerError Fields} (hopening : s.opening = .answered on reply) :
    Sound c (s.shaken c on reply) := by
  have hphase := h.phase
  rw [Phase, hopening] at hphase
  obtain ⟨hon, hresumed, hshaken⟩ := hphase
  rw [SignerClient.shaken]
  cases hidentity : reply.bind (identityOf c) with
  | error error => exact h.refuseOpening error hon hresumed
  | ok identity =>
      show Sound c (if _ then _ else _)
      by_cases hother : (s.identity.any fun first => identity.keyId != first.keyId) = true
      · rw [if_pos hother]
        exact h.refuseOpening _ hon hresumed
      · rw [if_neg hother]
        have hsame : ∀ known, s.identity = some known → identity.keyId = known.keyId := by
          intro known hknown
          rw [hknown] at hother
          simpa using hother
        have hfirst : ∀ first, firstAnnounced s.log = some first → identity.keyId = first.keyId := by
          intro first hfirst
          have hkeys := h.identity
          rw [hfirst] at hkeys
          cases hknown : s.identity with
          | none =>
              rw [hknown] at hkeys
              cases hkeys
          | some known =>
              rw [hknown] at hkeys
              exact (hsame known hknown).trans (Option.some.inj hkeys)
        have hannounced : ∃ first, firstAnnounced (.announced on identity :: s.log) = some first
            ∧ identity.keyId = first.keyId := by
          cases hlog : firstAnnounced s.log with
          | none => exact ⟨identity, by rw [firstAnnounced, hlog]; rfl, rfl⟩
          | some first => exact ⟨first, firstAnnounced_of_some hlog _, hfirst first hlog⟩
        obtain ⟨first, hnow, hkey⟩ := hannounced
        have hnew : ∀ o w i, Written (.announced on identity :: s.log) o w i ↔ Written s.log o w i :=
          fun o w i => written_cons fun _ _ _ _ => by simp
        have hsettled : ∀ n, Settled (.announced on identity :: s.log) n ↔ Settled s.log n :=
          fun n => settled_cons.trans (or_iff_right id)
        have hright : Rightly c (.announced on identity) s.log := by
          refine ⟨?_, hfirst⟩
          cases reply with
          | error error => cases hidentity
          | ok fields => exact ⟨fields, hshaken fields rfl, hidentity⟩
        exact {
          justified := ⟨hright, h.justified⟩
          ids := fun o w i hw => h.ids o w i ((hnew o w i).mp hw)
          keys := h.keys
          written := fun entry hentry => by
            obtain ⟨o, hwritten, ho⟩ := h.written entry hentry
            exact ⟨o, hwritten.cons _, ho⟩
          nodup := h.nodup
          unsettled := fun n hn =>
            ⟨(h.unsettled n hn).1, fun hs => (h.unsettled n hn).2 ((hsettled n).mp hs)⟩
          unwritten := fun n hn o i hw => h.unwritten n hn o i ((hnew o _ i).mp hw)
          settledBelow := fun n hn => h.settledBelow n ((hsettled n).mp hn)
          writtenBelow := fun n o i hw => h.writtenBelow n o i ((hnew o _ i).mp hw)
          identity := by
            show some identity.keyId = (firstAnnounced (.announced on identity :: s.log)).map Identity.keyId
            rw [hnow, hkey]
            rfl
          phase := by
            refine ⟨fun other hsocket => ?_, hresumed⟩
            obtain rfl := hon other hsocket
            exact ⟨identity, first, List.mem_cons_self .., hnow, hkey⟩
          lost := h.lost }

/-- Whoever awaited `open()` goes on. -/
theorem Sound.afterOpen {s : SignerClient} (h : Sound c s) {result : Except SignerError Unit}
    (hopening : s.opening = .opened result) : Sound c (s.afterOpen result) := by
  have hphase := h.phase
  rw [Phase, hopening] at hphase
  obtain ⟨hproved, hresumed⟩ := hphase
  have hidle : Sound c { s with opening := .idle } := { h with phase := hproved }
  show Sound c (if s.ready = true then _ else _)
  by_cases hready : s.ready = true
  · rw [if_pos hready]
    have hawaiting : awaiting { s with
        opening := .idle
        waiting := []
        resumed := s.resumed ++ s.waiting.map fun call => (call, result) } = s.awaiting := by
      show [] ++ List.map _ (s.resumed ++ List.map _ s.waiting) = s.waiting.map _ ++ s.resumed.map _
      rw [hresumed, List.nil_append, List.nil_append, List.map_map, List.map_nil, List.append_nil]
      rfl
    have hnumbers : numbers { s with
        opening := .idle
        waiting := []
        resumed := s.resumed ++ s.waiting.map fun call => (call, result) } = s.numbers :=
      congrArg (· ++ s.pending.filterMap fun entry => entry.2.number?) hawaiting
    exact {
      hidle with
      nodup := hnumbers ▸ h.nodup
      unsettled := fun n hn => h.unsettled n (hnumbers ▸ hn)
      unwritten := fun n hn => h.unwritten n (hawaiting ▸ hn)
      phase := hproved }
  · rw [if_neg hready]
    cases result with
    | ok _ => exact { hidle with }
    | error _ => exact hidle.close

-- ── Requests ─────────────────────────────────────────────────────────────────────

/-- A new call of `request`. -/
theorem Sound.called {s : SignerClient} (h : Sound c s) : Sound c { s with calls := s.calls + 1 } :=
  { h with
    unsettled := fun n hn => ⟨Nat.lt_succ_of_lt (h.unsettled n hn).1, (h.unsettled n hn).2⟩
    settledBelow := fun n hn => Nat.lt_succ_of_lt (h.settledBelow n hn)
    writtenBelow := fun n on id hid => Nat.lt_succ_of_lt (h.writtenBelow n on id hid) }

/-- A new call is nobody's yet. -/
theorem Sound.free_call {s : SignerClient} (h : Sound c s) :
    Free { s with calls := s.calls + 1 } (.request s.calls) := by
  rintro n ⟨⟩
  refine ⟨fun hn => ?_, Nat.lt_succ_self _, fun hsettled => ?_⟩
  · exact absurd (h.unsettled _ hn).1 (Nat.lt_irrefl _)
  · exact absurd (h.settledBelow _ hsettled) (Nat.lt_irrefl _)

/-- A call that waits for `open()`. -/
theorem Sound.await {s : SignerClient} (h : Sound c s) {call : Awaiting}
    (hfree : s.Free (.request call.number))
    (hunwritten : ∀ on id, ¬ Written s.log on (.request call.number) id) :
    Sound c { s with waiting := s.waiting ++ [call] } := by
  obtain ⟨hnumbers, hlt, hsettled⟩ := hfree call.number rfl
  have hawaiting : awaiting { s with waiting := s.waiting ++ [call] }
      = s.waiting.map Awaiting.number ++ call.number :: s.resumed.map fun call => call.1.number := by
    show (s.waiting ++ [call]).map _ ++ _ = _
    rw [List.map_append, List.append_assoc]
    rfl
  have hperm : (awaiting { s with waiting := s.waiting ++ [call] }).Perm (call.number :: s.awaiting) := by
    rw [hawaiting]
    exact List.perm_middle
  have hall : (numbers { s with waiting := s.waiting ++ [call] }).Perm (call.number :: s.numbers) :=
    hperm.append_right _
  exact {
    h with
    nodup := hall.nodup_iff.mpr (List.nodup_cons.mpr ⟨hnumbers, h.nodup⟩)
    unsettled := fun n hn => by
      rcases List.mem_cons.mp (hall.mem_iff.mp hn) with rfl | hn
      · exact ⟨hlt, hsettled⟩
      · exact h.unsettled n hn
    unwritten := fun n hn => by
      rcases List.mem_cons.mp (hperm.mem_iff.mp hn) with rfl | hn
      · exact hunwritten
      · exact h.unwritten n hn
    phase := by
      have hphase := h.phase
      exact hphase }

/-- An opening begins. -/
theorem Sound.startOpen {s : SignerClient} (h : Sound c s) (hsocket : s.socket = none) :
    Sound c s.startOpen :=
  { h with phase := hsocket }

/-- **A request goes out at once only where the key has been shown.** -/
theorem Sound.request {s : SignerClient} (h : Sound c s) (message : Fields) : Sound c (s.request message) := by
  have hcalled := h.called
  have hfree := h.free_call
  have hunwritten : ∀ on id, ¬ Written s.log on (.request s.calls) id := fun on id hid =>
    Nat.lt_irrefl _ (h.writtenBelow _ on id hid)
  let call : Awaiting := ⟨s.calls, message⟩
  have hfree' : Free { s with calls := s.calls + 1 } (.request call.number) := hfree
  have hwait := hcalled.await hfree' hunwritten
  rw [SignerClient.request]
  show Sound c (if s.closed = true then _ else _)
  by_cases hclosed : s.closed = true
  · rw [if_pos hclosed]
    exact hcalled.reject hfree CLOSED
  · rw [if_neg hclosed]
    dsimp only
    have hphase := h.phase
    split
    · next hopening hsocket =>
        rw [Phase, hopening] at hphase
        refine hcalled.send hfree Waiter.noConfusion ?_ ?_
        · intro n on _ hon
          exact hphase on hon
        · rintro n ⟨⟩
          exact hunwritten
    · next hopening hsocket =>
        exact (hcalled.startOpen hsocket).await hfree' hunwritten
    · exact hwait

/-- A call whose `await` is over. -/
theorem Sound.resume {s : SignerClient} {call : Awaiting} {result : Except SignerError Unit}
    {rest : List (Awaiting × Except SignerError Unit)} (h : Sound c s)
    (hresumed : s.resumed = (call, result) :: rest) :
    Sound c (({ s with resumed := rest } : SignerClient).resume call result) := by
  have hperm : s.awaiting.Perm (call.number :: awaiting { s with resumed := rest }) := by
    show (s.waiting.map _ ++ s.resumed.map _).Perm _
    rw [hresumed, List.map_cons]
    exact List.perm_middle
  have hall : s.numbers.Perm (call.number :: numbers { s with resumed := rest }) := hperm.append_right _
  have hnodup := List.nodup_cons.mp (hall.nodup_iff.mp h.nodup)
  have hphase := h.phase
  have hrest : Sound c { s with resumed := rest } := {
    h with
    nodup := hnodup.2
    unsettled := fun n hn => h.unsettled n (hall.mem_iff.mpr (List.mem_cons_of_mem _ hn))
    unwritten := fun n hn => h.unwritten n (hperm.mem_iff.mpr (List.mem_cons_of_mem _ hn))
    phase := by
      rw [Phase] at hphase ⊢
      cases hopening : s.opening <;> simp_all }
  have hnumber : call.number ∈ s.awaiting := hperm.mem_iff.mpr (List.mem_cons_self ..)
  have hfree : Free { s with resumed := rest } (.request call.number) := by
    rintro n ⟨⟩
    exact ⟨hnodup.1, h.unsettled _ (List.mem_append_left _ hnumber)⟩
  cases result with
  | error error => exact hrest.reject hfree error
  | ok _ =>
      refine hrest.send hfree (fun hn => (nomatch hn)) ?_ ?_
      · intro n on _ hon
        -- continuations are left only when nothing is open, or nothing has connected yet
        rw [Phase] at hphase
        have hon : s.socket = some on := hon
        cases hopening : s.opening <;> simp_all
      · rintro n ⟨⟩
        exact h.unwritten _ hnumber

-- ── Runs ─────────────────────────────────────────────────────────────────────────

/-- Nobody is to be resumed in a quiet client. -/
theorem resumed_of_quiet {s : SignerClient} (h : s.quiet = true) : s.resumed = [] := by
  rw [quiet] at h
  split at h
  · assumption
  · assumption
  · assumption
  · cases h

/-- What waits for its turn goes on. -/
theorem Sound.continuation {s : SignerClient} (h : Sound c s) : Sound c (s.continuation c) := by
  rw [SignerClient.continuation]
  split
  · next hresumed => exact h.resume hresumed
  · split
    · next hopening => exact h.established hopening
    · next hopening =>
        have hphase := h.phase
        rw [Phase, hopening] at hphase
        exact { h with phase := ⟨fun _ hon => (nomatch hphase.1.symm.trans hon), hphase.2⟩ }
    · next hopening => exact h.shaken hopening
    · next hopening => exact h.afterOpen hopening
    · exact h

/-- **Every event keeps the log right.** -/
theorem Sound.after {s : SignerClient} (h : Sound c s) (event : Event) : Sound c (s.after c event) := by
  cases event with
  | request message =>
      show Sound c (if s.ready = true then _ else _)
      by_cases hready : s.ready = true
      · rw [if_pos hready]
        exact h.request message
      · rwa [if_neg hready]
  | close =>
      show Sound c (if s.ready = true then _ else _)
      by_cases hready : s.ready = true
      · rw [if_pos hready]
        exact h.close
      · rwa [if_neg hready]
  | continuation => exact h.continuation
  | connects =>
      rw [SignerClient.after]
      split
      · next attempt hquiet hopening =>
          exact h.shut_open hopening (resumed_of_quiet hquiet) _ (.inl rfl)
      · exact h
  | cannotConnect message =>
      rw [SignerClient.after]
      split
      · next hquiet hopening =>
          exact h.shut_open hopening (resumed_of_quiet hquiet) _ (.inr ⟨message, rfl⟩)
      · exact h
  | data on chunk =>
      show Sound c (if _ then _ else _)
      by_cases hdata : s.quiet = true ∧ s.socket = some on
      · rw [if_pos hdata]
        exact h.receiveLines [] _
      · rwa [if_neg hdata]
  | ends on message =>
      show Sound c (if _ then _ else _)
      by_cases hquiet : s.quiet = true
      · rw [if_pos hquiet]
        exact h.lose on _
      · rwa [if_neg hquiet]
  | deadline id =>
      show Sound c (if _ then _ else _)
      by_cases hquiet : s.quiet = true
      · rw [if_pos hquiet]
        exact h.timeOut id
      · rwa [if_neg hquiet]

/-- A new client. -/
theorem sound_start (path : JsString) : Sound c (start path) where
  justified := trivial
  ids := fun _ _ _ ⟨_, h⟩ => (nomatch h)
  keys := List.nodup_nil
  written := fun _ h => (nomatch h)
  nodup := List.nodup_nil
  unsettled := fun _ h => (nomatch h)
  unwritten := fun _ h => (nomatch h)
  settledBelow := fun _ ⟨_, h, _⟩ => (nomatch h)
  writtenBelow := fun _ _ _ ⟨_, h⟩ => (nomatch h)
  identity := rfl
  phase := rfl
  lost := fun _ => rfl

/-- **A client stays sound** over every run. -/
theorem sound_run (path : JsString) (events : List Event) : Sound c (run c path events) := by
  have hfold : ∀ s, Sound c s → Sound c (events.foldl (SignerClient.after c) s) := by
    induction events with
    | nil => exact fun _ h => h
    | cons event rest ih => exact fun s h => ih _ (h.after event)
  exact hfold _ (sound_start path)

/-- **In every run each entry of the log is right**: a request is settled once, and fulfilled only by
    a reply with its id that was read on the connection it was written to; one that has failed, at
    its deadline or otherwise, is not fulfilled; and but for PUBKEY nothing is written on a
    connection before its signer has shown the key the client first announced. -/
theorem run_rightly (c : Crypto) (path : JsString) (events : List Event) : Justified c (run c path events).log :=
  (sound_run path events).justified

/-- What the signer answers to the first two requests. -/
def SOME_REPLIES : Bytes × Bytes :=
  (utf8Encode (stringify (.obj [(js "id", .str (js "1")), (js "ok", .bool true),
      (js "key_id", .str toyKey.keyId.1),
      (js "public_key_base64", .str (base64Encode (List.replicate 32 0)))]) ++ [0x0A]),
   utf8Encode (stringify (.obj [(js "id", .str (js "2")), (js "ok", .bool true)]) ++ [0x0A]))

example : ((run toyCrypto [] [.connects, .continuation, .data 0 SOME_REPLIES.1, .continuation,
    .continuation, .request PUBKEY, .data 0 SOME_REPLIES.2, .data 0 SOME_REPLIES.2]).log.map fun
      | .fulfilled number _ => some number
      | _ => none) = [none, some 0, none, none, none, none, none] := by
  decide +kernel

end Sigillo.SignerClient
