import Sigillo.SignerRun
import Sigillo.StoreChains

/-!
# The signer, as the server meets it

A server that asks for a signature learns nothing of what becomes of its request unless an answer
comes in time: the request may be handled and its answer lost, be handled later, or be the one over
which the signer dies.  This file is the signer's side of it: a process, its directory, the requests
it has not handled yet, and what it may answer.

**`SignerSide.Sound`** is kept by everything that can happen there.  What is committed only grows;
a signature is of the next receipt of its chain; a head is the last receipt committed, a page a
stretch of what is committed. -/

namespace Sigillo

open DoubleArith Utf16Text JsonText JsonParse JsonSchema HexBase64 IsoTime FileVolume AssocList

variable (c : Crypto) (options : SignerOptions)

-- ── What can happen ──────────────────────────────────────────────────────────────

/-- The signer's process, when one runs, and its directory. -/
structure SignerSide where
  volume : Volume
  process : Option Systems
  /-- Every receipt committed so far; nothing reads it. -/
  committed : List Receipt
  /-- The receipts that wait to be signed, though whoever asked waits no more. -/
  waiting : List UnsignedReceipt

def SignerSide.start : SignerSide := ⟨.empty, none, [], []⟩

/-- A process that dies while it writes: after how many writes, and how far into the next. -/
structure Stop where
  done : ℕ
  cut : Option ℕ

/-- **A request to sign**, handled by the process that runs, to its end or to where it dies. -/
def SignerSide.sign (p : SignerSide) (now : Timestamp) (stop : Option Stop) (receipt : UnsignedReceipt) :
    SignerSide × Option (Except Refusal Signature) :=
  match p.process with
  | none => (p, none)
  | some systems =>
      match signReceipt c options p.volume systems now receipt with
      | .refused refusal => (p, some (.error refusal))
      | .failed writes => ({ p with volume := applyAll p.volume writes, process := none }, none)
      | .signed writes state sig _ =>
          match stop with
          | none =>
              ({ p with
                volume := applyAll p.volume writes
                process := some (systems.set (.chain state))
                committed := p.committed ++ [receipt.signed sig] }, some (.ok sig))
          | some stop =>
              ({ p with
                volume := crashed p.volume writes stop.done stop.cut
                process := none
                committed := p.committed ++
                  if writes.length ≤ stop.done then [receipt.signed sig] else [] }, none)

/-- What happens to the signer while nobody hears of it. -/
inductive SignerEvent where
  /-- A process starts on the directory. -/
  | restart
  | dies
  /-- A receipt that waits is handled at last. -/
  | handles (index : ℕ) (now : Timestamp) (stop : Option Stop)

def SignerSide.after (p : SignerSide) : SignerEvent → SignerSide
  | .restart =>
      let opened := openDirectory c p.volume
      { p with volume := opened.1, process := opened.2.toOption }
  | .dies => { p with process := none }
  | .handles index now stop =>
      match p.waiting[index]? with
      | none => p
      | some receipt => (({ p with waiting := p.waiting.eraseIdx index } : SignerSide).sign c options now stop receipt).1

def SignerSide.run (p : SignerSide) (events : List SignerEvent) : SignerSide :=
  events.foldl (SignerSide.after c options) p

-- ── What is answered ─────────────────────────────────────────────────────────────

/-- How a request fares. -/
inductive RequestFate where
  | answered
  /-- It is handled, and its answer is lost or comes too late. -/
  | lost
  /-- The process dies over it. -/
  | stopped (stop : Stop)
  /-- It is not handled while anybody waits for it. -/
  | late

/-- A request: what happens before it is handled, when that is, and how it fares. -/
structure Exchange where
  before : List SignerEvent
  now : Timestamp
  fate : RequestFate

def refusalOf (refusal : Refusal) : StoreError :=
  .signerRefused (if refusal.code = .sequence then .sequence else .other) refusal.message

/-- **The server asks for a signature.** -/
def SignerSide.ask (p : SignerSide) (x : Exchange) (receipt : UnsignedReceipt) :
    SignerSide × Except StoreError JsString :=
  let p := p.run c options x.before
  match x.fate with
  | .late => ({ p with waiting := p.waiting ++ [receipt] }, .error .signerUnavailable)
  | .stopped stop => ((p.sign c options x.now (some stop) receipt).1, .error .signerUnavailable)
  | .lost => ((p.sign c options x.now none receipt).1, .error .signerUnavailable)
  | .answered =>
      match p.sign c options x.now none receipt with
      | (p, some (.ok sig)) => (p, .ok sig.1)
      | (p, some (.error refusal)) => (p, .error (refusalOf refusal))
      | (p, none) => (p, .error .signerUnavailable)

/-- How many receipts a page of the journal has at most. -/
def RECOVERY_PAGE : ℕ := 50

/-- How a comparison fares: what happens before the head is asked for and while the pages are, which
    answers come, and the server's clock. -/
structure Viewing where
  before : List SignerEvent
  headComes : Bool
  during : List SignerEvent
  /-- How many of these have happened when the page from a position is asked for. -/
  happened : ℕ → ℕ
  pageComes : ℕ → Bool
  clock : ℕ → Timestamp

def SignerSide.head (p : SignerSide) (systemId : SystemId) : Except StoreError (Option Receipt) :=
  match p.process with
  | none => .error .signerUnavailable
  | some systems => .ok (signerHead systems systemId)

def SignerSide.page (p : SignerSide) (systemId : SystemId) (start : ℕ) : Except StoreError (List Receipt) :=
  match p.process with
  | none => .error .signerUnavailable
  | some systems => (signerReceipts c p.volume systems systemId start RECOVERY_PAGE).mapError refusalOf

/-- **What the server sees of the signer's record** of one chain. -/
def SignerSide.viewed (p : SignerSide) (systemId : SystemId) (x : Viewing) : SignerSide × SignerView :=
  let p := p.run c options x.before
  (p.run c options x.during,
    { head := if x.headComes then p.head systemId else .error .signerUnavailable
      receipts := some fun start =>
        if x.pageComes start then (p.run c options (x.during.take (x.happened start))).page c systemId start
        else .error .signerUnavailable
      clock := x.clock })

-- ── Receipts of one span ─────────────────────────────────────────────────────────

/-- Two receipts of one span. -/
def SameSpan (a b : UnsignedReceipt) : Prop :=
  a.source.traceId.isSome = true ∧ a.source.spanId.isSome = true ∧
    a.source.traceId = b.source.traceId ∧ a.source.spanId = b.source.spanId

/-- The first receipt of a chain names its system. -/
def NamesItself (receipt : UnsignedReceipt) : Prop :=
  receipt.seq.1 = 0 → receipt.action.name.1 = receipt.systemId.1

/-- **A receipt that may still be signed**: its place is taken or the next one, none of the receipts
    before that place is of its span, and the first of a chain names its system. -/
structure Unsaid (committed : List Receipt) (receipt : UnsignedReceipt) : Prop where
  within : receipt.seq.1 ≤ (chainOf committed receipt.systemId).length
  apart : ∀ r ∈ (chainOf committed receipt.systemId).take receipt.seq.1,
    ¬ SameSpan r.toUnsignedReceipt receipt
  names : NamesItself receipt

/-- No two receipts of one chain are of one span. -/
def SpansOnce (committed : List Receipt) : Prop :=
  ∀ systemId, (chainOf committed systemId).Pairwise fun a b =>
    ¬ SameSpan a.toUnsignedReceipt b.toUnsignedReceipt

theorem chainOf_prefixes {committed more : List Receipt} (h : committed <+: more) (systemId : SystemId) :
    chainOf committed systemId <+: chainOf more systemId := by
  obtain ⟨rest, rfl⟩ := h
  rw [chainOf_append]
  exact List.prefix_append _ _

/-- What is committed later stands behind the place. -/
theorem Unsaid.mono {committed more : List Receipt} (hmore : committed <+: more)
    {receipt : UnsignedReceipt} (h : Unsaid committed receipt) : Unsaid more receipt := by
  have hchain := chainOf_prefixes hmore receipt.systemId
  refine ⟨h.within.trans hchain.length_le, ?_, h.names⟩
  obtain ⟨rest, hrest⟩ := hchain
  rw [← hrest, List.take_append_of_le_length h.within]
  exact h.apart

/-- **The next receipt of a chain repeats no span of it.** -/
theorem SpansOnce.append {committed : List Receipt} (h : SpansOnce committed) {r : Receipt}
    (hr : Unsaid committed r.toUnsignedReceipt)
    (hnext : r.seq.1 = (chainOf committed r.systemId).length) : SpansOnce (committed ++ [r]) := by
  intro systemId
  by_cases hsame : systemId = r.systemId
  · subst hsame
    rw [chainOf_append_self, List.pairwise_append]
    refine ⟨h _, List.pairwise_singleton _ _, fun a ha b hb => ?_⟩
    rw [List.mem_singleton.mp hb]
    refine hr.apart a ?_
    rw [List.take_of_length_le hnext.ge]
    exact ha
  · rw [chainOf_append_of_ne hsame]
    exact h systemId

-- ── The invariant ────────────────────────────────────────────────────────────────

/-- **The signer's side**: what is committed, on disk and in memory are of the same chains, every
    receipt committed is signed under the signer's key, no chain has two of one span, the first of each
    names its system, and what waits may still be signed. -/
structure SignerSide.Sound (ids : Set SystemId) (p : SignerSide) : Prop where
  committed : Committed (c := c) ids p.committed
  disk : OnDisk (c := c) ids p.committed p.volume
  memory : ∀ systems, p.process = some systems → InMemory (c := c) p.committed systems
  signed : ∀ r ∈ p.committed, r.keyId = options.key.keyId ∧
    r.sig = signDigest options.key (receiptHash c r.toUnsignedReceipt)
  spans : SpansOnce p.committed
  names : ∀ r ∈ p.committed, NamesItself r.toUnsignedReceipt
  waiting : ∀ r ∈ p.waiting,
    (isWellFormed r.systemId.1 = true → r.systemId ∈ ids) ∧ Unsaid p.committed r

variable {c options} {ids : Set SystemId} {p : SignerSide}

theorem SignerSide.sound_start : SignerSide.start.Sound c options ids where
  committed := ⟨fun s => isChain_nil s, fun _ h => absurd h List.not_mem_nil⟩
  disk := ⟨fun s _ => .inl ⟨rfl, rfl⟩, fun _ _ h => absurd rfl h, fun _ _ n h => absurd h (Nat.not_lt_zero n)⟩
  memory := by
    intro systems h
    cases h
  signed := fun _ h => absurd h List.not_mem_nil
  spans := fun _ => List.Pairwise.nil
  names := fun _ h => absurd h List.not_mem_nil
  waiting := fun _ h => absurd h List.not_mem_nil

/-- A signature is given for a receipt that names the signer's key. -/
theorem keyId_of_signed {volume : Volume} {systems : Systems} {now : Timestamp} {receipt : UnsignedReceipt}
    {writes : List Op} {state : ChainState} {sig : Signature} {hash : Hex 64}
    (h : signReceipt c options volume systems now receipt = .signed writes state sig hash) :
    receipt.keyId = options.key.keyId := by
  by_contra hkey
  rw [signReceipt, if_pos hkey] at h
  cases h

/-- What is in memory takes every receipt that is accepted. -/
theorem InMemory.signReceipt_ne_failed {committed : List Receipt} {volume : Volume} {systems : Systems}
    (hm : InMemory (c := c) committed systems) {now : Timestamp} {receipt : UnsignedReceipt}
    {writes : List Op} : signReceipt c options volume systems now receipt ≠ .failed writes := by
  intro h
  obtain ⟨-, -, -, hnext⟩ := signReceipt_accepted c options (by simp) h
  obtain ⟨-, -, haccepted⟩ := signNext_accepted c options (by simp) hnext
  rw [signAccepted] at haccepted
  cases hfrontier : frontierAppend c (frontierOf (knownChain systems receipt.systemId))
      (receiptHash c receipt) with
  | none => exact hm.frontierAppend_ne_none _ _ hfrontier
  | some frontier =>
      rw [hfrontier] at haccepted
      cases haccepted

namespace SignerSide

/-- **What a request to sign comes to**: nothing, or its receipt is committed, the next of its chain. -/
inductive Signing (c : Crypto) (options : SignerOptions) (p : SignerSide) (receipt : UnsignedReceipt) :
    SignerSide × Option (Except Refusal Signature) → Prop
  | nothing {p' : SignerSide} {answer : Option (Except Refusal Signature)}
      (committed : p'.committed = p.committed) (waiting : p'.waiting = p.waiting)
      (unsigned : ∀ sig, answer ≠ some (.ok sig)) : Signing c options p receipt (p', answer)
  | signed {p' : SignerSide} {answer : Option (Except Refusal Signature)} (sig : Signature)
      (follows : Follows c receipt.systemId (chainOf p.committed receipt.systemId) receipt)
      (committed : p'.committed = p.committed ++ [receipt.signed sig]) (waiting : p'.waiting = p.waiting)
      (answered : ∀ other, answer = some (.ok other) → other = sig) : Signing c options p receipt (p', answer)

theorem Sound.signing (h : p.Sound c options ids) (now : Timestamp) (stop : Option Stop)
    (receipt : UnsignedReceipt) : Signing c options p receipt (p.sign c options now stop receipt) := by
  rw [SignerSide.sign]
  cases hprocess : p.process with
  | none => exact .nothing rfl rfl (by rintro sig ⟨⟩)
  | some systems =>
      have hm := h.memory systems hprocess
      dsimp only
      cases hout : signReceipt c options p.volume systems now receipt with
      | refused refusal =>
          refine .nothing rfl rfl fun sig hsig => ?_
          cases Option.some.inj hsig
      | failed writes => exact absurd hout hm.signReceipt_ne_failed
      | signed writes state sig hash =>
          have hfollows := (signReceipt_signed c options hout).follows hm
          cases stop with
          | none =>
              refine .signed sig hfollows rfl rfl fun other hother => ?_
              exact (Except.ok.inj (Option.some.inj hother)).symm
          | some stop =>
              dsimp only
              by_cases hdone : writes.length ≤ stop.done
              · rw [if_pos hdone]
                exact .signed sig hfollows rfl rfl (by rintro other ⟨⟩)
              · rw [if_neg hdone, List.append_nil]
                exact .nothing rfl rfl (by rintro other ⟨⟩)

theorem Signing.grows {receipt : UnsignedReceipt} {out : SignerSide × Option (Except Refusal Signature)}
    (h : Signing c options p receipt out) : p.committed <+: out.1.committed := by
  cases h with
  | nothing committed waiting unsigned => exact committed ▸ List.prefix_rfl
  | signed sig follows committed waiting answered => exact committed ▸ List.prefix_append _ _

/-- What is answered with a signature is committed under it. -/
theorem Signing.commits {receipt : UnsignedReceipt} {out : SignerSide × Option (Except Refusal Signature)}
    (h : Signing c options p receipt out) {sig : Signature} (hanswer : out.2 = some (.ok sig)) :
    out.1.committed = p.committed ++ [receipt.signed sig] := by
  cases h with
  | nothing committed waiting unsigned => exact absurd hanswer (unsigned sig)
  | signed other follows committed waiting answered => rw [answered sig hanswer, committed]

/-- **A signature keeps the signer's side sound**, wherever the process dies over it. -/
theorem Sound.sign (hn : Named c ids) (h : p.Sound c options ids) (now : Timestamp) (stop : Option Stop)
    {receipt : UnsignedReceipt} (hids : isWellFormed receipt.systemId.1 = true → receipt.systemId ∈ ids)
    (hunsaid : Unsaid p.committed receipt) : (p.sign c options now stop receipt).1.Sound c options ids := by
  rw [SignerSide.sign]
  cases hprocess : p.process with
  | none => exact h
  | some systems =>
      have hm := h.memory systems hprocess
      dsimp only
      cases hout : signReceipt c options p.volume systems now receipt with
      | refused refusal => exact h
      | failed writes => exact absurd hout hm.signReceipt_ne_failed
      | signed writes state sig hash =>
          have hs := signReceipt_signed c options hout
          have hown := hids hs.wellFormed
          have hfollows := hs.follows hm
          have hsigned : ∀ r ∈ p.committed ++ [receipt.signed sig], r.keyId = options.key.keyId ∧
              r.sig = signDigest options.key (receiptHash c r.toUnsignedReceipt) := by
            intro r hr
            rcases List.mem_append.mp hr with hr | hr
            · exact h.signed r hr
            · rw [List.mem_singleton.mp hr]
              exact ⟨keyId_of_signed hout, hs.sig_eq⟩
          have hwaiting : ∀ r ∈ p.waiting, (isWellFormed r.systemId.1 = true → r.systemId ∈ ids) ∧
              Unsaid (p.committed ++ [receipt.signed sig]) r := fun r hr =>
            ⟨(h.waiting r hr).1, (h.waiting r hr).2.mono (List.prefix_append _ _)⟩
          have hmore : Committed (c := c) ids (p.committed ++ [receipt.signed sig]) :=
            h.committed.append (r := receipt.signed sig) hown hfollows
          have hspans : SpansOnce (p.committed ++ [receipt.signed sig]) :=
            h.spans.append (r := receipt.signed sig) hunsaid hfollows.seq
          have hnames : ∀ r ∈ p.committed ++ [receipt.signed sig], NamesItself r.toUnsignedReceipt := by
            intro r hr
            rcases List.mem_append.mp hr with hr | hr
            · exact h.names r hr
            · rw [List.mem_singleton.mp hr]
              exact hunsaid.names
          cases stop with
          | none =>
              have hdisk := h.disk.signed hn hm hown hs writes.length none
              rw [if_pos le_rfl, crashed_length] at hdisk
              refine ⟨hmore, hdisk, fun live hlive => ?_, hsigned, hspans, hnames, hwaiting⟩
              rw [← Option.some.inj hlive]
              exact hm.set (r := receipt.signed sig) (hs.keeps hm)
          | some stop =>
              have hdisk := h.disk.signed hn hm hown hs stop.done stop.cut
              dsimp only
              by_cases hdone : writes.length ≤ stop.done
              · rw [if_pos hdone] at hdisk ⊢
                exact ⟨hmore, hdisk, by rintro live ⟨⟩, hsigned, hspans, hnames, hwaiting⟩
              · rw [if_neg hdone, List.append_nil] at hdisk ⊢
                exact ⟨h.committed, hdisk, by rintro live ⟨⟩, h.signed, h.spans,
                  h.names, h.waiting⟩

-- ── Everything that can happen ───────────────────────────────────────────────────

/-- **Whatever happens there keeps it sound**, and what is committed only grows. -/
theorem Sound.after (hn : Named c ids) (h : p.Sound c options ids) (event : SignerEvent) :
    (p.after c options event).Sound c options ids ∧ p.committed <+: (p.after c options event).committed := by
  cases event with
  | restart =>
      obtain ⟨hdisk, hmemory⟩ := openDirectory_sound hn h.committed h.disk
      refine ⟨⟨h.committed, hdisk, fun systems hsystems => hmemory systems ?_, h.signed, h.spans, h.names, h.waiting⟩,
        List.prefix_rfl⟩
      change (openDirectory c p.volume).2.toOption = some systems at hsystems
      cases hopened : (openDirectory c p.volume).2 with
      | error e =>
          rw [hopened] at hsystems
          cases hsystems
      | ok opened =>
          rw [hopened] at hsystems
          rw [Option.some.inj hsystems]
  | dies =>
      exact ⟨{ h with memory := by rintro systems ⟨⟩ }, List.prefix_rfl⟩
  | handles index now stop =>
      rw [SignerSide.after]
      cases hwaits : p.waiting[index]? with
      | none => exact ⟨h, List.prefix_rfl⟩
      | some receipt =>
          obtain ⟨hids, hunsaid⟩ := h.waiting receipt (List.mem_of_getElem? hwaits)
          have hrest : Sound c options ids { p with waiting := p.waiting.eraseIdx index } :=
            { h with waiting := fun r hr => h.waiting r (List.mem_of_mem_eraseIdx hr) }
          exact ⟨hrest.sign hn now stop hids hunsaid, (hrest.signing now stop receipt).grows⟩

theorem Sound.run (hn : Named c ids) (h : p.Sound c options ids) (events : List SignerEvent) :
    (p.run c options events).Sound c options ids ∧ p.committed <+: (p.run c options events).committed := by
  induction events generalizing p with
  | nil => exact ⟨h, List.prefix_rfl⟩
  | cons event rest ih =>
      obtain ⟨hsound, hgrows⟩ := h.after hn event
      obtain ⟨hrun, hmore⟩ := ih hsound
      exact ⟨hrun, hgrows.trans hmore⟩

theorem run_append (p : SignerSide) (before after : List SignerEvent) :
    p.run c options (before ++ after) = (p.run c options before).run c options after := List.foldl_append

-- ── What a signature, a head and a page say ──────────────────────────────────────

/-- **A request for a signature**, however it fares: where a signature comes back, its receipt is
    committed, the last of all. -/
theorem Sound.ask (hn : Named c ids) (h : p.Sound c options ids) (x : Exchange) {receipt : UnsignedReceipt}
    (hids : isWellFormed receipt.systemId.1 = true → receipt.systemId ∈ ids)
    (hunsaid : Unsaid p.committed receipt) :
    (p.ask c options x receipt).1.Sound c options ids ∧
      p.committed <+: (p.ask c options x receipt).1.committed ∧
      ∀ sig, (p.ask c options x receipt).2 = .ok sig → ∃ s : Signature, s.1 = sig ∧ ∃ before,
        p.committed <+: before ∧ Follows c receipt.systemId (chainOf before receipt.systemId) receipt ∧
          (p.ask c options x receipt).1.committed = before ++ [receipt.signed s] := by
  obtain ⟨hsound, hgrows⟩ := h.run hn x.before
  have hstill := hunsaid.mono hgrows
  have hsign := fun stop => hsound.sign hn x.now stop hids hstill
  have hmore := fun stop => hgrows.trans (hsound.signing x.now stop receipt).grows
  rw [SignerSide.ask]
  cases x.fate with
  | late =>
      refine ⟨{ hsound with waiting := fun r hr => ?_ }, hgrows, by rintro sig ⟨⟩⟩
      rcases List.mem_append.mp hr with hr | hr
      · exact hsound.waiting r hr
      · rw [List.mem_singleton.mp hr]
        exact ⟨hids, hstill⟩
  | stopped stop => exact ⟨hsign (some stop), hmore (some stop), by rintro sig ⟨⟩⟩
  | lost => exact ⟨hsign none, hmore none, by rintro sig ⟨⟩⟩
  | answered =>
      have hsigning := hsound.signing x.now none receipt
      have hafter := hsign none
      have hbefore := hmore none
      dsimp only
      generalize (p.run c options x.before).sign c options x.now none receipt = out at hsigning hafter hbefore
      obtain ⟨p', answer⟩ := out
      cases answer with
      | none => exact ⟨hafter, hbefore, by rintro sig ⟨⟩⟩
      | some answer =>
          cases answer with
          | error refusal => exact ⟨hafter, hbefore, by rintro sig ⟨⟩⟩
          | ok signature =>
              refine ⟨hafter, hbefore, fun sig hsig => ⟨signature, Except.ok.inj hsig, ?_⟩⟩
              cases hsigning with
              | nothing committed waiting unsigned => exact absurd rfl (unsigned signature)
              | signed other follows committed waiting answered =>
                  rw [answered signature rfl]
                  exact ⟨_, hgrows, follows, committed⟩

/-- The head the signer holds is the last receipt committed. -/
theorem Sound.signerHead (h : p.Sound c options ids) {systems : Systems} (hprocess : p.process = some systems)
    (systemId : SystemId) : signerHead systems systemId = (chainOf p.committed systemId).getLast? := by
  rcases h.memory systems hprocess systemId with ⟨hnil, hnone⟩ | ⟨state, hsome, hkeeps⟩
  · rw [Sigillo.signerHead, knownChain, hnone, hnil]
    rfl
  · rw [Sigillo.signerHead, knownChain, hsome, hkeeps.head]
    rfl

/-- **A page is a stretch of what is committed.** -/
theorem Sound.page (h : p.Sound c options ids) {systemId : SystemId} {start : ℕ} {receipts : List Receipt}
    (hpage : p.page c systemId start = .ok receipts) :
    receipts = ((chainOf p.committed systemId).drop start).take RECOVERY_PAGE := by
  rw [SignerSide.page] at hpage
  cases hprocess : p.process with
  | none =>
      rw [hprocess] at hpage
      cases hpage
  | some systems =>
      rw [hprocess] at hpage
      dsimp only at hpage
      cases hreceipts : signerReceipts c p.volume systems systemId start RECOVERY_PAGE with
      | error refusal =>
          rw [hreceipts] at hpage
          cases hpage
      | ok found =>
          rw [hreceipts] at hpage
          rw [← Except.ok.inj hpage]
          exact signerReceipts_committed h.committed h.disk (h.memory systems hprocess) hreceipts

/-- A page of a chain that is there comes, where a process runs. -/
theorem Sound.page_comes (h : p.Sound c options ids) (hruns : p.process ≠ none) {systemId : SystemId}
    (hchain : chainOf p.committed systemId ≠ []) (start : ℕ) :
    p.page c systemId start = .ok (((chainOf p.committed systemId).drop start).take RECOVERY_PAGE) := by
  obtain ⟨systems, hprocess⟩ := Option.ne_none_iff_exists'.mp hruns
  rcases h.memory systems hprocess systemId with ⟨hnil, -⟩ | ⟨state, hsome, -⟩
  · exact absurd hnil hchain
  · have hcomes : p.page c systemId start
        = .ok (receiptsOf c p.volume systems systemId start RECOVERY_PAGE) := by
      rw [SignerSide.page, hprocess]
      dsimp only
      rw [signerReceipts, knownChain, hsome]
      rfl
    rw [hcomes, h.page hcomes]

/-- **A view that tells the truth** of what is committed by its end. -/
structure Tells (systemId : SystemId) (committed : List Receipt) (view : SignerView) : Prop where
  head : ∀ head, view.head = .ok head → ∃ before, before <+: committed ∧
    head = (chainOf before systemId).getLast?
  page : ∀ page, view.receipts = some page → ∀ start receipts, page start = .ok receipts →
    receipts <+: (chainOf committed systemId).drop start

theorem Sound.viewed (hn : Named c ids) (h : p.Sound c options ids) (systemId : SystemId) (x : Viewing) :
    (p.viewed c options systemId x).1.Sound c options ids ∧
      p.committed <+: (p.viewed c options systemId x).1.committed ∧
      Tells systemId (p.viewed c options systemId x).1.committed (p.viewed c options systemId x).2 := by
  obtain ⟨hsound, hgrows⟩ := h.run hn x.before
  obtain ⟨hafter, hmore⟩ := hsound.run hn x.during
  refine ⟨hafter, hgrows.trans hmore, ?_, ?_⟩
  · intro head hhead
    change (if x.headComes then (p.run c options x.before).head systemId else _) = .ok head at hhead
    by_cases hcomes : x.headComes = true
    · rw [if_pos hcomes, SignerSide.head] at hhead
      cases hprocess : (p.run c options x.before).process with
      | none =>
          rw [hprocess] at hhead
          cases hhead
      | some systems =>
          rw [hprocess] at hhead
          exact ⟨_, hmore, (Except.ok.inj hhead).symm.trans (hsound.signerHead hprocess systemId)⟩
    · rw [if_neg hcomes] at hhead
      cases hhead
  · intro page hpage start receipts hreceipts
    rw [← Option.some.inj hpage] at hreceipts
    dsimp only at hreceipts
    by_cases hcomes : x.pageComes start = true
    · rw [if_pos hcomes] at hreceipts
      -- the page is of a moment while the pages are asked for
      obtain ⟨hthen, -⟩ := hsound.run hn (x.during.take (x.happened start))
      have hlater : ((p.run c options x.before).run c options (x.during.take (x.happened start))).committed
          <+: ((p.run c options x.before).run c options x.during).committed := by
        obtain ⟨-, hrest⟩ := hthen.run hn (x.during.drop (x.happened start))
        rwa [← run_append _ (x.during.take _), List.take_append_drop] at hrest
      rw [hthen.page hreceipts]
      exact (List.take_prefix _ _).trans ((chainOf_prefixes hlater systemId).drop start)
    · rw [if_neg hcomes] at hreceipts
      cases hreceipts

end SignerSide

end Sigillo
