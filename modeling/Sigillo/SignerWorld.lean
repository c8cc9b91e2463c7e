import Sigillo.ReceiptChain
import Sigillo.SignerFiles

/-!
# Runs of the signer

A signer started on an empty directory, given any lines in any order, stopped at any point of its
writes and started again: what it has committed, what is on disk, what is in memory and what it has
answered.

**`Sound`** ties them together. The state file of a system is always of the chain committed for it;
the journal may be ahead of it, hold lines that were superseded and end in a torn one, but its last
word on each committed position is the committed receipt. -/

namespace Sigillo

open DoubleArith Utf16Text JsonText JsonParse JsonSchema HexBase64 IsoTime FileVolume AssocList

variable (c : Crypto) (options : SignerOptions)

-- ── The run ──────────────────────────────────────────────────────────────────────

/-- **The signer and its directory**: the process when one runs, and, for the statements about a
    run, the receipts committed so far and the lines answered so far. -/
structure World where
  volume : Volume
  process : Option Systems
  committed : List Receipt
  exchanges : List (JsString × Reply)

def World.start : World := ⟨.empty, none, [], []⟩

/-- What can happen. -/
inductive Event where
  /-- A line comes in and is handled to its end. -/
  | line (now : Timestamp) (text : JsString)
  /-- The process dies while it handles a line: after `done` of its writes, the next one not begun
      or cut short after some bytes. With every write made, it dies before the reply. -/
  | crash (now : Timestamp) (text : JsString) (done : ℕ) (cut : Option ℕ)
  /-- A process starts on the directory. -/
  | restart

def World.handled (w : World) (now : Timestamp) (text : JsString) : Option Handled :=
  w.process.map fun systems => handleLine c options w.volume systems now text

def World.step (w : World) : Event → World
  | .line now text =>
      match w.handled c options now text with
      | none => w
      | some h =>
          { volume := applyAll w.volume h.writes
            process := if h.reply.isSome then some h.systems else none
            committed := w.committed ++ h.commits.toList
            exchanges := w.exchanges ++ (h.reply.map fun reply => (text, reply)).toList }
  | .crash now text done cut =>
      match w.handled c options now text with
      | none => w
      | some h =>
          { w with
            volume := crashed w.volume h.writes done cut
            process := none
            committed := w.committed ++ if h.writes.length ≤ done then h.commits.toList else [] }
  | .restart =>
      let opened := openDirectory c w.volume
      { w with volume := opened.1, process := opened.2.toOption }

def World.run (events : List Event) : World := events.foldl (World.step c options) .start

/-- The receipts a run has revealed. -/
def World.Revealed (w : World) (r : Receipt) : Prop :=
  ∃ e ∈ w.exchanges, r ∈ revealed e.1 e.2

/-- The checkpoint a line would be answered with. -/
def World.SignsCheckpoint (w : World) (now : Timestamp) (text : JsString)
    (checkpoint : Checkpoint) : Prop :=
  ∃ handled id, w.handled c options now text = some handled ∧
    handled.reply = some (.checkpoint id checkpoint)

/-- The system a line asks a signature for, if its name has a canonical form. -/
def Event.signsFor : Event → Option SystemId
  | .line _ text | .crash _ text _ _ =>
      match requestIn text with
      | some (.signReceipt receipt) =>
          if isWellFormed receipt.systemId.1 then some receipt.systemId else none
      | _ => none
  | .restart => none

/-- The systems a run asks signatures for. -/
def signedFor (events : List Event) : Set SystemId := {s | ∃ e ∈ events, e.signsFor = some s}

-- ── What is kept of a chain ──────────────────────────────────────────────────────

/-- **A state that is of a chain**: its head, its length, the frontier of its tree. -/
structure Keeps (systemId : SystemId) (chain : List Receipt) (state : ChainState) : Prop where
  system : state.systemId = systemId
  head : chain.getLast? = some state.head
  headSystem : state.head.systemId = systemId
  headSeq : state.head.seq = state.seq
  seq : chain.length = state.seq.1 + 1
  hash : state.hash = receiptHashHex c state.head.toUnsignedReceipt
  frontier : MerkleTree.IsFrontier c.tree state.frontier (receiptHashes c chain)

variable {c}

theorem Keeps.consistent {systemId : SystemId} {chain : List Receipt} {state : ChainState}
    (h : Keeps c systemId chain state) : state.Consistent c where
  systemId := h.headSystem.trans h.system.symm
  seq := h.headSeq
  hash := h.hash.symm
  size := by rw [h.frontier.1, length_receiptHashes, h.seq]
  nodes := h.frontier.length_nodes

theorem Keeps.ne_nil {systemId : SystemId} {chain : List Receipt} {state : ChainState}
    (h : Keeps c systemId chain state) : chain ≠ [] := by
  rintro rfl
  cases h.head

/-- **In memory**: for every system the state of the chain committed for it, and nothing where
    none is. -/
def InMemory (committed : List Receipt) (systems : Systems) : Prop :=
  ∀ s, (chainOf committed s = [] ∧ systems s = none) ∨
    ∃ state, systems s = some (.chain state) ∧ Keeps c s (chainOf committed s) state

/-- **On disk**: the same, in the state files, and no state file of anything else; and in the
    journals a last word on every committed position. -/
structure OnDisk (ids : Set SystemId) (committed : List Receipt) (volume : Volume) : Prop where
  stateFile : ∀ s ∈ ids, (chainOf committed s = [] ∧ volume.read (fileNameOf c s) = none) ∨
    ∃ state, volume.read (fileNameOf c s) = some (utf8Encode (serialize (.chain state))) ∧
      Keeps c s (chainOf committed s) state
  named : ∀ name, isStateName name → volume.read name ≠ none → ∃ s ∈ ids, name = fileNameOf c s
  journal : ∀ s ∈ ids, ∀ n < (chainOf committed s).length,
    lastAt s n (journalReceipts ((volume.read (journalNameOf c s)).getD []))
      = (chainOf committed s)[n]?

/-- What has been committed: a chain for each system, and none but the run's. -/
structure Committed (ids : Set SystemId) (committed : List Receipt) : Prop where
  chain : ∀ s, IsChain c s (chainOf committed s)
  systems : ∀ r ∈ committed, r.systemId ∈ ids

/-- **The invariant of a run.** -/
structure Sound (ids : Set SystemId) (w : World) : Prop where
  committed : Committed (c := c) ids w.committed
  disk : OnDisk (c := c) ids w.committed w.volume
  memory : ∀ systems, w.process = some systems → InMemory (c := c) w.committed systems
  revealed : ∀ r, w.Revealed r → r ∈ w.committed

end Sigillo
