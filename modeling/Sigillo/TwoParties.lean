import Sigillo.QuietChanges
import Sigillo.SignerSide
import Sigillo.SpanAnswers

/-!
# The server and the signer

The store writes what the signer signs, and neither can undo what the other did: a signature may be
lost after it was committed, the server may die before it commits, and a database may be put back to
an older copy.  Here the two run together.  Every step of the server is its own function of
`ReceiptStore`, given the answers the signer's side gives it, when it gives any
(**`write_eq_writeReceipt`**, **`appendBatch_eq_appendBatch`**). -/

namespace Sigillo

open DoubleArith Utf16Text JsonText JsonParse JsonSchema HexBase64 IsoTime FileVolume AssocList

/-- **The server, the copies of its database, and the signer.** -/
structure TwoParties where
  store : Store
  /-- The databases there were after each transaction before: any of them may be put back. -/
  copies : List Store
  signer : SignerSide

def TwoParties.start (key : WriterKey) : TwoParties := ⟨.fresh key, [], .start⟩

/-- What an attempt to write draws, and how its request to sign fares. -/
structure Try where
  random : Randomness
  exchange : Exchange

/-- What happens while one receipt is written: an attempt, and where the signer refuses the position a
    comparison and an attempt more. -/
structure WritePlan where
  first : Try
  comparison : Viewing
  again : Try

namespace TwoParties

variable (c : Crypto) (u : Unicode) (key : WriterKey) (options : SignerOptions)

-- ── One receipt ──────────────────────────────────────────────────────────────────

def committed (w : TwoParties) (store : Store) (signer : SignerSide) : TwoParties :=
  ⟨store, w.copies ++ [w.store], signer⟩

/-- What the signer answers an attempt; where no receipt comes to be signed, it is not asked. -/
def asked (w : TwoParties) (event : ChainEvent) (mode : WriteMode) (t : Try) :
    SignerSide × Except StoreError JsString :=
  match draftReceipt c u key w.store.db event mode t.random with
  | .ok (_, .unsigned _ unsigned) => w.signer.ask c options t.exchange unsigned
  | _ => (w.signer, .error .signerUnavailable)

def attempt (w : TwoParties) (event : ChainEvent) (mode : WriteMode)
    (alongside : Database → Except StoreError Database) (t : Try) : TwoParties × Except StoreError Receipt :=
  let asked := w.asked c u key options event mode t
  let out := attemptReceipt c u key w.store event mode alongside ⟨t.random, asked.2⟩
  (w.committed out.1 asked.1, out.2)

def compare (w : TwoParties) (systemId : SystemId) (x : Viewing) :
    TwoParties × Except StoreError ReconcileOutcome :=
  let viewed := w.signer.viewed c options systemId x
  let out := reconcileNow c key w.store systemId viewed.2
  (w.committed out.1 viewed.1, out.2)

/-- **`writeReceipt`**, with the signer it asks. -/
def write (w : TwoParties) (event : ChainEvent) (mode : WriteMode)
    (alongside : Database → Except StoreError Database) (plan : WritePlan) :
    TwoParties × Except StoreError Receipt :=
  match w.attempt c u key options event mode alongside plan.first with
  | (w, .error (.signerRefused .sequence message)) =>
      match w.compare c key options event.systemId plan.comparison with
      | (w, .error e) => (w, .error e)
      | (w, .ok (.recovered ..)) => w.attempt c u key options event mode alongside plan.again
      | (w, .ok (.diverged detail)) => (w, .error (.signerRefused .sequence (message ++ js "; " ++ detail)))
      | (w, .ok .inSync) => (w, .error (.signerRefused .sequence message))
  | result => result

variable {c u key options}

/-- **It is the store's own `writeReceipt`**, for what the signer answers. -/
theorem write_eq_writeReceipt (w : TwoParties) (event : ChainEvent) (mode : WriteMode)
    (alongside : Database → Except StoreError Database) (plan : WritePlan) :
    ∃ replies, writeReceipt c u key w.store event mode alongside replies
      = ((w.write c u key options event mode alongside plan).1.store,
        (w.write c u key options event mode alongside plan).2) := by
  let first : Attempt := ⟨plan.first.random, (w.asked c u key options event mode plan.first).2⟩
  let w₁ := (w.attempt c u key options event mode alongside plan.first).1
  let w₂ := (w₁.compare c key options event.systemId plan.comparison).1
  let view := (w₁.signer.viewed c options event.systemId plan.comparison).2
  let again : Attempt := ⟨plan.again.random, (w₂.asked c u key options event mode plan.again).2⟩
  refine ⟨⟨first, view, again⟩, ?_⟩
  rw [writeReceipt, write]
  have hfirst : attemptReceipt c u key w.store event mode alongside first
      = (w₁.store, (w.attempt c u key options event mode alongside plan.first).2) := rfl
  have hcompare : reconcileNow c key w₁.store event.systemId view
      = (w₂.store, (w₁.compare c key options event.systemId plan.comparison).2) := rfl
  have hagain : attemptReceipt c u key w₂.store event mode alongside again
      = ((w₂.attempt c u key options event mode alongside plan.again).1.store,
        (w₂.attempt c u key options event mode alongside plan.again).2) := rfl
  have hw₁ : w.attempt c u key options event mode alongside plan.first
      = (w₁, (w.attempt c u key options event mode alongside plan.first).2) := rfl
  have hw₂ : w₁.compare c key options event.systemId plan.comparison
      = (w₂, (w₁.compare c key options event.systemId plan.comparison).2) := rfl
  rw [hfirst, hw₁]
  generalize (w.attempt c u key options event mode alongside plan.first).2 = result
  rcases result with e | receipt
  · rcases e with _ | _ | _ | _ | ⟨code, message⟩ | _ | _ | _
    case signerRefused =>
      cases code with
      | other => rfl
      | sequence =>
          dsimp only
          rw [hcompare, hw₂]
          generalize (w₁.compare c key options event.systemId plan.comparison).2 = outcome
          rcases outcome with e | outcome
          · rfl
          · cases outcome with
            | inSync => rfl
            | recovered seq hash count => exact hagain
            | diverged detail => rfl
    all_goals rfl
  · rfl

-- ── Batches ──────────────────────────────────────────────────────────────────────

variable (c u key options)

def writeBatch (w : TwoParties) :
    List (ChainEvent × WritePlan) → TwoParties × Except StoreError (List Receipt)
  | [] => (w, .ok [])
  | (event, plan) :: rest =>
      match w.write c u key options event .continuation .ok plan with
      | (w, .error e) => (w, .error e)
      | (w, .ok receipt) =>
          match w.writeBatch rest with
          | (w, .error e) => (w, .error e)
          | (w, .ok receipts) => (w, .ok (receipt :: receipts))

/-- **`appendBatch`**, with the signer it asks. -/
def appendBatch (w : TwoParties) (seen : List SubjectRow)
    (events : List (ChainEvent × Randomness × WritePlan)) : TwoParties × Except StoreError (List Receipt) :=
  match ((events.findSome? fun e => if e.1.action.kind = .genesis then refusedEvent e.1 else none).orElse
      fun _ => (events.findSome? fun e => refusedEvent e.1).orElse
        fun _ => events.findSome? fun e => refusedBefore c u key seen e.1 e.2.1) with
  | some e => (w, .error e)
  | none => w.writeBatch c u key options (events.map fun e => (e.1, e.2.2))

/-- **`append`**, with the signer it asks. -/
def append (w : TwoParties) (seen : List SubjectRow) (event : ChainEvent) (checked : Randomness)
    (plan : WritePlan) : TwoParties × Except StoreError Receipt :=
  match (refusedEvent event).orElse fun _ => refusedBefore c u key seen event checked with
  | some e => (w, .error e)
  | none => w.write c u key options event .continuation .ok plan

variable {c u key options}

theorem writeBatch_eq_writeBatch (w : TwoParties) (events : List (ChainEvent × WritePlan)) :
    ∃ replies : List SignerReplies, replies.length = events.length ∧
      Sigillo.writeBatch c u key w.store ((events.map Prod.fst).zip replies)
        = ((w.writeBatch c u key options events).1.store, (w.writeBatch c u key options events).2) := by
  induction events generalizing w with
  | nil => exact ⟨[], rfl, rfl⟩
  | cons e rest ih =>
      obtain ⟨event, plan⟩ := e
      obtain ⟨reply, hreply⟩ := write_eq_writeReceipt w event .continuation .ok plan
      obtain ⟨replies, hlength, hreplies⟩ := ih (w.write c u key options event .continuation .ok plan).1
      refine ⟨reply :: replies, congrArg (· + 1) hlength, ?_⟩
      rw [List.map_cons, List.zip_cons_cons, Sigillo.writeBatch, hreply, writeBatch]
      generalize w.write c u key options event .continuation .ok plan = out at hreplies ⊢
      obtain ⟨w', result⟩ := out
      cases result with
      | error e => rfl
      | ok receipt =>
          dsimp only at hreplies ⊢
          rw [hreplies]
          generalize w'.writeBatch c u key options rest = later
          obtain ⟨w'', receipts⟩ := later
          cases receipts with
          | error e => rfl
          | ok receipts => rfl

/-- **It is the store's own `appendBatch`**, for what the signer answers. -/
theorem appendBatch_eq_appendBatch (w : TwoParties) (seen : List SubjectRow)
    (events : List (ChainEvent × Randomness × WritePlan)) :
    ∃ replies : List SignerReplies, replies.length = events.length ∧
      Sigillo.appendBatch c u key w.store seen
          ((events.zip replies).map fun e => (e.1.1, e.1.2.1, e.2))
        = ((w.appendBatch c u key options seen events).1.store, (w.appendBatch c u key options seen events).2) := by
  obtain ⟨replies, hlength, hreplies⟩ :=
    writeBatch_eq_writeBatch (c := c) (u := u) w (events.map fun e => (e.1, e.2.2))
  rw [List.length_map] at hlength
  refine ⟨replies, hlength, ?_⟩
  have hchecked : ∀ f : ChainEvent × Randomness → Option StoreError,
      ((events.zip replies).map fun e => (e.1.1, e.1.2.1, e.2)).findSome? (fun e => f (e.1, e.2.1))
        = events.findSome? fun e => f (e.1, e.2.1) := by
    intro f
    clear hreplies
    induction events generalizing replies with
    | nil => rfl
    | cons e rest ih =>
        cases replies with
        | nil => cases hlength
        | cons reply replies =>
            rw [List.zip_cons_cons, List.map_cons, List.findSome?_cons, List.findSome?_cons,
              ih replies (Nat.succ.inj hlength)]
  have hwritten : (((events.zip replies).map fun e => (e.1.1, e.1.2.1, e.2)).map fun e => (e.1, e.2.2))
      = ((events.map fun e => (e.1, e.2.2)).map Prod.fst).zip replies := by
    clear hreplies hchecked
    induction events generalizing replies with
    | nil => rfl
    | cons e rest ih =>
        cases replies with
        | nil => cases hlength
        | cons reply replies =>
            simp only [List.zip_cons_cons, List.map_cons]
            rw [ih replies (Nat.succ.inj hlength)]
  rw [Sigillo.appendBatch, appendBatch, hchecked fun e => if e.1.action.kind = .genesis then refusedEvent e.1 else none,
    hchecked fun e => refusedEvent e.1, hchecked fun e => refusedBefore c u key seen e.1 e.2, hwritten, hreplies]
  cases ((events.findSome? fun e => if e.1.action.kind = .genesis then refusedEvent e.1 else none).orElse
      fun _ => (events.findSome? fun e => refusedEvent e.1).orElse
        fun _ => events.findSome? fun e => refusedBefore c u key seen e.1 e.2.1) with
  | some e => rfl
  | none => rfl

-- ── The other methods that ask the signer ────────────────────────────────────────

variable (c u key options)

/-- **`createSystem`**, with the signer it asks. -/
def createSystem (w : TwoParties) (systemId : SystemId) (ts : Timestamp) (organizationId : Option JsString)
    (plan : WritePlan) : TwoParties × Except StoreError Receipt :=
  if ¬ w.store.db.hasOwner organizationId then
    (w, .error (.storage (js "unknown organization " ++ organizationId.getD [])))
  else
    match w.store.db.deletionOf systemId with
    | some deletedOn => (w, .error (.storage (systemId.1 ++ js " belonged to a system deleted "
        ++ js "on " ++ deletedOn.1 ++ js ", and is not reused: choose " ++ js "another identifier")))
    | none => w.write c u key options (genesisEvent systemId ts) (.genesis organizationId) .ok plan

/-- **`recordConnection`**, with the signer it asks. -/
def recordConnection (w : TwoParties) (seen : List SubjectRow) (row : ConnectionRow)
    (event : Option (ChainEvent × Randomness × WritePlan)) : TwoParties × Except StoreError (Option Receipt) :=
  match event with
  | none => (w.committed { w.store with db := saveConnection row w.store.db } w.signer, .ok none)
  | some (event, checked, plan) =>
      if ¬ CONNECTION_PREFIX <+: event.action.name then
        (w, .error (.storage (js "a connection receipt is named " ++ CONNECTION_PREFIX ++ js "*, not "
          ++ event.action.name)))
      else
        match refusedBefore c u key seen event checked with
        | some e => (w, .error e)
        | none =>
            match w.write c u key options event .continuation (fun db => .ok (saveConnection row db)) plan with
            | (w, .error e) => (w, .error e)
            | (w, .ok receipt) => (w, .ok (some receipt))

/-- **`reconcileWithSigner`**: every chain named, until the signer does not answer. -/
def reconcileWithSigner (w : TwoParties) : List (SystemId × Viewing) →
    TwoParties × Except StoreError (List ReconcileOutcome)
  | [] => (w, .ok [])
  | (systemId, x) :: rest =>
      match w.compare c key options systemId x with
      | (w, .error e) => (w, .error e)
      | (w, .ok outcome) =>
          match w.reconcileWithSigner rest with
          | (w, .error e) => (w, .error e)
          | (w, .ok outcomes) => (w, .ok (outcome :: outcomes))

/-- What the signer answers where a checkpoint is asked for. -/
def checkpointReply (p : SignerSide) (systemId : SystemId) (now : Timestamp) (comes : Bool) :
    Except StoreError Checkpoint :=
  match p.process, comes with
  | some systems, true =>
      match checkpoint c options systems now systemId with
      | .error refusal => .error (refusalOf refusal)
      | .ok none => .error .signerUnavailable
      | .ok (some checkpoint) => .ok checkpoint
  | _, _ => .error .signerUnavailable

/-- **`createCheckpoint`**, with the signer it asks; what happens there in between is `between`. -/
def createCheckpoint (w : TwoParties) (systemId : SystemId) (x : Viewing) (between : List SignerEvent)
    (now : Timestamp) (comes : Bool) : TwoParties × Except StoreError (Option CheckpointRow) :=
  let viewed := w.signer.viewed c options systemId x
  let signer := viewed.1.run c options between
  let out := Sigillo.createCheckpoint c key w.store systemId viewed.2
    (checkpointReply c options signer systemId now comes)
  (w.committed out.1 signer, out.2)

-- ── Runs ─────────────────────────────────────────────────────────────────────────

/-- What one of the two does. -/
inductive Act where
  | signer (event : SignerEvent)
  | createSystem (systemId : SystemId) (ts : Timestamp) (organizationId : Option JsString) (plan : WritePlan)
  | append (seen : List SubjectRow) (event : ChainEvent) (checked : Randomness) (plan : WritePlan)
  | appendBatch (seen : List SubjectRow) (events : List (ChainEvent × Randomness × WritePlan))
  | recordConnection (seen : List SubjectRow) (row : ConnectionRow)
      (event : Option (ChainEvent × Randomness × WritePlan))
  | reconcileWithSigner (systems : List (SystemId × Viewing))
  | createCheckpoint (systemId : SystemId) (x : Viewing) (between : List SignerEvent) (now : Timestamp)
      (comes : Bool)
  /-- What the server does without the signer; it may be to start again. -/
  | other (op : Operation)
  /-- The database is put back to a copy of an earlier one. -/
  | restore (index : ℕ)

def act (w : TwoParties) : Act → TwoParties
  | .signer event => { w with signer := w.signer.after c options event }
  | .createSystem systemId ts organizationId plan =>
      (w.createSystem c u key options systemId ts organizationId plan).1
  | .append seen event checked plan => (w.append c u key options seen event checked plan).1
  | .appendBatch seen events => (w.appendBatch c u key options seen events).1
  | .recordConnection seen row event => (w.recordConnection c u key options seen row event).1
  | .reconcileWithSigner systems => (w.reconcileWithSigner c key options systems).1
  | .createCheckpoint systemId x between now comes =>
      (w.createCheckpoint c key options systemId x between now comes).1
  | .other op => if op.asksSigner then w else w.committed (perform c u key w.store op) w.signer
  | .restore index =>
      match w.copies[index]? with
      | none => w
      | some copy => w.committed { copy with divergences := [] } w.signer

/-- The receipts an act is answered with. -/
def answers (w : TwoParties) : Act → List Receipt
  | .createSystem systemId ts organizationId plan =>
      (w.createSystem c u key options systemId ts organizationId plan).2.toOption.toList
  | .append seen event checked plan => (w.append c u key options seen event checked plan).2.toOption.toList
  | .appendBatch seen events => (w.appendBatch c u key options seen events).2.toOption.getD []
  | .recordConnection seen row event =>
      ((w.recordConnection c u key options seen row event).2.toOption.bind id).toList
  | _ => []

/-- The systems a signature may be asked for in an act. -/
def Act.names : Act → List SystemId
  | .createSystem systemId _ _ _ => [systemId]
  | .append _ event _ _ => [event.systemId]
  | .appendBatch _ events => events.map fun e => e.1.systemId
  | .recordConnection _ _ (some (event, _, _)) => [event.systemId]
  | _ => []

/-- **A run**: what the two do, in its order. -/
def run (w : TwoParties) (acts : List Act) : TwoParties := acts.foldl (TwoParties.act c u key options) w

/-- The systems a signature may be asked for in a run, where they have a name in UTF-8. -/
def named (acts : List Act) : Set SystemId := {s | (∃ a ∈ acts, s ∈ a.names) ∧ isWellFormed s.1 = true}

end TwoParties

end Sigillo
