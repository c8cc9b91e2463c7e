import Sigillo.JsonNumberProofs
import Sigillo.JsonParse
import Sigillo.Verifier

/-!
# The server's half of the signer protocol

`SignerClient`: requests and replies over one connection at a time, matched by the id each request
carries; a connection that is lost is opened again by the next request, which waits until the
signer has shown the key it first announced. What is awaited is a state here: an `Opening` says how
far `open()` has come, `waiting` and `resumed` which calls of `request` stand at their `await`.

What reaches the program from outside, and the continuations that run between, are `Event`s. A
continuation runs before anything more arrives; a caller's own code may run between any two.
`log` is kept for the statements only: what the client wrote, what it read, and what became of each
request, latest first. -/

namespace Sigillo

open DoubleArith Utf16Text JsonText JsonParse HexBase64

namespace SignerClient

/-- The members of an object. -/
abbrev Fields := List (JsString × Json)

/-- Connections, numbered as they are attempted. -/
abbrev Connection := ℕ

/-- How a request fails. -/
inductive SignerError where
  | unavailable (message : JsString)
  /-- `refusalFrom(code, error)`. -/
  | refused (code error : Option Json)
  /-- The signer speaks another version. -/
  | version (error : Option Json)

/-- Who waits for a reply: the handshake of `open()`, or a call of `request`, by its number. -/
inductive Waiter where
  | handshake
  | request (number : ℕ)
deriving DecidableEq

/-- Who the signer says it is. -/
structure Identity where
  keyId : JsString
  publicKeyBase64 : JsString
deriving DecidableEq

/-- What happened, as the log has it. -/
inductive Entry where
  | wrote (on : Connection) (waiter : Waiter) (id : JsString) (message : Fields)
  | received (on : Connection) (id : JsString) (fields : Fields)
  /-- The handshake of a connection has been accepted. -/
  | announced (on : Connection) (identity : Identity)
  | fulfilled (number : ℕ) (reply : Fields)
  | failed (number : ℕ) (error : SignerError)

/-- How far `open()` has come. -/
inductive Opening where
  | idle
  /-- `createConnection` has been called. -/
  | connecting (attempt : Connection)
  /-- It has connected, or has not; `open()` is about to go on. -/
  | connected (attempt : Connection)
  | unreachable (message : JsString)
  /-- PUBKEY has been written. -/
  | shaking (on : Connection)
  /-- The handshake is over; `open()` is about to go on. -/
  | answered (on : Connection) (reply : Except SignerError Fields)
  /-- `open()` is over; whoever awaits it is about to go on. -/
  | opened (result : Except SignerError Unit)

/-- A call of `request` at its `await this.reconnecting`. -/
structure Awaiting where
  number : ℕ
  message : Fields

end SignerClient

/-- The state of the client. -/
structure SignerClient where
  socketPath : JsString
  pending : List (JsString × SignerClient.Waiter)
  lastId : ℕ
  buffer : Bytes
  socket : Option SignerClient.Connection
  closed : Bool
  identity : Option SignerClient.Identity
  opening : SignerClient.Opening
  waiting : List SignerClient.Awaiting
  /-- Calls whose `await` is over, oldest first. -/
  resumed : List (SignerClient.Awaiting × Except SignerClient.SignerError Unit)
  /-- `connect()` has returned the client. -/
  ready : Bool
  connections : ℕ
  calls : ℕ
  log : List SignerClient.Entry

namespace SignerClient

-- ── Settling ─────────────────────────────────────────────────────────────────────

/-- What is answered when the connection is closed. -/
def CLOSED : SignerError := .unavailable (js "the signer connection is closed")

/-- A waiter is given its reply. -/
def resolve (s : SignerClient) (waiter : Waiter) (fields : Fields) : SignerClient :=
  match waiter with
  | .request number => { s with log := .fulfilled number fields :: s.log }
  | .handshake =>
      match s.opening with
      | .shaking on => { s with opening := .answered on (.ok fields) }
      | _ => s

/-- A waiter is given an error. -/
def reject (s : SignerClient) (waiter : Waiter) (error : SignerError) : SignerClient :=
  match waiter with
  | .request number => { s with log := .failed number error :: s.log }
  | .handshake =>
      match s.opening with
      | .shaking on => { s with opening := .answered on (.error error) }
      | _ => s

/-- Each of `pending` is rejected in turn. -/
def rejectAll (error : SignerError) : List (JsString × Waiter) → SignerClient → SignerClient
  | [], s => { s with pending := [] }
  | entry :: rest, s => rejectAll error rest (({ s with pending := rest } : SignerClient).reject entry.2 error)

/-- A connection is lost: all who wait on it are told. -/
def lose (s : SignerClient) (socket : Connection) (error : SignerError) : SignerClient :=
  if s.socket ≠ some socket then s
  else rejectAll error s.pending { s with socket := none }

/-- What `close()` and `drop()` do with the connection there is. -/
def loseCurrent (s : SignerClient) (error : SignerError) : SignerClient :=
  match s.socket with
  | some socket => s.lose socket error
  | none => s

/-- `drop`. -/
def drop (s : SignerClient) (error : SignerError) : SignerClient :=
  ({ s with closed := true } : SignerClient).loseCurrent error

/-- `close`. -/
def close (s : SignerClient) : SignerClient :=
  ({ s with closed := true } : SignerClient).loseCurrent
    (.unavailable (js "the signer connection was closed"))

-- ── Writing ──────────────────────────────────────────────────────────────────────

/-- The version of the protocol. -/
def PROTOCOL_VERSION : ℕ := 2

/-- The line a request is written as. -/
def lineOf (id : JsString) (message : Fields) : JsString :=
  stringify (.obj ((js "v", .num (.ofNat PROTOCOL_VERSION)) :: (js "id", .str id) :: message)) ++ [0x0A]

/-- The line goes out, and its id is waited for. -/
def write (s : SignerClient) (on : Connection) (waiter : Waiter) (message : Fields) : SignerClient :=
  let id := decimal (s.lastId + 1)
  { s with
    lastId := s.lastId + 1
    pending := s.pending ++ [(id, waiter)]
    log := .wrote on waiter id message :: s.log }

/-- A request is written, or refused where there is no connection. -/
def send (s : SignerClient) (waiter : Waiter) (message : Fields) : SignerClient :=
  match s.socket with
  | none => s.reject waiter CLOSED
  | some on => if s.closed then s.reject waiter CLOSED else s.write on waiter message

-- ── Reading ──────────────────────────────────────────────────────────────────────

/-- The error of a reply that is not ok. -/
def refusal (code error : Option Json) : SignerError :=
  match code with
  | some (.str name) => if name = js "version" then .version error else .refused code error
  | _ => .refused code error

/-- One line of the current connection. -/
def settle (s : SignerClient) (on : Connection) (line : Bytes) : SignerClient :=
  match jsonParse (utf8Decode line) with
  | none => s.drop (.unavailable (js "the signer returned " ++ js "something that is not JSON"))
  | some (.obj fields) =>
      match fields.lookup (js "id") with
      | some (.str id) =>
          let s := { s with log := .received on id fields :: s.log }
          match s.pending.lookup id with
          | none => s
          | some waiter =>
              let s := { s with pending := s.pending.eraseP fun entry => entry.1 == id }
              match fields.lookup (js "ok") with
              | some (.bool true) => s.resolve waiter fields
              | _ => s.reject waiter (refusal (fields.lookup (js "code")) (fields.lookup (js "error")))
      | _ =>
          s.drop (.unavailable (js "the signer's reply carries no " ++ js "request id, so it cannot be "
            ++ js "matched to a request: the " ++ js "signer is older than this " ++ js "server, or it is not a "
            ++ js "sigillo signer"))
  | some _ => s.drop (.unavailable (js "the signer returned " ++ js "something that is not an " ++ js "object"))

/-- The lines of `bytes`, of which `line` has been read, until the connection is lost. -/
def receiveLines (s : SignerClient) (line : Bytes) : Bytes → SignerClient
  | [] => { s with buffer := line }
  | byte :: rest =>
      match s.socket with
      | none => { s with buffer := line ++ byte :: rest }
      | some on =>
          if byte = 0x0A then (s.settle on line).receiveLines [] rest
          else s.receiveLines (line ++ [byte]) rest

/-- Bytes arrive. -/
def receive (s : SignerClient) (chunk : Bytes) : SignerClient := s.receiveLines [] (s.buffer ++ chunk)

-- ── Opening ──────────────────────────────────────────────────────────────────────

variable (c : Crypto)

/-- What a reply to PUBKEY announces. -/
def identityOf (reply : Fields) : Except SignerError Identity :=
  match reply.lookup (js "key_id") with
  | some (.str keyId) =>
      if ¬ IsHex 16 keyId then
        .error (.unavailable (js "the signer returned a " ++ js "malformed key_id"))
      else
        match reply.lookup (js "public_key_base64") with
        | some (.str publicKeyBase64) =>
            let raw := bufferFromBase64 publicKeyBase64
            if raw.length ≠ 32 then
              .error (.unavailable (js "the signer's public key is " ++ js "not 32 bytes"))
            else if keyIdFromRawPublicKey c raw ≠ keyId then
              .error (.unavailable (js "the signer's key_id does not " ++ js "match its public key"))
            else .ok ⟨keyId, publicKeyBase64⟩
        | _ => .error (.unavailable (js "the signer returned no public " ++ js "key"))
  | _ => .error (.unavailable (js "the signer returned a " ++ js "malformed key_id"))

/-- `open()` up to its first `await`. -/
def startOpen (s : SignerClient) : SignerClient :=
  { s with opening := .connecting s.connections, connections := s.connections + 1 }

/-- The request of the handshake. -/
def PUBKEY : Fields := [(js "method", .str (js "PUBKEY"))]

/-- `open()` once it is connected: up to the reply to PUBKEY. -/
def established (s : SignerClient) (attempt : Connection) : SignerClient :=
  if s.closed then
    { s with opening := .opened (.error (.unavailable (js "the signer connection was closed"))) }
  else
    ({ s with buffer := [], socket := some attempt, opening := .shaking attempt } : SignerClient).send
      .handshake PUBKEY

/-- An opening failed: all who wait for it are told. -/
def refuseOpening (s : SignerClient) (on : Connection) (error : SignerError) : SignerClient :=
  { s.lose on error with opening := .opened (.error error) }

/-- `open()` once the handshake is over. -/
def shaken (s : SignerClient) (on : Connection) (reply : Except SignerError Fields) : SignerClient :=
  match reply.bind (identityOf c) with
  | .error error => s.refuseOpening on error
  | .ok identity =>
      if s.identity.any fun first => identity.keyId != first.keyId then
        s.refuseOpening on (.unavailable (js "the signer now holds a " ++ js "different key (" ++ identity.keyId
          ++ js ", not " ++ (s.identity.elim [] Identity.keyId) ++ js "): "
          ++ js "restart the server if the key " ++ js "was meant to change"))
      else
        { s with
          identity := some identity
          opening := .opened (.ok ())
          log := .announced on identity :: s.log }

/-- What follows the end of `open()`: `connect()` returns, or the calls that awaited it go on. -/
def afterOpen (s : SignerClient) (result : Except SignerError Unit) : SignerClient :=
  if s.ready then
    { s with
      opening := .idle
      waiting := []
      resumed := s.resumed ++ s.waiting.map fun call => (call, result) }
  else
    match result with
    | .ok () => { s with opening := .idle, ready := true }
    | .error _ => ({ s with opening := .idle } : SignerClient).close

-- ── Requests ─────────────────────────────────────────────────────────────────────

/-- A call of `request`, up to its `await`. -/
def request (s : SignerClient) (message : Fields) : SignerClient :=
  let number := s.calls
  let s := { s with calls := s.calls + 1 }
  if s.closed then s.reject (.request number) CLOSED
  else
    match s.opening, s.socket with
    | .idle, some _ => s.send (.request number) message
    | .idle, none => { s.startOpen with waiting := s.waiting ++ [⟨number, message⟩] }
    | _, _ => { s with waiting := s.waiting ++ [⟨number, message⟩] }

/-- A call of `request` after its `await`. -/
def resume (s : SignerClient) (call : Awaiting) (result : Except SignerError Unit) : SignerClient :=
  match result with
  | .ok () => s.send (.request call.number) call.message
  | .error error => s.reject (.request call.number) error

/-- The deadline of a request that is still pending. -/
def timeOut (s : SignerClient) (id : JsString) : SignerClient :=
  match s.pending.lookup id with
  | none => s
  | some waiter =>
      ({ s with pending := s.pending.eraseP fun entry => entry.1 == id } : SignerClient).reject waiter
        (.unavailable (js "the signer did not answer in " ++ js "time"))

-- ── Runs ─────────────────────────────────────────────────────────────────────────

/-- What may happen next. -/
inductive Event where
  /-- A caller, between any two continuations. -/
  | request (message : Fields)
  | close
  /-- The oldest continuation there is. -/
  | continuation
  /-- From outside. -/
  | connects
  | cannotConnect (message : JsString)
  | data (on : Connection) (chunk : Bytes)
  | ends (on : Connection) (message : JsString)
  | deadline (id : JsString)

/-- No continuation is left to run. -/
def quiet (s : SignerClient) : Bool :=
  match s.resumed, s.opening with
  | [], .idle => true
  | [], .connecting _ => true
  | [], .shaking _ => true
  | _, _ => false

/-- The next that waits for its turn goes on. -/
def continuation (s : SignerClient) : SignerClient :=
  match s.resumed with
  | (call, result) :: rest => ({ s with resumed := rest } : SignerClient).resume call result
  | [] =>
      match s.opening with
      | .connected attempt => s.established attempt
      | .unreachable message =>
          let text := js "cannot reach the signer at " ++ s.socketPath ++ js ": " ++ message
          { s with opening := .opened (.error (.unavailable text)) }
      | .answered on reply => s.shaken c on reply
      | .opened result => s.afterOpen result
      | _ => s

/-- What comes of an event, which changes nothing where it cannot happen. -/
def after (s : SignerClient) : Event → SignerClient
  | .request message => if s.ready then s.request message else s
  | .close => if s.ready then s.close else s
  | .continuation => s.continuation c
  | .connects =>
      match s.quiet, s.opening with
      | true, .connecting attempt => { s with opening := .connected attempt }
      | _, _ => s
  | .cannotConnect message =>
      match s.quiet, s.opening with
      | true, .connecting _ => { s with opening := .unreachable message }
      | _, _ => s
  | .data on chunk => if s.quiet ∧ s.socket = some on then s.receive chunk else s
  | .ends on message => if s.quiet then s.lose on (.unavailable message) else s
  | .deadline id => if s.quiet then s.timeOut id else s

/-- `connect()` up to its first `await`. -/
def start (socketPath : JsString) : SignerClient where
  socketPath
  pending := []
  lastId := 0
  buffer := []
  socket := none
  closed := false
  identity := none
  opening := .connecting 0
  waiting := []
  resumed := []
  ready := false
  connections := 1
  calls := 0
  log := []

/-- A run of a new client. -/
def run (socketPath : JsString) (events : List Event) : SignerClient :=
  events.foldl (after c) (start socketPath)

end SignerClient

end Sigillo
