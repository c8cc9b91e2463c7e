import Sigillo.Checkpoint
import Sigillo.FileVolume

/-!
# What the signer remembers

One state file for each system, replaced whole (written aside and renamed over the old one), and
beside it a journal of every receipt signed, one to a line, appended to before the state moves.
A crash can leave the journal ahead of the state, with a line cut short at its end; the state file
is always one that was written whole. -/

namespace Sigillo

open DoubleArith Utf16Text JsonText JsonParse JsonSchema HexBase64 FileVolume

/-- **What the signer needs of a chain** to decide what it may sign next. -/
structure ChainState where
  systemId : SystemId
  seq : Count
  /-- `receiptHashHex(head)`. -/
  hash : Hex 64
  head : Receipt
  frontier : MerkleFrontier

/-- A system deleted before the signer kept any state. -/
structure RetiredSystem where
  systemId : SystemId
  genesisHash : Hex 64

inductive SystemState where
  | chain (state : ChainState)
  | retired (state : RetiredSystem)

def SystemState.systemId : SystemState → SystemId
  | .chain state => state.systemId
  | .retired state => state.systemId

variable (c : Crypto)

-- ── File names ───────────────────────────────────────────────────────────────────

/-- The name of the file that holds a system's state. -/
def fileNameOf (systemId : SystemId) : JsString :=
  (c.sha256Hex (utf8Encode systemId.1)).1 ++ js ".json"

/-- The name of its journal. -/
def journalNameOf (systemId : SystemId) : JsString :=
  (c.sha256Hex (utf8Encode systemId.1)).1 ++ js ".receipts.jsonl"

/-- The name a state is written under before it is renamed. -/
def temporaryNameOf (systemId : SystemId) : JsString := fileNameOf c systemId ++ js ".tmp"

/-- `^[0-9a-f]{64}\.json$`. -/
def isStateName (name : JsString) : Prop := IsHex 64 (name.take 64) ∧ name.drop 64 = js ".json"

instance : DecidablePred isStateName := fun _ => inferInstanceAs (Decidable (_ ∧ _))

/-- `name.endsWith(".tmp")`. -/
def isTemporary (name : JsString) : Prop := js ".tmp" <:+ name

instance : DecidablePred isTemporary := fun name =>
  inferInstanceAs (Decidable (js ".tmp" <:+ name))

-- ── State files ──────────────────────────────────────────────────────────────────

def STATE_FORMAT : ℕ := 1

def formatSchema : Codec Unit :=
  .natEnum [()] mem_unit (fun _ => STATE_FORMAT) (fun _ => isDouble_natCast (by decide))
    fun _ _ _ => rfl

/-- A frontier `parseFrontier` accepts: a safe size, and a node for each of its set bits. -/
abbrev WholeFrontier := {f : {n : ℕ // IsDouble (n : ℚ) ∧ n ≤ 2 ^ 53 - 1} × List (Hex 64) //
  f.2.length = MerkleTree.setBits f.1.1}

/-- `parseFrontier`: exactly the members `size` and `nodes`. -/
def frontierSchema : Codec WholeFrontier :=
  (Codec.object (.both (.req (js "size") (.nat _)) (.req (js "nodes") (hexString 64).arr)
    (by decide)) (by decide)).refine _

def WholeFrontier.frontier (f : WholeFrontier) : MerkleFrontier :=
  ⟨f.1.1.1, f.1.2.map digestOfHex⟩

/-- `chainFileSchema`, the frontier already read by `parseFrontier`. -/
def chainFileSchema : Codec (SystemId × Count × Hex 64 × Receipt × WholeFrontier) :=
  (Codec.object (.both (.req (js "format") formatSchema)
    (.both (.req (js "system_id") (textSchema _))
    (.both (.req (js "seq") countSchema)
    (.both (.req (js "hash") (hexString 64))
    (.both (.req (js "head") receiptSchema) (.req (js "frontier") frontierSchema)
      (by decide)) (by decide)) (by decide)) (by decide)) (by decide)) (by decide)).iso
    ⟨fun p => p.2, fun p => ((), p), fun _ => rfl, fun _ => rfl⟩

def retiredFileSchema : Codec RetiredSystem :=
  (Codec.object (.both (.req (js "format") formatSchema)
    (.both (.req (js "system_id") (textSchema _))
      (.req (js "retired") (.object (.req (js "genesis_hash") (hexString 64)) (by decide)))
      (by decide)) (by decide)) (by decide)).iso
    ⟨fun p => ⟨p.2.1, p.2.2⟩, fun r => ((), r.systemId, r.genesisHash), fun _ => rfl,
      fun _ => rfl⟩

def serializeFrontier (f : MerkleFrontier) : Json :=
  .obj [(js "size", .num (.ofNat f.size)),
    (js "nodes", .arr (f.nodes.map fun node => .str node.hex.1))]

/-- The object a state is written as. -/
def stateJson : SystemState → Json
  | .chain state => .obj [(js "format", .num (.ofNat STATE_FORMAT)),
      (js "system_id", .str state.systemId.1), (js "seq", .num (.ofNat state.seq.1)),
      (js "hash", .str state.hash.1), (js "head", receiptSchema.encode state.head),
      (js "frontier", serializeFrontier state.frontier)]
  | .retired state => .obj [(js "format", .num (.ofNat STATE_FORMAT)),
      (js "system_id", .str state.systemId.1),
      (js "retired", .obj [(js "genesis_hash", .str state.genesisHash.1)])]

def serialize (state : SystemState) : JsString := stringify (stateJson state)

/-- Why a state file was refused. -/
inductive StateFileError where
  | notJson
  | notAChainState
  | headOfAnotherSystem
  | seqNotItsHeads (seq headSeq : ℕ)
  | hashNotItsHeads
  | frontierSize (size expected : ℕ)
  | nameOfAnotherSystem (name : JsString) (state : SystemState)

/-- Reads one state file, refusing anything that is not a state the signer could have written. -/
def parseStateFile (text : JsString) : Except StateFileError SystemState :=
  match jsonParse text with
  | none => .error .notJson
  | some value =>
      match retiredFileSchema.decode value with
      | some retired => .ok (.retired retired)
      | none =>
          match chainFileSchema.decode value with
          | none => .error .notAChainState
          | some (systemId, seq, hash, head, frontier) =>
              if head.systemId ≠ systemId then .error .headOfAnotherSystem
              else if head.seq ≠ seq then .error (.seqNotItsHeads seq.1 head.seq.1)
              else if receiptHashHex c head.toUnsignedReceipt ≠ hash then .error .hashNotItsHeads
              else if frontier.frontier.size ≠ seq.1 + 1 then
                .error (.frontierSize frontier.frontier.size (seq.1 + 1))
              else .ok (.chain { systemId, seq, hash, head, frontier := frontier.frontier })

-- ── The state directory ──────────────────────────────────────────────────────────

/-- The states in memory, by system. -/
abbrev Systems := SystemId → Option SystemState

def Systems.set (systems : Systems) (state : SystemState) : Systems := fun systemId =>
  if systemId = state.systemId then some state else systems systemId

/-- What `open` does with the files one after another: a temporary file is removed, a state file
    is read, any other file is left alone. -/
def openFrom : List (JsString × Bytes) → Volume → Systems → Volume × Except StateFileError Systems
  | [], volume, systems => (volume, .ok systems)
  | (name, bytes) :: rest, volume, systems =>
      if isTemporary name then openFrom rest (volume.remove name) systems
      else if ¬ isStateName name then openFrom rest volume systems
      else
        match parseStateFile c (utf8Decode bytes) with
        | .error e => (volume, .error e)
        | .ok state =>
            if fileNameOf c state.systemId ≠ name then
              (volume, .error (.nameOfAnotherSystem name state))
            else openFrom rest volume (systems.set state)

/-- `StateDirectory.open`. -/
def openDirectory (volume : Volume) : Volume × Except StateFileError Systems :=
  openFrom c volume.files volume fun _ => none

/-- `record`: appends a signed receipt to its system's journal. A newline goes first when the
    last line was cut short. -/
def record (volume : Volume) (receipt : Receipt) : Op :=
  let bytes := (volume.read (journalNameOf c receipt.systemId)).getD []
  let separator : Bytes := if bytes ≠ [] ∧ bytes.getLast? ≠ some 0x0A then [0x0A] else []
  .append (journalNameOf c receipt.systemId)
    (separator ++ utf8Encode (stringify (receiptSchema.encode receipt)) ++ [0x0A])

/-- `put`, on disk: the state is written aside and renamed over the old one. -/
def put (state : SystemState) : List Op :=
  [.replace (temporaryNameOf c state.systemId) (utf8Encode (serialize state)),
   .rename (temporaryNameOf c state.systemId) (fileNameOf c state.systemId)]

/-- A line of the journal, when it is a receipt. -/
def readLine (line : JsString) : Option Receipt :=
  if line = [] then none else (jsonParse line).bind receiptSchema.decode

/-- The receipts in a journal, in the order they stand there. -/
def journalReceipts (bytes : Bytes) : List Receipt :=
  (splitLines (utf8Decode bytes)).filterMap readLine

/-- The last receipt of a system at each position between two. -/
def bySeq (systemId : SystemId) (fromSeq toSeq : ℕ) (receipts : List Receipt) :
    ℕ → Option Receipt :=
  receipts.foldl (fun found r =>
    if r.systemId = systemId ∧ fromSeq ≤ r.seq.1 ∧ r.seq.1 ≤ toSeq then
      Function.update found r.seq.1 (some r)
    else found) fun _ => none

/-- The receipts at some positions in a row, stopping at the first that is missing. -/
def collect (found : ℕ → Option Receipt) : ℕ → ℕ → List Receipt
  | 0, _ => []
  | count + 1, seq =>
      match found seq with
      | none => []
      | some r => r :: collect found count (seq + 1)

/-- `receipts`: at most `limit` of them from `fromSeq` on, never past the state's head, which
    comes from the state itself. -/
def receiptsOf (volume : Volume) (systems : Systems) (systemId : SystemId) (fromSeq limit : ℕ) :
    List Receipt :=
  match systems systemId with
  | some (.chain known) =>
      if known.seq.1 < fromSeq then []
      else
        let journal := journalReceipts ((volume.read (journalNameOf c systemId)).getD [])
        let found := Function.update (bySeq systemId fromSeq known.seq.1 journal) known.seq.1
          (some known.head)
        collect found (min limit (known.seq.1 + 1 - fromSeq)) fromSeq
  | _ => []

end Sigillo
