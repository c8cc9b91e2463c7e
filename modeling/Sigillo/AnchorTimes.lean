import Sigillo.DateText
import Sigillo.LastLargest

/-!
# When receipts are proven to have existed

What an authority's timestamps prove of the receipts under the checkpoints they are on: the times
that are attested, the ranges of receipts each of them is the earliest for, and the three rules the
export is held to (`anchorTimes`). -/

namespace Sigillo

open Utf16Text JsonText IsoTime EcmaText LastLargest

-- ── What is given, and what comes of it ──────────────────────────────────────────

/-- A checkpoint, with the times its tokens attest. -/
structure AnchoredCheckpoint where
  /-- Its line in `checkpoints.jsonl`. -/
  line : ℕ
  treeSize : ℕ
  /-- The server's own time for it. -/
  ts : Timestamp
  /-- What its tokens attest. -/
  genTimes : List JsString

/-- A receipt of the export, as far as its time goes. -/
structure ReceivedReceipt where
  seq : ℕ
  tsReceived : Timestamp

/-- What the times are computed of. -/
structure AnchorTimeOptions where
  receipts : List ReceivedReceipt
  checkpoints : List AnchoredCheckpoint
  clockToleranceMs : ℤ
  maxAnchorDelayMs : ℤ

/-- A checkpoint with the earliest time that is attested of it. -/
structure ProvenCheckpoint where
  line : ℕ
  treeSize : ℕ
  ts : Timestamp
  provenAt : ℤ

/-- `provenAt` and `delayMs` are there where a time is attested. -/
structure CheckpointProof where
  line : ℕ
  treeSize : ℕ
  ts : Timestamp
  provenAt : Option JsString
  delayMs : Option ℤ
  late : Bool

/-- What a problem is of. -/
inductive AnchorCheck where
  | time | order | delay
deriving DecidableEq

/-- The word for it. -/
def AnchorCheck.name : AnchorCheck → JsString
  | .time => js "anchor-time"
  | .order => js "anchor-order"
  | .delay => js "anchor-delay"

/-- A problem, and where it is. -/
structure AnchorTimeProblem where
  check : AnchorCheck
  location : JsString
  detail : JsString
deriving DecidableEq

/-- Receipts from one position to another that one time proves. -/
structure AnchorRange where
  fromSeq : ℤ
  toSeq : ℤ
  existedBy : JsString

/-- A stretch between two times that is too long. -/
structure AnchorGap where
  ms : ℤ
  fromTime : JsString
  toTime : JsString

/-- The receipts no time is proven of. -/
structure Unproven where
  count : ℤ
  fromSeq : ℤ
  toSeq : ℤ

/-- What comes out. -/
structure AnchorTimes where
  checkpoints : List CheckpointProof
  ranges : List AnchorRange
  errors : List AnchorTimeProblem
  warnings : List AnchorTimeProblem
  late : ℕ
  longestGap : Option AnchorGap
  unproven : Option Unproven

-- ── Durations ────────────────────────────────────────────────────────────────────

/-- A minute. -/
def MINUTE : ℤ := 60000

/-- An hour. -/
def HOUR : ℤ := 60 * MINUTE

/-- A day. -/
def DAY : ℤ := 24 * HOUR

/-- "185 days 17 h", "3 h 20 min", "4 min", "12 s". -/
def formatDuration (ms : ℤ) : JsString :=
  let days := ms.fdiv DAY
  let hours := (ms.tmod DAY).fdiv HOUR
  let minutes := (ms.tmod HOUR).fdiv MINUTE
  if 0 < days then intText days ++ js " day" ++ (if days = 1 then [] else js "s")
    ++ (if 0 < hours then js " " ++ intText hours ++ js " h" else [])
  else if 0 < hours then intText hours ++ js " h"
    ++ (if 0 < minutes then js " " ++ intText minutes ++ js " min" else [])
  else if 0 < minutes then intText minutes ++ js " min"
  else intText (ms.fdiv 1000) ++ js " s"

-- ── The checkpoints by size ──────────────────────────────────────────────────────

/-- `Date.parse` of any text: what a text that is no ISO time reads as is the engine's, but it is never
    past the range of a date. -/
structure DateReader where
  parse : JsString → Option ℤ
  inRange : ∀ {text : JsString} {time : ℤ}, parse text = some time → |time| ≤ maxTime

variable (readDate : DateReader)

/-- The earliest time a checkpoint's tokens attest. -/
def AnchoredCheckpoint.attested (entry : AnchoredCheckpoint) : Option ℤ :=
  (entry.genTimes.filterMap readDate.parse).min?

/-- A checkpoint with the time it is proven at, where there is one. -/
def AnchoredCheckpoint.proven (entry : AnchoredCheckpoint) : Option ProvenCheckpoint :=
  (entry.attested readDate).map fun time => ⟨entry.line, entry.treeSize, entry.ts, time⟩

/-- How long after the checkpoint that is. -/
def ProvenCheckpoint.delayMs (entry : ProvenCheckpoint) : ℤ := entry.provenAt - dateParse entry.ts

/-- `[...checkpoints].sort((a, b) => a.tree_size - b.tree_size)`. -/
def sortedBySize (checkpoints : List AnchoredCheckpoint) : List AnchoredCheckpoint :=
  checkpoints.mergeSort fun a b => decide (a.treeSize ≤ b.treeSize)

/-- The checkpoints something is attested of, by size. -/
def provenCheckpoints (checkpoints : List AnchoredCheckpoint) : List ProvenCheckpoint :=
  (sortedBySize checkpoints).filterMap fun entry => entry.proven readDate

/-- What is said of a checkpoint. -/
def checkpointProof (maxAnchorDelayMs : ℤ) (entry : AnchoredCheckpoint) : CheckpointProof :=
  match entry.proven readDate with
  | none => ⟨entry.line, entry.treeSize, entry.ts, none, none, false⟩
  | some proven => ⟨entry.line, entry.treeSize, entry.ts, some (isoText proven.provenAt), some proven.delayMs,
      decide (maxAnchorDelayMs < proven.delayMs)⟩

-- ── The three rules ──────────────────────────────────────────────────────────────

/-- A checkpoint's line. -/
def atCheckpointLine (entry : ProvenCheckpoint) : JsString :=
  js "checkpoints.jsonl:" ++ intText entry.line

/-- `Math.round` of a quotient of whole numbers. -/
def roundedQuotient (a b : ℤ) : ℤ := (2 * a + b).fdiv (2 * b)

/-- A checkpoint that is dated long after its own time. -/
def delayWarning (maxAnchorDelayMs : ℤ) (entry : ProvenCheckpoint) : AnchorTimeProblem where
  check := .delay
  location := atCheckpointLine entry
  detail := js "the checkpoint over " ++ intText entry.treeSize ++ js " receipts declares " ++ entry.ts.1
    ++ js ", but the authority dates it " ++ isoText entry.provenAt ++ js ", " ++ formatDuration entry.delayMs
    ++ js " later (more than " ++ intText (roundedQuotient maxAnchorDelayMs MINUTE) ++ js " min): until then only "
    ++ js "the server's clock vouched for " ++ js "it"

/-- The warnings of long delays. -/
def delayWarnings (maxAnchorDelayMs : ℤ) (proven : List ProvenCheckpoint) : List AnchorTimeProblem :=
  (proven.filter fun entry => decide (maxAnchorDelayMs < entry.delayMs)).map (delayWarning maxAnchorDelayMs)

/-- A checkpoint dated before the latest of those that come before it. -/
def orderError (entry latest : ProvenCheckpoint) : AnchorTimeProblem where
  check := .order
  location := atCheckpointLine entry
  detail := js "the checkpoint over " ++ (intText entry.treeSize ++ (js " receipts was timestamped at "
    ++ (isoText entry.provenAt ++ (js ", before the checkpoint over " ++ (intText latest.treeSize
      ++ (js " receipts (" ++ (isoText latest.provenAt ++ (js "): a larger tree cannot be "
        ++ js "older than a smaller one"))))))))

/-- By tree size, the attested times only go forward. -/
def orderErrors : Option ProvenCheckpoint → List ProvenCheckpoint → List AnchorTimeProblem
  | _, [] => []
  | none, entry :: larger => orderErrors (some entry) larger
  | some latest, entry :: larger =>
      if entry.provenAt < latest.provenAt then orderError entry latest :: orderErrors (some latest) larger
      else orderErrors (some entry) larger

/-- Receipts with the checkpoint whose time is the earliest that proves them. -/
structure CoveredRange where
  fromSeq : ℤ
  toSeq : ℤ
  earliest : ProvenCheckpoint

/-- The earlier of a checkpoint and the earliest so far. -/
def earlier (entry : ProvenCheckpoint) : Option ProvenCheckpoint → ProvenCheckpoint
  | none => entry
  | some earliest => if entry.provenAt < earliest.provenAt then entry else earliest

/-- Down from the largest tree, the earliest time so far and the ranges it was found for. `below` is
    the size of the tree before these. -/
def walkDown (firstSeq lastSeq : ℤ) : ℕ → List ProvenCheckpoint → Option ProvenCheckpoint × List CoveredRange
  | _, [] => (none, [])
  | below, entry :: larger =>
      let walked := walkDown firstSeq lastSeq entry.treeSize larger
      let earliest := earlier entry walked.1
      let fromSeq := max firstSeq below
      let toSeq := min lastSeq (entry.treeSize - 1)
      (some earliest, if toSeq < fromSeq then walked.2 else ⟨fromSeq, toSeq, earliest⟩ :: walked.2)

/-- A receipt that was received after a time it is covered at. -/
def timeError (index : ℕ) (receipt : ReceivedReceipt) (earliest : ProvenCheckpoint) : AnchorTimeProblem where
  check := .time
  location := js "receipts.jsonl:" ++ intText (index + 1)
  detail := js "receipt seq " ++ intText receipt.seq ++ js " was received at " ++ receipt.tsReceived.1
    ++ js ", but the checkpoint over " ++ intText earliest.treeSize ++ js " receipts that holds it was "
    ++ js "timestamped at " ++ isoText earliest.provenAt ++ js ": a receipt cannot be received "
    ++ js "after a timestamp that already " ++ js "includes it"

/-- A receipt of a range that says it was received after its time. -/
def offends (clockToleranceMs : ℤ) (range : CoveredRange) (receipt : ReceivedReceipt) : Bool :=
  decide (range.fromSeq ≤ receipt.seq) && decide (receipt.seq ≤ range.toSeq)
    && decide (range.earliest.provenAt + clockToleranceMs < dateParse receipt.tsReceived)

/-- The first receipt of a range that offends. -/
def timeErrorOf (clockToleranceMs : ℤ) (receipts : List ReceivedReceipt) (range : CoveredRange) :
    Option AnchorTimeProblem :=
  (receipts.findIdx? (offends clockToleranceMs range)).bind fun index =>
    receipts[index]?.map fun receipt => timeError index receipt range.earliest

-- ── The rest of the summary ──────────────────────────────────────────────────────

/-- The longest time between two consecutive attested times. -/
def longestGapFrom : Option AnchorGap → List ProvenCheckpoint → Option AnchorGap
  | gap, a :: b :: rest =>
      let ms := b.provenAt - a.provenAt
      let longer := match gap with
        | none => true
        | some g => decide (g.ms < ms)
      longestGapFrom (if longer then some ⟨ms, isoText a.provenAt, isoText b.provenAt⟩ else gap) (b :: rest)
  | gap, _ => gap

/-- The first position. -/
def firstSeqOf (receipts : List ReceivedReceipt) : ℤ :=
  match receipts.head? with
  | none => 0
  | some receipt => receipt.seq

/-- The last position. -/
def lastSeqOf (receipts : List ReceivedReceipt) : ℤ :=
  match receipts.getLast? with
  | none => -1
  | some receipt => receipt.seq

/-- The last position that a time proves. -/
def coveredThrough (firstSeq : ℤ) (ranges : List CoveredRange) : ℤ :=
  match ranges.getLast? with
  | none => firstSeq - 1
  | some range => range.toSeq

/-- The receipts at the end that no time proves yet. -/
def unprovenAfter (covered lastSeq : ℤ) : Option Unproven :=
  if lastSeq ≤ covered then none
  else some ⟨lastSeq - covered, covered + 1, lastSeq⟩

/-- **When each checkpoint, and so each receipt, is proven to have existed.** -/
def anchorTimes (options : AnchorTimeOptions) : AnchorTimes :=
  let firstSeq := firstSeqOf options.receipts
  let lastSeq := lastSeqOf options.receipts
  let proven := provenCheckpoints readDate options.checkpoints
  let ranges := (walkDown firstSeq lastSeq 0 proven).2
  { checkpoints := (sortedBySize options.checkpoints).map (checkpointProof readDate options.maxAnchorDelayMs)
    ranges := ranges.map fun range => ⟨range.fromSeq, range.toSeq, isoText range.earliest.provenAt⟩
    errors := ranges.filterMap (timeErrorOf options.clockToleranceMs options.receipts) ++ orderErrors none proven
    warnings := delayWarnings options.maxAnchorDelayMs proven
    late := (proven.filter fun entry => decide (options.maxAnchorDelayMs < entry.delayMs)).length
    longestGap := longestGapFrom none proven
    unproven := unprovenAfter (coveredThrough firstSeq ranges) lastSeq }

end Sigillo
