import Sigillo.EcmaText
import Sigillo.SignerWorld

/-!
# One connection to the signer

Bytes arrive in chunks, and a line of them is a request. What is handed on is a matter of the bytes
alone.

* **`serve_observed`** — whatever the chunks, what comes of them is what `expected` says of the bytes
  they make;
* **`serve_of_bytes`** — the lines handed are the short ones before the first that is too long, each
  answered once;
* **`serve_run`** — on the signer itself they are a run of it. -/

namespace Sigillo

open DoubleArith Utf16Text JsonText JsonParse JsonSchema HexBase64 IsoTime FileVolume AssocList EcmaText

/-- What ends a line. -/
def NEWLINE : UInt8 := 0x0A

/-- The longest line. -/
def MAX_LINE_BYTES : ℕ := 256 * 1024

-- ── Handing lines on ─────────────────────────────────────────────────────────────

/-- What answers a line, as it stands when the line comes: a reply, or nothing where the source
    throws. What other connections and the clock have made of it in between is in what stands. -/
abbrev LineHandler (σ : Type) := σ → JsString → σ × Option Reply

/-- What has come of the lines of a connection: each that was handed on with its reply, and what was
    written to the socket. -/
structure Answers (σ : Type) where
  signer : σ
  log : List (JsString × Option Reply)
  sent : List Reply
  failed : Bool

variable {σ : Type}

/-- Nothing was handed over yet. -/
def Answers.start (signer : σ) : Answers σ := ⟨signer, [], [], false⟩

/-- A reply is sent. -/
def Answers.send (a : Answers σ) (reply : Reply) : Answers σ := { a with sent := a.sent ++ [reply] }

/-- One line handed on; nothing is answered any more once one has thrown. -/
def Answers.hand (handle : LineHandler σ) (a : Answers σ) (line : JsString) : Answers σ :=
  if a.failed then a
  else
    match handle a.signer line with
    | (signer, none) => { a with signer, log := a.log ++ [(line, none)], failed := true }
    | (signer, some reply) =>
        Answers.send { a with signer, log := a.log ++ [(line, some reply)] } reply

-- ── The socket ───────────────────────────────────────────────────────────────────

/-- **A connection**: the bytes not yet handed on, and whether it was ended. -/
structure Connection (σ : Type) where
  buffer : Bytes
  answers : Answers σ
  ended : Bool

/-- A new connection. -/
def Connection.start (signer : σ) : Connection σ := ⟨[], .start signer, false⟩

/-- What a line holds, as it is handed on. -/
def requestText (line : Bytes) : JsString := trim (utf8Decode line)

/-- Taking a line leaves fewer bytes. -/
theorem drop_lt_length {buffer : Bytes} {index : ℕ} (h : buffer.idxOf? NEWLINE = some index) :
    (buffer.drop (index + 1)).length < buffer.length := by
  obtain ⟨hlt, -⟩ := List.idxOf?_eq_some_iff.mp h
  rw [List.length_drop]
  omega

/-- The loop over the lines of the buffer. -/
def handLines (handle : LineHandler σ) (buffer : Bytes) (a : Answers σ) : Bytes × Answers σ :=
  match h : buffer.idxOf? NEWLINE with
  | none => (buffer, a)
  | some index =>
      if MAX_LINE_BYTES < index then (buffer, a)
      else
        let line := requestText (buffer.take index)
        let rest := buffer.drop (index + 1)
        if line = [] then handLines handle rest a
        else
          let answered := a.hand handle line
          if answered.failed then (rest, answered) else handLines handle rest answered
termination_by buffer.length
decreasing_by all_goals exact drop_lt_length h

/-- The answer to a line that is too long. -/
def lineTooLong : Reply :=
  .refusal .malformed (js "request line too long: " ++ js "the limit is "
    ++ decimal MAX_LINE_BYTES ++ js " bytes") none

/-- **One chunk.** None comes any more where the connection was ended, or dropped as the signer
    failed. -/
def Connection.data (handle : LineHandler σ) (s : Connection σ) (chunk : Bytes) : Connection σ :=
  if s.ended || s.answers.failed then s
  else
    let (buffer, answers) := handLines handle (s.buffer ++ chunk) s.answers
    if answers.failed then ⟨buffer, answers, false⟩
    else if MAX_LINE_BYTES < buffer.length then ⟨[], answers.send lineTooLong, true⟩
    else ⟨buffer, answers, false⟩

/-- **`serve`**, on the chunks a connection brings. -/
def serve (handle : LineHandler σ) (signer : σ) (chunks : List Bytes) : Connection σ :=
  chunks.foldl (Connection.data handle) (.start signer)

-- ── What the bytes ask for ───────────────────────────────────────────────────────

/-- The lines before the first that is too long; the last piece is not a line yet. -/
def shortLines (bytes : Bytes) : List Bytes :=
  (bytes.splitOn NEWLINE).dropLast.takeWhile fun line => decide (line.length ≤ MAX_LINE_BYTES)

/-- Some line is too long, finished or not. -/
def TooLong (bytes : Bytes) : Prop := ∃ line ∈ bytes.splitOn NEWLINE, MAX_LINE_BYTES < line.length

instance (bytes : Bytes) : Decidable (TooLong bytes) := by
  unfold TooLong
  infer_instance

/-- The requests of the bytes: what the lines hold, where they hold anything. -/
def requests (bytes : Bytes) : List JsString :=
  ((shortLines bytes).map requestText).filter fun text => decide (text ≠ [])

/-- **What comes of the bytes**: every request is handed on until one throws; then a line that is too
    long is refused, and the connection ended. -/
def expected (handle : LineHandler σ) (signer : σ) (bytes : Bytes) : Answers σ × Bool :=
  let a := (requests bytes).foldl (Answers.hand handle) (.start signer)
  if ¬ a.failed ∧ TooLong bytes then (a.send lineTooLong, true) else (a, false)

/-- What can be seen of a connection. -/
def Connection.observed (s : Connection σ) : Answers σ × Bool := (s.answers, s.ended)

-- ── Lines ────────────────────────────────────────────────────────────────────────

/-- Bytes are a last piece, or a line and what follows it. -/
theorem lines_induction {P : Bytes → Prop} (last : ∀ rest, NEWLINE ∉ rest → P rest)
    (line : ∀ line rest, NEWLINE ∉ line → P rest → P (line ++ NEWLINE :: rest)) (bytes : Bytes) :
    P bytes := by
  generalize hn : bytes.length = n
  induction n using Nat.strong_induction_on generalizing bytes with
  | _ n ih =>
      by_cases hmem : NEWLINE ∈ bytes
      · obtain ⟨first, rest, rfl, hfirst⟩ := List.eq_append_cons_of_mem hmem
        refine line first rest hfirst (ih rest.length ?_ rest rfl)
        rw [← hn, List.length_append, List.length_cons]
        omega
      · exact last bytes hmem

/-- The first newline is where the line ends. -/
theorem idxOf?_newline {line : Bytes} (h : NEWLINE ∉ line) (rest : Bytes) :
    (line ++ NEWLINE :: rest).idxOf? NEWLINE = some line.length := by
  induction line with
  | nil => exact List.idxOf?_cons.trans (if_pos (beq_self_eq_true _))
  | cons b line ih =>
      obtain ⟨hb, hline⟩ := not_or.mp (fun hor => h (List.mem_cons.mpr hor))
      rw [List.cons_append, List.idxOf?_cons, if_neg (fun heq => hb (eq_of_beq heq).symm), ih hline]
      rfl

section Pieces

variable {line : Bytes} (hline : NEWLINE ∉ line) (rest : Bytes)
include hline

/-- Without a newline there is no line. -/
theorem shortLines_last : shortLines line = [] := by
  rw [shortLines, List.splitOn_eq_singleton hline]
  rfl

/-- The rest of a line is too long by its own length. -/
theorem tooLong_last : TooLong line ↔ MAX_LINE_BYTES < line.length := by
  rw [TooLong, List.splitOn_eq_singleton hline]
  exact ⟨fun ⟨_, hmem, hlong⟩ => List.mem_singleton.mp hmem ▸ hlong,
    fun hlong => ⟨line, List.mem_singleton_self line, hlong⟩⟩

/-- Bytes are too long where the first line is, or the rest are. -/
theorem tooLong_cons : TooLong (line ++ NEWLINE :: rest) ↔ MAX_LINE_BYTES < line.length ∨ TooLong rest := by
  rw [TooLong, List.splitOn_append_cons_self_of_not_mem hline]
  simp only [List.mem_cons, exists_eq_or_imp]
  rfl

/-- The lines before the first that is too long. -/
theorem shortLines_cons : shortLines (line ++ NEWLINE :: rest) =
    if line.length ≤ MAX_LINE_BYTES then line :: shortLines rest else [] := by
  rw [shortLines, List.splitOn_append_cons_self_of_not_mem hline,
    List.dropLast_cons_of_ne_nil (List.splitOn_ne_nil _ _), List.takeWhile_cons]
  split_ifs with hshort hlen hlen
  · rfl
  · exact absurd (of_decide_eq_true hshort) hlen
  · exact absurd (decide_eq_true hlen) hshort
  · rfl

/-- Bytes that begin with a piece that is too long. -/
theorem shortLines_of_long (h : MAX_LINE_BYTES < line.length) :
    shortLines (line ++ rest) = [] ∧ TooLong (line ++ rest) := by
  by_cases hmem : NEWLINE ∈ rest
  · obtain ⟨more, rest, rfl, hmore⟩ := List.eq_append_cons_of_mem hmem
    have hpiece : NEWLINE ∉ line ++ more := fun hor => (List.mem_append.mp hor).elim hline hmore
    have hlong : MAX_LINE_BYTES < (line ++ more).length := by
      rw [List.length_append]
      omega
    rw [← List.append_assoc]
    exact ⟨(shortLines_cons hpiece rest).trans (if_neg (Nat.not_le.mpr hlong)),
      (tooLong_cons hpiece rest).mpr (.inl hlong)⟩
  · have hpiece : NEWLINE ∉ line ++ rest := fun hor => (List.mem_append.mp hor).elim hline hmem
    refine ⟨shortLines_last hpiece, (tooLong_last hpiece).mpr ?_⟩
    rw [List.length_append]
    omega

end Pieces

-- ── One line ─────────────────────────────────────────────────────────────────────

variable (handle : LineHandler σ)

/-- A line taken from the buffer: what it holds is handed on, if it holds anything. -/
def Answers.take (a : Answers σ) (line : Bytes) : Answers σ :=
  if requestText line = [] then a else a.hand handle (requestText line)

/-- The requests of the bytes, asked one after another. -/
def Answers.ask (a : Answers σ) (bytes : Bytes) : Answers σ := (requests bytes).foldl (Answers.hand handle) a

/-- Nothing is handed on after a failure. -/
theorem hand_of_failed {a : Answers σ} (h : a.failed = true) (text : JsString) : a.hand handle text = a :=
  if_pos h

/-- Nor any line of a list. -/
theorem foldl_hand_of_failed {a : Answers σ} (h : a.failed = true) (lines : List JsString) :
    lines.foldl (Answers.hand handle) a = a := by
  induction lines with
  | nil => rfl
  | cons text lines ih => rw [List.foldl_cons, hand_of_failed handle h, ih]

/-- Without a line nothing is asked. -/
theorem ask_of_shortLines_nil {bytes : Bytes} (h : shortLines bytes = []) (a : Answers σ) :
    a.ask handle bytes = a := by
  rw [Answers.ask, requests, h]
  rfl

/-- The first line is asked, then the rest. -/
theorem ask_line {line : Bytes} (hline : NEWLINE ∉ line) (hlen : line.length ≤ MAX_LINE_BYTES) (rest : Bytes)
    (a : Answers σ) : a.ask handle (line ++ NEWLINE :: rest) = (a.take handle line).ask handle rest := by
  rw [Answers.ask, requests, shortLines_cons hline, if_pos hlen, List.map_cons, List.filter_cons, Answers.take]
  by_cases hblank : requestText line = []
  · rw [if_pos hblank, if_neg (by rw [decide_eq_true_eq]; exact fun h => h hblank)]
    rfl
  · rw [if_neg hblank, if_pos (decide_eq_true hblank)]
    rfl

/-- The rest of a line waits. -/
theorem handLines_last {bytes : Bytes} (h : NEWLINE ∉ bytes) (a : Answers σ) :
    handLines handle bytes a = (bytes, a) := by
  have hnone : bytes.idxOf? NEWLINE = none := List.idxOf?_eq_none_iff.mpr h
  rw [handLines]
  split
  · rfl
  · rename_i hsome
    exact nomatch hnone.symm.trans hsome

/-- A line is handed over, then the rest. -/
theorem handLines_cons {line : Bytes} (hline : NEWLINE ∉ line) (rest : Bytes) {a : Answers σ}
    (ha : a.failed = false) : handLines handle (line ++ NEWLINE :: rest) a =
      if MAX_LINE_BYTES < line.length then (line ++ NEWLINE :: rest, a)
      else if (a.take handle line).failed then (rest, a.take handle line)
      else handLines handle rest (a.take handle line) := by
  have hsome := idxOf?_newline hline rest
  rw [handLines]
  split
  · rename_i hnone
    exact nomatch hnone.symm.trans hsome
  · rename_i index hindex
    obtain rfl : line.length = index := Option.some.inj (hsome.symm.trans hindex)
    have hrest : (line ++ NEWLINE :: rest).drop (line.length + 1) = rest := by
      rw [List.drop_append, List.drop_of_length_le (Nat.le_succ _), Nat.add_sub_cancel_left]
      rfl
    rw [List.take_left' rfl, hrest, Answers.take]
    by_cases hblank : requestText line = []
    · rw [if_pos hblank, if_pos hblank, ha]
      rfl
    · rw [if_neg hblank, if_neg hblank]

-- ── One chunk ────────────────────────────────────────────────────────────────────

/-- **What the loop leaves**: a line threw; or a line that is too long stands first; or a piece that
    is no line yet. -/
theorem handLines_spec (bytes : Bytes) {a : Answers σ} (ha : a.failed = false) :
    ((handLines handle bytes a).2.failed = true ∧
      ∀ more, a.ask handle (bytes ++ more) = (handLines handle bytes a).2) ∨
    ((handLines handle bytes a).2.failed = false ∧ MAX_LINE_BYTES < (handLines handle bytes a).1.length ∧
      ∀ more, a.ask handle (bytes ++ more) = (handLines handle bytes a).2 ∧ TooLong (bytes ++ more)) ∨
    ((handLines handle bytes a).2.failed = false ∧ (handLines handle bytes a).1.length ≤ MAX_LINE_BYTES ∧
      NEWLINE ∉ (handLines handle bytes a).1 ∧
      ∀ more, a.ask handle (bytes ++ more) =
          (handLines handle bytes a).2.ask handle ((handLines handle bytes a).1 ++ more) ∧
        (TooLong (bytes ++ more) ↔ TooLong ((handLines handle bytes a).1 ++ more))) := by
  induction bytes using lines_induction generalizing a with
  | last rest hrest =>
      rw [handLines_last handle hrest]
      by_cases hlong : MAX_LINE_BYTES < rest.length
      · refine .inr (.inl ⟨ha, hlong, fun more => ?_⟩)
        obtain ⟨hnil, htoo⟩ := shortLines_of_long hrest more hlong
        exact ⟨ask_of_shortLines_nil handle hnil a, htoo⟩
      · exact .inr (.inr ⟨ha, Nat.not_lt.mp hlong, hrest, fun more => ⟨rfl, Iff.rfl⟩⟩)
  | line line rest hline ih =>
      rw [handLines_cons handle hline rest ha]
      by_cases hlong : MAX_LINE_BYTES < line.length
      · rw [if_pos hlong]
        refine .inr (.inl ⟨ha, ?_, fun more => ?_⟩)
        · show MAX_LINE_BYTES < (line ++ NEWLINE :: rest).length
          rw [List.length_append]
          omega
        · rw [List.append_assoc]
          obtain ⟨hnil, htoo⟩ := shortLines_of_long hline (NEWLINE :: rest ++ more) hlong
          exact ⟨ask_of_shortLines_nil handle hnil a, htoo⟩
      · have hask : ∀ more, a.ask handle (line ++ NEWLINE :: rest ++ more) =
            (a.take handle line).ask handle (rest ++ more) := by
          intro more
          rw [List.append_assoc, List.cons_append]
          exact ask_line handle hline (Nat.not_lt.mp hlong) _ a
        have htoo : ∀ more, TooLong (line ++ NEWLINE :: rest ++ more) ↔ TooLong (rest ++ more) := by
          intro more
          rw [List.append_assoc, List.cons_append, tooLong_cons hline, or_iff_right hlong]
        rw [if_neg hlong]
        by_cases hfailed : (a.take handle line).failed = true
        · rw [if_pos hfailed]
          exact .inl ⟨hfailed, fun more => (hask more).trans (foldl_hand_of_failed handle hfailed _)⟩
        · rw [if_neg hfailed]
          have hleft := ih (a := a.take handle line) (Bool.eq_false_iff.mpr hfailed)
          simp only [hask, htoo]
          exact hleft

-- ── A connection ─────────────────────────────────────────────────────────────────

/-- **How a connection stands after the bytes it brought**: dropped, ended, or waiting for the rest of
    a line. Bytes that are still to come change nothing of what is settled. -/
inductive Stands (signer : σ) (bytes : Bytes) : Connection σ → Prop where
  | dropped (buffer : Bytes) (a : Answers σ) (hfailed : a.failed = true)
      (hask : ∀ more, (Answers.start signer).ask handle (bytes ++ more) = a) :
      Stands signer bytes ⟨buffer, a, false⟩
  | ended (a : Answers σ) (hfailed : a.failed = false)
      (hask : ∀ more, (Answers.start signer).ask handle (bytes ++ more) = a ∧ TooLong (bytes ++ more)) :
      Stands signer bytes ⟨[], a.send lineTooLong, true⟩
  | waits (buffer : Bytes) (a : Answers σ) (hfailed : a.failed = false)
      (hlen : buffer.length ≤ MAX_LINE_BYTES) (hbuffer : NEWLINE ∉ buffer)
      (hask : ∀ more, (Answers.start signer).ask handle (bytes ++ more) = a.ask handle (buffer ++ more) ∧
        (TooLong (bytes ++ more) ↔ TooLong (buffer ++ more))) :
      Stands signer bytes ⟨buffer, a, false⟩

variable {handle} {signer : σ}

/-- **One chunk**, whatever it holds. -/
theorem Stands.data {bytes : Bytes} {s : Connection σ} (h : Stands handle signer bytes s) (chunk : Bytes) :
    Stands handle signer (bytes ++ chunk) (s.data handle chunk) := by
  cases h with
  | dropped buffer a hfailed hask =>
      rw [Connection.data, if_pos (by rw [hfailed]; rfl)]
      exact .dropped buffer a hfailed fun more => by rw [List.append_assoc]; exact hask _
  | ended a hfailed hask =>
      rw [Connection.data, if_pos (by rfl)]
      exact .ended a hfailed fun more => by rw [List.append_assoc]; exact hask _
  | waits buffer a hfailed hlen hbuffer hask =>
      have hgo : ∀ more, (Answers.start signer).ask handle (bytes ++ chunk ++ more) =
            a.ask handle (buffer ++ chunk ++ more) ∧
          (TooLong (bytes ++ chunk ++ more) ↔ TooLong (buffer ++ chunk ++ more)) := by
        intro more
        rw [List.append_assoc, List.append_assoc]
        exact hask (chunk ++ more)
      rw [Connection.data, if_neg (by rw [hfailed]; exact Bool.false_ne_true)]
      rcases handLines_spec handle (buffer ++ chunk) hfailed with ⟨hthrew, hdone⟩ | ⟨hok, hlong, hdone⟩ |
        ⟨hok, hshort, hnone, hdone⟩
      · show Stands handle signer _ (if (handLines handle (buffer ++ chunk) a).2.failed then _ else _)
        rw [if_pos hthrew]
        exact .dropped _ _ hthrew fun more => (hgo more).1.trans (hdone more)
      · show Stands handle signer _ (if (handLines handle (buffer ++ chunk) a).2.failed then _ else _)
        rw [if_neg (by rw [hok]; exact Bool.false_ne_true), if_pos hlong]
        exact .ended _ hok fun more => ⟨(hgo more).1.trans (hdone more).1, (hgo more).2.mpr (hdone more).2⟩
      · show Stands handle signer _ (if (handLines handle (buffer ++ chunk) a).2.failed then _ else _)
        rw [if_neg (by rw [hok]; exact Bool.false_ne_true), if_neg (Nat.not_lt.mpr hshort)]
        exact .waits _ _ hok hshort hnone fun more =>
          ⟨(hgo more).1.trans (hdone more).1, (hgo more).2.trans (hdone more).2⟩

/-- A new connection waits. -/
theorem Stands.start : Stands handle signer [] (.start signer) :=
  .waits [] _ rfl (Nat.zero_le _) List.not_mem_nil fun _ => ⟨rfl, Iff.rfl⟩

/-- **Every chunk**. -/
theorem Stands.serve (chunks : List Bytes) :
    Stands handle signer chunks.flatten (serve handle signer chunks) := by
  induction chunks using List.reverseRecOn with
  | nil => exact .start
  | append_singleton chunks chunk ih =>
      rw [List.flatten_append, List.flatten_singleton, Sigillo.serve, List.foldl_append]
      exact ih.data chunk

/-- **What is seen of a connection is what its bytes ask for.** -/
theorem Stands.observed {bytes : Bytes} {s : Connection σ} (h : Stands handle signer bytes s) :
    s.observed = expected handle signer bytes := by
  rw [expected]
  show _ = if ¬ ((Answers.start signer).ask handle bytes).failed = true ∧ TooLong bytes
    then (((Answers.start signer).ask handle bytes).send lineTooLong, true)
    else ((Answers.start signer).ask handle bytes, false)
  cases h with
  | dropped buffer a hfailed hask =>
      have ha := hask []
      rw [List.append_nil] at ha
      rw [ha, if_neg (fun h => h.1 hfailed)]
      rfl
  | ended a hfailed hask =>
      have ha := hask []
      rw [List.append_nil] at ha
      rw [ha.1, if_pos ⟨by rw [hfailed]; exact Bool.false_ne_true, ha.2⟩]
      rfl
  | waits buffer a hfailed hlen hbuffer hask =>
      have ha := hask []
      rw [List.append_nil, List.append_nil, ask_of_shortLines_nil handle (shortLines_last hbuffer),
        tooLong_last hbuffer] at ha
      rw [ha.1, if_neg (fun h => Nat.not_lt.mpr hlen (ha.2.mp h.2))]
      rfl

/-- **What comes of a connection is a matter of its bytes**, however they were cut. -/
theorem serve_observed (handle : LineHandler σ) (signer : σ) (chunks : List Bytes) :
    (serve handle signer chunks).observed = expected handle signer chunks.flatten :=
  (Stands.serve chunks).observed

-- ── What was handed on ───────────────────────────────────────────────────────────

/-- **The lines handed on**: the requests in order, each with a reply that was sent, up to one that
    threw. -/
structure Answers.Told (a : Answers σ) (lines : List JsString) : Prop where
  handed : a.log.map Prod.fst <+: lines
  sent : a.sent = a.log.filterMap Prod.snd
  answered : a.failed = false → a.log.map Prod.fst = lines ∧ ∀ e ∈ a.log, e.2.isSome = true
  threw : a.failed = true → ∃ before line, a.log = before ++ [(line, none)] ∧ ∀ e ∈ before, e.2.isSome = true

/-- One line more. -/
theorem Answers.Told.hand {a : Answers σ} {lines : List JsString} (h : a.Told lines) (line : JsString) :
    (a.hand handle line).Told (lines ++ [line]) := by
  by_cases hfailed : a.failed = true
  · rw [hand_of_failed handle hfailed]
    exact ⟨h.handed.trans (List.prefix_append _ _), h.sent, fun hok => (nomatch hfailed.symm.trans hok),
      h.threw⟩
  · obtain ⟨hlog, hall⟩ := h.answered (Bool.eq_false_iff.mpr hfailed)
    have hlines : ∀ reply, (a.log ++ [(line, reply)]).map Prod.fst = lines ++ [line] := by
      intro reply
      rw [List.map_append, hlog]
      rfl
    rw [Answers.hand, if_neg hfailed]
    match handle a.signer line with
    | (signer, none) =>
        refine ⟨⟨[], (List.append_nil _).trans (hlines none)⟩, ?_, fun hok => (nomatch hok), fun _ => ⟨a.log, line, rfl, hall⟩⟩
        show a.sent = (a.log ++ [(line, none)]).filterMap Prod.snd
        rw [List.filterMap_append, ← h.sent]
        exact (List.append_nil _).symm
    | (signer, some reply) =>
        refine ⟨⟨[], (List.append_nil _).trans (hlines (some reply))⟩, ?_, fun _ => ⟨hlines (some reply), fun e he => ?_⟩,
          fun hthrew => absurd hthrew hfailed⟩
        · show a.sent ++ [reply] = (a.log ++ [(line, some reply)]).filterMap Prod.snd
          rw [List.filterMap_append, ← h.sent]
          rfl
        · rcases List.mem_append.mp he with hmem | hmem
          · exact hall e hmem
          · rw [List.mem_singleton.mp hmem]
            rfl

/-- Each line was told. -/
theorem told_foldl (handle : LineHandler σ) (signer : σ) (lines : List JsString) :
    (lines.foldl (Answers.hand handle) (.start signer)).Told lines := by
  induction lines using List.reverseRecOn with
  | nil => exact ⟨List.nil_prefix, rfl, fun _ => ⟨rfl, fun _ h => (nomatch h)⟩, fun h => (nomatch h)⟩
  | append_singleton lines line ih =>
      rw [List.foldl_append]
      exact ih.hand line

/-- **The lines of a connection**: however its bytes are cut, the same lines are handed on and the
    connection ends at the same point. They are the lines of at most `MAX_LINE_BYTES` before the first
    longer one, where they hold anything, up to one that throws; each before that is answered once. -/
theorem serve_of_bytes (handle : LineHandler σ) (signer : σ) (chunks : List Bytes) :
    (∀ other : List Bytes, other.flatten = chunks.flatten →
      (serve handle signer other).observed = (serve handle signer chunks).observed) ∧
    (serve handle signer chunks).answers.log.map Prod.fst <+: requests chunks.flatten ∧
    ((serve handle signer chunks).answers.failed = false →
      (serve handle signer chunks).answers.log.map Prod.fst = requests chunks.flatten ∧
      (∀ e ∈ (serve handle signer chunks).answers.log, e.2.isSome = true) ∧
      ((serve handle signer chunks).ended = true ↔ TooLong chunks.flatten)) ∧
    ((serve handle signer chunks).answers.failed = true →
      (serve handle signer chunks).ended = false ∧
      ∃ before line, (serve handle signer chunks).answers.log = before ++ [(line, none)] ∧
        ∀ e ∈ before, e.2.isSome = true) ∧
    (serve handle signer chunks).answers.sent =
      (serve handle signer chunks).answers.log.filterMap Prod.snd ++
        if (serve handle signer chunks).ended then [lineTooLong] else [] := by
  refine ⟨fun other hother => by rw [serve_observed, serve_observed, hother], ?_⟩
  have htold := told_foldl handle signer (requests chunks.flatten)
  have hobserved := serve_observed handle signer chunks
  rw [expected] at hobserved
  generalize (requests chunks.flatten).foldl (Answers.hand handle) (.start signer) = a at htold hobserved
  generalize serve handle signer chunks = s at hobserved
  obtain ⟨buffer, answers, ended⟩ := s
  by_cases hlong : ¬ a.failed = true ∧ TooLong chunks.flatten
  · rw [if_pos hlong] at hobserved
    obtain ⟨rfl, rfl⟩ := Prod.mk.inj hobserved
    obtain ⟨hlog, hall⟩ := htold.answered (Bool.eq_false_iff.mpr hlong.1)
    exact ⟨htold.handed, fun _ => ⟨hlog, hall, iff_of_true rfl hlong.2⟩, fun hfailed => absurd hfailed hlong.1,
      congrArg (· ++ [lineTooLong]) htold.sent⟩
  · rw [if_neg hlong] at hobserved
    obtain ⟨rfl, rfl⟩ := Prod.mk.inj hobserved
    refine ⟨htold.handed, fun hok => ?_, fun hfailed => ⟨rfl, htold.threw hfailed⟩,
      htold.sent.trans (List.append_nil _).symm⟩
    obtain ⟨hlog, hall⟩ := htold.answered hok
    exact ⟨hlog, hall, iff_of_false (fun h => nomatch h) fun htoo =>
      hlong ⟨by rw [hok]; exact Bool.false_ne_true, htoo⟩⟩

-- ── The signer ───────────────────────────────────────────────────────────────────

section OneSigner

variable (c : Crypto) (options : SignerOptions) (clock : ℕ → Timestamp)

/-- The signer behind a connection, and how many lines it has read the clock for. -/
def signerHandler : LineHandler (World × ℕ) := fun s line =>
  ((s.1.step c options (.line (clock s.2) line), s.2 + 1),
    (s.1.handled c options (clock s.2) line).bind Handled.reply)

/-- The lines handed on, as what happens to the signer. -/
def eventsOf (log : List (JsString × Option Reply)) : List Event :=
  (log.zipIdx).map fun e => .line (clock e.2) e.1.1

variable {c options clock} {w : World}

/-- What the signer has come to is what the lines handed on make of it. -/
def Runs (c : Crypto) (options : SignerOptions) (clock : ℕ → Timestamp) (w : World)
    (a : Answers (World × ℕ)) : Prop :=
  a.signer = ((eventsOf clock a.log).foldl (World.step c options) w, a.log.length)

/-- One line more. -/
theorem Runs.hand {a : Answers (World × ℕ)} (h : Runs c options clock w a) (line : JsString) :
    Runs c options clock w (a.hand (signerHandler c options clock) line) := by
  by_cases hfailed : a.failed = true
  · rw [hand_of_failed _ hfailed]
    exact h
  · have hnext : ∀ reply : Option Reply,
        ((eventsOf clock (a.log ++ [(line, reply)])).foldl (World.step c options) w,
          (a.log ++ [(line, reply)]).length) =
        (a.signer.1.step c options (.line (clock a.signer.2) line), a.signer.2 + 1) := by
      intro reply
      rw [h, eventsOf, List.zipIdx_append, List.map_append, List.foldl_append, List.length_append,
        Nat.zero_add]
      rfl
    rw [Answers.hand, if_neg hfailed, signerHandler]
    cases (a.signer.1.handled c options (clock a.signer.2) line).bind Handled.reply with
    | none => exact (hnext none).symm
    | some reply => exact (hnext (some reply)).symm

/-- **A connection's lines are a run of the signer**, whatever came before it. -/
theorem serve_run (chunks : List Bytes) :
    Runs c options clock w (serve (signerHandler c options clock) (w, 0) chunks).answers := by
  have hrun : ∀ lines : List JsString, Runs c options clock w
      (lines.foldl (Answers.hand (signerHandler c options clock)) (.start (w, 0))) := by
    intro lines
    induction lines using List.reverseRecOn with
    | nil => rfl
    | append_singleton lines line ih =>
        rw [List.foldl_append]
        exact ih.hand line
  have hobserved := congrArg Prod.fst (serve_observed (signerHandler c options clock) (w, 0) chunks)
  rw [show (serve (signerHandler c options clock) (w, 0) chunks).answers = _ from hobserved, expected]
  split_ifs
  · exact hrun _
  · exact hrun _

end OneSigner

/-- A line with nothing on it is a short line, and is not handed on. -/
theorem serve_blank_line :
    shortLines [NEWLINE] = [[]] ∧
      (serve (fun (n : ℕ) _ => (n + 1, some lineTooLong)) 0 [[NEWLINE]]).answers.log = [] := by
  have hlines : shortLines [NEWLINE] = [[]] :=
    (shortLines_cons List.not_mem_nil []).trans (if_pos (Nat.zero_le _))
  have hrequests : requests [NEWLINE] = [] := by
    rw [requests, hlines]
    rfl
  refine ⟨hlines, ?_⟩
  have hobserved := congrArg Prod.fst
    (serve_observed (fun (n : ℕ) (_ : JsString) => (n + 1, some lineTooLong)) 0 [[NEWLINE]])
  rw [show (serve (fun (n : ℕ) _ => (n + 1, some lineTooLong)) 0 [[NEWLINE]]).answers = _ from hobserved,
    expected, show [[NEWLINE]].flatten = [NEWLINE] from rfl, hrequests]
  split_ifs
  · rfl
  · rfl

end Sigillo
