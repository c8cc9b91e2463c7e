import Sigillo.Signer

/-!
# What the signer reads back

The two kinds of file the signer keeps, read after what it wrote to them:

* **`parseStateFile_serialize`** — a state file reads back as the state it was written from;
* **`journalReceipts_record`**, **`journalReceipts_torn`** — a journal after one more receipt, and
  after one whose line was cut short: the receipts read from it are those before, and at most the
  new one;
* **`receiptsOf_eq`** — where the journal's last word on each position is the chain's receipt
  there, `GET_RECEIPTS` answers with a stretch of the chain. -/

namespace Sigillo

open DoubleArith Utf16Text JsonText JsonParse JsonSchema HexBase64 FileVolume AssocList

variable (c : Crypto)

-- ── File names ───────────────────────────────────────────────────────────────────

/-- What SHA-256 is asked to tell apart in the names of files. -/
def idBytes (systemId : SystemId) : Bytes := utf8Encode systemId.1

/-- A digest has 64 digits. -/
theorem length_hexOf (s : SystemId) : (c.sha256Hex (utf8Encode s.1)).1.length = 64 :=
  (c.sha256Hex (utf8Encode s.1)).2.1

/-- A state file is named as one. -/
theorem isStateName_fileNameOf (s : SystemId) : isStateName (fileNameOf c s) := by
  have hlen := length_hexOf c s
  unfold isStateName fileNameOf
  rw [List.take_left' hlen, List.drop_left' hlen]
  exact ⟨(c.sha256Hex (utf8Encode s.1)).2, rfl⟩

/-- The length of its name. -/
theorem length_fileNameOf (s : SystemId) : (fileNameOf c s).length = 69 := by
  have := length_hexOf c s
  rw [fileNameOf, List.length_append]
  show (c.sha256Hex (utf8Encode s.1)).1.length + 5 = 69
  omega

/-- The length of a journal's name. -/
theorem length_journalNameOf (s : SystemId) : (journalNameOf c s).length = 79 := by
  have := length_hexOf c s
  rw [journalNameOf, List.length_append]
  show (c.sha256Hex (utf8Encode s.1)).1.length + 15 = 79
  omega

/-- The length of a temporary file's name. -/
theorem length_temporaryNameOf (s : SystemId) : (temporaryNameOf c s).length = 73 := by
  rw [temporaryNameOf, List.length_append, length_fileNameOf]
  rfl

/-- A state file's name has one length. -/
theorem length_of_isStateName {name : JsString} (h : isStateName name) : name.length = 69 := by
  have htake := h.1.1
  have hdrop := congrArg List.length h.2
  rw [List.length_take] at htake
  rw [List.length_drop] at hdrop
  have : (js ".json").length = 5 := rfl
  omega

/-- Names of other lengths are others. -/
theorem ne_of_length_ne {a b : JsString} (h : a.length ≠ b.length) : a ≠ b := by
  rintro rfl
  exact h rfl

/-- A name that ends in something else is none of a temporary file. -/
theorem not_isTemporary_of_suffix {front tail : JsString} (hlen : 4 ≤ tail.length)
    (htail : ¬ js ".tmp" <:+ tail) : ¬ isTemporary (front ++ tail) := fun h =>
  htail (List.suffix_of_suffix_length_le h (List.suffix_append front tail) hlen)

/-- A journal is no temporary file. -/
theorem not_isTemporary_journalNameOf (s : SystemId) : ¬ isTemporary (journalNameOf c s) :=
  not_isTemporary_of_suffix (by decide) (by decide)

/-- A state file is no temporary file. -/
theorem not_isTemporary_of_isStateName {name : JsString} (h : isStateName name) :
    ¬ isTemporary name := by
  rw [← List.take_append_drop 64 name, h.2]
  exact not_isTemporary_of_suffix (by decide) (by decide)

/-- **The systems of a run**: their names have a canonical form, and SHA-256 tells them apart. -/
structure Named (ids : Set SystemId) : Prop where
  wellFormed : ∀ s ∈ ids, isWellFormed s.1 = true
  sha256 : Set.InjOn c.sha256 (idBytes '' ids)

/-- The digests tell the systems apart. -/
theorem Named.hex_injective {ids : Set SystemId} (h : Named c ids) {s t : SystemId}
    (hs : s ∈ ids) (ht : t ∈ ids)
    (heq : (c.sha256Hex (idBytes s)).1 = (c.sha256Hex (idBytes t)).1) : s = t := by
  have hdigest := Digest.hex_injective (Subtype.ext heq)
  have hbytes := h.sha256 ⟨s, hs, rfl⟩ ⟨t, ht, rfl⟩ hdigest
  exact Subtype.ext (utf8Encode_injective (h.wellFormed s hs) (h.wellFormed t ht) hbytes)

/-- So do their state files. -/
theorem Named.fileNameOf_injective {ids : Set SystemId} (h : Named c ids) {s t : SystemId}
    (hs : s ∈ ids) (ht : t ∈ ids) (heq : fileNameOf c s = fileNameOf c t) : s = t :=
  h.hex_injective c hs ht (List.append_cancel_right heq)

/-- So do their journals. -/
theorem Named.journalNameOf_injective {ids : Set SystemId} (h : Named c ids) {s t : SystemId}
    (hs : s ∈ ids) (ht : t ∈ ids) (heq : journalNameOf c s = journalNameOf c t) : s = t :=
  h.hex_injective c hs ht (List.append_cancel_right heq)

-- ── State files ──────────────────────────────────────────────────────────────────

/-- A small number is read exactly. -/
theorem ofNat_eq_fin {m n : ℕ} {hn : IsDouble (n : ℚ)} (hle : n ≤ 2 ^ 53 - 1)
    (h : JsNumber.ofNat m = .fin n hn) : m = n := by
  by_cases hm : m ≤ 2 ^ 53
  · rw [JsNumber.ofNat_of_isDouble (isDouble_natCast hm), JsNumber.fin.injEq] at h
    exact_mod_cast h
  · exfalso
    -- rounding does not reorder, and `2 ^ 53` rounds to itself
    have hround : roundDouble (m : ℚ) = n := by
      unfold JsNumber.ofNat JsNumber.ofRat at h
      split_ifs at h
      exact JsNumber.fin.inj h
    have hmono := roundDouble_natCast_mono (show 2 ^ 53 ≤ m by omega)
    rw [roundDouble_natCast (le_refl _), hround] at hmono
    have : 2 ^ 53 ≤ n := by exact_mod_cast hmono
    omega

/-- The frontier of a state, as the file holds it. -/
def wholeFrontier (f : MerkleFrontier) (hsize : f.size ≤ 2 ^ 53 - 1)
    (hnodes : f.nodes.length = MerkleTree.setBits f.size) : WholeFrontier :=
  ⟨(⟨f.size, isDouble_natCast (by omega), hsize⟩, f.nodes.map Digest.hex), by
    rw [List.length_map]; exact hnodes⟩

/-- A frontier of its own shape is written whole. -/
theorem serializeFrontier_eq {f : MerkleFrontier} (hsize : f.size ≤ 2 ^ 53 - 1)
    (hnodes : f.nodes.length = MerkleTree.setBits f.size) :
    serializeFrontier f = frontierSchema.encode (wholeFrontier f hsize hnodes) := by
  rw [serializeFrontier, JsNumber.ofNat_of_isDouble (isDouble_natCast (by omega : f.size ≤ 2 ^ 53))]
  have : (f.nodes.map fun node => Json.str node.hex.1)
      = (f.nodes.map Digest.hex).map fun h => Json.str h.1 := by
    rw [List.map_map]
    rfl
  rw [this]
  rfl

/-- It is read back from what is written. -/
theorem frontier_wholeFrontier {f : MerkleFrontier} (hsize : f.size ≤ 2 ^ 53 - 1)
    (hnodes : f.nodes.length = MerkleTree.setBits f.size) :
    (wholeFrontier f hsize hnodes).frontier = f := by
  have : (f.nodes.map Digest.hex).map digestOfHex = f.nodes := by
    rw [List.map_map]
    exact List.map_id'' (fun d => digestOfHex_hex d) f.nodes
  show (⟨f.size, (f.nodes.map Digest.hex).map digestOfHex⟩ : MerkleFrontier) = f
  rw [this]

/-- A state names no member twice. -/
theorem keysDistinct_stateJson (state : ChainState) :
    KeysDistinct (stateJson (.chain state)) := by
  have hfr : KeysDistinct (serializeFrontier state.frontier) := by
    refine .obj _ ?_ (show ([js "size", js "nodes"] : List JsString).Nodup by decide)
    intro m hm
    simp only [List.mem_cons, List.not_mem_nil, or_false] at hm
    rcases hm with rfl | rfl
    · exact .num _
    · refine .arr _ fun v hv => ?_
      obtain ⟨d, -, rfl⟩ := List.mem_map.mp hv
      exact .str _
  refine .obj _ ?_ (show ([js "format", js "system_id", js "seq", js "hash", js "head",
    js "frontier"] : List JsString).Nodup by decide)
  intro m hm
  simp only [List.mem_cons, List.not_mem_nil, or_false] at hm
  rcases hm with rfl | rfl | rfl | rfl | rfl | rfl
  · exact .num _
  · exact .str _
  · exact .num _
  · exact .str _
  · exact .of_regular (receiptSchema.regular _)
  · exact hfr

/-- The state of a chain is not read as that of a retired one. -/
theorem retiredFileSchema_chain (state : ChainState) :
    retiredFileSchema.decode (stateJson (.chain state)) = none := by
  have hmem : js "seq" ∈ [js "format", js "system_id", js "seq", js "hash", js "head",
    js "frontier"] := by decide
  have hkey : js "seq" ∉ [js "format", js "system_id", js "retired"] := by decide
  simp only [retiredFileSchema, Codec.iso, stateJson]
  rw [Codec.object_decode_none hmem hkey]
  rfl

/-- A state whose frontier fits a file is written as its schema writes it. -/
theorem stateJson_eq {state : ChainState} (hsize : state.frontier.size ≤ 2 ^ 53 - 1)
    (hnodes : state.frontier.nodes.length = MerkleTree.setBits state.frontier.size) :
    stateJson (.chain state) = chainFileSchema.encode
      (state.systemId, state.seq, state.hash, state.head,
        wholeFrontier state.frontier hsize hnodes) := by
  rw [stateJson, serializeFrontier_eq hsize hnodes,
    JsNumber.ofNat_of_isDouble (isDouble_natCast (by decide : STATE_FORMAT ≤ 2 ^ 53)),
    JsNumber.ofNat_of_isDouble state.seq.2.1]
  rfl

/-- A frontier past the safe integers is in no file the signer reads. -/
theorem chainFileSchema_none {state : ChainState} (hsize : 2 ^ 53 - 1 < state.frontier.size) :
    chainFileSchema.decode (stateJson (.chain state)) = none := by
  rw [Option.eq_none_iff_forall_not_mem]
  rintro ⟨systemId, seq, hash, head, frontier⟩ hd
  have hkd := keysDistinct_stateJson state
  have hs := (chainFileSchema.decode_iff hkd).mp hd
  have hreg : Regular (chainFileSchema.encode (systemId, seq, hash, head, frontier)) :=
    chainFileSchema.regular _
  have hk := (sortKeys_obj_iff hkd.members.2 (KeysDistinct.of_regular hreg).members.2).mp hs
    (js "frontier")
  have hfr : sortKeys (serializeFrontier state.frontier)
      = sortKeys (frontierSchema.encode frontier) := Option.some.inj hk
  have hkf : KeysDistinct (serializeFrontier state.frontier) :=
    hkd.members.1 (js "frontier", serializeFrontier state.frontier) (by simp)
  have hsz := (sortKeys_obj_iff hkf.members.2
    (KeysDistinct.of_regular (frontierSchema.regular frontier)).members.2).mp hfr (js "size")
  have hnum : Json.num (.ofNat state.frontier.size)
      = .num (.fin frontier.1.1.1 frontier.1.1.2.1) := Option.some.inj hsz
  have := ofNat_eq_fin frontier.1.1.2.2 (Json.num.inj hnum)
  have hle := frontier.1.1.2.2
  omega

/-- A state that says of its head what the head says. -/
structure ChainState.Consistent (state : ChainState) : Prop where
  systemId : state.head.systemId = state.systemId
  seq : state.head.seq = state.seq
  hash : receiptHashHex c state.head.toUnsignedReceipt = state.hash
  size : state.frontier.size = state.seq.1 + 1
  nodes : state.frontier.nodes.length = MerkleTree.setBits state.frontier.size

/-- **A state file is read as the state** it holds. -/
theorem parseStateFile_of_some {state : ChainState} {text : JsString}
    (htext : jsonParse text = some (stateJson (.chain state)))
    (hstate : state.Consistent c) (hsize : state.frontier.size ≤ 2 ^ 53 - 1) :
    parseStateFile c text = .ok (.chain state) := by
  have hd : chainFileSchema.decode (stateJson (.chain state)) = some (state.systemId, state.seq,
      state.hash, state.head, wholeFrontier state.frontier hsize hstate.nodes) := by
    rw [stateJson_eq hsize hstate.nodes, Codec.decode_encode]
  unfold parseStateFile
  simp only [htext, retiredFileSchema_chain, hd]
  rw [if_neg (not_not.mpr hstate.systemId), if_neg (not_not.mpr hstate.seq),
    if_neg (not_not.mpr hstate.hash), frontier_wholeFrontier, if_neg (not_not.mpr hstate.size)]

/-- The number a size up to one past `2 ^ 53` is written as: that last one rounds down. -/
theorem ofNat_size {n : ℕ} (hn : n ≤ 2 ^ 53 + 1) :
    ∃ (m : ℕ) (h : IsDouble (m : ℚ)), JsNumber.ofNat n = .fin m h := by
  by_cases hle : n ≤ 2 ^ 53
  · exact ⟨n, isDouble_natCast hle, JsNumber.ofNat_of_isDouble _⟩
  · obtain rfl : n = 2 ^ 53 + 1 := by omega
    refine ⟨2 ^ 53, isDouble_natCast (le_refl _), ?_⟩
    rw [← JsNumber.ofNat_of_isDouble]
    decide +kernel

/-- A state is regular JSON. -/
theorem regular_stateJson {state : ChainState} (hsize : state.frontier.size ≤ 2 ^ 53 + 1) :
    Regular (stateJson (.chain state)) := by
  obtain ⟨m, hm, hnum⟩ := ofNat_size hsize
  have hfr : Regular (serializeFrontier state.frontier) := by
    refine .obj _ ?_ (show ([js "size", js "nodes"] : List JsString).Nodup by decide)
    intro p hp
    simp only [List.mem_cons, List.not_mem_nil, or_false] at hp
    rcases hp with rfl | rfl
    · rw [hnum]
      exact .nat m hm
    · refine .arr _ fun v hv => ?_
      obtain ⟨d, -, rfl⟩ := List.mem_map.mp hv
      exact .str _
  refine .obj _ ?_ (keysDistinct_stateJson state).members.2
  intro p hp
  simp only [List.mem_cons, List.not_mem_nil, or_false] at hp
  rcases hp with rfl | rfl | rfl | rfl | rfl | rfl
  · rw [JsNumber.ofNat_of_isDouble (isDouble_natCast (by decide : STATE_FORMAT ≤ 2 ^ 53))]
    exact .nat _ _
  · exact .str _
  · rw [JsNumber.ofNat_of_isDouble state.seq.2.1]
    exact .nat _ _
  · exact .str _
  · exact receiptSchema.regular _
  · exact hfr

/-- **A consistent state reads back from its file**, when its size is a safe integer. -/
theorem parseStateFile_serialize {state : ChainState} (hstate : state.Consistent c)
    (hsize : state.frontier.size ≤ 2 ^ 53 - 1) :
    parseStateFile c (utf8Decode (utf8Encode (serialize (.chain state)))) = .ok (.chain state) := by
  have hreg := regular_stateJson (show state.frontier.size ≤ 2 ^ 53 + 1 by omega)
  rw [serialize, stringify, utf8Decode_utf8Encode (isWellFormed_stringifyAt 0 0 _)]
  exact parseStateFile_of_some c (jsonParse_stringify hreg) hstate hsize

/-- Whatever its size, a consistent state's file is read as it or not at all. -/
theorem parseStateFile_eq_ok {state : ChainState} (hstate : state.Consistent c)
    (hseq : state.seq.1 ≤ 2 ^ 53) {read : SystemState}
    (h : parseStateFile c (utf8Decode (utf8Encode (serialize (.chain state)))) = .ok read) :
    read = .chain state := by
  have hsz := hstate.size
  by_cases hsize : state.frontier.size ≤ 2 ^ 53 - 1
  · rw [parseStateFile_serialize c hstate hsize] at h
    exact (Except.ok.inj h).symm
  · have hreg := regular_stateJson (show state.frontier.size ≤ 2 ^ 53 + 1 by omega)
    rw [serialize, stringify, utf8Decode_utf8Encode (isWellFormed_stringifyAt 0 0 _)] at h
    have hparse : jsonParse (stringifyAt 0 0 (stateJson (.chain state)))
        = some (stateJson (.chain state)) := jsonParse_stringify hreg
    simp [parseStateFile, hparse, retiredFileSchema_chain, chainFileSchema_none (not_le.mp hsize)]
      at h

-- ── The journal ──────────────────────────────────────────────────────────────────

/-- An empty journal has no receipt. -/
theorem journalReceipts_nil : journalReceipts [] = [] := rfl

/-- A line feed splits a journal. -/
theorem journalReceipts_newline (a b : Bytes) :
    journalReceipts (a ++ 0x0A :: b) = journalReceipts a ++ journalReceipts b := by
  rw [journalReceipts, utf8Decode_newline, splitLines_append, List.filterMap_append]
  rfl

/-- The line a receipt is written as, in bytes. -/
def lineOf (r : Receipt) : Bytes := utf8Encode (stringify (receiptSchema.encode r))

/-- A line of a journal is its receipt. -/
theorem journalReceipts_line (r : Receipt) : journalReceipts (lineOf r) = [r] := by
  have hreg := receiptSchema.regular r
  have hparse := receiptSchema.parse_encode r
  have hne : stringify (receiptSchema.encode r) ≠ [] := by
    intro h
    rw [h] at hparse
    cases hparse
  rw [journalReceipts, lineOf,
    utf8Decode_utf8Encode (s := stringify _) (isWellFormed_stringifyAt 0 0 _),
    splitLines_of_not_mem (newline_not_mem_stringify _)]
  simp [readLine, hne, hparse]

/-- A line cut short is no receipt. -/
theorem journalReceipts_cut {r : Receipt} {p q : Bytes} (hcut : lineOf r = p ++ q) (hq : q ≠ []) :
    journalReceipts p = [] := by
  obtain ⟨ms, -, hobj⟩ := receiptSchema_encode r
  have hreg := receiptSchema.regular r
  have hparse : jsonParse (utf8Decode p) = none := by
    rw [lineOf, hobj] at hcut
    rw [hobj] at hreg
    exact jsonParse_torn_bytes hreg hcut hq
  obtain ⟨a, b, hab, -, hdec⟩ := utf8Decode_take (isWellFormed_stringifyAt 0 0 _) hcut hq
  have hnl : (0x0A : UInt16) ∉ utf8Decode p := by
    have ha : (0x0A : UInt16) ∉ a := fun h =>
      newline_not_mem_stringify _ (by rw [stringify, hab]; simp [h])
    rcases hdec with hdec | hdec
    · rwa [hdec]
    · rw [hdec, List.mem_append, not_or]
      exact ⟨ha, by decide⟩
  rw [journalReceipts, splitLines_of_not_mem hnl]
  simp [readLine, hparse]

/-- What a journal reads as after some bytes of one more record: what it read as before, and the
    new receipt or nothing. -/
theorem journalReceipts_line_prefix (r : Receipt) (count : ℕ) :
    journalReceipts ((lineOf r ++ [0x0A]).take count) = [] ∨
      journalReceipts ((lineOf r ++ [0x0A]).take count) = [r] := by
  rcases lt_trichotomy count (lineOf r).length with hlt | heq | hgt
  · left
    rw [List.take_append_of_le_length hlt.le]
    exact journalReceipts_cut (List.take_append_drop count (lineOf r)).symm
      (by simpa using hlt)
  · right
    rw [List.take_append_of_le_length heq.le, heq, List.take_length, journalReceipts_line]
  · right
    rw [List.take_of_length_le (by simp; omega), journalReceipts_newline, journalReceipts_line,
      journalReceipts_nil, List.append_nil]

/-- The bytes `record` appends to a journal. -/
def recordBytes (bytes : Bytes) (r : Receipt) : Bytes :=
  (if bytes ≠ [] ∧ bytes.getLast? ≠ some 0x0A then [0x0A] else []) ++ lineOf r ++ [0x0A]

/-- A journal that is empty or ends its last line reads the same without the line feed. -/
theorem journalReceipts_append_ended {bytes : Bytes}
    (h : ¬ (bytes ≠ [] ∧ bytes.getLast? ≠ some 0x0A)) (more : Bytes) :
    journalReceipts (bytes ++ more) = journalReceipts bytes ++ journalReceipts more := by
  rcases List.eq_nil_or_concat bytes with rfl | ⟨front, last, rfl⟩
  · rfl
  · have hlast : last = 0x0A := by
      by_contra hne
      exact h ⟨by simp, by simpa using hne⟩
    subst hlast
    rw [List.concat_eq_append, List.append_assoc, List.singleton_append, journalReceipts_newline,
      journalReceipts_newline, journalReceipts_nil, List.append_nil]

/-- **A journal with some of the bytes of one more record reads as before, and at most the new
    receipt after it.** -/
theorem journalReceipts_torn (bytes : Bytes) (r : Receipt) (count : ℕ) :
    journalReceipts (bytes ++ (recordBytes bytes r).take count) = journalReceipts bytes ∨
      journalReceipts (bytes ++ (recordBytes bytes r).take count) = journalReceipts bytes ++ [r] := by
  by_cases h : bytes ≠ [] ∧ bytes.getLast? ≠ some 0x0A
  · rw [recordBytes, if_pos h]
    cases count with
    | zero => left; rw [List.take_zero, List.append_nil]
    | succ count =>
        rw [List.append_assoc, List.singleton_append, List.take_succ_cons, journalReceipts_newline]
        rcases journalReceipts_line_prefix r count with hp | hp
        · left; rw [hp, List.append_nil]
        · right; rw [hp]
  · rw [recordBytes, if_neg h, List.nil_append, journalReceipts_append_ended h]
    rcases journalReceipts_line_prefix r count with hp | hp
    · left; rw [hp, List.append_nil]
    · right; rw [hp]

/-- **A journal with one more record reads as before, and the receipt after it.** -/
theorem journalReceipts_record (bytes : Bytes) (r : Receipt) :
    journalReceipts (bytes ++ recordBytes bytes r) = journalReceipts bytes ++ [r] := by
  by_cases h : bytes ≠ [] ∧ bytes.getLast? ≠ some 0x0A
  · rw [recordBytes, if_pos h, List.append_assoc, List.singleton_append, journalReceipts_newline,
      journalReceipts_newline, journalReceipts_line, journalReceipts_nil, List.append_nil]
  · rw [recordBytes, if_neg h, List.nil_append, journalReceipts_append_ended h,
      journalReceipts_newline, journalReceipts_line, journalReceipts_nil, List.append_nil]

-- ── Positions ────────────────────────────────────────────────────────────────────

/-- The last of some receipts at a position of a system's chain. -/
def lastAt (systemId : SystemId) (seq : ℕ) (receipts : List Receipt) : Option Receipt :=
  (receipts.filter fun r => decide (r.systemId = systemId ∧ r.seq.1 = seq)).getLast?

/-- The last receipt at a position, with one more line. -/
theorem lastAt_append (systemId : SystemId) (seq : ℕ) (receipts : List Receipt) (r : Receipt) :
    lastAt systemId seq (receipts ++ [r]) =
      if r.systemId = systemId ∧ r.seq.1 = seq then some r else lastAt systemId seq receipts := by
  unfold lastAt
  rw [List.filter_append]
  split_ifs with h
  · rw [List.filter_cons_of_pos (by simpa using h)]
    simp
  · rw [List.filter_cons_of_neg (by simpa using h)]
    simp

/-- The receipt a journal has at a position of a page. -/
theorem bySeq_eq (systemId : SystemId) (fromSeq toSeq : ℕ) (receipts : List Receipt) (seq : ℕ) :
    bySeq systemId fromSeq toSeq receipts seq =
      if fromSeq ≤ seq ∧ seq ≤ toSeq then lastAt systemId seq receipts else none := by
  induction receipts using List.reverseRecOn with
  | nil => simp [bySeq, lastAt]
  | append_singleton rs r ih =>
      rw [lastAt_append]
      have hfold : bySeq systemId fromSeq toSeq (rs ++ [r]) =
          if r.systemId = systemId ∧ fromSeq ≤ r.seq.1 ∧ r.seq.1 ≤ toSeq then
            Function.update (bySeq systemId fromSeq toSeq rs) r.seq.1 (some r)
          else bySeq systemId fromSeq toSeq rs := by
        rw [bySeq, List.foldl_append]
        rfl
      rw [hfold]
      by_cases hsys : r.systemId = systemId
      · by_cases hseq : r.seq.1 = seq
        · subst hseq
          by_cases hin : fromSeq ≤ r.seq.1 ∧ r.seq.1 ≤ toSeq
          · rw [if_pos ⟨hsys, hin⟩, if_pos hin, if_pos ⟨hsys, rfl⟩, Function.update_self]
          · rw [if_neg fun h => hin h.2, if_neg hin, ih, if_neg hin]
        · have hnot : ¬ (r.systemId = systemId ∧ r.seq.1 = seq) := fun h => hseq h.2
          rw [if_neg hnot, ← ih]
          split_ifs
          · rw [Function.update_of_ne (Ne.symm hseq)]
          · rfl
      · have hnot : ¬ (r.systemId = systemId ∧ r.seq.1 = seq) := fun h => hsys h.1
        rw [if_neg hnot, ← ih]
        exact congrFun (if_neg fun h => hsys h.1) seq

/-- Positions that are all there are collected as they stand. -/
theorem collect_eq {found : ℕ → Option Receipt} {chain : List Receipt} {count seq : ℕ}
    (hfound : ∀ n, seq ≤ n → n < seq + count → found n = chain[n]?)
    (hlen : seq + count ≤ chain.length) :
    collect found count seq = (chain.drop seq).take count := by
  induction count generalizing seq with
  | zero => simp [collect]
  | succ count ih =>
      have hlt : seq < chain.length := by omega
      have hseq := hfound seq (le_refl _) (by omega)
      rw [List.getElem?_eq_getElem hlt] at hseq
      simp only [collect, hseq]
      rw [ih (fun n h1 h2 => hfound n (by omega) (by omega)) (by omega),
        List.drop_eq_getElem_cons hlt, List.take_succ_cons]

/-- **Where the journal's last word on each position is the chain's receipt there, what is
    answered is a stretch of the chain.** -/
theorem receiptsOf_eq {volume : Volume} {systems : Systems} {systemId : SystemId}
    {known : ChainState} {chain : List Receipt} (hknown : systems systemId = some (.chain known))
    (hlen : chain.length = known.seq.1 + 1) (hhead : chain[known.seq.1]? = some known.head)
    (hjournal : ∀ n < chain.length, lastAt systemId n
      (journalReceipts ((volume.read (journalNameOf c systemId)).getD [])) = chain[n]?)
    (fromSeq limit : ℕ) :
    receiptsOf c volume systems systemId fromSeq limit = (chain.drop fromSeq).take limit := by
  simp only [receiptsOf, hknown]
  split_ifs with hfrom
  · rw [List.drop_eq_nil_of_le (by omega), List.take_nil]
  · rw [collect_eq _ (show _ ≤ chain.length by omega)]
    · by_cases hl : limit ≤ known.seq.1 + 1 - fromSeq
      · rw [min_eq_left hl]
      · rw [min_eq_right (by omega), List.take_of_length_le (by rw [List.length_drop]; omega),
          List.take_of_length_le (by rw [List.length_drop]; omega)]
    · intro n h1 h2
      by_cases hn : n = known.seq.1
      · rw [hn, Function.update_self, hhead]
      · rw [Function.update_of_ne hn, bySeq_eq, if_pos ⟨h1, by omega⟩, hjournal n (by omega)]

end Sigillo
