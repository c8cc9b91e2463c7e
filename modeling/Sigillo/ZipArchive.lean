import Sigillo.Exporter
import Sigillo.Fallible

/-!
# Reading an archive

`readZip` on the bytes of anyone: two headers an entry, both of the sender's making, and one function from
outside, `inflateRawSync`.

* **`readZip`** — the reader, with every inflation it made beside its answer;
* **`Returned`** — what holds of an archive it gave back;
* **`readZip_safe`** — it returns or throws a `ZipError`, and inflates no more than one byte too many. -/

namespace Sigillo

open Utf16Text JsonText DoubleArith Fallible

-- ── Bytes ────────────────────────────────────────────────────────────────────────

/-- What leaves the reader: its own error, or Node's when a read leaves the buffer. -/
inductive Thrown where
  | zip (message : JsString)
  | outOfRange (offset : ℕ)

/-- The number some bytes stand for, the lowest first. -/
def littleEndian : Bytes → ℕ
  | [] => 0
  | b :: rest => b.toNat + 256 * littleEndian rest

/-- A number of `width` bytes: a read past the end throws. -/
def readUIntLE (width : ℕ) (archive : Bytes) (offset : ℕ) : Except Thrown ℕ :=
  if offset + width ≤ archive.length then .ok (littleEndian ((archive.drop offset).take width))
  else .error (.outOfRange offset)

/-- Two bytes as a number. -/
def readUInt16LE := readUIntLE 2

/-- Four bytes as a number. -/
def readUInt32LE := readUIntLE 4

/-- `buffer.subarray(start, stop)`: what lies past the end is left out. -/
def subarray (archive : Bytes) (start stop : ℕ) : Bytes := (archive.drop start).take (stop - start)

/-- `if (refused) throw new ZipError(message)`. -/
def throwWhen (refused : Prop) [Decidable refused] (message : JsString) : Except Thrown Unit :=
  if refused then .error (.zip message) else .ok ()

-- ── The checksum ─────────────────────────────────────────────────────────────────

/-- The table of the checksum. -/
def CRC_TABLE : Array UInt32 :=
  (Array.range 256).map fun (index : ℕ) =>
    (List.range 8).foldl (fun (value : UInt32) _ =>
      if value &&& 1 = 1 then (0xEDB88320 : UInt32) ^^^ (value >>> 1) else value >>> 1) index.toUInt32

/-- The checksum of some data. -/
def crc32 (data : Bytes) : ℕ :=
  let crc := data.foldl (fun (crc : UInt32) byte =>
    CRC_TABLE.getD ((crc ^^^ byte.toUInt32) &&& 0xFF).toNat 0 ^^^ (crc >>> 8)) 0xFFFFFFFF
  (crc ^^^ 0xFFFFFFFF).toNat

-- ── The options ──────────────────────────────────────────────────────────────────

/-- Any number: `none` is NaN. -/
abbrev ByteLimit := Option JsNumber

/-- `size > limit`. -/
def ByteLimit.exceededBy : ByteLimit → ℕ → Bool
  | none, _ => false
  | some (.infinity negative), _ => negative
  | some (.fin limit _), size => decide (limit < size)

/-- A limit as a message has it. -/
def ByteLimit.text : ByteLimit → JsString
  | none => js "NaN"
  | some number => numberToString number

/-- How much a reader takes. -/
structure ReadZipOptions where
  maxEntryBytes : Option ByteLimit := none
  maxTotalBytes : Option ByteLimit := none

/-- The most one entry may be. -/
def ReadZipOptions.entryLimit (options : ReadZipOptions) : ByteLimit :=
  options.maxEntryBytes.getD (some (.ofNat (512 * 1024 * 1024)))

/-- The most all entries together may be. -/
def ReadZipOptions.totalLimit (options : ReadZipOptions) : ByteLimit :=
  options.maxTotalBytes.getD (some (.ofNat (1024 * 1024 * 1024)))

-- ── The records ──────────────────────────────────────────────────────────────────

/-- What a local header starts with. -/
def LOCAL_HEADER := 0x04034b50

/-- What a directory entry starts with. -/
def CENTRAL_HEADER := 0x02014b50

/-- What the end of the directory starts with. -/
def END_OF_CENTRAL_DIRECTORY := 0x06054b50

/-- An entry kept as it is. -/
def METHOD_STORED := 0

/-- An entry that was deflated. -/
def METHOD_DEFLATED := 8

/-- The flag of an entry that is encrypted. -/
def FLAG_ENCRYPTED := 0x0001

/-- The scan back from `earliest + remaining - 1`. -/
def scanBack (archive : Bytes) (earliest : ℕ) : (remaining : ℕ) → Except Thrown ℕ
  | 0 => .error (.zip (js "not a zip archive: no end of " ++ js "central directory record"))
  | n + 1 => do
      let signature ← readUInt32LE archive (earliest + n)
      if signature = END_OF_CENTRAL_DIRECTORY then return earliest + n else scanBack archive earliest n

/-- `findEndOfCentralDirectory`: the last signature that has room for the rest. -/
def findEndOfCentralDirectory (archive : Bytes) : Except Thrown ℕ :=
  let earliest := archive.length - 22 - 0xffff
  scanBack archive earliest (archive.length - 22 + 1 - earliest)

/-- What the directory says of an entry. -/
structure DirectoryEntry where
  flags : ℕ
  method : ℕ
  checksum : ℕ
  compressedSize : ℕ
  uncompressedSize : ℕ
  localOffset : ℕ
  nameBytes : Bytes
  /-- Where the next one starts. -/
  next : ℕ

/-- The name of an entry as text. -/
def DirectoryEntry.name (d : DirectoryEntry) : JsString := utf8Decode d.nameBytes

/-- An entry of the directory, read at the cursor. -/
def readDirectoryEntry (archive : Bytes) (index cursor : ℕ) : Except Thrown DirectoryEntry := do
  let malformed := js "central directory entry " ++ countText index ++ js " is malformed"
  throwWhen (archive.length < cursor + 46) malformed
  let signature ← readUInt32LE archive cursor
  throwWhen (signature ≠ CENTRAL_HEADER) malformed
  let flags ← readUInt16LE archive (cursor + 8)
  let method ← readUInt16LE archive (cursor + 10)
  let checksum ← readUInt32LE archive (cursor + 16)
  let compressedSize ← readUInt32LE archive (cursor + 20)
  let uncompressedSize ← readUInt32LE archive (cursor + 24)
  let nameLength ← readUInt16LE archive (cursor + 28)
  let extraLength ← readUInt16LE archive (cursor + 30)
  let commentLength ← readUInt16LE archive (cursor + 32)
  let localOffset ← readUInt32LE archive (cursor + 42)
  return { flags, method, checksum, compressedSize, uncompressedSize, localOffset,
           nameBytes := subarray archive (cursor + 46) (cursor + 46 + nameLength),
           next := cursor + (46 + nameLength + extraLength + commentLength) }

/-- The checks made before the local header is looked at; `total` is that of the entries before. -/
def admitEntry (options : ReadZipOptions) (names : List JsString) (total : ℕ) (d : DirectoryEntry) :
    Except Thrown Unit := do
  throwWhen (d.name ∈ names) (d.name ++ js " appears twice in the archive")
  throwWhen (d.flags &&& FLAG_ENCRYPTED ≠ 0) (d.name ++ js " is encrypted, which an " ++ js "export never is")
  throwWhen (options.entryLimit.exceededBy d.uncompressedSize
      || options.totalLimit.exceededBy (total + d.uncompressedSize))
    (d.name ++ js " would take the archive past the " ++ js "limit of " ++ options.entryLimit.text
      ++ js " bytes an entry, " ++ options.totalLimit.text ++ js " in all")

/-- The bytes the local header leads to. -/
def compressedBytes (archive : Bytes) (d : DirectoryEntry) : Except Thrown Bytes := do
  let absent := d.name ++ js " has no local header where the " ++ js "directory says it does"
  throwWhen (archive.length < d.localOffset + 30) absent
  let signature ← readUInt32LE archive d.localOffset
  throwWhen (signature ≠ LOCAL_HEADER) absent
  let localNameLength ← readUInt16LE archive (d.localOffset + 26)
  let localExtraLength ← readUInt16LE archive (d.localOffset + 28)
  let localName := subarray archive (d.localOffset + 30) (d.localOffset + 30 + localNameLength)
  throwWhen (localName ≠ d.nameBytes)
    (d.name ++ js " is called " ++ utf8Decode localName ++ js " in its local header")
  let dataStart := d.localOffset + 30 + localNameLength + localExtraLength
  let compressed := subarray archive dataStart (dataStart + d.compressedSize)
  throwWhen (compressed.length ≠ d.compressedSize) (d.name ++ js " is truncated")
  return compressed

-- ── Inflating ────────────────────────────────────────────────────────────────────

/-- `inflateRawSync(compressed, { maxOutputLength })`: the bytes, or the text of what it threw. -/
abbrev Inflate := Bytes → ℕ → Except JsString Bytes

/-- A call of `inflateRawSync`, and what came of it. -/
structure Inflation where
  declared : ℕ
  output : Except JsString Bytes

variable (inflate : Inflate)

/-- What an entry's data is inflated from, and the most it may become. -/
def inflation (d : DirectoryEntry) (compressed : Bytes) : Inflation :=
  { declared := d.uncompressedSize, output := inflate compressed (d.uncompressedSize + 1) }

/-- The calls an entry costs. -/
def inflationsOf (d : DirectoryEntry) (compressed : Bytes) : List Inflation :=
  if d.method = METHOD_DEFLATED then [inflation inflate d compressed] else []

/-- The data of an entry by its method. -/
def expand (d : DirectoryEntry) (compressed : Bytes) : Except Thrown Bytes :=
  if d.method = METHOD_STORED then .ok compressed
  else if d.method = METHOD_DEFLATED then
    (inflation inflate d compressed).output.mapError fun message =>
      .zip (d.name ++ js " does not decompress: " ++ message)
  else .error (.zip (d.name ++ js " uses compression method " ++ countText d.method
    ++ js ", which is not supported"))

/-- The data of an entry, as long as the directory declares and with its checksum. -/
def entryData (d : DirectoryEntry) (compressed : Bytes) : Except Thrown Bytes := do
  let data ← expand inflate d compressed
  throwWhen (data.length ≠ d.uncompressedSize)
    (d.name ++ js " is " ++ (if d.uncompressedSize < data.length then js "larger than"
      else countText data.length ++ js " bytes, not") ++ js " the " ++ countText d.uncompressedSize
      ++ js " bytes the directory declares")
  throwWhen (crc32 data ≠ d.checksum)
    (d.name ++ js " fails its CRC check: the " ++ js "archive is damaged or altered")
  return data

-- ── The loop ─────────────────────────────────────────────────────────────────────

/-- The variables of the loop, and the inflations made so far. -/
structure Reading where
  cursor : ℕ
  names : List JsString
  total : ℕ
  entries : List ZipEntry
  inflations : List Inflation

/-- An entry as far as its compressed bytes. -/
def locateEntry (options : ReadZipOptions) (archive : Bytes) (index : ℕ) (r : Reading) :
    Except Thrown (DirectoryEntry × Bytes) := do
  let d ← readDirectoryEntry archive index r.cursor
  admitEntry options r.names r.total d
  let compressed ← compressedBytes archive d
  return (d, compressed)

/-- A turn's entry added to what was read. -/
def Reading.after (r : Reading) (d : DirectoryEntry) (inflations : List Inflation) (data : Bytes) : Reading :=
  { cursor := d.next, names := d.name :: r.names, total := r.total + d.uncompressedSize,
    entries := r.entries ++ [{ name := d.name, data }], inflations }

/-- Before the first entry. -/
def Reading.start (cursor : ℕ) : Reading :=
  { cursor, names := [], total := 0, entries := [], inflations := [] }

/-- `count` more entries, the first of them number `index`. -/
def readEntries (options : ReadZipOptions) (archive : Bytes) :
    (count index : ℕ) → Reading → Except Thrown (List ZipEntry) × List Inflation
  | 0, _, r => (.ok r.entries, r.inflations)
  | count + 1, index, r =>
      match locateEntry options archive index r with
      | .error e => (.error e, r.inflations)
      | .ok (d, compressed) =>
          let inflations := r.inflations ++ inflationsOf inflate d compressed
          match entryData inflate d compressed with
          | .error e => (.error e, inflations)
          | .ok data => readEntries options archive count (index + 1) (r.after d inflations data)

/-- The directory's number of entries, and where it starts. -/
def readEnd (archive : Bytes) : Except Thrown (ℕ × ℕ) := do
  throwWhen (archive.length < 22) (js "not a zip archive: too short")
  let stop ← findEndOfCentralDirectory archive
  let count ← readUInt16LE archive (stop + 10)
  let cursor ← readUInt32LE archive (stop + 16)
  return (count, cursor)

/-- **`readZip`**: its answer, and the inflations it made. -/
def readZip (options : ReadZipOptions) (archive : Bytes) : Except Thrown (List ZipEntry) × List Inflation :=
  match readEnd archive with
  | .error e => (.error e, [])
  | .ok (count, cursor) =>
      readEntries inflate options archive count 0 (.start cursor)

-- ── Reads inside the buffer ──────────────────────────────────────────────────────

/-- No read of the computation leaves the buffer: what it throws is a `ZipError`. -/
def InBuffer {α : Type} (x : Except Thrown α) : Prop := ∀ offset, x ≠ .error (.outOfRange offset)

/-- What fails inside the buffer fails with a message of the reader's own. -/
theorem InBuffer.zip {α : Type} {x : Except Thrown α} (h : InBuffer x) {e : Thrown} (he : x = .error e) :
    ∃ message, e = .zip message := by
  cases e with
  | zip message => exact ⟨message, rfl⟩
  | outOfRange offset => exact absurd he (h offset)

/-- A success reads inside the buffer. -/
theorem inBuffer_ok {α : Type} (a : α) : InBuffer (.ok a : Except Thrown α) := fun _ h => nomatch h

/-- A refusal of the reader's own reads inside the buffer. -/
theorem inBuffer_zip {α : Type} (message : JsString) : InBuffer (.error (.zip message) : Except Thrown α) :=
  fun _ h => nomatch h

/-- Two steps that read inside the buffer do so together. -/
theorem InBuffer.bind {α β : Type} {x : Except Thrown α} {f : α → Except Thrown β} (hx : InBuffer x)
    (hf : ∀ a, x = .ok a → InBuffer (f a)) : InBuffer (x >>= f) := by
  intro offset h
  rcases bind_eq_error.mp h with h | ⟨a, ha, h⟩
  · exact hx offset h
  · exact hf a ha offset h

/-- A check passes exactly where it does not refuse. -/
theorem throwWhen_ok {refused : Prop} [Decidable refused] {message : JsString} {u : Unit} :
    throwWhen refused message = .ok u ↔ ¬ refused := by
  by_cases h : refused
  · rw [throwWhen, if_pos h]
    exact ⟨fun h' => (nomatch h'), fun h' => absurd h h'⟩
  · rw [throwWhen, if_neg h]
    exact ⟨fun _ => h, fun _ => rfl⟩

/-- A check reads nothing. -/
theorem throwWhen_inBuffer (refused : Prop) [Decidable refused] (message : JsString) :
    InBuffer (throwWhen refused message) := by
  by_cases h : refused
  · rw [throwWhen, if_pos h]
    exact inBuffer_zip message
  · rw [throwWhen, if_neg h]
    exact inBuffer_ok ()

/-- **A read that fits does not throw.** -/
theorem readUIntLE_inBuffer {width offset : ℕ} {archive : Bytes} (h : offset + width ≤ archive.length) :
    InBuffer (readUIntLE width archive offset) := by
  rw [readUIntLE, if_pos h]
  exact inBuffer_ok _

/-- The search for the end reads inside the buffer. -/
theorem scanBack_inBuffer {archive : Bytes} {earliest remaining : ℕ}
    (h : earliest + remaining + 21 ≤ archive.length) : InBuffer (scanBack archive earliest remaining) := by
  induction remaining with
  | zero => exact inBuffer_zip _
  | succ n ih =>
      unfold scanBack
      refine (readUIntLE_inBuffer (by omega)).bind fun signature _ => ?_
      by_cases hs : signature = END_OF_CENTRAL_DIRECTORY
      · rw [if_pos hs]
        exact inBuffer_ok _
      · rw [if_neg hs]
        exact ih (by omega)

/-- The record found leaves room for itself. -/
theorem scanBack_le {archive : Bytes} {earliest remaining stop : ℕ}
    (h : scanBack archive earliest remaining = .ok stop) : stop < earliest + remaining := by
  induction remaining with
  | zero => exact nomatch h
  | succ n ih =>
      unfold scanBack at h
      obtain ⟨signature, -, h⟩ := bind_eq_ok.mp h
      by_cases hs : signature = END_OF_CENTRAL_DIRECTORY
      · rw [if_pos hs] at h
        obtain rfl := Except.ok.inj h
        omega
      · rw [if_neg hs] at h
        have := ih h
        omega

/-- The end is read inside the buffer. -/
theorem readEnd_inBuffer (archive : Bytes) : InBuffer (readEnd archive) := by
  refine (throwWhen_inBuffer _ _).bind fun _ hlong => ?_
  have hlong := throwWhen_ok.mp hlong
  refine (scanBack_inBuffer (by omega)).bind fun stop hstop => ?_
  have hstop := scanBack_le hstop
  refine (readUIntLE_inBuffer (by omega)).bind fun count _ => ?_
  exact (readUIntLE_inBuffer (by omega)).bind fun cursor _ => inBuffer_ok _

/-- An entry of the directory is read inside the buffer. -/
theorem readDirectoryEntry_inBuffer (archive : Bytes) (index cursor : ℕ) :
    InBuffer (readDirectoryEntry archive index cursor) := by
  refine (throwWhen_inBuffer _ _).bind fun _ hroom => ?_
  have hroom := throwWhen_ok.mp hroom
  refine (readUIntLE_inBuffer (by omega)).bind fun _ _ => ?_
  refine (throwWhen_inBuffer _ _).bind fun _ _ => ?_
  iterate 9 refine (readUIntLE_inBuffer (by omega)).bind fun _ _ => ?_
  exact inBuffer_ok _

/-- What is asked of an entry reads nothing. -/
theorem admitEntry_inBuffer (options : ReadZipOptions) (names : List JsString) (total : ℕ)
    (d : DirectoryEntry) : InBuffer (admitEntry options names total d) := by
  refine (throwWhen_inBuffer _ _).bind fun _ _ => ?_
  exact (throwWhen_inBuffer _ _).bind fun _ _ => throwWhen_inBuffer _ _

/-- The bytes of an entry are read inside the buffer. -/
theorem compressedBytes_inBuffer (archive : Bytes) (d : DirectoryEntry) :
    InBuffer (compressedBytes archive d) := by
  refine (throwWhen_inBuffer _ _).bind fun _ hroom => ?_
  have hroom := throwWhen_ok.mp hroom
  refine (readUIntLE_inBuffer (by omega)).bind fun _ _ => ?_
  refine (throwWhen_inBuffer _ _).bind fun _ _ => ?_
  iterate 2 refine (readUIntLE_inBuffer (by omega)).bind fun _ _ => ?_
  refine (throwWhen_inBuffer _ _).bind fun _ _ => ?_
  exact (throwWhen_inBuffer _ _).bind fun _ _ => inBuffer_ok _

/-- The data of an entry is made without reading. -/
theorem entryData_inBuffer (d : DirectoryEntry) (compressed : Bytes) :
    InBuffer (entryData inflate d compressed) := by
  have hexpand : InBuffer (expand inflate d compressed) := by
    unfold expand
    split_ifs with hstored hdeflated
    · exact inBuffer_ok _
    · cases (inflation inflate d compressed).output with
      | error message => exact inBuffer_zip _
      | ok data => exact inBuffer_ok data
    · exact inBuffer_zip _
  refine hexpand.bind fun data _ => ?_
  refine (throwWhen_inBuffer _ _).bind fun _ _ => ?_
  exact (throwWhen_inBuffer _ _).bind fun _ _ => inBuffer_ok _

/-- An entry is located inside the buffer. -/
theorem locateEntry_inBuffer (options : ReadZipOptions) (archive : Bytes) (index : ℕ) (r : Reading) :
    InBuffer (locateEntry options archive index r) := by
  refine (readDirectoryEntry_inBuffer archive index r.cursor).bind fun d _ => ?_
  refine (admitEntry_inBuffer options r.names r.total d).bind fun _ _ => ?_
  exact (compressedBytes_inBuffer archive d).bind fun _ _ => inBuffer_ok _

-- ── What is returned ─────────────────────────────────────────────────────────────

/-- A part of an archive is one. -/
theorem subarray_infix (archive : Bytes) (start stop : ℕ) : subarray archive start stop <:+: archive :=
  (List.take_prefix _ _).isInfix.trans (List.drop_suffix _ _).isInfix

/-- The local header of an entry lies in the archive and carries the directory's name for it. -/
structure LocallyNamed (archive : Bytes) (d : DirectoryEntry) : Prop where
  inside : d.localOffset + 30 ≤ archive.length
  signature : readUInt32LE archive d.localOffset = .ok LOCAL_HEADER
  name : ∃ length, readUInt16LE archive (d.localOffset + 26) = .ok length ∧
    subarray archive (d.localOffset + 30) (d.localOffset + 30 + length) = d.nameBytes

/-- The bytes an entry was made of, and how. -/
structure MadeOf (archive : Bytes) (d : DirectoryEntry) (data compressed : Bytes) : Prop where
  inside : compressed <:+: archive
  length : compressed.length = d.compressedSize
  made : d.method = METHOD_STORED ∧ data = compressed ∨
    d.method = METHOD_DEFLATED ∧ inflate compressed (d.uncompressedSize + 1) = .ok data

/-- What an entry has to do with the directory's record of it. -/
structure EntryOf (archive : Bytes) (entry : ZipEntry) (d : DirectoryEntry) : Prop where
  listed : ∃ index cursor, readDirectoryEntry archive index cursor = .ok d
  name : entry.name = d.name
  header : LocallyNamed archive d
  made : ∃ compressed, MadeOf inflate archive d entry.data compressed
  length : entry.data.length = d.uncompressedSize
  checksum : crc32 entry.data = d.checksum

/-- The bytes of some entries, all together. -/
def dataBytes (entries : List ZipEntry) : ℕ := (entries.map fun entry => entry.data.length).sum

/-- **What `readZip` promises of the entries it returns.** -/
structure Returned (options : ReadZipOptions) (archive : Bytes) (entries : List ZipEntry) : Prop where
  distinct : (entries.map ZipEntry.name).Nodup
  each : ∀ entry ∈ entries, ∃ d, EntryOf inflate archive entry d
  within : ∀ entry ∈ entries, options.entryLimit.exceededBy entry.data.length = false
  together : ∀ front, front ≠ [] → front <+: entries →
    options.totalLimit.exceededBy (dataBytes front) = false

/-- An inflation stopped at most one byte past what was declared. -/
def Inflation.Bounded (i : Inflation) : Prop := ∀ data, i.output = .ok data → data.length ≤ i.declared + 1

/-- The bytes of an entry are behind a local header of its name, and as many as declared. -/
theorem compressedBytes_ok {archive : Bytes} {d : DirectoryEntry} {compressed : Bytes}
    (h : compressedBytes archive d = .ok compressed) :
    LocallyNamed archive d ∧ compressed <:+: archive ∧ compressed.length = d.compressedSize := by
  obtain ⟨_, hroom, h⟩ := bind_eq_ok.mp h
  obtain ⟨signature, hsig, h⟩ := bind_eq_ok.mp h
  obtain ⟨_, hheader, h⟩ := bind_eq_ok.mp h
  obtain ⟨nameLength, hname, h⟩ := bind_eq_ok.mp h
  obtain ⟨extraLength, -, h⟩ := bind_eq_ok.mp h
  obtain ⟨_, hsame, h⟩ := bind_eq_ok.mp h
  obtain ⟨_, hlength, h⟩ := bind_eq_ok.mp h
  obtain rfl := Except.ok.inj h
  have hsig' := not_not.mp (throwWhen_ok.mp hheader)
  refine ⟨⟨not_lt.mp (throwWhen_ok.mp hroom), ?_, nameLength, hname, not_not.mp (throwWhen_ok.mp hsame)⟩,
    subarray_infix _ _ _, not_not.mp (throwWhen_ok.mp hlength)⟩
  rw [hsig, hsig']

/-- Data was stored as it is, or inflated up to one byte more than declared. -/
theorem expand_ok {d : DirectoryEntry} {compressed data : Bytes}
    (h : expand inflate d compressed = .ok data) :
    d.method = METHOD_STORED ∧ data = compressed ∨
      d.method = METHOD_DEFLATED ∧ inflate compressed (d.uncompressedSize + 1) = .ok data := by
  unfold expand at h
  split_ifs at h with hstored hdeflated
  · exact .inl ⟨hstored, (Except.ok.inj h).symm⟩
  · refine .inr ⟨hdeflated, ?_⟩
    cases hout : inflate compressed (d.uncompressedSize + 1) with
    | error message =>
        rw [inflation, hout] at h
        exact nomatch h
    | ok bytes =>
        rw [inflation, hout] at h
        exact congrArg Except.ok (Except.ok.inj h)

/-- The data of an entry has the length and the checksum declared. -/
theorem entryData_ok {d : DirectoryEntry} {compressed data : Bytes}
    (h : entryData inflate d compressed = .ok data) :
    expand inflate d compressed = .ok data ∧ data.length = d.uncompressedSize ∧ crc32 data = d.checksum := by
  obtain ⟨data', hexpand, h⟩ := bind_eq_ok.mp h
  obtain ⟨_, hlength, h⟩ := bind_eq_ok.mp h
  obtain ⟨_, hcrc, h⟩ := bind_eq_ok.mp h
  obtain rfl := Except.ok.inj h
  exact ⟨hexpand, not_not.mp (throwWhen_ok.mp hlength), not_not.mp (throwWhen_ok.mp hcrc)⟩

/-- What is known of an entry once its compressed bytes are found. -/
theorem locateEntry_ok {options : ReadZipOptions} {archive : Bytes} {index : ℕ} {r : Reading}
    {d : DirectoryEntry} {compressed : Bytes} (h : locateEntry options archive index r = .ok (d, compressed)) :
    readDirectoryEntry archive index r.cursor = .ok d ∧ d.name ∉ r.names ∧
      options.entryLimit.exceededBy d.uncompressedSize = false ∧
      options.totalLimit.exceededBy (r.total + d.uncompressedSize) = false ∧
      LocallyNamed archive d ∧ compressed <:+: archive ∧ compressed.length = d.compressedSize := by
  obtain ⟨d', hd, h⟩ := bind_eq_ok.mp h
  obtain ⟨_, hadmit, h⟩ := bind_eq_ok.mp h
  obtain ⟨compressed', hcompressed, h⟩ := bind_eq_ok.mp h
  obtain ⟨rfl, rfl⟩ := Prod.mk.inj (Except.ok.inj h)
  obtain ⟨_, hfresh, hadmit⟩ := bind_eq_ok.mp hadmit
  obtain ⟨_, -, hlimits⟩ := bind_eq_ok.mp hadmit
  have hlimits := throwWhen_ok.mp hlimits
  rw [Bool.not_eq_true, Bool.or_eq_false_iff] at hlimits
  exact ⟨hd, throwWhen_ok.mp hfresh, hlimits.1, hlimits.2, compressedBytes_ok hcompressed⟩

-- ── The run of the loop ──────────────────────────────────────────────────────────

/-- What holds each time the loop comes round. -/
structure Reading.Sound (options : ReadZipOptions) (archive : Bytes) (r : Reading) : Prop where
  names : ∀ entry ∈ r.entries, entry.name ∈ r.names
  total : r.total = dataBytes r.entries
  returned : Returned inflate options archive r.entries
  bounded : ∀ i ∈ r.inflations, i.Bounded

/-- A reading starts sound. -/
theorem Reading.start_sound (options : ReadZipOptions) (archive : Bytes) (cursor : ℕ) :
    (Reading.start cursor).Sound inflate options archive where
  names := fun _ h => nomatch h
  total := rfl
  returned := ⟨List.nodup_nil, fun _ h => (nomatch h), fun _ h => (nomatch h),
    fun _ hne hfront => absurd (List.prefix_nil.mp hfront) hne⟩
  bounded := fun _ h => nomatch h

variable {inflate}

/-- `inflateRawSync` honours `maxOutputLength`, or throws. -/
def HonoursMaxOutputLength (inflate : Inflate) : Prop :=
  ∀ compressed limit data, inflate compressed limit = .ok data → data.length ≤ limit

/-- What an entry inflates stays within its bound. -/
theorem inflationsOf_bounded (honours : HonoursMaxOutputLength inflate) {inflations : List Inflation}
    (h : ∀ i ∈ inflations, i.Bounded) (d : DirectoryEntry) (compressed : Bytes) :
    ∀ i ∈ inflations ++ inflationsOf inflate d compressed, i.Bounded := by
  intro i hi
  rcases List.mem_append.mp hi with hi | hi
  · exact h i hi
  · unfold inflationsOf at hi
    split_ifs at hi
    · obtain rfl := List.mem_singleton.mp hi
      exact honours compressed (d.uncompressedSize + 1)
    · cases hi

/-- The bytes of one entry more. -/
theorem dataBytes_snoc (entries : List ZipEntry) (entry : ZipEntry) :
    dataBytes (entries ++ [entry]) = dataBytes entries + entry.data.length := by
  simp [dataBytes]

/-- **Each turn keeps it.** -/
theorem Reading.Sound.after {options : ReadZipOptions} {archive : Bytes} {index : ℕ} {r : Reading}
    {d : DirectoryEntry} {compressed data : Bytes} {inflations : List Inflation}
    (hr : r.Sound inflate options archive) (hlocated : locateEntry options archive index r = .ok (d, compressed))
    (hdata : entryData inflate d compressed = .ok data) (hbounded : ∀ i ∈ inflations, i.Bounded) :
    (r.after d inflations data).Sound inflate options archive := by
  obtain ⟨hd, hfresh, hwithin, htotal, hheader, hinside, hsize⟩ := locateEntry_ok hlocated
  obtain ⟨hexpand, hlength, hcrc⟩ := entryData_ok inflate hdata
  have hnew : EntryOf inflate archive { name := d.name, data } d :=
    { listed := ⟨index, r.cursor, hd⟩, name := rfl, header := hheader,
      made := ⟨compressed, hinside, hsize, expand_ok inflate hexpand⟩, length := hlength, checksum := hcrc }
  have hbytes : dataBytes (r.entries ++ [{ name := d.name, data }]) = r.total + d.uncompressedSize := by
    rw [dataBytes_snoc, hr.total, hlength]
  refine ⟨?_, hbytes.symm, ⟨?_, ?_, ?_, ?_⟩, hbounded⟩
  · intro entry hentry
    rcases List.mem_append.mp hentry with hentry | hentry
    · exact List.mem_cons_of_mem _ (hr.names entry hentry)
    · obtain rfl := List.mem_singleton.mp hentry
      exact List.mem_cons_self ..
  · show ((r.entries ++ [(⟨d.name, data⟩ : ZipEntry)]).map ZipEntry.name).Nodup
    rw [List.map_append, List.nodup_append]
    refine ⟨hr.returned.distinct, List.nodup_singleton _, ?_⟩
    intro name hname other hother heq
    obtain ⟨entry, hentry, rfl⟩ := List.mem_map.mp hname
    obtain rfl := List.mem_singleton.mp hother
    have hname' : entry.name = d.name := heq
    exact hfresh (hname' ▸ hr.names entry hentry)
  · intro entry hentry
    rcases List.mem_append.mp hentry with hentry | hentry
    · exact hr.returned.each entry hentry
    · obtain rfl := List.mem_singleton.mp hentry
      exact ⟨d, hnew⟩
  · intro entry hentry
    rcases List.mem_append.mp hentry with hentry | hentry
    · exact hr.returned.within entry hentry
    · obtain rfl := List.mem_singleton.mp hentry
      show options.entryLimit.exceededBy data.length = false
      rw [hlength]
      exact hwithin
  · intro front hne hfront
    rcases List.prefix_concat_iff.mp hfront with rfl | hfront
    · rw [hbytes]
      exact htotal
    · exact hr.returned.together front hne hfront

/-- **What the loop ends with**, whichever way it ends. -/
theorem readEntries_safe (honours : HonoursMaxOutputLength inflate) {options : ReadZipOptions}
    {archive : Bytes} (count index : ℕ) {r : Reading} (hr : r.Sound inflate options archive) :
    InBuffer (readEntries inflate options archive count index r).1 ∧
      (∀ entries, (readEntries inflate options archive count index r).1 = .ok entries →
        Returned inflate options archive entries) ∧
      ∀ i ∈ (readEntries inflate options archive count index r).2, i.Bounded := by
  induction count generalizing index r with
  | zero =>
      refine ⟨inBuffer_ok _, ?_, hr.bounded⟩
      intro entries h
      obtain rfl := Except.ok.inj h
      exact hr.returned
  | succ count ih =>
      unfold readEntries
      cases hlocated : locateEntry options archive index r with
      | error e =>
          obtain ⟨message, rfl⟩ := (locateEntry_inBuffer options archive index r).zip hlocated
          exact ⟨inBuffer_zip message, fun _ h => (nomatch h), hr.bounded⟩
      | ok located =>
          obtain ⟨d, compressed⟩ := located
          have hbounded := inflationsOf_bounded honours hr.bounded d compressed
          cases hdata : entryData inflate d compressed with
          | error e =>
              obtain ⟨message, rfl⟩ := (entryData_inBuffer inflate d compressed).zip hdata
              simp only [hdata]
              exact ⟨inBuffer_zip message, fun _ h => (nomatch h), hbounded⟩
          | ok data =>
              simp only [hdata]
              exact ih (index + 1) (hr.after hlocated hdata hbounded)

/-- **`readZip` is safe on any bytes**: it returns entries as it promises or throws its own error, and never
    inflates more than one byte past what the directory declares. -/
theorem readZip_safe (honours : HonoursMaxOutputLength inflate) (options : ReadZipOptions) (archive : Bytes) :
    ((∃ entries, (readZip inflate options archive).1 = .ok entries ∧
        Returned inflate options archive entries) ∨
      ∃ message, (readZip inflate options archive).1 = .error (.zip message)) ∧
    ∀ i ∈ (readZip inflate options archive).2, i.Bounded := by
  unfold readZip
  cases hend : readEnd archive with
  | error e =>
      obtain ⟨message, rfl⟩ := (readEnd_inBuffer archive).zip hend
      exact ⟨.inr ⟨message, rfl⟩, fun i hi => nomatch hi⟩
  | ok record =>
      obtain ⟨count, cursor⟩ := record
      obtain ⟨hbuffer, hreturned, hbounded⟩ :=
        readEntries_safe honours count 0 (Reading.start_sound inflate options archive cursor)
      refine ⟨?_, hbounded⟩
      cases hresult : (readEntries inflate options archive count 0 (.start cursor)).1 with
      | error e => exact .inr ((hbuffer.zip hresult).imp fun message h => by rw [h])
      | ok entries => exact .inl ⟨entries, rfl, hreturned entries hresult⟩

/-- An archive of one file, `a`, whose one byte is deflated. -/
def oneFile : Bytes :=
  let sizes : Bytes := [0x43, 0xBE, 0xB7, 0xE8, 6, 0, 0, 0, 1, 0, 0, 0, 1, 0, 0, 0]
  let localHeader : Bytes := [0x50, 0x4B, 3, 4, 20, 0, 0, 0, 8, 0, 0, 0, 0, 0] ++ sizes ++ [0x61]
  let central : Bytes := [0x50, 0x4B, 1, 2, 20, 0, 20, 0, 0, 0, 8, 0, 0, 0, 0, 0] ++ sizes
    ++ List.replicate 14 0 ++ [0x61]
  localHeader ++ [1, 1, 0, 0xFE, 0xFF, 0x61] ++ central
    ++ [0x50, 0x4B, 5, 6, 0, 0, 0, 0, 1, 0, 1, 0, 47, 0, 0, 0, 37, 0, 0, 0, 0, 0]

/-- `inflateRawSync` on a single block that is not compressed. -/
def inflateBlock : Inflate := fun compressed limit =>
  match compressed with
  | 1 :: lo :: hi :: _ :: _ :: data =>
      if data.length ≠ lo.toNat + 256 * hi.toNat then .error (js "unexpected end of file")
      else if data.length ≤ limit then .ok data
      else .error (js "Cannot create a Buffer larger")
  | _ => .error (js "invalid stored block lengths")

example : (readZip inflateBlock {} oneFile).1.toOption = some [⟨js "a", [0x61]⟩] := by decide +kernel

/-- The inflater of stored blocks keeps to its limit. -/
theorem inflateBlock_honours : HonoursMaxOutputLength inflateBlock := by
  intro compressed limit data h
  unfold inflateBlock at h
  split at h
  · split_ifs at h with hlength hlimit
    obtain rfl := Except.ok.inj h
    exact hlimit
  · cases h

/-- An archive of one file. -/
theorem readZip_safe_oneFile :
    ((∃ entries, (readZip inflateBlock {} oneFile).1 = .ok entries ∧
        Returned inflateBlock {} oneFile entries) ∨
      ∃ message, (readZip inflateBlock {} oneFile).1 = .error (.zip message)) ∧
    ∀ i ∈ (readZip inflateBlock {} oneFile).2, i.Bounded :=
  readZip_safe inflateBlock_honours {} oneFile

end Sigillo
