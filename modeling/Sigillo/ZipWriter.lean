import Sigillo.ZipArchive
import Sigillo.Placement

/-!
# Writing an archive

`createZip` lays out three kinds of record, each with offsets of its own, and `readZip` finds its way back by
them.

* **`createZip`** — the writer, which throws where a number does not fit its field;
* **`readUIntLE_field`** — a field that stands where it is read is read back;
* **`locateEntry_written`** — one turn of the reader on what one turn of the writer wrote;
* **`createZip_readZip`** — what is written reads back as it was, and a header that does not fit is not written. -/

namespace Sigillo

open Utf16Text JsonText DoubleArith Fallible Placement

-- ── Fields ───────────────────────────────────────────────────────────────────────

/-- The version an archive asks for. -/
def VERSION_NEEDED := 20

/-- The most a size may be without ZIP64. -/
def MAX_SIZE := 0xffffffff

/-- A number of a header, and the bytes it has there. -/
structure HeaderField where
  width : ℕ
  value : ℕ

/-- A field's value has room in its bytes. -/
def HeaderField.Fits (f : HeaderField) : Prop := f.value < 256 ^ f.width

instance (f : HeaderField) : Decidable f.Fits := inferInstanceAs (Decidable (_ < _))

/-- A number in so many bytes, the lowest first. -/
def toLittleEndian : ℕ → ℕ → Bytes
  | 0, _ => []
  | width + 1, value => UInt8.ofNat value :: toLittleEndian width (value / 256)

/-- `header.writeUInt16LE(value, offset)` and `writeUInt32LE`: a number past the field throws. -/
def writeUIntLE (f : HeaderField) (offset : ℕ) : Except Thrown Bytes :=
  if f.Fits then .ok (toLittleEndian f.width f.value) else .error (.outOfRange offset)

/-- A check that does not refuse passes. -/
theorem throwWhen_of_not {refused : Prop} [Decidable refused] {message : JsString} (h : ¬ refused) :
    throwWhen refused message = .ok () := throwWhen_ok.mpr h

/-- The fields of a header, one after the other. -/
def writeFields : ℕ → List HeaderField → Except Thrown Bytes
  | _, [] => .ok []
  | offset, f :: fields => do
      let bytes ← writeUIntLE f offset
      let rest ← writeFields (offset + f.width) fields
      return bytes ++ rest

-- ── Records ──────────────────────────────────────────────────────────────────────

/-- `deflateRawSync(raw, { level: 9 })`. -/
abbrev Deflate := Bytes → Bytes

/-- An entry ready to be written. -/
structure PackedEntry where
  nameBytes : Bytes
  raw : Bytes
  compressed : Bytes
  method : ℕ

/-- An entry, deflated where that makes it smaller. -/
def packEntry (deflate : Deflate) (entry : ZipEntry) : PackedEntry :=
  let deflated := deflate entry.data
  let helps := decide (deflated.length < entry.data.length)
  { nameBytes := utf8Encode entry.name, raw := entry.data, compressed := if helps then deflated else entry.data,
    method := if helps then METHOD_DEFLATED else METHOD_STORED }

/-- The fields of a local header. -/
def localFields (p : PackedEntry) : List HeaderField :=
  [⟨4, LOCAL_HEADER⟩, ⟨2, VERSION_NEEDED⟩, ⟨2, 0⟩, ⟨2, p.method⟩, ⟨2, 0⟩, ⟨2, 0⟩, ⟨4, crc32 p.raw⟩,
    ⟨4, p.compressed.length⟩, ⟨4, p.raw.length⟩, ⟨2, p.nameBytes.length⟩, ⟨2, 0⟩]

/-- The directory's record of an entry that starts at `offset`. -/
def centralFields (p : PackedEntry) (offset : ℕ) : List HeaderField :=
  [⟨4, CENTRAL_HEADER⟩, ⟨2, VERSION_NEEDED⟩, ⟨2, VERSION_NEEDED⟩, ⟨2, 0⟩, ⟨2, p.method⟩, ⟨2, 0⟩, ⟨2, 0⟩,
    ⟨4, crc32 p.raw⟩, ⟨4, p.compressed.length⟩, ⟨4, p.raw.length⟩, ⟨2, p.nameBytes.length⟩, ⟨2, 0⟩, ⟨2, 0⟩,
    ⟨2, 0⟩, ⟨2, 0⟩, ⟨4, 0⟩, ⟨4, offset⟩]

/-- The fields of the end of the directory. -/
def endFields (count size offset : ℕ) : List HeaderField :=
  [⟨4, END_OF_CENTRAL_DIRECTORY⟩, ⟨2, 0⟩, ⟨2, 0⟩, ⟨2, count⟩, ⟨2, count⟩, ⟨4, size⟩, ⟨4, offset⟩, ⟨2, 0⟩]

-- ── The loop ─────────────────────────────────────────────────────────────────────

/-- The variables of the loop; the buffers of the two lists, put together. -/
structure Packing where
  names : List JsString
  locals : Bytes
  centrals : Bytes
  offset : ℕ

/-- An archive with nothing in it yet. -/
def Packing.start : Packing := ⟨[], [], [], 0⟩

/-- `entry.name.length === 0 || entry.name.startsWith("/") || entry.name.includes("..")`. -/
def isUnusableName (name : JsString) : Bool :=
  name.isEmpty || name.head? == some 0x2F || name.tails.any fun rest => (js "..").isPrefixOf rest

/-- One turn of the writer. -/
def addEntry (deflate : Deflate) (s : Packing) (entry : ZipEntry) : Except Thrown Packing := do
  throwWhen (isUnusableName entry.name) (js "unusable entry name " ++ quote entry.name)
  throwWhen (entry.name ∈ s.names) (js "duplicate entry " ++ entry.name)
  let p := packEntry deflate entry
  throwWhen (MAX_SIZE < p.raw.length ∨ MAX_SIZE < p.compressed.length)
    (entry.name ++ js " is too large for a " ++ js "non-ZIP64 archive")
  let localHeader ← writeFields 0 (localFields p)
  let central ← writeFields 0 (centralFields p s.offset)
  return { names := entry.name :: s.names, locals := s.locals ++ (localHeader ++ (p.nameBytes ++ p.compressed)),
           centrals := s.centrals ++ (central ++ p.nameBytes),
           offset := s.offset + (localHeader.length + p.nameBytes.length + p.compressed.length) }

/-- **`createZip`**. -/
def createZip (deflate : Deflate) (entries : List ZipEntry) : Except Thrown Bytes := do
  let s ← entries.foldlM (addEntry deflate) .start
  let stop ← writeFields 0 (endFields entries.length s.centrals.length s.offset)
  return s.locals ++ (s.centrals ++ stop)

-- ── Fields that fit ──────────────────────────────────────────────────────────────

/-- The bytes of some fields. -/
def fieldBytes (fields : List HeaderField) : Bytes := fields.flatMap fun f => toLittleEndian f.width f.value

/-- A number takes the bytes it is given. -/
theorem length_toLittleEndian (width value : ℕ) : (toLittleEndian width value).length = width := by
  induction width generalizing value with
  | zero => rfl
  | succ width ih => rw [toLittleEndian, List.length_cons, ih]

/-- A number that has room is read back. -/
theorem littleEndian_toLittleEndian {width value : ℕ} (h : value < 256 ^ width) :
    littleEndian (toLittleEndian width value) = value := by
  induction width generalizing value with
  | zero =>
      rw [pow_zero, Nat.lt_one_iff] at h
      rw [h]
      rfl
  | succ width ih =>
      have hrest : value / 256 < 256 ^ width := by
        rw [Nat.div_lt_iff_lt_mul (by norm_num)]
        exact h
      rw [toLittleEndian, littleEndian, ih hrest]
      exact Nat.mod_add_div value 256

/-- **Written exactly where every number fits.** -/
theorem writeFields_eq_ok {offset : ℕ} {fields : List HeaderField} {bytes : Bytes} :
    writeFields offset fields = .ok bytes ↔ (∀ f ∈ fields, f.Fits) ∧ fieldBytes fields = bytes := by
  induction fields generalizing offset bytes with
  | nil =>
      rw [writeFields]
      constructor
      · intro h
        exact ⟨fun _ h => (nomatch h), Except.ok.inj h⟩
      · rintro ⟨-, rfl⟩
        rfl
  | cons f fields ih =>
      rw [writeFields, bind_eq_ok, List.forall_mem_cons]
      constructor
      · rintro ⟨first, hfirst, h⟩
        obtain ⟨rest, hrest, h⟩ := bind_eq_ok.mp h
        obtain ⟨hfits, rfl⟩ := ih.mp hrest
        rw [writeUIntLE] at hfirst
        split_ifs at hfirst with hone
        obtain rfl := Except.ok.inj hfirst
        exact ⟨⟨hone, hfits⟩, Except.ok.inj h⟩
      · rintro ⟨⟨hone, hfits⟩, rfl⟩
        refine ⟨_, if_pos hone, bind_eq_ok.mpr ⟨_, ih.mpr ⟨hfits, rfl⟩, rfl⟩⟩

/-- The bytes of fields are as many as their widths. -/
theorem length_fieldBytes (fields : List HeaderField) :
    (fieldBytes fields).length = (fields.map HeaderField.width).sum := by
  rw [fieldBytes, List.length_flatMap]
  exact congrArg List.sum (List.map_congr_left fun f _ => length_toLittleEndian f.width f.value)

/-- A field stands where the widths before it end. -/
theorem placedAt_field {fields : List HeaderField} {k : ℕ} {f : HeaderField} (hk : fields[k]? = some f) :
    PlacedAt (fieldBytes fields) ((fields.take k).map HeaderField.width).sum (toLittleEndian f.width f.value) := by
  refine ⟨fieldBytes (fields.take k), fieldBytes (fields.drop (k + 1)), ?_, length_fieldBytes _⟩
  obtain ⟨hlt, hget⟩ := List.getElem?_eq_some_iff.mp hk
  have hsplit : fields = fields.take k ++ f :: fields.drop (k + 1) := by
    rw [← hget, List.getElem_cons_drop, List.take_append_drop]
  calc fieldBytes fields = fieldBytes (fields.take k ++ f :: fields.drop (k + 1)) := by rw [← hsplit]
    _ = _ := by rw [fieldBytes, List.flatMap_append, List.flatMap_cons]; rfl

/-- **A field that stands where it is read is read back**: number `k` of a header at `offset`, where the fields
    before it take `within` bytes. -/
theorem readUIntLE_field {archive : Bytes} {offset : ℕ} {fields : List HeaderField}
    (hplaced : PlacedAt archive offset (fieldBytes fields)) (hfits : ∀ f ∈ fields, f.Fits) (k within : ℕ)
    {f : HeaderField} (hk : fields[k]? = some f) (hwithin : ((fields.take k).map HeaderField.width).sum = within) :
    readUIntLE f.width archive (offset + within) = .ok f.value := by
  have hat := hplaced.inner (placedAt_field hk)
  have hfits := hfits f (List.mem_of_getElem? hk)
  rw [hwithin] at hat
  have hroom := hat.le_length
  have hread := hat.take_drop
  rw [length_toLittleEndian] at hroom hread
  rw [readUIntLE, if_pos hroom, hread, littleEndian_toLittleEndian hfits]

/-- What was placed is read where it was. -/
theorem subarray_placed {archive part : Bytes} {offset : ℕ} (h : PlacedAt archive offset part) :
    subarray archive offset (offset + part.length) = part := by
  rw [subarray, Nat.add_sub_cancel_left, h.take_drop]

-- ── What the writer lays out ─────────────────────────────────────────────────────

/-- A local header, with name and bytes. -/
def localRecord (p : PackedEntry) : Bytes := fieldBytes (localFields p) ++ (p.nameBytes ++ p.compressed)

/-- A directory entry, with its name. -/
def centralRecord (p : PackedEntry) (offset : ℕ) : Bytes := fieldBytes (centralFields p offset) ++ p.nameBytes

/-- A local header is 30 bytes. -/
theorem length_localHeader (p : PackedEntry) : (fieldBytes (localFields p)).length = 30 := by
  simp [length_fieldBytes, localFields]

/-- A directory entry is 46 bytes. -/
theorem length_centralHeader (p : PackedEntry) (offset : ℕ) : (fieldBytes (centralFields p offset)).length = 46 := by
  simp [length_fieldBytes, centralFields]

/-- The length of a local header with name and bytes. -/
theorem length_localRecord (p : PackedEntry) :
    (localRecord p).length = 30 + p.nameBytes.length + p.compressed.length := by
  rw [localRecord, List.length_append, List.length_append, length_localHeader, Nat.add_assoc]

/-- The length of a directory entry with its name. -/
theorem length_centralRecord (p : PackedEntry) (offset : ℕ) :
    (centralRecord p offset).length = 46 + p.nameBytes.length := by
  rw [centralRecord, List.length_append, length_centralHeader]

variable (deflate : Deflate)

/-- The local headers of all entries. -/
def localRecords (entries : List ZipEntry) : Bytes := entries.flatMap fun entry => localRecord (packEntry deflate entry)

/-- The directory of entries whose records start at an offset. -/
def directoryBytes : ℕ → List ZipEntry → Bytes
  | _, [] => []
  | offset, entry :: entries =>
      let p := packEntry deflate entry
      centralRecord p offset ++ directoryBytes (offset + (localRecord p).length) entries

/-- The numbers of all their headers. -/
def entryFields : ℕ → List ZipEntry → List HeaderField
  | _, [] => []
  | offset, entry :: entries =>
      let p := packEntry deflate entry
      localFields p ++ (centralFields p offset ++ entryFields (offset + (localRecord p).length) entries)

/-- The numbers of the last record. -/
def lastFields (entries : List ZipEntry) : List HeaderField :=
  endFields entries.length (directoryBytes deflate 0 entries).length (localRecords deflate entries).length

/-- **The numbers of an archive's headers.** -/
def headerFields (entries : List ZipEntry) : List HeaderField := entryFields deflate 0 entries ++ lastFields deflate entries

/-- **An archive as it is laid out.** -/
def archiveBytes (entries : List ZipEntry) : Bytes :=
  localRecords deflate entries ++ (directoryBytes deflate 0 entries ++ fieldBytes (lastFields deflate entries))

variable {deflate}

/-- What some turns of the writer add. -/
structure Adds (deflate : Deflate) (s : Packing) (entries : List ZipEntry) (s' : Packing) : Prop where
  fresh : ∀ entry ∈ entries, entry.name ∉ s.names
  distinct : (entries.map ZipEntry.name).Nodup
  fits : ∀ f ∈ entryFields deflate s.offset entries, f.Fits
  locals : s'.locals = s.locals ++ localRecords deflate entries
  centrals : s'.centrals = s.centrals ++ directoryBytes deflate s.offset entries
  offset : s'.offset = s.offset + (localRecords deflate entries).length

/-- One turn of the writer. -/
theorem addEntry_ok {s s' : Packing} {entry : ZipEntry} (h : addEntry deflate s entry = .ok s') :
    let p := packEntry deflate entry
    entry.name ∉ s.names ∧ (∀ f ∈ localFields p, f.Fits) ∧ (∀ f ∈ centralFields p s.offset, f.Fits) ∧
      s' = ⟨entry.name :: s.names, s.locals ++ localRecord p, s.centrals ++ centralRecord p s.offset,
        s.offset + (localRecord p).length⟩ := by
  intro p
  obtain ⟨_, -, h⟩ := bind_eq_ok.mp h
  obtain ⟨_, hfresh, h⟩ := bind_eq_ok.mp h
  obtain ⟨_, -, h⟩ := bind_eq_ok.mp h
  obtain ⟨localHeader, hlocal, h⟩ := bind_eq_ok.mp h
  obtain ⟨central, hcentral, h⟩ := bind_eq_ok.mp h
  obtain ⟨hlocalFits, rfl⟩ := writeFields_eq_ok.mp hlocal
  obtain ⟨hcentralFits, rfl⟩ := writeFields_eq_ok.mp hcentral
  refine ⟨throwWhen_ok.mp hfresh, hlocalFits, hcentralFits, (Except.ok.inj h).symm.trans ?_⟩
  rw [length_localRecord, length_localHeader]
  rfl

/-- **What a run of the writer adds.** -/
theorem addEntries_ok {s s' : Packing} {entries : List ZipEntry}
    (h : entries.foldlM (addEntry deflate) s = .ok s') : Adds deflate s entries s' := by
  induction entries generalizing s with
  | nil =>
      obtain rfl := Except.ok.inj h
      exact ⟨fun _ h => (nomatch h), List.nodup_nil, fun _ h => (nomatch h), (List.append_nil _).symm,
        (List.append_nil _).symm, rfl⟩
  | cons entry entries ih =>
      rw [List.foldlM_cons] at h
      obtain ⟨s₁, hfirst, hrest⟩ := bind_eq_ok.mp h
      obtain ⟨hfresh, hlocal, hcentral, rfl⟩ := addEntry_ok hfirst
      have hmore := ih hrest
      refine ⟨?_, ?_, ?_, ?_, ?_, ?_⟩
      · rintro other (_ | ⟨_, hother⟩)
        · exact hfresh
        · exact fun hthere => hmore.fresh other hother (List.mem_cons_of_mem _ hthere)
      · rw [List.map_cons, List.nodup_cons]
        refine ⟨fun hthere => ?_, hmore.distinct⟩
        obtain ⟨other, hother, heq⟩ := List.mem_map.mp hthere
        exact hmore.fresh other hother (heq ▸ List.mem_cons_self)
      · rw [entryFields, List.forall_mem_append, List.forall_mem_append]
        exact ⟨hlocal, hcentral, hmore.fits⟩
      · rw [hmore.locals, List.append_assoc]
        rfl
      · rw [hmore.centrals, List.append_assoc]
        rfl
      · rw [hmore.offset, localRecords, localRecords, List.flatMap_cons, List.length_append, Nat.add_assoc]

/-- **What `createZip` wrote**, and that it fits. -/
theorem createZip_ok {entries : List ZipEntry} {archive : Bytes} (h : createZip deflate entries = .ok archive) :
    (entries.map ZipEntry.name).Nodup ∧ (∀ f ∈ headerFields deflate entries, f.Fits) ∧
      archive = archiveBytes deflate entries := by
  obtain ⟨s, hs, h⟩ := bind_eq_ok.mp h
  obtain ⟨stop, hstop, h⟩ := bind_eq_ok.mp h
  have hadds := addEntries_ok hs
  have hoffset : s.offset = (localRecords deflate entries).length := hadds.offset.trans (Nat.zero_add _)
  have hcentrals : s.centrals = directoryBytes deflate 0 entries := hadds.centrals
  rw [hcentrals, hoffset] at hstop
  obtain ⟨hlast, rfl⟩ := writeFields_eq_ok.mp hstop
  refine ⟨hadds.distinct, ?_, ?_⟩
  · rw [headerFields, List.forall_mem_append]
    exact ⟨hadds.fits, hlast⟩
  · rw [← Except.ok.inj h, hcentrals, hadds.locals]
    rfl

-- ── One turn of the reader ───────────────────────────────────────────────────────

/-- What the directory says of an entry that starts at an offset. -/
def PackedEntry.directoryEntry (p : PackedEntry) (offset cursor : ℕ) : DirectoryEntry where
  flags := 0
  method := p.method
  checksum := crc32 p.raw
  compressedSize := p.compressed.length
  uncompressedSize := p.raw.length
  localOffset := offset
  nameBytes := p.nameBytes
  next := cursor + (46 + p.nameBytes.length + 0 + 0)

/-- **A directory entry is read as it was written.** -/
theorem readDirectoryEntry_written {archive : Bytes} {p : PackedEntry} {offset cursor : ℕ} (index : ℕ)
    (hplaced : PlacedAt archive cursor (centralRecord p offset)) (hfits : ∀ f ∈ centralFields p offset, f.Fits) :
    readDirectoryEntry archive index cursor = .ok (p.directoryEntry offset cursor) := by
  have hroom : cursor + 46 ≤ archive.length := by
    have := hplaced.le_length
    rw [length_centralRecord] at this
    omega
  have hname : subarray archive (cursor + 46) (cursor + 46 + p.nameBytes.length) = p.nameBytes := by
    have hat := hplaced.right
    rw [length_centralHeader] at hat
    exact subarray_placed hat
  have hsignature : readUInt32LE archive cursor = .ok CENTRAL_HEADER :=
    readUIntLE_field hplaced.left hfits 0 0 rfl (by simp [centralFields])
  have hflags : readUInt16LE archive (cursor + 8) = .ok 0 :=
    readUIntLE_field hplaced.left hfits 3 8 rfl (by simp [centralFields])
  have hmethod : readUInt16LE archive (cursor + 10) = .ok p.method :=
    readUIntLE_field hplaced.left hfits 4 10 rfl (by simp [centralFields])
  have hchecksum : readUInt32LE archive (cursor + 16) = .ok (crc32 p.raw) :=
    readUIntLE_field hplaced.left hfits 7 16 rfl (by simp [centralFields])
  have hcompressed : readUInt32LE archive (cursor + 20) = .ok p.compressed.length :=
    readUIntLE_field hplaced.left hfits 8 20 rfl (by simp [centralFields])
  have hraw : readUInt32LE archive (cursor + 24) = .ok p.raw.length :=
    readUIntLE_field hplaced.left hfits 9 24 rfl (by simp [centralFields])
  have hnameLength : readUInt16LE archive (cursor + 28) = .ok p.nameBytes.length :=
    readUIntLE_field hplaced.left hfits 10 28 rfl (by simp [centralFields])
  have hextra : readUInt16LE archive (cursor + 30) = .ok 0 :=
    readUIntLE_field hplaced.left hfits 11 30 rfl (by simp [centralFields])
  have hcomment : readUInt16LE archive (cursor + 32) = .ok 0 :=
    readUIntLE_field hplaced.left hfits 12 32 rfl (by simp [centralFields])
  have hoffset : readUInt32LE archive (cursor + 42) = .ok offset :=
    readUIntLE_field hplaced.left hfits 16 42 rfl (by simp [centralFields])
  rw [readDirectoryEntry, throwWhen_of_not (not_lt.mpr hroom), ok_bind, hsignature, ok_bind,
    throwWhen_of_not (not_not.mpr rfl), ok_bind, hflags, ok_bind, hmethod, ok_bind, hchecksum, ok_bind, hcompressed,
    ok_bind, hraw, ok_bind, hnameLength, ok_bind, hextra, ok_bind, hcomment, ok_bind, hoffset, ok_bind, hname]
  rfl

/-- **The bytes of an entry are read as they were written.** -/
theorem compressedBytes_written {archive : Bytes} {p : PackedEntry} {offset cursor : ℕ}
    (hplaced : PlacedAt archive offset (localRecord p)) (hfits : ∀ f ∈ localFields p, f.Fits) :
    compressedBytes archive (p.directoryEntry offset cursor) = .ok p.compressed := by
  have hroom : offset + 30 ≤ archive.length := by
    have := hplaced.le_length
    rw [length_localRecord] at this
    omega
  have hafter := hplaced.right
  rw [length_localHeader] at hafter
  have hname : subarray archive (offset + 30) (offset + 30 + p.nameBytes.length) = p.nameBytes :=
    subarray_placed hafter.left
  have hdata : subarray archive (offset + 30 + p.nameBytes.length + 0)
      (offset + 30 + p.nameBytes.length + 0 + p.compressed.length) = p.compressed :=
    subarray_placed hafter.right
  have hsignature : readUInt32LE archive offset = .ok LOCAL_HEADER :=
    readUIntLE_field hplaced.left hfits 0 0 rfl (by simp [localFields])
  have hnameLength : readUInt16LE archive (offset + 26) = .ok p.nameBytes.length :=
    readUIntLE_field hplaced.left hfits 9 26 rfl (by simp [localFields])
  have hextraLength : readUInt16LE archive (offset + 28) = .ok 0 :=
    readUIntLE_field hplaced.left hfits 10 28 rfl (by simp [localFields])
  rw [compressedBytes, PackedEntry.directoryEntry]
  dsimp only
  rw [throwWhen_of_not (not_lt.mpr hroom), ok_bind, hsignature, ok_bind, throwWhen_of_not (not_not.mpr rfl), ok_bind,
    hnameLength, ok_bind, hextraLength, ok_bind, throwWhen_of_not (not_not.mpr hname), ok_bind, hdata,
    throwWhen_of_not (not_not.mpr rfl), ok_bind]
  rfl

-- ── The run of the reader ────────────────────────────────────────────────────────

/-- A limit that holds of a size holds of a smaller one. -/
theorem exceededBy_mono {limit : ByteLimit} {small large : ℕ} (hle : small ≤ large)
    (h : limit.exceededBy large = false) : limit.exceededBy small = false := by
  match limit, h with
  | none, _ => rfl
  | some (.infinity _), h => exact h
  | some (.fin bound _), h =>
      have hlarge : ¬ bound < (large : ℚ) := of_decide_eq_false h
      refine decide_eq_false fun hsmall => hlarge (lt_of_lt_of_le hsmall ?_)
      exact_mod_cast hle

/-- Limits that admit the entries. -/
structure Sufficient (options : ReadZipOptions) (entries : List ZipEntry) : Prop where
  each : ∀ entry ∈ entries, options.entryLimit.exceededBy entry.data.length = false
  together : options.totalLimit.exceededBy (dataBytes entries) = false

/-- `inflateRawSync` gives back what `deflateRawSync` made of some data, when it may give one byte more. -/
def Inverts (inflate : Inflate) (deflate : Deflate) (data : Bytes) : Prop :=
  inflate (deflate data) (data.length + 1) = .ok data

variable {inflate : Inflate}

/-- **The data of an entry is read as it was written.** -/
theorem entryData_written {entry : ZipEntry} (offset cursor : ℕ) (hinverts : Inverts inflate deflate entry.data) :
    entryData inflate ((packEntry deflate entry).directoryEntry offset cursor) (packEntry deflate entry).compressed
      = .ok entry.data := by
  have hexpand : expand inflate ((packEntry deflate entry).directoryEntry offset cursor)
      (packEntry deflate entry).compressed = .ok entry.data := by
    by_cases hhelps : (deflate entry.data).length < entry.data.length
    · have hmethod : (packEntry deflate entry).method = METHOD_DEFLATED := if_pos (decide_eq_true hhelps)
      have hcompressed : (packEntry deflate entry).compressed = deflate entry.data := if_pos (decide_eq_true hhelps)
      rw [expand, PackedEntry.directoryEntry, hmethod, if_neg (show METHOD_DEFLATED ≠ METHOD_STORED by decide),
        if_pos rfl, inflation, hcompressed]
      show Except.mapError _ (inflate (deflate entry.data) (entry.data.length + 1)) = _
      rw [hinverts]
      rfl
    · have hmethod : (packEntry deflate entry).method = METHOD_STORED := if_neg (fun h => hhelps (of_decide_eq_true h))
      have hcompressed : (packEntry deflate entry).compressed = entry.data :=
        if_neg (fun h => hhelps (of_decide_eq_true h))
      rw [expand, PackedEntry.directoryEntry, hmethod, if_pos rfl, hcompressed]
  have hlength : ((packEntry deflate entry).directoryEntry offset cursor).uncompressedSize = entry.data.length := rfl
  have hchecksum : ((packEntry deflate entry).directoryEntry offset cursor).checksum = crc32 entry.data := rfl
  rw [entryData, hexpand, ok_bind, hlength, hchecksum, throwWhen_of_not (not_not.mpr rfl), ok_bind,
    throwWhen_of_not (not_not.mpr rfl)]
  rfl

/-- **One turn of the reader on what one turn of the writer wrote.** -/
theorem locateEntry_written {options : ReadZipOptions} {archive : Bytes} {r : Reading} {entry : ZipEntry}
    {offset : ℕ} (index : ℕ) (hwhole : isWellFormed entry.name = true)
    (hcentral : PlacedAt archive r.cursor (centralRecord (packEntry deflate entry) offset))
    (hlocal : PlacedAt archive offset (localRecord (packEntry deflate entry)))
    (hcentralFits : ∀ f ∈ centralFields (packEntry deflate entry) offset, f.Fits)
    (hlocalFits : ∀ f ∈ localFields (packEntry deflate entry), f.Fits) (hfresh : entry.name ∉ r.names)
    (heach : options.entryLimit.exceededBy entry.data.length = false)
    (htotal : options.totalLimit.exceededBy (r.total + entry.data.length) = false) :
    locateEntry options archive index r = .ok ((packEntry deflate entry).directoryEntry offset r.cursor,
      (packEntry deflate entry).compressed) := by
  have hname : ((packEntry deflate entry).directoryEntry offset r.cursor).name = entry.name :=
    utf8Decode_utf8Encode hwhole
  have hadmit : admitEntry options r.names r.total ((packEntry deflate entry).directoryEntry offset r.cursor)
      = .ok () := by
    have hlimits : ¬ (options.entryLimit.exceededBy entry.data.length
        || options.totalLimit.exceededBy (r.total + entry.data.length)) = true := by
      rw [heach, htotal]
      exact Bool.false_ne_true
    have hflags : ((packEntry deflate entry).directoryEntry offset r.cursor).flags = 0 := rfl
    rw [admitEntry, hname, throwWhen_of_not hfresh, ok_bind, hflags,
      throwWhen_of_not (not_not.mpr (Nat.zero_and _)), ok_bind]
    exact throwWhen_of_not hlimits
  rw [locateEntry, readDirectoryEntry_written index hcentral hcentralFits, ok_bind, hadmit, ok_bind,
    compressedBytes_written hlocal hlocalFits, ok_bind]
  rfl

/-- The bytes of one entry before others. -/
theorem dataBytes_cons (entry : ZipEntry) (entries : List ZipEntry) :
    dataBytes (entry :: entries) = entry.data.length + dataBytes entries := by
  rw [dataBytes, List.map_cons, List.sum_cons]
  rfl

/-- **The reader gives back the entries that are left**, when their records stand where the directory puts them. -/
theorem readEntries_written {options : ReadZipOptions} {archive : Bytes} {entries : List ZipEntry} {offset : ℕ}
    {r : Reading} (index : ℕ) (hinverts : ∀ entry ∈ entries, Inverts inflate deflate entry.data)
    (hwhole : ∀ entry ∈ entries, isWellFormed entry.name = true)
    (hdirectory : PlacedAt archive r.cursor (directoryBytes deflate offset entries))
    (hlocals : PlacedAt archive offset (localRecords deflate entries))
    (hfits : ∀ f ∈ entryFields deflate offset entries, f.Fits) (hdistinct : (entries.map ZipEntry.name).Nodup)
    (hfresh : ∀ entry ∈ entries, entry.name ∉ r.names)
    (heach : ∀ entry ∈ entries, options.entryLimit.exceededBy entry.data.length = false)
    (htotal : options.totalLimit.exceededBy (r.total + dataBytes entries) = false) :
    (readEntries inflate options archive entries.length index r).1 = .ok (r.entries ++ entries) := by
  induction entries generalizing offset r index with
  | nil =>
      rw [List.append_nil]
      rfl
  | cons entry entries ih =>
      rw [List.forall_mem_cons] at hinverts hwhole hfresh heach
      rw [entryFields, List.forall_mem_append, List.forall_mem_append] at hfits
      rw [List.map_cons, List.nodup_cons] at hdistinct
      rw [dataBytes_cons, ← Nat.add_assoc] at htotal
      rw [localRecords, List.flatMap_cons] at hlocals
      have hlocated := locateEntry_written index hwhole.1 hdirectory.left hlocals.left hfits.2.1 hfits.1 hfresh.1
        heach.1 (exceededBy_mono (Nat.le_add_right _ _) htotal)
      have hdata := entryData_written offset r.cursor hinverts.1
      have hnext := hdirectory.right
      rw [length_centralRecord] at hnext
      rw [List.length_cons, readEntries, hlocated]
      dsimp only
      rw [hdata]
      dsimp only
      refine (ih (index + 1) hinverts.2 hwhole.2 hnext hlocals.right hfits.2.2 hdistinct.2 ?_ heach.2 htotal).trans ?_
      · intro other hother hthere
        rcases List.mem_cons.mp hthere with heq | hthere
        · rw [PackedEntry.directoryEntry, DirectoryEntry.name] at heq
          have hname : utf8Decode (utf8Encode entry.name) = entry.name := utf8Decode_utf8Encode hwhole.1
          exact hdistinct.1 (List.mem_map.mpr ⟨other, hother, heq.trans hname⟩)
        · exact hfresh.2 other hother hthere
      · have hname : ((packEntry deflate entry).directoryEntry offset r.cursor).name = entry.name :=
          utf8Decode_utf8Encode hwhole.1
        rw [Reading.after, hname, List.append_assoc]
        rfl

-- ── There and back ───────────────────────────────────────────────────────────────

/-- The end of the directory is 22 bytes. -/
theorem length_endRecord (count size offset : ℕ) : (fieldBytes (endFields count size offset)).length = 22 := by
  simp [length_fieldBytes, endFields]

/-- **The last record is found where it was written**, whatever bytes come before it. -/
theorem readEnd_written {archive before : Bytes} {count size offset : ℕ}
    (harchive : archive = before ++ fieldBytes (endFields count size offset))
    (hfits : ∀ f ∈ endFields count size offset, f.Fits) : readEnd archive = .ok (count, offset) := by
  have hlength : archive.length = before.length + 22 := by
    rw [harchive, List.length_append, length_endRecord]
  have hplaced : PlacedAt archive before.length (fieldBytes (endFields count size offset)) :=
    ⟨before, [], by rw [List.append_nil, harchive], rfl⟩
  have hsignature : readUInt32LE archive before.length = .ok END_OF_CENTRAL_DIRECTORY :=
    readUIntLE_field hplaced hfits 0 0 rfl rfl
  have hcount : readUInt16LE archive (before.length + 10) = .ok count :=
    readUIntLE_field hplaced hfits 4 10 rfl (by simp [endFields])
  have hoffset : readUInt32LE archive (before.length + 16) = .ok offset :=
    readUIntLE_field hplaced hfits 6 16 rfl (by simp [endFields])
  have hfind : findEndOfCentralDirectory archive = .ok before.length := by
    -- the scan starts at the last record, so no other is met
    have hsteps : archive.length - 22 + 1 - (archive.length - 22 - 0xffff)
        = (before.length - (before.length - 0xffff)) + 1 := by omega
    have hfirst : archive.length - 22 - 0xffff + (before.length - (before.length - 0xffff)) = before.length := by
      omega
    rw [findEndOfCentralDirectory, hsteps, scanBack, hfirst, hsignature, ok_bind, if_pos rfl]
    rfl
  rw [readEnd, throwWhen_of_not (by omega), ok_bind, hfind, ok_bind, hcount, ok_bind, hoffset, ok_bind]
  rfl

/-- **What is written reads back as it was, and a header that does not fit is not written**: where a number is past
    its field the writer throws; what it returns is laid out with numbers that fit; and a reader with sufficient
    limits returns the same entries of it. -/
theorem createZip_readZip (entries : List ZipEntry)
    (hinverts : ∀ entry ∈ entries, Inverts inflate deflate entry.data) :
    ((∃ f ∈ headerFields deflate entries, ¬ f.Fits) → ∃ thrown, createZip deflate entries = .error thrown) ∧
    ∀ archive, createZip deflate entries = .ok archive →
      archive = archiveBytes deflate entries ∧ (∀ f ∈ headerFields deflate entries, f.Fits) ∧
      ((∀ entry ∈ entries, isWellFormed entry.name = true) → ∀ options, Sufficient options entries →
        (readZip inflate options archive).1 = .ok entries) := by
  refine ⟨?_, ?_⟩
  · rintro ⟨f, hf, hunfit⟩
    cases hzip : createZip deflate entries with
    | error thrown => exact ⟨thrown, rfl⟩
    | ok archive => exact absurd ((createZip_ok hzip).2.1 f hf) hunfit
  · intro archive hzip
    obtain ⟨hdistinct, hfits, harchive⟩ := createZip_ok hzip
    refine ⟨harchive, hfits, fun hwhole options hoptions => ?_⟩
    rw [headerFields, List.forall_mem_append] at hfits
    rw [archiveBytes, ← List.append_assoc] at harchive
    have hend := readEnd_written harchive hfits.2
    rw [List.append_assoc] at harchive
    have hall : PlacedAt archive 0 (localRecords deflate entries ++ (directoryBytes deflate 0 entries
        ++ fieldBytes (lastFields deflate entries))) := harchive ▸ PlacedAt.self archive
    have hdirectory := hall.right.left
    rw [Nat.zero_add] at hdirectory
    rw [readZip, hend]
    exact readEntries_written 0 hinverts hwhole hdirectory hall.left hfits.1 hdistinct (fun _ _ h => (nomatch h))
      hoptions.each (by rw [Reading.start, Nat.zero_add]; exact hoptions.together)

/-- What `deflateRawSync` makes of ten letters, of a signature and of nothing. -/
def toyDeflations : List (Bytes × Bytes) :=
  [(List.replicate 10 0x61, [0x4B, 0x4C, 0x84, 1, 0]), ([0x50, 0x4B, 5, 6], [0x0B, 0xF0, 0x66, 0x65, 3, 0]), ([], [3, 0])]

/-- What they are deflated to. -/
def toyDeflate : Deflate := fun raw => (toyDeflations.lookup raw).getD raw

/-- What that inflates to, within a limit. -/
def toyInflate : Inflate := fun compressed limit =>
  match toyDeflations.find? fun pair => pair.2 == compressed with
  | none => .error (js "invalid stored block lengths")
  | some (raw, _) => if raw.length ≤ limit then .ok raw else .error (js "Cannot create a Buffer larger")

/-- An entry that is deflated, one that is stored and one with nothing in it. -/
def toyEntries : List ZipEntry :=
  [⟨js "a.txt", List.replicate 10 0x61⟩, ⟨js "b/c", [0x50, 0x4B, 5, 6]⟩, ⟨js "è", []⟩]

/-- Each is inflated to what it was. -/
theorem toyInflate_inverts : ∀ entry ∈ toyEntries, Inverts toyInflate toyDeflate entry.data := by
  intro entry hentry
  rw [toyEntries, List.mem_cons, List.mem_cons, List.mem_singleton] at hentry
  rcases hentry with rfl | rfl | rfl
  · rfl
  · rfl
  · rfl

/-- They are written and read back. -/
theorem createZip_readZip_toy : ∃ archive, createZip toyDeflate toyEntries = .ok archive ∧
    (∀ f ∈ headerFields toyDeflate toyEntries, f.Fits) ∧ (readZip toyInflate {} archive).1 = .ok toyEntries := by
  have hwritten : (createZip toyDeflate toyEntries).isOk = true := by decide +kernel
  cases hzip : createZip toyDeflate toyEntries with
  | error thrown =>
      rw [hzip] at hwritten
      cases hwritten
  | ok archive =>
      obtain ⟨-, hfits, hread⟩ := (createZip_readZip toyEntries toyInflate_inverts).2 archive hzip
      exact ⟨archive, rfl, hfits, hread (by decide) {} ⟨by decide +kernel, by decide +kernel⟩⟩

end Sigillo
