import Sigillo.GenTimeText
import Sigillo.DerElements
import Sigillo.Placement

/-!
# The time a token attests

`genTimeOfToken` walks the nested elements of a token, by offsets into the one buffer, down to the contents of its
`genTime`.

* **`genTimeOfToken`** — the walk, with every offset it read beside its answer;
* **`element_some`**, **`element_of_placed`** — it finds the element that stands at an offset, or none;
* **`children_field`**, **`field_children`** — the children of an element are those its contents are made of;
* **`genTimeOfToken_inside`** — it reads inside the buffer. -/

namespace Sigillo

open DoubleArith Utf16Text JsonText Der Placement

-- ── Reading ──────────────────────────────────────────────────────────────────────

/-- A computation that may give `undefined`, and the offsets it read. -/
structure Scan (α : Type) where
  value : Option α
  reads : List ℕ

namespace Scan

instance : Monad Scan where
  pure a := ⟨some a, []⟩
  bind x f :=
    match x.value with
    | none => ⟨none, x.reads⟩
    | some a => ⟨(f a).value, x.reads ++ (f a).reads⟩

/-- Nothing is read. -/
def ofOption {α : Type} (value : Option α) : Scan α := ⟨value, []⟩

/-- `if (!wanted) return undefined`. -/
def guard (wanted : Prop) [Decidable wanted] : Scan Unit := ofOption (if wanted then some () else none)

/-- Two reads succeed exactly if the first does and the second does with what it gave. -/
theorem bind_eq_some {α β : Type} {x : Scan α} {f : α → Scan β} {b : β} :
    (x >>= f).value = some b ↔ ∃ a, x.value = some a ∧ (f a).value = some b := by
  obtain ⟨value, reads⟩ := x
  cases value with
  | none =>
      constructor
      · intro h
        cases h
      · rintro ⟨a, h, -⟩
        cases h
  | some a =>
      constructor
      · intro h
        exact ⟨a, rfl, h⟩
      · rintro ⟨_, h, hb⟩
        obtain rfl := Option.some.inj h
        exact hb

/-- A guard passes exactly where what is wanted holds. -/
theorem guard_eq_some {wanted : Prop} [Decidable wanted] {u : Unit} : (guard wanted).value = some u ↔ wanted := by
  by_cases h : wanted
  · exact ⟨fun _ => h, fun _ => if_pos h⟩
  · constructor
    · intro hsome
      rw [guard, ofOption, if_neg h] at hsome
      cases hsome
    · exact fun hw => absurd hw h

/-- Every offset read is below a bound. -/
def Inside {α : Type} (x : Scan α) (bound : ℕ) : Prop := ∀ i ∈ x.reads, i < bound

/-- Two reads inside are inside together. -/
theorem Inside.bind {α β : Type} {x : Scan α} {f : α → Scan β} {bound : ℕ} (hx : x.Inside bound)
    (hf : ∀ a, x.value = some a → (f a).Inside bound) : (x >>= f).Inside bound := by
  obtain ⟨value, reads⟩ := x
  cases value with
  | none => exact hx
  | some a =>
      intro i hi
      rcases List.mem_append.mp hi with hi | hi
      · exact hx i hi
      · exact hf a rfl i hi

/-- Where nothing is read, nothing outside is. -/
theorem inside_ofOption {α : Type} (value : Option α) (bound : ℕ) : (ofOption value).Inside bound :=
  fun _ h => nomatch h

end Scan

/-- `bytes[offset] ?? 0`. -/
def byteAt (bytes : Bytes) (offset : ℕ) : Scan UInt8 := ⟨some (bytes[offset]?.getD 0), [offset]⟩

/-- `bytes[start + index] ?? 0` for each index below a count. -/
def bytesAt (bytes : Bytes) (start count : ℕ) : Scan Bytes :=
  ⟨some ((List.range count).map fun index => bytes[start + index]?.getD 0), (List.range count).map (start + ·)⟩

-- ── Elements ─────────────────────────────────────────────────────────────────────

/-- A tag, and where the contents start and end in the whole buffer. -/
structure Element where
  tag : UInt8
  start : ℕ
  stop : ℕ
deriving DecidableEq

/-- An element whose contents start somewhere, if it ends within the limit. -/
def elementFrom (tag : UInt8) (start length limit : ℕ) : Scan Element :=
  Scan.ofOption (if limit < start + length then none else some ⟨tag, start, start + length⟩)

/-- **`element`**: tag and length at an offset, inside a limit. -/
def element (bytes : Bytes) (offset limit : ℕ) : Scan Element := do
  Scan.guard (offset + 2 ≤ limit)
  let tag ← byteAt bytes offset
  let length ← byteAt bytes (offset + 1)
  let start := offset + 2
  if length &&& 0x80 = 0 then elementFrom tag start length.toNat limit
  else do
    let octets := (length &&& 0x7F).toNat
    Scan.guard (octets ≠ 0 ∧ octets ≤ 4 ∧ start + octets ≤ limit)
    let read ← bytesAt bytes start octets
    elementFrom tag (start + octets) (read.foldl (fun length byte => length * 256 + byte.toNat) 0) limit

/-- The short form of a length. -/
theorem byte_short (l : UInt8) : l &&& 0x80 = 0 ↔ l.toNat < 128 := by
  have hall : ∀ i : Fin 256, (UInt8.ofFin i &&& 0x80 = 0 ↔ i.val < 128) := by decide +kernel
  exact hall l.toFin

/-- The long form of a length, with its number of octets. -/
theorem byte_long (l : UInt8) (h : ¬ l.toNat < 128) : l.toNat = 128 + (l &&& 0x7F).toNat := by
  have hall : ∀ i : Fin 256, ¬ i.val < 128 → i.val = 128 + (UInt8.ofFin i &&& 0x7F).toNat := by decide +kernel
  exact hall l.toFin h

/-- An element ends inside its limit. -/
theorem elementFrom_eq_some {tag : UInt8} {start length limit : ℕ} {e : Element} :
    (elementFrom tag start length limit).value = some e ↔ start + length ≤ limit ∧ e = ⟨tag, start, start + length⟩ := by
  show (if limit < start + length then none else some _) = some e ↔ _
  by_cases h : limit < start + length
  · rw [if_pos h]
    exact ⟨fun hsome => (nomatch hsome), fun hle => absurd hle.1 (not_le.mpr h)⟩
  · rw [if_neg h]
    exact ⟨fun hsome => ⟨not_lt.mp h, (Option.some.inj hsome).symm⟩, fun heq => congrArg some heq.2.symm⟩

/-- **An element ends after it begins, and within the limit.** -/
theorem element_stop {bytes : Bytes} {offset limit : ℕ} {e : Element}
    (h : (element bytes offset limit).value = some e) : offset < e.start ∧ e.start ≤ e.stop ∧ e.stop ≤ limit := by
  obtain ⟨_, -, h⟩ := Scan.bind_eq_some.mp h
  obtain ⟨tag, -, h⟩ := Scan.bind_eq_some.mp h
  obtain ⟨length, -, h⟩ := Scan.bind_eq_some.mp h
  by_cases hshort : length &&& 0x80 = 0
  · rw [if_pos hshort] at h
    obtain ⟨hle, rfl⟩ := elementFrom_eq_some.mp h
    exact ⟨by show offset < offset + 2; omega, Nat.le_add_right _ _, hle⟩
  · rw [if_neg hshort] at h
    obtain ⟨_, -, h⟩ := Scan.bind_eq_some.mp h
    obtain ⟨read, -, h⟩ := Scan.bind_eq_some.mp h
    obtain ⟨hle, rfl⟩ := elementFrom_eq_some.mp h
    refine ⟨?_, Nat.le_add_right _ _, hle⟩
    show offset < offset + 2 + _
    omega

/-- The loop of `children`, from an offset on. -/
def childrenFrom (bytes : Bytes) (limit offset : ℕ) (found : List Element) : Scan (List Element) :=
  if offset < limit then
    match hchild : (element bytes offset limit).value with
    | none => ⟨some [], (element bytes offset limit).reads⟩
    | some child =>
        let rest := childrenFrom bytes limit child.stop (found ++ [child])
        ⟨rest.value, (element bytes offset limit).reads ++ rest.reads⟩
  else ⟨some found, []⟩
termination_by limit - offset
decreasing_by
  have hstop := element_stop hchild
  omega

/-- The children of an element, in order; none where one of them is malformed. -/
def children (bytes : Bytes) (parent : Element) : Scan (List Element) :=
  childrenFrom bytes parent.stop parent.start []

-- ── The walk ─────────────────────────────────────────────────────────────────────

/-- The tag of a sequence. -/
def SEQUENCE : UInt8 := 0x30

/-- The tag of an object identifier. -/
def OID : UInt8 := 0x06

/-- The tag of the context's `[0]`. -/
def EXPLICIT_0 : UInt8 := 0xA0

/-- The tag of an octet string. -/
def OCTET_STRING : UInt8 := 0x04

/-- The tag of a time. -/
def GENERALIZED_TIME : UInt8 := 0x18

/-- `if (element?.tag !== tag) return undefined`. -/
def tagged (tag : UInt8) (e : Option Element) : Scan Element := .ofOption (e.filter fun e => e.tag == tag)

/-- `token.subarray(start, stop)`. -/
def contentsOf (token : Bytes) (e : Element) : Scan Bytes :=
  ⟨some ((token.drop e.start).take (e.stop - e.start)), List.range' e.start (e.stop - e.start)⟩

/-- A response starts with the status, a bare token with an identifier. -/
def contentInfoOf (outer : Element) (fields : List Element) : Option Element :=
  if fields[0]?.any (fun first => first.tag == SEQUENCE) then fields[1]? else some outer

/-- **`genTimeOfToken`**. -/
def genTimeOfToken (token : Bytes) : Scan JsString := do
  let outer ← element token 0 token.length
  let outer ← tagged SEQUENCE (some outer)
  Scan.guard (outer.stop = token.length)
  let fields ← children token outer
  let contentInfo ← tagged SEQUENCE (contentInfoOf outer fields)
  let infoFields ← children token contentInfo
  let _contentType ← tagged OID infoFields[0]?
  let content ← tagged EXPLICIT_0 infoFields[1]?
  let signedData ← tagged SEQUENCE (← children token content)[0]?
  let encap ← tagged SEQUENCE (← children token signedData)[2]?
  let eContent ← tagged EXPLICIT_0 (← children token encap)[1]?
  let octets ← tagged OCTET_STRING (← children token eContent)[0]?
  let tstInfo ← element token octets.start octets.stop
  let tstInfo ← tagged SEQUENCE (some tstInfo)
  let genTime ← tagged GENERALIZED_TIME (← children token tstInfo)[4]?
  let value ← contentsOf token genTime
  .ofOption (isoOfGenTime (textDecode value))

-- ── What an element is read as ───────────────────────────────────────────────────

/-- Where an element is, of one that stands at an offset. -/
def elementAt (t : Tlv) (offset : ℕ) : Element :=
  ⟨t.tag, offset + t.headerSize, offset + t.headerSize + t.content.length⟩

/-- A byte behind others. -/
theorem getElem?_append_add (before after : Bytes) (i : ℕ) : (before ++ after)[before.length + i]? = after[i]? := by
  rw [List.getElem?_append_right (Nat.le_add_right _ _), Nat.add_sub_cancel_left]

/-- The first bytes, one by one. -/
theorem map_getElem?_range {bytes : Bytes} {count : ℕ} (h : count ≤ bytes.length) :
    (List.range count).map (fun index => bytes[index]?.getD 0) = bytes.take count := by
  refine List.ext_getElem ?_ fun i hi hi' => ?_
  · rw [List.length_map, List.length_range, List.length_take, Nat.min_eq_left h]
  · rw [List.length_map, List.length_range] at hi
    rw [List.getElem_map, List.getElem_range, List.getElem_take, List.getElem?_eq_getElem (hi.trans_le h),
      Option.getD_some]

/-- The octets of a long length, where they stand. -/
theorem bytesAt_placed {before octets after : Bytes} {first second : UInt8} :
    (bytesAt (before ++ first :: second :: (octets ++ after)) (before.length + 2) octets.length).value
      = some octets := by
  have hread : ∀ index, (before ++ first :: second :: (octets ++ after))[before.length + 2 + index]?
      = (octets ++ after)[index]? := by
    intro index
    rw [Nat.add_assoc, getElem?_append_add, Nat.add_comm 2 index]
    rfl
  rw [bytesAt]
  simp only [hread]
  rw [map_getElem?_range (by rw [List.length_append]; omega), List.take_left]

/-- A header that stands at an offset is read, whatever follows it. -/
theorem element_of_header (before rest : Bytes) (tag : UInt8) {lengthOctets : Bytes} {n limit : ℕ}
    (h : SpellsLength lengthOctets n) (hlimit : before.length + (1 + lengthOctets.length) + n ≤ limit) :
    (element (before ++ tag :: (lengthOctets ++ rest)) before.length limit).value
      = some ⟨tag, before.length + (1 + lengthOctets.length), before.length + (1 + lengthOctets.length) + n⟩ := by
  have hpos := h.length_pos
  have htag : (byteAt (before ++ tag :: (lengthOctets ++ rest)) before.length).value = some tag := by
    rw [byteAt, ← Nat.add_zero before.length, getElem?_append_add]
    rfl
  refine Scan.bind_eq_some.mpr ⟨(), Scan.guard_eq_some.mpr (by omega), ?_⟩
  refine Scan.bind_eq_some.mpr ⟨tag, htag, ?_⟩
  cases h with
  | short l hl =>
      have hlength : (byteAt (before ++ tag :: ([l] ++ rest)) (before.length + 1)).value = some l := by
        rw [byteAt, getElem?_append_add]
        rfl
      refine Scan.bind_eq_some.mpr ⟨l, hlength, ?_⟩
      rw [if_pos ((byte_short l).mpr hl)]
      exact elementFrom_eq_some.mpr ⟨hlimit, rfl⟩
  | long l octets hl hlow hfour =>
      rw [List.length_cons] at hlimit ⊢
      have hlength : (byteAt (before ++ tag :: (l :: octets ++ rest)) (before.length + 1)).value = some l := by
        rw [byteAt, getElem?_append_add]
        rfl
      have hmany : (l &&& 0x7F).toNat = octets.length := by
        have := byte_long l (by omega)
        omega
      refine Scan.bind_eq_some.mpr ⟨l, hlength, ?_⟩
      rw [if_neg (fun hshort => absurd ((byte_short l).mp hshort) (by omega)), hmany]
      refine Scan.bind_eq_some.mpr ⟨(), Scan.guard_eq_some.mpr ⟨by omega, hfour, by omega⟩, ?_⟩
      refine Scan.bind_eq_some.mpr ⟨octets, bytesAt_placed, ?_⟩
      have hvalue : octets.foldl (fun length byte => length * 256 + byte.toNat) 0 = bigEndian octets := rfl
      have hstart : before.length + (1 + (octets.length + 1)) = before.length + 2 + octets.length := by omega
      rw [hvalue, hstart]
      exact elementFrom_eq_some.mpr ⟨by omega, rfl⟩

/-- **An element that stands at an offset is found there.** -/
theorem element_of_placed {token : Bytes} {offset limit : ℕ} {t : Tlv} (h : PlacedAt token offset t.bytes)
    (hlimit : offset + t.bytes.length ≤ limit) : (element token offset limit).value = some (elementAt t offset) := by
  obtain ⟨before, after, rfl, rfl⟩ := h
  rw [t.length_bytes, ← Nat.add_assoc] at hlimit
  have hfound := element_of_header before (t.content ++ after) t.tag t.spelled hlimit
  rw [← List.append_assoc] at hfound
  exact hfound

/-- **What is found is an element that stands there**, within the limit. -/
theorem element_some {token : Bytes} {offset limit : ℕ} {e : Element} (hlimit : limit ≤ token.length)
    (h : (element token offset limit).value = some e) :
    ∃ t : Tlv, PlacedAt token offset t.bytes ∧ offset + t.bytes.length ≤ limit ∧ e = elementAt t offset := by
  obtain ⟨_, hroom, h⟩ := Scan.bind_eq_some.mp h
  have hroom := Scan.guard_eq_some.mp hroom
  obtain ⟨before, rest, rfl, rfl⟩ : ∃ before rest, token = before ++ rest ∧ before.length = offset :=
    ⟨token.take offset, token.drop offset, (List.take_append_drop _ _).symm, by rw [List.length_take]; omega⟩
  rw [List.length_append] at hlimit
  match rest, hlimit with
  | [], hlimit => rw [List.length_nil] at hlimit; omega
  | [_], hlimit => rw [List.length_singleton] at hlimit; omega
  | tag :: l :: rest, hlimit =>
      rw [List.length_cons, List.length_cons] at hlimit
      obtain ⟨tag', htag, h⟩ := Scan.bind_eq_some.mp h
      rw [byteAt, ← Nat.add_zero before.length, getElem?_append_add] at htag
      obtain rfl : tag = tag' := Option.some.inj htag
      obtain ⟨l', hl, h⟩ := Scan.bind_eq_some.mp h
      rw [byteAt, Nat.add_zero, getElem?_append_add] at hl
      obtain rfl : l = l' := Option.some.inj hl
      by_cases hshort : l &&& 0x80 = 0
      · rw [if_pos hshort] at h
        obtain ⟨hle, rfl⟩ := elementFrom_eq_some.mp h
        have hlength : (rest.take l.toNat).length = l.toNat := by
          rw [List.length_take]
          omega
        have hspelled : SpellsLength [l] (rest.take l.toNat).length := by
          rw [hlength]
          exact .short l ((byte_short l).mp hshort)
        refine ⟨⟨tag, [l], rest.take l.toNat, hspelled⟩, ⟨before, rest.drop l.toNat, ?_, rfl⟩, ?_, ?_⟩
        · show before ++ tag :: l :: rest = before ++ tag :: ([l] ++ rest.take l.toNat ++ rest.drop l.toNat)
          rw [List.append_assoc, List.take_append_drop]
          rfl
        · rw [Tlv.length_bytes, hlength, ← Nat.add_assoc]
          exact hle
        · rw [elementAt, hlength]
          rfl
      · rw [if_neg hshort] at h
        obtain ⟨_, hoctets, h⟩ := Scan.bind_eq_some.mp h
        obtain ⟨hpos, hfour, hin⟩ := Scan.guard_eq_some.mp hoctets
        obtain ⟨read, hread, h⟩ := Scan.bind_eq_some.mp h
        have hlong := byte_long l (fun hlt => hshort ((byte_short l).mpr hlt))
        generalize (l &&& 0x7F).toNat = many at *
        obtain ⟨octets, content, rfl, rfl⟩ : ∃ octets content, rest = octets ++ content ∧ octets.length = many :=
          ⟨rest.take many, rest.drop many, (List.take_append_drop _ _).symm, by rw [List.length_take]; omega⟩
        rw [bytesAt_placed] at hread
        obtain rfl : octets = read := Option.some.inj hread
        obtain ⟨hle, rfl⟩ := elementFrom_eq_some.mp h
        have hvalue : octets.foldl (fun length byte => length * 256 + byte.toNat) 0 = bigEndian octets := rfl
        rw [hvalue] at hle ⊢
        rw [List.length_append] at hlimit
        have hlength : (content.take (bigEndian octets)).length = bigEndian octets := by
          rw [List.length_take]
          omega
        have hspelled : SpellsLength (l :: octets) (content.take (bigEndian octets)).length := by
          rw [hlength]
          exact .long l octets hlong (by omega) hfour
        have hheader : before.length + (1 + (octets.length + 1)) = before.length + 2 + octets.length := by omega
        refine ⟨⟨tag, l :: octets, content.take (bigEndian octets), hspelled⟩,
          ⟨before, content.drop (bigEndian octets), ?_, rfl⟩, ?_, ?_⟩
        · show before ++ tag :: l :: (octets ++ content)
            = before ++ tag :: (l :: octets ++ content.take (bigEndian octets) ++ content.drop (bigEndian octets))
          rw [List.append_assoc, List.take_append_drop]
          rfl
        · rw [Tlv.length_bytes, hlength, Tlv.headerSize, List.length_cons, ← Nat.add_assoc, hheader]
          exact hle
        · rw [elementAt, hlength, Tlv.headerSize, List.length_cons, hheader]

-- ── The children of an element ───────────────────────────────────────────────────

/-- Where the elements are that stand one after the other from an offset on. -/
def positions : ℕ → List Tlv → List Element
  | _, [] => []
  | offset, t :: ts => elementAt t offset :: positions (offset + t.bytes.length) ts

/-- Elements that are there are found. -/
theorem childrenFrom_of_placed {token : Bytes} {offset limit : ℕ} {found : List Element} {ts : List Tlv}
    (h : PlacedAt token offset (flatten ts)) (hlimit : limit = offset + (flatten ts).length) :
    (childrenFrom token limit offset found).value = some (found ++ positions offset ts) := by
  induction ts generalizing offset found with
  | nil =>
      rw [flatten_nil, List.length_nil, Nat.add_zero] at hlimit
      rw [childrenFrom, if_neg (by omega), positions, List.append_nil]
  | cons t ts ih =>
      rw [flatten_cons] at h hlimit
      rw [List.length_append] at hlimit
      have hsize := t.length_bytes
      have hheader := t.headerSize_ge
      have hfirst := element_of_placed h.left (show offset + t.bytes.length ≤ limit by omega)
      have hstop : (elementAt t offset).stop = offset + t.bytes.length := by
        rw [elementAt, hsize, Nat.add_assoc]
      rw [childrenFrom, if_pos (by omega)]
      split
      · rename_i hnone
        rw [hfirst] at hnone
        cases hnone
      · rename_i child hchild
        obtain rfl := Option.some.inj (hfirst.symm.trans hchild)
        rw [hstop]
        refine (ih h.right (by omega)).trans ?_
        rw [List.append_assoc]
        rfl

/-- What is found is there. -/
theorem childrenFrom_some {token : Bytes} {offset limit : ℕ} {found es : List Element} (hlimit : limit ≤ token.length)
    (hoffset : offset ≤ limit) (h : (childrenFrom token limit offset found).value = some es) :
    es = [] ∨ ∃ ts, PlacedAt token offset (flatten ts) ∧ offset + (flatten ts).length = limit ∧
      es = found ++ positions offset ts := by
  induction hn : limit - offset using Nat.strong_induction_on generalizing offset found with
  | _ n ih =>
      rw [childrenFrom] at h
      by_cases hmore : offset < limit
      · rw [if_pos hmore] at h
        split at h
        · exact .inl (Option.some.inj h).symm
        · rename_i child hchild
          obtain ⟨t, hplaced, hroom, rfl⟩ := element_some hlimit hchild
          have hsize := t.length_bytes
          have hheader := t.headerSize_ge
          have hstop : (elementAt t offset).stop = offset + t.bytes.length := by
            rw [elementAt, hsize, Nat.add_assoc]
          rw [hstop] at h
          rcases ih _ (by omega) (by omega) h rfl with hnone | ⟨ts, hrest, hend, rfl⟩
          · exact .inl hnone
          · refine .inr ⟨t :: ts, hplaced.append hrest, ?_, ?_⟩
            · rw [flatten_cons, List.length_append]
              omega
            · rw [List.append_assoc]
              rfl
      · rw [if_neg hmore] at h
        refine .inr ⟨[], ?_, ?_, ?_⟩
        · refine ⟨token.take offset, token.drop offset, ?_, ?_⟩
          · exact (List.take_append_drop _ _).symm
          · rw [List.length_take]
            omega
        · rw [flatten_nil, List.length_nil]
          omega
        · rw [positions, List.append_nil]
          exact (Option.some.inj h).symm

/-- The contents of an element, where they stand. -/
structure Spans (token : Bytes) (e : Element) (content : Bytes) : Prop where
  placed : PlacedAt token e.start content
  stop : e.stop = e.start + content.length

/-- An element ends inside the token. -/
theorem Spans.le_length {token : Bytes} {e : Element} {content : Bytes} (h : Spans token e content) :
    e.stop ≤ token.length := by
  rw [h.stop]
  exact h.placed.le_length

/-- An element that is there spans its content. -/
theorem spans_elementAt {token : Bytes} {offset : ℕ} {t : Tlv} (h : PlacedAt token offset t.bytes) :
    Spans token (elementAt t offset) t.content := by
  refine ⟨?_, rfl⟩
  have hbytes : t.bytes = (t.tag :: t.lengthOctets) ++ t.content := rfl
  rw [hbytes] at h
  have hat := h.right
  rw [List.length_cons, Nat.add_comm t.lengthOctets.length 1] at hat
  exact hat

/-- Number `k` of the elements is where number `k` of the positions says. -/
theorem positions_getElem? {token : Bytes} {offset k : ℕ} {ts : List Tlv} (h : PlacedAt token offset (flatten ts)) :
    (∀ t, ts[k]? = some t → ∃ e, (positions offset ts)[k]? = some e ∧ e.tag = t.tag ∧ Spans token e t.content) ∧
    ∀ e, (positions offset ts)[k]? = some e → ∃ t, ts[k]? = some t ∧ e.tag = t.tag ∧ Spans token e t.content := by
  induction ts generalizing offset k with
  | nil => exact ⟨fun t ht => (nomatch ht), fun e he => (nomatch he)⟩
  | cons first ts ih =>
      cases k with
      | zero =>
          constructor
          · intro t ht
            obtain rfl : first = t := Option.some.inj ht
            exact ⟨elementAt first offset, rfl, rfl, spans_elementAt h.left⟩
          · intro e he
            obtain rfl : elementAt first offset = e := Option.some.inj he
            exact ⟨first, rfl, rfl, spans_elementAt h.left⟩
      | succ k => exact ih h.right

/-- **A child of an element is one of those its contents are made of.** -/
theorem children_field {token content : Bytes} {parent e : Element} {es : List Element} {k : ℕ}
    (h : Spans token parent content) (hes : (children token parent).value = some es) (he : es[k]? = some e) :
    ∃ inner, Field content k e.tag inner ∧ Spans token e inner := by
  have hstop := h.stop
  rcases childrenFrom_some h.le_length (by omega) hes with rfl | ⟨ts, hplaced, hend, rfl⟩
  · cases he
  · have hcontent : content = flatten ts := by
      have hread := h.placed.take_drop
      rw [show content.length = (flatten ts).length by omega, hplaced.take_drop] at hread
      exact hread.symm
    rw [List.nil_append] at he
    obtain ⟨t, ht, htag, hspans⟩ := (positions_getElem? hplaced).2 e he
    exact ⟨t.content, ⟨ts, hcontent, t, ht, htag.symm, rfl⟩, hspans⟩

/-- **One of the elements its contents are made of is a child of it.** -/
theorem field_children {token content inner : Bytes} {parent : Element} {k : ℕ} {tag : UInt8}
    (h : Spans token parent content) (hfield : Field content k tag inner) :
    ∃ es e, (children token parent).value = some es ∧ es[k]? = some e ∧ e.tag = tag ∧ Spans token e inner := by
  obtain ⟨ts, rfl, t, ht, rfl, rfl⟩ := hfield
  obtain ⟨e, he, htag, hspans⟩ := (positions_getElem? h.placed).1 t ht
  refine ⟨_, e, childrenFrom_of_placed h.placed h.stop, ?_, htag, hspans⟩
  rw [List.nil_append]
  exact he

-- ── Inside the buffer ────────────────────────────────────────────────────────────

/-- Nothing is read to place an element. -/
theorem elementFrom_inside (tag : UInt8) (start length limit bound : ℕ) :
    (elementFrom tag start length limit).Inside bound := fun _ h => nomatch h

/-- An element is read inside its limit. -/
theorem element_inside {token : Bytes} {offset limit bound : ℕ} (h : limit ≤ bound) :
    (element token offset limit).Inside bound := by
  refine (Scan.inside_ofOption _ _).bind fun _ hroom => ?_
  have hroom := Scan.guard_eq_some.mp hroom
  have hbyte : ∀ i, i < limit → (byteAt token i).Inside bound := by
    intro i hi j hj
    rw [List.mem_singleton.mp hj]
    omega
  refine (hbyte offset (by omega)).bind fun tag _ => ?_
  refine (hbyte (offset + 1) (by omega)).bind fun length _ => ?_
  by_cases hshort : length &&& 0x80 = 0
  · rw [if_pos hshort]
    exact elementFrom_inside _ _ _ _ _
  · rw [if_neg hshort]
    refine (Scan.inside_ofOption _ _).bind fun _ hoctets => ?_
    obtain ⟨-, -, hin⟩ := Scan.guard_eq_some.mp hoctets
    refine Scan.Inside.bind ?_ fun read _ => elementFrom_inside _ _ _ _ _
    intro i hi
    obtain ⟨index, hindex, rfl⟩ := List.mem_map.mp hi
    rw [List.mem_range] at hindex
    omega

/-- Children are read inside their limit. -/
theorem childrenFrom_inside {token : Bytes} {offset limit bound : ℕ} {found : List Element} (h : limit ≤ bound)
    (hfound : ∀ e ∈ found, e.stop ≤ bound) :
    (childrenFrom token limit offset found).Inside bound ∧
      ∀ es, (childrenFrom token limit offset found).value = some es → ∀ e ∈ es, e.stop ≤ bound := by
  induction hn : limit - offset using Nat.strong_induction_on generalizing offset found with
  | _ n ih =>
      rw [childrenFrom]
      by_cases hmore : offset < limit
      · rw [if_pos hmore]
        have hread : (element token offset limit).Inside bound := element_inside h
        split
        · refine ⟨hread, fun es hes e he => ?_⟩
          obtain rfl := Option.some.inj hes
          cases he
        · rename_i child hchild
          have hstop := element_stop hchild
          have hfound' : ∀ e ∈ found ++ [child], e.stop ≤ bound := by
            intro e he
            rcases List.mem_append.mp he with he | he
            · exact hfound e he
            · rw [List.mem_singleton.mp he]
              omega
          obtain ⟨hinside, hends⟩ := ih (limit - child.stop) (by omega) hfound' rfl
          refine ⟨fun i hi => ?_, hends⟩
          rcases List.mem_append.mp hi with hi | hi
          · exact hread i hi
          · exact hinside i hi
      · rw [if_neg hmore]
        refine ⟨fun i hi => (nomatch hi), fun es hes => ?_⟩
        obtain rfl := Option.some.inj hes
        exact hfound

/-- Children are read inside their parent, and end there. -/
theorem children_inside {token : Bytes} {parent : Element} {bound : ℕ} (h : parent.stop ≤ bound) :
    (children token parent).Inside bound ∧
      ∀ es, (children token parent).value = some es → ∀ e ∈ es, e.stop ≤ bound :=
  childrenFrom_inside h (fun _ he => nomatch he)

/-- An element passes exactly if it has the tag. -/
theorem tagged_eq_some {tag : UInt8} {e : Option Element} {e' : Element} :
    (tagged tag e).value = some e' ↔ e = some e' ∧ e'.tag = tag := by
  show e.filter (fun e => e.tag == tag) = some e' ↔ _
  rw [Option.filter_eq_some_iff, beq_iff_eq]

/-- Nothing is read to compare a tag. -/
theorem tagged_inside {tag : UInt8} {e : Option Element} {bound : ℕ} : (tagged tag e).Inside bound :=
  Scan.inside_ofOption _ _

/-- A child that is wanted ends inside the buffer too. -/
theorem tagged_stop {tag : UInt8} {es : List Element} {k bound : ℕ} {e : Element} (hes : ∀ e ∈ es, e.stop ≤ bound)
    (h : (tagged tag es[k]?).value = some e) : e.stop ≤ bound :=
  hes e (List.mem_of_getElem? (tagged_eq_some.mp h).1)

/-- **It reads inside the buffer**, whatever the bytes. -/
theorem genTimeOfToken_inside (token : Bytes) : (genTimeOfToken token).Inside token.length := by
  refine (element_inside (Nat.le_refl _)).bind fun outer houter => ?_
  have houter := (element_stop houter).2.2
  refine tagged_inside.bind fun outer' houter' => ?_
  obtain ⟨heq, -⟩ := tagged_eq_some.mp houter'
  obtain rfl := Option.some.inj heq
  refine (Scan.inside_ofOption _ _).bind fun _ _ => ?_
  refine (children_inside houter).1.bind fun fields hfields => ?_
  have hfields := (children_inside houter).2 fields hfields
  refine tagged_inside.bind fun contentInfo hinfo => ?_
  have hinfo : contentInfo.stop ≤ token.length := by
    obtain ⟨hof, -⟩ := tagged_eq_some.mp hinfo
    rw [contentInfoOf] at hof
    split_ifs at hof
    · exact hfields contentInfo (List.mem_of_getElem? hof)
    · rw [← Option.some.inj hof]
      exact houter
  refine (children_inside hinfo).1.bind fun infoFields hinfoFields => ?_
  have hinfoFields := (children_inside hinfo).2 infoFields hinfoFields
  refine tagged_inside.bind fun _ _ => ?_
  refine tagged_inside.bind fun content hcontent => ?_
  have hcontent := tagged_stop hinfoFields hcontent
  have hstep : ∀ {tag : UInt8} {k : ℕ} {parent : Element} {β : Type} {f : Element → Scan β},
      parent.stop ≤ token.length → (∀ e : Element, e.stop ≤ token.length → (f e).Inside token.length) →
      (children token parent >>= fun es => tagged tag es[k]? >>= f).Inside token.length := by
    intro tag k parent β f hparent hf
    refine (children_inside hparent).1.bind fun es hes => tagged_inside.bind fun e he => ?_
    exact hf e (tagged_stop ((children_inside hparent).2 es hes) he)
  refine hstep hcontent fun signedData hsignedData => ?_
  refine hstep hsignedData fun encap hencap => ?_
  refine hstep hencap fun eContent heContent => ?_
  refine hstep heContent fun octets hoctets => ?_
  refine (element_inside hoctets).bind fun tstInfo htst => ?_
  have htst := (element_stop htst).2.2
  refine tagged_inside.bind fun tstInfo' htst' => ?_
  obtain ⟨heq, -⟩ := tagged_eq_some.mp htst'
  obtain rfl := Option.some.inj heq
  refine hstep (htst.trans hoctets) fun genTime hgenTime => ?_
  refine Scan.Inside.bind ?_ fun _ _ => Scan.inside_ofOption _ _
  intro i hi
  have hi := List.mem_range'_1.mp hi
  omega

end Sigillo
