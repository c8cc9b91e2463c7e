import Sigillo.JsonText
import Sigillo.ChainEvents
import Mathlib.Data.List.DropRight

/-!
# The text of a document

What a document is looked up by: its bytes, its canonical text under `sigillo-text/1`, the bytes it would
have with other line endings, and the JSON string each of these would be. -/

namespace Sigillo

open Utf16Text JsonText

-- ── Decoding ─────────────────────────────────────────────────────────────────────

/-- `new TextDecoder("utf-8", { fatal: true, ignoreBOM: true })`: bytes are a text's where they are what the
    text is written as. -/
def sigilloDecodeUtf8 (bytes : Bytes) : Option JsString :=
  if utf8Encode (utf8Decode bytes) = bytes then some (utf8Decode bytes) else none

-- ── `sigillo-text/1` ─────────────────────────────────────────────────────────────

/-- Soft hyphen, zero-width space, word joiner, byte order mark. -/
def isRemoved (u : UInt16) : Bool := u == 0xAD || u == 0x200B || u == 0x2060 || u == 0xFEFF

/-- The White_Space property, listed in full. -/
def isWhiteSpace (u : UInt16) : Bool :=
  (0x9 ≤ u && u ≤ 0xD) || u == 0x20 || u == 0x85 || u == 0xA0 || u == 0x1680 || (0x2000 ≤ u && u ≤ 0x200A)
    || u == 0x2028 || u == 0x2029 || u == 0x202F || u == 0x205F || u == 0x3000

/-- Every run of white space becomes one space; within a run there is nothing left to write. -/
def collapseSpaces (inRun : Bool) : JsString → JsString
  | [] => []
  | u :: rest =>
      if isWhiteSpace u then
        if inRun then collapseSpaces true rest else 0x20 :: collapseSpaces true rest
      else u :: collapseSpaces false rest

/-- `.replace(/^ | $/g, "")`. -/
def trimSpaces (s : JsString) : JsString :=
  let s := if s.head? = some 0x20 then s.tail else s
  if s.getLast? = some 0x20 then s.dropLast else s

/-- What the steps of the rule make of a text. -/
def canonicalOf (u : Unicode) (text : JsString) : JsString :=
  trimSpaces (collapseSpaces false (u.normalize (text.filter fun unit => !isRemoved unit)))

/-- **The canonical text of a document**, if it has one. -/
def sigilloCanonicalText (u : Unicode) (bytes : Bytes) : Option JsString :=
  (sigilloDecodeUtf8 bytes).bind fun text =>
    let canonical := canonicalOf u text
    if canonical = [] then none else some canonical

-- ── Line endings ─────────────────────────────────────────────────────────────────

/-- The byte order mark. -/
def BOM : UInt16 := 0xFEFF

/-- A newline. -/
def LF : UInt16 := 0x0A

/-- A carriage return. -/
def CR : UInt16 := 0x0D

/-- `.replace(/^\uFEFF/, "")`. -/
def dropMark : JsString → JsString
  | [] => []
  | u :: rest => if u = BOM then rest else u :: rest

/-- `.replace(/\r\n?/g, "\n")`. -/
def unixLines : JsString → JsString
  | [] => []
  | [u] => [if u = CR then LF else u]
  | u :: v :: rest =>
      if u = CR then LF :: (if v = LF then unixLines rest else unixLines (v :: rest))
      else u :: unixLines (v :: rest)

/-- `.replace(/\n/g, "\r\n")`. -/
def windowsLines (s : JsString) : JsString := s.flatMap fun u => if u = LF then [CR, LF] else [u]

/-- What the variants of a text have in common. -/
def lineBody (text : JsString) : JsString := (unixLines (dropMark text)).rdropWhile (· == LF)

/-- The spellings of a body, in the order they are tried. -/
def lineSpellings (body : JsString) : List JsString := do
  let tail ← [[], [LF]]
  let crlf ← [false, true]
  let mark ← [[], [BOM]]
  return mark ++ if crlf then windowsLines (body ++ tail) else body ++ tail

/-- **The bytes a document would have with other line endings**, itself left out. -/
def sigilloLineEndingVariants (bytes : Bytes) : List Bytes :=
  match sigilloDecodeUtf8 bytes with
  | none => []
  | some text => ((lineSpellings (lineBody text)).map utf8Encode).foldl (fun variants encoded =>
      if encoded = bytes ∨ encoded ∈ variants then variants else variants ++ [encoded]) []

-- ── Fingerprints ─────────────────────────────────────────────────────────────────

/-- What a match means. -/
inductive FingerprintKind where
  | bytes | text | lines | json | jsonLines
deriving DecidableEq

/-- **Every byte string a lookup searches for**, and what a match on it means. -/
def sigilloFingerprintInputs (u : Unicode) (bytes : Bytes) : List (FingerprintKind × Bytes) :=
  let variants := sigilloLineEndingVariants bytes
  [(.bytes, bytes)] ++ ((sigilloCanonicalText u bytes).toList.map fun text => (.text, utf8Encode text))
    ++ (variants.map fun variant => (.lines, variant))
    ++ match sigilloDecodeUtf8 bytes with
      | none => []
      | some text => if text = [] then [] else
          (.json, utf8Encode (quote text)) ::
            variants.map fun variant => (.jsonLines, utf8Encode (((sigilloDecodeUtf8 variant).map quote).getD (js "null")))

-- ── Text and its bytes ───────────────────────────────────────────────────────────

/-- **The bytes of well-formed text decode to it.** -/
theorem sigilloDecodeUtf8_utf8Encode {s : JsString} (h : isWellFormed s = true) :
    sigilloDecodeUtf8 (utf8Encode s) = some s := by
  rw [sigilloDecodeUtf8, utf8Decode_utf8Encode h, if_pos rfl]

/-- Whatever is decoded is well-formed text, and these are its bytes. -/
theorem sigilloDecodeUtf8_eq_some {bytes : Bytes} {s : JsString} :
    sigilloDecodeUtf8 bytes = some s ↔ isWellFormed s = true ∧ utf8Encode s = bytes := by
  constructor
  · intro h
    rw [sigilloDecodeUtf8] at h
    split at h
    · rename_i hsame
      obtain rfl := Option.some.inj h
      refine ⟨?_, hsame⟩
      -- what is read back from bytes a text was written as is well-formed
      have hscalar : ∀ cp ∈ (points (utf8Decode bytes)).map fun cp => if isSurrogate cp then 0xFFFD else cp,
          cp < 0x110000 ∧ isSurrogate cp = false := by
        intro cp hcp
        obtain ⟨point, hpoint, rfl⟩ := List.mem_map.mp hcp
        by_cases hsur : isSurrogate point = true
        · rw [if_pos hsur]
          decide
        · rw [if_neg hsur]
          exact ⟨points_lt point hpoint, Bool.eq_false_iff.mpr hsur⟩
      have hback := utf8Decode_flatMap_encodePoint hscalar []
      rw [List.flatMap_map, List.append_nil, utf8Decode_nil, List.append_nil, ← utf8Encode, hsame] at hback
      rw [hback]
      exact isWellFormed_flatMap_unitsOf hscalar
    · cases h
  · rintro ⟨hwell, rfl⟩
    exact sigilloDecodeUtf8_utf8Encode hwell

end Sigillo
