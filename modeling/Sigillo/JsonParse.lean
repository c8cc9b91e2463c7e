import Sigillo.JsonText

/-!
# `JSON.parse`

The JSON grammar over code units, as a recursive descent on fuel that the length of the
text always covers.  A repeated member name keeps its first place and takes its last value,
as the object `JSON.parse` builds does. -/

namespace JsonParse

open DoubleArith Utf16Text JsonText

-- ── The grammar ──────────────────────────────────────────────────────────────────

/-- A blank of JSON. -/
def isWs (u : UInt16) : Bool := u == 0x20 || u == 0x09 || u == 0x0A || u == 0x0D

/-- What follows the blanks. -/
def skipWs (s : JsString) : JsString := s.dropWhile isWs

/-- A decimal digit. -/
def isDigit (u : UInt16) : Bool := decide (0x30 ≤ u.toNat ∧ u.toNat ≤ 0x39)

/-- The natural a run of digits denotes. -/
def digitsValue (ds : JsString) : ℕ := ds.foldl (fun acc u => acc * 10 + (u.toNat - 0x30)) 0

/-- A fraction part, when there is one. -/
def parseFraction : JsString → Option (JsString × JsString)
  | [] => some ([], [])
  | u :: rest =>
      if u = 0x2E then
        if rest.takeWhile isDigit = [] then none
        else some (rest.takeWhile isDigit, rest.dropWhile isDigit)
      else some ([], u :: rest)

/-- The sign of an exponent. -/
def parseSign : JsString → Bool × JsString
  | [] => (false, [])
  | u :: rest =>
      if u = 0x2D then (true, rest) else if u = 0x2B then (false, rest) else (false, u :: rest)

/-- An exponent part, when there is one. -/
def parseExponent : JsString → Option (ℤ × JsString)
  | [] => some (0, [])
  | u :: rest =>
      if u = 0x65 ∨ u = 0x45 then
        let signed := parseSign rest
        let ds := signed.2.takeWhile isDigit
        if ds = [] then none
        else some (if signed.1 then -(digitsValue ds : ℤ) else digitsValue ds,
          signed.2.dropWhile isDigit)
      else some (0, u :: rest)

/-- A numeral after its sign: the rational it denotes. -/
def parseUnsigned (s : JsString) : Option (ℚ × JsString) :=
  let int := s.takeWhile isDigit
  if int = [] ∨ (int.head? = some 0x30 ∧ 1 < int.length) then none
  else do
    let (frac, r) ← parseFraction (s.dropWhile isDigit)
    let (e, r') ← parseExponent r
    some (digitsValue (int ++ frac) * 10 ^ (e - frac.length), r')

/-- A numeral, rounded to the number it denotes. -/
def parseNumber : JsString → Option (JsNumber × JsString)
  | [] => none
  | u :: rest =>
      if u = 0x2D then (parseUnsigned rest).map fun p => (.ofRat (-p.1), p.2)
      else (parseUnsigned (u :: rest)).map fun p => (.ofRat p.1, p.2)

/-- Where the reader of a quoted string stands: between characters, after a backslash, or
    with `owed` hexadecimal digits of a `\u` escape still to come. -/
inductive StrState where
  | plain
  | escape
  | hex (owed value : ℕ)

/-- The character a one-letter escape stands for. -/
def simpleEscape (u : UInt16) : Option UInt16 :=
  if u = 0x22 ∨ u = 0x5C ∨ u = 0x2F then some u
  else if u = 0x62 then some 0x08
  else if u = 0x66 then some 0x0C
  else if u = 0x6E then some 0x0A
  else if u = 0x72 then some 0x0D
  else if u = 0x74 then some 0x09
  else none

/-- The value of a hexadecimal digit of either case. -/
def hexValue (u : UInt16) : Option ℕ :=
  if 0x30 ≤ u.toNat ∧ u.toNat ≤ 0x39 then some (u.toNat - 0x30)
  else if 0x61 ≤ u.toNat ∧ u.toNat ≤ 0x66 then some (u.toNat - 0x57)
  else if 0x41 ≤ u.toNat ∧ u.toNat ≤ 0x46 then some (u.toNat - 0x37)
  else none

/-- A unit before what was read. -/
def prepend (u : UInt16) : Option (JsString × JsString) → Option (JsString × JsString)
  | some (s, rest) => some (u :: s, rest)
  | none => none

/-- The characters of a quoted string up to its closing quote. -/
def parseChars : StrState → JsString → Option (JsString × JsString)
  | _, [] => none
  | .plain, u :: rest =>
      if u = 0x22 then some ([], rest)
      else if u = 0x5C then parseChars .escape rest
      else if u.toNat < 0x20 then none
      else prepend u (parseChars .plain rest)
  | .escape, u :: rest =>
      if u = 0x75 then parseChars (.hex 4 0) rest
      else match simpleEscape u with
        | some v => prepend v (parseChars .plain rest)
        | none => none
  | .hex owed value, u :: rest =>
      match hexValue u with
      | none => none
      | some d =>
          if owed ≤ 1 then prepend (value * 0x10 + d).toUInt16 (parseChars .plain rest)
          else parseChars (.hex (owed - 1) (value * 0x10 + d)) rest

/-- A literal name. -/
def parseName (name : JsString) (v : Json) (s : JsString) : Option (Json × JsString) :=
  if s.take name.length = name then some (v, s.drop name.length) else none

/-- A member added to an object: a name already there takes the new value in place. -/
def setMember (members : List (JsString × Json)) (k : JsString) (v : Json) :
    List (JsString × Json) :=
  if members.any (fun m => m.1 == k) then
    members.map fun m => if m.1 = k then (k, v) else m
  else members ++ [(k, v)]

/-- An object of members as they were read: a later one of a name takes the earlier one's place. -/
def objectOf (members : List (JsString × Json)) : Json :=
  .obj (members.foldl (fun acc m => setMember acc m.1 m.2) [])

mutual
/-- A value at the start of the text, and what follows it. -/
def parseValue : ℕ → JsString → Option (Json × JsString)
  | 0, _ => none
  | _ + 1, [] => none
  | fuel + 1, u :: rest =>
      if u = 0x22 then (parseChars .plain rest).map fun p => (.str p.1, p.2)
      else if u = 0x5B then
        match skipWs rest with
        | [] => none
        | c :: more =>
            if c = 0x5D then some (.arr [], more)
            else (parseElements fuel (c :: more)).map fun p => (.arr p.1, p.2)
      else if u = 0x7B then
        match skipWs rest with
        | [] => none
        | c :: more =>
            if c = 0x7D then some (.obj [], more)
            else (parseMembers fuel (c :: more)).map fun p => (objectOf p.1, p.2)
      else if u = 0x6E then parseName (js "null") .null (u :: rest)
      else if u = 0x74 then parseName (js "true") (.bool true) (u :: rest)
      else if u = 0x66 then parseName (js "false") (.bool false) (u :: rest)
      else (parseNumber (u :: rest)).map fun p => (.num p.1, p.2)

/-- One or more values with commas between them, up to the closing bracket. -/
def parseElements : ℕ → JsString → Option (List Json × JsString)
  | 0, _ => none
  | fuel + 1, s =>
      match parseValue fuel s with
      | none => none
      | some (v, r) =>
          match skipWs r with
          | [] => none
          | c :: more =>
              if c = 0x2C then
                (parseElements fuel (skipWs more)).map fun p => (v :: p.1, p.2)
              else if c = 0x5D then some ([v], more)
              else none

/-- One or more members with commas between them, up to the closing brace. -/
def parseMembers : ℕ → JsString → Option (List (JsString × Json) × JsString)
  | 0, _ => none
  | _ + 1, [] => none
  | fuel + 1, q :: s =>
      if q = 0x22 then
        match parseChars .plain s with
        | none => none
        | some (k, r) =>
            match skipWs r with
            | [] => none
            | c :: r' =>
                if c = 0x3A then
                  match parseValue fuel (skipWs r') with
                  | none => none
                  | some (v, r'') =>
                      match skipWs r'' with
                      | [] => none
                      | d :: more =>
                          if d = 0x2C then
                            (parseMembers fuel (skipWs more)).map fun p => ((k, v) :: p.1, p.2)
                          else if d = 0x7D then some ([(k, v)], more)
                          else none
                else none
      else none
end

/-- `JSON.parse(text)`, `none` where it throws. -/
def jsonParse (s : JsString) : Option Json :=
  match parseValue (2 * s.length + 2) (skipWs s) with
  | some (v, rest) => if skipWs rest = [] then some v else none
  | none => none

end JsonParse
