import Mathlib.Data.Nat.Digits.Lemmas
import Mathlib.Data.List.Basic

/-!
# Elements and their lengths

The nested elements of the distinguished encoding: a tag, the octets of a
length, and contents of that length.

* **`Tlv`** — an element, whose length is the one it spells;
* **`Tlv.bytes_append_inj`**, **`flatten_inj`** — bytes are read as elements
  in one way;
* **`Field`**, **`Last`** — an element among those some contents are made of,
  and one with nothing after it;
* **`encode`** — the one encoding of some contents under a tag. -/

namespace Der

-- ── Lengths ──────────────────────────────────────────────────────────────────────

/-- The number some octets spell, the most significant first. -/
def bigEndian (octets : List UInt8) : ℕ := octets.foldl (fun n b => n * 256 + b.toNat) 0

/-- **The octets of a definite length**: one below 128, or how many follow and those, four at most. -/
inductive SpellsLength : List UInt8 → ℕ → Prop
  | short (l : UInt8) (h : l.toNat < 128) : SpellsLength [l] l.toNat
  | long (l : UInt8) (octets : List UInt8) (h : l.toNat = 128 + octets.length) (hpos : 1 ≤ octets.length)
      (hfour : octets.length ≤ 4) : SpellsLength (l :: octets) (bigEndian octets)

/-- A length is read off in one way. -/
theorem SpellsLength.append_inj {a b x y : List UInt8} {m n : ℕ} (ha : SpellsLength a m) (hb : SpellsLength b n)
    (h : a ++ x = b ++ y) : a = b ∧ m = n ∧ x = y := by
  cases ha with
  | short l hl =>
      cases hb with
      | short k hk =>
          obtain ⟨rfl, rfl⟩ := List.cons.inj h
          exact ⟨rfl, rfl, rfl⟩
      | long k octets hk hpos hfour =>
          obtain ⟨rfl, -⟩ := List.cons.inj h
          omega
  | long l octets hl hpos hfour =>
      cases hb with
      | short k hk =>
          obtain ⟨rfl, -⟩ := List.cons.inj h
          omega
      | long k others hk hpos' hfour' =>
          obtain ⟨rfl, hrest⟩ := List.cons.inj h
          obtain ⟨rfl, rfl⟩ := List.append_inj hrest (by omega)
          exact ⟨rfl, rfl, rfl⟩

theorem SpellsLength.length_pos {octets : List UInt8} {n : ℕ} (h : SpellsLength octets n) : 1 ≤ octets.length := by
  cases h with
  | short l h => exact Nat.le_refl 1
  | long l octets h hpos hfour => exact Nat.succ_pos _

/-- More than four octets are not announced. -/
theorem SpellsLength.head_le {octets : List UInt8} {n : ℕ} (h : SpellsLength octets n) :
    ∃ l rest, octets = l :: rest ∧ l.toNat ≤ 132 := by
  cases h with
  | short l h => exact ⟨l, [], rfl, by omega⟩
  | long l octets h hpos hfour => exact ⟨l, octets, rfl, by omega⟩

-- ── Elements ─────────────────────────────────────────────────────────────────────

/-- **An element**, whose contents are as long as it says. -/
structure Tlv where
  tag : UInt8
  lengthOctets : List UInt8
  content : List UInt8
  spelled : SpellsLength lengthOctets content.length

namespace Tlv

/-- The bytes before the content. -/
def headerSize (t : Tlv) : ℕ := 1 + t.lengthOctets.length

/-- Tag, length and content. -/
def bytes (t : Tlv) : List UInt8 := t.tag :: (t.lengthOctets ++ t.content)

theorem length_bytes (t : Tlv) : t.bytes.length = t.headerSize + t.content.length := by
  rw [bytes, List.length_cons, List.length_append, headerSize]
  omega

theorem headerSize_ge (t : Tlv) : 2 ≤ t.headerSize := Nat.add_le_add_left t.spelled.length_pos 1

/-- **Bytes begin with one element at most.** -/
theorem bytes_append_inj {t u : Tlv} {x y : List UInt8} (h : t.bytes ++ x = u.bytes ++ y) : t = u ∧ x = y := by
  obtain ⟨tag, lengthOctets, content, hspelled⟩ := t
  obtain ⟨tag', lengthOctets', content', hspelled'⟩ := u
  obtain ⟨htag, hrest⟩ := List.cons.inj h
  obtain rfl : tag = tag' := htag
  have hrest : lengthOctets ++ (content ++ x) = lengthOctets' ++ (content' ++ y) := by
    rw [← List.append_assoc, ← List.append_assoc]
    exact hrest
  obtain ⟨rfl, hlength, hcontents⟩ := hspelled.append_inj hspelled' hrest
  obtain ⟨rfl, rfl⟩ := List.append_inj hcontents hlength
  exact ⟨rfl, rfl⟩

end Tlv

/-- Elements one after the other. -/
def flatten (ts : List Tlv) : List UInt8 := ts.flatMap Tlv.bytes

@[simp] theorem flatten_nil : flatten [] = [] := rfl

@[simp] theorem flatten_cons (t : Tlv) (ts : List Tlv) : flatten (t :: ts) = t.bytes ++ flatten ts := rfl

/-- **Contents are made of elements in one way.** -/
theorem flatten_inj {ts us : List Tlv} (h : flatten ts = flatten us) : ts = us := by
  induction ts generalizing us with
  | nil =>
      cases us with
      | nil => rfl
      | cons u us => cases h
  | cons t ts ih =>
      cases us with
      | nil => cases h
      | cons u us =>
          rw [flatten_cons, flatten_cons] at h
          obtain ⟨rfl, hrest⟩ := Tlv.bytes_append_inj h
          rw [ih hrest]

-- ── Contents ─────────────────────────────────────────────────────────────────────

/-- Number `k` of the elements some contents are made of, by its tag and its own contents. -/
def Field (content : List UInt8) (k : ℕ) (tag : UInt8) (inner : List UInt8) : Prop :=
  ∃ ts : List Tlv, content = flatten ts ∧ ∃ t, ts[k]? = some t ∧ t.tag = tag ∧ t.content = inner

/-- The element some bytes begin with. -/
def Begins (content : List UInt8) (tag : UInt8) (inner : List UInt8) : Prop :=
  ∃ (t : Tlv) (rest : List UInt8), content = t.bytes ++ rest ∧ t.tag = tag ∧ t.content = inner

/-- Number `k` of the elements some contents are made of, with nothing after it. -/
def Last (content : List UInt8) (k : ℕ) (tag : UInt8) (inner : List UInt8) : Prop :=
  ∃ (ts : List Tlv) (t : Tlv), content = flatten (ts ++ [t]) ∧ ts.length = k ∧ t.tag = tag ∧ t.content = inner

theorem Field.inj {content a b : List UInt8} {k : ℕ} {tag tag' : UInt8} (ha : Field content k tag a)
    (hb : Field content k tag' b) : tag = tag' ∧ a = b := by
  obtain ⟨ts, rfl, t, ht, rfl, rfl⟩ := ha
  obtain ⟨us, hus, u, hu, rfl, rfl⟩ := hb
  obtain rfl := flatten_inj hus
  obtain rfl := Option.some.inj (ht.symm.trans hu)
  exact ⟨rfl, rfl⟩

theorem Begins.inj {content a b : List UInt8} {tag tag' : UInt8} (ha : Begins content tag a)
    (hb : Begins content tag' b) : tag = tag' ∧ a = b := by
  obtain ⟨t, x, rfl, rfl, rfl⟩ := ha
  obtain ⟨u, y, hu, rfl, rfl⟩ := hb
  obtain ⟨rfl, -⟩ := Tlv.bytes_append_inj hu
  exact ⟨rfl, rfl⟩

theorem Last.field {content inner : List UInt8} {k : ℕ} {tag : UInt8} (h : Last content k tag inner) :
    Field content k tag inner := by
  obtain ⟨ts, t, rfl, rfl, htag, hinner⟩ := h
  refine ⟨ts ++ [t], rfl, t, ?_, htag, hinner⟩
  rw [List.getElem?_append_right (Nat.le_refl _), Nat.sub_self]
  rfl

theorem Last.begins {content inner : List UInt8} {tag : UInt8} (h : Last content 0 tag inner) :
    Begins content tag inner := by
  obtain ⟨ts, t, rfl, hlength, htag, hinner⟩ := h
  obtain rfl := List.eq_nil_of_length_eq_zero hlength
  exact ⟨t, [], rfl, htag, hinner⟩

-- ── Encoding ─────────────────────────────────────────────────────────────────────

/-- The octets of a number, the most significant first, and no zero before it. -/
def octetsOf (n : ℕ) : List UInt8 := (Nat.digits 256 n).reverse.map UInt8.ofNat

/-- The one spelling of a length. -/
def lengthOctets (n : ℕ) : List UInt8 :=
  if n < 128 then [UInt8.ofNat n] else UInt8.ofNat (128 + (octetsOf n).length) :: octetsOf n

/-- An element, its length as short as it goes. -/
def encode (tag : UInt8) (content : List UInt8) : List UInt8 := tag :: (lengthOctets content.length ++ content)

theorem length_octetsOf (n : ℕ) : (octetsOf n).length = (Nat.digits 256 n).length := by
  rw [octetsOf, List.length_map, List.length_reverse]

theorem bigEndian_octetsOf (n : ℕ) : bigEndian (octetsOf n) = n := by
  have hfold : ∀ digits : List ℕ, (∀ d ∈ digits, d < 256) →
      bigEndian (digits.reverse.map UInt8.ofNat) = Nat.ofDigits 256 digits := by
    intro digits
    induction digits with
    | nil => exact fun _ => rfl
    | cons d digits ih =>
        intro hdigits
        rw [List.forall_mem_cons] at hdigits
        have hd : (UInt8.ofNat d).toNat = d := UInt8.toNat_ofNat_of_lt' hdigits.1
        have hrest := ih hdigits.2
        rw [bigEndian] at hrest
        rw [bigEndian, List.reverse_cons, List.map_append, List.foldl_append, hrest, Nat.ofDigits_cons]
        show Nat.ofDigits 256 digits * 256 + (UInt8.ofNat d).toNat = _
        rw [hd]
        omega
  rw [octetsOf, hfold _ (fun d hd => Nat.digits_lt_base (by norm_num) hd), Nat.ofDigits_digits]

/-- **A length below 2³² is spelled in four octets at most.** -/
theorem spellsLength_lengthOctets {n : ℕ} (h : n < 256 ^ 4) : SpellsLength (lengthOctets n) n := by
  rw [lengthOctets]
  by_cases hshort : n < 128
  · rw [if_pos hshort]
    have hvalue : (UInt8.ofNat n).toNat = n := UInt8.toNat_ofNat_of_lt' (by rw [UInt8.size]; omega)
    have hspells := SpellsLength.short (UInt8.ofNat n) (by omega)
    rwa [hvalue] at hspells
  · rw [if_neg hshort]
    have hfour : (octetsOf n).length ≤ 4 := by
      rw [length_octetsOf]
      exact (Nat.digits_length_le_iff (by norm_num) n).mpr h
    have hpos : 1 ≤ (octetsOf n).length := by
      rw [length_octetsOf]
      exact List.length_pos_iff.mpr (Nat.digits_ne_nil_iff_ne_zero.mpr (by omega))
    have hspells := SpellsLength.long (UInt8.ofNat (128 + (octetsOf n).length)) (octetsOf n)
      (UInt8.toNat_ofNat_of_lt' (by rw [UInt8.size]; omega)) hpos hfour
    rwa [bigEndian_octetsOf] at hspells

/-- The element that an encoding is. -/
def encoded (tag : UInt8) (content : List UInt8) (h : content.length < 256 ^ 4) : Tlv :=
  ⟨tag, lengthOctets content.length, content, spellsLength_lengthOctets h⟩

theorem length_lt_encode (tag : UInt8) (content : List UInt8) : content.length < (encode tag content).length := by
  rw [encode, List.length_cons, List.length_append]
  omega

/-- Fields one after the other. -/
def encodeAll (fields : List (UInt8 × List UInt8)) : List UInt8 := fields.flatMap fun f => encode f.1 f.2

@[simp] theorem encodeAll_nil : encodeAll [] = [] := rfl

@[simp] theorem encodeAll_cons (f : UInt8 × List UInt8) (fields : List (UInt8 × List UInt8)) :
    encodeAll (f :: fields) = encode f.1 f.2 ++ encodeAll fields := rfl

theorem length_lt_encodeAll {f : UInt8 × List UInt8} {fields : List (UInt8 × List UInt8)} (hf : f ∈ fields) :
    f.2.length < (encodeAll fields).length := by
  induction fields with
  | nil => cases hf
  | cons first fields ih =>
      rw [encodeAll_cons, List.length_append]
      rcases List.mem_cons.mp hf with rfl | hf
      · have := length_lt_encode f.1 f.2
        omega
      · have := ih hf
        omega

/-- **Encoded fields are elements**, where they take less than 2³² bytes. -/
theorem exists_flatten_encodeAll {fields : List (UInt8 × List UInt8)} (h : (encodeAll fields).length < 256 ^ 4) :
    ∃ ts, encodeAll fields = flatten ts ∧ ts.map (fun t => (t.tag, t.content)) = fields := by
  induction fields with
  | nil => exact ⟨[], rfl, rfl⟩
  | cons f fields ih =>
      have hlt := length_lt_encode f.1 f.2
      rw [encodeAll_cons, List.length_append] at h
      obtain ⟨ts, hts, hmap⟩ := ih (by omega)
      refine ⟨encoded f.1 f.2 (by omega) :: ts, ?_, ?_⟩
      · rw [encodeAll_cons, flatten_cons, hts]
        rfl
      · rw [List.map_cons, hmap]
        rfl

theorem field_encodeAll {fields : List (UInt8 × List UInt8)} {k : ℕ} {tag : UInt8} {inner : List UInt8}
    (h : (encodeAll fields).length < 256 ^ 4) (hk : fields[k]? = some (tag, inner)) :
    Field (encodeAll fields) k tag inner := by
  obtain ⟨ts, hts, rfl⟩ := exists_flatten_encodeAll h
  rw [List.getElem?_map] at hk
  obtain ⟨t, ht, hpair⟩ := Option.map_eq_some_iff.mp hk
  obtain ⟨htag, hinner⟩ := Prod.mk.inj hpair
  exact ⟨ts, hts, t, ht, htag, hinner⟩

theorem last_encodeAll {fields : List (UInt8 × List UInt8)} {tag : UInt8} {inner : List UInt8}
    (h : (encodeAll (fields ++ [(tag, inner)])).length < 256 ^ 4) :
    Last (encodeAll (fields ++ [(tag, inner)])) fields.length tag inner := by
  obtain ⟨ts, hts, hmap⟩ := exists_flatten_encodeAll h
  obtain ⟨front, back, rfl, hfront, hback⟩ := List.map_eq_append_iff.mp hmap
  obtain ⟨t, rfl, hpair⟩ := List.map_eq_singleton_iff.mp hback
  obtain ⟨htag, hinner⟩ := Prod.mk.inj hpair
  exact ⟨front, t, hts, by rw [← hfront, List.length_map], htag, hinner⟩

end Der
