import Sigillo.JsonCanonical

/-!
# What a reading depends on

A text that was read splits into what was consumed and what follows, and the consumed part alone
decides the value: put anything else behind it and the same value is read (behind a numeral,
anything that does not go on it). That is `parse_local`, by induction on the fuel over the three
readers at once, from one inversion lemma for each of them.

**`jsonParse_torn`** is what it is for: a text cut off before the last brace of an object reads as
nothing, also when the cut fell inside a character and left a replacement character there. -/

namespace JsonParse

open DoubleArith Utf16Text JsonText

-- ── Numerals ─────────────────────────────────────────────────────────────────────

theorem digits_local (s : JsString) {t : JsString} (ht : NoDigit t) :
    (s.takeWhile isDigit ++ t).takeWhile isDigit = s.takeWhile isDigit ∧
      (s.takeWhile isDigit ++ t).dropWhile isDigit = t :=
  have hd : ∀ u ∈ s.takeWhile isDigit, isDigit u = true := fun _ hu =>
    List.mem_takeWhile_imp hu
  ⟨takeWhile_digits hd ht, dropWhile_digits hd ht⟩

/-- A text that starts neither a fraction nor more digits. -/
def FractionEnd (t : JsString) : Prop := NoDigit t ∧ ∀ u r, t = u :: r → u ≠ 0x2E

theorem NumEnd.fractionEnd {t : JsString} (h : NumEnd t) : FractionEnd t :=
  ⟨h.noDigit, fun u r ht => (h u r ht).2.1⟩

theorem parseFraction_local {s f r : JsString} (h : parseFraction s = some (f, r)) :
    ∃ c, s = c ++ r ∧ (∀ t, FractionEnd t → parseFraction (c ++ t) = some (f, t)) ∧
      ∀ t, FractionEnd t → NoDigit (c ++ t) := by
  have hnone : ∀ t, FractionEnd t → parseFraction t = some ([], t) := fun t ht =>
    parseFraction_of_ne ht.2
  cases s with
  | nil =>
      obtain ⟨rfl, rfl⟩ : [] = f ∧ [] = r := by simpa [parseFraction] using h
      exact ⟨[], rfl, hnone, fun t ht => ht.1⟩
  | cons u rest =>
      by_cases hu : u = 0x2E
      · subst hu
        by_cases hd : rest.takeWhile isDigit = []
        · simp [parseFraction, hd] at h
        · obtain ⟨rfl, rfl⟩ : rest.takeWhile isDigit = f ∧ rest.dropWhile isDigit = r := by
            simpa [parseFraction, hd] using h
          refine ⟨0x2E :: rest.takeWhile isDigit, ?_, ?_, ?_⟩
          · rw [List.cons_append, List.takeWhile_append_dropWhile]
          · intro t ht
            obtain ⟨h1, h2⟩ := digits_local rest ht.1
            rw [List.cons_append, parseFraction, if_pos rfl, h1, h2, if_neg hd]
          · rintro t - v r hv
            obtain ⟨rfl, -⟩ := List.cons.inj hv
            decide
      · obtain ⟨rfl, rfl⟩ : [] = f ∧ u :: rest = r := by simpa [parseFraction, hu] using h
        exact ⟨[], rfl, hnone, fun t ht => ht.1⟩

theorem parseSign_of_digit {v : UInt16} (hv : isDigit v = true) (y : JsString) :
    parseSign (v :: y) = (false, v :: y) := by
  have hne : ∀ w : UInt16, isDigit w = false → v ≠ w := by
    rintro w hw rfl
    rw [hv] at hw
    exact absurd hw (by decide)
  rw [parseSign, if_neg (hne _ (by decide)), if_neg (hne _ (by decide))]

theorem parseSign_local (s : JsString) :
    ∃ p, s = p ++ (parseSign s).2 ∧ ∀ x v y, x = v :: y → isDigit v = true →
      parseSign (p ++ x) = ((parseSign s).1, x) := by
  have hplain : ∀ x v y, x = v :: y → isDigit v = true → parseSign x = (false, x) := by
    rintro _ v y rfl hv
    exact parseSign_of_digit hv y
  cases s with
  | nil => exact ⟨[], rfl, hplain⟩
  | cons u rest =>
      by_cases h1 : u = 0x2D
      · subst h1
        exact ⟨[0x2D], rfl, fun x _ _ _ _ => rfl⟩
      · by_cases h2 : u = 0x2B
        · subst h2
          exact ⟨[0x2B], rfl, fun x _ _ _ _ => rfl⟩
        · refine ⟨[], by simp [parseSign, h1, h2], ?_⟩
          simpa [parseSign, h1, h2] using hplain

theorem parseExponent_local {s r : JsString} {e : ℤ} (h : parseExponent s = some (e, r)) :
    ∃ c, s = c ++ r ∧ (∀ t, NumEnd t → parseExponent (c ++ t) = some (e, t)) ∧
      ∀ t, NumEnd t → FractionEnd (c ++ t) := by
  cases s with
  | nil =>
      obtain ⟨rfl, rfl⟩ : 0 = e ∧ [] = r := by simpa [parseExponent] using h
      exact ⟨[], rfl, fun t ht => parseExponent_of_numEnd ht, fun t ht => ht.fractionEnd⟩
  | cons u rest =>
      by_cases hu : u = 0x65 ∨ u = 0x45
      · by_cases hd : (parseSign rest).2.takeWhile isDigit = []
        · simp [parseExponent, hu, hd] at h
        · obtain ⟨p, hp, hsign⟩ := parseSign_local rest
          obtain ⟨he, hr⟩ : (if (parseSign rest).1
                then -(digitsValue ((parseSign rest).2.takeWhile isDigit) : ℤ)
                else digitsValue ((parseSign rest).2.takeWhile isDigit)) = e ∧
              (parseSign rest).2.dropWhile isDigit = r := by
            simpa [parseExponent, hu, hd] using h
          obtain ⟨v, ds, hds⟩ := List.exists_cons_of_ne_nil hd
          have hv : isDigit v = true :=
            List.mem_takeWhile_imp (l := (parseSign rest).2) (by rw [hds]; simp)
          refine ⟨u :: (p ++ (parseSign rest).2.takeWhile isDigit), ?_, ?_, ?_⟩
          · rw [List.cons_append, List.append_assoc, ← hr, List.takeWhile_append_dropWhile, ← hp]
          · intro t ht
            obtain ⟨h1, h2⟩ := digits_local (parseSign rest).2 ht.noDigit
            have hs : parseSign (p ++ ((parseSign rest).2.takeWhile isDigit ++ t))
                = ((parseSign rest).1, (parseSign rest).2.takeWhile isDigit ++ t) := by
              refine hsign _ v (ds ++ t) (by rw [hds]; rfl) hv
            simp only [List.cons_append, List.append_assoc, parseExponent, if_pos hu, hs, h1, h2,
              if_neg hd, he]
          · intro t _
            refine ⟨?_, ?_⟩
            · rintro w y hw
              obtain ⟨rfl, -⟩ := List.cons.inj hw
              rcases hu with rfl | rfl <;> decide
            · rintro w y hw
              obtain ⟨rfl, -⟩ := List.cons.inj hw
              rcases hu with rfl | rfl <;> decide
      · obtain ⟨rfl, rfl⟩ : 0 = e ∧ u :: rest = r := by simpa [parseExponent, hu] using h
        exact ⟨[], rfl, fun t ht => parseExponent_of_numEnd ht, fun t ht => ht.fractionEnd⟩

theorem parseUnsigned_local {s r : JsString} {q : ℚ} (h : parseUnsigned s = some (q, r)) :
    ∃ c, s = c ++ r ∧ ∀ t, NumEnd t → parseUnsigned (c ++ t) = some (q, t) := by
  by_cases hint : s.takeWhile isDigit = [] ∨
      ((s.takeWhile isDigit).head? = some 0x30 ∧ 1 < (s.takeWhile isDigit).length)
  · simp only [parseUnsigned, if_pos hint] at h
    cases h
  · simp only [parseUnsigned, if_neg hint, Option.bind_eq_bind, Option.bind_eq_some_iff] at h
    obtain ⟨⟨f, r1⟩, hf, ⟨e, r2⟩, he, hq⟩ := h
    obtain ⟨rfl, rfl⟩ := Prod.mk.inj (Option.some.inj hq)
    obtain ⟨cf, hcf, hlocf, hnd⟩ := parseFraction_local hf
    obtain ⟨ce, hce, hloce, hfe⟩ := parseExponent_local he
    refine ⟨s.takeWhile isDigit ++ (cf ++ ce), ?_, ?_⟩
    · simp only at hce
      rw [List.append_assoc, List.append_assoc, ← hce, ← hcf, List.takeWhile_append_dropWhile]
    · intro t ht
      obtain ⟨h1, h2⟩ := digits_local s (hnd (ce ++ t) (hfe t ht))
      simp only [parseUnsigned, List.append_assoc, h1, h2, if_neg hint, hlocf _ (hfe t ht),
        Option.bind_eq_bind, Option.bind_some, hloce t ht]

theorem parseNumber_local {s r : JsString} {x : JsNumber} (h : parseNumber s = some (x, r)) :
    ∃ c, s = c ++ r ∧ ∀ t, NumEnd t → parseNumber (c ++ t) = some (x, t) := by
  cases s with
  | nil => simp [parseNumber] at h
  | cons u rest =>
      by_cases hu : u = 0x2D
      · simp only [parseNumber, if_pos hu, Option.map_eq_some_iff] at h
        obtain ⟨⟨q, r'⟩, hq, heq⟩ := h
        obtain ⟨rfl, rfl⟩ := Prod.mk.inj heq
        obtain ⟨c, hc, hloc⟩ := parseUnsigned_local hq
        refine ⟨u :: c, by rw [hc]; rfl, fun t ht => ?_⟩
        simp only [List.cons_append, parseNumber, if_pos hu, hloc t ht, Option.map_some]
      · simp only [parseNumber, if_neg hu, Option.map_eq_some_iff] at h
        obtain ⟨⟨q, r'⟩, hq, heq⟩ := h
        obtain ⟨rfl, rfl⟩ := Prod.mk.inj heq
        obtain ⟨c, hc, hloc⟩ := parseUnsigned_local hq
        refine ⟨c, hc, fun t ht => ?_⟩
        cases c with
        | nil =>
            -- a numeral is never empty
            have := hloc [] (by simp [NumEnd])
            simp [parseUnsigned] at this
        | cons v c =>
            obtain ⟨rfl, -⟩ := List.cons.inj hc
            have h' := hloc t ht
            rw [List.cons_append] at h' ⊢
            simp only [parseNumber, if_neg hu, h', Option.map_some]

-- ── Strings, names, white space ──────────────────────────────────────────────────

theorem parseChars_local {st : StrState} {s a r : JsString}
    (h : parseChars st s = some (a, r)) :
    ∃ c, s = c ++ r ∧ ∀ t, parseChars st (c ++ t) = some (a, t) := by
  induction s generalizing st a with
  | nil => cases st <;> simp [parseChars] at h
  | cons u rest ih =>
      have hprep : ∀ v st', (∀ x, parseChars st (u :: x) = prepend v (parseChars st' x)) →
          ∃ c, u :: rest = c ++ r ∧ ∀ t, parseChars st (c ++ t) = some (a, t) := by
        intro v st' hstep
        rw [hstep] at h
        cases hr : parseChars st' rest with
        | none => rw [hr] at h; simp [prepend] at h
        | some p =>
            obtain ⟨a', r'⟩ := p
            rw [hr] at h
            obtain ⟨rfl, rfl⟩ := Prod.mk.inj (Option.some.inj h)
            obtain ⟨c, hc, hloc⟩ := ih hr
            refine ⟨u :: c, by rw [hc]; rfl, fun t => ?_⟩
            rw [List.cons_append, hstep, hloc]
            rfl
      have hskip : ∀ st', (∀ x, parseChars st (u :: x) = parseChars st' x) →
          ∃ c, u :: rest = c ++ r ∧ ∀ t, parseChars st (c ++ t) = some (a, t) := by
        intro st' hstep
        rw [hstep] at h
        obtain ⟨c, hc, hloc⟩ := ih h
        refine ⟨u :: c, by rw [hc]; rfl, fun t => ?_⟩
        rw [List.cons_append, hstep, hloc]
      cases st with
      | plain =>
          by_cases h1 : u = 0x22
          · obtain ⟨rfl, rfl⟩ : [] = a ∧ rest = r := by simpa [parseChars, h1] using h
            exact ⟨[u], rfl, fun t => by simp [parseChars, h1]⟩
          · by_cases h2 : u = 0x5C
            · exact hskip .escape fun x => by simp [parseChars, h2]
            · by_cases h3 : u.toNat < 0x20
              · simp [parseChars, h1, h2, h3] at h
              · exact hprep u .plain fun x => parseChars_plain h1 h2 h3 x
      | escape =>
          by_cases h1 : u = 0x75
          · exact hskip (.hex 4 0) fun x => by simp [parseChars, h1]
          · cases he : simpleEscape u with
            | none => simp [parseChars, h1, he] at h
            | some v => exact hprep v .plain fun x => by simp [parseChars, h1, he]
      | hex owed value =>
          cases hd : hexValue u with
          | none => simp [parseChars, hd] at h
          | some d =>
              by_cases h1 : owed ≤ 1
              · exact hprep (value * 0x10 + d).toUInt16 .plain fun x => by
                  simp [parseChars, hd, h1]
              · exact hskip (.hex (owed - 1) (value * 0x10 + d)) fun x => by
                  simp [parseChars, hd, h1]

theorem parseName_local {name s r : JsString} {v w : Json}
    (h : parseName name v s = some (w, r)) :
    s = name ++ r ∧ w = v := by
  unfold parseName at h
  split_ifs at h with ht
  obtain ⟨rfl, rfl⟩ := Prod.mk.inj (Option.some.inj h)
  refine ⟨?_, rfl⟩
  conv_lhs => rw [← List.take_append_drop name.length s, ht]

theorem skipWs_local {s r : JsString} {u : UInt16} (h : skipWs s = u :: r) :
    isWs u = false ∧ ∃ w, s = w ++ u :: r ∧ (∀ x ∈ w, isWs x = true) ∧
      ∀ t, skipWs (w ++ u :: t) = u :: t := by
  have hu : isWs u = false := by
    have := List.head?_dropWhile_not isWs s
    rw [show s.dropWhile isWs = u :: r from h] at this
    simpa using this
  have hw : ∀ x ∈ s.takeWhile isWs, isWs x = true := fun x hx => List.mem_takeWhile_imp hx
  refine ⟨hu, s.takeWhile isWs, ?_, hw, fun t => ?_⟩
  · rw [← h, skipWs, List.takeWhile_append_dropWhile]
  · rw [skipWs, List.dropWhile_append_of_pos hw, List.dropWhile_cons_of_neg (by simp [hu])]

-- ── What each reader can return ──────────────────────────────────────────────────

/-- **What `parseValue` can return**: a scalar, which the text before the rest spells; an
    array or an object, empty or not. -/
theorem parseValue_cases {fuel : ℕ} {s r : JsString} {v : Json}
    (h : parseValue (fuel + 1) s = some (v, r)) :
    (KeysDistinct v ∧ s.head? ≠ some 0x7B ∧ ∃ c, s = c ++ r ∧
      ∀ g t, NumEnd t → parseValue (g + 1) (c ++ t) = some (v, t)) ∨
    (∃ w more, s = 0x5B :: w ∧ skipWs w = 0x5D :: more ∧ v = .arr [] ∧ r = more) ∨
    (∃ w c more vs, s = 0x5B :: w ∧ skipWs w = c :: more ∧ c ≠ 0x5D ∧
      parseElements fuel (c :: more) = some (vs, r) ∧ v = .arr vs) ∨
    (∃ w more, s = 0x7B :: w ∧ skipWs w = 0x7D :: more ∧ v = .obj [] ∧ r = more) ∨
    (∃ w c more ms, s = 0x7B :: w ∧ skipWs w = c :: more ∧ c ≠ 0x7D ∧
      parseMembers fuel (c :: more) = some (ms, r) ∧ v = objectOf ms) := by
  cases s with
  | nil => simp [parseValue] at h
  | cons u rest =>
      by_cases h1 : u = 0x22
      · subst h1
        simp only [parseValue, if_true, Option.map_eq_some_iff] at h
        obtain ⟨⟨a, r'⟩, ha, heq⟩ := h
        obtain ⟨rfl, rfl⟩ := Prod.mk.inj heq
        obtain ⟨c, hc, hloc⟩ := parseChars_local ha
        refine .inl ⟨.str a, by simp, 0x22 :: c, by rw [hc]; rfl, fun g t _ => ?_⟩
        simp [parseValue, hloc]
      by_cases h2 : u = 0x5B
      · subst h2
        simp only [parseValue, if_neg h1, if_true] at h
        cases hs : skipWs rest with
        | nil => simp [hs] at h
        | cons c more =>
            simp only [hs] at h
            split_ifs at h with hc
            · subst hc
              obtain ⟨rfl, rfl⟩ := Prod.mk.inj (Option.some.inj h)
              exact .inr (.inl ⟨rest, more, rfl, hs, rfl, rfl⟩)
            · rw [Option.map_eq_some_iff] at h
              obtain ⟨⟨vs, r'⟩, hvs, heq⟩ := h
              obtain ⟨rfl, rfl⟩ := Prod.mk.inj heq
              exact .inr (.inr (.inl ⟨rest, c, more, vs, rfl, hs, hc, hvs, rfl⟩))
      by_cases h3 : u = 0x7B
      · subst h3
        simp only [parseValue, if_neg h1, if_neg h2, if_true] at h
        cases hs : skipWs rest with
        | nil => simp [hs] at h
        | cons c more =>
            simp only [hs] at h
            split_ifs at h with hc
            · subst hc
              obtain ⟨rfl, rfl⟩ := Prod.mk.inj (Option.some.inj h)
              exact .inr (.inr (.inr (.inl ⟨rest, more, rfl, hs, rfl, rfl⟩)))
            · rw [Option.map_eq_some_iff] at h
              obtain ⟨⟨ms, r'⟩, hms, heq⟩ := h
              obtain ⟨rfl, rfl⟩ := Prod.mk.inj heq
              exact .inr (.inr (.inr (.inr ⟨rest, c, more, ms, rfl, hs, hc, hms, rfl⟩)))
      have hname : ∀ (name : JsString) (w : Json), KeysDistinct w → name ≠ [] →
          (∀ g x, parseValue (g + 1) (u :: x) = parseName name w (u :: x)) →
          KeysDistinct v ∧ (u :: rest).head? ≠ some 0x7B ∧ ∃ c, u :: rest = c ++ r ∧
            ∀ g t, NumEnd t → parseValue (g + 1) (c ++ t) = some (v, t) := by
        intro name w hw hne hstep
        rw [hstep] at h
        obtain ⟨hs, rfl⟩ := parseName_local h
        refine ⟨hw, by simpa using h3, name, hs, fun g t _ => ?_⟩
        obtain ⟨a, name', rfl⟩ := List.exists_cons_of_ne_nil hne
        obtain ⟨rfl, -⟩ := List.cons.inj hs
        rw [List.cons_append, hstep, ← List.cons_append, parseName_append]
      refine .inl ?_
      by_cases h4 : u = 0x6E
      · exact hname (js "null") .null .null (by decide) fun g x => by simp [parseValue, h4]
      by_cases h5 : u = 0x74
      · exact hname (js "true") (.bool true) (.bool _) (by decide) fun g x => by
          simp [parseValue, h5]
      by_cases h6 : u = 0x66
      · exact hname (js "false") (.bool false) (.bool _) (by decide) fun g x => by
          simp [parseValue, h6]
      have hstep : ∀ g x, parseValue (g + 1) (u :: x)
          = (parseNumber (u :: x)).map fun p => (.num p.1, p.2) := fun g x => by
        simp only [parseValue, if_neg h1, if_neg h2, if_neg h3, if_neg h4, if_neg h5, if_neg h6]
      rw [hstep, Option.map_eq_some_iff] at h
      obtain ⟨⟨x, r'⟩, hx, heq⟩ := h
      obtain ⟨rfl, rfl⟩ := Prod.mk.inj heq
      obtain ⟨c, hc, hloc⟩ := parseNumber_local hx
      refine ⟨.num x, by simpa using h3, c, hc, fun g t ht => ?_⟩
      have hct := hloc t ht
      cases c with
      | nil =>
          have hnil := hloc [] (by simp [NumEnd])
          simp [parseNumber] at hnil
      | cons a c =>
          obtain ⟨rfl, -⟩ := List.cons.inj hc
          rw [List.cons_append] at hct ⊢
          rw [hstep, hct, Option.map_some]

/-- **What `parseElements` can return.** -/
theorem parseElements_cases {fuel : ℕ} {s r : JsString} {vs : List Json}
    (h : parseElements (fuel + 1) s = some (vs, r)) :
    ∃ v r' more, parseValue fuel s = some (v, r') ∧
      ((skipWs r' = 0x5D :: more ∧ vs = [v] ∧ r = more) ∨
       (skipWs r' = 0x2C :: more ∧ ∃ ws, parseElements fuel (skipWs more) = some (ws, r) ∧
          vs = v :: ws)) := by
  simp only [parseElements] at h
  cases hv : parseValue fuel s with
  | none => simp [hv] at h
  | some p =>
      obtain ⟨v, r'⟩ := p
      simp only [hv] at h
      cases hs : skipWs r' with
      | nil => simp [hs] at h
      | cons c more =>
          simp only [hs] at h
          split_ifs at h with hc hd
          · subst hc
            rw [Option.map_eq_some_iff] at h
            obtain ⟨⟨ws, r''⟩, hws, heq⟩ := h
            obtain ⟨rfl, rfl⟩ := Prod.mk.inj heq
            exact ⟨v, r', more, rfl, .inr ⟨hs, ws, hws, rfl⟩⟩
          · subst hd
            obtain ⟨rfl, rfl⟩ := Prod.mk.inj (Option.some.inj h)
            exact ⟨v, r', more, rfl, .inl ⟨hs, rfl, rfl⟩⟩

/-- **What `parseMembers` can return.** -/
theorem parseMembers_cases {fuel : ℕ} {s r : JsString} {ms : List (JsString × Json)}
    (h : parseMembers (fuel + 1) s = some (ms, r)) :
    ∃ q k r1 r2 v r3 more, s = 0x22 :: q ∧ parseChars .plain q = some (k, r1) ∧
      skipWs r1 = 0x3A :: r2 ∧ parseValue fuel (skipWs r2) = some (v, r3) ∧
      ((skipWs r3 = 0x7D :: more ∧ ms = [(k, v)] ∧ r = more) ∨
       (skipWs r3 = 0x2C :: more ∧ ∃ ns, parseMembers fuel (skipWs more) = some (ns, r) ∧
          ms = (k, v) :: ns)) := by
  cases s with
  | nil => simp [parseMembers] at h
  | cons u q =>
      simp only [parseMembers] at h
      split_ifs at h with hu
      subst hu
      cases hk : parseChars .plain q with
      | none => simp [hk] at h
      | some p =>
          obtain ⟨k, r1⟩ := p
          simp only [hk] at h
          cases h1 : skipWs r1 with
          | nil => simp [h1] at h
          | cons c r2 =>
              simp only [h1] at h
              split_ifs at h with hc
              subst hc
              cases hv : parseValue fuel (skipWs r2) with
              | none => simp [hv] at h
              | some p =>
                  obtain ⟨v, r3⟩ := p
                  simp only [hv] at h
                  cases h3 : skipWs r3 with
                  | nil => simp [h3] at h
                  | cons d more =>
                      simp only [h3] at h
                      split_ifs at h with hd he
                      · subst hd
                        rw [Option.map_eq_some_iff] at h
                        obtain ⟨⟨ns, r'⟩, hns, heq⟩ := h
                        obtain ⟨rfl, rfl⟩ := Prod.mk.inj heq
                        exact ⟨q, k, r1, r2, v, r3, more, rfl, hk, h1, hv,
                          .inr ⟨h3, ns, hns, rfl⟩⟩
                      · subst he
                        obtain ⟨rfl, rfl⟩ := Prod.mk.inj (Option.some.inj h)
                        exact ⟨q, k, r1, r2, v, r3, more, rfl, hk, h1, hv,
                          .inl ⟨h3, rfl, rfl⟩⟩

-- ── Locality ─────────────────────────────────────────────────────────────────────

/-- A text that goes on with white space and a separator ends a numeral. -/
theorem numEnd_of_skipWs {s r : JsString} {u : UInt16} (h : skipWs s = u :: r)
    (hu : u = 0x2C ∨ u = 0x5D ∨ u = 0x7D) : NumEnd s := by
  obtain ⟨-, w, rfl, hw, -⟩ := skipWs_local h
  rintro a x hax
  cases w with
  | nil =>
      obtain ⟨rfl, -⟩ := List.cons.inj hax
      rcases hu with rfl | rfl | rfl <;> decide
  | cons b w =>
      obtain ⟨rfl, -⟩ := List.cons.inj hax
      have hb := hw b (by simp)
      simp only [isWs, Bool.or_eq_true, beq_iff_eq] at hb
      rcases hb with ((rfl | rfl) | rfl) | rfl <;> decide

/-- White space and a separator end a numeral whatever follows them. -/
theorem numEnd_ws {w : JsString} (hw : ∀ x ∈ w, isWs x = true) {u : UInt16}
    (hu : u = 0x2C ∨ u = 0x5D ∨ u = 0x7D) (t : JsString) : NumEnd (w ++ u :: t) := by
  refine numEnd_of_skipWs (r := t) (u := u) ?_ hu
  rw [skipWs, List.dropWhile_append_of_pos hw, List.dropWhile_cons_of_neg]
  rcases hu with rfl | rfl | rfl <;> decide

theorem skipWs_append_cons {w : JsString} (hw : ∀ x ∈ w, isWs x = true) {c : JsString} :
    skipWs (w ++ c) = skipWs c := by
  rw [skipWs, List.dropWhile_append_of_pos hw, skipWs]

/-- Any text is its leading white space and what remains. -/
theorem skipWs_split (s : JsString) :
    ∃ w, s = w ++ skipWs s ∧ ∀ x ∈ w, isWs x = true :=
  ⟨s.takeWhile isWs, (List.takeWhile_append_dropWhile).symm,
    fun _ hx => List.mem_takeWhile_imp hx⟩

/-- What white space was skipped before begins with something else, whatever ends it. -/
theorem skipWs_again {s c r : JsString} {u : UInt16} (h : skipWs s = c ++ u :: r) (t : JsString) :
    skipWs (c ++ u :: t) = c ++ u :: t := by
  cases c with
  | nil => exact skipWs_of_not (skipWs_local h).1 t
  | cons a c => exact skipWs_of_not (skipWs_local (by simpa using h)).1 _

/-- **A reading depends on the consumed text alone**, and no object it returns has a name
    twice. -/
theorem parse_local (fuel : ℕ) :
    (∀ s v r, parseValue fuel s = some (v, r) → KeysDistinct v ∧
      ∃ c, s = c ++ r ∧ ∀ g ≥ fuel, ∀ t, NumEnd t ∨ s.head? = some 0x7B →
        parseValue g (c ++ t) = some (v, t)) ∧
    (∀ s vs r, parseElements fuel s = some (vs, r) → (∀ v ∈ vs, KeysDistinct v) ∧
      ∃ c, s = c ++ 0x5D :: r ∧
        ∀ g ≥ fuel, ∀ t, parseElements g (c ++ 0x5D :: t) = some (vs, t)) ∧
    (∀ s ms r, parseMembers fuel s = some (ms, r) → (∀ m ∈ ms, KeysDistinct m.2) ∧
      ∃ c, s = c ++ 0x7D :: r ∧
        ∀ g ≥ fuel, ∀ t, parseMembers g (c ++ 0x7D :: t) = some (ms, t)) := by
  induction fuel with
  | zero => simp [parseValue, parseElements, parseMembers]
  | succ fuel ih =>
      obtain ⟨ihv, ihe, ihm⟩ := ih
      refine ⟨?_, ?_, ?_⟩
      · intro s v r h
        rcases parseValue_cases h with ⟨hkd, hhd, c, hc, hloc⟩ | ⟨w, more, rfl, hw, rfl, rfl⟩ |
          ⟨w, b, more, vs, rfl, hw, hb, hvs, rfl⟩ | ⟨w, more, rfl, hw, rfl, rfl⟩ |
          ⟨w, b, more, ms, rfl, hw, hb, hms, rfl⟩
        · refine ⟨hkd, c, hc, fun g hg t ht => ?_⟩
          obtain ⟨g, rfl⟩ : ∃ g', g = g' + 1 := ⟨g - 1, by omega⟩
          exact hloc g t (ht.resolve_right hhd)
        · obtain ⟨-, ws, rfl, -, hskip⟩ := skipWs_local hw
          refine ⟨.arr [] (by simp), 0x5B :: (ws ++ [0x5D]), by simp, fun g hg t _ => ?_⟩
          obtain ⟨g, rfl⟩ : ∃ g', g = g' + 1 := ⟨g - 1, by omega⟩
          simp [parseValue, hskip]
        · obtain ⟨hkd, c, hc, hloc⟩ := ihe _ _ _ hvs
          obtain ⟨-, ws, rfl, -, hskip⟩ := skipWs_local hw
          refine ⟨.arr vs hkd, 0x5B :: (ws ++ (c ++ [0x5D])), by simp [hc], fun g hg t _ => ?_⟩
          obtain ⟨g, rfl⟩ : ∃ g', g = g' + 1 := ⟨g - 1, by omega⟩
          have hct := hloc g (by omega) t
          cases c with
          | nil =>
              obtain ⟨rfl, -⟩ := List.cons.inj hc
              exact absurd rfl hb
          | cons a c =>
              obtain ⟨rfl, -⟩ := List.cons.inj hc
              simp only [List.cons_append] at hct
              simp [parseValue, hskip, hb, hct]
        · obtain ⟨-, ws, rfl, -, hskip⟩ := skipWs_local hw
          refine ⟨.obj [] (by simp) (by simp), 0x7B :: (ws ++ [0x7D]), by simp,
            fun g hg t _ => ?_⟩
          obtain ⟨g, rfl⟩ : ∃ g', g = g' + 1 := ⟨g - 1, by omega⟩
          simp [parseValue, hskip]
        · obtain ⟨hkd, c, hc, hloc⟩ := ihm _ _ _ hms
          obtain ⟨-, ws, rfl, -, hskip⟩ := skipWs_local hw
          refine ⟨keysDistinct_objectOf hkd, 0x7B :: (ws ++ (c ++ [0x7D])), by simp [hc],
            fun g hg t _ => ?_⟩
          obtain ⟨g, rfl⟩ : ∃ g', g = g' + 1 := ⟨g - 1, by omega⟩
          have hct := hloc g (by omega) t
          cases c with
          | nil =>
              obtain ⟨rfl, -⟩ := List.cons.inj hc
              exact absurd rfl hb
          | cons a c =>
              obtain ⟨rfl, -⟩ := List.cons.inj hc
              simp only [List.cons_append] at hct
              simp [parseValue, hskip, hb, hct]
      · intro s vs r h
        obtain ⟨v, r', more, hv, hend⟩ := parseElements_cases h
        obtain ⟨hkd, cv, rfl, hlocv⟩ := ihv _ _ _ hv
        rcases hend with ⟨hs, rfl, rfl⟩ | ⟨hs, ws, hws, rfl⟩
        · obtain ⟨-, w, rfl, hw, hskip⟩ := skipWs_local hs
          refine ⟨by simpa using hkd, cv ++ w, by simp, fun g hg t => ?_⟩
          obtain ⟨g, rfl⟩ : ∃ g', g = g' + 1 := ⟨g - 1, by omega⟩
          have hval := hlocv g (by omega) (w ++ 0x5D :: t) (.inl (numEnd_ws hw (by simp) t))
          simp [parseElements, hval, hskip]
        · obtain ⟨-, w, rfl, hw, hskip⟩ := skipWs_local hs
          obtain ⟨hkds, c, hc, hloc⟩ := ihe _ _ _ hws
          obtain ⟨w', hw', hws'⟩ := skipWs_split more
          refine ⟨by simpa using ⟨hkd, hkds⟩, cv ++ (w ++ 0x2C :: (w' ++ c)), ?_,
            fun g hg t => ?_⟩
          · rw [hw', hc]
            simp
          · obtain ⟨g, rfl⟩ : ∃ g', g = g' + 1 := ⟨g - 1, by omega⟩
            have hval := hlocv g (by omega) (w ++ 0x2C :: (w' ++ (c ++ 0x5D :: t)))
              (.inl (numEnd_ws hw (by simp) _))
            have hrest := hloc g (by omega) t
            have hsk : skipWs (w' ++ (c ++ 0x5D :: t)) = c ++ 0x5D :: t := by
              rw [skipWs_append_cons hws', skipWs_again hc]
            simp [parseElements, hval, hskip, hsk, hrest]
      · intro s ms r h
        obtain ⟨q, k, r1, r2, v, r3, more, rfl, hk, h1, hv, hend⟩ := parseMembers_cases h
        obtain ⟨ck, rfl, hlock⟩ := parseChars_local hk
        obtain ⟨-, w1, rfl, -, hskip1⟩ := skipWs_local h1
        obtain ⟨w2, hw2, hws2⟩ := skipWs_split r2
        obtain ⟨hkd, cv, hcv, hlocv⟩ := ihv _ _ _ hv
        -- after the colon stand white space, the value, white space and a separator
        have hval : ∀ {w : JsString} {u : UInt16} {m : JsString}, r3 = w ++ u :: m →
            (∀ x ∈ w, isWs x = true) → (u = 0x2C ∨ u = 0x5D ∨ u = 0x7D) → ∀ g ≥ fuel, ∀ t,
            parseValue g (skipWs (w2 ++ (cv ++ (w ++ u :: t)))) = some (v, w ++ u :: t) := by
          intro w u m hr3 hw hu g hg t
          have hsk : skipWs (cv ++ (w ++ u :: t)) = cv ++ (w ++ u :: t) := by
            have := skipWs_again (c := cv ++ w) (u := u) (r := m) (by rw [hcv, hr3]; simp) t
            simpa using this
          rw [skipWs_append_cons hws2, hsk]
          exact hlocv g hg _ (.inl (numEnd_ws hw hu t))
        rcases hend with ⟨hs, rfl, rfl⟩ | ⟨hs, ns, hns, rfl⟩
        · obtain ⟨-, w, hr3, hw, hskip⟩ := skipWs_local hs
          refine ⟨by simpa using hkd, 0x22 :: (ck ++ (w1 ++ 0x3A :: (w2 ++ (cv ++ w)))), ?_,
            fun g hg t => ?_⟩
          · rw [hw2, hcv, hr3]
            simp
          · obtain ⟨g, rfl⟩ : ∃ g', g = g' + 1 := ⟨g - 1, by omega⟩
            have := hval hr3 hw (by simp) g (by omega) t
            simp [parseMembers, hlock, hskip1, this, hskip]
        · obtain ⟨-, w, hr3, hw, hskip⟩ := skipWs_local hs
          obtain ⟨hkds, c, hc, hloc⟩ := ihm _ _ _ hns
          obtain ⟨w', hw', hws'⟩ := skipWs_split more
          refine ⟨List.forall_mem_cons.mpr ⟨hkd, hkds⟩,
            0x22 :: (ck ++ (w1 ++ 0x3A :: (w2 ++ (cv ++ (w ++ 0x2C :: (w' ++ c)))))), ?_,
            fun g hg t => ?_⟩
          · rw [hw2, hcv, hr3, hw', hc]
            simp
          · obtain ⟨g, rfl⟩ : ∃ g', g = g' + 1 := ⟨g - 1, by omega⟩
            have := hval hr3 hw (by simp) g (by omega) (w' ++ (c ++ 0x7D :: t))
            have hrest := hloc g (by omega) t
            have hsk : skipWs (w' ++ (c ++ 0x7D :: t)) = c ++ 0x7D :: t := by
              rw [skipWs_append_cons hws', skipWs_again hc]
            simp [parseMembers, hlock, hskip1, this, hskip, hsk, hrest]

-- ── Cut texts ────────────────────────────────────────────────────────────────────

/-- An object that was read ends with its brace. -/
theorem parseValue_brace {fuel : ℕ} {s r : JsString} {v : Json}
    (h : parseValue fuel (0x7B :: s) = some (v, r)) :
    ∃ c, 0x7B :: s = c ++ 0x7D :: r := by
  cases fuel with
  | zero => simp [parseValue] at h
  | succ fuel =>
      rcases parseValue_cases h with ⟨-, hhd, -⟩ | ⟨w, more, heq, -⟩ |
        ⟨w, b, more, vs, heq, -⟩ | ⟨w, more, heq, hw, rfl, rfl⟩ |
        ⟨w, b, more, ms, heq, hw, -, hms, rfl⟩
      · exact absurd rfl hhd
      · exact absurd (List.cons.inj heq).1 (by decide)
      · exact absurd (List.cons.inj heq).1 (by decide)
      · obtain ⟨-, ws, rfl, -⟩ := skipWs_local hw
        exact ⟨0x7B :: ws, by simp [heq]⟩
      · obtain ⟨-, ws, rfl, -⟩ := skipWs_local hw
        obtain ⟨-, c, hc, -⟩ := (parse_local fuel).2.2 _ _ _ hms
        exact ⟨0x7B :: (ws ++ c), by simp [heq, hc]⟩

/-- **A text of an object that is cut short is no text**: not when the cut falls between two
    characters, and not when it leaves a replacement character. -/
theorem jsonParse_torn (indent : ℕ) {members : List (JsString × Json)}
    (hreg : Regular (.obj members)) {a b : JsString}
    (htext : stringifyAt indent 0 (.obj members) = a ++ b) (hb : b ≠ []) :
    jsonParse a = none ∧ jsonParse (a ++ [0xFFFD]) = none := by
  obtain ⟨tail, htail⟩ : ∃ tail, stringifyAt indent 0 (.obj members) = 0x7B :: tail := by
    cases members with
    | nil => exact ⟨js "\x7d", by rw [stringifyAt]; rfl⟩
    | cons m ms => exact ⟨_, by rw [stringifyAt]; rfl⟩
  cases a with
  | nil =>
      refine ⟨rfl, ?_⟩
      simp only [List.nil_append, jsonParse]
      rw [skipWs_of_not (by decide)]
      rfl
  | cons u a =>
      obtain ⟨rfl, -⟩ := List.cons.inj (htail.symm.trans htext)
      -- the part read ends with a brace, and only white space may follow it
      have hread : ∀ x v, jsonParse (0x7B :: a ++ x) = some v → ∃ fuel c r,
          0x7B :: a ++ x = c ++ 0x7D :: r ∧ skipWs r = [] ∧
            ∀ g ≥ fuel, ∀ t, parseValue g (c ++ 0x7D :: t) = some (v, t) := by
        intro x v hv
        unfold jsonParse at hv
        rw [List.cons_append, skipWs_of_not (by decide)] at hv
        split at hv
        · rename_i w r hp
          split_ifs at hv with hr
          obtain rfl := Option.some.inj hv
          obtain ⟨c, hc⟩ := parseValue_brace hp
          obtain ⟨-, d, hd, hloc⟩ := (parse_local _).1 _ _ _ hp
          have hcd : d = c ++ [0x7D] := by
            rw [hc] at hd
            have : (c ++ [0x7D]) ++ r = d ++ r := by simpa using hd
            exact (List.append_cancel_right this).symm
          refine ⟨2 * (0x7B :: (a ++ x)).length + 2, c, r, hc, hr, fun g hg t => ?_⟩
          have := hloc g hg t (.inr rfl)
          simpa [hcd] using this
        · cases hv
      refine ⟨?_, ?_⟩
      · rw [Option.eq_none_iff_forall_not_mem]
        intro v hv
        obtain ⟨fuel, c, r, hc, -, hloc⟩ := hread [] v (by simpa using hv)
        rw [List.append_nil] at hc
        rw [hc] at htext
        have hfull := readsBack_of_regular indent hreg 0
          (max fuel (2 * (stringifyAt indent 0 (.obj members)).length)) [] (le_max_right _ _)
          (by simp [NumEnd])
        rw [htext, List.append_nil, List.append_assoc, List.cons_append,
          hloc _ (le_max_left _ _)] at hfull
        have hnil := (Prod.mk.inj (Option.some.inj hfull)).2
        exact hb (List.append_eq_nil_iff.mp hnil).2
      · rw [Option.eq_none_iff_forall_not_mem]
        intro v hv
        obtain ⟨-, c, r, hc, hr, -⟩ := hread [0xFFFD] v hv
        -- the replacement character is neither the brace nor white space
        rcases List.eq_nil_or_concat r with rfl | ⟨r', z, rfl⟩
        · exact absurd (List.append_inj' hc rfl).2 (by decide)
        · have hc' : 0x7B :: a ++ [0xFFFD] = (c ++ 0x7D :: r') ++ [z] := by
            rw [hc, List.concat_eq_append]
            simp
          obtain rfl := (List.cons.inj (List.append_inj' hc' rfl).2).1
          have hws : ∀ x ∈ r' ++ [(0xFFFD : UInt16)], isWs x = true := by
            have := hr
            rw [skipWs, List.dropWhile_eq_nil_iff] at this
            simpa using this
          exact absurd (hws 0xFFFD (by simp)) (by decide)

end JsonParse
