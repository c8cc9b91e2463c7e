import Sigillo.DocumentText
import Sigillo.ScalarText

/-!
# Other line endings

A text file may be saved with LF or CRLF, with or without a final newline, with or without a byte order
mark, and still be the same file. The variants of a document are those of its body: the text without all
its final newlines. So they hold every respelling of a document that ends in one newline at most, and miss
some of every other (**`respellings_found_iff`**). -/

namespace Sigillo

open Utf16Text

-- ── Lines ────────────────────────────────────────────────────────────────────────

/-- A text of LF lines, with these or with CRLF. -/
def spelled (crlf : Bool) (s : JsString) : JsString := if crlf then windowsLines s else s

/-- Unit by unit. -/
theorem windowsLines_cons (u : UInt16) (s : JsString) :
    windowsLines (u :: s) = (if u = LF then [CR, LF] else [u]) ++ windowsLines s := rfl

/-- What is no carriage return stays. -/
theorem unixLines_cons_of_ne {u : UInt16} (h : u ≠ CR) (s : JsString) : unixLines (u :: s) = u :: unixLines s := by
  cases s with
  | nil =>
      show [if u = CR then LF else u] = [u]
      rw [if_neg h]
  | cons v s => rw [unixLines, if_neg h]

/-- Of a carriage return before a newline, the newline is left. -/
theorem unixLines_crlf (s : JsString) : unixLines (CR :: LF :: s) = LF :: unixLines s := by
  rw [unixLines, if_pos rfl, if_pos rfl]

/-- Lines are told apart however they end. -/
theorem unixLines_spelled {s : JsString} (h : CR ∉ s) (crlf : Bool) : unixLines (spelled crlf s) = s := by
  induction s with
  | nil => cases crlf <;> rfl
  | cons u s ih =>
      obtain ⟨hu, hs⟩ := not_or.mp fun hmem => h (List.mem_cons.mpr hmem)
      have ih := ih hs
      cases crlf with
      | false => exact (unixLines_cons_of_ne (Ne.symm hu) s).trans (congrArg (u :: ·) ih)
      | true =>
          show unixLines (windowsLines (u :: s)) = u :: s
          rw [windowsLines_cons]
          by_cases hlf : u = LF
          · rw [if_pos hlf, hlf]
            exact (unixLines_crlf _).trans (congrArg (LF :: ·) ih)
          · rw [if_neg hlf]
            exact (unixLines_cons_of_ne (Ne.symm hu) _).trans (congrArg (u :: ·) ih)

/-- Texts behind each other are spelled one after the other. -/
theorem spelled_append (crlf : Bool) (s t : JsString) : spelled crlf (s ++ t) = spelled crlf s ++ spelled crlf t := by
  cases crlf with
  | false => rfl
  | true => exact List.flatMap_append

/-- Byte order marks are spelled as they are. -/
theorem spelled_marks (crlf : Bool) (n : ℕ) : spelled crlf (List.replicate n BOM) = List.replicate n BOM := by
  cases crlf with
  | false => rfl
  | true =>
      induction n with
      | zero => rfl
      | succ n ih => exact congrArg (BOM :: ·) ih

/-- **Two spellings are of one text.** -/
theorem spelled_inj {s t : JsString} (hs : CR ∉ s) (ht : CR ∉ t) {b b' : Bool} (h : spelled b s = spelled b' t) :
    s = t := by
  rw [← unixLines_spelled hs b, h, unixLines_spelled ht b']

/-- Dropping a mark does not depend on the line endings. -/
theorem dropMark_spelled (crlf : Bool) (s : JsString) : dropMark (spelled crlf s) = spelled crlf (dropMark s) := by
  cases crlf with
  | false => rfl
  | true =>
      cases s with
      | nil => rfl
      | cons u s =>
          show dropMark (windowsLines (u :: s)) = windowsLines (dropMark (u :: s))
          rw [windowsLines_cons, dropMark]
          by_cases hlf : u = LF
          · subst hlf
            rfl
          · by_cases hmark : u = BOM
            · subst hmark
              rfl
            · rw [if_neg hlf, if_neg hmark, windowsLines_cons, if_neg hlf]
              exact if_neg hmark

-- ── The parts of a text ──────────────────────────────────────────────────────────

/-- A text of LF lines by its parts: the marks it begins with, the newlines it ends with, and what stands
    between them. -/
def parts (marks : ℕ) (core : JsString) (newlines : ℕ) : JsString :=
  List.replicate marks BOM ++ core ++ List.replicate newlines LF

/-- What stands between begins with no mark, and ends with no newline. -/
structure IsCore (core : JsString) : Prop where
  lines : CR ∉ core
  first : core.head? ≠ some BOM
  last : core.getLast? ≠ some LF

variable {core : JsString}

/-- No carriage return among the parts. -/
theorem IsCore.cr_not_mem_parts (h : IsCore core) (marks newlines : ℕ) : CR ∉ parts marks core newlines := by
  rw [parts, List.mem_append, List.mem_append]
  rintro ((hmark | hcore) | hnewline)
  · exact absurd (List.eq_of_mem_replicate hmark) (by decide)
  · exact h.lines hcore
  · exact absurd (List.eq_of_mem_replicate hnewline) (by decide)

/-- What begins with no mark: the core with its newlines. -/
theorem IsCore.head_ne (h : IsCore core) (newlines : ℕ) :
    (core ++ List.replicate newlines LF).head? ≠ some BOM := by
  cases core with
  | cons u core => exact h.first
  | nil =>
      cases newlines with
      | zero => exact nofun
      | succ n => exact fun heq => absurd (Option.some.inj heq) (by decide)

/-- The marks and the newlines of a text are counted in one way. -/
theorem parts_inj (h : IsCore core) {m m' n n' : ℕ} (heq : parts m core n = parts m' core n') : m = m' ∧ n = n' := by
  rw [parts, parts, List.append_assoc, List.append_assoc] at heq
  have hlength := congrArg List.length heq
  simp only [List.length_append, List.length_replicate] at hlength
  -- the longer run of marks would reach into the core
  have hnot : ∀ {a b x y : ℕ}, List.replicate a BOM ++ (core ++ List.replicate x LF)
      = List.replicate b BOM ++ (core ++ List.replicate y LF) → ¬ a < b := by
    intro a b x y heq hlt
    obtain ⟨d, rfl⟩ := Nat.exists_eq_add_of_lt hlt
    rw [Nat.add_assoc, List.replicate_add, List.append_assoc] at heq
    have hrest := List.append_cancel_left heq
    exact h.head_ne x (by rw [hrest]; rfl)
  have hsame : m = m' := le_antisymm (not_lt.mp (hnot heq.symm)) (not_lt.mp (hnot heq))
  exact ⟨hsame, by omega⟩

/-- What the variants of a text have in common: its core, and every mark but one. -/
theorem lineBody_parts (h : IsCore core) (crlf : Bool) (marks newlines : ℕ) :
    lineBody (spelled crlf (parts marks core newlines)) = List.replicate (marks - 1) BOM ++ core := by
  have hdrop : dropMark (parts marks core newlines) = parts (marks - 1) core newlines := by
    cases marks with
    | succ m => rfl
    | zero =>
        have hhead := h.head_ne newlines
        show dropMark (core ++ List.replicate newlines LF) = core ++ List.replicate newlines LF
        cases hparts : core ++ List.replicate newlines LF with
        | nil => rfl
        | cons u rest =>
            rw [hparts] at hhead
            exact if_neg fun heq => hhead (congrArg some heq)
  rw [lineBody, dropMark_spelled, hdrop, unixLines_spelled (h.cr_not_mem_parts _ _)]
  clear hdrop
  induction newlines with
  | succ n ih =>
      rw [parts, List.replicate_succ', ← List.append_assoc, List.rdropWhile_concat_pos _ _ _ rfl]
      exact ih
  | zero =>
      rw [parts, List.replicate_zero, List.append_nil, List.rdropWhile_eq_self_iff]
      intro hne hlast
      rw [beq_iff_eq] at hlast
      rcases List.eq_nil_or_concat core with rfl | ⟨before, u, rfl⟩
      · have hmem := List.getLast_mem hne
        rw [hlast, List.append_nil] at hmem
        exact absurd (List.eq_of_mem_replicate hmem) (by decide)
      · refine h.last ?_
        rw [← hlast]
        simp

-- ── Variants ─────────────────────────────────────────────────────────────────────

/-- The variants as they are gathered: what is neither the document nor gathered already. -/
theorem mem_gathered {bytes : Bytes} {candidates : List Bytes} {gathered : List Bytes} {y : Bytes} :
    y ∈ candidates.foldl (fun variants encoded =>
        if encoded = bytes ∨ encoded ∈ variants then variants else variants ++ [encoded]) gathered ↔
      y ∈ gathered ∨ (y ∈ candidates ∧ y ≠ bytes) := by
  induction candidates generalizing gathered with
  | nil => simp
  | cons encoded candidates ih =>
      rw [List.foldl_cons, ih, List.mem_cons]
      by_cases hskip : encoded = bytes ∨ encoded ∈ gathered
      · rw [if_pos hskip]
        constructor
        · rintro (hold | ⟨hmem, hne⟩)
          · exact .inl hold
          · exact .inr ⟨.inr hmem, hne⟩
        · rintro (hold | ⟨rfl | hmem, hne⟩)
          · exact .inl hold
          · exact .inl (hskip.resolve_left hne)
          · exact .inr ⟨hmem, hne⟩
      · rw [if_neg hskip, List.mem_append, List.mem_singleton]
        obtain ⟨hne, -⟩ := not_or.mp hskip
        constructor
        · rintro ((hold | rfl) | ⟨hmem, hne'⟩)
          · exact .inl hold
          · exact .inr ⟨.inl rfl, hne⟩
          · exact .inr ⟨.inr hmem, hne'⟩
        · rintro (hold | ⟨rfl | hmem, hne'⟩)
          · exact .inl (.inl hold)
          · exact .inl (.inr rfl)
          · exact .inr ⟨hmem, hne'⟩

/-- No spelling is gathered twice. -/
theorem gathered_nodup (bytes : Bytes) (candidates : List Bytes) {gathered : List Bytes} (h : gathered.Nodup) :
    (candidates.foldl (fun variants encoded =>
        if encoded = bytes ∨ encoded ∈ variants then variants else variants ++ [encoded]) gathered).Nodup ∧
      (candidates.foldl (fun variants encoded =>
        if encoded = bytes ∨ encoded ∈ variants then variants else variants ++ [encoded]) gathered).length
          ≤ gathered.length + candidates.length := by
  induction candidates generalizing gathered with
  | nil => exact ⟨h, le_rfl⟩
  | cons encoded candidates ih =>
      rw [List.foldl_cons, List.length_cons]
      by_cases hskip : encoded = bytes ∨ encoded ∈ gathered
      · rw [if_pos hskip]
        obtain ⟨hnodup, hlength⟩ := ih h
        exact ⟨hnodup, by omega⟩
      · rw [if_neg hskip]
        obtain ⟨-, hnew⟩ := not_or.mp hskip
        have hnodup' : (gathered ++ [encoded]).Nodup := by
          rw [List.nodup_append]
          refine ⟨h, List.nodup_singleton _, fun a ha b hb heq => hnew ?_⟩
          rwa [← List.mem_singleton.mp hb, ← heq]
        obtain ⟨hnodup, hlength⟩ := ih hnodup'
        rw [List.length_append, List.length_singleton] at hlength
        exact ⟨hnodup, by omega⟩

/-- **The spellings of a body**: with a final newline or none, a mark or none, and either line ending. -/
theorem mem_lineSpellings {body t : JsString} : t ∈ lineSpellings body ↔
    ∃ newlines ≤ 1, ∃ crlf, ∃ marks ≤ 1,
      t = List.replicate marks BOM ++ spelled crlf (body ++ List.replicate newlines LF) := by
  constructor
  · intro h
    simp only [lineSpellings, List.bind_eq_flatMap, List.mem_flatMap, List.mem_cons, List.not_mem_nil, or_false,
      List.pure_def] at h
    obtain ⟨tail, htail, crlf, -, mark, hmark, rfl⟩ := h
    have hnewlines : ∃ newlines ≤ 1, tail = List.replicate newlines LF := by
      rcases htail with rfl | rfl
      · exact ⟨0, by norm_num, rfl⟩
      · exact ⟨1, le_rfl, rfl⟩
    have hmarks : ∃ marks ≤ 1, mark = List.replicate marks BOM := by
      rcases hmark with rfl | rfl
      · exact ⟨0, by norm_num, rfl⟩
      · exact ⟨1, le_rfl, rfl⟩
    obtain ⟨newlines, hnewlines, rfl⟩ := hnewlines
    obtain ⟨marks, hmarks, rfl⟩ := hmarks
    exact ⟨newlines, hnewlines, crlf, marks, hmarks, rfl⟩
  · rintro ⟨newlines, hnewlines, crlf, marks, hmarks, rfl⟩
    simp only [lineSpellings, List.bind_eq_flatMap, List.mem_flatMap, List.mem_cons, List.not_mem_nil, or_false,
      List.pure_def]
    refine ⟨List.replicate newlines LF, ?_, crlf, ?_, List.replicate marks BOM, ?_, rfl⟩
    · rcases Nat.le_one_iff_eq_zero_or_eq_one.mp hnewlines with rfl | rfl
      · exact .inl rfl
      · exact .inr rfl
    · cases crlf with
      | false => exact .inl rfl
      | true => exact .inr rfl
    · rcases Nat.le_one_iff_eq_zero_or_eq_one.mp hmarks with rfl | rfl
      · exact .inl rfl
      · exact .inr rfl

/-- A newline is a plain unit. -/
theorem plain_lf : Plain LF := by decide

/-- A byte order mark is a plain unit. -/
theorem plain_bom : Plain BOM := by decide

/-- A plain unit, over and over. -/
theorem scalars_replicate {u : UInt16} (hu : Plain u) (n : ℕ) : Scalars (List.replicate n u) := by
  induction n with
  | zero => exact .nil
  | succ n ih => exact ih.unit hu

/-- Spelling keeps scalar values. -/
theorem scalars_spelled {s : JsString} (h : Scalars s) (crlf : Bool) : Scalars (spelled crlf s) := by
  cases crlf with
  | false => exact h
  | true =>
      show Scalars (windowsLines s)
      refine Scalars.induct (P := fun s => Scalars (windowsLines s)) .nil (fun u s hu _ ih => ?_)
        (fun hi lo s hhi hlo _ ih => ?_) h
      · rw [windowsLines_cons]
        split
        · exact (ih.unit plain_lf).unit (by decide)
        · exact ih.unit hu
      · have hne : ∀ {u : UInt16}, isHigh u = true ∨ isLow u = true → u ≠ LF := by
          rintro u h rfl
          revert h
          decide
        rw [windowsLines_cons, windowsLines_cons, if_neg (hne (.inl hhi)), if_neg (hne (.inr hlo))]
        exact ih.pair hhi hlo

/-- A text of LF lines, the text of some bytes. -/
structure IsPartsOf (marks : ℕ) (core : JsString) (newlines : ℕ) (crlf : Bool) (x : Bytes) : Prop extends
    IsCore core where
  text : Scalars core
  bytes : x = utf8Encode (spelled crlf (parts marks core newlines))

variable {m m' n n' : ℕ} {b b' : Bool} {x y : Bytes}

/-- The parts are scalar values where the core is. -/
theorem scalars_parts (h : Scalars core) (m n : ℕ) : Scalars (parts m core n) :=
  ((scalars_replicate plain_bom m).append h).append (scalars_replicate plain_lf n)

/-- A document is decoded to its parts. -/
theorem IsPartsOf.decoded (h : IsPartsOf m core n b x) :
    sigilloDecodeUtf8 x = some (spelled b (parts m core n)) := by
  rw [h.bytes]
  exact sigilloDecodeUtf8_utf8Encode (scalars_spelled (scalars_parts h.text m n) b).isWellFormed

/-- Bytes of the same core are the same only if all their parts are. -/
theorem IsPartsOf.parts_eq (h : IsPartsOf m core n b x) (h' : IsPartsOf m' core n' b' x) : m = m' ∧ n = n' := by
  have htext := Option.some.inj (h.decoded.symm.trans h'.decoded)
  exact parts_inj h.toIsCore (spelled_inj (h.cr_not_mem_parts m n) (h.cr_not_mem_parts m' n') htext)

/-- **The variants of a document**: one newline at most, and one mark more or less. -/
theorem mem_variants_iff (h : IsPartsOf m core n b x) (h' : IsPartsOf m' core n' b' y) :
    y ∈ sigilloLineEndingVariants x ↔ y ≠ x ∧ n' ≤ 1 ∧ (m' = m - 1 ∨ m' = m - 1 + 1) := by
  have hmem : y ∈ (lineSpellings (lineBody (spelled b (parts m core n)))).map utf8Encode ↔
      n' ≤ 1 ∧ (m' = m - 1 ∨ m' = m - 1 + 1) := by
    have hspelling : ∀ (j k : ℕ) (crlf : Bool), List.replicate k BOM
        ++ spelled crlf (List.replicate (m - 1) BOM ++ core ++ List.replicate j LF)
          = spelled crlf (parts (k + (m - 1)) core j) := by
      intro j k crlf
      rw [parts, List.replicate_add, List.append_assoc, List.append_assoc, List.append_assoc,
        spelled_append crlf (List.replicate k BOM), spelled_marks]
    have hwell : ∀ (j k : ℕ) (crlf : Bool), isWellFormed (spelled crlf (parts k core j)) = true :=
      fun j k crlf => (scalars_spelled (scalars_parts h.text k j) crlf).isWellFormed
    rw [lineBody_parts h.toIsCore, List.mem_map]
    constructor
    · rintro ⟨t, ht, heq⟩
      obtain ⟨j, hj, crlf, k, hk, rfl⟩ := mem_lineSpellings.mp ht
      rw [hspelling, h'.bytes] at heq
      have htext := utf8Encode_injective (hwell _ _ _) (hwell _ _ _) heq
      obtain ⟨rfl, rfl⟩ := parts_inj h.toIsCore
        (spelled_inj (h.cr_not_mem_parts _ _) (h.cr_not_mem_parts _ _) htext)
      exact ⟨hj, by omega⟩
    · rintro ⟨hnewlines, hmarks⟩
      refine ⟨spelled b' (parts m' core n'), mem_lineSpellings.mpr ⟨n', hnewlines, b', m' - (m - 1), by omega, ?_⟩,
        h'.bytes.symm⟩
      rw [hspelling, show m' - (m - 1) + (m - 1) = m' by omega]
  rw [sigilloLineEndingVariants, h.decoded]
  show y ∈ List.foldl _ [] _ ↔ _
  rw [mem_gathered, hmem, and_comm]
  exact or_iff_right List.not_mem_nil

-- ── Respellings ──────────────────────────────────────────────────────────────────

/-- One final newline is added or removed, or neither. -/
def FinalNewline (s t : JsString) : Prop := t = s ∨ t = s ++ [LF] ∨ s = t ++ [LF]

/-- A leading byte order mark is added or removed, or neither. -/
def LeadingMark (s t : JsString) : Prop := t = s ∨ t = BOM :: s ∨ s = BOM :: t

/-- One final newline is added where there is none, or removed, or neither. -/
def FinalNewlineOnce (s t : JsString) : Prop :=
  t = s ∨ (t = s ++ [LF] ∧ s.getLast? ≠ some LF) ∨ s = t ++ [LF]

/-- A leading byte order mark is added where there is none, or removed, or neither. -/
def LeadingMarkOnce (s t : JsString) : Prop := t = s ∨ (t = BOM :: s ∧ s.head? ≠ some BOM) ∨ s = BOM :: t

/-- **A document spelled anew**: its line endings converted or not, its final newline and its leading mark
    changed as may be. -/
def RespelledBy (newline mark : JsString → JsString → Prop) (x y : Bytes) : Prop :=
  ∃ crlf crlf' s t r, CR ∉ s ∧ sigilloDecodeUtf8 x = some (spelled crlf s) ∧ newline s t ∧ mark t r ∧
    sigilloDecodeUtf8 y = some (spelled crlf' r)

/-- With one newline and one mark more or less. -/
def RespelledLines : Bytes → Bytes → Prop := RespelledBy FinalNewline LeadingMark

/-- With or without a newline, and with or without a mark. -/
def RespelledOnce : Bytes → Bytes → Prop := RespelledBy FinalNewlineOnce LeadingMarkOnce

/-- **Found from either side**: each is the other or one of its variants. -/
def FoundFrom (x y : Bytes) : Prop :=
  (y = x ∨ y ∈ sigilloLineEndingVariants x) ∧ (x = y ∨ x ∈ sigilloLineEndingVariants y)

/-- **When a document is found from another** of the same core. -/
theorem foundFrom_iff (h : IsPartsOf m core n b x) (h' : IsPartsOf m' core n' b' y) : FoundFrom x y ↔
    x = y ∨ (n ≤ 1 ∧ n' ≤ 1 ∧ (m' = m - 1 ∨ m' = m - 1 + 1) ∧ (m = m' - 1 ∨ m = m' - 1 + 1)) := by
  rw [FoundFrom, mem_variants_iff h h', mem_variants_iff h' h]
  by_cases hsame : x = y
  · exact iff_of_true ⟨.inl hsame.symm, .inl hsame⟩ (.inl hsame)
  · have hsame' : y ≠ x := Ne.symm hsame
    constructor
    · rintro ⟨hxy | ⟨-, hn', hm'⟩, hyx | ⟨-, hn, hm⟩⟩
      · exact absurd hyx hsame
      · exact absurd hxy hsame'
      · exact absurd hyx hsame
      · exact .inr ⟨hn, hn', hm', hm⟩
    · rintro (heq | ⟨hn, hn', hm', hm⟩)
      · exact absurd heq hsame
      · exact ⟨.inr ⟨hsame', hn', hm'⟩, .inr ⟨hsame, hn, hm⟩⟩

/-- **Every text is made of its parts.** -/
theorem exists_parts {s : JsString} (h : CR ∉ s) : ∃ m core n, IsCore core ∧ s = parts m core n := by
  have hmarks : ∃ m rest, s = List.replicate m BOM ++ rest ∧ rest.head? ≠ some BOM := by
    clear h
    induction s with
    | nil => exact ⟨0, [], rfl, nofun⟩
    | cons u s ih =>
        by_cases hmark : u = BOM
        · obtain ⟨m, rest, rfl, hrest⟩ := ih
          exact ⟨m + 1, rest, by rw [hmark]; rfl, hrest⟩
        · exact ⟨0, u :: s, rfl, fun heq => hmark (Option.some.inj heq)⟩
  obtain ⟨m, rest, rfl, hfirst⟩ := hmarks
  have hnewlines : ∃ core n, rest = core ++ List.replicate n LF ∧ core.getLast? ≠ some LF := by
    clear hfirst h
    induction rest using List.reverseRecOn with
    | nil => exact ⟨[], 0, rfl, nofun⟩
    | append_singleton rest u ih =>
        by_cases hnewline : u = LF
        · obtain ⟨core, n, rfl, hlast⟩ := ih
          exact ⟨core, n + 1, by rw [hnewline, List.replicate_succ', List.append_assoc], hlast⟩
        · refine ⟨rest ++ [u], 0, (List.append_nil _).symm, fun heq => hnewline ?_⟩
          rw [List.getLast?_concat] at heq
          exact Option.some.inj heq
  obtain ⟨core, n, rfl, hlast⟩ := hnewlines
  refine ⟨m, core, n, ⟨fun hmem => h ?_, fun heq => hfirst ?_, hlast⟩, ?_⟩
  · exact List.mem_append_right _ (List.mem_append_left _ hmem)
  · rw [List.head?_append, heq]
    rfl
  · rw [parts, List.append_assoc]

/-- Unix lines keep scalar values. -/
theorem scalars_unixLines {s : JsString} (h : Scalars s) : Scalars (unixLines s) := by
  refine Scalars.induct (P := fun s => Scalars (unixLines s)) .nil (fun u s hu _ ih => ?_)
    (fun hi lo s hhi hlo _ ih => ?_) h
  · by_cases hcr : u = CR
    · subst hcr
      cases s with
      | nil => exact Scalars.nil.unit plain_lf
      | cons v rest =>
          rw [unixLines, if_pos rfl]
          by_cases hlf : v = LF
          · subst hlf
            rwa [if_pos rfl, ← unixLines_cons_of_ne (by decide)]
          · rw [if_neg hlf]
            exact ih.unit plain_lf
    · rw [unixLines_cons_of_ne hcr]
      exact ih.unit hu
  · have hne : ∀ {u : UInt16}, isHigh u = true ∨ isLow u = true → u ≠ CR := by
      rintro u h rfl
      revert h
      decide
    rw [unixLines_cons_of_ne (hne (.inl hhi)), unixLines_cons_of_ne (hne (.inr hlo))]
    exact ih.pair hhi hlo

/-- The core of scalar values is one. -/
theorem IsCore.scalars (h : IsCore core) {m n : ℕ} {crlf : Bool} (hs : Scalars (spelled crlf (parts m core n))) :
    Scalars core := by
  have hparts := scalars_unixLines hs
  rw [unixLines_spelled (h.cr_not_mem_parts m n)] at hparts
  have hfront : Scalars (List.replicate m BOM ++ core) := by
    cases n with
    | zero => rwa [parts, List.replicate_zero, List.append_nil] at hparts
    | succ n => exact hparts.before plain_lf (t := List.replicate n LF) rfl
  clear hparts hs h
  induction m with
  | zero => exact hfront
  | succ m ih => exact ih (hfront.behind plain_bom rfl)

/-- A document of one kind of line ending is made of its parts. -/
theorem exists_isPartsOf {text : JsString} (hx : sigilloDecodeUtf8 x = some text) {crlf : Bool} {s : JsString}
    (hs : CR ∉ s) (htext : text = spelled crlf s) :
    ∃ m core n, IsPartsOf m core n crlf x ∧ s = parts m core n := by
  obtain ⟨m, core, n, hcore, rfl⟩ := exists_parts hs
  obtain ⟨hwell, hbytes⟩ := sigilloDecodeUtf8_eq_some.mp hx
  subst htext
  exact ⟨m, core, n, ⟨hcore, hcore.scalars (scalars_iff.mpr hwell), hbytes.symm⟩, rfl⟩

/-- A newline behind the parts is one more. -/
theorem parts_newline (m : ℕ) (core : JsString) (k : ℕ) : parts m core k ++ [LF] = parts m core (k + 1) := by
  rw [parts, parts, List.replicate_succ', List.append_assoc, List.append_assoc]

/-- A text that ends in a newline has one among its parts. -/
theorem parts_eq_newline (h : IsCore core) {t : JsString} (heq : parts m core n = t ++ [LF]) :
    ∃ k, n = k + 1 ∧ t = parts m core k := by
  cases n with
  | succ n =>
      rw [← parts_newline] at heq
      exact ⟨n, rfl, (List.append_cancel_right heq).symm⟩
  | zero =>
      have hlast := congrArg List.getLast? heq
      rw [List.getLast?_concat, parts, List.replicate_zero, List.append_nil, List.getLast?_append] at hlast
      cases hcore : core.getLast? with
      | some u =>
          rw [hcore] at hlast
          exact absurd (hcore.trans hlast) h.last
      | none =>
          rw [hcore, Option.none_or] at hlast
          exact absurd (List.eq_of_mem_replicate (List.mem_of_getLast? hlast)) (by decide)

/-- A text that begins with a mark has one among its parts. -/
theorem parts_eq_mark (h : IsCore core) {t : JsString} (heq : parts m core n = BOM :: t) :
    ∃ k, m = k + 1 ∧ t = parts k core n := by
  cases m with
  | succ m => exact ⟨m, rfl, (List.cons.inj heq).2.symm⟩
  | zero =>
      rw [parts, List.replicate_zero, List.nil_append] at heq
      exact absurd (congrArg List.head? heq) (h.head_ne n)

/-- A final newline more or fewer, in parts. -/
theorem finalNewline_parts (h : IsCore core) {t : JsString} : FinalNewline (parts m core n) t ↔
    ∃ n', t = parts m core n' ∧ (n' = n ∨ n' = n + 1 ∨ n = n' + 1) := by
  constructor
  · rintro (rfl | rfl | hless)
    · exact ⟨n, rfl, .inl rfl⟩
    · exact ⟨n + 1, parts_newline m core n, .inr (.inl rfl)⟩
    · obtain ⟨k, rfl, rfl⟩ := parts_eq_newline h hless
      exact ⟨k, rfl, .inr (.inr rfl)⟩
  · rintro ⟨n', rfl, rfl | rfl | rfl⟩
    · exact .inl rfl
    · exact .inr (.inl (parts_newline m core n).symm)
    · exact .inr (.inr (parts_newline m core n').symm)

/-- A leading mark more or fewer, in parts. -/
theorem leadingMark_parts (h : IsCore core) {t : JsString} : LeadingMark (parts m core n) t ↔
    ∃ m', t = parts m' core n ∧ (m' = m ∨ m' = m + 1 ∨ m = m' + 1) := by
  constructor
  · rintro (rfl | rfl | hless)
    · exact ⟨m, rfl, .inl rfl⟩
    · exact ⟨m + 1, rfl, .inr (.inl rfl)⟩
    · obtain ⟨k, rfl, rfl⟩ := parts_eq_mark h hless
      exact ⟨k, rfl, .inr (.inr rfl)⟩
  · rintro ⟨m', rfl, rfl | rfl | rfl⟩
    · exact .inl rfl
    · exact .inr (.inl rfl)
    · exact .inr (.inr rfl)

/-- A mark is first exactly where there is one. -/
theorem head?_parts (h : IsCore core) : (parts m core n).head? = some BOM ↔ m ≠ 0 := by
  constructor
  · intro hhead
    obtain ⟨t, ht⟩ := List.head?_eq_some_iff.mp hhead
    obtain ⟨k, rfl, -⟩ := parts_eq_mark h ht
    exact Nat.succ_ne_zero k
  · intro hm
    obtain ⟨k, rfl⟩ := Nat.exists_eq_succ_of_ne_zero hm
    rfl

/-- A newline is last exactly where there is one. -/
theorem getLast?_parts (h : IsCore core) : (parts m core n).getLast? = some LF ↔ n ≠ 0 := by
  constructor
  · intro hlast
    obtain ⟨t, ht⟩ := List.getLast?_eq_some_iff.mp hlast
    obtain ⟨k, rfl, -⟩ := parts_eq_newline h ht
    exact Nat.succ_ne_zero k
  · intro hn
    obtain ⟨k, rfl⟩ := Nat.exists_eq_succ_of_ne_zero hn
    rw [Nat.succ_eq_add_one, ← parts_newline, List.getLast?_concat]

/-- A final newline where there is none, or one fewer, in parts. -/
theorem finalNewlineOnce_parts (h : IsCore core) {t : JsString} : FinalNewlineOnce (parts m core n) t ↔
    ∃ n', t = parts m core n' ∧ (n' = n ∨ (n' = n + 1 ∧ n = 0) ∨ n = n' + 1) := by
  rw [FinalNewlineOnce, ne_eq, getLast?_parts h, not_not]
  constructor
  · rintro (rfl | ⟨rfl, hnone⟩ | hless)
    · exact ⟨n, rfl, .inl rfl⟩
    · exact ⟨n + 1, parts_newline m core n, .inr (.inl ⟨rfl, hnone⟩)⟩
    · obtain ⟨k, rfl, rfl⟩ := parts_eq_newline h hless
      exact ⟨k, rfl, .inr (.inr rfl)⟩
  · rintro ⟨n', rfl, rfl | ⟨rfl, hnone⟩ | rfl⟩
    · exact .inl rfl
    · exact .inr (.inl ⟨(parts_newline m core n).symm, hnone⟩)
    · exact .inr (.inr (parts_newline m core n').symm)

/-- A leading mark where there is none, or one fewer, in parts. -/
theorem leadingMarkOnce_parts (h : IsCore core) {t : JsString} : LeadingMarkOnce (parts m core n) t ↔
    ∃ m', t = parts m' core n ∧ (m' = m ∨ (m' = m + 1 ∧ m = 0) ∨ m = m' + 1) := by
  rw [LeadingMarkOnce, ne_eq, head?_parts h, not_not]
  constructor
  · rintro (rfl | ⟨rfl, hnone⟩ | hless)
    · exact ⟨m, rfl, .inl rfl⟩
    · exact ⟨m + 1, rfl, .inr (.inl ⟨rfl, hnone⟩)⟩
    · obtain ⟨k, rfl, rfl⟩ := parts_eq_mark h hless
      exact ⟨k, rfl, .inr (.inr rfl)⟩
  · rintro ⟨m', rfl, rfl | ⟨rfl, hnone⟩ | rfl⟩
    · exact .inl rfl
    · exact .inr (.inl ⟨rfl, hnone⟩)
    · exact .inr (.inr rfl)

/-- Two marks first. -/
theorem two_marks_parts (h : IsCore core) : [BOM, BOM] <+: parts m core n ↔ 2 ≤ m := by
  constructor
  · rintro ⟨t, ht⟩
    obtain ⟨k, rfl, hk⟩ := parts_eq_mark h ht.symm
    obtain ⟨j, rfl, -⟩ := parts_eq_mark h hk.symm
    omega
  · intro hm
    obtain ⟨k, rfl⟩ := Nat.exists_eq_add_of_le hm
    rw [parts, List.replicate_add, List.append_assoc, List.append_assoc]
    exact List.prefix_append _ _

/-- Two newlines last. -/
theorem two_newlines_parts (h : IsCore core) : [LF, LF] <:+ parts m core n ↔ 2 ≤ n := by
  constructor
  · rintro ⟨t, ht⟩
    have heq : parts m core n = (t ++ [LF]) ++ [LF] := by
      rw [← ht, List.append_assoc]
      rfl
    obtain ⟨k, rfl, hk⟩ := parts_eq_newline h heq
    obtain ⟨j, rfl, -⟩ := parts_eq_newline h hk.symm
    omega
  · intro hn
    obtain ⟨k, rfl⟩ := Nat.exists_eq_add_of_le' hn
    rw [← parts_newline, ← parts_newline, List.append_assoc]
    exact List.suffix_append _ _

-- ── Which documents are found ────────────────────────────────────────────────────

/-- What is found and has other parts has one newline at most. -/
theorem IsPartsOf.foundFrom_ne (h : IsPartsOf m core n b x) (h' : IsPartsOf m' core n' b' y)
    (hne : ¬ (m = m' ∧ n = n')) (hfound : FoundFrom x y) :
    n ≤ 1 ∧ n' ≤ 1 ∧ (m' = m - 1 ∨ m' = m - 1 + 1) ∧ (m = m' - 1 ∨ m = m' - 1 + 1) := by
  refine ((foundFrom_iff h h').mp hfound).resolve_left ?_
  rintro rfl
  exact hne (h.parts_eq h')

/-- What a document is spelled anew as is made of the same core. -/
theorem IsPartsOf.respelledBy_iff (h : IsPartsOf m core n b x) {newline mark : JsString → JsString → Prop}
    {P Q : ℕ → ℕ → Prop}
    (hnewline : ∀ {m n t}, newline (parts m core n) t ↔ ∃ n', t = parts m core n' ∧ P n n')
    (hmark : ∀ {m n t}, mark (parts m core n) t ↔ ∃ m', t = parts m' core n ∧ Q m m') :
    RespelledBy newline mark x y ↔ ∃ m' n' b', P n n' ∧ Q m m' ∧ IsPartsOf m' core n' b' y := by
  constructor
  · rintro ⟨crlf, crlf', s, t, r, hs, hx, ht, hr, hy⟩
    obtain rfl : s = parts m core n :=
      spelled_inj hs (h.cr_not_mem_parts m n) (Option.some.inj (hx.symm.trans h.decoded))
    obtain ⟨n', rfl, hP⟩ := hnewline.mp ht
    obtain ⟨m', rfl, hQ⟩ := hmark.mp hr
    exact ⟨m', n', crlf', hP, hQ, h.toIsCore, h.text, (sigilloDecodeUtf8_eq_some.mp hy).2.symm⟩
  · rintro ⟨m', n', b', hP, hQ, hy⟩
    exact ⟨b, b', _, _, _, h.cr_not_mem_parts m n, h.decoded, hnewline.mpr ⟨n', rfl, hP⟩,
      hmark.mpr ⟨m', rfl, hQ⟩, hy.decoded⟩

/-- There is a document of any parts. -/
theorem exists_parts_bytes (h : IsPartsOf m core n b x) (m' n' : ℕ) (b' : Bool) : ∃ y, IsPartsOf m' core n' b' y :=
  ⟨_, h.toIsCore, h.text, rfl⟩

/-- **A document is found from its respellings exactly where it ends in one newline at most, and begins with
    one mark at most**, a newline and a mark being added where there is none; from every one with a newline
    more, or a mark more, exactly where it has none. What a document is found by is never itself, and no more
    than eight, each once. -/
theorem respellings_found_iff {x : Bytes} {crlf : Bool} {s : JsString} (hs : CR ∉ s)
    (hx : sigilloDecodeUtf8 x = some (spelled crlf s)) :
    ((∀ y, RespelledOnce x y → FoundFrom x y) ↔ ¬ [LF, LF] <:+ s ∧ ¬ [BOM, BOM] <+: s) ∧
    ((∀ y, RespelledLines x y → FoundFrom x y) ↔ s.getLast? ≠ some LF ∧ s.head? ≠ some BOM) ∧
    ∀ z, z ∉ sigilloLineEndingVariants z ∧ (sigilloLineEndingVariants z).Nodup ∧
      (sigilloLineEndingVariants z).length ≤ 8 := by
  obtain ⟨m, core, n, h, rfl⟩ := exists_isPartsOf hx hs rfl
  have honce : ∀ y, RespelledOnce x y ↔ _ := fun y =>
    h.respelledBy_iff (y := y) (finalNewlineOnce_parts h.toIsCore) (leadingMarkOnce_parts h.toIsCore)
  have hany : ∀ y, RespelledLines x y ↔ _ := fun y =>
    h.respelledBy_iff (y := y) (finalNewline_parts h.toIsCore) (leadingMark_parts h.toIsCore)
  rw [two_newlines_parts h.toIsCore, two_marks_parts h.toIsCore, ne_eq, ne_eq, getLast?_parts h.toIsCore,
    head?_parts h.toIsCore, not_not, not_not]
  refine ⟨⟨fun hall => ⟨fun hn => ?_, fun hm => ?_⟩, ?_⟩, ⟨fun hall => ⟨?_, ?_⟩, ?_⟩, fun z => ?_⟩
  · -- of two newlines or more one is removed
    obtain ⟨y, hy⟩ := exists_parts_bytes h m (n - 1) crlf
    have hfound := hall y ((honce y).mpr ⟨m, n - 1, crlf, .inr (.inr (by omega)), .inl rfl, hy⟩)
    have hbound := (h.foundFrom_ne hy (by omega) hfound).1
    omega
  · -- of two marks or more one is removed
    obtain ⟨y, hy⟩ := exists_parts_bytes h (m - 1) n crlf
    have hfound := hall y ((honce y).mpr ⟨m - 1, n, crlf, .inl rfl, .inr (.inr (by omega)), hy⟩)
    have hbound := (h.foundFrom_ne hy (by omega) hfound).2.2.2
    omega
  · rintro ⟨hn, hm⟩ y hrespelled
    obtain ⟨m', n', b', hP, hQ, hy⟩ := (honce y).mp hrespelled
    exact (foundFrom_iff h hy).mpr (.inr (by omega))
  · -- a newline is added to those that are there
    by_contra hn
    obtain ⟨y, hy⟩ := exists_parts_bytes h m (n + 1) crlf
    have hfound := hall y ((hany y).mpr ⟨m, n + 1, crlf, .inr (.inl rfl), .inl rfl, hy⟩)
    have hbound := (h.foundFrom_ne hy (by omega) hfound).2.1
    omega
  · by_contra hm
    obtain ⟨y, hy⟩ := exists_parts_bytes h (m + 1) n crlf
    have hfound := hall y ((hany y).mpr ⟨m + 1, n, crlf, .inl rfl, .inr (.inl rfl), hy⟩)
    have hbound := (h.foundFrom_ne hy (by omega) hfound).2.2.1
    omega
  · rintro ⟨hn, hm⟩ y hrespelled
    obtain ⟨m', n', b', hP, hQ, hy⟩ := (hany y).mp hrespelled
    exact (foundFrom_iff h hy).mpr (.inr (by omega))
  · rw [sigilloLineEndingVariants]
    cases hz : sigilloDecodeUtf8 z with
    | none => exact ⟨List.not_mem_nil, List.nodup_nil, Nat.zero_le _⟩
    | some text =>
        have hgathered := gathered_nodup z ((lineSpellings (lineBody text)).map utf8Encode) List.nodup_nil
        refine ⟨fun hmem => ?_, hgathered.1, hgathered.2⟩
        rcases mem_gathered.mp hmem with hnil | ⟨-, hne⟩
        · cases hnil
        · exact hne rfl

/-- A line and a line ending. -/
theorem respellings_found_iff_line :
    ((∀ y, RespelledOnce (utf8Encode (js "a\n")) y → FoundFrom (utf8Encode (js "a\n")) y) ↔
      ¬ [LF, LF] <:+ js "a\n" ∧ ¬ [BOM, BOM] <+: js "a\n") := by
  have htext : sigilloDecodeUtf8 (utf8Encode (js "a\n")) = some (spelled false (js "a\n")) := by decide
  exact (respellings_found_iff (by decide) htext).1

/-- **A text that ends in a blank line is not found with other line endings**: its variants have lost it. -/
theorem blank_line_lost :
    RespelledOnce (utf8Encode (js "a\n\n")) (utf8Encode (js "a\r\n\r\n")) ∧
      ¬ (utf8Encode (js "a\r\n\r\n") = utf8Encode (js "a\n\n") ∨
        utf8Encode (js "a\r\n\r\n") ∈ sigilloLineEndingVariants (utf8Encode (js "a\n\n"))) :=
  ⟨⟨false, true, js "a\n\n", js "a\n\n", js "a\n\n", by decide, by decide, .inl rfl, .inl rfl, by decide⟩,
    by decide⟩

end Sigillo
