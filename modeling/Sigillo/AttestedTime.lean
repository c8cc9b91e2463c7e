import Sigillo.GenTime

/-!
# Exactly the tokens it reads rightly

What a token of the documented shape is, and the path of elements down to its time.

* **`Path.Leads`** — the path the walk takes, which `genTimeOfToken` answers of (**`genTimeOfToken_eq_some`**);
* **`Path.NothingAfter`** — that each element of it ends where the shape says its parent does;
* **`TimeToken`** — a token of the shape, with anything in the fields it does not read;
* **`genTimeOfToken_meets_iff`** — it answers as documented but for what is left behind the last element of a
  parent, which it does not look at. -/

namespace Sigillo

open DoubleArith Utf16Text JsonText JsonParse IsoTime Der Placement

-- ── The path ─────────────────────────────────────────────────────────────────────

/-- The contents of the elements on the way to `genTime`. -/
structure Path where
  outer : Bytes
  info : Bytes
  content : Bytes
  signedData : Bytes
  encap : Bytes
  eContent : Bytes
  octets : Bytes
  tst : Bytes
  genTime : Bytes

namespace Path

/-- It is a response, which starts with its status. -/
def IsResponse (p : Path) : Prop := ∃ status, Field p.outer 0 SEQUENCE status

/-- **The path leads to the time of a token.** -/
structure Leads (p : Path) (token : Bytes) : Prop where
  outer : Last token 0 SEQUENCE p.outer
  info : p.IsResponse ∧ Field p.outer 1 SEQUENCE p.info ∨ p.info = p.outer
  contentType : ∃ oid, Field p.info 0 OID oid
  content : Field p.info 1 EXPLICIT_0 p.content
  signedData : Field p.content 0 SEQUENCE p.signedData
  encap : Field p.signedData 2 SEQUENCE p.encap
  eContent : Field p.encap 1 EXPLICIT_0 p.eContent
  octets : Field p.eContent 0 OCTET_STRING p.octets
  tst : Begins p.octets SEQUENCE p.tst
  genTime : Field p.tst 4 GENERALIZED_TIME p.genTime

/-- **Nothing after the end** of an element that the shape has last in its parent. -/
structure NothingAfter (p : Path) : Prop where
  info : p.IsResponse → Last p.outer 1 SEQUENCE p.info
  content : Last p.info 1 EXPLICIT_0 p.content
  signedData : Last p.content 0 SEQUENCE p.signedData
  eContent : Last p.encap 1 EXPLICIT_0 p.eContent
  octets : Last p.eContent 0 OCTET_STRING p.octets
  tst : Last p.octets 0 SEQUENCE p.tst

end Path

theorem not_isResponse_of_oid {outer oid : Bytes} (h : Field outer 0 OID oid) :
    ¬ ∃ status, Field outer 0 SEQUENCE status := by
  rintro ⟨status, hstatus⟩
  exact absurd (h.inj hstatus).1 (by decide)

/-- **There is one way.** -/
theorem Path.Leads.unique {p q : Path} {token : Bytes} (hp : p.Leads token) (hq : q.Leads token) : p = q := by
  obtain ⟨outer, info, content, signedData, encap, eContent, octets, tst, genTime⟩ := p
  obtain ⟨outer', info', content', signedData', encap', eContent', octets', tst', genTime'⟩ := q
  obtain rfl : outer = outer' := (hp.outer.field.inj hq.outer.field).2
  obtain rfl : info = info' := by
    obtain ⟨oid, hoid⟩ := hp.contentType
    obtain ⟨oid', hoid'⟩ := hq.contentType
    rcases hp.info with ⟨hresponse, hinfo⟩ | heq
    · rcases hq.info with ⟨-, hinfo'⟩ | heq'
      · exact (hinfo.inj hinfo').2
      · dsimp only at heq' hoid'
        rw [heq'] at hoid'
        exact absurd hresponse (not_isResponse_of_oid hoid')
    · rcases hq.info with ⟨hresponse, -⟩ | heq'
      · dsimp only at heq hoid
        rw [heq] at hoid
        exact absurd hresponse (not_isResponse_of_oid hoid)
      · exact heq.trans heq'.symm
  obtain rfl : content = content' := (hp.content.inj hq.content).2
  obtain rfl : signedData = signedData' := (hp.signedData.inj hq.signedData).2
  obtain rfl : encap = encap' := (hp.encap.inj hq.encap).2
  obtain rfl : eContent = eContent' := (hp.eContent.inj hq.eContent).2
  obtain rfl : octets = octets' := (hp.octets.inj hq.octets).2
  obtain rfl : tst = tst' := (hp.tst.inj hq.tst).2
  obtain rfl : genTime = genTime' := (hp.genTime.inj hq.genTime).2
  rfl

-- ── What is answered ─────────────────────────────────────────────────────────────

/-- A step down to a child that is wanted. -/
theorem child_down {token content : Bytes} {parent : Element} {k : ℕ} {tag : UInt8} {β : Type} {f : Element → Scan β}
    {b : β} (hspans : Spans token parent content)
    (h : (children token parent >>= fun es => tagged tag es[k]? >>= f).value = some b) :
    ∃ inner e, Field content k tag inner ∧ Spans token e inner ∧ (f e).value = some b := by
  obtain ⟨es, hes, h⟩ := Scan.bind_eq_some.mp h
  obtain ⟨e, he, hf⟩ := Scan.bind_eq_some.mp h
  obtain ⟨hget, htag⟩ := tagged_eq_some.mp he
  obtain ⟨inner, hfield, hspans'⟩ := children_field hspans hes hget
  exact ⟨inner, e, htag ▸ hfield, hspans', hf⟩

/-- The step is made where the field is there. -/
theorem child_step {token content inner : Bytes} {parent : Element} {k : ℕ} {tag : UInt8} {β : Type}
    {f : Element → Scan β} {b : β} (hspans : Spans token parent content) (hfield : Field content k tag inner)
    (h : ∀ e, Spans token e inner → (f e).value = some b) :
    (children token parent >>= fun es => tagged tag es[k]? >>= f).value = some b := by
  obtain ⟨es, e, hes, hget, htag, hspans'⟩ := field_children hspans hfield
  exact Scan.bind_eq_some.mpr ⟨es, hes,
    Scan.bind_eq_some.mpr ⟨e, tagged_eq_some.mpr ⟨hget, htag⟩, h e hspans'⟩⟩

theorem contentsOf_eq {token content : Bytes} {e : Element} (h : Spans token e content) :
    (contentsOf token e).value = some content := by
  rw [contentsOf, h.stop, Nat.add_sub_cancel_left, h.placed.take_drop]

theorem placedAt_take_drop {token content : Bytes} {offset : ℕ} {t : Tlv} {e : Element}
    (hspans : Spans token e content) (h : PlacedAt token offset t.bytes) (hstart : offset = e.start)
    (hlimit : offset + t.bytes.length ≤ e.stop) : ∃ rest, content = t.bytes ++ rest := by
  obtain ⟨before, after, htoken, hbefore⟩ := hspans.placed
  obtain ⟨before', after', htoken', hbefore'⟩ := h
  have hstop := hspans.stop
  rw [htoken] at htoken'
  obtain ⟨-, hrest⟩ := List.append_inj htoken' (by omega)
  refine ⟨content.drop t.bytes.length, ?_⟩
  have htake : content.take t.bytes.length = t.bytes := by
    have := congrArg (List.take t.bytes.length) hrest
    rwa [List.take_append_of_le_length (by omega), List.take_left] at this
  exact ((List.take_append_drop t.bytes.length content).symm.trans (by rw [htake]))

/-- **What is answered**: the time at the end of a path that leads there. -/
theorem genTimeOfToken_eq_some {token : Bytes} {iso : JsString} : (genTimeOfToken token).value = some iso ↔
    ∃ p : Path, p.Leads token ∧ isoOfGenTime (textDecode p.genTime) = some iso := by
  constructor
  · intro h
    obtain ⟨outer, houter, h⟩ := Scan.bind_eq_some.mp h
    obtain ⟨t, hplaced, -, rfl⟩ := element_some (Nat.le_refl _) houter
    obtain ⟨outer', houter', h⟩ := Scan.bind_eq_some.mp h
    obtain ⟨heq, htag⟩ := tagged_eq_some.mp houter'
    obtain rfl := Option.some.inj heq
    obtain ⟨_, hwhole, h⟩ := Scan.bind_eq_some.mp h
    have hwhole := Scan.guard_eq_some.mp hwhole
    have hspans := spans_elementAt hplaced
    have htoken : token = t.bytes := by
      have hlength : t.bytes.length = token.length := by
        rw [← hwhole, elementAt, t.length_bytes, Nat.zero_add]
      have hread := hplaced.take_drop
      rw [List.drop_zero, hlength, List.take_length] at hread
      exact hread
    obtain ⟨fields, hfields, h⟩ := Scan.bind_eq_some.mp h
    obtain ⟨contentInfo, hinfo, h⟩ := Scan.bind_eq_some.mp h
    obtain ⟨hof, hinfoTag⟩ := tagged_eq_some.mp hinfo
    obtain ⟨infoFields, hinfoFields, h⟩ := Scan.bind_eq_some.mp h
    obtain ⟨contentType, htype, h⟩ := Scan.bind_eq_some.mp h
    obtain ⟨htypeGet, htypeTag⟩ := tagged_eq_some.mp htype
    obtain ⟨content, hcontent, h⟩ := Scan.bind_eq_some.mp h
    obtain ⟨hcontentGet, hcontentTag⟩ := tagged_eq_some.mp hcontent
    obtain ⟨info, hinfoSpans, hinfoPath⟩ : ∃ info, Spans token contentInfo info ∧
        ((∃ status, Field t.content 0 SEQUENCE status) ∧ Field t.content 1 SEQUENCE info ∨ info = t.content) := by
      rw [contentInfoOf] at hof
      split_ifs at hof with hfirst
      · obtain ⟨first, hget⟩ : ∃ first, fields[0]? = some first := by
          cases hget : fields[0]? with
          | none =>
              rw [hget] at hfirst
              cases hfirst
          | some first => exact ⟨first, rfl⟩
        have hfirstTag : (first.tag == SEQUENCE) = true := by
          rw [hget] at hfirst
          exact hfirst
        obtain ⟨status, hstatus, -⟩ := children_field hspans hfields hget
        obtain ⟨info, hfield, hinfoSpans⟩ := children_field hspans hfields hof
        rw [beq_iff_eq] at hfirstTag
        rw [hfirstTag] at hstatus
        rw [hinfoTag] at hfield
        exact ⟨info, hinfoSpans, .inl ⟨⟨status, hstatus⟩, hfield⟩⟩
      · obtain rfl := Option.some.inj hof
        exact ⟨t.content, hspans, .inr rfl⟩
    obtain ⟨oid, hoid, -⟩ := children_field hinfoSpans hinfoFields htypeGet
    obtain ⟨contentBytes, hcontentField, hcontentSpans⟩ := children_field hinfoSpans hinfoFields hcontentGet
    rw [htypeTag] at hoid
    rw [hcontentTag] at hcontentField
    obtain ⟨signedData, _, hsignedData, hsignedSpans, h⟩ := child_down hcontentSpans h
    obtain ⟨encap, _, hencap, hencapSpans, h⟩ := child_down hsignedSpans h
    obtain ⟨eContent, _, heContent, heContentSpans, h⟩ := child_down hencapSpans h
    obtain ⟨octets, octetsAt, hoctets, hoctetsSpans, h⟩ := child_down heContentSpans h
    obtain ⟨tstAt, htstAt, h⟩ := Scan.bind_eq_some.mp h
    obtain ⟨tst, htstPlaced, htstRoom, rfl⟩ := element_some hoctetsSpans.le_length htstAt
    obtain ⟨tstAt', htstTag, h⟩ := Scan.bind_eq_some.mp h
    obtain ⟨heq, htstTag⟩ := tagged_eq_some.mp htstTag
    obtain rfl := Option.some.inj heq
    obtain ⟨rest, hrest⟩ := placedAt_take_drop hoctetsSpans htstPlaced rfl htstRoom
    obtain ⟨genTime, genTimeAt, hgenTime, hgenTimeSpans, h⟩ := child_down (spans_elementAt htstPlaced) h
    obtain ⟨value, hvalue, h⟩ := Scan.bind_eq_some.mp h
    rw [contentsOf_eq hgenTimeSpans] at hvalue
    obtain rfl := Option.some.inj hvalue
    exact ⟨⟨t.content, info, contentBytes, signedData, encap, eContent, octets, tst.content, genTime⟩,
      ⟨⟨[], t, htoken.trans (List.append_nil _).symm, rfl, htag, rfl⟩, hinfoPath, ⟨oid, hoid⟩, hcontentField, hsignedData,
        hencap, heContent, hoctets, ⟨tst, rest, hrest, htstTag, rfl⟩, hgenTime⟩, h⟩
  · rintro ⟨p, hp, hiso⟩
    obtain ⟨ts, t, htoken, hnone, htag, hcontents⟩ := hp.outer
    obtain rfl := List.eq_nil_of_length_eq_zero hnone
    rw [List.nil_append, flatten_cons, flatten_nil, List.append_nil] at htoken
    have hplaced : PlacedAt token 0 t.bytes := htoken ▸ PlacedAt.self t.bytes
    have hspans := spans_elementAt hplaced
    rw [hcontents] at hspans
    have hlength : t.bytes.length = token.length := by rw [htoken]
    have hwhole : (elementAt t 0).stop = token.length := by
      rw [← hlength, elementAt, t.length_bytes, Nat.zero_add]
    obtain ⟨oid, hoid⟩ := hp.contentType
    obtain ⟨fields, contentInfo, hfields, hof, hinfoTag, hinfoSpans⟩ : ∃ fields contentInfo,
        (children token (elementAt t 0)).value = some fields ∧
        contentInfoOf (elementAt t 0) fields = some contentInfo ∧ contentInfo.tag = SEQUENCE ∧
        Spans token contentInfo p.info := by
      rcases hp.info with ⟨⟨status, hstatus⟩, hinfo⟩ | heq
      · obtain ⟨fields, first, hfields, hfirst, hfirstTag, -⟩ := field_children hspans hstatus
        obtain ⟨fields', info, hfields', hget, hgetTag, hinfoSpans⟩ := field_children hspans hinfo
        obtain rfl := Option.some.inj (hfields.symm.trans hfields')
        refine ⟨fields, info, hfields, ?_, hgetTag, hinfoSpans⟩
        rw [contentInfoOf, if_pos, hget]
        rw [hfirst]
        exact beq_iff_eq.mpr hfirstTag
      · rw [heq] at hoid ⊢
        obtain ⟨fields, first, hfields, hfirst, hfirstTag, -⟩ := field_children hspans hoid
        refine ⟨fields, elementAt t 0, hfields, ?_, htag, hspans⟩
        rw [contentInfoOf, if_neg]
        rw [hfirst]
        show ¬ (first.tag == SEQUENCE) = true
        rw [hfirstTag]
        decide
    obtain ⟨infoFields, contentType, hinfoFields, htypeGet, htypeTag, -⟩ := field_children hinfoSpans hoid
    obtain ⟨infoFields', content, hinfoFields', hcontentGet, hcontentTag, hcontentSpans⟩ :=
      field_children hinfoSpans hp.content
    obtain rfl := Option.some.inj (hinfoFields.symm.trans hinfoFields')
    refine Scan.bind_eq_some.mpr ⟨_, element_of_placed hplaced (by omega), ?_⟩
    refine Scan.bind_eq_some.mpr ⟨_, tagged_eq_some.mpr ⟨rfl, htag⟩, ?_⟩
    refine Scan.bind_eq_some.mpr ⟨(), Scan.guard_eq_some.mpr hwhole, ?_⟩
    refine Scan.bind_eq_some.mpr ⟨fields, hfields, ?_⟩
    refine Scan.bind_eq_some.mpr ⟨contentInfo, tagged_eq_some.mpr ⟨hof, hinfoTag⟩, ?_⟩
    refine Scan.bind_eq_some.mpr ⟨infoFields, hinfoFields, ?_⟩
    refine Scan.bind_eq_some.mpr ⟨contentType, tagged_eq_some.mpr ⟨htypeGet, htypeTag⟩, ?_⟩
    refine Scan.bind_eq_some.mpr ⟨content, tagged_eq_some.mpr ⟨hcontentGet, hcontentTag⟩, ?_⟩
    refine child_step hcontentSpans hp.signedData fun signedData hsignedSpans => ?_
    refine child_step hsignedSpans hp.encap fun encap hencapSpans => ?_
    refine child_step hencapSpans hp.eContent fun eContent heContentSpans => ?_
    refine child_step heContentSpans hp.octets fun octets hoctetsSpans => ?_
    obtain ⟨tst, rest, hoctets, htstTag, htst⟩ := hp.tst
    have htstPlaced : PlacedAt token octets.start tst.bytes := by
      have := hoctetsSpans.placed
      rw [hoctets] at this
      exact this.left
    have htstRoom : octets.start + tst.bytes.length ≤ octets.stop := by
      rw [hoctetsSpans.stop, hoctets, List.length_append]
      omega
    refine Scan.bind_eq_some.mpr ⟨_, element_of_placed htstPlaced htstRoom, ?_⟩
    refine Scan.bind_eq_some.mpr ⟨_, tagged_eq_some.mpr ⟨rfl, htstTag⟩, ?_⟩
    have htstSpans := spans_elementAt htstPlaced
    rw [htst] at htstSpans
    refine child_step htstSpans hp.genTime fun genTime hgenTimeSpans => ?_
    exact Scan.bind_eq_some.mpr ⟨_, contentsOf_eq hgenTimeSpans, hiso⟩

-- ── Tokens of the shape ──────────────────────────────────────────────────────────

/-- The tag of an integer. -/
def INTEGER : UInt8 := 0x02

/-- The tag of a set. -/
def SET : UInt8 := 0x31

/-- **A token of the documented shape**: a `TimeStampResp` with its status, or a bare `ContentInfo`; anything in the
    fields that are not read, and any further fields where the shape leaves room for them. -/
structure TimeToken where
  status : Option Bytes
  contentType : Bytes
  version : Bytes
  digestAlgorithms : Bytes
  eContentType : Bytes
  signedDataRest : List (UInt8 × Bytes)
  tstVersion : Bytes
  policy : Bytes
  messageImprint : Bytes
  serialNumber : Bytes
  genTime : AttestedInstant
  tstRest : List (UInt8 × Bytes)

namespace TimeToken

/-- The fields of the attested information. -/
def tstFields (k : TimeToken) : List (UInt8 × Bytes) :=
  [(INTEGER, k.tstVersion), (OID, k.policy), (SEQUENCE, k.messageImprint), (INTEGER, k.serialNumber),
    (GENERALIZED_TIME, utf8Encode k.genTime.text)] ++ k.tstRest

/-- The octets it is in. -/
def octets (k : TimeToken) : Bytes := encodeAll ([] ++ [(SEQUENCE, encodeAll k.tstFields)])

/-- The content of its encapsulation. -/
def eContent (k : TimeToken) : Bytes := encodeAll ([] ++ [(OCTET_STRING, k.octets)])

/-- Its encapsulation. -/
def encap (k : TimeToken) : Bytes := encodeAll ([(OID, k.eContentType)] ++ [(EXPLICIT_0, k.eContent)])

/-- The fields of the signed data. -/
def signedDataFields (k : TimeToken) : List (UInt8 × Bytes) :=
  [(INTEGER, k.version), (SET, k.digestAlgorithms), (SEQUENCE, k.encap)] ++ k.signedDataRest

/-- The content of the information. -/
def content (k : TimeToken) : Bytes := encodeAll ([] ++ [(SEQUENCE, encodeAll k.signedDataFields)])

/-- The information itself. -/
def info (k : TimeToken) : Bytes := encodeAll ([(OID, k.contentType)] ++ [(EXPLICIT_0, k.content)])

/-- The contents of the whole. -/
def outer (k : TimeToken) : Bytes :=
  match k.status with
  | none => k.info
  | some status => encodeAll ([(SEQUENCE, status)] ++ [(SEQUENCE, k.info)])

/-- The bytes of the token. -/
def bytes (k : TimeToken) : Bytes := encode SEQUENCE k.outer

/-- The path down to its time. -/
def path (k : TimeToken) : Path where
  outer := k.outer
  info := k.info
  content := k.content
  signedData := encodeAll k.signedDataFields
  encap := k.encap
  eContent := k.eContent
  octets := k.octets
  tst := encodeAll k.tstFields
  genTime := utf8Encode k.genTime.text

theorem lengths (k : TimeToken) : k.info.length ≤ k.outer.length ∧ k.content.length < k.info.length ∧
    (encodeAll k.signedDataFields).length < k.content.length ∧
    k.encap.length < (encodeAll k.signedDataFields).length ∧ k.eContent.length < k.encap.length ∧
    k.octets.length < k.eContent.length ∧ (encodeAll k.tstFields).length < k.octets.length := by
  refine ⟨?_, ?_, ?_, ?_, ?_, ?_, ?_⟩
  · rw [outer]
    cases k.status with
    | none => exact Nat.le_refl _
    | some status =>
        exact Nat.le_of_lt (length_lt_encodeAll (f := (SEQUENCE, k.info))
          (List.mem_cons_of_mem _ List.mem_cons_self))
  · exact length_lt_encodeAll (f := (EXPLICIT_0, k.content)) (List.mem_cons_of_mem _ List.mem_cons_self)
  · exact length_lt_encodeAll (f := (SEQUENCE, encodeAll k.signedDataFields)) List.mem_cons_self
  · exact length_lt_encodeAll (f := (SEQUENCE, k.encap))
      (List.mem_append_left _ (List.mem_cons_of_mem _ (List.mem_cons_of_mem _ List.mem_cons_self)))
  · exact length_lt_encodeAll (f := (EXPLICIT_0, k.eContent)) (List.mem_cons_of_mem _ List.mem_cons_self)
  · exact length_lt_encodeAll (f := (OCTET_STRING, k.octets)) List.mem_cons_self
  · exact length_lt_encodeAll (f := (SEQUENCE, encodeAll k.tstFields)) List.mem_cons_self

/-- **Its path leads to its time, with nothing after the end of an element**, when its contents take less than 2³²
    bytes. -/
theorem path_leads {k : TimeToken} (h : k.outer.length < 256 ^ 4) :
    k.path.Leads k.bytes ∧ k.path.NothingAfter := by
  obtain ⟨hinfo, hcontent, hsigned, hencap, heContent, hoctets, htst⟩ := k.lengths
  have lastOuter : Last k.bytes 0 SEQUENCE k.outer :=
    ⟨[], encoded SEQUENCE k.outer h, (List.append_nil _).symm, rfl, rfl, rfl⟩
  have lastContent : Last k.info 1 EXPLICIT_0 k.content := last_encodeAll (lt_of_le_of_lt hinfo h)
  have fieldType : Field k.info 0 OID k.contentType := field_encodeAll (lt_of_le_of_lt hinfo h) rfl
  have lastSigned : Last k.content 0 SEQUENCE (encodeAll k.signedDataFields) :=
    last_encodeAll (by unfold content at *; omega)
  have fieldEncap : Field (encodeAll k.signedDataFields) 2 SEQUENCE k.encap := field_encodeAll (by omega) rfl
  have lastEContent : Last k.encap 1 EXPLICIT_0 k.eContent := last_encodeAll (by unfold encap at *; omega)
  have lastOctets : Last k.eContent 0 OCTET_STRING k.octets := last_encodeAll (by unfold eContent at *; omega)
  have lastTst : Last k.octets 0 SEQUENCE (encodeAll k.tstFields) := last_encodeAll (by unfold octets at *; omega)
  have fieldTime : Field (encodeAll k.tstFields) 4 GENERALIZED_TIME (utf8Encode k.genTime.text) :=
    field_encodeAll (by omega) rfl
  have hresponse : ∀ status, k.status = some status →
      Field k.outer 0 SEQUENCE status ∧ Last k.outer 1 SEQUENCE k.info := by
    intro status hstatus
    have houter : k.outer = encodeAll ([(SEQUENCE, status)] ++ [(SEQUENCE, k.info)]) := by
      rw [outer, hstatus]
    rw [houter] at h ⊢
    exact ⟨field_encodeAll h rfl, last_encodeAll h⟩
  have hbare : k.status = none → k.info = k.outer := by
    intro hstatus
    rw [outer, hstatus]
  refine ⟨⟨lastOuter, ?_, ⟨k.contentType, fieldType⟩, lastContent.field, lastSigned.field, fieldEncap,
    lastEContent.field, lastOctets.field, lastTst.begins, fieldTime⟩, ⟨?_, lastContent, lastSigned, lastEContent,
    lastOctets, lastTst⟩⟩
  · cases hstatus : k.status with
    | none => exact .inr (hbare hstatus)
    | some status =>
        obtain ⟨hfirst, hlast⟩ := hresponse status hstatus
        exact .inl ⟨⟨status, hfirst⟩, hlast.field⟩
  · intro hasStatus
    cases hstatus : k.status with
    | none =>
        rw [hbare hstatus] at fieldType
        exact absurd hasStatus (not_isResponse_of_oid fieldType)
    | some status => exact (hresponse status hstatus).2

end TimeToken

-- ── Exactly the tokens ───────────────────────────────────────────────────────────

/-- Every element on the path is inside its parent and nothing follows it where nothing may, and the time is real. -/
def IsSound (token : Bytes) : Prop := ∃ p : Path, p.Leads token ∧ p.NothingAfter ∧ IsRealTime (textDecode p.genTime)

/-- **The contract**: a token of the shape is answered with its instant, and one that is not sound with nothing. -/
def MeetsContract (token : Bytes) : Prop :=
  (∀ k : TimeToken, k.outer.length < 256 ^ 126 → k.bytes = token → (genTimeOfToken token).value = some k.genTime.iso) ∧
  (¬ IsSound token → (genTimeOfToken token).value = none)

/-- Something follows an element of the path that the shape has last in its parent, and the time can be read. -/
def HasMoreAfter (token : Bytes) : Prop :=
  ∃ p : Path, p.Leads token ∧ ¬ p.NothingAfter ∧ Readable (textDecode p.genTime)

/-- A token of the shape, of 2³² bytes or more. -/
def IsOversized (token : Bytes) : Prop :=
  ∃ k : TimeToken, k.outer.length < 256 ^ 126 ∧ k.bytes = token ∧ 256 ^ 4 ≤ k.outer.length

/-- What is left behind an element goes unseen. -/
theorem answered_of_hasMoreAfter {token : Bytes} (h : HasMoreAfter token) :
    (∃ iso, (genTimeOfToken token).value = some iso) ∧ ¬ IsSound token := by
  obtain ⟨p, hp, hmore, hreadable⟩ := h
  refine ⟨⟨_, genTimeOfToken_eq_some.mpr ⟨p, hp, isoOfGenTime_eq_some.mpr ⟨hreadable, rfl⟩⟩⟩, ?_⟩
  rintro ⟨q, hq, hnothing, -⟩
  obtain rfl := hp.unique hq
  exact hmore hnothing

/-- A length of more than four octets is not read. -/
theorem not_leads_of_oversized {k : TimeToken} (hsmall : k.outer.length < 256 ^ 126) (hlarge : 256 ^ 4 ≤ k.outer.length)
    (p : Path) : ¬ p.Leads k.bytes := by
  intro hp
  obtain ⟨ts, t, htoken, hnone, -, -⟩ := hp.outer
  obtain rfl := List.eq_nil_of_length_eq_zero hnone
  rw [List.nil_append, flatten_cons, flatten_nil, List.append_nil] at htoken
  have hmany : (octetsOf k.outer.length).length ≤ 126 := by
    rw [length_octetsOf]
    exact (Nat.digits_length_le_iff (by norm_num) _).mpr hsmall
  have hfew : ¬ (octetsOf k.outer.length).length ≤ 4 := by
    rw [length_octetsOf]
    intro hle
    exact absurd ((Nat.digits_length_le_iff (by norm_num) _).mp hle) (not_lt.mpr hlarge)
  have hlong : ¬ k.outer.length < 128 := by
    intro hlt
    exact absurd hlarge (not_le.mpr (hlt.trans (by norm_num)))
  have hhead : (UInt8.ofNat (128 + (octetsOf k.outer.length).length)).toNat
      = 128 + (octetsOf k.outer.length).length :=
    UInt8.toNat_ofNat_of_lt' (by rw [UInt8.size]; omega)
  rw [TimeToken.bytes, encode, lengthOctets, if_neg hlong, Tlv.bytes] at htoken
  have hrest := (List.cons.inj htoken).2
  obtain ⟨l, rest, hoctets, hle⟩ := t.spelled.head_le
  rw [hoctets] at hrest
  have hl := (List.cons.inj hrest).1
  rw [← hl, hhead] at hle
  omega

/-- **It reads inside the buffer, and meets its contract exactly** where nothing is left behind an element that
    ends its parent, and no token of the shape is of 2³² bytes or more. -/
theorem genTimeOfToken_meets_iff (token : Bytes) : (genTimeOfToken token).Inside token.length ∧
    (MeetsContract token ↔ ¬ HasMoreAfter token ∧ ¬ IsOversized token) := by
  refine ⟨genTimeOfToken_inside token, ?_⟩
  constructor
  · rintro ⟨hshape, hunsound⟩
    refine ⟨fun hmore => ?_, ?_⟩
    · obtain ⟨⟨iso, hsome⟩, hnot⟩ := answered_of_hasMoreAfter hmore
      rw [hunsound hnot] at hsome
      cases hsome
    · rintro ⟨k, hsmall, htoken, hlarge⟩
      obtain ⟨p, hp, -⟩ := genTimeOfToken_eq_some.mp (hshape k hsmall htoken)
      rw [← htoken] at hp
      exact not_leads_of_oversized hsmall hlarge p hp
  · rintro ⟨hmore, hsize⟩
    refine ⟨fun k hsmall htoken => ?_, fun hunsound => ?_⟩
    · have hlt : k.outer.length < 256 ^ 4 := by
        by_contra hlarge
        exact hsize ⟨k, hsmall, htoken, not_lt.mp hlarge⟩
      refine genTimeOfToken_eq_some.mpr ⟨k.path, htoken ▸ (k.path_leads hlt).1, ?_⟩
      show isoOfGenTime (textDecode (utf8Encode k.genTime.text)) = _
      rw [k.genTime.textDecode_text, k.genTime.isoOfGenTime_text]
    · cases hvalue : (genTimeOfToken token).value with
      | none => rfl
      | some iso =>
          obtain ⟨p, hp, hiso⟩ := genTimeOfToken_eq_some.mp hvalue
          have hreadable := (isoOfGenTime_eq_some.mp hiso).1
          by_cases hnothing : p.NothingAfter
          · exact absurd ⟨p, hp, hnothing, hreadable.real⟩ hunsound
          · exact absurd ⟨p, hp, hnothing, hreadable⟩ hmore

/-- The first instant of a year. -/
def toyInstant : AttestedInstant where
  year := 2026
  month := 1
  day := 1
  hour := 0
  minute := 0
  second := 0
  places := 0
  fraction := 0
  isYear := by decide
  isMonth := isMonth_one
  isDay := isDay_one
  isTime := by decide
  isFraction := by decide

/-- A token that attests it, with nothing in the fields that are not read. -/
def toyToken : TimeToken := ⟨none, [], [], [], [], [], [], [], [], [], toyInstant, []⟩

/-- The path of the same, with a byte after the `TSTInfo` in its string. -/
def toyPath : Path :=
  let octets := toyToken.octets ++ [0xFF]
  let eContent := encodeAll [(OCTET_STRING, octets)]
  let encap := encodeAll [(OID, []), (EXPLICIT_0, eContent)]
  let signedData := encodeAll [(INTEGER, []), (SET, []), (SEQUENCE, encap)]
  let content := encodeAll [(SEQUENCE, signedData)]
  let info := encodeAll [(OID, []), (EXPLICIT_0, content)]
  { toyToken.path with outer := info, info, content, signedData, encap, eContent, octets }

/-- The attested information of the toy token. -/
def toyTst : Tlv := encoded SEQUENCE (encodeAll toyToken.tstFields) (by decide +kernel)

theorem toyPath_octets : toyPath.octets = toyTst.bytes ++ [0xFF] := by
  show toyTst.bytes ++ [] ++ [0xFF] = _
  rw [List.append_nil]

theorem toyPath_leads : toyPath.Leads (encode SEQUENCE toyPath.outer) where
  outer := ⟨[], encoded SEQUENCE toyPath.outer (by decide +kernel), (List.append_nil _).symm, rfl, rfl, rfl⟩
  info := .inr rfl
  contentType := ⟨[], field_encodeAll (by decide +kernel) rfl⟩
  content := field_encodeAll (by decide +kernel) rfl
  signedData := field_encodeAll (by decide +kernel) rfl
  encap := field_encodeAll (by decide +kernel) rfl
  eContent := field_encodeAll (by decide +kernel) rfl
  octets := field_encodeAll (by decide +kernel) rfl
  tst := ⟨toyTst, [0xFF], toyPath_octets, rfl, rfl⟩
  genTime := field_encodeAll (by decide +kernel) rfl

/-- **A byte after the `TSTInfo`** in its string, and the time is given all the same. -/
theorem genTimeOfToken_more :
    (genTimeOfToken (encode SEQUENCE toyPath.outer)).value = some (js "2026-01-01T00:00:00.000Z") ∧
    ¬ MeetsContract (encode SEQUENCE toyPath.outer) := by
  have htext : isoOfGenTime (textDecode toyPath.genTime) = some toyInstant.iso := by
    show isoOfGenTime (textDecode (utf8Encode toyInstant.text)) = _
    rw [toyInstant.textDecode_text, toyInstant.isoOfGenTime_text]
  have hvalue := genTimeOfToken_eq_some.mpr ⟨toyPath, toyPath_leads, htext⟩
  refine ⟨hvalue, fun hmeets => ?_⟩
  have hmore : HasMoreAfter (encode SEQUENCE toyPath.outer) := by
    refine ⟨toyPath, toyPath_leads, fun hnothing => ?_, (isoOfGenTime_eq_some.mp htext).1⟩
    obtain ⟨ts, t, hlast, hnone, -, -⟩ := hnothing.tst
    obtain rfl := List.eq_nil_of_length_eq_zero hnone
    rw [toyPath_octets] at hlast
    cases (Tlv.bytes_append_inj hlast).2
  rw [hmeets.2 (answered_of_hasMoreAfter hmore).2] at hvalue
  cases hvalue

end Sigillo
