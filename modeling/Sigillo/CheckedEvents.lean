import Sigillo.EventReceipts
import Sigillo.JsonSize
import Sigillo.Fallible

/-!
# Which events a receipt is built of

An event becomes a receipt when each of its members fits its field (`Fits`), every text in it is
well-formed, and the whole takes no more than `MAX_RECEIPT_BYTES` (**`buildUnsigned_isOk`**). All
three are read off the event: the order in which a receipt writes its members changes neither its
texts nor its size. -/

namespace Sigillo

open DoubleArith Utf16Text JsonText JsonSchema HexBase64 IsoTime EcmaText Fallible

-- ── Members that fit ─────────────────────────────────────────────────────────────

/-- A text has a length a receipt takes. -/
def TextFits (max : ℕ) (s : JsString) : Prop := 1 ≤ s.length ∧ s.length ≤ max

instance (max : ℕ) : DecidablePred (TextFits max) := fun _ => inferInstanceAs (Decidable (_ ∧ _))

/-- The names of an actor fit. -/
def ActorInput.Fits (a : ActorInput) : Prop :=
  TextFits MAX_NAME a.agent ∧ ∀ t, a.onBehalfOf = some t → isPseudonym t

/-- The ids of a source fit. -/
def SourceInput.Fits (s : SourceInput) : Prop :=
  (∀ t, s.traceId = some t → IsHex 32 t) ∧ ∀ t, s.spanId = some t → IsHex 16 t

/-- The members of a document fit. -/
def ArtifactInput.Fits (a : ArtifactInput) : Prop :=
  TextFits MAX_NAME a.label ∧ TextFits MAX_MEDIA_TYPE a.mediaType ∧ IsHex 64 a.sha256 ∧
    ∀ t, a.text = some t → IsHex 64 t

/-- The names of a model fit. -/
def ModelInput.Fits (m : ModelInput) : Prop :=
  TextFits MAX_MODEL_FIELD m.name ∧ (∀ t, m.provider = some t → TextFits MAX_MODEL_FIELD t) ∧
    ∀ t, m.digest = some t → TextFits MAX_MODEL_FIELD t

/-- A digest is a SHA-256 with its scheme, or neither is there. -/
def PreparedDigest.Fits (d : PreparedDigest) : Prop :=
  (∀ h, d.hash = some h → IsHex 64 h) ∧ d.hash.isNone = d.scheme.isNone

/-- **Every member of an event fits its field.** -/
structure Fits (event : ChainEvent) (p : Prepared) : Prop where
  tsEvent : IsTimestamp event.tsEvent
  actor : p.actor.Fits
  name : TextFits MAX_NAME event.action.name
  input : p.input.Fits
  output : p.output.Fits
  source : event.source.Fits
  artifacts : ∀ list, event.artifacts = some list → list ≠ [] ∧ ∀ a ∈ list, a.Fits
  model : ∀ m, event.model = some m → m.Fits

/-- An optional text is an optional value of a field where it fits. -/
theorem exists_optional {p : JsString → Prop} {s : Option JsString} :
    (∃ o : Option {t // p t}, o.map (fun t => t.1) = s) ↔ ∀ t, s = some t → p t := by
  constructor
  · rintro ⟨o, rfl⟩ t ht
    obtain ⟨x, -, rfl⟩ := Option.map_eq_some_iff.mp ht
    exact x.2
  · intro h
    cases s with
    | none => exact ⟨none, rfl⟩
    | some t => exact ⟨some ⟨t, h t rfl⟩, rfl⟩

theorem ActorInput.fits_iff {a : ActorInput} : a.Fits ↔ ∃ x : ActorV4, x.input = a := by
  constructor
  · rintro ⟨hagent, hperson⟩
    obtain ⟨o, ho⟩ := exists_optional.mpr hperson
    exact ⟨⟨⟨a.agent, hagent⟩, o⟩, by rw [ActorV4.input, ho]⟩
  · rintro ⟨x, rfl⟩
    exact ⟨x.agent.2, exists_optional.mp ⟨x.onBehalfOf, rfl⟩⟩

theorem SourceInput.fits_iff {s : SourceInput} : s.Fits ↔ ∃ x : Source, x.input = s := by
  constructor
  · rintro ⟨htrace, hspan⟩
    obtain ⟨t, ht⟩ := exists_optional.mpr htrace
    obtain ⟨i, hi⟩ := exists_optional.mpr hspan
    exact ⟨⟨s.type, t, i⟩, by rw [Source.input, ht, hi]⟩
  · rintro ⟨x, rfl⟩
    exact ⟨exists_optional.mp ⟨x.traceId, rfl⟩, exists_optional.mp ⟨x.spanId, rfl⟩⟩

theorem ArtifactInput.fits_iff {a : ArtifactInput} : a.Fits ↔ ∃ x : ArtifactEntryV3, x.input = a := by
  constructor
  · rintro ⟨hlabel, hmedia, hsha, htext⟩
    obtain ⟨t, ht⟩ := exists_optional.mpr htext
    refine ⟨⟨⟨a.role, ⟨a.label, hlabel⟩, ⟨a.mediaType, hmedia⟩, ⟨a.sha256, hsha⟩⟩,
      t.map ArtifactText.mk⟩, ?_⟩
    rw [ArtifactEntryV3.input, Option.map_map]
    exact congrArg (ArtifactInput.mk a.role a.label a.mediaType a.sha256) ht
  · rintro ⟨x, rfl⟩
    refine ⟨x.label.2, x.mediaType.2, x.sha256.2, fun t ht => ?_⟩
    obtain ⟨y, -, rfl⟩ := Option.map_eq_some_iff.mp ht
    exact y.sha256.2

theorem ModelInput.fits_iff {m : ModelInput} : m.Fits ↔ ∃ x : ModelInfo, x.input = m := by
  constructor
  · rintro ⟨hname, hprovider, hdigest⟩
    obtain ⟨o, ho⟩ := exists_optional.mpr hprovider
    obtain ⟨d, hd⟩ := exists_optional.mpr hdigest
    exact ⟨⟨⟨m.name, hname⟩, o, d⟩, congrArg₂ (ModelInput.mk m.name) ho hd⟩
  · rintro ⟨x, rfl⟩
    exact ⟨x.name.2, exists_optional.mp ⟨x.provider, rfl⟩, exists_optional.mp ⟨x.digest, rfl⟩⟩

theorem artifacts_fit_iff {list : List ArtifactInput} : (∀ a ∈ list, a.Fits) ↔
    ∃ xs : List ArtifactEntryV3, xs.map ArtifactEntryV3.input = list := by
  constructor
  · intro h
    induction list with
    | nil => exact ⟨[], rfl⟩
    | cons a rest ih =>
        obtain ⟨x, hx⟩ := ArtifactInput.fits_iff.mp (h a (by simp))
        obtain ⟨xs, hxs⟩ := ih fun b hb => h b (by simp [hb])
        exact ⟨x :: xs, by rw [List.map_cons, hx, hxs]⟩
  · rintro ⟨xs, rfl⟩ a ha
    obtain ⟨x, -, rfl⟩ := List.mem_map.mp ha
    exact ArtifactInput.fits_iff.mpr ⟨x, rfl⟩

-- ── What an event becomes ────────────────────────────────────────────────────────

section Preparing

variable {c : Crypto} {u : Unicode}

theorem pseudonymous_agent {subjects : List SubjectRow} {actor : ActorInput} {ts : Timestamp}
    {random : PseudonymRandom} {prepared : ActorInput} {subject : Option SubjectRow}
    (h : pseudonymous u subjects actor ts random = .ok (prepared, subject)) : prepared.agent = actor.agent := by
  rw [pseudonymous] at h
  cases hnamed : actor.onBehalfOf with
  | none =>
      rw [hnamed] at h
      rw [← (Prod.mk.inj (Except.ok.inj h)).1]
  | some named =>
      rw [hnamed] at h
      by_cases htoken : isPseudonym named
      · simp only [if_pos htoken] at h
        rw [← (Prod.mk.inj (Except.ok.inj h)).1]
      · simp only [if_neg htoken] at h
        cases hnormal : normaliseSubjectIdentifier u named with
        | error e => simp [hnormal] at h
        | ok identifier =>
            simp only [hnormal] at h
            cases hfind : subjects.find? fun row => row.identifier == identifier with
            | some known =>
                rw [hfind] at h
                rw [← (Prod.mk.inj (Except.ok.inj h)).1]
            | none =>
                rw [hfind] at h
                rw [← (Prod.mk.inj (Except.ok.inj h)).1]

/-- **What an event becomes keeps its agent and the digests of its values.** -/
theorem prepare_eq_ok {subjects : List SubjectRow} {event : ChainEvent} {random : Randomness}
    {prepared : Prepared} : prepare c u subjects event random = .ok prepared ↔
    pseudonymous u subjects event.actor event.tsReceived random.subject
      = .ok (prepared.actor, prepared.subject) ∧
    digestFor c .input event.inputHash event.rawInput event.inputNonce random.input = .ok prepared.input ∧
    digestFor c .output event.outputHash event.rawOutput event.outputNonce random.output
      = .ok prepared.output := by
  constructor
  · intro h
    obtain ⟨⟨actor, subject⟩, hactor, h⟩ := bind_eq_ok.mp h
    obtain ⟨input, hinput, h⟩ := bind_eq_ok.mp h
    obtain ⟨output, houtput, h⟩ := bind_eq_ok.mp h
    obtain rfl := Except.ok.inj h
    exact ⟨hactor, hinput, houtput⟩
  · rintro ⟨hactor, hinput, houtput⟩
    exact bind_eq_ok.mpr ⟨_, hactor, bind_eq_ok.mpr ⟨_, hinput, bind_eq_ok.mpr ⟨_, houtput, rfl⟩⟩⟩

end Preparing

section Building

variable {event : ChainEvent} {tip : Option TipRow} {keyId : Hex 16} {p : Prepared}

theorem isNone_of_map {α β : Type} {f : α → β} {o : Option α} {s : Option β} (h : o.map f = s) :
    o.isNone = s.isNone := by
  rw [← h, Option.isNone_map]

/-- **A receipt records an event exactly when the event fits**, at a position that is a number. -/
theorem exists_records : (∃ r, Records event tip keyId p r) ↔
    (∃ n : Count, JsNumber.ofNat (seqAfter tip) = .fin n.1 n.2.1) ∧ Fits event p := by
  constructor
  · rintro ⟨r, h⟩
    obtain ⟨actor, artifacts, model, hdetail, hactor, hartifacts, hmodel⟩ := h.detail
    have hschemes := r.schemes
    rw [ReceiptBody.schemesMatchDigests, hdetail] at hschemes
    refine ⟨⟨r.seq, h.seq⟩, ?_⟩
    refine ⟨h.tsEvent ▸ r.tsEvent.2, ActorInput.fits_iff.mpr ⟨actor, hactor⟩, ?_, ⟨?_, ?_⟩, ⟨?_, ?_⟩,
      SourceInput.fits_iff.mpr ⟨r.source, h.source⟩, ?_, ?_⟩
    · rw [← h.action]
      exact r.action.name.2
    · exact exists_optional.mp ⟨r.inputHash, h.inputHash⟩
    · rw [← isNone_of_map h.inputHash]
      exact hschemes.1
    · exact exists_optional.mp ⟨r.outputHash, h.outputHash⟩
    · rw [← isNone_of_map h.outputHash]
      exact hschemes.2
    · intro list hlist
      rw [hlist] at hartifacts
      obtain ⟨x, -, hx⟩ := Option.map_eq_some_iff.mp hartifacts
      refine ⟨?_, artifacts_fit_iff.mpr ⟨x.1, hx⟩⟩
      rw [← hx]
      exact List.ne_nil_of_length_pos (by rw [List.length_map]; exact x.2)
    · intro m hm
      rw [hm] at hmodel
      obtain ⟨x, -, hx⟩ := Option.map_eq_some_iff.mp hmodel
      exact ModelInput.fits_iff.mpr ⟨x, hx⟩
  · rintro ⟨⟨n, hn⟩, h⟩
    obtain ⟨actor, hactor⟩ := ActorInput.fits_iff.mp h.actor
    obtain ⟨source, hsource⟩ := SourceInput.fits_iff.mp h.source
    obtain ⟨inputHash, hinput⟩ := exists_optional.mpr h.input.1
    obtain ⟨outputHash, houtput⟩ := exists_optional.mpr h.output.1
    obtain ⟨artifacts, hartifacts⟩ : ∃ x : Option (NonEmpty ArtifactEntryV3),
        x.map (fun list => list.1.map ArtifactEntryV3.input) = event.artifacts := by
      cases hlist : event.artifacts with
      | none => exact ⟨none, rfl⟩
      | some list =>
          obtain ⟨hne, hfit⟩ := h.artifacts list hlist
          obtain ⟨xs, rfl⟩ := artifacts_fit_iff.mp hfit
          have hlen : 1 ≤ xs.length := by
            rw [← List.length_map ArtifactEntryV3.input]
            exact List.length_pos_iff.mpr hne
          exact ⟨some ⟨xs, hlen⟩, rfl⟩
    obtain ⟨model, hmodel⟩ : ∃ x : Option ModelInfo, x.map ModelInfo.input = event.model := by
      cases hm : event.model with
      | none => exact ⟨none, rfl⟩
      | some m =>
          obtain ⟨x, rfl⟩ := ModelInput.fits_iff.mp (h.model m hm)
          exact ⟨some x, rfl⟩
    let body : ReceiptBody :=
      { systemId := event.systemId, seq := n, tsEvent := ⟨event.tsEvent, h.tsEvent⟩
        tsReceived := tsReceivedAfter event tip, action := ⟨event.action.kind, ⟨_, h.name⟩⟩
        inputHash, outputHash, outcome := event.outcome, source, prevHash := prevHashOf tip, keyId
        detail := .v4 actor p.input.scheme p.output.scheme artifacts model }
    have hschemes : body.schemesMatchDigests :=
      ⟨(isNone_of_map hinput).trans h.input.2, (isNone_of_map houtput).trans h.output.2⟩
    exact ⟨⟨body, hschemes⟩, rfl, hn, rfl, rfl, rfl, hinput, houtput, rfl, hsource, rfl, rfl, actor,
      artifacts, model, rfl, hactor, hartifacts, hmodel⟩

-- ── As it was put, and as it is written ──────────────────────────────────────────

theorem keysDistinct_optional {key : JsString} {v : Option Json} (h : ∀ w, v = some w → KeysDistinct w) :
    ∀ m ∈ optional key v, KeysDistinct m.2 := by
  cases v with
  | none => simp [optional]
  | some w => simpa [optional] using h w rfl

theorem keysDistinct_nullableJson (s : Option JsString) : KeysDistinct (nullableJson s) := by
  cases s with
  | none => exact .null
  | some s => exact .str s

theorem keysDistinct_actor (a : ActorInput) : KeysDistinct a.toJson := by
  obtain ⟨agent, onBehalfOf⟩ := a
  cases onBehalfOf with
  | none => exact .obj _ (by simp [optional, KeysDistinct.str]) (by simp [optional])
  | some t => exact .obj _ (by simp [optional, KeysDistinct.str]) (by simp [optional])

theorem keysDistinct_source (s : SourceInput) : KeysDistinct s.toJson := by
  obtain ⟨type, traceId, spanId⟩ := s
  refine .obj _ ?_ ?_
  · intro m hm
    rw [List.mem_cons, List.mem_append] at hm
    rcases hm with rfl | hm | hm
    · exact .str _
    · exact keysDistinct_optional (by simp [KeysDistinct.str]) m hm
    · exact keysDistinct_optional (by simp [KeysDistinct.str]) m hm
  · cases traceId with
    | none => cases spanId <;> simp [optional]
    | some t => cases spanId <;> simp [optional]

theorem keysDistinct_artifact (a : ArtifactInput) : KeysDistinct a.toJson := by
  obtain ⟨role, label, mediaType, sha256, text⟩ := a
  cases text with
  | none => exact .obj _ (by simp [optional, KeysDistinct.str]) (by simp [optional])
  | some t =>
      have htext : KeysDistinct (textJson t) := .obj _ (by simp [KeysDistinct.str]) (by simp)
      exact .obj _ (by simp [optional, KeysDistinct.str, htext]) (by simp [optional])

theorem keysDistinct_model (m : ModelInput) : KeysDistinct m.toJson :=
  .obj _ (by simp [KeysDistinct.str, keysDistinct_nullableJson]) (by simp)

theorem keysDistinct_unsignedJson (event : ChainEvent) (tip : Option TipRow) (keyId : Hex 16)
    (p : Prepared) : KeysDistinct (unsignedJson event tip keyId p) := by
  have haction : KeysDistinct event.action.toJson := .obj _ (by simp [KeysDistinct.str]) (by simp)
  refine .obj _ ?_ ?_
  · intro m hm
    rw [List.mem_append, List.mem_append] at hm
    rcases hm with hm | hm | hm
    · simp only [List.mem_cons, List.not_mem_nil, or_false] at hm
      rcases hm with rfl | rfl | rfl | rfl | rfl | rfl | rfl | rfl | rfl | rfl | rfl | rfl | rfl | rfl | rfl
      · exact .num _
      · exact .str _
      · exact .num _
      · exact .str _
      · exact .str _
      · exact keysDistinct_actor _
      · exact haction
      · exact keysDistinct_nullableJson _
      · exact keysDistinct_nullableJson _
      · exact keysDistinct_nullableJson _
      · exact keysDistinct_nullableJson _
      · exact .str _
      · exact keysDistinct_source _
      · exact .str _
      · exact .str _
    · refine keysDistinct_optional (fun w hw => ?_) m hm
      obtain ⟨list, -, rfl⟩ := Option.map_eq_some_iff.mp hw
      refine .arr _ fun v hv => ?_
      obtain ⟨a, -, rfl⟩ := List.mem_map.mp hv
      exact keysDistinct_artifact a
    · refine keysDistinct_optional (fun w hw => ?_) m hm
      obtain ⟨model, -, rfl⟩ := Option.map_eq_some_iff.mp hw
      exact keysDistinct_model model
  · cases event.artifacts with
    | none => cases event.model <;> simp [optional]
    | some list => cases event.model <;> simp [optional]

/-- What was put to the schema and what the receipt is written as differ in order alone. -/
theorem Records.sortKeys_eq {r : UnsignedReceipt} (h : Records event tip keyId p r) :
    sortKeys (unsignedJson event tip keyId p) = sortKeys (unsignedReceiptSchema.encode r) :=
  (unsignedReceiptSchema.decode_iff (keysDistinct_unsignedJson event tip keyId p)).mp
    ((decode_unsignedJson event tip keyId p).mpr h)

theorem Records.length_canonicalReceiptBytes {r : UnsignedReceipt} (h : Records event tip keyId p r) :
    (canonicalReceiptBytes r).length = jsonSize (unsignedJson event tip keyId p) := by
  rw [canonicalReceiptBytes, length_canonicalBytes, ← jsonSize_sortKeys, ← h.sortKeys_eq,
    jsonSize_sortKeys]

theorem Records.mem_texts {r : UnsignedReceipt} (h : Records event tip keyId p r) {s : JsString} :
    s ∈ texts (unsignedReceiptSchema.encode r) ↔ s ∈ texts (unsignedJson event tip keyId p) := by
  rw [← mem_texts_sortKeys, ← h.sortKeys_eq, mem_texts_sortKeys]

/-- **Which events a receipt is built of.** -/
theorem buildUnsigned_isOk : (∃ r, buildUnsigned event tip keyId p = .ok r) ↔
    (∃ n : Count, JsNumber.ofNat (seqAfter tip) = .fin n.1 n.2.1) ∧ Fits event p ∧
    (∀ s ∈ texts (unsignedJson event tip keyId p), isWellFormed s = true) ∧
    jsonSize (unsignedJson event tip keyId p) ≤ MAX_RECEIPT_BYTES := by
  have hrecords : (∃ r, Records event tip keyId p r) ↔ _ := exists_records
  rw [← and_assoc, ← hrecords, buildUnsigned]
  cases hdecode : unsignedReceiptSchema.decode (unsignedJson event tip keyId p) with
  | none =>
      refine iff_of_false (by rintro ⟨r, h⟩; cases h) ?_
      rintro ⟨⟨r, hr⟩, -⟩
      rw [(decode_unsignedJson event tip keyId p).mpr hr] at hdecode
      cases hdecode
  | some r =>
      have hr := (decode_unsignedJson event tip keyId p).mp hdecode
      simp only
      rw [← hr.length_canonicalReceiptBytes, ← forall_congr' fun s => imp_congr_left hr.mem_texts,
        ← malformedStringIn_eq_none _ []]
      cases malformedStringIn (unsignedReceiptSchema.encode r) [] with
      | some path => simp
      | none =>
          by_cases hsize : (canonicalReceiptBytes r).length > MAX_RECEIPT_BYTES
          · rw [if_pos hsize]
            refine iff_of_false (by rintro ⟨r, h⟩; cases h) fun h => ?_
            exact absurd h.2.2 (not_le.mpr hsize)
          · rw [if_neg hsize]
            exact iff_of_true ⟨r, rfl⟩ ⟨⟨r, hr⟩, rfl, not_lt.mp hsize⟩

end Building

end Sigillo
