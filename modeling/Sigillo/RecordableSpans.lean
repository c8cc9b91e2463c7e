import Sigillo.AdaptedActions

/-!
# Which spans can be recorded

A batch is refused whole when one of its spans cannot be recorded. Whatever a span's attributes
hold, its documents, its model and its payloads always fit; what can go wrong is its name, its
start, the person it was for and its size (`Recordable`), and
**`adaptSpans_recorded_iff`** says that nothing else can. -/

namespace Sigillo

open DoubleArith Utf16Text JsonText JsonSchema HexBase64 IsoTime EcmaText Fallible
open Otlp (AttributeMap AttributeValue OtlpSpan OtlpSpanEvent)

-- ── What a dialect reads ─────────────────────────────────────────────────────────

/-- What a dialect reads of a span; the span's own name stands in for one it does not give. -/
structure SpanReading where
  kind : ActionKind
  name : JsString
  agent : Option JsString
  inputNames : List JsString
  outputNames : List JsString

/-- The names a role's content is looked for under, in order. -/
def SpanReading.names (r : SpanReading) : ArtifactRole → List JsString
  | .input => r.inputNames
  | .output => r.outputNames

/-- What is read of a span of the one dialect. -/
def readGenAi (span : OtlpSpan) : SpanReading :=
  let kind := (genAiKind (text span.attributes [js "gen_ai.operation.name"])).kind
  ⟨kind, (genAiName span.attributes kind).getD span.name,
    text span.attributes [js "gen_ai.agent.name", js "gen_ai.provider.name", js "gen_ai.system"],
    genAiInputNames, genAiOutputNames⟩

/-- What is read of a span of the other. -/
def readOpenInference (u : Unicode) (span : OtlpSpan) (declared : JsString) : SpanReading :=
  let kind := (openInferenceKind u declared).kind
  ⟨kind, (openInferenceName span.attributes kind).getD span.name, text span.attributes [js "llm.system"],
    openInferenceInputNames, openInferenceOutputNames⟩

/-- What is read of a span that is an action. -/
def readSpan (u : Unicode) (span : OtlpSpan) : Option SpanReading :=
  if (span.attributes.lookup OPENINFERENCE_KIND).isSome then
    (text span.attributes [OPENINFERENCE_KIND]).map (readOpenInference u span)
  else if hasGenAiAttributes span then some (readGenAi span)
  else none

/-- The record of a reading. -/
def SpanReading.record (r : SpanReading) (span : OtlpSpan) (tsEvent : JsString) : OrderedAction :=
  orderedAction span r.kind (some r.name) r.agent r.inputNames r.outputNames tsEvent

theorem adaptSpan_of_none {u : Unicode} {span : OtlpSpan} (h : readSpan u span = none) :
    adaptSpan u span = .ok ⟨none, []⟩ := by
  rw [readSpan] at h
  rw [adaptSpan]
  by_cases hkind : (span.attributes.lookup OPENINFERENCE_KIND).isSome = true
  · rw [if_pos hkind, Option.map_eq_none_iff] at h
    rw [if_pos hkind, adaptOpenInference, h]
  · rw [if_neg hkind] at h ⊢
    by_cases hgen : hasGenAiAttributes span = true
    · rw [if_pos hgen] at h
      cases h
    · rw [if_neg hgen]

/-- **An action is the record of what its dialect reads**, where its start is a date. -/
theorem adaptSpan_of_some {u : Unicode} {span : OtlpSpan} {r : SpanReading}
    (h : readSpan u span = some r) : ∃ unknown, adaptSpan u span
      = (isoFromUnixNano span.startUnixNano).map fun iso => ⟨some (r.record span iso), unknown⟩ := by
  rw [readSpan] at h
  rw [adaptSpan]
  by_cases hkind : (span.attributes.lookup OPENINFERENCE_KIND).isSome = true
  · rw [if_pos hkind] at h ⊢
    obtain ⟨declared, hdeclared, rfl⟩ := Option.map_eq_some_iff.mp h
    rw [adaptOpenInference, hdeclared]
    exact ⟨_, rfl⟩
  · rw [if_neg hkind] at h ⊢
    by_cases hgen : hasGenAiAttributes span = true
    · rw [if_pos hgen] at h ⊢
      obtain rfl := Option.some.inj h
      exact ⟨_, rfl⟩
    · rw [if_neg hgen] at h
      cases h

/-- What a dialect reads for the agent holds something. -/
theorem agent_ne_nil {u : Unicode} {span : OtlpSpan} {r : SpanReading} (h : readSpan u span = some r) :
    ∀ s, r.agent = some s → s ≠ [] := by
  intro s hs
  rw [readSpan] at h
  split_ifs at h
  · obtain ⟨declared, -, rfl⟩ := Option.map_eq_some_iff.mp h
    exact ne_nil_of_text hs
  · obtain rfl := Option.some.inj h
    exact ne_nil_of_text hs

/-- The start of a span is within the range of a date. -/
def StartIsDate (span : OtlpSpan) : Prop := |millisOf span.startUnixNano| ≤ maxTime

theorem isoFromUnixNano_eq (nanos : ℤ) : isoFromUnixNano nanos
    = if |millisOf nanos| ≤ maxTime then .ok (isoText (millisOf nanos)) else .error .invalidTimeValue := by
  have hprint := toISOString_ofRat (millisOf nanos)
  unfold isoFromUnixNano
  rw [hprint]
  by_cases h : |millisOf nanos| ≤ maxTime
  · rw [if_pos h, if_pos h]
  · rw [if_neg h, if_neg h]

-- ── Persons ──────────────────────────────────────────────────────────────────────

/-- A person a receipt can be made out to: a token, or an identifier that its normal form leaves
    neither empty nor too long. -/
def PersonFits (u : Unicode) (named : JsString) : Prop :=
  isPseudonym named ∨ TextFits SUBJECT_IDENTIFIER_MAX (u.toLowerCase (trim (u.normalize named)))

theorem normaliseSubjectIdentifier_isOk {u : Unicode} {s : JsString} (hs : isWellFormed s = true) :
    (∃ n, normaliseSubjectIdentifier u s = .ok n) ↔
      TextFits SUBJECT_IDENTIFIER_MAX (u.toLowerCase (trim (u.normalize s))) := by
  rw [normaliseSubjectIdentifier, if_neg (by simp [hs]), TextFits]
  simp only
  by_cases hempty : (u.toLowerCase (trim (u.normalize s))).length = 0
  · rw [if_pos hempty]
    refine iff_of_false (by rintro ⟨n, h⟩; cases h) fun h => ?_
    omega
  · rw [if_neg hempty]
    by_cases hlong : (u.toLowerCase (trim (u.normalize s))).length > SUBJECT_IDENTIFIER_MAX
    · rw [if_pos hlong]
      refine iff_of_false (by rintro ⟨n, h⟩; cases h) fun h => ?_
      omega
    · rw [if_neg hlong]
      exact iff_of_true ⟨_, rfl⟩ ⟨by omega, by omega⟩

/-- **Whom a receipt can be made out to**, whoever is known already. -/
theorem pseudonymous_isOk {u : Unicode} {subjects : List SubjectRow} {actor : ActorInput} {ts : Timestamp}
    {random : PseudonymRandom} (hactor : ∀ s, actor.onBehalfOf = some s → isWellFormed s = true) :
    (∃ a, pseudonymous u subjects actor ts random = .ok a) ↔
      ∀ s, actor.onBehalfOf = some s → PersonFits u s := by
  rw [pseudonymous]
  cases hperson : actor.onBehalfOf with
  | none => exact iff_of_true ⟨_, rfl⟩ (by simp)
  | some named =>
      simp only [Option.some.injEq, forall_eq']
      rw [PersonFits, ← normaliseSubjectIdentifier_isOk (hactor named hperson)]
      by_cases htoken : isPseudonym named
      · rw [if_pos htoken]
        exact iff_of_true ⟨_, rfl⟩ (.inl htoken)
      · rw [if_neg htoken]
        cases normaliseSubjectIdentifier u named with
        | error e => exact iff_of_false (by rintro ⟨a, h⟩; cases h) (by simp [htoken])
        | ok identifier =>
            refine iff_of_true ?_ (.inr ⟨identifier, rfl⟩)
            simp only
            cases subjects.find? fun row => row.identifier == identifier with
            | none => exact ⟨_, rfl⟩
            | some known => exact ⟨_, rfl⟩

/-- The actor of a receipt is the one named, its person a token. -/
theorem pseudonymous_spec {u : Unicode} {subjects : List SubjectRow} {actor actor' : ActorInput}
    {row : Option SubjectRow} {ts : Timestamp} {random : PseudonymRandom}
    (h : pseudonymous u subjects actor ts random = .ok (actor', row)) :
    actor'.agent = actor.agent ∧ actor'.onBehalfOf.isSome = actor.onBehalfOf.isSome ∧
      ∀ t, actor'.onBehalfOf = some t → isPseudonym t := by
  rw [pseudonymous] at h
  cases hperson : actor.onBehalfOf with
  | none =>
      rw [hperson] at h
      obtain ⟨rfl, -⟩ := Prod.mk.inj (Except.ok.inj h)
      exact ⟨rfl, by rw [hperson], by simp [hperson]⟩
  | some named =>
      rw [hperson] at h
      simp only at h
      by_cases htoken : isPseudonym named
      · rw [if_pos htoken] at h
        obtain ⟨rfl, -⟩ := Prod.mk.inj (Except.ok.inj h)
        exact ⟨rfl, by rw [hperson], by simpa [hperson] using htoken⟩
      · rw [if_neg htoken] at h
        cases hid : normaliseSubjectIdentifier u named with
        | error e =>
            rw [hid] at h
            cases h
        | ok identifier =>
            rw [hid] at h
            simp only at h
            cases hknown : subjects.find? fun row => row.identifier == identifier with
            | none =>
                rw [hknown] at h
                obtain ⟨rfl, -⟩ := Prod.mk.inj (Except.ok.inj h)
                refine ⟨rfl, rfl, fun t ht => ?_⟩
                obtain rfl := Option.some.inj ht
                exact (pseudonymFromRandom random).2
            | some known =>
                rw [hknown] at h
                obtain ⟨rfl, -⟩ := Prod.mk.inj (Except.ok.inj h)
                refine ⟨rfl, rfl, fun t ht => ?_⟩
                obtain rfl := Option.some.inj ht
                exact known.token.2

-- ── One action ───────────────────────────────────────────────────────────────────

/-- The bytes of a receipt's canonical form, by what is read of its span: beside a fixed number for
    the members always there, what free text, digests and documents take. -/
def receiptBytes (systemId : SystemId) (span : OtlpSpan) (r : SpanReading) : ℕ :=
  428 + quotedSize systemId.1 + quotedSize (buildActor span r.agent).agent
    + (if (buildActor span r.agent).onBehalfOf.isSome then 54 else 0)
    + jsonSize (ActionInput.toJson ⟨r.kind, cap r.name 256⟩)
    + (payloadOf span.attributes .input r.inputNames).bytes
    + (payloadOf span.attributes .output r.outputNames).bytes + (outcomeOf span).name.length
    + optionalBytes (js "artifacts")
        ((artifactsOf span).map fun list => .arr (list.map ArtifactInput.toJson))
    + optionalBytes (js "model")
        ((if r.kind = .llmCall then modelOf span.attributes else none).map ModelInput.toJson)

/-- **What a span's action must be like for a receipt to hold it**: a name, a start in a year of
    four digits, a person that has a normal form, and a size within bounds. -/
structure Describable (u : Unicode) (systemId : SystemId) (span : OtlpSpan) (r : SpanReading) : Prop where
  name : r.name ≠ []
  start : InFourDigitYears (millisOf span.startUnixNano)
  person : ∀ s, (buildActor span r.agent).onBehalfOf = some s → PersonFits u s
  system : isWellFormed systemId.1 = true
  size : receiptBytes systemId span r ≤ MAX_RECEIPT_BYTES

theorem checkEvent_isOk {c : Crypto} {u : Unicode} {subjects : List SubjectRow} {keyId : Hex 16}
    {event : ChainEvent} {random : Randomness} : checkEvent c u subjects keyId event random = .ok () ↔
      ∃ p, prepare c u subjects event random = .ok p ∧
        ∃ r, buildUnsigned event (some (standInTip event)) keyId p = .ok r := by
  refine bind_eq_ok.trans (exists_congr fun p => and_congr_right fun _ => ?_)
  refine bind_eq_ok.trans (exists_congr fun r => ?_)
  exact and_iff_left rfl

section Checking

variable {c : Crypto} {u : Unicode} {systemId : SystemId} {receivedAt : Timestamp} {keyId : Hex 16}
variable {span : OtlpSpan} {r : SpanReading}

/-- The event of a span's record. -/
def SpanReading.event (r : SpanReading) (span : OtlpSpan) (systemId : SystemId) (receivedAt : Timestamp) :
    ChainEvent :=
  (r.record span (isoText (millisOf span.startUnixNano))).toAdaptedAction.toEvent systemId receivedAt

/-- What an event of a span is prepared as. -/
structure PreparedFrom (span : OtlpSpan) (r : SpanReading) (p : Prepared) : Prop where
  agent : p.actor.agent = (buildActor span r.agent).agent
  hasPerson : p.actor.onBehalfOf.isSome = (buildActor span r.agent).onBehalfOf.isSome
  person : ∀ t, p.actor.onBehalfOf = some t → isPseudonym t
  input : p.input.Fits ∧ p.input.bytes = (payloadOf span.attributes .input r.inputNames).bytes
  output : p.output.Fits ∧ p.output.bytes = (payloadOf span.attributes .output r.outputNames).bytes

/-- **Only the person can keep an event from being prepared.** -/
theorem prepare_record {subjects : List SubjectRow} {random : Randomness} :
    ((∃ p, prepare c u subjects (r.event span systemId receivedAt) random = .ok p) ↔
      ∀ s, (buildActor span r.agent).onBehalfOf = some s → PersonFits u s) ∧
    ∀ p, prepare c u subjects (r.event span systemId receivedAt) random = .ok p →
      PreparedFrom span r p := by
  have hwf : ∀ s, (buildActor span r.agent).onBehalfOf = some s → isWellFormed s = true := by
    intro s hs
    obtain ⟨t, -, rfl⟩ := Option.map_eq_some_iff.mp hs
    exact isWellFormed_cap t 256
  obtain ⟨input, hinput, hinputFits⟩ := digestFor_payload c
    (payloadOf_shape span.attributes .input r.inputNames) .input random.input
  obtain ⟨output, houtput, houtputFits⟩ := digestFor_payload c
    (payloadOf_shape span.attributes .output r.outputNames) .output random.output
  have hprepare : ∀ p, prepare c u subjects (r.event span systemId receivedAt) random = .ok p ↔
      ∃ actor subject, pseudonymous u subjects (buildActor span r.agent) receivedAt random.subject
        = .ok (actor, subject) ∧ p = ⟨actor, subject, input, output⟩ := by
    intro p
    refine bind_eq_ok.trans ⟨?_, ?_⟩
    · rintro ⟨⟨actor, subject⟩, hactor, h⟩
      obtain ⟨i, hi, h⟩ := bind_eq_ok.mp h
      obtain ⟨o, ho, h⟩ := bind_eq_ok.mp h
      obtain rfl := Except.ok.inj (hinput.symm.trans hi)
      obtain rfl := Except.ok.inj (houtput.symm.trans ho)
      exact ⟨actor, subject, hactor, (Except.ok.inj h).symm⟩
    · rintro ⟨actor, subject, hactor, rfl⟩
      exact ⟨(actor, subject), hactor, bind_eq_ok.mpr ⟨input, hinput, bind_eq_ok.mpr ⟨output, houtput, rfl⟩⟩⟩
  constructor
  · have hnamed : (∃ a, pseudonymous u subjects (buildActor span r.agent) receivedAt random.subject = .ok a) ↔
        ∀ s, (buildActor span r.agent).onBehalfOf = some s → PersonFits u s := pseudonymous_isOk hwf
    rw [← hnamed]
    constructor
    · rintro ⟨p, hp⟩
      obtain ⟨actor, subject, hactor, -⟩ := (hprepare p).mp hp
      exact ⟨_, hactor⟩
    · rintro ⟨⟨actor, subject⟩, hactor⟩
      exact ⟨_, (hprepare _).mpr ⟨actor, subject, hactor, rfl⟩⟩
  · intro p hp
    obtain ⟨actor, subject, hactor, rfl⟩ := (hprepare p).mp hp
    obtain ⟨hagent, hsome, hperson⟩ := pseudonymous_spec hactor
    exact ⟨hagent, hsome, hperson, hinputFits, houtputFits⟩

/-- The size of a record's receipt is the one read off its span. -/
theorem jsonSize_record {p : Prepared} (hp : PreparedFrom span r p)
    (hstart : InFourDigitYears (millisOf span.startUnixNano)) :
    jsonSize (unsignedJson (r.event span systemId receivedAt)
      (some (standInTip (r.event span systemId receivedAt))) keyId p) = receiptBytes systemId span r := by
  have hsource : jsonSize (r.event span systemId receivedAt).source.toJson = 90 := by
    have htrace : quotedSize span.traceId.1 = 34 := IsHex.quotedSize span.traceId.2
    have hspan : quotedSize span.spanId.1 = 18 := IsHex.quotedSize span.spanId.2
    have htype : quotedSize (js "otlp") = 6 := by decide
    have hkeys : ([js "type", js "trace_id", js "span_id"].map quotedSize) = [6, 10, 9] := by
      decide
    simp only [List.map_cons, List.map_nil, List.cons.injEq, and_true] at hkeys
    obtain ⟨h1, h2, h3⟩ := hkeys
    change jsonSize (.obj [(js "type", .str (js "otlp")), (js "trace_id", .str span.traceId.1),
      (js "span_id", .str span.spanId.1)]) = 90
    simp only [jsonSize, membersSize, h1, h2, h3, htrace, hspan, htype]
  have hts : IsTimestamp (r.event span systemId receivedAt).tsEvent := isTimestamp_isoText hstart
  rw [jsonSize_unsignedJson keyId hts, jsonSize_actor hp.person, hp.hasPerson,
    hp.agent, hp.input.2, hp.output.2, hsource, baseBytes, receiptBytes]
  simp only [SpanReading.event, AdaptedAction.toEvent, SpanReading.record, orderedAction, Option.getD_some]
  omega

/-- **An event of a span is accepted exactly where the span can be described.** -/
theorem checkEvent_record (hread : readSpan u span = some r) {subjects : List SubjectRow}
    {random : Randomness} :
    checkEvent c u subjects keyId (r.event span systemId receivedAt) random = .ok () ↔
      Describable u systemId span r := by
  obtain ⟨hperson, hprepared⟩ :
      ((∃ p, prepare c u subjects (r.event span systemId receivedAt) random = .ok p) ↔ _) ∧ _ := prepare_record
  have hseq : ∃ n : Count, JsNumber.ofNat (seqAfter (some (standInTip (r.event span systemId receivedAt))))
      = .fin n.1 n.2.1 :=
    ⟨⟨1, isDouble_natCast (by norm_num), Nat.zero_le 1⟩, JsNumber.ofNat_of_isDouble _⟩
  have hartifacts : ∀ list, (r.event span systemId receivedAt).artifacts = some list →
      ∀ a ∈ list, WellFormed a.toJson := by
    intro list hlist a ha
    have hfit := (artifactsOf_fit hlist).2 a ha
    obtain ⟨event, -, hevent⟩ := (artifactsOf_eq_some hlist).2 a ha
    obtain ⟨role, label, mediaType, sha256, canon, -, -, -, -, rfl⟩ := artifactOf_eq_some hevent
    exact wellFormed_artifact (isWellFormed_cap label 256) (isWellFormed_cap mediaType 128) hfit
  have hmodelOf : ∀ m, (r.event span systemId receivedAt).model = some m →
      modelOf span.attributes = some m := by
    intro m hm
    change (if r.kind = .llmCall then modelOf span.attributes else none) = some m at hm
    split_ifs at hm
    exact hm
  have hmodel : ∀ m, (r.event span systemId receivedAt).model = some m → WellFormed m.toJson := by
    intro m hm
    obtain ⟨name, hname, rfl⟩ := Option.map_eq_some_iff.mp (hmodelOf m hm)
    refine wellFormed_model (isWellFormed_cap name 256) (fun s hs => ?_) fun s hs => ?_
    · obtain ⟨t, -, rfl⟩ := Option.map_eq_some_iff.mp hs
      exact isWellFormed_cap t 256
    · obtain ⟨t, -, rfl⟩ := Option.map_eq_some_iff.mp hs
      exact isWellFormed_cap t 256
  have hname : isWellFormed (r.event span systemId receivedAt).action.name = true :=
    isWellFormed_cap r.name 256
  rw [checkEvent_isOk]
  constructor
  · rintro ⟨p, hp, hbuild⟩
    have hfrom := hprepared p hp
    obtain ⟨-, hfits, htexts, hsize⟩ := buildUnsigned_isOk.mp hbuild
    have hstart : InFourDigitYears (millisOf span.startUnixNano) := by
      by_contra hnot
      exact not_isTimestamp_isoText hnot hfits.tsEvent
    rw [jsonSize_record hfrom hstart] at hsize
    refine ⟨(textFits_cap (by decide)).mp hfits.name, hstart, hperson.mp ⟨p, hp⟩, ?_, hsize⟩
    exact (wellFormed_unsignedJson hfits (hfrom.agent ▸ isWellFormed_cap _ 256) hname hartifacts hmodel).mp
      htexts
  · intro h
    obtain ⟨p, hp⟩ := hperson.mpr h.person
    have hfrom := hprepared p hp
    have hfits : Fits (r.event span systemId receivedAt) p :=
      { tsEvent := isTimestamp_isoText h.start
        actor := ⟨hfrom.agent ▸ buildActor_fits span (agent_ne_nil hread), hfrom.person⟩
        name := (textFits_cap (by decide)).mpr h.name
        input := hfrom.input.1
        output := hfrom.output.1
        source := ⟨fun t ht => Option.some.inj ht ▸ span.traceId.2,
          fun t ht => Option.some.inj ht ▸ span.spanId.2⟩
        artifacts := fun list hlist => artifactsOf_fit hlist
        model := fun m hm => modelOf_fits (hmodelOf m hm) }
    refine ⟨p, hp, buildUnsigned_isOk.mpr ⟨hseq, hfits, ?_, ?_⟩⟩
    · exact (wellFormed_unsignedJson hfits (hfrom.agent ▸ isWellFormed_cap _ 256) hname hartifacts
        hmodel).mpr h.system
    · rw [jsonSize_record hfrom h.start]
      exact h.size

end Checking

-- ── A batch ──────────────────────────────────────────────────────────────────────

/-- **A span that does not refuse its batch**: no action, or one that starts on a date and that a
    receipt can hold, unless it passes itself off as the server's own. -/
def Recordable (u : Unicode) (systemId : SystemId) (span : OtlpSpan) : Prop :=
  ∀ r, readSpan u span = some r → StartIsDate span ∧
    (CONNECTION_PREFIX.isPrefixOf (cap r.name 256) = true ∨ Describable u systemId span r)

section Batch

variable {u : Unicode} {spans : List OtlpSpan}

/-- What a span becomes. -/
theorem adaptSpan_eq_ok {span : OtlpSpan} {x : AdaptedSpan} (h : adaptSpan u span = .ok x) :
    readSpan u span = none ∧ x.action = none ∨ ∃ r, readSpan u span = some r ∧ StartIsDate span ∧
      x.action = some (r.record span (isoText (millisOf span.startUnixNano))) := by
  cases hread : readSpan u span with
  | none =>
      rw [adaptSpan_of_none hread] at h
      obtain rfl := Except.ok.inj h
      exact .inl ⟨rfl, rfl⟩
  | some r =>
      obtain ⟨unknown, hspan⟩ := adaptSpan_of_some hread
      rw [hspan, isoFromUnixNano_eq] at h
      by_cases hdate : |millisOf span.startUnixNano| ≤ maxTime
      · rw [if_pos hdate] at h
        obtain rfl := Except.ok.inj h
        exact .inr ⟨r, rfl, hdate, rfl⟩
      · rw [if_neg hdate] at h
        cases h

theorem adaptSpan_isOk {span : OtlpSpan} : (∃ x, adaptSpan u span = .ok x) ↔
    ∀ r, readSpan u span = some r → StartIsDate span := by
  constructor
  · rintro ⟨x, hx⟩ r hr
    rcases adaptSpan_eq_ok hx with ⟨hnone, -⟩ | ⟨_, _, hdate, -⟩
    · rw [hnone] at hr
      cases hr
    · exact hdate
  · intro h
    cases hread : readSpan u span with
    | none => exact ⟨_, adaptSpan_of_none hread⟩
    | some r =>
        obtain ⟨unknown, hspan⟩ := adaptSpan_of_some hread
        have hdate : |millisOf span.startUnixNano| ≤ maxTime := h r hread
        rw [hspan, isoFromUnixNano_eq, if_pos hdate]
        exact ⟨_, rfl⟩

/-- **A batch is adapted** exactly when each of its actions starts on a date. -/
theorem adaptSpans_isOk : (∃ batch, adaptSpans u spans = .ok batch) ↔
    ∀ span ∈ spans, ∀ r, readSpan u span = some r → StartIsDate span := by
  have h : (∃ bs, spans.mapM (adaptSpan u) = .ok bs) ↔ _ := exists_mapM_iff
  simp only [adaptSpan_isOk] at h
  rw [← h]
  constructor
  · rintro ⟨batch, hbatch⟩
    obtain ⟨adapted, hadapted, -⟩ := bind_eq_ok.mp hbatch
    exact ⟨adapted, hadapted⟩
  · rintro ⟨adapted, hadapted⟩
    exact ⟨_, bind_eq_ok.mpr ⟨adapted, hadapted, rfl⟩⟩

theorem recorded_eq_some {x : AdaptedSpan} {o : OrderedAction} : recorded x = some o ↔
    x.action = some o ∧ CONNECTION_PREFIX.isPrefixOf o.action.name = false := by
  rw [recorded, Option.filter_eq_some_iff]
  simp

theorem length_filterMap_add {α β : Type} (f : α → Option β) (l : List α) :
    (l.filterMap f).length + (l.filter fun a => (f a).isNone).length = l.length := by
  induction l with
  | nil => rfl
  | cons a l ih =>
      cases h : f a with
      | none =>
          rw [List.filterMap_cons_none h, List.filter_cons_of_pos (by simp [h]), List.length_cons,
            List.length_cons]
          omega
      | some b =>
          rw [List.filterMap_cons_some h, List.filter_cons_of_neg (by simp [h]), List.length_cons,
            List.length_cons]
          omega

/-- **A batch holds one action for each span that is one**, and counts every other span. -/
theorem adaptSpans_spec {batch : AdaptedBatch} (h : adaptSpans u spans = .ok batch) :
    batch.actions.length + batch.ignored = spans.length ∧
    ∀ a, a ∈ batch.actions ↔ ∃ span ∈ spans, ∃ r, readSpan u span = some r ∧
      CONNECTION_PREFIX.isPrefixOf (cap r.name 256) = false ∧
      a = (r.record span (isoText (millisOf span.startUnixNano))).toAdaptedAction := by
  obtain ⟨adapted, hadapted, h⟩ := bind_eq_ok.mp h
  obtain rfl := Except.ok.inj h
  have hperm : (adapted.filterMap recorded).mergeSort OrderedAction.le |>.Perm (adapted.filterMap recorded) :=
    List.mergeSort_perm _ _
  refine ⟨?_, fun a => ?_⟩
  · simp only [List.length_map]
    rw [hperm.length_eq, length_filterMap_add, length_mapM hadapted]
  · simp only [List.mem_map, hperm.mem_iff, List.mem_filterMap, recorded_eq_some]
    constructor
    · rintro ⟨o, ⟨x, hx, haction, hown⟩, rfl⟩
      obtain ⟨span, hspan, hx⟩ := mem_mapM hadapted hx
      rcases adaptSpan_eq_ok hx with ⟨-, hnone⟩ | ⟨r, hr, -, hrecord⟩
      · rw [hnone] at haction
        cases haction
      · rw [hrecord] at haction
        obtain rfl := Option.some.inj haction
        exact ⟨span, hspan, r, hr, hown, rfl⟩
    · rintro ⟨span, hspan, r, hr, hown, rfl⟩
      obtain ⟨x, hx, hadapt⟩ := mem_of_mapM hadapted hspan
      rcases adaptSpan_eq_ok hadapt with ⟨hnone, -⟩ | ⟨r', hr', -, hrecord⟩
      · rw [hnone] at hr
        cases hr
      · obtain rfl := Option.some.inj (hr.symm.trans hr')
        exact ⟨_, ⟨x, hx, hrecord, hown⟩, rfl⟩

end Batch

/-- **Which batches are recorded**: every action is one that the store accepts, whoever it knows and
    whatever it draws, exactly when every span is recordable. -/
theorem adaptSpans_recorded_iff (c : Crypto) (u : Unicode) (systemId : SystemId) (receivedAt : Timestamp)
    (keyId : Hex 16) (spans : List OtlpSpan) :
    (∃ batch, adaptSpans u spans = .ok batch ∧ batch.actions.length + batch.ignored = spans.length ∧
      ∀ a ∈ batch.actions, ∀ subjects random,
        checkEvent c u subjects keyId (a.toEvent systemId receivedAt) random = .ok ()) ↔
    ∀ span ∈ spans, Recordable u systemId span := by
  constructor
  · rintro ⟨batch, hbatch, -, hactions⟩ span hspan r hr
    refine ⟨adaptSpans_isOk.mp ⟨batch, hbatch⟩ span hspan r hr, ?_⟩
    cases hown : CONNECTION_PREFIX.isPrefixOf (cap r.name 256) with
    | true => exact .inl rfl
    | false =>
        have ha := ((adaptSpans_spec hbatch).2 _).mpr ⟨span, hspan, r, hr, hown, rfl⟩
        have hzero : (List.replicate 32 (0 : UInt8)).length = 32 := rfl
        exact .inr ((checkEvent_record hr).mp (hactions _ ha []
          ⟨⟨List.replicate 16 0, rfl⟩, ⟨_, hzero⟩, ⟨_, hzero⟩⟩))
  · intro h
    obtain ⟨batch, hbatch⟩ := adaptSpans_isOk.mpr fun span hspan r hr => (h span hspan r hr).1
    refine ⟨batch, hbatch, (adaptSpans_spec hbatch).1, fun a ha subjects random => ?_⟩
    obtain ⟨span, hspan, r, hr, hown, rfl⟩ := ((adaptSpans_spec hbatch).2 a).mp ha
    rcases (h span hspan r hr).2 with hbegins | hdescribable
    · rw [hbegins] at hown
      cases hown
    · exact (checkEvent_record hr).mpr hdescribable

/-- A span of a model call whose exporter gave it no name. -/
def unnamedSpan : OtlpSpan where
  traceId := ⟨List.replicate 32 0x31, isHex_ones32⟩
  spanId := ⟨List.replicate 16 0x31, isHex_ones16⟩
  name := []
  startUnixNano := 1
  endUnixNano := 1
  status := .unset
  attributes := [(js "gen_ai.operation.name", .string (js "chat"))]
  resource := []
  events := []

/-- The span as JSON, and the request it comes in. -/
def unnamedSpanMembers : List (JsString × Json) :=
  [(js "traceId", .str (List.replicate 32 0x31)), (js "spanId", .str (List.replicate 16 0x31)),
   (js "startTimeUnixNano", .str (js "1")), (js "endTimeUnixNano", .str (js "1")),
   (js "attributes", .arr [.obj [(js "key", .str (js "gen_ai.operation.name")),
     (js "value", .obj [(js "stringValue", .str (js "chat"))])]])]

/-- A span without a name, in JSON. -/
def unnamedSpanJson : Json :=
  .obj [(js "resourceSpans", .arr [.obj [(js "scopeSpans", .arr [.obj [(js "spans",
    .arr [.obj unnamedSpanMembers])]])]])]

theorem decode_unnamedSpan : Otlp.decodeJsonTraces unnamedSpanJson = .ok [unnamedSpan] := by
  have hvalue : Otlp.decodeAnyValue (.obj [(js "stringValue", .str (js "chat"))])
      = .ok (.string (js "chat")) := by
    rw [Otlp.decodeAnyValue_obj]
    rfl
  have hattributes : Otlp.decodeAttributes (some (.arr [.obj [(js "key", .str (js "gen_ai.operation.name")),
      (js "value", .obj [(js "stringValue", .str (js "chat"))])]]))
      = .ok [(js "gen_ai.operation.name", .string (js "chat"))] := by
    rw [Otlp.decodeAttributes]
    refine bind_eq_ok.mpr ⟨_, bind_eq_ok.mpr ⟨_, hvalue, rfl⟩, rfl⟩
  have hspan : Otlp.decodeSpan [] (Otlp.ofJsonMembers unnamedSpanMembers) = .ok unnamedSpan :=
    bind_eq_ok.mpr ⟨_, rfl, bind_eq_ok.mpr ⟨_, rfl, bind_eq_ok.mpr ⟨_, rfl, bind_eq_ok.mpr ⟨_, rfl,
      bind_eq_ok.mpr ⟨_, hattributes, bind_eq_ok.mpr ⟨_, rfl, rfl⟩⟩⟩⟩⟩⟩
  have hscope : Otlp.decodeScopeSpans [] (Otlp.ofJsonMembers
      [(js "spans", .arr [.obj unnamedSpanMembers])]) = .ok [unnamedSpan] :=
    mapM_eq_ok.mpr (.cons hspan .nil)
  refine bind_eq_ok.mpr ⟨[[unnamedSpan]], mapM_eq_ok.mpr (.cons ?_ .nil), rfl⟩
  exact bind_eq_ok.mpr ⟨[], rfl, bind_eq_ok.mpr ⟨[[unnamedSpan]], mapM_eq_ok.mpr (.cons hscope .nil), rfl⟩⟩

/-- **A span without a name refuses its batch**, whoever is known and whatever is drawn. -/
theorem unnamedSpan_refused : ¬ ∀ (c : Crypto) (u : Unicode) (systemId : SystemId) (receivedAt : Timestamp)
    (keyId : Hex 16) (body : Json) (spans : List OtlpSpan), Otlp.decodeJsonTraces body = .ok spans →
    ∃ batch, adaptSpans u spans = .ok batch ∧ ∀ a ∈ batch.actions, ∀ subjects random,
      checkEvent c u subjects keyId (a.toEvent systemId receivedAt) random = .ok () := by
  intro h
  let u : Unicode := ⟨id, id, id⟩
  obtain ⟨batch, hbatch, hactions⟩ := h toyCrypto u ⟨js "acme", by decide⟩ newYear
    ⟨List.replicate 16 0x30, by decide⟩ unnamedSpanJson [unnamedSpan] decode_unnamedSpan
  have hread : readSpan u unnamedSpan = some (readGenAi unnamedSpan) := rfl
  have ha := ((adaptSpans_spec hbatch).2 _).mpr ⟨unnamedSpan, by simp, _, hread, rfl, rfl⟩
  have hzero : (List.replicate 32 (0 : UInt8)).length = 32 := rfl
  have hcheck := hactions _ ha [] ⟨⟨List.replicate 16 0, rfl⟩, ⟨_, hzero⟩, ⟨_, hzero⟩⟩
  exact ((checkEvent_record hread).mp hcheck).name rfl
end Sigillo
