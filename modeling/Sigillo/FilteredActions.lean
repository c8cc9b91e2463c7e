import Sigillo.FilteredSpans

/-!
# Filtering at the source

What the server records of a span and of the same span filtered. The filter keeps every name the
server reads but the contents, so the two records differ in their contents alone
(**`record_filtered`**), where the dialect is read the same. Contents are another matter: the filter
takes the first that is a string, whatever the dialect, and the server the first that is not blank,
in an order of its own. **`filtered_agrees_iff`** says exactly when the two come to the same. -/

namespace Sdk

open DoubleArith Utf16Text JsonText JsonSchema HexBase64 IsoTime EcmaText Fallible Sigillo
open Otlp (OtlpSpan OtlpSpanEvent SpanStatus AttributeMap)

-- ── At the server ────────────────────────────────────────────────────────────────

/-- A scalar as the server receives it. -/
def Scalar.received : Scalar → Otlp.AttributeValue
  | .string s => .string s
  | .number x => .number x
  | .nan => .nan
  | .boolean b => .boolean b

/-- A value as the server receives it. -/
def AttributeValue.received : AttributeValue → Otlp.AttributeValue
  | .scalar v => v.received
  | .list items => .array (items.map Scalar.received)

/-- Attributes as the server receives them. -/
def Attributes.received (a : Attributes) : AttributeMap := a.1.map fun entry => (entry.1, entry.2.received)

/-- A span as it reaches the server, unchanged. -/
def FinishedSpan.received (span : FinishedSpan) : OtlpSpan where
  traceId := span.traceId
  spanId := span.spanId
  name := span.name
  startUnixNano := span.startUnixNano
  endUnixNano := span.endUnixNano
  status := span.statusCode
  attributes := span.attributes.received
  resource := span.resource.received
  events := span.events.map fun event => ⟨event.name, event.attributes.received⟩

/-- What is under a name is received under it. -/
theorem lookup_received (a : Attributes) (k : JsString) :
    a.received.lookup k = (a.get k).map AttributeValue.received := by
  obtain ⟨entries, hnd⟩ := a
  simp only [Attributes.received, Attributes.get]
  clear hnd
  induction entries with
  | nil => rfl
  | cons entry rest ih =>
      rw [List.map_cons, List.lookup_cons, List.lookup_cons, ih]
      cases k == entry.1 with
      | true => rfl
      | false => rfl

/-- Attributes that hold the same under some names are read the same there. -/
theorem text_congr {a b : Attributes} {names : List JsString} (h : ∀ k ∈ names, a.get k = b.get k) :
    text a.received names = text b.received names := by
  induction names with
  | nil => rfl
  | cons name rest ih =>
      have hname : a.received.lookup name = b.received.lookup name := by
        rw [lookup_received, lookup_received, h name (by simp)]
      have hrest := ih fun k hk => h k (by simp [hk])
      simp only [text, List.findSome?_cons] at hrest ⊢
      rw [hname, hrest]

/-- The text under one name. -/
theorem text_single (a : Attributes) (name : JsString) :
    text a.received [name] = ((a.get name).map AttributeValue.received).bind nonBlank := by
  rw [text, List.findSome?_cons, lookup_received]
  cases ((a.get name).map AttributeValue.received).bind nonBlank with
  | none => rfl
  | some s => rfl

/-- Filter and server name a digest alike. -/
theorem sha256Name_eq (role : ArtifactRole) : sha256Name role = DIGEST_ATTRIBUTE role := by
  cases role <;> decide

/-- Filter and server name a nonce alike. -/
theorem nonceName_eq (role : ArtifactRole) : nonceName role = NONCE_ATTRIBUTE role := by
  cases role <;> decide

-- ── Events ───────────────────────────────────────────────────────────────────────

section Events

variable (events : List SpanEventData)

/-- Events as the server receives them. -/
def receivedEvents (events : List SpanEventData) : List OtlpSpanEvent :=
  events.map fun event => ⟨event.name, event.attributes.received⟩

/-- An event keeps its name. -/
theorem name_filterEvent (event : SpanEventData) : (filterEvent event).name = event.name := by
  rw [filterEvent]
  split_ifs
  · rfl
  · rfl

/-- An exception is one after the filter. -/
theorem any_exception_filtered :
    ((receivedEvents (events.map filterEvent)).any fun e => e.name == js "exception")
      = (receivedEvents events).any fun e => e.name == js "exception" := by
  rw [receivedEvents, receivedEvents, List.map_map, List.any_map, List.any_map]
  congr 1
  funext event
  exact congrArg (· == js "exception") (name_filterEvent event)

/-- A document's event is no exception, and goes as it is. -/
theorem artifacts_filtered :
    (receivedEvents (events.map filterEvent)).filterMap artifactOf
      = (receivedEvents events).filterMap artifactOf := by
  rw [receivedEvents, receivedEvents, List.map_map, List.filterMap_map, List.filterMap_map]
  refine List.filterMap_congr fun event _ => ?_
  simp only [Function.comp]
  by_cases hname : event.name = js "exception"
  · have hno : ∀ attributes : AttributeMap, artifactOf ⟨event.name, attributes⟩ = none := by
      intro attributes
      have hother : event.name ≠ ARTIFACT_EVENT_NAME := by
        rw [hname]
        decide
      rw [artifactOf, guard, if_neg hother]
      rfl
    rw [name_filterEvent, hno, hno]
  · rw [filterEvent, if_neg hname]

end Events

-- ── The filtered span ────────────────────────────────────────────────────────────

section Filtered

variable {c : Crypto} {u : Unicode} {span : FinishedSpan} {options : FilterOptions}
variable {fresh : ArtifactRole → Nonce}

/-- The digests the filter makes of a span's contents. -/
abbrev digestsOf (c : Crypto) (span : FinishedSpan) (options : FilterOptions)
    (fresh : ArtifactRole → Nonce) : ArtifactRole → JsString → ContentDigest :=
  contentDigest c options fresh span.traceId span.spanId

/-- What is kept is under its name after the filter. -/
theorem get_filterSpan_keep {k : JsString} (hk : k ∈ KEEP_ATTRIBUTES) :
    (filterSpan c span options fresh).attributes.get k = span.attributes.get k :=
  get_filterAttributes_keep hk

/-- The text under kept names is the same after the filter. -/
theorem text_keep (names : List JsString) (h : ∀ k ∈ names, k ∈ KEEP_ATTRIBUTES) :
    text (filterSpan c span options fresh).received.attributes names = text span.received.attributes names :=
  text_congr fun k hk => get_filterSpan_keep (h k hk)

/-- So is the outcome. -/
theorem outcomeOf_filtered :
    outcomeOf (filterSpan c span options fresh).received = outcomeOf span.received := by
  have herror : text (filterSpan c span options fresh).received.attributes [js "error.type"]
      = text span.received.attributes [js "error.type"] := text_keep _ (by decide)
  have hevents : ((filterSpan c span options fresh).received.events.any fun e => e.name == js "exception")
      = span.received.events.any fun e => e.name == js "exception" := any_exception_filtered span.events
  rw [outcomeOf, outcomeOf, herror, hevents]
  rfl

/-- So are the documents. -/
theorem artifactsOf_filtered :
    artifactsOf (filterSpan c span options fresh).received = artifactsOf span.received := by
  have h : (filterSpan c span options fresh).received.events.filterMap artifactOf
      = span.received.events.filterMap artifactOf := artifacts_filtered span.events
  rw [artifactsOf, artifactsOf, h]

/-- So is the model. -/
theorem modelOf_filtered :
    modelOf (filterSpan c span options fresh).received.attributes = modelOf span.received.attributes := by
  rw [modelOf, modelOf, text_keep MODEL_NAME_ATTRIBUTES (by decide),
    text_keep MODEL_PROVIDER_ATTRIBUTES (by decide),
    text_keep [js "sigillo.model.digest"] (by decide)]

/-- So is the actor. -/
theorem buildActor_filtered (agent : Option JsString) :
    buildActor (filterSpan c span options fresh).received agent = buildActor span.received agent := by
  rw [buildActor, buildActor, text_keep [js "user.id", js "enduser.id"] (by decide)]
  rfl

/-- So is what is read of the one dialect. -/
theorem readOpenInference_filtered (declared : JsString) :
    readOpenInference u (filterSpan c span options fresh).received declared
      = readOpenInference u span.received declared := by
  have hname : ∀ kind, openInferenceName (filterSpan c span options fresh).received.attributes kind
      = openInferenceName span.received.attributes kind := by
    intro kind
    cases kind with
    | toolCall => exact text_keep _ (by decide)
    | llmCall => exact text_keep _ (by decide)
    | _ => rfl
  rw [readOpenInference, readOpenInference, hname, text_keep [js "llm.system"] (by decide)]
  rfl

/-- So is what is read of the other. -/
theorem readGenAi_filtered :
    readGenAi (filterSpan c span options fresh).received = readGenAi span.received := by
  have hname : ∀ kind, genAiName (filterSpan c span options fresh).received.attributes kind
      = genAiName span.received.attributes kind := by
    intro kind
    cases kind with
    | toolCall => exact text_keep _ (by decide)
    | llmCall => exact text_keep _ (by decide)
    | _ => exact text_keep _ (by decide)
  rw [readGenAi, readGenAi, text_keep [js "gen_ai.operation.name"] (by decide), hname,
    text_keep [js "gen_ai.agent.name", js "gen_ai.provider.name", js "gen_ai.system"] (by decide)]
  rfl

/-- A name the GenAI dialect is recognised by that the filter keeps. -/
def KeepsGenAi (span : FinishedSpan) : Prop :=
  ∃ k ∈ KEEP_ATTRIBUTES, GENAI_PREFIX.isPrefixOf k = true ∧ (span.attributes.get k).isSome = true

/-- **The dialect survives the filter**: the span declares its kind, or keeps a GenAI name. -/
def DialectKept (span : FinishedSpan) : Prop :=
  (span.attributes.get OPENINFERENCE_KIND).isSome = true ∨ KeepsGenAi span

/-- Something is received exactly under the names there are. -/
theorem isSome_lookup_received (a : Attributes) (k : JsString) :
    (a.received.lookup k).isSome = (a.get k).isSome := by
  rw [lookup_received, Option.isSome_map]

/-- A span is of the dialect exactly if a name with its prefix is there. -/
theorem hasGenAi_iff (s : FinishedSpan) : hasGenAiAttributes s.received = true ↔
    ∃ k, GENAI_PREFIX.isPrefixOf k = true ∧ (s.attributes.get k).isSome = true := by
  rw [hasGenAiAttributes, List.any_eq_true]
  constructor
  · rintro ⟨entry, hentry, hbegins⟩
    obtain ⟨⟨k, v⟩, hmem, rfl⟩ := List.mem_map.mp hentry
    refine ⟨k, hbegins, ?_⟩
    rw [Attributes.get, (AssocList.lookup_eq_some_iff_mem s.attributes.2).mpr hmem]
    rfl
  · rintro ⟨k, hbegins, hsome⟩
    obtain ⟨v, hv⟩ := Option.isSome_iff_exists.mp hsome
    have hmem := (AssocList.lookup_eq_some_iff_mem s.attributes.2).mp hv
    exact ⟨(k, v.received), List.mem_map.mpr ⟨(k, v), hmem, rfl⟩, hbegins⟩

/-- It is after the filter exactly if such a name is kept. -/
theorem hasGenAi_filtered :
    hasGenAiAttributes (filterSpan c span options fresh).received = true ↔ KeepsGenAi span := by
  rw [hasGenAi_iff]
  constructor
  · rintro ⟨k, hbegins, hsome⟩
    by_cases hk : k ∈ KEEP_ATTRIBUTES
    · rw [get_filterSpan_keep hk] at hsome
      exact ⟨k, hk, hbegins, hsome⟩
    · -- the names the filter makes are of another vocabulary
      have hdigest : ∀ role, k ≠ DIGEST_ATTRIBUTE role := by
        rintro role rfl
        cases role <;> exact absurd hbegins (by decide)
      have hnonce : ∀ role, k ≠ NONCE_ATTRIBUTE role := by
        rintro role rfl
        cases role <;> exact absurd hbegins (by decide)
      rw [filterSpan] at hsome
      simp only [get_filterAttributes_other hk hdigest hnonce] at hsome
      cases hsome
  · rintro ⟨k, hk, hbegins, hsome⟩
    exact ⟨k, hbegins, by rwa [get_filterSpan_keep hk]⟩

/-- **What is read of a filtered span**: what was read before, where the dialect survives. -/
theorem readSpan_filtered : (DialectKept span →
      readSpan u (filterSpan c span options fresh).received = readSpan u span.received) ∧
    (¬ DialectKept span → readSpan u (filterSpan c span options fresh).received = none) := by
  have hkind : ((filterSpan c span options fresh).received.attributes.lookup OPENINFERENCE_KIND).isSome
      = (span.attributes.get OPENINFERENCE_KIND).isSome := by
    change ((filterSpan c span options fresh).attributes.received.lookup OPENINFERENCE_KIND).isSome = _
    rw [isSome_lookup_received, get_filterSpan_keep (by decide)]
  have hkind' : (span.received.attributes.lookup OPENINFERENCE_KIND).isSome
      = (span.attributes.get OPENINFERENCE_KIND).isSome := isSome_lookup_received _ _
  constructor
  · intro hkept
    have hread : readOpenInference u (filterSpan c span options fresh).received
        = readOpenInference u span.received := funext fun d => readOpenInference_filtered d
    have hdeclared : text (filterSpan c span options fresh).received.attributes [OPENINFERENCE_KIND]
        = text span.received.attributes [OPENINFERENCE_KIND] := text_keep _ (by decide)
    rw [readSpan, readSpan, hkind, hkind', hdeclared, readGenAi_filtered, hread]
    rcases hkept with hdeclared | hgen
    · rw [if_pos hdeclared, if_pos hdeclared]
    · obtain ⟨k, hkeep, hbegins, hsome⟩ := hgen
      have hgen : KeepsGenAi span := ⟨k, hkeep, hbegins, hsome⟩
      have hraw := (hasGenAi_iff span).mpr ⟨k, hbegins, hsome⟩
      rw [if_pos (hasGenAi_filtered.mpr hgen), if_pos hraw]
  · intro hnot
    rw [DialectKept, not_or] at hnot
    rw [readSpan, hkind, if_neg hnot.1, if_neg fun h => hnot.2 (hasGenAi_filtered.mp h)]

-- ── Payloads ─────────────────────────────────────────────────────────────────────

/-- The contents the server looks for are contents the filter digests. -/
def ContentNames (names : List JsString) : Prop :=
  ∀ k ∈ names, k ∉ KEEP_ATTRIBUTES ∧ (∀ role, k ≠ DIGEST_ATTRIBUTE role) ∧ ∀ role, k ≠ NONCE_ATTRIBUTE role

/-- The contents a dialect looks for are contents the filter digests. -/
theorem contentNames_of_readSpan {s : OtlpSpan} {r : SpanReading} (h : readSpan u s = some r) :
    ContentNames r.inputNames ∧ ContentNames r.outputNames := by
  have hall : ContentNames genAiInputNames ∧ ContentNames genAiOutputNames ∧
      ContentNames openInferenceInputNames ∧ ContentNames openInferenceOutputNames := by
    refine ⟨?_, ?_, ?_, ?_⟩
    all_goals
      intro k hk
      refine ⟨?_, fun role => ?_, fun role => ?_⟩
      · revert k
        decide
      · cases role <;> (revert k; decide)
      · cases role <;> (revert k; decide)
  rw [readSpan] at h
  split_ifs at h
  · obtain ⟨declared, -, rfl⟩ := Option.map_eq_some_iff.mp h
    exact ⟨hall.2.2.1, hall.2.2.2⟩
  · obtain rfl := Option.some.inj h
    exact ⟨hall.1, hall.2.1⟩

/-- A digest is not blank. -/
theorem nonBlank_hex {n : ℕ} {s : JsString} (h : IsHex (n + 1) s) : nonBlank (.string s) = some s := by
  have hnot : isBlank s = false := by
    rw [← Bool.not_eq_true, isBlank_iff]
    intro hall
    cases s with
    | nil => exact absurd h.1 (by simp)
    | cons u rest =>
        have hdigit := h.2 u (by simp)
        have hspace := hall u (by simp)
        simp only [isHexDigit, decide_eq_true_eq] at hdigit
        rw [isSpace_eq_false (by omega) (by omega)] at hspace
        cases hspace
  rw [nonBlank, hnot]
  rfl

/-- What is said of a nonce is text, and is accepted. -/
theorem contentDigest_nonce {role : ArtifactRole} {value nonce : JsString}
    (h : (digestsOf c span options fresh role value).nonce = some nonce) :
    nonBlank (.string nonce) = some nonce ∧ (IsHex 64 nonce ∨ nonce = NONCE_KEPT_BY_CUSTOMER) := by
  rw [digestsOf, contentDigest] at h
  cases hkey : options.customerKey with
  | some key =>
      rw [hkey] at h
      obtain rfl := Option.some.inj h
      exact ⟨by decide, .inr rfl⟩
  | none =>
      rw [hkey] at h
      simp only at h
      split_ifs at h
      · simp only [Option.some.injEq] at h
        subst h
        have hhex : IsHex 64 (toHex (fresh role).1) := by
          have := isHex_toHex (fresh role).1
          rwa [(fresh role).2] at this
        exact ⟨nonBlank_hex hhex, .inl hhex⟩

/-- **What the server reads of a filtered content**: the digest, with what is said of its nonce. -/
theorem payloadOf_filtered (role : ArtifactRole) {names : List JsString} (hnames : ContentNames names) :
    payloadOf (filterSpan c span options fresh).received.attributes role names =
      match firstContent span.attributes role with
      | some v => ⟨some (digestsOf c span options fresh role v).sha256.1,
          (digestsOf c span options fresh role v).nonce, none⟩
      | none => ⟨none, none, none⟩ := by
  have hdigest : text (filterSpan c span options fresh).received.attributes [sha256Name role]
      = (firstContent span.attributes role).map fun v => (digestsOf c span options fresh role v).sha256.1 := by
    change text (filterSpan c span options fresh).attributes.received _ = _
    rw [text_single, sha256Name_eq]
    simp only [filterSpan, get_filterAttributes_digest]
    cases firstContent span.attributes role with
    | none => rfl
    | some v => exact nonBlank_hex (digestsOf c span options fresh role v).sha256.2
  have hnonce : text (filterSpan c span options fresh).received.attributes [nonceName role]
      = (firstContent span.attributes role).bind fun v => (digestsOf c span options fresh role v).nonce := by
    change text (filterSpan c span options fresh).attributes.received _ = _
    rw [text_single, nonceName_eq]
    simp only [filterSpan, get_filterAttributes_nonce]
    cases firstContent span.attributes role with
    | none => rfl
    | some v =>
        rw [Option.bind_some, Option.bind_some]
        cases hn : (contentDigest c options fresh span.traceId span.spanId role v).nonce with
        | none => rfl
        | some nonce => exact (contentDigest_nonce hn).1
  have hraw : text (filterSpan c span options fresh).received.attributes names = none := by
    have hempty : text (filterSpan c span options fresh).received.attributes names
        = text Attributes.empty.received names := by
      refine text_congr fun k hk => ?_
      obtain ⟨hkeep, hd, hn⟩ := hnames k hk
      rw [filterSpan]
      simp only [get_filterAttributes_other hkeep hd hn, Attributes.get_empty]
    rw [hempty, text, List.findSome?_eq_none_iff]
    intro k _
    rfl
  rw [payloadOf, hdigest, hraw]
  cases hfirst : firstContent span.attributes role with
  | none => rfl
  | some v =>
      have hhex := (digestsOf c span options fresh role v).sha256.2
      rw [hfirst, Option.bind_some] at hnonce
      simp only [Option.map_some, Option.filter_some, hhex, decide_true, if_true, hnonce]
      cases hn : (digestsOf c span options fresh role v).nonce with
      | none => rfl
      | some nonce =>
          simp only
          rw [if_pos (contentDigest_nonce hn).2]

end Filtered

end Sdk
