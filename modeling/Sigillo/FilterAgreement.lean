import Sigillo.FilteredActions

/-!
# When filtering at the source changes nothing but the contents

**`filtered_agrees_iff`**: the server records the same action of a span and of the span filtered, each
content of the one digested in the other, exactly when the filter leaves a name its dialect is
recognised by and digests, of each role, what the server would have read. -/

namespace Sdk

open DoubleArith Utf16Text JsonText JsonSchema HexBase64 IsoTime EcmaText Fallible Sigillo
open Otlp (OtlpSpan OtlpSpanEvent SpanStatus AttributeMap)

-- ── One span's action ────────────────────────────────────────────────────────────

/-- The action recorded of a span that comes alone. -/
def actionOf (u : Unicode) (span : OtlpSpan) : Option AdaptedAction :=
  match adaptSpans u [span] with
  | .ok batch => batch.actions.head?
  | .error _ => none

/-- The span is read so, starts on a date and does not pass itself off as the server's own. -/
def RecordedAs (u : Unicode) (span : OtlpSpan) (r : SpanReading) : Prop :=
  readSpan u span = some r ∧ StartIsDate span ∧ CONNECTION_PREFIX.isPrefixOf (cap r.name 256) = false

theorem actionOf_eq_some {u : Unicode} {span : OtlpSpan} {a : AdaptedAction} :
    actionOf u span = some a ↔ ∃ r, RecordedAs u span r ∧
      a = (r.record span (isoText (millisOf span.startUnixNano))).toAdaptedAction := by
  rw [actionOf]
  cases hbatch : adaptSpans u [span] with
  | error e =>
      refine iff_of_false (by simp) ?_
      rintro ⟨r, ⟨hr, hdate, -⟩, -⟩
      obtain ⟨batch, hok⟩ := adaptSpans_isOk.mpr fun s hs r' _ => List.mem_singleton.mp hs ▸ hdate
      rw [hok] at hbatch
      cases hbatch
  | ok batch =>
      have hdate := adaptSpans_isOk.mp ⟨batch, hbatch⟩ span (by simp)
      have hmem : ∀ b, b ∈ batch.actions ↔ ∃ r, RecordedAs u span r ∧
          b = (r.record span (isoText (millisOf span.startUnixNano))).toAdaptedAction := by
        intro b
        rw [(adaptSpans_spec hbatch).2 b]
        constructor
        · rintro ⟨s, hs, r, hr, hown, rfl⟩
          obtain rfl := List.mem_singleton.mp hs
          exact ⟨r, ⟨hr, hdate r hr, hown⟩, rfl⟩
        · rintro ⟨r, ⟨hr, -, hown⟩, rfl⟩
          exact ⟨span, by simp, r, hr, hown, rfl⟩
      constructor
      · intro h
        exact (hmem a).mp (List.mem_of_head? h)
      · rintro ⟨r, hr, rfl⟩
        have ha := (hmem _).mpr ⟨r, hr, rfl⟩
        cases hactions : batch.actions with
        | nil =>
            rw [hactions] at ha
            cases ha
        | cons b rest =>
            obtain ⟨r', hr', rfl⟩ := (hmem b).mp (by rw [hactions]; simp)
            obtain rfl := Option.some.inj (hr.1.symm.trans hr'.1)
            simp only [hactions, List.head?_cons]

-- ── Agreement ────────────────────────────────────────────────────────────────────

/-- A digest stands for a value, under its nonce; and there is none where there was no value. -/
def Digested (digest : JsString → ContentDigest) (raw hash nonce : Option JsString) : Prop :=
  hash.isSome = raw.isSome ∧ ∀ v, raw = some v → hash = some (digest v).sha256.1 ∧ nonce = (digest v).nonce

/-- **The same action**, the contents of the first digested in the second. -/
structure SameAction (digests : ArtifactRole → JsString → ContentDigest) (a b : AdaptedAction) : Prop where
  action : a.action = b.action
  actor : a.actor = b.actor
  outcome : a.outcome = b.outcome
  tsEvent : a.tsEvent = b.tsEvent
  source : a.source = b.source
  artifacts : a.artifacts = b.artifacts
  model : a.model = b.model
  input : Digested (digests .input) a.rawInput b.inputHash b.inputNonce
  output : Digested (digests .output) a.rawOutput b.outputHash b.outputNonce

/-- The value the server reads for a role: none beside a digest of the span's own, and else the
    first that is not blank. -/
def serverContent (span : OtlpSpan) (role : ArtifactRole) (names : List JsString) : Option JsString :=
  if (text span.attributes [sha256Name role]).any (fun s => decide (IsHex 64 s)) = true then none
  else text span.attributes names

theorem payloadOf_raw (span : OtlpSpan) (role : ArtifactRole) (names : List JsString) :
    (payloadOf span.attributes role names).raw = serverContent span role names := by
  rw [payloadOf, serverContent]
  cases hpre : text span.attributes [sha256Name role] with
  | none => rfl
  | some s =>
      by_cases hhex : IsHex 64 s
      · rw [Option.filter_some, if_pos (by simpa using hhex), if_pos (by simpa using hhex)]
        cases text span.attributes [nonceName role] with
        | none => rfl
        | some nonce =>
            simp only
            split_ifs
            · rfl
            · rfl
      · rw [Option.filter_some, if_neg (by simpa using hhex), if_neg (by simpa using hhex)]

/-- **What a recorded span must be like**: its dialect survives, and the first content of each role
    that is a string is the one the server reads. -/
def FilterFits (u : Unicode) (span : FinishedSpan) : Prop :=
  ∀ r, RecordedAs u span.received r → DialectKept span ∧
    ∀ role, firstContent span.attributes role = serverContent span.received role (r.names role)

section Agreement

variable {c : Crypto} {u : Unicode} {span : FinishedSpan} {options : FilterOptions}
variable {fresh : ArtifactRole → Nonce}

theorem recordedAs_filtered (hkept : DialectKept span) {r : SpanReading} :
    RecordedAs u (filterSpan c span options fresh).received r ↔ RecordedAs u span.received r := by
  rw [RecordedAs, RecordedAs, readSpan_filtered.1 hkept]
  rfl

/-- **The record of a filtered span** differs in its contents alone. -/
theorem record_filtered {r : SpanReading} (hr : readSpan u span.received = some r) (iso : JsString) :
    let a := (r.record span.received iso).toAdaptedAction
    let b := (r.record (filterSpan c span options fresh).received iso).toAdaptedAction
    SameAction (digestsOf c span options fresh) a b ↔
      ∀ role, Digested (digestsOf c span options fresh role) (serverContent span.received role (r.names role))
        ((firstContent span.attributes role).map fun v => (digestsOf c span options fresh role v).sha256.1)
        ((firstContent span.attributes role).bind fun v => (digestsOf c span options fresh role v).nonce) := by
  intro a b
  have hpayload : ∀ role, payloadOf (filterSpan c span options fresh).received.attributes role (r.names role)
      = ⟨(firstContent span.attributes role).map fun v => (digestsOf c span options fresh role v).sha256.1,
          (firstContent span.attributes role).bind fun v => (digestsOf c span options fresh role v).nonce,
          none⟩ := by
    intro role
    have hnames : ContentNames (r.names role) := by
      cases role with
      | input => exact (contentNames_of_readSpan hr).1
      | output => exact (contentNames_of_readSpan hr).2
    rw [payloadOf_filtered role hnames]
    cases firstContent span.attributes role with
    | none => rfl
    | some v => rfl
  have hin := hpayload .input
  have hout := hpayload .output
  have hrawIn : a.rawInput = serverContent span.received .input (r.names .input) := payloadOf_raw _ _ _
  have hrawOut : a.rawOutput = serverContent span.received .output (r.names .output) := payloadOf_raw _ _ _
  have hhashIn : b.inputHash = _ := congrArg Payload.hash hin
  have hhashOut : b.outputHash = _ := congrArg Payload.hash hout
  have hnonceIn : b.inputNonce = _ := congrArg Payload.nonce hin
  have hnonceOut : b.outputNonce = _ := congrArg Payload.nonce hout
  constructor
  · intro h role
    cases role with
    | input =>
        have := h.input
        rwa [hrawIn, hhashIn, hnonceIn] at this
    | output =>
        have := h.output
        rwa [hrawOut, hhashOut, hnonceOut] at this
  · intro h
    refine ⟨rfl, (buildActor_filtered r.agent).symm, outcomeOf_filtered.symm, rfl, rfl,
      artifactsOf_filtered.symm, ?_, ?_, ?_⟩
    · exact congrArg (fun m => if r.kind = .llmCall then m else none) modelOf_filtered.symm
    · rw [hrawIn, hhashIn, hnonceIn]
      exact h .input
    · rw [hrawOut, hhashOut, hnonceOut]
      exact h .output

/-- The bytes that are hashed for a value. -/
def contentBytes (c : Crypto) (span : FinishedSpan) (options : FilterOptions)
    (fresh : ArtifactRole → Nonce) (role : ArtifactRole) (value : JsString) : Bytes :=
  match options.customerKey with
  | some key => (nonceFor c key span.traceId span.spanId role).1 ++ utf8Encode (quote value)
  | none => (if options.salt then (fresh role).1 else []) ++ utf8Encode (quote value)

theorem digestsOf_sha256 (role : ArtifactRole) (value : JsString) :
    (digestsOf c span options fresh role value).sha256
      = c.sha256Hex (contentBytes c span options fresh role value) := by
  rw [digestsOf, contentDigest, contentBytes]
  cases options.customerKey with
  | some key => rfl
  | none =>
      cases options.salt with
      | true => rfl
      | false => rfl

theorem contentBytes_injective (role : ArtifactRole) :
    Function.Injective (contentBytes c span options fresh role) := by
  intro v w h
  have hquote : utf8Encode (quote v) = utf8Encode (quote w) := by
    simp only [contentBytes] at h
    cases hkey : options.customerKey with
    | some key =>
        rw [hkey] at h
        exact List.append_cancel_left h
    | none =>
        rw [hkey] at h
        exact List.append_cancel_left h
  have hval := canonicalBytes_injective (Codec.str fun _ => True) (a := ⟨v, trivial⟩) (b := ⟨w, trivial⟩)
    hquote
  exact congrArg Subtype.val hval

/-- The contents of a role that either side may digest. -/
def IsContent (span : FinishedSpan) (role : ArtifactRole) (value : JsString) : Prop :=
  ∃ entry ∈ span.attributes.1, contentOf role entry = some value

theorem isContent_of_first {role : ArtifactRole} {v : JsString}
    (h : firstContent span.attributes role = some v) : IsContent span role v :=
  List.exists_of_findSome?_eq_some h

theorem isContent_of_server {r : SpanReading} (hr : readSpan u span.received = some r) {role : ArtifactRole}
    {v : JsString} (h : serverContent span.received role (r.names role) = some v) :
    IsContent span role v := by
  have hnames : ∀ k ∈ r.names role, CONTENT_ATTRIBUTES.lookup k = some role := by
    rw [readSpan] at hr
    split_ifs at hr
    · obtain ⟨declared, -, rfl⟩ := Option.map_eq_some_iff.mp hr
      cases role with
      | input => exact (show ∀ k ∈ openInferenceInputNames, _ by decide)
      | output => exact (show ∀ k ∈ openInferenceOutputNames, _ by decide)
    · obtain rfl := Option.some.inj hr
      cases role with
      | input => exact (show ∀ k ∈ genAiInputNames, _ by decide)
      | output => exact (show ∀ k ∈ genAiOutputNames, _ by decide)
  rw [serverContent] at h
  split_ifs at h
  obtain ⟨k, hk, hv⟩ := List.exists_of_findSome?_eq_some h
  obtain ⟨w, hw, hblank⟩ := Option.bind_eq_some_iff.mp hv
  rw [show span.received.attributes = span.attributes.received from rfl, lookup_received] at hw
  obtain ⟨x, hx, rfl⟩ := Option.map_eq_some_iff.mp hw
  refine ⟨(k, x), (AssocList.lookup_eq_some_iff_mem span.attributes.2).mp hx, ?_⟩
  rw [contentOf, if_pos (hnames k hk)]
  cases x with
  | list items => cases hblank
  | scalar s =>
      cases s with
      | string t =>
          have hblank : nonBlank (.string t) = some v := hblank
          rw [nonBlank] at hblank
          split_ifs at hblank
          exact hblank
      | _ => cases hblank

/-- **A digest of the first content stands for the one the server reads** only where they are one. -/
theorem digested_iff {S : Set Bytes} (hS : Set.InjOn c.sha256 S)
    (hmem : ∀ role v, IsContent span role v → contentBytes c span options fresh role v ∈ S)
    {role : ArtifactRole} {server : Option JsString} (hserver : ∀ v, server = some v → IsContent span role v) :
    Digested (digestsOf c span options fresh role) server
      ((firstContent span.attributes role).map fun v => (digestsOf c span options fresh role v).sha256.1)
      ((firstContent span.attributes role).bind fun v => (digestsOf c span options fresh role v).nonce) ↔
    firstContent span.attributes role = server := by
  constructor
  · rintro ⟨hsome, hvalue⟩
    rw [Option.isSome_map] at hsome
    cases hs : server with
    | none =>
        rw [hs] at hsome
        simpa using hsome
    | some v =>
        obtain ⟨hhash, -⟩ := hvalue v hs
        obtain ⟨w, hw, heq⟩ := Option.map_eq_some_iff.mp hhash
        have hhex := Subtype.ext heq
        rw [digestsOf_sha256, digestsOf_sha256] at hhex
        have hbytes := hS (hmem role w (isContent_of_first hw)) (hmem role v (hserver v hs))
          (Digest.hex_injective hhex)
        rw [hw, contentBytes_injective role hbytes]
  · rintro rfl
    refine ⟨by rw [Option.isSome_map], fun v hv => ?_⟩
    rw [hv]
    exact ⟨rfl, rfl⟩

theorem filterSpan_agrees_iff {S : Set Bytes} (hS : Set.InjOn c.sha256 S)
    (hmem : ∀ role v, IsContent span role v → contentBytes c span options fresh role v ∈ S) :
    Option.Rel (SameAction (digestsOf c span options fresh)) (actionOf u span.received)
      (actionOf u (filterSpan c span options fresh).received) ↔ FilterFits u span := by
  have hkey : ∀ r, RecordedAs u span.received r → DialectKept span →
      (Option.Rel (SameAction (digestsOf c span options fresh)) (actionOf u span.received)
        (actionOf u (filterSpan c span options fresh).received) ↔
      ∀ role, firstContent span.attributes role = serverContent span.received role (r.names role)) := by
    intro r hr hkept
    have ha := actionOf_eq_some.mpr ⟨r, hr, rfl⟩
    have hfiltered : RecordedAs u (filterSpan c span options fresh).received r :=
      (recordedAs_filtered hkept).mpr hr
    have hb := actionOf_eq_some.mpr ⟨r, hfiltered, rfl⟩
    rw [ha, hb, Option.rel_some_some]
    refine (record_filtered hr.1 _).trans (forall_congr' fun role => ?_)
    exact digested_iff hS hmem fun v hv => isContent_of_server hr.1 hv
  constructor
  · intro h r hr
    have hkept : DialectKept span := by
      by_contra hnot
      have hnone : actionOf u (filterSpan c span options fresh).received = none := by
        rw [Option.eq_none_iff_forall_ne_some]
        intro a ha
        obtain ⟨r', hr', -⟩ := actionOf_eq_some.mp ha
        have := hr'.1
        rw [readSpan_filtered.2 hnot] at this
        cases this
      rw [actionOf_eq_some.mpr ⟨r, hr, rfl⟩, hnone] at h
      cases h
    exact ⟨hkept, (hkey r hr hkept).mp h⟩
  · intro h
    by_cases hrec : ∃ r, RecordedAs u span.received r
    · obtain ⟨r, hr⟩ := hrec
      exact (hkey r hr (h r hr).1).mpr (h r hr).2
    · have hnone : actionOf u span.received = none := by
        rw [Option.eq_none_iff_forall_ne_some]
        intro a ha
        obtain ⟨r, hr, -⟩ := actionOf_eq_some.mp ha
        exact hrec ⟨r, hr⟩
      have hnone' : actionOf u (filterSpan c span options fresh).received = none := by
        rw [Option.eq_none_iff_forall_ne_some]
        intro a ha
        obtain ⟨r, hr, -⟩ := actionOf_eq_some.mp ha
        by_cases hkept : DialectKept span
        · exact hrec ⟨r, (recordedAs_filtered hkept).mp hr⟩
        · have := hr.1
          rw [readSpan_filtered.2 hkept] at this
          cases this
      rw [hnone, hnone']
      exact .none

end Agreement

/-- **Filtering at the source records the same action** exactly where the dialect survives and the
    first content of each role is the one the server reads; in TypeScript and in Python alike, where
    SHA-256 tells a span's contents apart. -/
theorem filtered_agrees_iff (c : Crypto) (u : Unicode) (span f : FinishedSpan) (options : FilterOptions)
    (fresh : ArtifactRole → Nonce)
    (hf : f = filterSpan c span options fresh ∨ filteredSpan c span options fresh = .ok f)
    (S : Set Bytes) (hS : Set.InjOn c.sha256 S)
    (hmem : ∀ role v, IsContent span role v → contentBytes c span options fresh role v ∈ S) :
    Option.Rel (SameAction (digestsOf c span options fresh)) (actionOf u span.received)
      (actionOf u f.received) ↔ FilterFits u span := by
  have hf : f = filterSpan c span options fresh := hf.elim id filterSpan_of_filteredSpan
  rw [hf]
  exact filterSpan_agrees_iff hS hmem

/-- A model call with one input, and nothing more. -/
def promptSpan (prompt : JsString) : FinishedSpan where
  traceId := ⟨List.replicate 32 0x31, isHex_ones32⟩
  spanId := ⟨List.replicate 16 0x31, isHex_ones16⟩
  parentSpanId := none
  name := js "chat"
  startUnixNano := 1
  endUnixNano := 1
  statusCode := .unset
  attributes := ⟨[(OPENINFERENCE_KIND, .scalar (.string (js "LLM"))),
    (js "input.value", .scalar (.string prompt))], by
      have hnames : [OPENINFERENCE_KIND, js "input.value"].Nodup := by decide
      exact hnames⟩
  events := []
  resource := .empty

/-- Fresh nonces, and no key of the customer's. -/
def saltedOnly : FilterOptions := ⟨true, none⟩

/-- The nonce of zeros. -/
def zeroNonce : Nonce := ⟨List.replicate 32 0, length_zeros⟩

theorem isContent_promptSpan {prompt : JsString} {role : ArtifactRole} {v : JsString}
    (h : IsContent (promptSpan prompt) role v) : role = .input ∧ v = prompt := by
  obtain ⟨entry, hentry, hv⟩ := h
  rcases List.mem_cons.mp hentry with rfl | hentry
  · cases role <;> cases hv
  · obtain rfl := List.mem_singleton.mp hentry
    cases role with
    | input => exact ⟨rfl, (Option.some.inj hv).symm⟩
    | output => cases hv

theorem promptSpan_agrees : Option.Rel
    (SameAction (digestsOf toyCrypto (promptSpan (js "hi")) saltedOnly fun _ => zeroNonce))
    (actionOf ⟨id, id, id⟩ (promptSpan (js "hi")).received)
    (actionOf ⟨id, id, id⟩
      (filterSpan toyCrypto (promptSpan (js "hi")) saltedOnly fun _ => zeroNonce).received) := by
  refine (filtered_agrees_iff toyCrypto ⟨id, id, id⟩ (promptSpan (js "hi")) _ saltedOnly
    (fun _ => zeroNonce) (.inl rfl) _ (Set.injOn_singleton _ (contentBytes toyCrypto
      (promptSpan (js "hi")) saltedOnly (fun _ => zeroNonce) .input (js "hi"))) ?_).mpr ?_
  · intro role v hv
    obtain ⟨rfl, rfl⟩ := isContent_promptSpan hv
    exact rfl
  · intro r hr
    have hread : readSpan ⟨id, id, id⟩ (promptSpan (js "hi")).received
        = some (readOpenInference ⟨id, id, id⟩ (promptSpan (js "hi")).received (js "LLM")) := rfl
    obtain rfl := Option.some.inj (hread.symm.trans hr.1)
    refine ⟨.inl rfl, fun role => ?_⟩
    cases role with
    | input => rfl
    | output => rfl

/-- **A blank prompt is digested where the server reads none.** -/
theorem blankPrompt_differs : ¬ ∀ (c : Crypto) (u : Unicode) (span f : FinishedSpan)
    (options : FilterOptions) (fresh : ArtifactRole → Nonce),
    (f = filterSpan c span options fresh ∨ filteredSpan c span options fresh = .ok f) →
    ∀ S : Set Bytes, Set.InjOn c.sha256 S →
    (∀ role v, IsContent span role v → contentBytes c span options fresh role v ∈ S) →
    Option.Rel (SameAction (digestsOf c span options fresh)) (actionOf u span.received)
      (actionOf u f.received) := by
  intro h
  have hmem : ∀ role v, IsContent (promptSpan []) role v →
      contentBytes toyCrypto (promptSpan []) saltedOnly (fun _ => zeroNonce) role v ∈
        ({contentBytes toyCrypto (promptSpan []) saltedOnly (fun _ => zeroNonce) .input []} : Set Bytes) := by
    intro role v hv
    obtain ⟨rfl, rfl⟩ := isContent_promptSpan hv
    exact rfl
  have hagrees := h toyCrypto ⟨id, id, id⟩ (promptSpan []) _ saltedOnly (fun _ => zeroNonce) (.inl rfl) _
    (Set.injOn_singleton _ _) hmem
  have hfits := (filterSpan_agrees_iff (Set.injOn_singleton _ _) hmem).mp hagrees
  have hread : readSpan ⟨id, id, id⟩ (promptSpan []).received
      = some (readOpenInference ⟨id, id, id⟩ (promptSpan []).received (js "LLM")) := rfl
  have hdate : StartIsDate (promptSpan []).received := by
    rw [StartIsDate, show millisOf (promptSpan []).received.startUnixNano = 0 by decide]
    decide
  have hinput := (hfits _ ⟨hread, hdate, rfl⟩).2 .input
  cases hinput

end Sdk
