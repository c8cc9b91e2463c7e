import Sigillo.Adapter
import Sigillo.ReceiptSize

/-!
# What the adapter's actions are made of

Text that passes `cap` fits its field, whatever it was; a payload is a digest that fits or a value;
an entry of a document fits. What is left to the span is its name, its time, its person and its
size. -/

namespace Sigillo

open DoubleArith Utf16Text JsonText JsonSchema HexBase64 IsoTime EcmaText Fallible
open Otlp (AttributeMap AttributeValue OtlpSpan OtlpSpanEvent)

-- ── Text ─────────────────────────────────────────────────────────────────────────

theorem isWellFormed_cap (s : JsString) (limit : ℕ) : isWellFormed (cap s limit) = true := by
  have hwhole := scalars_of_isWellFormed (isWellFormed_toWellFormed s)
  rw [cap]
  split_ifs
  · exact hwhole.isWellFormed
  · exact (scalars_dropHalf_take hwhole limit).isWellFormed

theorem length_cap_le (s : JsString) (limit : ℕ) : (cap s limit).length ≤ limit := by
  rw [cap]
  split_ifs with h
  · exact h
  · calc (dropHalf ((toWellFormed s).take limit)).length
        ≤ ((toWellFormed s).take limit).length := (length_dropHalf _).1
      _ ≤ limit := List.length_take_le limit _

/-- A cut leaves something of a text that held something. -/
theorem cap_eq_nil {s : JsString} {limit : ℕ} (hlimit : 2 ≤ limit) : cap s limit = [] ↔ s = [] := by
  have hlen := length_toWellFormed s
  rw [← List.length_eq_zero_iff, ← List.length_eq_zero_iff, cap]
  split_ifs with h
  · rw [hlen]
  · have hcut := (length_dropHalf ((toWellFormed s).take limit)).2
    rw [List.length_take, hlen] at hcut
    rw [hlen] at h
    omega

/-- **A cut text fits**, unless there was nothing. -/
theorem textFits_cap {s : JsString} {limit : ℕ} (hlimit : 2 ≤ limit) :
    TextFits limit (cap s limit) ↔ s ≠ [] := by
  rw [TextFits, Nat.one_le_iff_ne_zero, Ne, List.length_eq_zero_iff, cap_eq_nil hlimit]
  exact and_iff_left (length_cap_le s limit)

/-- What is read as text holds something. -/
theorem ne_nil_of_text {attributes : AttributeMap} {names : List JsString} {s : JsString}
    (h : text attributes names = some s) : s ≠ [] := by
  obtain ⟨name, -, hname⟩ := List.exists_of_findSome?_eq_some h
  obtain ⟨v, -, hv⟩ := Option.bind_eq_some_iff.mp hname
  cases v with
  | string t =>
      rw [nonBlank] at hv
      split_ifs at hv with hblank
      obtain rfl := Option.some.inj hv
      rintro rfl
      exact hblank rfl
  | _ => cases hv

theorem textFits_of_text {attributes : AttributeMap} {names : List JsString} {s : JsString} {limit : ℕ}
    (hlimit : 2 ≤ limit) (h : text attributes names = some s) : TextFits limit (cap s limit) :=
  (textFits_cap hlimit).mpr (ne_nil_of_text h)

-- ── Documents and models ─────────────────────────────────────────────────────────

theorem guard_eq_some {p : Prop} [Decidable p] {x : Unit} : (guard p : Option Unit) = some x ↔ p := by
  by_cases h : p
  · simp [guard, h]
  · simp [guard, h]

theorem artifactOf_eq_some {event : OtlpSpanEvent} {a : ArtifactInput} (h : artifactOf event = some a) :
    ∃ role label mediaType sha256 canon,
      text event.attributes [js "sigillo.artifact.label"] = some label ∧
      text event.attributes [js "sigillo.artifact." ++ js "media_type"] = some mediaType ∧
      IsHex 64 sha256 ∧ (∀ t, canon = some t → IsHex 64 t) ∧
      a = ⟨role, cap label 256, cap mediaType 128, sha256, canon⟩ := by
  simp only [artifactOf, Option.bind_eq_bind, Option.bind_eq_some_iff, guard_eq_some] at h
  obtain ⟨-, -, role, -, label, hlabel, mediaType, hmedia, sha256, -, -, hsha, h⟩ := h
  refine ⟨role, label, mediaType, sha256, _, hlabel, hmedia, hsha, ?_, (Option.some.inj h).symm⟩
  intro t ht
  split_ifs at ht
  simpa using (Option.filter_eq_some_iff.mp ht).2

theorem artifactsOf_eq_some {span : OtlpSpan} {list : List ArtifactInput}
    (h : artifactsOf span = some list) :
    list ≠ [] ∧ ∀ a ∈ list, ∃ event ∈ span.events, artifactOf event = some a := by
  have hlist : list = span.events.filterMap artifactOf ∧ list ≠ [] := by
    rw [artifactsOf] at h
    split at h
    · cases h
    · rename_i hne
      obtain rfl := Option.some.inj h
      exact ⟨rfl, hne⟩
  refine ⟨hlist.2, fun a ha => ?_⟩
  rw [hlist.1] at ha
  exact List.mem_filterMap.mp ha

/-- **Every document an action names fits.** -/
theorem artifactsOf_fit {span : OtlpSpan} {list : List ArtifactInput} (h : artifactsOf span = some list) :
    list ≠ [] ∧ ∀ a ∈ list, a.Fits := by
  refine ⟨(artifactsOf_eq_some h).1, fun a ha => ?_⟩
  obtain ⟨event, -, hevent⟩ := (artifactsOf_eq_some h).2 a ha
  obtain ⟨role, label, mediaType, sha256, canon, hlabel, hmedia, hsha, hcanon, rfl⟩ :=
    artifactOf_eq_some hevent
  exact ⟨textFits_of_text (by decide) hlabel, textFits_of_text (by decide) hmedia, hsha, hcanon⟩

/-- **The model an action names fits.** -/
theorem modelOf_fits {attributes : AttributeMap} {m : ModelInput} (h : modelOf attributes = some m) :
    m.Fits := by
  obtain ⟨name, hname, rfl⟩ := Option.map_eq_some_iff.mp h
  refine ⟨textFits_of_text (by decide) hname, fun t ht => ?_, fun t ht => ?_⟩
  · obtain ⟨s, hs, rfl⟩ := Option.map_eq_some_iff.mp ht
    exact textFits_of_text (by decide) hs
  · obtain ⟨s, hs, rfl⟩ := Option.map_eq_some_iff.mp ht
    exact textFits_of_text (by decide) hs

theorem buildActor_fits (span : OtlpSpan) {agent : Option JsString} (hagent : ∀ s, agent = some s → s ≠ []) :
    TextFits MAX_NAME (buildActor span agent).agent := by
  refine (textFits_cap (by decide)).mpr ?_
  cases agent with
  | some s => exact hagent s rfl
  | none =>
      cases hservice : text span.resource [js "service.name"] with
      | some s =>
          rw [Option.none_or, Option.getD_some]
          exact ne_nil_of_text hservice
      | none =>
          rw [Option.none_or, Option.getD_none]
          decide

-- ── Payloads ─────────────────────────────────────────────────────────────────────

/-- A payload is nothing, a digest, a salted digest with a nonce that is one, or a value. -/
inductive Payload.Shape : Payload → Prop where
  | nothing : Payload.Shape ⟨none, none, none⟩
  | plain (hash : JsString) : IsHex 64 hash → Payload.Shape ⟨some hash, none, none⟩
  | salted (hash nonce : JsString) : IsHex 64 hash → IsHex 64 nonce ∨ nonce = NONCE_KEPT_BY_CUSTOMER →
      Payload.Shape ⟨some hash, some nonce, none⟩
  | raw (value : JsString) : Payload.Shape ⟨none, none, some value⟩

theorem payloadOf_shape (attributes : AttributeMap) (role : ArtifactRole) (names : List JsString) :
    (payloadOf attributes role names).Shape := by
  rw [payloadOf]
  cases hpre : (text attributes [sha256Name role]).filter fun s => decide (IsHex 64 s) with
  | some hash =>
      have hhash : IsHex 64 hash := by simpa using (Option.filter_eq_some_iff.mp hpre).2
      cases text attributes [nonceName role] with
      | none => exact .plain hash hhash
      | some nonce =>
          by_cases hnonce : IsHex 64 nonce ∨ nonce = NONCE_KEPT_BY_CUSTOMER
          · simp only [if_pos hnonce]
            exact .salted hash nonce hhash hnonce
          · simp only [if_neg hnonce]
            exact .nothing
  | none =>
      cases text attributes names with
      | none => exact .nothing
      | some value => exact .raw value

/-- The bytes of a digest and of its scheme in a receipt. -/
def Payload.bytes (p : Payload) : ℕ :=
  if p.raw.isSome ∨ p.nonce.isSome then 74 else if p.hash.isSome then 73 else 8

theorem PreparedDigest.bytes_some {hash : JsString} (h : IsHex 64 hash) (scheme : HashScheme)
    (nonce : Option JsString) :
    PreparedDigest.bytes ⟨some hash, some scheme, nonce⟩ = 66 + (scheme.name.length + 2) := by
  have hscheme : PlainText scheme.name := by cases scheme <;> decide
  change JsonText.quotedSize hash + JsonText.quotedSize scheme.name = _
  rw [IsHex.quotedSize h, quotedSize_plain hscheme]

/-- **A payload always becomes a digest that fits**, under whatever nonce is drawn. -/
theorem digestFor_payload (c : Crypto) {p : Payload} (h : p.Shape) (role : ArtifactRole) (random : Nonce) :
    ∃ d, digestFor c role p.hash (p.raw.map .str) p.nonce random = .ok d ∧ d.Fits ∧ d.bytes = p.bytes := by
  cases h with
  | nothing =>
      exact ⟨⟨none, none, none⟩, rfl, ⟨by simp, rfl⟩, rfl⟩
  | plain hash hhash =>
      refine ⟨⟨some hash, some .plain, none⟩, rfl, ⟨fun h hh => ?_, rfl⟩, ?_⟩
      · obtain rfl := Option.some.inj hh
        exact hhash
      · exact PreparedDigest.bytes_some hhash .plain none
  | salted hash nonce hhash hnonce =>
      refine ⟨⟨some hash, some .salted, if nonce = NONCE_KEPT_BY_CUSTOMER then none else some nonce⟩, ?_,
        ⟨fun h hh => ?_, rfl⟩, ?_⟩
      · simp only [digestFor, Option.map_none, Option.isSome_none, Bool.false_eq_true, false_and, if_false,
          reduceCtorEq, false_or, if_neg (not_not.mpr hnonce)]
      · obtain rfl := Option.some.inj hh
        exact hhash
      · exact PreparedDigest.bytes_some hhash .salted _
  | raw value =>
      have hfinite : canonicalBytesOf (.str value) = .ok (canonicalBytes (.str value)) := rfl
      refine ⟨⟨some (c.sha256Hex (random.1 ++ canonicalBytes (.str value))).1, some .salted,
        some (toHex random.1)⟩, ?_, ⟨fun h hh => ?_, rfl⟩, ?_⟩
      · simp only [digestFor, Option.map_some, saltedDigest, hfinite]
        rfl
      · obtain rfl := Option.some.inj hh
        exact (c.sha256Hex _).2
      · exact PreparedDigest.bytes_some (c.sha256Hex _).2 .salted _

end Sigillo
