import Sigillo.CheckedEvents

/-!
# The size of a receipt

The bytes of a receipt's canonical form, as a sum over its event (**`jsonSize_unsignedJson`**): all
but the texts and the documents takes a fixed number. Identifiers, digests and times are plain text,
one byte to a character, so only free text can hold anything that is not well-formed
(**`wellFormed_unsignedJson`**). -/

namespace Sigillo

open DoubleArith Utf16Text JsonText JsonParse JsonSchema HexBase64 IsoTime EcmaText

-- ── Plain text ───────────────────────────────────────────────────────────────────

theorem IsHex.plainText {n : ℕ} {s : JsString} (h : IsHex n s) : PlainText s := by
  intro u hu
  have hdigit : 0x30 ≤ u.toNat ∧ u.toNat ≤ 0x39 ∨ 0x61 ≤ u.toNat ∧ u.toNat ≤ 0x66 := by
    simpa [isHexDigit] using h.2 u hu
  rw [isPlainUnit_iff]
  omega

theorem IsHex.quotedSize {n : ℕ} {s : JsString} (h : IsHex n s) : quotedSize s = n + 2 := by
  rw [quotedSize_plain (IsHex.plainText h), h.1]

theorem isPseudonym.plainText {s : JsString} (h : isPseudonym s) : PlainText s := by
  intro u hu
  rw [← List.take_append_drop 4 s, List.mem_append] at hu
  rcases hu with hu | hu
  · rw [h.1] at hu
    exact (show PlainText (js "psn_") by decide) u hu
  · exact IsHex.plainText h.2 u hu

theorem isPseudonym.length {s : JsString} (h : isPseudonym s) : s.length = 36 := by
  have htake : (s.take 4).length = 4 := by rw [h.1]; rfl
  have hdrop := h.2.1
  rw [List.length_take] at htake
  rw [List.length_drop] at hdrop
  omega

theorem Timestamp.length (t : Timestamp) : t.1.length = 24 := by
  have h := t.2.1
  rw [hasShape, Bool.and_eq_true, beq_iff_eq] at h
  exact h.1

theorem Timestamp.plainText (t : Timestamp) : PlainText t.1 := by
  intro u hu
  obtain ⟨i, hi, rfl⟩ := List.getElem_of_mem hu
  have hlen := Timestamp.length t
  have hshape := t.2.1
  rw [hasShape, Bool.and_eq_true] at hshape
  have hplace := List.all_eq_true.mp hshape.2 i (List.mem_range.mpr (by omega))
  rw [List.getElem?_eq_getElem hi] at hplace
  cases hsep : separators.lookup i with
  | none =>
      rw [hsep] at hplace
      have hdigit : 0x30 ≤ (t.1[i]).toNat ∧ (t.1[i]).toNat ≤ 0x39 := by
        simpa [isDigit] using hplace
      rw [isPlainUnit_iff]
      omega
  | some sep =>
      rw [hsep] at hplace
      have heq : t.1[i] = sep := by simpa using hplace
      have hall : ∀ e ∈ separators, isPlainUnit e.2 = true := by decide
      rw [heq]
      exact hall (i, sep) ((AssocList.lookup_eq_some_iff_mem (by decide)).mp hsep)

theorem ActionKind.plainText (k : ActionKind) : PlainText k.name := by cases k <;> decide

theorem Outcome.plainText (o : Outcome) : PlainText o.name := by cases o <;> decide

theorem HashScheme.plainText (s : HashScheme) : PlainText s.name := by cases s <;> decide

theorem SourceType.plainText (s : SourceType) : PlainText s.name := by cases s <;> decide

theorem ArtifactRole.plainText (r : ArtifactRole) : PlainText r.name := by cases r <;> decide

-- ── Size ─────────────────────────────────────────────────────────────────────────

/-- The bytes of a digest and of its scheme. -/
def PreparedDigest.bytes (d : PreparedDigest) : ℕ :=
  jsonSize (nullableJson d.hash) + jsonSize (nullableJson (d.scheme.map HashScheme.name))

/-- The bytes of a member that may be left out. -/
def optionalBytes (key : JsString) (v : Option Json) : ℕ :=
  match v with
  | none => 0
  | some v => 2 + quotedSize key + jsonSize v

theorem membersSize_optional (key : JsString) (v : Option Json) :
    membersSize (optional key v) = optionalBytes key v := by
  cases v with
  | none => rfl
  | some v => rfl

/-- The bytes of the members' names and signs, of the version, the position, the times, the hash
    before and the key. -/
def baseBytes : ℕ := 328

/-- The names of the members a receipt always has. -/
theorem requiredKeys_size : ([js "v", js "system_id", js "seq", js "ts_event", js "ts_received",
    js "actor", js "action", js "input_hash", js "input_hash_scheme", js "output_hash",
    js "output_hash_scheme", js "outcome", js "source", js "prev_hash", js "key_id"].map quotedSize)
      = [3, 11, 5, 10, 13, 7, 8, 12, 19, 13, 20, 9, 8, 11, 8] := by
  decide

/-- A number of one digit. -/
theorem jsonSize_digit : ∀ m ≤ 9, jsonSize (.num (.ofNat m)) = 1 := by
  decide +kernel

/-- **The bytes of a receipt**, by the members of its event and the digits of its position. -/
theorem jsonSize_unsignedJson_at {event : ChainEvent} (tip : TipRow) (keyId : Hex 16) {p : Prepared}
    (htsEvent : IsTimestamp event.tsEvent) :
    jsonSize (unsignedJson event (some tip) keyId p) + 1
      = baseBytes + quotedSize event.systemId.1 + jsonSize p.actor.toJson
        + jsonSize event.action.toJson + p.input.bytes + p.output.bytes + event.outcome.name.length
        + jsonSize event.source.toJson
        + optionalBytes (js "artifacts") (event.artifacts.map fun list => .arr (list.map ArtifactInput.toJson))
        + optionalBytes (js "model") (event.model.map ModelInput.toJson)
        + jsonSize (.num (.ofNat (tip.seq.1 + 1))) := by
  have htsEvent := quotedSize_plain (Timestamp.plainText ⟨event.tsEvent, htsEvent⟩)
  have htsReceived := quotedSize_plain (Timestamp.plainText (tsReceivedAfter event (some tip)))
  rw [Timestamp.length] at htsEvent htsReceived
  have hv := jsonSize_digit 4 (by decide)
  have hprev : quotedSize tip.hash.1 = 66 := IsHex.quotedSize tip.hash.2
  have hkey : quotedSize keyId.1 = 18 := IsHex.quotedSize keyId.2
  have houtcome := quotedSize_plain (Outcome.plainText event.outcome)
  have hkeys := requiredKeys_size
  simp only [List.map_cons, List.map_nil, List.cons.injEq, and_true] at hkeys
  obtain ⟨k1, k2, k3, k4, k5, k6, k7, k8, k9, k10, k11, k12, k13, k14, k15⟩ := hkeys
  rw [unsignedJson, jsonSize_obj (by simp), membersSize_append, membersSize_append,
    membersSize_optional, membersSize_optional]
  simp only [membersSize, k1, k2, k3, k4, k5, k6, k7, k8, k9, k10, k11, k12, k13, k14, k15]
  simp only [hv]
  rw [show jsonSize (.str event.tsEvent) = 26 from htsEvent,
    show jsonSize (.str event.outcome.name) = event.outcome.name.length + 2 from houtcome,
    show jsonSize (.str tip.hash.1) = 66 from hprev,
    show jsonSize (.str keyId.1) = 18 from hkey,
    show jsonSize (.str (tsReceivedAfter event (some tip)).1) = 26 from htsReceived]
  simp only [PreparedDigest.bytes, baseBytes, show jsonSize (.str event.systemId.1)
    = quotedSize event.systemId.1 from rfl]
  omega

/-- The bytes of a receipt at the position that stands in for its own. -/
theorem jsonSize_unsignedJson {event : ChainEvent} (keyId : Hex 16) {p : Prepared}
    (htsEvent : IsTimestamp event.tsEvent) :
    jsonSize (unsignedJson event (some (standInTip event)) keyId p)
      = baseBytes + quotedSize event.systemId.1 + jsonSize p.actor.toJson
        + jsonSize event.action.toJson + p.input.bytes + p.output.bytes + event.outcome.name.length
        + jsonSize event.source.toJson
        + optionalBytes (js "artifacts") (event.artifacts.map fun list => .arr (list.map ArtifactInput.toJson))
        + optionalBytes (js "model") (event.model.map ModelInput.toJson) := by
  have hseq : jsonSize (.num (.ofNat ((standInTip event).seq.1 + 1))) = 1 :=
    jsonSize_digit 1 (by decide)
  have hat : jsonSize (unsignedJson event (some (standInTip event)) keyId p) + 1 = _ :=
    jsonSize_unsignedJson_at (standInTip event) keyId htsEvent
  rw [hseq] at hat
  exact Nat.succ_injective hat

/-- The bytes of an actor, for whom or for nobody. -/
theorem jsonSize_actor {a : ActorInput} (h : ∀ t, a.onBehalfOf = some t → isPseudonym t) :
    jsonSize a.toJson = 10 + quotedSize a.agent + if a.onBehalfOf.isSome then 54 else 0 := by
  have hagent : quotedSize (js "agent") = 7 := by decide
  have hkey : quotedSize (js "on_behalf_of") = 14 := by decide
  rw [ActorInput.toJson, jsonSize_obj (by simp)]
  cases hperson : a.onBehalfOf with
  | none =>
      simp only [Option.map_none, optional, Option.toList_none, membersSize, jsonSize, hagent]
      simp
      omega
  | some t =>
      have ht := quotedSize_plain (isPseudonym.plainText (h t hperson))
      rw [isPseudonym.length (h t hperson)] at ht
      simp only [Option.map_some, optional, Option.toList_some, membersSize, jsonSize, hagent, hkey, ht]
      simp
      omega

-- ── Well-formed text ─────────────────────────────────────────────────────────────

theorem forall_texts_optional {key : JsString} {v : Option Json} {P : JsString → Prop} :
    (∀ m ∈ optional key v, ∀ s ∈ texts m.2, P s) ↔ ∀ w, v = some w → ∀ s ∈ texts w, P s := by
  cases v with
  | none => simp [optional]
  | some w => simp [optional]

theorem forall_texts_nullableJson {s : Option JsString} {P : JsString → Prop} :
    (∀ t ∈ texts (nullableJson s), P t) ↔ ∀ t, s = some t → P t := by
  cases s with
  | none => simp [nullableJson, texts]
  | some s => simp [nullableJson, texts]

theorem forall_texts_str {s : JsString} {P : JsString → Prop} : (∀ t ∈ texts (.str s), P t) ↔ P s := by
  rw [texts, List.forall_mem_singleton]

/-- Every text of a part an event holds is well-formed. -/
def WellFormed (v : Json) : Prop := ∀ s ∈ texts v, isWellFormed s = true

theorem wellFormed_digest {d : PreparedDigest} (h : d.Fits) :
    WellFormed (nullableJson d.hash) ∧ WellFormed (nullableJson (d.scheme.map HashScheme.name)) := by
  constructor
  · exact forall_texts_nullableJson.mpr fun t ht => (IsHex.plainText (h.1 t ht)).isWellFormed
  · refine forall_texts_nullableJson.mpr fun t ht => ?_
    obtain ⟨s, -, rfl⟩ := Option.map_eq_some_iff.mp ht
    exact (HashScheme.plainText s).isWellFormed

theorem wellFormed_source {s : SourceInput} (h : s.Fits) : WellFormed s.toJson := by
  refine forall_texts_obj.mpr fun m hm => ?_
  rw [List.mem_cons, List.mem_append] at hm
  rcases hm with rfl | hm | hm
  · exact forall_texts_str.mpr (SourceType.plainText s.type).isWellFormed
  · refine forall_texts_optional.mpr (fun w hw => ?_) m hm
    obtain ⟨t, ht, rfl⟩ := Option.map_eq_some_iff.mp hw
    exact forall_texts_str.mpr (IsHex.plainText (h.1 t ht)).isWellFormed
  · refine forall_texts_optional.mpr (fun w hw => ?_) m hm
    obtain ⟨t, ht, rfl⟩ := Option.map_eq_some_iff.mp hw
    exact forall_texts_str.mpr (IsHex.plainText (h.2 t ht)).isWellFormed

theorem wellFormed_actor {a : ActorInput} (hagent : isWellFormed a.agent = true) (h : a.Fits) :
    WellFormed a.toJson := by
  refine forall_texts_obj.mpr fun m hm => ?_
  rcases List.mem_cons.mp hm with rfl | hm
  · exact forall_texts_str.mpr hagent
  · refine forall_texts_optional.mpr (fun w hw => ?_) m hm
    obtain ⟨t, ht, rfl⟩ := Option.map_eq_some_iff.mp hw
    exact forall_texts_str.mpr (isPseudonym.plainText (h.2 t ht)).isWellFormed

theorem wellFormed_artifact {a : ArtifactInput} (hlabel : isWellFormed a.label = true)
    (hmedia : isWellFormed a.mediaType = true) (h : a.Fits) : WellFormed a.toJson := by
  refine forall_texts_obj.mpr fun m hm => ?_
  simp only [List.cons_append, List.nil_append, List.mem_cons] at hm
  rcases hm with rfl | rfl | rfl | rfl | hm
  · exact forall_texts_str.mpr (ArtifactRole.plainText a.role).isWellFormed
  · exact forall_texts_str.mpr hlabel
  · exact forall_texts_str.mpr hmedia
  · exact forall_texts_str.mpr (IsHex.plainText h.2.2.1).isWellFormed
  · refine forall_texts_optional.mpr (fun w hw => ?_) m hm
    obtain ⟨t, ht, rfl⟩ := Option.map_eq_some_iff.mp hw
    refine forall_texts_obj.mpr fun m hm => ?_
    simp only [List.mem_cons, List.not_mem_nil, or_false] at hm
    rcases hm with rfl | rfl
    · exact forall_texts_str.mpr (isWellFormed_js _)
    · exact forall_texts_str.mpr (IsHex.plainText (h.2.2.2 t ht)).isWellFormed

theorem wellFormed_model {m : ModelInput} (hname : isWellFormed m.name = true)
    (hprovider : ∀ s, m.provider = some s → isWellFormed s = true)
    (hdigest : ∀ s, m.digest = some s → isWellFormed s = true) : WellFormed m.toJson := by
  refine forall_texts_obj.mpr fun e he => ?_
  simp only [List.mem_cons, List.not_mem_nil, or_false] at he
  rcases he with rfl | rfl | rfl
  · exact forall_texts_str.mpr hname
  · exact forall_texts_nullableJson.mpr hprovider
  · exact forall_texts_nullableJson.mpr hdigest

/-- **Only free text can be malformed**: with that of the event well-formed, all depends on the
    system's own identifier. -/
theorem wellFormed_unsignedJson {event : ChainEvent} {tip : Option TipRow} {keyId : Hex 16} {p : Prepared}
    (hfits : Fits event p) (hagent : isWellFormed p.actor.agent = true)
    (hname : isWellFormed event.action.name = true)
    (hartifacts : ∀ list, event.artifacts = some list → ∀ a ∈ list, WellFormed a.toJson)
    (hmodel : ∀ m, event.model = some m → WellFormed m.toJson) :
    WellFormed (unsignedJson event tip keyId p) ↔ isWellFormed event.systemId.1 = true := by
  have hhex : ∀ {n : ℕ} (h : Hex n), WellFormed (.str h.1) := fun h =>
    forall_texts_str.mpr (IsHex.plainText h.2).isWellFormed
  have hnum : ∀ x, WellFormed (.num x) := fun x s hs => by cases hs
  constructor
  · intro h
    exact forall_texts_str.mp (forall_texts_obj.mp h (js "system_id", .str event.systemId.1) (by simp))
  · intro hsystem
    refine forall_texts_obj.mpr fun m hm => ?_
    rw [List.mem_append, List.mem_append] at hm
    rcases hm with hm | hm | hm
    · simp only [List.mem_cons, List.not_mem_nil, or_false] at hm
      rcases hm with rfl | rfl | rfl | rfl | rfl | rfl | rfl | rfl | rfl | rfl | rfl | rfl | rfl | rfl | rfl
      · exact hnum _
      · exact forall_texts_str.mpr hsystem
      · exact hnum _
      · exact forall_texts_str.mpr (Timestamp.plainText ⟨_, hfits.tsEvent⟩).isWellFormed
      · exact forall_texts_str.mpr (Timestamp.plainText _).isWellFormed
      · exact wellFormed_actor hagent hfits.actor
      · refine forall_texts_obj.mpr fun m hm => ?_
        simp only [List.mem_cons, List.not_mem_nil, or_false] at hm
        rcases hm with rfl | rfl
        · exact forall_texts_str.mpr (ActionKind.plainText _).isWellFormed
        · exact forall_texts_str.mpr hname
      · exact (wellFormed_digest hfits.input).1
      · exact (wellFormed_digest hfits.input).2
      · exact (wellFormed_digest hfits.output).1
      · exact (wellFormed_digest hfits.output).2
      · exact forall_texts_str.mpr (Outcome.plainText _).isWellFormed
      · exact wellFormed_source hfits.source
      · exact hhex _
      · exact hhex _
    · refine forall_texts_optional.mpr (fun w hw => ?_) m hm
      obtain ⟨list, hlist, rfl⟩ := Option.map_eq_some_iff.mp hw
      refine forall_texts_arr.mpr fun v hv => ?_
      obtain ⟨a, ha, rfl⟩ := List.mem_map.mp hv
      exact hartifacts list hlist a ha
    · refine forall_texts_optional.mpr (fun w hw => ?_) m hm
      obtain ⟨model, hm', rfl⟩ := Option.map_eq_some_iff.mp hw
      exact hmodel model hm'

end Sigillo
