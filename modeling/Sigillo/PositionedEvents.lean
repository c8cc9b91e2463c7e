import Sigillo.ReceiptSize

/-!
# An event at its position

What is refused of an event depends on its position in one thing alone. The persons known, the random
bytes drawn, the receipt before it and the time it was received at change neither whether its members
fit nor whether its texts are well-formed, and its size only by the digits of its position: a checked
event is built at a position exactly where those digits leave room (**`buildUnsigned_at`**). -/

namespace Sigillo

open DoubleArith Utf16Text JsonText JsonParse JsonSchema HexBase64 IsoTime EcmaText Fallible

-- ── Whatever is drawn ────────────────────────────────────────────────────────────

/-- Two digests of one action: the same, or two that were salted here. -/
def PreparedDigest.Alike (d e : PreparedDigest) : Prop :=
  d.scheme = e.scheme ∧ (d.hash = e.hash ∨ ∃ g h : Hex 64, d.hash = some g.1 ∧ e.hash = some h.1)

/-- Two that an event becomes: for the same agent, and for somebody or nobody. -/
structure Prepared.Alike (p q : Prepared) : Prop where
  agent : p.actor.agent = q.actor.agent
  person : p.actor.onBehalfOf.isSome = q.actor.onBehalfOf.isSome
  token : ∀ t, q.actor.onBehalfOf = some t → isPseudonym t
  input : p.input.Alike q.input
  output : p.output.Alike q.output

variable {c : Crypto} {u : Unicode}

theorem digestFor_again {role : ArtifactRole} {clientHash : Option JsString} {raw : Option Json}
    {clientNonce : Option JsString} {random : Nonce} {d : PreparedDigest}
    (h : digestFor c role clientHash raw clientNonce random = .ok d) (again : Nonce) :
    ∃ e, digestFor c role clientHash raw clientNonce again = .ok e ∧ d.Alike e := by
  unfold digestFor at h ⊢
  by_cases hboth : raw.isSome ∧ clientHash.isSome
  · rw [if_pos hboth] at h
    cases h
  · rw [if_neg hboth] at h ⊢
    cases clientNonce with
    | some nonce => exact ⟨d, h, rfl, .inl rfl⟩
    | none =>
        cases raw with
        | none => exact ⟨d, h, rfl, .inl rfl⟩
        | some value =>
            obtain ⟨g, hg, rfl⟩ := map_eq_ok.mp h
            obtain ⟨bytes, hbytes, -⟩ := map_eq_ok.mp hg
            refine ⟨_, map_eq_ok.mpr ⟨_, map_eq_ok.mpr ⟨bytes, hbytes, rfl⟩, rfl⟩, rfl, .inr ⟨g, _, rfl, rfl⟩⟩

/-- A person is there under one token or another, or not there. -/
theorem pseudonymous_again {subjects : List SubjectRow} {actor : ActorInput} {ts : Timestamp}
    {random : PseudonymRandom} {prepared : ActorInput} {subject : Option SubjectRow}
    (h : pseudonymous u subjects actor ts random = .ok (prepared, subject)) (others : List SubjectRow)
    (again : PseudonymRandom) :
    ∃ second row, pseudonymous u others actor ts again = .ok (second, row) ∧
      prepared.onBehalfOf.isSome = second.onBehalfOf.isSome ∧
      ∀ t, second.onBehalfOf = some t → isPseudonym t := by
  rw [pseudonymous] at h
  rw [pseudonymous]
  cases hnamed : actor.onBehalfOf with
  | none =>
      rw [hnamed] at h
      rw [← (Prod.mk.inj (Except.ok.inj h)).1]
      exact ⟨actor, none, rfl, rfl, fun t ht => by rw [hnamed] at ht; cases ht⟩
  | some named =>
      rw [hnamed] at h
      by_cases htoken : isPseudonym named
      · simp only [if_pos htoken] at h ⊢
        rw [← (Prod.mk.inj (Except.ok.inj h)).1]
        refine ⟨actor, none, rfl, rfl, fun t ht => ?_⟩
        rw [hnamed] at ht
        exact Option.some.inj ht ▸ htoken
      · simp only [if_neg htoken] at h ⊢
        cases hnormal : normaliseSubjectIdentifier u named with
        | error e => simp [hnormal] at h
        | ok identifier =>
            simp only [hnormal] at h
            have hsome : prepared.onBehalfOf.isSome = true := by
              cases hfind : subjects.find? fun row => row.identifier == identifier with
              | some known =>
                  rw [hfind] at h
                  rw [← (Prod.mk.inj (Except.ok.inj h)).1]
                  rfl
              | none =>
                  rw [hfind] at h
                  rw [← (Prod.mk.inj (Except.ok.inj h)).1]
                  rfl
            rw [hsome]
            cases hfind : others.find? fun row => row.identifier == identifier with
            | some known =>
                refine ⟨⟨actor.agent, some known.token.1⟩, none, by dsimp only; rw [hfind], rfl, fun t ht => ?_⟩
                exact Option.some.inj ht ▸ known.token.2
            | none =>
                refine ⟨⟨actor.agent, some (pseudonymFromRandom again).1⟩, _, by dsimp only; rw [hfind], rfl, fun t ht => ?_⟩
                exact Option.some.inj ht ▸ (pseudonymFromRandom again).2

/-- **What an event becomes with other persons known and other bytes drawn.** -/
theorem prepare_again {subjects : List SubjectRow} {event : ChainEvent} {random : Randomness} {p : Prepared}
    (h : prepare c u subjects event random = .ok p) (others : List SubjectRow) (again : Randomness) :
    ∃ q, prepare c u others event again = .ok q ∧ p.Alike q := by
  obtain ⟨hactor, hinput, houtput⟩ := prepare_eq_ok.mp h
  obtain ⟨actor, row, hactor', hperson, htoken⟩ := pseudonymous_again hactor others again.subject
  obtain ⟨input, hinput', hin⟩ := digestFor_again hinput again.input
  obtain ⟨output, houtput', hout⟩ := digestFor_again houtput again.output
  refine ⟨⟨actor, row, input, output⟩, prepare_eq_ok.mpr ⟨hactor', hinput', houtput'⟩, ?_, hperson, htoken, hin, hout⟩
  rw [pseudonymous_agent hactor, pseudonymous_agent hactor']

-- ── What does not change ─────────────────────────────────────────────────────────

theorem PreparedDigest.Alike.fits {d e : PreparedDigest} (h : d.Alike e) (hd : d.Fits) : e.Fits := by
  obtain ⟨hscheme, hsame | ⟨g, k, hg, hk⟩⟩ := h
  · exact ⟨hsame ▸ hd.1, by rw [← hsame, ← hscheme]; exact hd.2⟩
  · refine ⟨fun t ht => ?_, ?_⟩
    · rw [hk] at ht
      exact Option.some.inj ht ▸ k.2
    · have hnone := hd.2
      rw [hg] at hnone
      rw [hk, ← hscheme]
      exact hnone

theorem Prepared.Alike.fits {event : ChainEvent} {p q : Prepared} (h : p.Alike q) (hp : Fits event p) :
    Fits event q where
  tsEvent := hp.tsEvent
  actor := ⟨h.agent ▸ hp.actor.1, h.token⟩
  name := hp.name
  input := h.input.fits hp.input
  output := h.output.fits hp.output
  source := hp.source
  artifacts := hp.artifacts
  model := hp.model

/-- The texts of an event are what is well-formed or not in what it becomes. -/
theorem Prepared.Alike.wellFormed {event : ChainEvent} {tip other : Option TipRow} {keyId : Hex 16} {p q : Prepared}
    (h : p.Alike q) (hp : Fits event p) (htexts : WellFormed (unsignedJson event tip keyId p)) :
    WellFormed (unsignedJson event other keyId q) := by
  have hmember := forall_texts_obj.mp htexts
  have hactor : WellFormed p.actor.toJson := hmember (js "actor", p.actor.toJson) (by simp)
  have hagent : isWellFormed p.actor.agent = true :=
    forall_texts_str.mp (forall_texts_obj.mp hactor (js "agent", .str p.actor.agent) (by simp))
  have haction : WellFormed event.action.toJson := hmember (js "action", event.action.toJson) (by simp)
  have hname : isWellFormed event.action.name = true :=
    forall_texts_str.mp (forall_texts_obj.mp haction (js "name", .str event.action.name) (by simp))
  have hsystem : isWellFormed event.systemId.1 = true :=
    forall_texts_str.mp (hmember (js "system_id", .str event.systemId.1) (by simp))
  refine (wellFormed_unsignedJson (h.fits hp) (h.agent ▸ hagent) hname (fun list hlist a ha => ?_)
    fun m hm => ?_).mpr hsystem
  · have hlist : WellFormed (.arr (list.map ArtifactInput.toJson)) :=
      hmember (js "artifacts", .arr (list.map ArtifactInput.toJson)) (by simp [optional, hlist])
    exact forall_texts_arr.mp hlist _ (List.mem_map_of_mem ha)
  · exact hmember (js "model", m.toJson) (by simp [optional, hm])

/-- **A checked event is built at a position exactly where its digits leave room.** -/
theorem buildUnsigned_at {seen subjects : List SubjectRow} {event : ChainEvent} {checked random : Randomness}
    {keyId : Hex 16} (hchecked : checkEvent c u seen keyId event checked = .ok ()) {tip : TipRow}
    (hseq : ∃ n : Count, JsNumber.ofNat (seqAfter (some tip)) = .fin n.1 n.2.1) {q : Prepared}
    (hq : prepare c u subjects event random = .ok q) :
    (∃ r, buildUnsigned event (some tip) keyId q = .ok r) ↔
      jsonSize (unsignedJson event (some tip) keyId q) ≤ MAX_RECEIPT_BYTES := by
  obtain ⟨p, hp, hrest⟩ := bind_eq_ok.mp hchecked
  obtain ⟨r, hr, -⟩ := bind_eq_ok.mp hrest
  obtain ⟨-, hfits, htexts, -⟩ := buildUnsigned_isOk.mp ⟨r, hr⟩
  obtain ⟨q', hq', halike⟩ := prepare_again hp subjects random
  rw [hq] at hq'
  obtain rfl := Except.ok.inj hq'
  have hwell : WellFormed (unsignedJson event (some tip) keyId q) := halike.wellFormed hfits htexts
  rw [buildUnsigned_isOk]
  exact ⟨fun h => h.2.2.2, fun h => ⟨hseq, halike.fits hfits, hwell, h⟩⟩

/-- An event that is checked becomes something, whoever is known and whatever is drawn. -/
theorem prepare_of_checked {seen : List SubjectRow} {event : ChainEvent} {checked : Randomness}
    {keyId : Hex 16} (hchecked : checkEvent c u seen keyId event checked = .ok ()) (subjects : List SubjectRow)
    (random : Randomness) : ∃ q, prepare c u subjects event random = .ok q := by
  obtain ⟨p, hp, -⟩ := bind_eq_ok.mp hchecked
  obtain ⟨q, hq, -⟩ := prepare_again hp subjects random
  exact ⟨q, hq⟩

end Sigillo
