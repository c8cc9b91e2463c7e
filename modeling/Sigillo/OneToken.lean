import Sigillo.StoreTransactions
import Sigillo.StoredReceipts
import Sigillo.EventReceipts

/-!
# One person, one token

A receipt says whom an action was for by a token, and the subjects table alone says who that is.
The row is added in the transaction of the first receipt that names a person, and every later
receipt finds it: over any run, whatever the signer answers, two receipts carry one token exactly
when their events named one person (**`one_person_one_token`**). -/

namespace Sigillo

open DoubleArith Utf16Text JsonText JsonSchema HexBase64 IsoTime Fallible

/-- The person an event names, by an identifier that is not a token already. -/
def ChainEvent.person (event : ChainEvent) : Option JsString :=
  event.actor.onBehalfOf.filter fun named => !decide (isPseudonym named)

/-- Whom a receipt says its action was for. -/
def ReceiptDetail.onBehalfOf : ReceiptDetail → Option JsString
  | .v1 actor => actor.onBehalfOf.map (·.1)
  | .v2 actor _ _ => actor.onBehalfOf.map (·.1)
  | .v3 actor _ _ => actor.onBehalfOf.map (·.1)
  | .v4 actor _ _ _ _ => actor.onBehalfOf.map (·.1)

variable {c : Crypto} {u : Unicode} {key : WriterKey}

-- ── The token of an event ────────────────────────────────────────────────────────

/-- **A token is a known person's, or comes with a row of its own.** -/
structure Names (u : Unicode) (subjects : List SubjectRow) (identifier : JsString) (token : Option JsString)
    (subject : Option SubjectRow) : Prop where
  row : ∃ row ∈ subjects ++ subject.toList, row.identifier = identifier ∧ token = some row.token.1
  added : ∀ row ∈ subject, row.identifier = identifier ∧ token = some row.token.1

theorem pseudonymous_person {subjects : List SubjectRow} {actor : ActorInput} {ts : Timestamp}
    {random : PseudonymRandom} {prepared : ActorInput} {subject : Option SubjectRow}
    (h : pseudonymous u subjects actor ts random = .ok (prepared, subject)) {named : JsString}
    (hnamed : actor.onBehalfOf = some named) (hperson : ¬ isPseudonym named) :
    ∃ identifier, normaliseSubjectIdentifier u named = .ok identifier ∧
      Names u subjects identifier prepared.onBehalfOf subject := by
  rw [pseudonymous, hnamed] at h
  simp only [if_neg hperson] at h
  cases hnormal : normaliseSubjectIdentifier u named with
  | error e => simp [hnormal] at h
  | ok identifier =>
      simp only [hnormal] at h
      refine ⟨identifier, rfl, ?_⟩
      cases hfind : subjects.find? fun row => row.identifier == identifier with
      | some known =>
          rw [hfind] at h
          obtain ⟨rfl, rfl⟩ := Prod.mk.inj (Except.ok.inj h)
          have hidentifier := List.find?_some hfind
          rw [beq_iff_eq] at hidentifier
          exact ⟨⟨known, by simpa using List.mem_of_find?_eq_some hfind, hidentifier, rfl⟩, by simp⟩
      | none =>
          rw [hfind] at h
          obtain ⟨rfl, rfl⟩ := Prod.mk.inj (Except.ok.inj h)
          exact ⟨⟨⟨pseudonymFromRandom random, identifier, ts⟩, by simp, rfl, rfl⟩, by simp⟩

/-- An event that names nobody, or a token, adds no row. -/
theorem pseudonymous_nobody {subjects : List SubjectRow} {actor : ActorInput} {ts : Timestamp}
    {random : PseudonymRandom} {prepared : ActorInput} {subject : Option SubjectRow}
    (h : pseudonymous u subjects actor ts random = .ok (prepared, subject))
    (hnobody : ∀ named, actor.onBehalfOf = some named → isPseudonym named) : subject = none := by
  rw [pseudonymous] at h
  cases hnamed : actor.onBehalfOf with
  | none =>
      rw [hnamed] at h
      exact (Prod.mk.inj (Except.ok.inj h)).2.symm
  | some named =>
      rw [hnamed] at h
      simp only [if_pos (hnobody named hnamed)] at h
      exact (Prod.mk.inj (Except.ok.inj h)).2.symm

theorem Records.onBehalfOf {event : ChainEvent} {tip : Option TipRow} {keyId : Hex 16} {p : Prepared}
    {r : UnsignedReceipt} (h : Records event tip keyId p r) : r.detail.onBehalfOf = p.actor.onBehalfOf := by
  obtain ⟨actor, artifacts, model, hdetail, hactor, -⟩ := h.detail
  rw [hdetail, ReceiptDetail.onBehalfOf, ← hactor]
  rfl

theorem person_eq_some {event : ChainEvent} {named : JsString} : event.person = some named ↔
    event.actor.onBehalfOf = some named ∧ ¬ isPseudonym named := by
  rw [ChainEvent.person, Option.filter_eq_some_iff]
  simp

-- ── Over a run ───────────────────────────────────────────────────────────────────

/-- **The subjects table against the receipts written.** -/
structure OneToken (c : Crypto) (u : Unicode) (key : WriterKey) (s : Store) : Prop where
  tokens : ∀ a ∈ s.db.subjects, ∀ b ∈ s.db.subjects, a.token = b.token → a = b
  identifiers : ∀ a ∈ s.db.subjects, ∀ b ∈ s.db.subjects, a.identifier = b.identifier → a = b
  once : s.db.subjects.Nodup
  held : ∀ event p receipt named, .wrote event p receipt ∈ s.history → event.person = some named →
    ∃ row ∈ s.db.subjects, normaliseSubjectIdentifier u named = .ok row.identifier ∧
      receipt.detail.onBehalfOf = some row.token.1
  carried : ∀ row ∈ s.db.subjects, ∃ event p receipt, .wrote event p receipt ∈ s.history ∧
    verifyReceiptSignature c receipt key.verificationKey = true ∧
    receipt.detail.onBehalfOf = some row.token.1

theorem oneToken_fresh : OneToken c u key (.fresh key) where
  tokens := by simp [Store.fresh, Database.fresh]
  identifiers := by simp [Store.fresh, Database.fresh]
  once := by simp [Store.fresh, Database.fresh]
  held := by simp [Store.fresh]
  carried := by simp [Store.fresh, Database.fresh]

/-- A change that touches no subject and writes no receipt. -/
theorem OneToken.frame {s : Store} (h : OneToken c u key s) {db : Database}
    {divergences : List (SystemId × JsString)} {happened : List Happening}
    (hsubjects : db.subjects = s.db.subjects)
    (hnew : ∀ event p receipt, .wrote event p receipt ∉ happened) :
    OneToken c u key { db, divergences, history := s.history ++ happened } where
  tokens := hsubjects ▸ h.tokens
  identifiers := hsubjects ▸ h.identifiers
  once := hsubjects ▸ h.once
  held := by
    intro event p receipt named hmem hperson
    rcases List.mem_append.mp hmem with hmem | hmem
    · obtain ⟨row, hrow, hrest⟩ := h.held event p receipt named hmem hperson
      exact ⟨row, hsubjects ▸ hrow, hrest⟩
    · exact absurd hmem (hnew event p receipt)
  carried := by
    intro row hrow
    obtain ⟨event, p, receipt, hmem, hrest⟩ := h.carried row (hsubjects ▸ hrow)
    exact ⟨event, p, receipt, List.mem_append_left _ hmem, hrest⟩

/-- **A receipt that is written** finds its person's row, or adds it. -/
theorem OneToken.wrote {s : Store} (h : OneToken c u key s) {event : ChainEvent} {mode : WriteMode}
    {attempt : Attempt} {prepared : Prepared} {receipt : Receipt} {db : Database}
    (hwrites : Writes c u key s.db event mode attempt prepared receipt db) :
    OneToken c u key { s with db, history := s.history ++ [.wrote event prepared receipt] } := by
  have hsubjects : db.subjects = s.db.subjects ++ prepared.subject.toList := by rw [hwrites.db_eq]; rfl
  have hactor := (prepare_eq_ok.mp hwrites.prepared_eq).1
  have htoken := (records_of_buildUnsigned _ _ _ _ hwrites.built).onBehalfOf
  have hnew : ∀ row ∈ prepared.subject.toList, ∀ r ∈ s.db.subjects,
      r.token ≠ row.token ∧ r.identifier ≠ row.identifier :=
    fun row hrow => hwrites.newSubject row (Option.mem_toList.mp hrow)
  have honly : ∀ a ∈ prepared.subject.toList, ∀ b ∈ prepared.subject.toList, a = b := by
    intro a ha b hb
    exact Option.some.inj ((Option.mem_toList.mp ha).symm.trans (Option.mem_toList.mp hb))
  constructor
  case tokens =>
    rw [hsubjects]
    intro a ha b hb hab
    rcases List.mem_append.mp ha with ha | ha
    · rcases List.mem_append.mp hb with hb | hb
      · exact h.tokens a ha b hb hab
      · exact absurd hab (hnew b hb a ha).1
    · rcases List.mem_append.mp hb with hb | hb
      · exact absurd hab.symm (hnew a ha b hb).1
      · exact honly a ha b hb
  case identifiers =>
    rw [hsubjects]
    intro a ha b hb hab
    rcases List.mem_append.mp ha with ha | ha
    · rcases List.mem_append.mp hb with hb | hb
      · exact h.identifiers a ha b hb hab
      · exact absurd hab (hnew b hb a ha).2
    · rcases List.mem_append.mp hb with hb | hb
      · exact absurd hab.symm (hnew a ha b hb).2
      · exact honly a ha b hb
  case once =>
    rw [hsubjects, List.nodup_append]
    refine ⟨h.once, ?_, ?_⟩
    · cases prepared.subject with
      | none => exact List.nodup_nil
      | some row => exact List.nodup_singleton row
    · rintro a ha b hb rfl
      exact (hnew a hb a ha).1 rfl
  case held =>
    intro e p r named hmem hperson
    rcases List.mem_append.mp hmem with hmem | hmem
    · obtain ⟨row, hrow, hrest⟩ := h.held e p r named hmem hperson
      exact ⟨row, hsubjects ▸ List.mem_append_left _ hrow, hrest⟩
    · obtain ⟨rfl, rfl, rfl⟩ := Happening.wrote.inj (List.mem_singleton.mp hmem)
      obtain ⟨hnamed, hnot⟩ := person_eq_some.mp hperson
      obtain ⟨identifier, hnormal, hnames⟩ := pseudonymous_person hactor hnamed hnot
      obtain ⟨row, hrow, rfl, htok⟩ := hnames.row
      exact ⟨row, hsubjects ▸ hrow, hnormal, htoken.trans htok⟩
  case carried =>
    intro row hrow
    rw [hsubjects] at hrow
    rcases List.mem_append.mp hrow with hrow | hrow
    · obtain ⟨e, p, r, hmem, hrest⟩ := h.carried row hrow
      exact ⟨e, p, r, List.mem_append_left _ hmem, hrest⟩
    · have hsome := Option.mem_toList.mp hrow
      obtain ⟨named, hnamed, hnot⟩ : ∃ named, event.actor.onBehalfOf = some named ∧ ¬ isPseudonym named := by
        by_contra hnobody
        push Not at hnobody
        rw [pseudonymous_nobody hactor hnobody] at hsome
        cases hsome
      obtain ⟨identifier, -, hnames⟩ := pseudonymous_person hactor hnamed hnot
      exact ⟨event, prepared, receipt, by simp, hwrites.verified, htoken.trans (hnames.added row hsome).2⟩

/-- What erases a person, or everyone that no receipt names any more. -/
def Operation.erasesSubjects : Operation → Bool
  | .eraseSubject .. => true
  | .eraseOrganization .. => true
  | _ => false

theorem OneToken.commit {s s' : Store} {k : Kind} (h : OneToken c u key s) (hcommit : Commit c u key s k s')
    (hsubject : ∀ token, k ≠ .eraseSubject token) (horganization : ∀ o, k ≠ .eraseOrganization o) :
    OneToken c u key s' := by
  cases hcommit with
  | wrote writes _ => exact h.wrote writes
  | recovered _ _ restores => exact h.frame (by rw [restores.rest]) (by simp)
  | beside hbeside =>
      have hnone : ∀ event p receipt, Happening.wrote event p receipt ∉ [] := by simp
      simpa using h.frame hbeside.subjects hnone
  | deletedEmpty _ _ _ deletes _ => exact h.frame deletes.subjects (by simp)
  | erasedOperator _ _ deletes _ => exact h.frame deletes.subjects (by simp)
  | erasedOrganization => exact absurd rfl (horganization _)
  | erasedSubject => exact absurd rfl (hsubject _)
  | erasedOpenings _ subjects _ _ _ => exact h.frame subjects (by simp)

theorem oneToken_run {ops : List Operation} (hops : ∀ op ∈ ops, op.erasesSubjects = false) :
    OneToken c u key (run c u key (.fresh key) ops) := by
  refine run_keeps (fun s s' k hallowed hcommit h => ?_) oneToken_fresh
  obtain ⟨op, hop, hk⟩ := hallowed
  have hkeeps := hops op hop
  refine h.commit hcommit ?_ ?_
  · rintro token rfl
    cases op <;> simp [Operation.Allows, Operation.erasesSubjects] at hk hkeeps
  · rintro o rfl
    cases op <;> simp [Operation.Allows, Operation.erasesSubjects] at hk hkeeps

/-- **One person has one token**: of two receipts written for persons by name, the tokens are one
    exactly when the names have one normal form; each token stands in exactly one row, under that
    form; and every row's token is in a receipt that was signed. -/
theorem one_person_one_token (c : Crypto) (u : Unicode) (key : WriterKey) (ops : List Operation)
    (hops : ∀ op ∈ ops, op.erasesSubjects = false) :
    let s := run c u key (.fresh key) ops
    (∀ e₁ p₁ r₁ n₁ e₂ p₂ r₂ n₂, .wrote e₁ p₁ r₁ ∈ s.history → .wrote e₂ p₂ r₂ ∈ s.history →
      e₁.person = some n₁ → e₂.person = some n₂ →
      (r₁.detail.onBehalfOf = r₂.detail.onBehalfOf ↔
        normaliseSubjectIdentifier u n₁ = normaliseSubjectIdentifier u n₂)) ∧
    (∀ e p r n, .wrote e p r ∈ s.history → e.person = some n →
      ∃ row, s.db.subjects.filter (fun row => some row.token.1 == r.detail.onBehalfOf) = [row] ∧
        normaliseSubjectIdentifier u n = .ok row.identifier) ∧
    (∀ row ∈ s.db.subjects, ∃ e p r, .wrote e p r ∈ s.history ∧
      verifyReceiptSignature c r key.verificationKey = true ∧ r.detail.onBehalfOf = some row.token.1) := by
  intro s
  have h : OneToken c u key s := oneToken_run hops
  refine ⟨fun e₁ p₁ r₁ n₁ e₂ p₂ r₂ n₂ h₁ h₂ hn₁ hn₂ => ?_, fun e p r n hmem hn => ?_, h.carried⟩
  · obtain ⟨row₁, hrow₁, hnormal₁, htoken₁⟩ := h.held _ _ _ _ h₁ hn₁
    obtain ⟨row₂, hrow₂, hnormal₂, htoken₂⟩ := h.held _ _ _ _ h₂ hn₂
    rw [hnormal₁, hnormal₂, htoken₁, htoken₂, Option.some.injEq, Except.ok.injEq]
    constructor
    · intro htoken
      rw [h.tokens row₁ hrow₁ row₂ hrow₂ (Subtype.ext htoken)]
    · intro hidentifier
      rw [h.identifiers row₁ hrow₁ row₂ hrow₂ hidentifier]
  · obtain ⟨row, hrow, hnormal, htoken⟩ := h.held _ _ _ _ hmem hn
    refine ⟨row, ?_, hnormal⟩
    rw [htoken, List.filter_congr (q := (· == row)) fun a ha => ?_, List.filter_beq,
      List.count_eq_one_of_mem h.once hrow]
    · rfl
    by_cases ha' : a = row
    · rw [ha', beq_self_eq_true, beq_self_eq_true]
    · rw [beq_false_of_ne ha', beq_false_of_ne fun hsame => ha' (h.tokens a ha row hrow
        (Subtype.ext (Option.some.inj hsame)))]

/-- What is drawn for a second person. -/
def otherRandomness : Randomness :=
  ⟨⟨List.replicate 16 1, rfl⟩, ⟨List.replicate 32 0, length_zeros⟩, ⟨List.replicate 32 0, length_zeros⟩⟩

/-- The signer's answers where a second person's token is drawn. -/
def otherReplies : SignerReplies :=
  let attempt : Attempt := ⟨otherRandomness, .ok (base64Encode (List.replicate 64 0))⟩
  ⟨attempt, ⟨.ok none, none, fun _ => newYear⟩, attempt⟩

/-- A person named in two spellings, then one more with a token of her own: the chain gets four
    receipts, and the table two rows. -/
theorem one_person_one_token_twice :
    let ops : List Operation := [.createSystem toySystem newYear none toyReplies,
      .append [] (toyEvent (some (js "ada"))) toyRandomness toyReplies,
      .append [] (toyEvent (some (js " ada "))) otherRandomness otherReplies,
      .append [] (toyEvent (some (js "eve"))) otherRandomness otherReplies]
    let s := run positionCrypto ⟨id, id, id⟩ toyWriter (.fresh toyWriter) ops
    (∀ e₁ p₁ r₁ n₁ e₂ p₂ r₂ n₂, .wrote e₁ p₁ r₁ ∈ s.history → .wrote e₂ p₂ r₂ ∈ s.history →
      e₁.person = some n₁ → e₂.person = some n₂ →
      (r₁.detail.onBehalfOf = r₂.detail.onBehalfOf ↔
        normaliseSubjectIdentifier ⟨id, id, id⟩ n₁ = normaliseSubjectIdentifier ⟨id, id, id⟩ n₂)) ∧
    (∀ e p r n, .wrote e p r ∈ s.history → e.person = some n →
      ∃ row, s.db.subjects.filter (fun row => some row.token.1 == r.detail.onBehalfOf) = [row] ∧
        normaliseSubjectIdentifier ⟨id, id, id⟩ n = .ok row.identifier) ∧
    (∀ row ∈ s.db.subjects, ∃ e p r, .wrote e p r ∈ s.history ∧
      verifyReceiptSignature positionCrypto r toyWriter.verificationKey = true ∧
      r.detail.onBehalfOf = some row.token.1) :=
  one_person_one_token positionCrypto ⟨id, id, id⟩ toyWriter _ (by simp [Operation.erasesSubjects])

end Sigillo
