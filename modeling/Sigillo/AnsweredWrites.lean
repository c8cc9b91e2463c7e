import Sigillo.ComparedChains

/-!
# Writes whose answers come

Nothing that went wrong before stops a chain: where the signer runs and answers, an event that passed
the checks is written, at once or after the one recovery its refusal starts
(**`append_comes`**).  The signer signs what is built on the whole chain and refuses by its
position what is built on less, and that refusal is the one that is answered with a comparison. -/

namespace Sigillo

open DoubleArith Utf16Text JsonText JsonSchema HexBase64 IsoTime FileVolume AssocList Fallible

variable {c : Crypto} {u : Unicode} {key : WriterKey} {options : SignerOptions} {ids : Set SystemId}
  {db : Database} {event : ChainEvent} {random : Randomness} {systemId : SystemId}

-- ── What the signer makes of a draft ─────────────────────────────────────────────

namespace SignerSide

variable {p : SignerSide} {systems : Systems}

/-- A request that is answered leaves the signer's side as the signing does. -/
theorem ask_side {x : Exchange} (hfate : x.fate = .answered) {receipt : UnsignedReceipt} :
    (p.ask c options x receipt).1 = ((p.run c options x.before).sign c options x.now none receipt).1 := by
  rw [ask, hfate]
  dsimp only
  rcases (p.run c options x.before).sign c options x.now none receipt with ⟨p', _ | refusal | sig⟩
  · rfl
  · rfl
  · rfl

theorem ask_signed {x : Exchange} (hfate : x.fate = .answered) {receipt : UnsignedReceipt} {p' : SignerSide}
    {sig : Signature} (h : (p.run c options x.before).sign c options x.now none receipt = (p', some (.ok sig))) :
    p.ask c options x receipt = (p', .ok sig.1) := by
  rw [ask, hfate]
  dsimp only
  rw [h]

theorem ask_refused {x : Exchange} (hfate : x.fate = .answered) {receipt : UnsignedReceipt} {p' : SignerSide}
    {refusal : Refusal} (h : (p.run c options x.before).sign c options x.now none receipt = (p', some (.error refusal))) :
    p.ask c options x receipt = (p', .error (refusalOf refusal)) := by
  rw [ask, hfate]
  dsimp only
  rw [h]

/-- **What is built on less is refused for its position**, and nothing is done. -/
theorem Sound.refuses (h : p.Sound c options ids) (hruns : p.process ≠ none) (hkey : options.key.keyId = key.keyId)
    (hordinary : event.action.kind ≠ .genesis) (htip : db.tipRow event.systemId ≠ none)
    (hlength : (chainOf p.committed event.systemId).length ≤ 2 ^ 53)
    (hless : seqAfter (db.tipRow event.systemId) < (chainOf p.committed event.systemId).length)
    {prepared : Prepared} {unsigned : UnsignedReceipt}
    (hbuilt : buildUnsigned event (db.tipRow event.systemId) key.keyId prepared = .ok unsigned) (now : Timestamp) :
    ∃ message, p.sign c options now none unsigned = (p, some (.error ⟨.sequence, message⟩)) := by
  obtain ⟨systems, hprocess⟩ := Option.ne_none_iff_exists'.mp hruns
  have hrecords := (buildUnsigned_eq_ok.mp hbuilt).1
  have hseq := hrecords.seq_eq (hless.le.trans hlength)
  have hlater : seqAfter (db.tipRow event.systemId) ≠ 0 := by
    obtain ⟨tip, hsome⟩ := Option.ne_none_iff_exists'.mp htip
    rw [hsome]
    exact Nat.succ_ne_zero _
  have hkind : unsigned.action.kind ≠ .genesis := by
    have hsame : unsigned.action.kind = event.action.kind := congrArg ActionInput.kind hrecords.action
    rwa [hsame]
  have hexpected := ((h.memory systems hprocess).expected event.systemId).1
  obtain ⟨hnil, -⟩ | ⟨state, hsome, -⟩ := h.memory systems hprocess event.systemId
  · rw [hnil, List.length_nil] at hless
    exact absurd hless (Nat.not_lt_zero _)
  · rw [knownChain, hsome] at hexpected
    have hdecide : decide (unsigned.seq.1 = 0) = decide (unsigned.action.kind = .genesis) := by
      rw [hseq, decide_eq_false hlater, decide_eq_false hkind]
    have hplace : unsigned.seq.1 ≠ expectedSeq (some state) := by
      rw [hseq, hexpected]
      exact hless.ne
    obtain ⟨message, hrefused⟩ : ∃ message, signReceipt c options p.volume systems now unsigned
        = .refused ⟨.sequence, message⟩ := by
      rw [signReceipt, if_neg (not_not.mpr (hrecords.keyId.trans hkey.symm)), malformedStringIn_of_buildUnsigned hbuilt]
      dsimp only
      rw [if_neg (not_not.mpr hdecide), hrecords.systemId, hsome]
      dsimp only
      rw [signNext, if_pos hplace]
      exact ⟨_, rfl⟩
    refine ⟨message, ?_⟩
    rw [SignerSide.sign, hprocess]
    dsimp only
    rw [hrefused]

end SignerSide

-- ── An attempt at which nothing is in the way ────────────────────────────────────

/-- What is trusted of more is trusted of less. -/
theorem Trusted.mono {committed more : List Receipt} (h : Trusted c key options more) (hmore : committed <+: more) :
    Trusted c key options committed where
  keyId := h.keyId
  verifies := h.verifies
  hashes := h.hashes.mono (by rintro bytes ⟨r, hr, rfl⟩; exact ⟨r, hmore.subset hr, rfl⟩)

namespace TwoParties

variable {w : TwoParties} {t : Try}

/-- **Nothing is in the way of an attempt**: its event is not refused at its turn, a process runs and
    answers it, and its clock is near the event and the receipt before it. -/
structure Clear (c : Crypto) (u : Unicode) (key : WriterKey) (options : SignerOptions) (w : TwoParties)
    (event : ChainEvent) (t : Try) : Prop where
  notRefused : ¬ RefusedAt c u key w.store.db event t.random
  running : (w.signer.run c options t.exchange.before).process ≠ none
  answered : t.exchange.fate = .answered
  near : |dateParse event.tsReceived - dateParse t.exchange.now| ≤ options.toleranceMs
  notAhead : ∀ tip, w.store.db.tipRow event.systemId = some tip →
    dateParse tip.tsReceived ≤ dateParse t.exchange.now + options.toleranceMs

/-- So the receipt is dated near the signer's clock. -/
theorem Clear.dated (h : Clear c u key options w event t) :
    |dateParse (tsReceivedAfter event (w.store.db.tipRow event.systemId)) - dateParse t.exchange.now|
      ≤ options.toleranceMs := by
  obtain ⟨-, hdate⟩ := dateParse_tsReceivedAfter event (w.store.db.tipRow event.systemId)
  rcases hdate with hown | ⟨tip, htip, hearlier, hraised⟩
  · rw [hown]
    exact h.near
  · have hbound := h.notAhead tip htip
    have hlower := (abs_le.mp h.near).1
    rw [hraised, abs_le]
    constructor
    · omega
    · omega

/-- The receipt that is there already is what an attempt comes back with. -/
theorem attempt_of_duplicate (hwhole : Whole c w.store.db) {row : ReceiptRow}
    (hdup : duplicateRow w.store.db event .continuation = some row) (t : Try) :
    ∃ r, (w.attempt c u key options event .continuation .ok t).2 = .ok r := by
  obtain ⟨r, rfl, -, -⟩ := hwhole.duplicateRow_eq_some.mp hdup
  have hdraft : ∀ random, draftReceipt c u key w.store.db event .continuation random
      = .ok (w.store.db, .duplicate r) := by
    intro random
    rw [draftReceipt, hdup]
    dsimp only
    rw [rowToReceipt_receiptRow]
  have hinsert : ∀ attempt : Attempt, insertReceipt c u key w.store.db event .continuation attempt
      = .ok (w.store.db, .duplicate r) := fun attempt => bind_eq_ok.mpr ⟨_, hdraft attempt.random, rfl⟩
  refine ⟨r, ?_⟩
  rw [TwoParties.attempt]
  dsimp only
  rw [attemptReceipt_of_ok (hinsert _)]
  rfl

/-- **Whatever is signed for an event that is not there yet is written**, where no row is in its way. -/
theorem attempt_of_signed (hwhole : Whole c w.store.db)
    (hchecked : checkEvent c u seen key.keyId event checked = .ok ())
    (hnew : duplicateRow w.store.db event .continuation = none) (hnot : ¬ RefusedAt c u key w.store.db event t.random)
    {unsigned : UnsignedReceipt} (hasked : Asked c u key w.store.db event t.random unsigned) {sig : Signature}
    (hsigned : (w.signer.ask c options t.exchange unsigned).2 = .ok sig.1)
    (hverified : verifyReceiptSignature c (unsigned.signed sig) key.verificationKey = true)
    (hclash : ∀ row ∈ w.store.db.receipts, ¬ Database.Clash row (receiptRow c (unsigned.signed sig))) :
    ∃ r, (w.attempt c u key options event .continuation .ok t).2 = .ok r := by
  have hreply : (w.asked c u key options event .continuation t).2 = .ok sig.1 := by
    obtain ⟨db', prepared, hdraft⟩ := hasked
    rw [asked, hdraft]
    exact hsigned
  have houtcome := insertReceipt_outcome hwhole hchecked hnew
    ⟨t.random, (w.asked c u key options event .continuation t).2⟩
  generalize hinsert : insertReceipt c u key w.store.db event .continuation
    ⟨t.random, (w.asked c u key options event .continuation t).2⟩ = out at houtcome
  cases houtcome with
  | refused e why events => exact absurd why hnot
  | unanswered other e asked reply =>
      rw [show (w.asked c u key options event .continuation t).2 = .error e from reply] at hreply
      cases hreply
  | spoilt e why events =>
      obtain ⟨other, text, hother, htext, hall⟩ := why
      rw [show (w.asked c u key options event .continuation t).2 = .ok text from htext] at hreply
      obtain rfl := Except.ok.inj hreply
      obtain rfl := hother.unique hasked
      have hsound : checkedReceipt c key other sig.1 = .ok (other.signed sig) := by
        rw [checkedReceipt, dif_pos sig.2]
        exact if_pos hverified
      obtain ⟨row, hrow, hclashes⟩ := hall _ hsound
      exact absurd hclashes (hclash row hrow)
  | written prepared receipt db' writes asked sound =>
      refine ⟨receipt, ?_⟩
      rw [TwoParties.attempt]
      dsimp only
      rw [attemptReceipt_of_ok hinsert]
      rfl

/-- An attempt that is answered leaves the signer's side as the signing does. -/
theorem attempt_side (hanswered : t.exchange.fate = .answered) {db' : Database} {prepared : Prepared}
    {unsigned : UnsignedReceipt} (hdraft : draftReceipt c u key w.store.db event .continuation t.random
      = .ok (db', .unsigned prepared unsigned)) :
    (w.attempt c u key options event .continuation .ok t).1.signer
      = ((w.signer.run c options t.exchange.before).sign c options t.exchange.now none unsigned).1 := by
  rw [TwoParties.attempt, asked, hdraft]
  exact SignerSide.ask_side hanswered

/-- **An attempt at a chain that is level is answered.** -/
theorem Level.attempt_comes (hn : Named c ids) (h : w.Level c key options ids)
    (hids : isWellFormed event.systemId.1 = true → event.systemId ∈ ids)
    (hchecked : checkEvent c u seen key.keyId event checked = .ok ()) (hordinary : event.action.kind ≠ .genesis)
    (hclear : w.Clear c u key options event t)
    (ht : Trusted c key options (w.attempt c u key options event .continuation .ok t).1.signer.committed)
    (hlength : (chainOf (w.attempt c u key options event .continuation .ok t).1.signer.committed
      event.systemId).length ≤ 2 ^ 53)
    (hhere : ChainOf c w.store.db event.systemId
      (chainOf (w.signer.run c options t.exchange.before).committed event.systemId)) :
    ∃ r, (w.attempt c u key options event .continuation .ok t).2 = .ok r := by
  cases hnew : duplicateRow w.store.db event .continuation with
  | some row => exact attempt_of_duplicate h.store.whole hnew t
  | none =>
      obtain ⟨unsigned, hasked⟩ := (asked_iff h.store.whole hchecked hnew).mpr hclear.notRefused
      obtain ⟨db', prepared, hdraft⟩ := id hasked
      obtain ⟨-, hplaced, -, -, hbuilt⟩ := draftReceipt_unsigned hdraft
      obtain ⟨hsystem, hunsaid⟩ := h.store.unsaid (opensByName_continuation _) hdraft
      obtain ⟨hsound, hgrows⟩ := h.signer.run hn t.exchange.before
      have hside := @attempt_side c u key options event w t hclear.answered _ _ _ hdraft
      have hafter := (h.signer.ask hn t.exchange (hsystem ▸ hids) hunsaid).1
      have hsigning := hsound.signing t.exchange.now none unsigned
      have hmore := chainOf_prefixes (hsigning.grows) event.systemId
      rw [hside] at ht hlength
      rw [SignerSide.ask_side hclear.answered] at hafter
      have hsigns := hsound.signs hclear.running ht.keyId hhere (hmore.length_le.trans hlength)
        (iff_of_false hordinary fun hnil => ?_) hbuilt hclear.dated
      · rcases hout : (w.signer.run c options t.exchange.before).sign c options t.exchange.now none unsigned
          with ⟨p', answer⟩
        rw [hout] at hsigning hsigns hafter ht
        obtain rfl : answer = _ := hsigns
        cases hsigning with
        | nothing committed waiting unsigned => exact absurd rfl (unsigned _)
        | signed sig follows committed waiting answered =>
            obtain rfl := answered _ rfl
            have hbehind : Behind c key p'.committed w.store.db :=
              h.store.mono (hgrows.trans (committed ▸ List.prefix_append _ _))
            have hrest : chainOf (w.signer.run c options t.exchange.before).committed event.systemId
                ++ [unsigned.signed (signDigest options.key (receiptHash c unsigned))]
                  <+: chainOf p'.committed event.systemId := by
              rw [committed, ← hsystem]
              exact ⟨[], (List.append_nil _).trans (chainOf_append_self (r := unsigned.signed _)).symm⟩
            refine attempt_of_signed h.store.whole hchecked hnew hclear.notRefused hasked
              (congrArg Prod.snd (SignerSide.ask_signed hclear.answered hout)) (ht.verifies _) ?_
            exact hbehind.no_clash ht hafter hhere hrest _ (List.mem_singleton_self _)
      · -- a chain without a receipt is not continued
        rw [hnil] at hhere
        have htip : w.store.db.tipRow event.systemId = none := by rw [hhere.tipRow, List.getLast?_nil]; rfl
        exact hclear.notRefused (.noChain htip)

/-- **An attempt at a chain that is behind is refused for its position**, and changes nothing. -/
theorem Level.attempt_refused (hn : Named c ids) (h : w.Level c key options ids)
    (hchecked : checkEvent c u seen key.keyId event checked = .ok ()) (hordinary : event.action.kind ≠ .genesis)
    (hclear : w.Clear c u key options event t) (hkey : options.key.keyId = key.keyId)
    (hnew : duplicateRow w.store.db event .continuation = none)
    (hlength : (chainOf (w.attempt c u key options event .continuation .ok t).1.signer.committed
      event.systemId).length ≤ 2 ^ 53)
    (hless : seqAfter (w.store.db.tipRow event.systemId)
      < (chainOf (w.signer.run c options t.exchange.before).committed event.systemId).length) :
    ∃ message, w.attempt c u key options event .continuation .ok t
      = (w.committed w.store (w.signer.run c options t.exchange.before), .error (.signerRefused .sequence message)) := by
  obtain ⟨unsigned, db', prepared, hdraft⟩ := (asked_iff h.store.whole hchecked hnew).mpr hclear.notRefused
  obtain ⟨-, -, -, -, hbuilt⟩ := draftReceipt_unsigned hdraft
  have hsound := (h.signer.run hn t.exchange.before).1
  rw [attempt_side hclear.answered hdraft] at hlength
  have hmore := chainOf_prefixes (hsound.signing t.exchange.now none unsigned).grows event.systemId
  obtain ⟨message, hrefused⟩ := hsound.refuses hclear.running hkey hordinary
    (fun htip => hclear.notRefused (.noChain htip)) (hmore.length_le.trans hlength) hless hbuilt t.exchange.now
  have hasked : w.asked c u key options event .continuation t = (w.signer.run c options t.exchange.before,
      .error (.signerRefused .sequence message)) := by
    rw [asked, hdraft]
    exact SignerSide.ask_refused hclear.answered hrefused
  have hinsert : insertReceipt c u key w.store.db event .continuation
      ⟨t.random, .error (.signerRefused .sequence message)⟩ = .error (.signerRefused .sequence message) :=
    bind_eq_error.mpr (.inr ⟨_, hdraft, rfl⟩)
  refine ⟨message, ?_⟩
  rw [TwoParties.attempt, hasked]
  dsimp only
  rw [attemptReceipt_of_error hinsert]

/-- **Nothing is in the way of what follows a refused position**: the comparison is answered, and from the
    time its head is told until the receipt is asked for again nobody else has the signer sign. -/
structure ClearAgain (c : Crypto) (u : Unicode) (key : WriterKey) (options : SignerOptions) (w : TwoParties)
    (event : ChainEvent) (plan : WritePlan) : Prop where
  compared : plan.comparison.Answered c options w.signer
  alone : plan.comparison.during = [] ∧ plan.again.exchange.before = []
  clear : (w.compare c key options event.systemId plan.comparison).1.Clear c u key options event plan.again

/-- What an attempt comes back with is what is answered. -/
theorem write_of_attempt {plan : WritePlan} {r : Receipt}
    (h : (w.attempt c u key options event .continuation .ok plan.first).2 = .ok r) :
    (w.write c u key options event .continuation .ok plan).2 = .ok r := by
  rcases hfirst : w.attempt c u key options event .continuation .ok plan.first with ⟨w₁, answer⟩
  rw [hfirst] at h
  obtain rfl : answer = .ok r := h
  rw [TwoParties.write, hfirst]

theorem write_of_refused {plan : WritePlan} {w₁ w₂ : TwoParties} {message : JsString} {seq : Count} {hash : Hex 64}
    {count : ℕ} (hrefused : w.attempt c u key options event .continuation .ok plan.first
      = (w₁, .error (.signerRefused .sequence message)))
    (hcompared : w₁.compare c key options event.systemId plan.comparison = (w₂, .ok (.recovered seq hash count))) :
    w.write c u key options event .continuation .ok plan
      = w₂.attempt c u key options event .continuation .ok plan.again := by
  rw [TwoParties.write, hrefused]
  dsimp only
  rw [hcompared]

/-- What a comparison saw committed stays committed. -/
theorem Level.write_grows_again (hn : Named c ids) {w₁ : TwoParties} (h : w₁.Level c key options ids)
    (hids : isWellFormed event.systemId.1 = true → event.systemId ∈ ids) {plan : WritePlan} {message : JsString}
    (hrefused : w.attempt c u key options event .continuation .ok plan.first
      = (w₁, .error (.signerRefused .sequence message))) :
    (w₁.compare c key options event.systemId plan.comparison).1.signer.committed
      <+: (w.write c u key options event .continuation .ok plan).1.signer.committed := by
  have hsecond := h.compare hn event.systemId plan.comparison
  rw [TwoParties.write, hrefused]
  dsimp only
  rcases hcompared : w₁.compare c key options event.systemId plan.comparison with ⟨w₂, e | outcome⟩
  · exact List.prefix_rfl
  · rw [hcompared] at hsecond
    cases outcome with
    | inSync => exact List.prefix_rfl
    | recovered seq hash count =>
        exact (hsecond.level.attempt (u := u) hn hids (opensByName_continuation _) keepsChains_ok plan.again).grows
    | diverged detail => exact List.prefix_rfl

/-- What an attempt had committed stays committed. -/
theorem Level.write_grows (hn : Named c ids) (h : w.Level c key options ids)
    (hids : isWellFormed event.systemId.1 = true → event.systemId ∈ ids) (plan : WritePlan) :
    (w.attempt c u key options event .continuation .ok plan.first).1.signer.committed
      <+: (w.write c u key options event .continuation .ok plan).1.signer.committed := by
  have hfirst := h.attempt (u := u) hn hids (opensByName_continuation _) keepsChains_ok plan.first
  by_cases hrefused : ∃ w₁ message, w.attempt c u key options event .continuation .ok plan.first
      = (w₁, .error (.signerRefused .sequence message))
  · obtain ⟨w₁, message, hrefused⟩ := hrefused
    have hagain := hfirst.level.compare hn event.systemId plan.comparison
    rw [hrefused] at hagain hfirst ⊢
    exact hagain.grows.trans (hfirst.level.write_grows_again hn hids hrefused)
  · rw [TwoParties.write]
    split
    · rename_i w₁ message heq
      exact absurd ⟨w₁, message, heq⟩ hrefused
    · exact List.prefix_rfl

/-- A comparison that finds nothing amiss leaves the store. -/
theorem store_of_inSync {systemId : SystemId} {x : Viewing}
    (h : (w.compare c key options systemId x).2 = .ok .inSync) : (w.compare c key options systemId x).1.store = w.store := by
  rw [TwoParties.compare] at h ⊢
  have hreconciles := @reconcileNow_reconciles c key w.store systemId
    (w.signer.viewed c options systemId x).2
  dsimp only [committed] at h ⊢
  generalize reconcileNow c key w.store systemId (w.signer.viewed c options systemId x).2 = out at h hreconciles ⊢
  cases hreconciles with
  | inSync level => rfl
  | failed e => cases h
  | diverged detail => cases h
  | recovered head taken db ahead missing restored => cases h

/-- **What was refused for its position is written after the comparison**, which brings the chain level. -/
theorem Level.again_comes (hn : Named c ids) {w₁ : TwoParties} (h : w₁.Level c key options ids)
    (hids : isWellFormed event.systemId.1 = true → event.systemId ∈ ids)
    (hchecked : checkEvent c u seen key.keyId event checked = .ok ()) (hordinary : event.action.kind ≠ .genesis)
    {plan : WritePlan} {message : JsString} (hrefused : w.attempt c u key options event .continuation .ok plan.first
      = (w₁, .error (.signerRefused .sequence message)))
    (hundeleted : w₁.store.db.deletionOf event.systemId = none) (hagain : w₁.ClearAgain c u key options event plan)
    {chain : List Receipt} (hhere : ChainOf c w₁.store.db event.systemId chain)
    (hshort : chain.length < (chainOf w₁.signer.committed event.systemId).length)
    (ht : Trusted c key options (w.write c u key options event .continuation .ok plan).1.signer.committed)
    (hlength : (chainOf (w.write c u key options event .continuation .ok plan).1.signer.committed
      event.systemId).length ≤ 2 ^ 53) :
    ∃ r, (w.write c u key options event .continuation .ok plan).2 = .ok r := by
  have hlater := Level.write_grows_again hn h hids hrefused
  -- the comparison takes back what the chain is missing
  obtain ⟨hwhole, houtcome⟩ := h.catches_up hn hagain.compared (ht.mono hlater) hundeleted
  have hlevel := (h.compare hn event.systemId plan.comparison).level
  rcases houtcome with hsync | ⟨seq, hash, count, hrecovered⟩
  · -- a chain that is behind is not found level
    rw [store_of_inSync hsync] at hwhole
    have hlonger := (chainOf_prefixes (h.signer.run hn plan.comparison.before).2 event.systemId).length_le
    rw [← hwhole.seqAfter, hhere.seqAfter] at hlonger
    exact absurd hshort (not_lt.mpr hlonger)
  · have hwrite := write_of_refused hrefused (Prod.ext rfl hrecovered)
    rw [hwrite] at ht hlength ⊢
    refine hlevel.attempt_comes hn hids hchecked hordinary hagain.clear ht hlength ?_
    show ChainOf c _ event.systemId (chainOf (((w₁.signer.run c options plan.comparison.before).run c options
      plan.comparison.during).run c options plan.again.exchange.before).committed event.systemId)
    rw [hagain.alone.1, hagain.alone.2]
    exact hwhole

/-- **An event that passed the checks is written**, at once or after one recovery. -/
theorem Level.write_comes (hn : Named c ids) (h : w.Level c key options ids)
    (hids : isWellFormed event.systemId.1 = true → event.systemId ∈ ids)
    (hchecked : checkEvent c u seen key.keyId event checked = .ok ()) (hordinary : event.action.kind ≠ .genesis)
    {plan : WritePlan} (hundeleted : w.store.db.deletionOf event.systemId = none)
    (hfirst : w.Clear c u key options event plan.first)
    (hagain : ∀ w₁ message, w.attempt c u key options event .continuation .ok plan.first
      = (w₁, .error (.signerRefused .sequence message)) → w₁.ClearAgain c u key options event plan)
    (ht : Trusted c key options (w.write c u key options event .continuation .ok plan).1.signer.committed)
    (hlength : (chainOf (w.write c u key options event .continuation .ok plan).1.signer.committed
      event.systemId).length ≤ 2 ^ 53) :
    ∃ r, (w.write c u key options event .continuation .ok plan).2 = .ok r := by
  have hfirstGrows := h.write_grows (u := u) hn hids plan
  have hfirstLevel := (h.attempt (u := u) hn hids (opensByName_continuation _) keepsChains_ok plan.first).level
  obtain ⟨hsound, hgrows⟩ := h.signer.run hn plan.first.exchange.before
  obtain ⟨chain, hhere, hbegins⟩ := h.store.chains event.systemId
  have hbelow := hbegins.trans (chainOf_prefixes hgrows event.systemId)
  by_cases hall : chain = chainOf (w.signer.run c options plan.first.exchange.before).committed event.systemId
  · -- the chain is level already
    obtain ⟨r, hr⟩ := h.attempt_comes hn hids hchecked hordinary hfirst (ht.mono hfirstGrows)
      ((chainOf_prefixes hfirstGrows event.systemId).length_le.trans hlength) (hall ▸ hhere)
    exact ⟨r, write_of_attempt hr⟩
  · cases hnew : duplicateRow w.store.db event .continuation with
    | some row =>
        obtain ⟨r, hr⟩ := attempt_of_duplicate (u := u) h.store.whole hnew plan.first
        exact ⟨r, write_of_attempt hr⟩
    | none =>
        have hshort : chain.length
            < (chainOf (w.signer.run c options plan.first.exchange.before).committed event.systemId).length :=
          lt_of_le_of_ne hbelow.length_le fun hlen => hall (hbelow.eq_of_length hlen)
        obtain ⟨message, hrefused⟩ := h.attempt_refused hn hchecked hordinary hfirst ht.keyId hnew
          ((chainOf_prefixes hfirstGrows event.systemId).length_le.trans hlength) (hhere.seqAfter ▸ hshort)
        rw [hrefused] at hfirstLevel
        exact hfirstLevel.again_comes hn hids hchecked hordinary hrefused hundeleted (hagain _ message hrefused)
          hhere hshort ht hlength

/-- What passed the checks is no genesis, and is in order. -/
theorem checks_passed (h : (refusedEvent event).orElse (fun _ => refusedBefore c u key seen event checked) = none) :
    event.action.kind ≠ .genesis ∧ checkEvent c u seen key.keyId event checked = .ok () := by
  obtain ⟨hkind, hbefore⟩ : refusedEvent event = none ∧ refusedBefore c u key seen event checked = none := by
    cases hkind : refusedEvent event with
    | none =>
        rw [hkind] at h
        exact ⟨rfl, h⟩
    | some e =>
        rw [hkind] at h
        cases h
  constructor
  · intro hgenesis
    rw [refusedEvent, if_pos hgenesis] at hkind
    cases hkind
  · rw [refusedBefore] at hbefore
    cases hcheck : checkEvent c u seen key.keyId event checked with
    | ok done => rfl
    | error e =>
        rw [hcheck] at hbefore
        cases hbefore

-- ── Every run ────────────────────────────────────────────────────────────────────

/-- **Nothing that went wrong before stops a chain.**  In whatever state a run left the two, an event that passed
    the checks is answered with its receipt, at once or after the one recovery its refusal starts. -/
theorem append_comes (c : Crypto) (u : Unicode) (key : WriterKey) (options : SignerOptions) (acts : List Act)
    (seen : List SubjectRow) (event : ChainEvent) (checked : Randomness) (plan : WritePlan)
    (hsha : Set.InjOn c.sha256 (idBytes '' named (acts ++ [.append seen event checked plan]))) (w w' : TwoParties)
    (hw : w = (TwoParties.start key).run c u key options acts)
    (answer : Except StoreError Receipt) (hw' : w.append c u key options seen event checked plan = (w', answer))
    (hpassed : (refusedEvent event).orElse (fun _ => refusedBefore c u key seen event checked) = none)
    (hundeleted : w.store.db.deletionOf event.systemId = none)
    (hclear : w.Clear c u key options event plan.first)
    (hagain : ∀ w₁ message, w.attempt c u key options event .continuation .ok plan.first
      = (w₁, .error (.signerRefused .sequence message)) → w₁.ClearAgain c u key options event plan)
    (ht : Trusted c key options w'.signer.committed)
    (hlength : (chainOf w'.signer.committed event.systemId).length ≤ 2 ^ 53) :
    ∃ r, answer = .ok r ∧ receiptRow c r ∈ w'.store.db.receipts ∧ r ∈ w'.signer.committed := by
  subst hw
  have hn := named_of_sha256 hsha
  have hids : ∀ a ∈ acts ++ [.append seen event checked plan], ∀ s ∈ a.names, isWellFormed s.1 = true →
      s ∈ named (acts ++ [.append seen event checked plan]) := fun a ha s hs hwell => ⟨⟨a, ha, hs⟩, hwell⟩
  have hevent : isWellFormed event.systemId.1 = true →
      event.systemId ∈ named (acts ++ [.append seen event checked plan]) :=
    hids _ (List.mem_append_right _ (List.mem_singleton_self _)) _ (List.mem_singleton_self _)
  have hlevel : Level c key options (named (acts ++ [.append seen event checked plan]))
      ((TwoParties.start key).run c u key options acts) := (Level.start.run hn
    fun b hb => hids b (List.mem_append_left _ hb)).level
  have hchecks := checks_passed hpassed
  rw [TwoParties.append, hpassed] at hw'
  dsimp only at hw'
  have hanswer := hlevel.write_comes hn hevent hchecks.2 hchecks.1 hundeleted hclear hagain
    (hw' ▸ ht) (hw' ▸ hlength)
  rw [hw'] at hanswer
  obtain ⟨r, rfl⟩ := hanswer
  have hpresentable := presentable_continuation (s := ((start key).run c u key options acts).store) hevent
  exact ⟨r, rfl, hlevel.write_row hn hpresentable keepsChains_ok hw',
    hlevel.write_committed hn hpresentable keepsChains_ok hw'⟩

theorem searched_trusted : Trusted tellingCrypto toyWriter toyOptions searched.signer.committed where
  keyId := rfl
  verifies := fun _ => rfl
  hashes := by
    have hother : tellingCrypto.sha256 (canonicalReceiptBytes spanReceipt.toUnsignedReceipt)
        ≠ tellingCrypto.sha256 (canonicalReceiptBytes toyGenesis.toUnsignedReceipt) := by
      intro heq
      refine tellingCrypto_other (r := spanReceipt.toUnsignedReceipt) (fun hsame => ?_) ?_
      · exact absurd (congrArg (fun r => r.seq.1) hsame) (by decide)
      · rw [← tellingCrypto_genesis]
        exact congrArg Digest.hex heq
    rw [searched_committed]
    rintro a ⟨r, hr, rfl⟩ b ⟨s, hs, rfl⟩ hsame
    rcases List.mem_pair.mp hr with rfl | rfl
    · rcases List.mem_pair.mp hs with rfl | rfl
      · rfl
      · exact absurd hsame.symm hother
    · rcases List.mem_pair.mp hs with rfl | rfl
      · exact absurd hsame hother
      · rfl

theorem opened_clear (u : Unicode) :
    (opened tellingCrypto).Clear tellingCrypto u toyWriter toyOptions (spanEvent (js "search")) promptTry where
  notRefused := by
    have hwrites : Writes tellingCrypto u toyWriter (toyOpened tellingCrypto (Store.fresh toyWriter).db none)
        (spanEvent (js "search")) .continuation toyReplies.first (toyPrepared (js "bot")) spanReceipt
        (toyWritten (Store.fresh toyWriter).db none spanReceipt) :=
      toySecond_writes (noChains_fresh toyWriter) rfl rfl spanReceipt_built rfl
    have hwhole : Whole tellingCrypto (opened tellingCrypto).store.db :=
      (whole_fresh toyWriter).wrote (toyGenesis_writes (u := u) (noChains_fresh toyWriter) rfl rfl)
    exact (asked_iff hwhole (checks_passed (spanEvent_checked (.inl rfl))).2 hwrites.notDuplicate).mp ⟨_, hwrites.asked⟩
  running := openedSigner_running tellingCrypto
  answered := rfl
  near := by
    show |dateParse newYear - dateParse newYear| ≤ ((1000 : ℕ) : ℤ)
    rw [sub_self, abs_zero]
    exact Int.natCast_nonneg _
  notAhead := by
    intro tip htip
    rw [opened_tip] at htip
    rw [← Option.some.inj htip]
    exact le_add_of_nonneg_right (Int.natCast_nonneg _)

/-- The toy system is opened, and a search of it is recorded. -/
theorem append_comes_search :
    let w := (TwoParties.start toyWriter).run tellingCrypto ⟨id, id, id⟩ toyWriter toyOptions [.signer .restart, opening]
    ∃ r, (w.append tellingCrypto ⟨id, id, id⟩ toyWriter toyOptions [] (spanEvent (js "search")) toyRandomness
      promptPlan).2 = .ok r := by
  have hopened := opened_run (c := tellingCrypto) (u := ⟨id, id, id⟩) rfl
  have hsearched : (opened tellingCrypto).append tellingCrypto ⟨id, id, id⟩ toyWriter toyOptions []
      (spanEvent (js "search")) toyRandomness promptPlan = (searched, .ok spanReceipt) := by
    rw [TwoParties.append, spanEvent_checked (.inl rfl)]
    dsimp only
    rw [TwoParties.write]
    dsimp only [promptPlan]
    rw [opened_searches]
  have hnames : ∀ a ∈ [.signer .restart, opening] ++ [.append [] (spanEvent (js "search")) toyRandomness promptPlan],
      ∀ s ∈ a.names, s = toySystem := by
    intro a ha s hs
    simp only [List.cons_append, List.nil_append, List.mem_cons, List.not_mem_nil, or_false] at ha
    rcases ha with rfl | rfl | rfl
    · cases hs
    · exact List.mem_singleton.mp hs
    · exact List.mem_singleton.mp hs
  obtain ⟨r, hr, -⟩ := append_comes tellingCrypto ⟨id, id, id⟩ toyWriter toyOptions [.signer .restart, opening] []
    (spanEvent (js "search")) toyRandomness promptPlan (injOn_of_names hnames _) _ searched hopened.symm _ hsearched
    (spanEvent_checked (.inl rfl)) rfl (opened_clear _)
    (fun w₁ message hrefused => by
      rw [show promptPlan.first = promptTry from rfl, opened_searches] at hrefused
      cases (Prod.mk.inj hrefused).2)
    searched_trusted (by rw [searched_committed]; decide)
  dsimp only
  rw [hopened, hsearched]
  exact ⟨r, hr⟩

end TwoParties

end Sigillo
