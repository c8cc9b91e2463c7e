import Sigillo.ComparedChains

/-!
# Spans that are sent again

An exporter that had no answer sends its spans again, in whatever batches, and the signer may have
committed them already.  **`resent_once`**: of every span of a batch that was answered there is one
receipt, in the database and among all that is committed, then and ever after.  **`signed_once`**: what
the server asks for is never of a span that the signer's chain has before that place. -/

namespace Sigillo

open DoubleArith Utf16Text JsonText JsonSchema HexBase64 IsoTime FileVolume AssocList Fallible

variable {c : Crypto} {u : Unicode} {key : WriterKey} {options : SignerOptions} {ids : Set SystemId}

/-- An event that names its span by both identifiers. -/
def ChainEvent.HasSpan (event : ChainEvent) : Prop :=
  event.source.traceId.isSome = true ∧ event.source.spanId.isSome = true

-- ── One receipt a span ───────────────────────────────────────────────────────────

theorem SameSpan.symm {a b : UnsignedReceipt} (h : SameSpan a b) : SameSpan b a := by
  obtain ⟨htrace, hspan, hsameTrace, hsameSpan⟩ := h
  exact ⟨hsameTrace ▸ htrace, hsameSpan ▸ hspan, hsameTrace.symm, hsameSpan.symm⟩

/-- Two receipts of the span of one event. -/
theorem NamesSpan.sameSpan {event : ChainEvent} {a b : UnsignedReceipt} (ha : NamesSpan event a)
    (hb : NamesSpan event b) : SameSpan a b :=
  ⟨ha.trace.1, ha.span.1, Option.map_injective Subtype.val_injective (ha.trace.2.trans hb.trace.2.symm),
    Option.map_injective Subtype.val_injective (ha.span.2.trans hb.span.2.symm)⟩

/-- **Where no span is signed twice**, what is committed for an event is one receipt. -/
theorem SpansOnce.eq {committed : List Receipt} (h : SpansOnce committed) {event : ChainEvent} {a b : Receipt}
    (ha : a ∈ committed) (hb : b ∈ committed) (hspan : NamesSpan event a.toUnsignedReceipt)
    (hspan' : NamesSpan event b.toUnsignedReceipt) : a = b := by
  by_contra hne
  have hsystem : b.systemId = a.systemId := hspan'.systemId.trans hspan.systemId.symm
  have hsymm : Std.Symm fun a b : Receipt => ¬ SameSpan a.toUnsignedReceipt b.toUnsignedReceipt :=
    ⟨fun _ _ hapart hspan => hapart hspan.symm⟩
  exact (h a.systemId).forall (mem_chainOf.mpr ⟨ha, rfl⟩) (mem_chainOf.mpr ⟨hb, hsystem⟩) hne
    (hspan.sameSpan hspan')

/-- **An attempt's answer is of the event's span**: the receipt found, or the one written. -/
theorem attemptReceipt_names {s s' : Store} (hs : Whole c s.db) {event : ChainEvent} (hspan : event.HasSpan)
    {attempt : Attempt} {r : Receipt}
    (h : attemptReceipt c u key s event .continuation .ok attempt = (s', .ok r)) :
    NamesSpan event r.toUnsignedReceipt := by
  rcases attemptReceipt_ok h with ⟨-, row, hdup, hback⟩ | ⟨prepared, hwrites⟩
  · obtain ⟨r₀, rfl, -, hnames⟩ := hs.duplicateRow_eq_some.mp hdup
    rw [rowToReceipt_receiptRow] at hback
    rwa [← Option.some.inj hback]
  · have hsaid := hwrites.said
    have hsource : r.source.input = event.source := hsaid.source
    refine ⟨hsaid.systemId, ⟨?_, by rw [hsource]⟩, ⟨?_, by rw [hsource]⟩⟩
    · have htrace := hspan.1
      rw [← hsource, Source.input] at htrace
      simpa using htrace
    · have hid := hspan.2
      rw [← hsource, Source.input] at hid
      simpa using hid

namespace TwoParties

variable {w w' : TwoParties}

/-- **The answer to a write** is of the event's span. -/
theorem Level.write_names (hn : Named c ids) (h : w.Level c key options ids) {event : ChainEvent}
    (hids : isWellFormed event.systemId.1 = true → event.systemId ∈ ids) (hspan : event.HasSpan)
    {plan : WritePlan} {r : Receipt} (hr : w.write c u key options event .continuation .ok plan = (w', .ok r)) :
    NamesSpan event r.toUnsignedReceipt := by
  obtain ⟨w₁, t, hlevel, hattempt⟩ := h.write_attempt hn (presentable_continuation hids) keepsChains_ok hr
  obtain ⟨rfl, hanswer⟩ := Prod.mk.inj hattempt
  exact attemptReceipt_names hlevel.store.whole hspan (Prod.ext rfl hanswer)

/-- What a batch writes later takes no receipt away. -/
theorem receipts_writeBatch (w : TwoParties) (events : List (ChainEvent × WritePlan)) :
    w.store.db.receipts ⊆ (w.writeBatch c u key options events).1.store.db.receipts := by
  obtain ⟨replies, -, hbatch⟩ :=
    writeBatch_eq_writeBatch (c := c) (u := u) w events
  have hcommits : Commits c u key Kind.IsOrdinary w.store
      (Sigillo.writeBatch c u key w.store ((events.map Prod.fst).zip replies)).1 := writeBatch_commits _ _
  rw [hbatch] at hcommits
  exact receipts_subset_of_commits hcommits

/-- **Every span of a batch that is answered has a receipt in the database**, among those answered. -/
theorem Level.writeBatch_names (hn : Named c ids) (h : w.Level c key options ids)
    {events : List (ChainEvent × WritePlan)}
    (hids : ∀ e ∈ events, isWellFormed e.1.systemId.1 = true → e.1.systemId ∈ ids) {receipts : List Receipt}
    (hr : w.writeBatch c u key options events = (w', .ok receipts)) : ∀ e ∈ events, e.1.HasSpan →
      ∃ r ∈ receipts, NamesSpan e.1 r.toUnsignedReceipt ∧ receiptRow c r ∈ w'.store.db.receipts := by
  induction events generalizing w receipts with
  | nil => exact fun e he => absurd he List.not_mem_nil
  | cons first rest ih =>
      obtain ⟨event, plan⟩ := first
      have hfirst := h.write (u := u) hn (presentable_continuation (hids _ List.mem_cons_self)) keepsChains_ok plan
      have hrest : ∀ e ∈ rest, isWellFormed e.1.systemId.1 = true → e.1.systemId ∈ ids := fun e he =>
        hids e (List.mem_cons_of_mem _ he)
      rw [TwoParties.writeBatch] at hr
      split at hr
      · cases (Prod.mk.inj hr).2
      · rename_i w₁ receipt heq
        rw [heq] at hfirst
        have hkept := @receipts_writeBatch c u key options w₁ rest
        split at hr
        · cases (Prod.mk.inj hr).2
        · rename_i w₂ receipts' hlast
          obtain ⟨rfl, hreceipts⟩ := Prod.mk.inj hr
          obtain rfl := Except.ok.inj hreceipts
          rw [hlast] at hkept
          intro e he hspan
          rcases List.mem_cons.mp he with rfl | he
          · refine ⟨receipt, List.mem_cons_self, h.write_names hn (hids _ List.mem_cons_self) hspan heq, ?_⟩
            exact hkept (h.write_row hn (presentable_continuation (hids _ List.mem_cons_self)) keepsChains_ok heq)
          · obtain ⟨r, hr, hnames, hrow⟩ := ih hfirst.level hrest hlast e he hspan
            exact ⟨r, List.mem_cons_of_mem _ hr, hnames, hrow⟩

theorem Level.appendBatch_names (hn : Named c ids) (h : w.Level c key options ids) {seen : List SubjectRow}
    {events : List (ChainEvent × Randomness × WritePlan)}
    (hids : ∀ e ∈ events, isWellFormed e.1.systemId.1 = true → e.1.systemId ∈ ids) {receipts : List Receipt}
    (hr : w.appendBatch c u key options seen events = (w', .ok receipts)) : ∀ e ∈ events, e.1.HasSpan →
      ∃ r ∈ receipts, NamesSpan e.1 r.toUnsignedReceipt ∧ receiptRow c r ∈ w'.store.db.receipts := by
  rw [TwoParties.appendBatch] at hr
  split at hr
  · cases (Prod.mk.inj hr).2
  · intro e he hspan
    refine h.writeBatch_names hn (fun e he => ?_) hr (e.1, e.2.2) (List.mem_map_of_mem he) hspan
    obtain ⟨first, hfirst, rfl⟩ := List.mem_map.mp he
    exact hids first hfirst

-- ── Every run ────────────────────────────────────────────────────────────────────

/-- **A span that is sent again is recorded once.**  Of every span of a batch that was answered, one receipt is
    among the answers; it is in the database, it is committed, and nothing else of its span ever is, whatever
    was done before and is done afterwards. -/
theorem resent_once (c : Crypto) (u : Unicode) (key : WriterKey) (options : SignerOptions) (before : List Act)
    (seen : List SubjectRow) (events : List (ChainEvent × Randomness × WritePlan)) (after : List Act)
    (hsha : Set.InjOn c.sha256 (idBytes '' named (before ++ .appendBatch seen events :: after)))
    (answered : TwoParties) (receipts : List Receipt)
    (hanswer : ((TwoParties.start key).run c u key options before).appendBatch c u key options seen events
      = (answered, .ok receipts)) (e : ChainEvent × Randomness × WritePlan) (he : e ∈ events) (hspan : e.1.HasSpan) :
    ∃ r ∈ receipts, NamesSpan e.1 r.toUnsignedReceipt ∧ receiptRow c r ∈ answered.store.db.receipts ∧
      r ∈ (answered.run c u key options after).signer.committed ∧
      ∀ other ∈ (answered.run c u key options after).signer.committed,
        NamesSpan e.1 other.toUnsignedReceipt → other = r := by
  have hn := named_of_sha256 hsha
  have hids : ∀ b ∈ before ++ .appendBatch seen events :: after, ∀ s ∈ b.names, isWellFormed s.1 = true →
      s ∈ named (before ++ .appendBatch seen events :: after) := fun b hb s hs hwell => ⟨⟨b, hb, hs⟩, hwell⟩
  have hbatch : ∀ e ∈ events, isWellFormed e.1.systemId.1 = true →
      e.1.systemId ∈ named (before ++ .appendBatch seen events :: after) := fun e he =>
    hids (.appendBatch seen events) (by simp) _ (List.mem_map_of_mem he)
  have hbefore : Level c key options (named (before ++ .appendBatch seen events :: after))
      ((TwoParties.start key).run c u key options before) := (Level.start.run hn
    fun b hb => hids b (List.mem_append_left _ hb)).level
  obtain ⟨r, hr, hnames, hrow⟩ := hbefore.appendBatch_names hn hbatch hanswer e he hspan
  have hcommitted := hbefore.appendBatch_committed hn hbatch hanswer r hr
  have hact := (hbefore.path hn (appendBatch_path (u := u) seen hbatch)).level
  rw [hanswer] at hact
  have hlater := hact.run (u := u) hn fun b hb => hids b (List.mem_append_right _ (List.mem_cons_of_mem _ hb))
  have hstill := hlater.grows.subset hcommitted
  exact ⟨r, hr, hnames, hrow, hstill, fun other hother hsame =>
    hlater.level.signer.spans.eq hother hstill hsame hnames⟩

/-- A search that is sent. -/
def searches : List (ChainEvent × Randomness × WritePlan) := [(spanEvent (js "search"), toyRandomness, promptPlan)]

theorem opened_sends : (opened tellingCrypto).appendBatch tellingCrypto u toyWriter toyOptions [] searches
    = (searched, .ok [spanReceipt]) := by
  have hsearch := orElse_eq_none.mp (spanEvent_checked (u := u) (.inl rfl : js "search" = _ ∨ js "search" = _))
  have hchecks : ((searches.findSome? fun e => if e.1.action.kind = .genesis then refusedEvent e.1 else none).orElse
      fun _ => (searches.findSome? fun e => refusedEvent e.1).orElse
        fun _ => searches.findSome? fun e => refusedBefore tellingCrypto u toyWriter [] e.1 e.2.1) = none := by
    refine orElse_eq_none.mpr ⟨by decide, orElse_eq_none.mpr ⟨?_, ?_⟩⟩
    · rw [searches, List.findSome?_singleton]
      exact hsearch.1
    · rw [searches, List.findSome?_singleton]
      exact hsearch.2
  rw [TwoParties.appendBatch, hchecks]
  dsimp only
  rw [searches, List.map_singleton, TwoParties.writeBatch, TwoParties.write]
  dsimp only [promptPlan]
  rw [opened_searches]
  rfl

/-- The signer starts, the toy system is opened, and a search is sent twice. -/
theorem resent_once_search :
    let answered := ((TwoParties.start toyWriter).run tellingCrypto ⟨id, id, id⟩ toyWriter toyOptions
      [.signer .restart, opening, .appendBatch [] searches])
    receiptRow tellingCrypto spanReceipt ∈ answered.store.db.receipts ∧
      ∀ other ∈ (answered.run tellingCrypto ⟨id, id, id⟩ toyWriter toyOptions
          [.appendBatch [] searches]).signer.committed,
        NamesSpan (spanEvent (js "search")) other.toUnsignedReceipt → other = spanReceipt := by
  have hopened := opened_run (c := tellingCrypto) (u := ⟨id, id, id⟩) rfl
  have hanswered : (TwoParties.start toyWriter).run tellingCrypto ⟨id, id, id⟩ toyWriter toyOptions
      [.signer .restart, opening, .appendBatch [] searches] = searched := by
    show ((TwoParties.start toyWriter).run tellingCrypto ⟨id, id, id⟩ toyWriter toyOptions
      ([.signer .restart, opening] ++ [.appendBatch [] searches])) = searched
    rw [run_append, hopened]
    exact congrArg Prod.fst opened_sends
  have hnames : ∀ a ∈ [.signer .restart, opening] ++ .appendBatch [] searches :: [.appendBatch [] searches],
      ∀ s ∈ a.names, s = toySystem := by
    intro a ha s hs
    simp only [List.cons_append, List.nil_append, List.mem_cons, List.not_mem_nil, or_false] at ha
    rcases ha with rfl | rfl | rfl | rfl
    · cases hs
    · exact List.mem_singleton.mp hs
    · exact List.mem_singleton.mp hs
    · exact List.mem_singleton.mp hs
  obtain ⟨r, hr, -, hrow, -, honly⟩ := resent_once tellingCrypto ⟨id, id, id⟩ toyWriter toyOptions
    [.signer .restart, opening] [] searches [.appendBatch [] searches] (injOn_of_names hnames _) searched [spanReceipt]
    (hopened ▸ opened_sends) _ (List.mem_singleton_self _) ⟨rfl, rfl⟩
  obtain rfl := List.mem_singleton.mp hr
  rw [hanswered]
  exact ⟨hrow, honly⟩

-- ── Signed once ──────────────────────────────────────────────────────────────────

/-- **No span is signed twice.**  In every state that a run of the server and the signer can pass through, whatever
    comes next and between the steps of a batch or of a recovery too, no chain the signer committed has two
    receipts of one span; and what the server would draft there is at a place of the signer's chain, or the one
    behind it, before which there is no receipt of its span. -/
theorem signed_once (c : Crypto) (u : Unicode) (key : WriterKey) (options : SignerOptions) (acts : List Act)
    (hsha : Set.InjOn c.sha256 (idBytes '' named acts)) :
    Path c u key options (named acts) (.start key) ((TwoParties.start key).run c u key options acts) ∧
    ∀ w, Path c u key options (named acts) (.start key) w → SpansOnce w.signer.committed ∧
      ∀ event mode random db prepared unsigned, OpensByName event mode →
        draftReceipt c u key w.store.db event mode random = .ok (db, .unsigned prepared unsigned) →
          unsigned.systemId = event.systemId ∧
          unsigned.seq.1 ≤ (chainOf w.signer.committed event.systemId).length ∧
            ∀ r ∈ (chainOf w.signer.committed event.systemId).take unsigned.seq.1,
              ¬ SameSpan r.toUnsignedReceipt unsigned := by
  refine ⟨run_path fun a ha _ hs hwell => ⟨⟨a, ha, hs⟩, hwell⟩, fun w hw => ?_⟩
  have hlevel : w.Level c key options (named acts) := (Level.start.path (named_of_sha256 hsha) hw).level
  refine ⟨hlevel.signer.spans, fun event mode random db prepared unsigned hopens hdraft => ?_⟩
  obtain ⟨hsystem, hunsaid⟩ := hlevel.store.unsaid hopens hdraft
  exact ⟨hsystem, hsystem ▸ hunsaid.within, hsystem ▸ hunsaid.apart⟩

/-- The signer signs, and its answer is lost. -/
def lostPlan : WritePlan := { promptPlan with first := ⟨toyRandomness, ⟨[], newYear, .lost⟩⟩ }

/-- The search that is signed, and not recorded. -/
def unheard : TwoParties :=
  ⟨(opened tellingCrypto).store, [.fresh toyWriter, (opened tellingCrypto).store], searched.signer⟩

theorem opened_drafts (u : Unicode) : ∃ db prepared, draftReceipt tellingCrypto u toyWriter
    (opened tellingCrypto).store.db (spanEvent (js "search")) .continuation toyRandomness
      = .ok (db, .unsigned prepared spanReceipt.toUnsignedReceipt) := by
  have hwrites : Writes tellingCrypto u toyWriter (toyOpened tellingCrypto (Store.fresh toyWriter).db none)
      (spanEvent (js "search")) .continuation toyReplies.first (toyPrepared (js "bot")) spanReceipt
      (toyWritten (Store.fresh toyWriter).db none spanReceipt) :=
    toySecond_writes (noChains_fresh toyWriter) rfl rfl spanReceipt_built rfl
  exact hwrites.asked

theorem opened_loses (u : Unicode) : ((opened tellingCrypto).append tellingCrypto u toyWriter toyOptions []
    (spanEvent (js "search")) toyRandomness lostPlan).1 = unheard := by
  obtain ⟨db, prepared, hdraft⟩ := opened_drafts u
  have hasked : (opened tellingCrypto).asked tellingCrypto u toyWriter toyOptions (spanEvent (js "search"))
      .continuation lostPlan.first = (searched.signer, .error .signerUnavailable) := by
    rw [asked]
    dsimp only [lostPlan]
    rw [hdraft]
    rfl
  have hinsert : insertReceipt tellingCrypto u toyWriter (opened tellingCrypto).store.db (spanEvent (js "search"))
      .continuation ⟨toyRandomness, .error .signerUnavailable⟩ = .error .signerUnavailable :=
    bind_eq_error.mpr (.inr ⟨_, hdraft, bind_eq_error.mpr (.inl rfl)⟩)
  have hattempt : (opened tellingCrypto).attempt tellingCrypto u toyWriter toyOptions (spanEvent (js "search"))
      .continuation .ok lostPlan.first = (unheard, .error .signerUnavailable) := by
    rw [attempt, hasked]
    dsimp only [lostPlan]
    rw [attemptReceipt, hinsert]
    rfl
  rw [TwoParties.append, spanEvent_checked (.inl rfl)]
  dsimp only
  rw [TwoParties.write, hattempt]

/-- **A search is signed, its answer is lost, and it is asked for again**: what is drafted is at the place of the
    receipt that is committed already, and nothing before it is of its span. -/
theorem signed_once_search :
    let w := (TwoParties.start toyWriter).run tellingCrypto ⟨id, id, id⟩ toyWriter toyOptions
      [.signer .restart, opening, .append [] (spanEvent (js "search")) toyRandomness lostPlan]
    w.signer.committed = [toyGenesis, spanReceipt] ∧ SpansOnce w.signer.committed ∧
      (∃ db prepared, draftReceipt tellingCrypto ⟨id, id, id⟩ toyWriter w.store.db (spanEvent (js "search"))
        .continuation toyRandomness = .ok (db, .unsigned prepared spanReceipt.toUnsignedReceipt)) ∧
      ∀ r ∈ (chainOf w.signer.committed toySystem).take spanReceipt.seq.1,
        ¬ SameSpan r.toUnsignedReceipt spanReceipt.toUnsignedReceipt := by
  have hrun : (TwoParties.start toyWriter).run tellingCrypto ⟨id, id, id⟩ toyWriter toyOptions
      ([.signer .restart, opening] ++ [.append [] (spanEvent (js "search")) toyRandomness lostPlan]) = unheard := by
    rw [run_append, opened_run rfl]
    exact opened_loses ⟨id, id, id⟩
  have hnames : ∀ a ∈ [.signer .restart, opening] ++
      [Act.append [] (spanEvent (js "search")) toyRandomness lostPlan], ∀ s ∈ a.names, s = toySystem := by
    intro a ha s hs
    simp only [List.cons_append, List.nil_append, List.mem_cons, List.not_mem_nil, or_false] at ha
    rcases ha with rfl | rfl | rfl
    · cases hs
    · exact List.mem_singleton.mp hs
    · exact List.mem_singleton.mp hs
  obtain ⟨hpath, hevery⟩ := signed_once tellingCrypto ⟨id, id, id⟩ toyWriter toyOptions _ (injOn_of_names hnames _)
  obtain ⟨honce, hdrafts⟩ := hevery _ hpath
  obtain ⟨db, prepared, hdraft⟩ := opened_drafts ⟨id, id, id⟩
  rw [hrun] at honce hdrafts
  obtain ⟨-, -, hapart⟩ := hdrafts _ _ _ _ _ _ (opensByName_continuation _) hdraft
  intro w
  have hw : w = unheard := hrun
  clear_value w
  subst hw
  exact ⟨searched_committed, honce, ⟨db, prepared, hdraft⟩, hapart⟩

end TwoParties

end Sigillo
