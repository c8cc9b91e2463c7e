import Sigillo.ClockSteps
import Sigillo.LevelChains
import Sigillo.SavedSessions

/-!
# What a comparison gives back

A chain that is behind the signer's, for an answer that was lost or a copy put back, is brought level
by one comparison whose answers all come (**`compare_catches_up`**): the pages of the journal are
enough, every receipt of them continues the chain, and none of them is refused by the database. -/

namespace Sigillo

open DoubleArith Utf16Text JsonText JsonSchema HexBase64 IsoTime FileVolume AssocList Fallible

variable {c : Crypto} {u : Unicode} {key : WriterKey} {options : SignerOptions} {ids : Set SystemId}

-- ── The journal ──────────────────────────────────────────────────────────────────

/-- **Where no page is missing or empty**, the pages are enough. -/
theorem fetchJournal_enough {page : ℕ → Except StoreError (List Receipt)} {firstMissing wanted : ℕ}
    (hcomes : ∀ start < firstMissing + wanted, ∃ r rest, page start = .ok (r :: rest)) {pages : ℕ}
    {journal : List Receipt} (hpages : wanted ≤ journal.length + pages) :
    ∃ all, fetchJournal page firstMissing wanted pages journal = some all ∧ wanted ≤ all.length := by
  induction pages generalizing journal with
  | zero => exact ⟨journal, rfl, hpages⟩
  | succ pages ih =>
      rw [fetchJournal]
      by_cases hdone : wanted ≤ journal.length
      · rw [if_pos hdone]
        exact ⟨journal, rfl, hdone⟩
      · obtain ⟨r, rest, hpage⟩ := hcomes (firstMissing + journal.length) (by omega)
        rw [if_neg hdone, hpage]
        refine ih ?_
        rw [List.length_append, List.length_cons]
        omega

/-- **The rest of a chain is taken**, whatever comes after it in the journal. -/
theorem takeMissing_of_chain {db : Database} {systemId : SystemId} {headSeq : ℕ} {chain rest more : List Receipt}
    (hchain : IsChain c systemId (chain ++ rest)) (hrest : rest ≠ [])
    (hhead : chain.length + rest.length = headSeq + 1)
    (hverify : ∀ r ∈ rest, (keyFor key db r).any (verifyReceiptSignature c r) = true) :
    takeMissing c key db systemId headSeq chain.length (prevHashAfter c chain) (rest ++ more) = .ok rest := by
  induction rest generalizing chain with
  | nil => exact absurd rfl hrest
  | cons r rest ih =>
      have hfollows := hchain chain.length r (by simp)
      rw [List.take_left] at hfollows
      have hcontinues : continuesChain c key db systemId chain.length (prevHashAfter c chain) r = true := by
        rw [continuesChain, Bool.and_eq_true, Bool.and_eq_true, Bool.and_eq_true, decide_eq_true_eq,
          decide_eq_true_eq, decide_eq_true_eq]
        exact ⟨⟨⟨hfollows.systemId, hfollows.seq⟩, hfollows.prevHash⟩, hverify r List.mem_cons_self⟩
      rw [List.cons_append, takeMissing, if_pos hcontinues]
      rw [List.length_cons] at hhead
      by_cases hlast : rest = []
      · subst hlast
        rw [if_pos (by simpa using hhead)]
      · have hlength := List.length_pos_of_ne_nil hlast
        rw [if_neg (by omega)]
        have hnext : prevHashAfter c (chain ++ [r]) = receiptHashHex c r.toUnsignedReceipt := by
          rw [prevHashAfter, List.getLast?_append, List.getLast?_singleton]
          rfl
        have hlater := @ih (chain ++ [r]) (by simpa using hchain) hlast
          (by rw [List.length_append, List.length_singleton]; omega)
          fun r hr => hverify r (List.mem_cons_of_mem _ hr)
        rw [hnext, List.length_append, List.length_singleton] at hlater
        rw [hlater]
        rfl

-- ── Receipts are put back ────────────────────────────────────────────────────────

/-- **A receipt is put back**, where no row and no system stands in its way. -/
theorem restoreReceipt_comes {db : Database} {systemId : SystemId} {clock : ℕ → Timestamp} {r : Receipt}
    (hnew : r.seq.1 = 0 → ∀ row ∈ db.systems, row.systemId ≠ systemId)
    (hclash : ∀ row ∈ db.receipts, ¬ Database.Clash row (receiptRow c r))
    (hopenings : ∀ o ∈ db.openings, ¬ (o.systemId = r.systemId ∧ o.seq = r.seq)) :
    ∃ db', restoreReceipt c systemId clock db r = .ok db' := by
  have hsystem : registerRestored db systemId r
      = .ok { db with systems := systemsRestored db systemId r } := by
    rw [registerRestored, systemsRestored]
    by_cases hseq : r.seq.1 = 0
    · rw [if_pos hseq, if_pos hseq]
      exact Database.insertSystem_eq_ok.mpr ⟨rfl, hnew hseq, rfl⟩
    · rw [if_neg hseq, if_neg hseq]
  have hrow : insertRow c { db with systems := systemsRestored db systemId r } r none
      = .ok (addReceipt c { db with systems := systemsRestored db systemId r } r none) :=
    insertRow_eq_ok hclash hopenings
  exact ⟨_, bind_eq_ok.mpr ⟨_, hsystem, bind_eq_ok.mpr ⟨_, hrow, rfl⟩⟩⟩

/-- Receipts that may all be in one database. -/
def MayStand (c : Crypto) (a b : Receipt) : Prop :=
  b.seq.1 ≠ 0 ∧ ¬ Database.Clash (receiptRow c a) (receiptRow c b)

/-- **Receipts are put back, one after the other.** -/
theorem restores_come {db : Database} {systemId : SystemId} {clock : ℕ → Timestamp} {taken : List Receipt}
    (hnew : ∀ r ∈ taken, r.seq.1 = 0 → ∀ row ∈ db.systems, row.systemId ≠ systemId)
    (hclash : ∀ r ∈ taken, ∀ row ∈ db.receipts, ¬ Database.Clash row (receiptRow c r))
    (hopenings : ∀ r ∈ taken, ∀ o ∈ db.openings, ¬ (o.systemId = r.systemId ∧ o.seq = r.seq))
    (hapart : taken.Pairwise (MayStand c)) :
    ∃ db', taken.foldlM (restoreReceipt c systemId clock) db = .ok db' := by
  induction taken generalizing db with
  | nil => exact ⟨db, rfl⟩
  | cons r rest ih =>
      obtain ⟨hfirst, hrest⟩ := List.pairwise_cons.mp hapart
      obtain ⟨db₁, h₁⟩ := restoreReceipt_comes (hnew r List.mem_cons_self)
        (hclash r List.mem_cons_self) (hopenings r List.mem_cons_self)
      obtain ⟨-, -, hdb⟩ := restoreReceipt_ok h₁
      have hreceipts : db₁.receipts = db.receipts ++ [receiptRow c r] := by
        rw [hdb]
        rfl
      have hsame : db₁.openings = db.openings := by
        rw [hdb]
        exact List.append_nil _
      have hnext : ∀ b ∈ rest, ∀ row ∈ db₁.receipts, ¬ Database.Clash row (receiptRow c b) := by
        intro b hb row hrow
        rw [hreceipts] at hrow
        rcases List.mem_append.mp hrow with hrow | hrow
        · exact hclash b (List.mem_cons_of_mem _ hb) row hrow
        · rw [List.mem_singleton.mp hrow]
          exact (hfirst b hb).2
      obtain ⟨db', h'⟩ := ih (fun b hb hzero => absurd hzero (hfirst b hb).1) hnext
        (fun b hb => hsame ▸ hopenings b (List.mem_cons_of_mem _ hb)) hrest
      exact ⟨db', bind_eq_ok.mpr ⟨db₁, h₁, h'⟩⟩

-- ── What the signer committed ────────────────────────────────────────────────────

/-- **What signatures and hashes are trusted for**: the server knows the signer's key, a signature under
    it verifies, and no two receipts committed hash alike. -/
structure Trusted (c : Crypto) (key : WriterKey) (options : SignerOptions) (committed : List Receipt) : Prop where
  keyId : options.key.keyId = key.keyId
  verifies : ∀ digest,
    verifyDigestSignature c digest (signDigest options.key digest) key.verificationKey = true
  hashes : Set.InjOn c.sha256 {bytes | ∃ r ∈ committed, bytes = canonicalReceiptBytes r.toUnsignedReceipt}

/-- A receipt committed verifies under the key the database has for it. -/
theorem Trusted.verified {p : SignerSide} (h : Trusted c key options p.committed) (hsound : p.Sound c options ids)
    {db : Database} (hknown : db.publicKeyFor key.keyId = some key.verificationKey) {r : Receipt}
    (hr : r ∈ p.committed) : (keyFor key db r).any (verifyReceiptSignature c r) = true := by
  obtain ⟨hkey, hsig⟩ := hsound.signed r hr
  rw [keyFor, hkey, h.keyId, hknown]
  show verifyReceiptSignature c r key.verificationKey = true
  rw [verifyReceiptSignature, hsig]
  exact h.verifies _

/-- **Two receipts committed** may both be in a database, at two places and of two spans. -/
theorem Trusted.apart {committed : List Receipt} (h : Trusted c key options committed) {a b : Receipt}
    (ha : a ∈ committed) (hb : b ∈ committed) (hapart : a.systemId = b.systemId →
      a.seq.1 ≠ b.seq.1 ∧ ¬ SameSpan a.toUnsignedReceipt b.toUnsignedReceipt) :
    ¬ Database.Clash (receiptRow c a) (receiptRow c b) := by
  rintro (⟨hsystem, hseq⟩ | hhash | hspan)
  · exact (hapart hsystem).1 (congrArg Subtype.val hseq)
  · have hsame : a.toUnsignedReceipt = b.toUnsignedReceipt :=
      canonicalReceiptBytes_injective (h.hashes ⟨a, ha, rfl⟩ ⟨b, hb, rfl⟩ (Digest.hex_injective hhash))
    refine (hapart (congrArg (·.systemId) hsame)).1 ?_
    exact congrArg (fun r => r.seq.1) hsame
  · rw [Database.sameSpan, Bool.and_eq_true, Bool.and_eq_true, Bool.and_eq_true, Bool.and_eq_true, beq_iff_eq,
      beq_iff_eq, beq_iff_eq] at hspan
    obtain ⟨⟨⟨⟨hsystem, htrace⟩, hspanId⟩, hsameTrace⟩, hsameSpan⟩ := hspan
    exact (hapart hsystem).2 ⟨htrace, hspanId, hsameTrace, hsameSpan⟩

theorem IsChain.seqs_lt {systemId : SystemId} {chain : List Receipt} (h : IsChain c systemId chain) :
    chain.Pairwise fun a b => a.seq.1 < b.seq.1 := by
  refine List.pairwise_iff_getElem.mpr fun i j hi hj hij => ?_
  rw [h.seq_eq (List.getElem?_eq_getElem hi), h.seq_eq (List.getElem?_eq_getElem hj)]
  exact hij

theorem IsChain.placed {systemId : SystemId} {chain : List Receipt} (h : IsChain c systemId chain) :
    PlacedChain c systemId chain := fun n r hr =>
  ⟨(h n r hr).systemId, (h n r hr).seq, (h n r hr).prevHash⟩

/-- The receipts of a chain may all be in one database. -/
theorem Trusted.mayStand {p : SignerSide} (h : Trusted c key options p.committed) (hsound : p.Sound c options ids)
    (systemId : SystemId) : (chainOf p.committed systemId).Pairwise (MayStand c) := by
  have hseqs := (hsound.committed.chain systemId).seqs_lt
  refine (hseqs.and (hsound.spans systemId)).imp_of_mem fun {a b} ha hb hab => ?_
  obtain ⟨hlt, hspan⟩ := hab
  exact ⟨Nat.ne_of_gt (Nat.zero_lt_of_lt hlt),
    h.apart (mem_chainOf.mp ha).1 (mem_chainOf.mp hb).1 fun _ => ⟨hlt.ne, hspan⟩⟩

/-- **What is missing stands in the way of no row.** -/
theorem Behind.no_clash {p : SignerSide} (h : Trusted c key options p.committed) (hsound : p.Sound c options ids)
    {db : Database} (hbehind : Behind c key p.committed db) {systemId : SystemId} {chain rest : List Receipt}
    (hchain : ChainOf c db systemId chain) (hrest : chain ++ rest <+: chainOf p.committed systemId) :
    ∀ r ∈ rest, ∀ row ∈ db.receipts, ¬ Database.Clash row (receiptRow c r) := by
  intro r hr row hrow
  have hr' : r ∈ chainOf p.committed systemId := hrest.subset (List.mem_append_right _ hr)
  obtain ⟨hcommitted, hsystem⟩ := mem_chainOf.mp hr'
  by_cases hsame : row.systemId = systemId
  · obtain ⟨a, ha, rfl⟩ := hchain.mem_receipts.mp ⟨hrow, hsame⟩
    have hstand := (h.mayStand hsound systemId).sublist hrest.sublist
    exact ((List.pairwise_append.mp hstand).2.2 a ha r hr).2
  · obtain ⟨other, hother, hbegins⟩ := hbehind.chains row.systemId
    obtain ⟨a, ha, hrow'⟩ := hother.mem_receipts.mp ⟨hrow, rfl⟩
    have hname : a.systemId = row.systemId := congrArg ReceiptRow.systemId hrow'
    rw [← hrow']
    refine h.apart (mem_chainOf.mp (hbegins.subset ha)).1 hcommitted fun heq => ?_
    exact absurd (hname.symm.trans (heq.trans hsystem)) hsame

/-- Where no row clashes with what is taken, none is of its span. -/
theorem takenSpan_none {db : Database} {systemId : SystemId} {taken : List Receipt}
    (hown : ∀ r ∈ taken, r.systemId = systemId)
    (hclash : ∀ r ∈ taken, ∀ row ∈ db.receipts, ¬ Database.Clash row (receiptRow c r)) :
    takenSpan db systemId taken = none := by
  rw [takenSpan, List.find?_eq_none]
  intro r hr hfound
  split at hfound
  · rename_i t i htrace hspan
    obtain ⟨row, hrow⟩ := Option.isSome_iff_exists.mp hfound
    have hat := List.find?_some hrow
    rw [Bool.and_eq_true, Bool.and_eq_true, beq_iff_eq, Option.any_eq_true, Option.any_eq_true] at hat
    obtain ⟨⟨hsystem, t', ht', hsameTrace⟩, i', hi', hsameSpan⟩ := hat
    rw [beq_iff_eq] at hsameTrace hsameSpan
    refine hclash r hr row (List.mem_of_find?_eq_some hrow) (.inr (.inr ?_))
    have htraces : row.sourceTraceId = (receiptRow c r).sourceTraceId := by
      rw [ht', Subtype.ext hsameTrace]
      exact htrace.symm
    have hspans : row.sourceSpanId = (receiptRow c r).sourceSpanId := by
      rw [hi', Subtype.ext hsameSpan]
      exact hspan.symm
    have hsystems : row.systemId = (receiptRow c r).systemId := hsystem.trans (hown r hr).symm
    rw [Database.sameSpan, hsystems, htraces, hspans, ← htraces, ← hspans, ht', hi']
    simp
  · cases hfound

-- ── A comparison whose answers come ──────────────────────────────────────────────

/-- **Every answer comes**: a process runs whenever one is asked for. -/
structure Viewing.Answered (c : Crypto) (options : SignerOptions) (p : SignerSide) (x : Viewing) : Prop where
  headComes : x.headComes = true
  running : (p.run c options x.before).process ≠ none
  pagesCome : ∀ start, x.pageComes start = true
  staying : ∀ start,
    ((p.run c options x.before).run c options (x.during.take (x.happened start))).process ≠ none

namespace SignerSide

variable {p : SignerSide} {systemId : SystemId} {x : Viewing}

/-- The head that is told is the last receipt committed before it is asked for. -/
theorem Sound.viewed_head (hn : Named c ids) (h : p.Sound c options ids) (hx : x.Answered c options p) :
    (p.viewed c options systemId x).2.head
      = .ok (chainOf (p.run c options x.before).committed systemId).getLast? := by
  obtain ⟨systems, hprocess⟩ := Option.ne_none_iff_exists'.mp hx.running
  show (if x.headComes then (p.run c options x.before).head systemId else _) = _
  rw [if_pos hx.headComes, SignerSide.head, hprocess, ← (h.run hn x.before).1.signerHead hprocess systemId]

/-- **No page of what was committed is missing or empty.** -/
theorem Sound.viewed_page (hn : Named c ids) (h : p.Sound c options ids) (hx : x.Answered c options p)
    {page : ℕ → Except StoreError (List Receipt)} (hpage : (p.viewed c options systemId x).2.receipts = some page)
    {start : ℕ} (hstart : start < (chainOf (p.run c options x.before).committed systemId).length) :
    ∃ r rest, page start = .ok (r :: rest) := by
  obtain ⟨hsound, -⟩ := h.run hn x.before
  obtain ⟨hthen, hgrown⟩ := hsound.run hn (x.during.take (x.happened start))
  have hlonger := (chainOf_prefixes hgrown systemId).length_le
  have hthere : chainOf ((p.run c options x.before).run c options (x.during.take (x.happened start))).committed
      systemId ≠ [] := by
    intro hnil
    rw [hnil, List.length_nil] at hlonger
    omega
  obtain rfl := Option.some.inj hpage
  dsimp only
  rw [if_pos (hx.pagesCome start), hthen.page_comes (hx.staying start) hthere]
  rw [List.drop_eq_getElem_cons (hstart.trans_le hlonger)]
  exact ⟨_, _, rfl⟩

end SignerSide

namespace TwoParties

variable {w : TwoParties} {systemId : SystemId} {x : Viewing} {chain rest : List Receipt} {head : Receipt}

/-- The head stands at the end of what is missing. -/
theorem length_of_head (hchain : IsChain c systemId (chain ++ rest)) (hhead : rest.getLast? = some head) :
    chain.length + rest.length = head.seq.1 + 1 := by
  have hne : rest ≠ [] := by
    rintro rfl
    cases hhead
  have hpos := List.length_pos_of_ne_nil hne
  have hlast : (chain ++ rest).getLast? = some head := by
    rw [List.getLast?_append, hhead]
    rfl
  rw [List.getLast?_eq_getElem?] at hlast
  have hat := hchain.seq_eq hlast
  rw [List.length_append] at hat
  omega

/-- **The journal is read as far as the head**: its pages go on with the chain, over everything that was
    committed before they were asked for. -/
theorem Level.journal_reaches (hn : Named c ids) (h : w.Level c key options ids)
    (hx : x.Answered c options w.signer) (hhere : ChainOf c w.store.db systemId chain)
    (hrest : chain ++ rest = chainOf (w.signer.run c options x.before).committed systemId)
    (hseq : chain.length + rest.length = head.seq.1 + 1) (hahead : chain.length < head.seq.1) :
    ∃ more, journalFrom (w.signer.viewed c options systemId x).2 head (w.store.db.tipRow systemId)
      = some (rest ++ more) := by
  obtain ⟨hbefore, -⟩ := h.signer.run hn x.before
  obtain ⟨-, -, htells⟩ := h.signer.viewed hn systemId x
  have hbegins : chain ++ rest <+: chainOf (w.signer.viewed c options systemId x).1.committed systemId :=
    hrest ▸ chainOf_prefixes (hbefore.run hn x.during).2 systemId
  obtain ⟨page, hpage⟩ : ∃ page, (w.signer.viewed c options systemId x).2.receipts = some page := ⟨_, rfl⟩
  have hwanted : chain.length + (head.seq.1 - chain.length + 1)
      = (chainOf (w.signer.run c options x.before).committed systemId).length := by
    rw [← hrest, List.length_append]
    omega
  obtain ⟨all, hall, henough⟩ := fetchJournal_enough
    (fun start hstart => h.signer.viewed_page hn hx hpage (hwanted ▸ hstart)) (Nat.le_add_left _ _)
  have htold := fetchJournal_prefix (htells.page page hpage) List.nil_prefix hall
  have hmissing : rest <+: (chainOf (w.signer.viewed c options systemId x).1.committed systemId).drop chain.length := by
    obtain ⟨more, hmore⟩ := hbegins
    rw [← hmore, List.append_assoc, List.drop_left]
    exact List.prefix_append _ _
  have hlength : rest.length ≤ all.length := by omega
  obtain ⟨more, rfl⟩ := List.prefix_of_prefix_length_le hmissing htold hlength
  refine ⟨more, ?_⟩
  rw [journalFrom, firstMissingOf_eq_seqAfter, hhere.seqAfter, if_pos hahead, hpage]
  exact hall

/-- **What is missing is had whole.** -/
theorem Level.missing (hn : Named c ids) (h : w.Level c key options ids) (hx : x.Answered c options w.signer)
    (ht : Trusted c key options (w.signer.viewed c options systemId x).1.committed)
    (hundeleted : w.store.db.deletionOf systemId = none) (hhere : ChainOf c w.store.db systemId chain)
    (hrest : chain ++ rest = chainOf (w.signer.run c options x.before).committed systemId)
    (hhead : rest.getLast? = some head) :
    Missing c key w.store.db systemId head
      (journalFrom (w.signer.viewed c options systemId x).2 head (w.store.db.tipRow systemId)) rest := by
  obtain ⟨hbefore, -⟩ := h.signer.run hn x.before
  obtain ⟨hafter, hmore, -⟩ := h.signer.viewed hn systemId x
  have hlater := (hbefore.run hn x.during).2
  have hchain := hbefore.committed.chain systemId
  rw [← hrest] at hchain
  have hbehind := h.store.mono hmore
  have hfirst : firstMissingOf (w.store.db.tipRow systemId) = chain.length := by
    rw [firstMissingOf_eq_seqAfter, hhere.seqAfter]
  have hne : rest ≠ [] := by
    rintro rfl
    cases hhead
  have hseq := length_of_head hchain hhead
  have hbegins : chain ++ rest <+: chainOf (w.signer.viewed c options systemId x).1.committed systemId :=
    hrest ▸ chainOf_prefixes hlater systemId
  have hverify : ∀ r ∈ rest, (keyFor key w.store.db r).any (verifyReceiptSignature c r) = true := by
    intro r hr
    exact ht.verified hafter h.store.known
      (mem_chainOf.mp (hbegins.subset (List.mem_append_right _ hr))).1
  have hown : ∀ r ∈ rest, r.systemId = systemId := fun r hr =>
    (mem_chainOf.mp (hbegins.subset (List.mem_append_right _ hr))).2
  refine ⟨?_, ⟨head, hhead, rfl, rfl⟩, hundeleted, takenSpan_none hown (hbehind.no_clash ht hafter hhere hbegins)⟩
  rw [hfirst, hhere.prevHash]
  by_cases hone : head.seq.1 = chain.length
  · have hsingle : rest = [head] := by
      obtain ⟨only, rfl⟩ := List.length_eq_one_iff.mp (show rest.length = 1 by omega)
      rw [List.getLast?_singleton] at hhead
      rw [Option.some.inj hhead]
    rw [if_pos hone, hsingle]
    have htaken : takeMissing c key w.store.db systemId head.seq.1 chain.length (prevHashAfter c chain)
        (rest ++ []) = .ok rest := takeMissing_of_chain hchain hne hseq hverify
    rwa [List.append_nil, hsingle] at htaken
  · have hpos := List.length_pos_of_ne_nil hne
    have hahead : chain.length < head.seq.1 := by omega
    rw [if_neg hone]
    obtain ⟨more, hjournal⟩ := h.journal_reaches hn hx hhere hrest hseq hahead
    rw [hjournal]
    exact takeMissing_of_chain hchain hne hseq hverify

/-- A chain that has all that was committed is found level. -/
theorem Level.found_level (hn : Named c ids) (h : w.Level c key options ids) (hx : x.Answered c options w.signer)
    (ht : Trusted c key options (w.signer.viewed c options systemId x).1.committed)
    (hhere : ChainOf c w.store.db systemId (chainOf (w.signer.run c options x.before).committed systemId)) :
    isLevel c key w.store systemId (w.signer.viewed c options systemId x).2 = true := by
  obtain ⟨hbefore, -⟩ := h.signer.run hn x.before
  obtain ⟨hafter, -⟩ := h.signer.viewed hn systemId x
  have hlater := (hbefore.run hn x.during).2
  rw [isLevel, h.signer.viewed_head hn hx, hhere.tipRow]
  cases hlast : (chainOf (w.signer.run c options x.before).committed systemId).getLast? with
  | none => rfl
  | some head =>
      have hmem := List.mem_of_getLast? hlast
      have hverified := ht.verified hafter h.store.known
        (mem_chainOf.mp ((chainOf_prefixes hlater systemId).subset hmem)).1
      dsimp only
      rw [decide_eq_true (mem_chainOf.mp hmem).2, hverified]
      simp

/-- **What is missing is taken back.** -/
theorem Level.takes_back (hn : Named c ids) (h : w.Level c key options ids) (hx : x.Answered c options w.signer)
    (ht : Trusted c key options (w.signer.viewed c options systemId x).1.committed)
    (hundeleted : w.store.db.deletionOf systemId = none) (hhere : ChainOf c w.store.db systemId chain)
    (hrest : chain ++ rest = chainOf (w.signer.run c options x.before).committed systemId)
    (hhead : rest.getLast? = some head) :
    ChainOf c (w.compare c key options systemId x).1.store.db systemId (chain ++ rest) ∧
      ∃ seq hash count, (w.compare c key options systemId x).2 = .ok (.recovered seq hash count) := by
  obtain ⟨hbefore, -⟩ := h.signer.run hn x.before
  obtain ⟨hafter, hmore, -⟩ := h.signer.viewed hn systemId x
  have hlater : chain ++ rest <+: chainOf (w.signer.viewed c options systemId x).1.committed systemId :=
    hrest ▸ chainOf_prefixes (hbefore.run hn x.during).2 systemId
  have hchain := hbefore.committed.chain systemId
  rw [← hrest] at hchain
  have hmem : head ∈ rest := List.mem_of_getLast? hhead
  have hthere := mem_chainOf.mp (hlater.subset (List.mem_append_right _ hmem))
  have hverified := ht.verified hafter h.store.known hthere.1
  have hmissing := h.missing hn hx ht hundeleted hhere hrest hhead
  have hclash := (h.store.mono hmore).no_clash ht hafter hhere hlater
  have hstand := (ht.mayStand hafter systemId).sublist hlater.sublist
  have hplaced : firstMissingOf (w.store.db.tipRow systemId) ≤ head.seq.1 := by
    have hseq := length_of_head hchain hhead
    have hpos := List.length_pos_of_mem hmem
    rw [firstMissingOf_eq_seqAfter, hhere.seqAfter]
    omega
  have hnew : ∀ r ∈ rest, r.seq.1 = 0 → ∀ row ∈ w.store.db.systems, row.systemId ≠ systemId := by
    -- a chain that misses its genesis has no receipt, and so no system
    intro r hr hzero record hrecord hsame
    obtain ⟨row, hrow, hid⟩ := h.store.manned record hrecord
    obtain ⟨a, ha, -⟩ := hhere.mem_receipts.mp ⟨hrow, hid.trans hsame⟩
    have hlt := (List.pairwise_append.mp hchain.seqs_lt).2.2 a ha r hr
    omega
  obtain ⟨db, hrestored⟩ := restores_come
    hnew hclash
    (fun r hr => h.store.whole.no_openings (hclash r hr)) (List.pairwise_append.mp hstand).2.1
  have htold : (w.signer.viewed c options systemId x).2.head = .ok (some head) := by
    rw [h.signer.viewed_head hn hx, ← hrest, List.getLast?_append, hhead]
    rfl
  rw [TwoParties.compare]
  dsimp only [TwoParties.committed]
  rw [reconcileNow_recovers htold hthere.2 hverified hplaced hmissing hrestored]
  exact ⟨hhere.appendAll hchain.placed (restores_of_foldlM hrestored).receipts, _, _, _, rfl⟩

/-- **A comparison whose answers all come brings a chain level** with what the signer has committed: it
    was level already, or takes back what it was missing. -/
theorem Level.catches_up (hn : Named c ids) (h : w.Level c key options ids) (hx : x.Answered c options w.signer)
    (ht : Trusted c key options (w.signer.viewed c options systemId x).1.committed)
    (hundeleted : w.store.db.deletionOf systemId = none) :
    ChainOf c (w.compare c key options systemId x).1.store.db systemId
        (chainOf (w.signer.run c options x.before).committed systemId) ∧
      ((w.compare c key options systemId x).2 = .ok .inSync ∨
        ∃ seq hash count, (w.compare c key options systemId x).2 = .ok (.recovered seq hash count)) := by
  obtain ⟨-, hgrows⟩ := h.signer.run hn x.before
  obtain ⟨chain, hhere, hbegins⟩ := h.store.chains systemId
  obtain ⟨rest, hrest⟩ := hbegins.trans (chainOf_prefixes hgrows systemId)
  cases hhead : rest.getLast? with
  | none =>
      rw [List.getLast?_eq_none_iff.mp hhead, List.append_nil] at hrest
      rw [hrest] at hhere
      rw [TwoParties.compare]
      dsimp only [TwoParties.committed]
      rw [reconcileNow_of_isLevel (h.found_level hn hx ht hhere)]
      exact ⟨hhere, .inl rfl⟩
  | some head =>
      obtain ⟨hlevel, hrecovered⟩ := h.takes_back hn hx ht hundeleted hhere hrest hhead
      rw [hrest] at hlevel
      exact ⟨hlevel, .inr hrecovered⟩

end TwoParties

-- ── What was answered ────────────────────────────────────────────────────────────

/-- What is written beside a receipt keeps the receipts. -/
theorem attemptReceipt_mem {s s' : Store} (hs : Whole c s.db) {event : ChainEvent} {mode : WriteMode}
    {alongside : Database → Except StoreError Database} (halong : KeepsChains alongside) {attempt : Attempt}
    {r : Receipt} (h : attemptReceipt c u key s event mode alongside attempt = (s', .ok r)) :
    receiptRow c r ∈ s'.db.receipts := by
  rw [attemptReceipt] at h
  split at h
  · cases (Prod.mk.inj h).2
  · rename_i db written hresult
    obtain ⟨⟨db₁, written₁⟩, hinsert, hwith⟩ := bind_eq_ok.mp hresult
    obtain ⟨db₂, hdb, heq⟩ := map_eq_ok.mp hwith
    obtain ⟨rfl, rfl⟩ := Prod.mk.inj heq
    obtain ⟨rfl, hr⟩ := Prod.mk.inj h
    obtain rfl := Except.ok.inj hr
    show _ ∈ db₂.receipts
    rw [(halong _ _ hdb).1.receipts]
    cases written₁ with
    | new prepared receipt => exact (insertReceipt_new hinsert).mem_receipts
    | duplicate receipt =>
        -- the row of the span is of a receipt, the one that was read back
        obtain ⟨rfl, row, hdup, hback⟩ := insertReceipt_duplicate hinsert
        have hrow : row ∈ s.db.receipts := by
          unfold duplicateRow at hdup
          split at hdup
          · exact List.mem_of_find?_eq_some hdup
          · cases hdup
        obtain ⟨r, rfl⟩ := hs.row_of_receipt hrow
        rw [rowToReceipt_receiptRow] at hback
        obtain rfl := Option.some.inj hback
        exact hrow

theorem Behind.mem_committed {committed : List Receipt} {db : Database} (h : Behind c key committed db) {r : Receipt}
    (hr : receiptRow c r ∈ db.receipts) : r ∈ committed := by
  obtain ⟨chain, hchain, hbegins⟩ := h.chains r.systemId
  obtain ⟨a, ha, hsame⟩ := hchain.mem_receipts.mp ⟨hr, rfl⟩
  rw [receiptRow_injective hsame] at ha
  exact (mem_chainOf.mp (hbegins.subset ha)).1

namespace TwoParties

variable {w w' : TwoParties} {systemId : SystemId} {x : Viewing}

/-- **What `writeReceipt` answers, an attempt answers**, the first or the one after a recovery. -/
theorem Level.write_attempt (hn : Named c ids) (h : w.Level c key options ids) {event : ChainEvent}
    {mode : WriteMode} (hpresentable : Presentable ids w.store event mode)
    {alongside : Database → Except StoreError Database} (halong : KeepsChains alongside) {plan : WritePlan}
    {r : Receipt} (hr : w.write c u key options event mode alongside plan = (w', .ok r)) :
    ∃ (w₁ : TwoParties) (t : Try), w₁.Level c key options ids ∧
      w₁.attempt c u key options event mode alongside t = (w', .ok r) := by
  have hfirst := (h.attempt (u := u) hn hpresentable.names hpresentable.byName halong plan.first).level
  rw [TwoParties.write] at hr
  split at hr
  · rename_i w₁ message heq
    rw [heq] at hfirst
    have hsecond := (hfirst.compare hn event.systemId plan.comparison).level
    split at hr
    · cases (Prod.mk.inj hr).2
    · rename_i w₂ seq hash count hcompared
      rw [hcompared] at hsecond
      exact ⟨w₂, plan.again, hsecond, hr⟩
    · cases (Prod.mk.inj hr).2
    · cases (Prod.mk.inj hr).2
  · exact ⟨w, plan.first, h, hr⟩

/-- **A receipt that comes back from `writeReceipt`** is in the database. -/
theorem Level.write_row (hn : Named c ids) (h : w.Level c key options ids) {event : ChainEvent}
    {mode : WriteMode} (hpresentable : Presentable ids w.store event mode)
    {alongside : Database → Except StoreError Database} (halong : KeepsChains alongside) {plan : WritePlan}
    {r : Receipt} (hr : w.write c u key options event mode alongside plan = (w', .ok r)) :
    receiptRow c r ∈ w'.store.db.receipts := by
  obtain ⟨w₁, t, hlevel, hattempt⟩ := h.write_attempt hn hpresentable halong hr
  obtain ⟨rfl, hanswer⟩ := Prod.mk.inj hattempt
  exact attemptReceipt_mem hlevel.store.whole halong (Prod.ext rfl hanswer)

/-- And committed. -/
theorem Level.write_committed (hn : Named c ids) (h : w.Level c key options ids) {event : ChainEvent}
    {mode : WriteMode} (hpresentable : Presentable ids w.store event mode)
    {alongside : Database → Except StoreError Database} (halong : KeepsChains alongside) {plan : WritePlan}
    {r : Receipt} (hr : w.write c u key options event mode alongside plan = (w', .ok r)) :
    r ∈ w'.signer.committed := by
  have hlevel := (h.write (u := u) hn hpresentable halong plan).level
  rw [hr] at hlevel
  exact hlevel.store.mem_committed (h.write_row hn hpresentable halong hr)

theorem Level.writeBatch_committed (hn : Named c ids) (h : w.Level c key options ids)
    {events : List (ChainEvent × WritePlan)}
    (hids : ∀ e ∈ events, isWellFormed e.1.systemId.1 = true → e.1.systemId ∈ ids) {receipts : List Receipt}
    (hr : w.writeBatch c u key options events = (w', .ok receipts)) : ∀ r ∈ receipts, r ∈ w'.signer.committed := by
  induction events generalizing w receipts with
  | nil =>
      obtain ⟨-, hnone⟩ := Prod.mk.inj hr
      obtain rfl := Except.ok.inj hnone
      exact fun r hr => absurd hr List.not_mem_nil
  | cons e rest ih =>
      obtain ⟨event, plan⟩ := e
      have hfirst := h.write (u := u) hn (presentable_continuation (hids _ List.mem_cons_self)) keepsChains_ok plan
      have hrest : ∀ e ∈ rest, isWellFormed e.1.systemId.1 = true → e.1.systemId ∈ ids := fun e he =>
        hids e (List.mem_cons_of_mem _ he)
      rw [TwoParties.writeBatch] at hr
      split at hr
      · cases (Prod.mk.inj hr).2
      · rename_i w₁ receipt heq
        rw [heq] at hfirst
        have hcommitted := h.write_committed hn (presentable_continuation (hids _ List.mem_cons_self)) keepsChains_ok heq
        have hlater := (hfirst.level.writeBatch (u := u) hn hrest).grows
        split at hr
        · cases (Prod.mk.inj hr).2
        · rename_i w₂ receipts' hlast
          obtain ⟨rfl, hreceipts⟩ := Prod.mk.inj hr
          obtain rfl := Except.ok.inj hreceipts
          rw [hlast] at hlater
          intro r hr
          rcases List.mem_cons.mp hr with rfl | hr
          · exact hlater.subset hcommitted
          · exact ih hfirst.level hrest hlast r hr

theorem Level.createSystem_committed (hn : Named c ids) (h : w.Level c key options ids)
    (hids : isWellFormed systemId.1 = true → systemId ∈ ids) {ts : Timestamp} {organizationId : Option JsString}
    {plan : WritePlan} {r : Receipt}
    (hr : w.createSystem c u key options systemId ts organizationId plan = (w', .ok r)) :
    r ∈ w'.signer.committed := by
  rw [TwoParties.createSystem] at hr
  split at hr
  · cases (Prod.mk.inj hr).2
  · split at hr
    · cases (Prod.mk.inj hr).2
    · rename_i hnew
      exact h.write_committed hn ⟨hids, fun _ _ => rfl, fun _ _ => hnew⟩ keepsChains_ok hr

theorem Level.append_committed (hn : Named c ids) (h : w.Level c key options ids) {seen : List SubjectRow}
    {event : ChainEvent} (hids : isWellFormed event.systemId.1 = true → event.systemId ∈ ids)
    {checked : Randomness} {plan : WritePlan} {r : Receipt}
    (hr : w.append c u key options seen event checked plan = (w', .ok r)) : r ∈ w'.signer.committed := by
  rw [TwoParties.append] at hr
  split at hr
  · cases (Prod.mk.inj hr).2
  · exact h.write_committed hn (presentable_continuation hids) keepsChains_ok hr

theorem Level.appendBatch_committed (hn : Named c ids) (h : w.Level c key options ids) {seen : List SubjectRow}
    {events : List (ChainEvent × Randomness × WritePlan)}
    (hids : ∀ e ∈ events, isWellFormed e.1.systemId.1 = true → e.1.systemId ∈ ids) {receipts : List Receipt}
    (hr : w.appendBatch c u key options seen events = (w', .ok receipts)) :
    ∀ r ∈ receipts, r ∈ w'.signer.committed := by
  rw [TwoParties.appendBatch] at hr
  split at hr
  · cases (Prod.mk.inj hr).2
  · refine h.writeBatch_committed hn (fun e he => ?_) hr
    obtain ⟨first, hfirst, rfl⟩ := List.mem_map.mp he
    exact hids first hfirst

theorem Level.recordConnection_committed (hn : Named c ids) (h : w.Level c key options ids)
    {seen : List SubjectRow} {row : ConnectionRow} {event : Option (ChainEvent × Randomness × WritePlan)}
    (hids : ∀ e ∈ event, isWellFormed e.1.systemId.1 = true → e.1.systemId ∈ ids) {r : Receipt}
    (hr : w.recordConnection c u key options seen row event = (w', .ok (some r))) : r ∈ w'.signer.committed := by
  cases event with
  | none => cases Except.ok.inj (Prod.mk.inj hr).2
  | some event =>
      obtain ⟨event, checked, plan⟩ := event
      rw [TwoParties.recordConnection] at hr
      split at hr
      · cases (Prod.mk.inj hr).2
      · split at hr
        · cases (Prod.mk.inj hr).2
        · split at hr
          · cases (Prod.mk.inj hr).2
          · rename_i w₁ receipt heq
            obtain ⟨rfl, hreceipt⟩ := Prod.mk.inj hr
            obtain rfl := Option.some.inj (Except.ok.inj hreceipt)
            exact h.write_committed hn (presentable_continuation (hids _ rfl)) (keepsChains_saveConnection row) heq

theorem toOption_eq_some {ε α : Type} {x : Except ε α} {a : α} (h : x.toOption = some a) : x = .ok a := by
  cases x with
  | error e => cases h
  | ok b => rw [Option.some.inj h]

/-- **Every receipt an act is answered with is committed.** -/
theorem Level.answers_committed (hn : Named c ids) (h : w.Level c key options ids) {a : Act}
    (hids : ∀ s ∈ a.names, isWellFormed s.1 = true → s ∈ ids) :
    ∀ r ∈ w.answers c u key options a, r ∈ (w.act c u key options a).signer.committed := by
  intro r hr
  cases a with
  | signer event => cases hr
  | reconcileWithSigner systems => cases hr
  | createCheckpoint systemId x between now comes => cases hr
  | other op => cases hr
  | restore index => cases hr
  | createSystem systemId ts organizationId plan =>
      have hanswer := toOption_eq_some (Option.mem_toList.mp hr)
      exact h.createSystem_committed hn (hids systemId (List.mem_singleton_self _)) (Prod.ext rfl hanswer)
  | append seen event checked plan =>
      have hanswer := toOption_eq_some (Option.mem_toList.mp hr)
      exact h.append_committed hn (hids event.systemId (List.mem_singleton_self _)) (Prod.ext rfl hanswer)
  | appendBatch seen events =>
      change r ∈ (w.appendBatch c u key options seen events).2.toOption.getD [] at hr
      cases hanswer : (w.appendBatch c u key options seen events).2 with
      | error e =>
          rw [hanswer] at hr
          cases hr
      | ok receipts =>
          rw [hanswer] at hr
          exact h.appendBatch_committed hn (fun e he => hids _ (List.mem_map_of_mem he)) (Prod.ext rfl hanswer) r hr
  | recordConnection seen row event =>
      obtain ⟨answer, hanswer, rfl⟩ := Option.bind_eq_some_iff.mp (Option.mem_toList.mp hr)
      refine h.recordConnection_committed hn (fun e he => ?_) (Prod.ext rfl (toOption_eq_some hanswer))
      obtain rfl : event = some e := he
      exact hids _ (List.mem_singleton_self _)

-- ── A copy put back ──────────────────────────────────────────────────────────────

/-- **A receipt that the signer signs at once is written.** -/
theorem attempt_of_writes {w : TwoParties} {event : ChainEvent} {mode : WriteMode} {random : Randomness}
    {now : Timestamp} {prepared : Prepared} {receipt : Receipt} {db : Database}
    (hsigns : (w.signer.sign c options now none receipt.toUnsignedReceipt).2 = some (.ok receipt.sig))
    (hwrites : Writes c u key w.store.db event mode ⟨random, .ok receipt.sig.1⟩ prepared receipt db)
    (hopenings : ∀ o ∈ w.store.db.openings, ¬ (o.systemId = receipt.systemId ∧ o.seq = receipt.seq)) :
    w.attempt c u key options event mode .ok ⟨random, ⟨[], now, .answered⟩⟩
      = (w.committed ⟨db, w.store.divergences, w.store.history ++ [.wrote event prepared receipt]⟩
          (w.signer.sign c options now none receipt.toUnsignedReceipt).1, .ok receipt) := by
  have hinsert := insertReceipt_of_writes hwrites hopenings
  obtain ⟨drafted, hdraft⟩ := draftReceipt_of_new hinsert
  dsimp only at hdraft
  have hask : w.signer.ask c options ⟨[], now, .answered⟩ receipt.toUnsignedReceipt
      = ((w.signer.sign c options now none receipt.toUnsignedReceipt).1, .ok receipt.sig.1) := by
    rw [SignerSide.ask]
    dsimp only [SignerSide.run, List.foldl_nil]
    rw [show w.signer.sign c options now none receipt.toUnsignedReceipt
      = (_, some (.ok receipt.sig)) from Prod.ext rfl hsigns]
  have hasked : w.asked c u key options event mode ⟨random, ⟨[], now, .answered⟩⟩
      = ((w.signer.sign c options now none receipt.toUnsignedReceipt).1, .ok receipt.sig.1) := by
    rw [TwoParties.asked]
    dsimp only
    rw [hdraft]
    exact hask
  rw [TwoParties.attempt, hasked, attemptReceipt]
  dsimp only
  rw [hinsert]
  rfl

end TwoParties

-- ── What the signer makes of a draft ─────────────────────────────────────────────

namespace SignerSide

variable {p : SignerSide} {systems : Systems} {db : Database} {event : ChainEvent} {systemId : SystemId}

/-- A chain that is whole in the database is in sync with the signer. -/
theorem Sound.inSync (h : p.Sound c options ids) (hprocess : p.process = some systems)
    (hhere : ChainOf c db systemId (chainOf p.committed systemId)) :
    InSync c db systems systemId (chainOf p.committed systemId) :=
  ⟨hhere.1, h.memory systems hprocess systemId⟩

/-- **What is built on the whole chain is signed**, where its time is near the signer's. -/
theorem Sound.signs (h : p.Sound c options ids) (hruns : p.process ≠ none) (hkey : options.key.keyId = key.keyId)
    (hhere : ChainOf c db event.systemId (chainOf p.committed event.systemId))
    (hlength : (chainOf p.committed event.systemId).length ≤ 2 ^ 53)
    (hgenesis : event.action.kind = .genesis ↔ chainOf p.committed event.systemId = []) {prepared : Prepared}
    {unsigned : UnsignedReceipt}
    (hbuilt : buildUnsigned event (db.tipRow event.systemId) key.keyId prepared = .ok unsigned) {now : Timestamp}
    (hnear : |dateParse (tsReceivedAfter event (db.tipRow event.systemId)) - dateParse now| ≤ options.toleranceMs) :
    (p.sign c options now none unsigned).2 = some (.ok (signDigest options.key (receiptHash c unsigned))) := by
  obtain ⟨systems, hprocess⟩ := Option.ne_none_iff_exists'.mp hruns
  obtain ⟨writes, state, sig, hash, hsigned⟩ := (isSigned_iff_near (h.inSync hprocess hhere) hlength rfl hgenesis
    (hkey ▸ hbuilt) now p.volume).mpr hnear
  have hsig := (signReceipt_signed c options hsigned).sig_eq
  rw [SignerSide.sign, hprocess]
  dsimp only
  rw [hsigned, hsig]

end SignerSide

namespace TwoParties

-- ── The toy signer ───────────────────────────────────────────────────────────────

/-- A signer that has just started on an empty directory. -/
def wokenSigner (c : Crypto) : SignerSide := SignerSide.start.after c toyOptions .restart

/-- The signer once it has signed the toy genesis. -/
def openedSigner (c : Crypto) : SignerSide :=
  ((wokenSigner c).sign c toyOptions newYear none toyGenesis.toUnsignedReceipt).1

theorem wokenSigner_running (c : Crypto) : (wokenSigner c).process ≠ none := Option.some_ne_none _

theorem named_toySystem (c : Crypto) : Named c {toySystem} := by
  constructor
  · intro s hs
    rw [Set.mem_singleton_iff.mp hs]
    decide
  · rw [Set.image_singleton]
    exact Set.injOn_singleton _ _

theorem wokenSigner_sound (c : Crypto) : (wokenSigner c).Sound c toyOptions {toySystem} :=
  ((SignerSide.sound_start (c := c)).after (named_toySystem c) .restart).1

theorem wokenSigner_signs (c : Crypto) : ((wokenSigner c).sign c toyOptions newYear none
    toyGenesis.toUnsignedReceipt).2 = some (.ok toyGenesis.sig) := by
  have hhere : ChainOf c (Store.fresh toyWriter).db toySystem (chainOf (wokenSigner c).committed toySystem) :=
    ⟨by rw [Database.chainRows]; exact List.mergeSort_nil, .nil⟩
  have htip : (Store.fresh toyWriter).db.tipRow (genesisEvent toySystem newYear).systemId = none := hhere.tipRow
  have hbuilt : buildUnsigned (genesisEvent toySystem newYear) ((Store.fresh toyWriter).db.tipRow toySystem)
      toyWriter.keyId (toyPrepared toySystem.1) = .ok toyGenesis.toUnsignedReceipt := by
    rw [show (Store.fresh toyWriter).db.tipRow toySystem = none from htip]
    exact toyGenesis_built
  refine (wokenSigner_sound c).signs (wokenSigner_running c) ?_ ?_ ?_ ?_ hbuilt ?_
  · rfl
  · exact hhere
  · exact Nat.zero_le _
  · exact iff_of_true rfl rfl
  · rw [htip]
    show |dateParse newYear - dateParse newYear| ≤ ((1000 : ℕ) : ℤ)
    rw [sub_self, abs_zero]
    exact Int.natCast_nonneg _

theorem openedSigner_running (c : Crypto) : (openedSigner c).process ≠ none := by
  obtain ⟨systems, hprocess⟩ := Option.ne_none_iff_exists'.mp (wokenSigner_running c)
  have hsigns := wokenSigner_signs c
  rw [openedSigner]
  rw [SignerSide.sign, hprocess] at hsigns ⊢
  dsimp only at hsigns ⊢
  split at hsigns
  · cases Option.some.inj hsigns
  · cases hsigns
  · exact Option.some_ne_none _

theorem openedSigner_committed (c : Crypto) : (openedSigner c).committed = [toyGenesis] :=
  ((wokenSigner_sound c).signing newYear none toyGenesis.toUnsignedReceipt).commits (wokenSigner_signs c)

theorem openedSigner_sound (c : Crypto) : (openedSigner c).Sound c toyOptions {toySystem} :=
  (wokenSigner_sound c).sign (named_toySystem c) newYear none (fun _ => rfl)
    ⟨Nat.zero_le _, fun _ hr => absurd hr List.not_mem_nil, fun _ => rfl⟩

/-- The server beside the signer that has just started. -/
def woken (c : Crypto) : TwoParties := ⟨.fresh toyWriter, [], wokenSigner c⟩

/-- The two once the toy system is opened. -/
def opened (c : Crypto) : TwoParties :=
  ⟨⟨toyOpened c (Store.fresh toyWriter).db none, [],
    [.wrote (genesisEvent toySystem newYear) (toyPrepared toySystem.1) toyGenesis]⟩, [.fresh toyWriter], openedSigner c⟩

theorem createSystem_opens (hverify : verifyReceiptSignature c toyGenesis toyWriter.verificationKey = true) :
    (woken c).createSystem c u toyWriter toyOptions toySystem newYear none promptPlan = (opened c, .ok toyGenesis) := by
  have hattempt : (woken c).attempt c u toyWriter toyOptions (genesisEvent toySystem newYear) (.genesis none) .ok
      promptTry = (opened c, .ok toyGenesis) :=
    attempt_of_writes (wokenSigner_signs c) (toyGenesis_writes (noChains_fresh toyWriter) rfl hverify) (by rintro o ⟨⟩)
  rw [TwoParties.createSystem, if_neg (show ¬¬ (woken c).store.db.hasOwner none = true from not_not.mpr rfl),
    show (woken c).store.db.deletionOf toySystem = none from rfl]
  dsimp only
  rw [TwoParties.write]
  dsimp only [promptPlan]
  rw [hattempt]

theorem opened_run (hverify : verifyReceiptSignature c toyGenesis toyWriter.verificationKey = true) :
    (TwoParties.start toyWriter).run c u toyWriter toyOptions [.signer .restart, opening] = opened c := by
  show ((woken c).createSystem c u toyWriter toyOptions toySystem newYear none promptPlan).1 = opened c
  rw [createSystem_opens hverify]

-- ── A search of the toy system ───────────────────────────────────────────────────

theorem opened_here (c : Crypto) :
    ChainOf c (opened c).store.db toySystem (chainOf (opened c).signer.committed toySystem) := by
  have hcommitted : (opened c).signer.committed = [toyGenesis] := openedSigner_committed c
  have hrows : (opened c).store.db.receipts = [receiptRow c toyGenesis] := rfl
  rw [hcommitted]
  constructor
  · rw [Database.chainRows, hrows, List.filter_singleton,
      show ((receiptRow c toyGenesis).systemId == toySystem) = true from beq_self_eq_true _, cond_true,
      List.mergeSort_singleton]
    rfl
  · have hchain := ((openedSigner_sound c).committed.chain toySystem).placed
    rw [openedSigner_committed] at hchain
    exact hchain

theorem opened_tip : (opened tellingCrypto).store.db.tipRow (spanEvent (js "search")).systemId = some toyTip := by
  show (toyOpened tellingCrypto (Store.fresh toyWriter).db none).tipRow toySystem = _
  rw [tipRow_toyOpened (noChains_fresh toyWriter), tellingCrypto_genesis]
  rfl

/-- The signer signs the search. -/
theorem openedSigner_signs : ((openedSigner tellingCrypto).sign tellingCrypto toyOptions newYear none
    spanReceipt.toUnsignedReceipt).2 = some (.ok spanReceipt.sig) := by
  have hcommitted : chainOf (openedSigner tellingCrypto).committed toySystem = [toyGenesis] := by
    rw [openedSigner_committed]
    rfl
  have hbuilt : buildUnsigned (spanEvent (js "search"))
      ((opened tellingCrypto).store.db.tipRow (spanEvent (js "search")).systemId) toyWriter.keyId (toyPrepared (js "bot"))
        = .ok spanReceipt.toUnsignedReceipt := by
    rw [opened_tip]
    exact spanReceipt_built
  refine (openedSigner_sound tellingCrypto).signs (openedSigner_running tellingCrypto) ?_ ?_ ?_ ?_ hbuilt ?_
  · rfl
  · exact opened_here tellingCrypto
  · show (chainOf (openedSigner tellingCrypto).committed toySystem).length ≤ 2 ^ 53
    rw [hcommitted]
    norm_num
  · show _ ↔ chainOf (openedSigner tellingCrypto).committed toySystem = []
    rw [hcommitted]
    exact iff_of_false (by decide) (List.cons_ne_nil _ _)
  · rw [opened_tip, ← (buildUnsigned_eq_ok.mp spanReceipt_built).1.tsReceived]
    show |dateParse newYear - dateParse newYear| ≤ ((1000 : ℕ) : ℤ)
    rw [sub_self, abs_zero]
    exact Int.natCast_nonneg _

/-- The two once the search is recorded too. -/
def searched : TwoParties :=
  ⟨⟨toyWritten (Store.fresh toyWriter).db none spanReceipt, [],
      [.wrote (genesisEvent toySystem newYear) (toyPrepared toySystem.1) toyGenesis,
        .wrote (spanEvent (js "search")) (toyPrepared (js "bot")) spanReceipt]⟩,
    [.fresh toyWriter, (opened tellingCrypto).store],
    ((openedSigner tellingCrypto).sign tellingCrypto toyOptions newYear none spanReceipt.toUnsignedReceipt).1⟩

theorem opened_searches : (opened tellingCrypto).attempt tellingCrypto u toyWriter toyOptions
    (spanEvent (js "search")) .continuation .ok promptTry = (searched, .ok spanReceipt) :=
  attempt_of_writes openedSigner_signs
    (toySecond_writes (noChains_fresh toyWriter) rfl rfl spanReceipt_built rfl) (by rintro o ⟨⟩)

theorem searched_committed : searched.signer.committed = [toyGenesis, spanReceipt] := by
  have hcommits := ((openedSigner_sound tellingCrypto).signing newYear none spanReceipt.toUnsignedReceipt).commits
    openedSigner_signs
  rw [openedSigner_committed] at hcommits
  exact hcommits

-- ── The database from before ─────────────────────────────────────────────────────

/-- The database from before, beside a signer that has signed the genesis. -/
def behind : TwoParties := ⟨.fresh toyWriter, [.fresh toyWriter, (opened toyCrypto).store], openedSigner toyCrypto⟩

theorem putBack_run (u : Unicode) :
    (TwoParties.start toyWriter).run toyCrypto u toyWriter toyOptions putBack = behind := by
  show ((((woken toyCrypto).createSystem toyCrypto u toyWriter toyOptions toySystem newYear none promptPlan).1).act toyCrypto u
    toyWriter toyOptions (.restore 0)) = behind
  rw [createSystem_opens rfl]
  rfl

theorem quietViewing_answered : quietViewing.Answered toyCrypto toyOptions behind.signer where
  headComes := rfl
  running := openedSigner_running toyCrypto
  pagesCome := fun _ => rfl
  staying := fun _ => openedSigner_running toyCrypto

theorem openedSigner_trusted :
    Trusted toyCrypto toyWriter toyOptions (behind.signer.viewed toyCrypto toyOptions toySystem quietViewing).1.committed where
  keyId := rfl
  verifies := fun _ => rfl
  hashes := by
    have hcommitted : (behind.signer.viewed toyCrypto toyOptions toySystem quietViewing).1.committed = [toyGenesis] :=
      openedSigner_committed toyCrypto
    rw [hcommitted]
    rintro a ⟨r, hr, rfl⟩ b ⟨s, hs, rfl⟩ -
    rw [List.mem_singleton.mp hr, List.mem_singleton.mp hs]

-- ── Every run ────────────────────────────────────────────────────────────────────

/-- **A comparison whose answers all come brings a chain level**, in whatever state a run left it: an answer
    lost, a signature late, a copy put back.  The chain is then the one the signer has committed. -/
theorem compare_catches_up (c : Crypto) (u : Unicode) (key : WriterKey) (options : SignerOptions) (acts : List Act)
    (hsha : Set.InjOn c.sha256 (idBytes '' named acts)) (w : TwoParties)
    (hw : w = (TwoParties.start key).run c u key options acts) (systemId : SystemId) (x : Viewing)
    (hx : x.Answered c options w.signer)
    (ht : Trusted c key options (w.signer.viewed c options systemId x).1.committed)
    (hundeleted : w.store.db.deletionOf systemId = none) :
    ChainOf c (w.compare c key options systemId x).1.store.db systemId
        (chainOf (w.signer.run c options x.before).committed systemId) ∧
      ((w.compare c key options systemId x).2 = .ok .inSync ∨
        ∃ seq hash count, (w.compare c key options systemId x).2 = .ok (.recovered seq hash count)) := by
  subst hw
  exact (level_run hsha).catches_up (named_of_sha256 hsha) hx ht hundeleted

/-- The database from before is put back, and takes back the genesis it answered. -/
theorem compare_catches_up_toy :
    let w := (TwoParties.start toyWriter).run toyCrypto ⟨id, id, id⟩ toyWriter toyOptions putBack
    ChainOf toyCrypto (w.compare toyCrypto toyWriter toyOptions toySystem quietViewing).1.store.db toySystem
        (chainOf (w.signer.run toyCrypto toyOptions quietViewing.before).committed toySystem) ∧
      ((w.compare toyCrypto toyWriter toyOptions toySystem quietViewing).2 = .ok .inSync ∨
        ∃ seq hash count,
          (w.compare toyCrypto toyWriter toyOptions toySystem quietViewing).2 = .ok (.recovered seq hash count)) := by
  have hw := putBack_run ⟨id, id, id⟩
  exact compare_catches_up toyCrypto ⟨id, id, id⟩ toyWriter toyOptions putBack (putBack_injOn _) _ rfl toySystem
    quietViewing (hw ▸ quietViewing_answered) (hw ▸ openedSigner_trusted) (hw ▸ rfl)

/-- **What was answered lasts.**  A receipt that an act was answered with stays committed, whatever is done
    afterwards; and a comparison whose answers come has it in the database, where its chain was not deleted. -/
theorem answered_lasts (c : Crypto) (u : Unicode) (key : WriterKey) (options : SignerOptions)
    (before : List Act) (a : Act) (after : List Act)
    (hsha : Set.InjOn c.sha256 (idBytes '' named (before ++ a :: after))) (w : TwoParties)
    (hw : w = (TwoParties.start key).run c u key options (before ++ a :: after)) (r : Receipt)
    (hr : r ∈ ((TwoParties.start key).run c u key options before).answers c u key options a) :
    r ∈ w.signer.committed ∧ ∀ x : Viewing, x.Answered c options w.signer →
      Trusted c key options (w.signer.viewed c options r.systemId x).1.committed →
      w.store.db.deletionOf r.systemId = none →
        receiptRow c r ∈ (w.compare c key options r.systemId x).1.store.db.receipts := by
  have hn := named_of_sha256 hsha
  have hids : ∀ b ∈ before ++ a :: after, ∀ s ∈ b.names, isWellFormed s.1 = true → s ∈ named (before ++ a :: after) :=
    fun b hb s hs hwell => ⟨⟨b, hb, hs⟩, hwell⟩
  have hbefore : Level c key options (named (before ++ a :: after))
      ((TwoParties.start key).run c u key options before) :=
    (Level.start.run hn fun b hb => hids b (List.mem_append_left _ hb)).level
  have hanswered := hbefore.answers_committed hn (hids a (by simp)) r hr
  have hact := (hbefore.path hn (act_path (u := u) a (hids a (by simp)))).level
  have hlater := hact.run (u := u) hn fun b hb => hids b (List.mem_append_right _ (List.mem_cons_of_mem _ hb))
  have hsplit : w = (((TwoParties.start key).run c u key options before).act c u key options a).run c u key options
      after := by
    rw [hw, run_append]
    rfl
  rw [← hsplit] at hlater
  have hcommitted := hlater.grows.subset hanswered
  refine ⟨hcommitted, fun x hx ht hundeleted => ?_⟩
  obtain ⟨hchain, -⟩ := hlater.level.catches_up hn hx ht hundeleted
  have hgrows := (hlater.level.signer.run hn x.before).2
  exact (hchain.mem_receipts.mpr ⟨r, mem_chainOf.mpr ⟨hgrows.subset hcommitted, rfl⟩, rfl⟩).1

/-- The toy genesis was answered, and is had again once the database from before is put back. -/
theorem answered_lasts_toy :
    let w := (TwoParties.start toyWriter).run toyCrypto ⟨id, id, id⟩ toyWriter toyOptions putBack
    toyGenesis ∈ w.signer.committed ∧
      receiptRow toyCrypto toyGenesis ∈ (w.compare toyCrypto toyWriter toyOptions toySystem
        quietViewing).1.store.db.receipts := by
  have hw := putBack_run ⟨id, id, id⟩
  have hanswer : toyGenesis ∈ ((TwoParties.start toyWriter).run toyCrypto ⟨id, id, id⟩ toyWriter toyOptions
      [.signer .restart]).answers toyCrypto ⟨id, id, id⟩ toyWriter toyOptions opening := by
    show toyGenesis ∈ ((woken toyCrypto).createSystem toyCrypto ⟨id, id, id⟩ toyWriter toyOptions toySystem newYear none
      promptPlan).2.toOption.toList
    rw [createSystem_opens rfl]
    exact List.mem_singleton_self _
  obtain ⟨hcommitted, hlasts⟩ := answered_lasts toyCrypto ⟨id, id, id⟩ toyWriter toyOptions [.signer .restart] opening
    [.restore 0] (putBack_injOn _) _ rfl toyGenesis hanswer
  exact ⟨hcommitted, hlasts quietViewing (hw ▸ quietViewing_answered) (hw ▸ openedSigner_trusted) (hw ▸ rfl)⟩

end TwoParties

end Sigillo
