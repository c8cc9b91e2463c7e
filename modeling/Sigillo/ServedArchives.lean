import Sigillo.ArchiveFromStore
import Sigillo.ComparedChains
import Sigillo.IndexedDocuments

/-!
# Archives the store serves

Whatever the server and the signer do, an archive of any system, over any window that holds a receipt
and with any disclosures, is one the verifier accepts, and every checkpoint it carries is tied to its
receipts (**`TwoParties.archives_verify`**).  The signatures, the nonces and the persons are an
invariant of the store of its own (**`Servable`**); the chains and the checkpoints come from the
signer's record. -/

namespace Sigillo

open DoubleArith Utf16Text JsonText JsonSchema HexBase64 IsoTime AssocList Fallible Relation JoinedLines

variable {c : Crypto} {u : Unicode} {key : WriterKey} {options : SignerOptions}

-- ── What may be disclosed ────────────────────────────────────────────────────────

/-- **What an archive is made of, beside the chains**: every receipt is signed under the published key,
    every nonce is of a salted digest and kept once, every identifier is short enough to be disclosed. -/
structure Servable (c : Crypto) (key : WriterKey) (db : Database) : Prop where
  whole : Whole c db
  keys : db.signingKeys = [(key.keyId, key.verificationKey)]
  signed : ∀ r, receiptRow c r ∈ db.receipts →
    r.keyId = key.keyId ∧ verifyReceiptSignature c r key.verificationKey = true
  nonces : ∀ o ∈ db.openings, IsHex 64 o.nonce
  salted : ∀ o ∈ db.openings, ∀ r, receiptRow c r ∈ db.receipts → r.systemId = o.systemId → r.seq = o.seq →
    r.hashScheme o.role = some .salted
  openedOnce : db.openings.Pairwise fun a b => ¬ (a.systemId = b.systemId ∧ a.seq = b.seq ∧ a.role = b.role)
  persons : ∀ row ∈ db.subjects, 1 ≤ row.identifier.length ∧ row.identifier.length ≤ MAX_NAME

/-- The nonce of a digest is of a salted one. -/
theorem digestFor_nonce {role : ArtifactRole} {clientHash clientNonce : Option JsString} {raw : Option Json}
    {random : Nonce} {p : PreparedDigest} (h : digestFor c role clientHash raw clientNonce random = .ok p)
    {nonce : JsString} (hnonce : p.nonce = some nonce) : p.scheme = some .salted ∧ IsHex 64 nonce := by
  unfold digestFor at h
  split at h
  · cases h
  · cases clientNonce with
    | some sent =>
        dsimp only at h
        split at h
        · cases h
        · rename_i hfits
          obtain rfl := Except.ok.inj h
          dsimp only at hnonce
          split at hnonce
          · cases hnonce
          · rename_i hcustomer
            obtain rfl := Option.some.inj hnonce
            push Not at hfits
            exact ⟨rfl, hfits.2.resolve_right hcustomer⟩
    | none =>
        cases raw with
        | none =>
            obtain rfl := Except.ok.inj h
            cases hnonce
        | some value =>
            obtain ⟨hash, -, rfl⟩ := map_eq_ok.mp h
            obtain rfl := Option.some.inj hnonce
            refine ⟨rfl, ?_⟩
            have hhex := isHex_toHex random.1
            rwa [random.2] at hhex

/-- An identifier that is kept is not empty, and no longer than an archive takes. -/
theorem normaliseSubjectIdentifier_length {value identifier : JsString}
    (h : normaliseSubjectIdentifier u value = .ok identifier) :
    1 ≤ identifier.length ∧ identifier.length ≤ MAX_NAME := by
  unfold normaliseSubjectIdentifier at h
  split at h
  · cases h
  · dsimp only at h
    split at h
    · cases h
    · split at h
      · cases h
      · rename_i hempty hlong
        obtain rfl := Except.ok.inj h
        exact ⟨Nat.one_le_iff_ne_zero.mpr hempty, not_lt.mp hlong⟩

theorem pseudonymous_subject {subjects : List SubjectRow} {actor actor' : ActorInput} {ts : Timestamp}
    {random : PseudonymRandom} {row : SubjectRow}
    (h : pseudonymous u subjects actor ts random = .ok (actor', some row)) :
    1 ≤ row.identifier.length ∧ row.identifier.length ≤ MAX_NAME := by
  rw [pseudonymous] at h
  split at h
  · cases (Prod.mk.inj (Except.ok.inj h)).2
  · split at h
    · cases (Prod.mk.inj (Except.ok.inj h)).2
    · split at h
      · cases h
      · rename_i identifier hidentifier
        split at h
        · cases (Prod.mk.inj (Except.ok.inj h)).2
        · obtain rfl := Option.some.inj (Prod.mk.inj (Except.ok.inj h)).2
          exact normaliseSubjectIdentifier_length hidentifier

/-- Every receipt taken back is signed under a key that is known here. -/
theorem takeMissing_signed {db : Database} {systemId : SystemId} {headSeq seq : ℕ} {previous : Hex 64}
    {journal taken : List Receipt} (h : takeMissing c key db systemId headSeq seq previous journal = .ok taken) :
    ∀ r ∈ taken, (keyFor key db r).any (verifyReceiptSignature c r) = true := by
  induction journal generalizing seq previous taken with
  | nil =>
      obtain rfl := Except.ok.inj h
      exact fun r hr => absurd hr List.not_mem_nil
  | cons r rest ih =>
      rw [takeMissing] at h
      split at h
      · rename_i hcontinues
        rw [continuesChain, Bool.and_eq_true] at hcontinues
        split at h
        · obtain rfl := Except.ok.inj h
          exact List.forall_mem_singleton.mpr hcontinues.2
        · obtain ⟨later, hlater, rfl⟩ := map_eq_ok.mp h
          exact List.forall_mem_cons.mpr ⟨hcontinues.2, ih hlater⟩
      · cases h

/-- The rows of a receipt's nonces are of its salted digests. -/
theorem openingRows_salted {event : ChainEvent} {mode : WriteMode} {attempt : Attempt} {prepared : Prepared}
    {receipt : Receipt} {db db' : Database} (h : Writes c u key db event mode attempt prepared receipt db')
    {o : OpeningRow} (ho : o ∈ openingRows receipt (some (prepared.input, prepared.output))) :
    IsHex 64 o.nonce ∧ receipt.hashScheme o.role = some .salted := by
  obtain ⟨-, hinput, houtput⟩ := prepare_eq_ok.mp h.prepared_eq
  obtain ⟨actor, artifacts, model, hdetail, -⟩ := (records_of_buildUnsigned _ _ _ _ h.built).detail
  rcases List.mem_append.mp ho with ho | ho
  · obtain ⟨nonce, hnonce, rfl⟩ := Option.map_eq_some_iff.mp (Option.mem_toList.mp ho)
    obtain ⟨hscheme, hhex⟩ := digestFor_nonce hinput hnonce
    refine ⟨hhex, ?_⟩
    simp only [Receipt.hashScheme, hdetail]
    exact hscheme
  · obtain ⟨nonce, hnonce, rfl⟩ := Option.map_eq_some_iff.mp (Option.mem_toList.mp ho)
    obtain ⟨hscheme, hhex⟩ := digestFor_nonce houtput hnonce
    refine ⟨hhex, ?_⟩
    simp only [Receipt.hashScheme, hdetail]
    exact hscheme

namespace Servable

variable {s s' : Store} {db db' : Database}

theorem fresh (key : WriterKey) : Servable c key (Store.fresh key).db where
  whole := whole_fresh key
  keys := rfl
  signed := fun _ h => absurd h List.not_mem_nil
  nonces := fun _ h => absurd h List.not_mem_nil
  salted := fun _ h => absurd h List.not_mem_nil
  openedOnce := List.Pairwise.nil
  persons := fun _ h => absurd h List.not_mem_nil

/-- **Rows that go** leave the others as they are. -/
theorem shrink (h : Servable c key db) (hwhole : Whole c db') (hkeys : db'.signingKeys = db.signingKeys)
    (hreceipts : db'.receipts ⊆ db.receipts) (hopenings : db'.openings.Sublist db.openings)
    (hsubjects : db'.subjects ⊆ db.subjects) : Servable c key db' where
  whole := hwhole
  keys := hkeys.trans h.keys
  signed := fun r hr => h.signed r (hreceipts hr)
  nonces := fun o ho => h.nonces o (hopenings.subset ho)
  salted := fun o ho r hr => h.salted o (hopenings.subset ho) r (hreceipts hr)
  openedOnce := h.openedOnce.sublist hopenings
  persons := fun row hrow => h.persons row (hsubjects hrow)

/-- A nonce is of no receipt that stands in the way of none. -/
theorem apart (h : Servable c key db) {o : OpeningRow} (ho : o ∈ db.openings) {r : Receipt}
    (hclash : ∀ row ∈ db.receipts, ¬ Database.Clash row (receiptRow c r)) :
    ¬ (o.systemId = r.systemId ∧ o.seq = r.seq) := by
  rintro ⟨hsystem, hseq⟩
  obtain ⟨row, hrow, hrowSystem, hrowSeq⟩ := h.whole.openings o ho
  exact hclash row hrow (.inl ⟨hrowSystem.trans hsystem, hrowSeq.trans hseq⟩)

/-- **A receipt written** is signed, and its nonces are its own. -/
theorem wrote (h : Servable c key db) {event : ChainEvent} {mode : WriteMode} {attempt : Attempt}
    {prepared : Prepared} {receipt : Receipt}
    (hwrites : Writes c u key db event mode attempt prepared receipt db') : Servable c key db' := by
  have hrecords := records_of_buildUnsigned _ _ _ _ hwrites.built
  have hreceipts : db'.receipts = db.receipts ++ [receiptRow c receipt] := by rw [hwrites.db_eq]; rfl
  have hopenings : db'.openings = db.openings ++ openingRows receipt (some (prepared.input, prepared.output)) := by
    rw [hwrites.db_eq]
    rfl
  have hsubjects : db'.subjects = db.subjects ++ prepared.subject.toList := by rw [hwrites.db_eq]; rfl
  have hold : ∀ o ∈ db.openings, ¬ (o.systemId = receipt.systemId ∧ o.seq = receipt.seq) := fun o ho =>
    h.apart ho hwrites.noClash
  refine ⟨h.whole.wrote hwrites, ?_, ?_, ?_, ?_, ?_, ?_⟩
  · rw [hwrites.db_eq]
    exact h.keys
  · intro r hr
    rw [hreceipts, List.mem_append, List.mem_singleton] at hr
    rcases hr with hr | hr
    · exact h.signed r hr
    · rw [receiptRow_injective hr]
      exact ⟨hrecords.keyId, hwrites.verified⟩
  · intro o ho
    rw [hopenings, List.mem_append] at ho
    rcases ho with ho | ho
    · exact h.nonces o ho
    · exact (openingRows_salted hwrites ho).1
  · intro o ho r hr hsystem hseq
    rw [hreceipts, List.mem_append, List.mem_singleton] at hr
    rw [hopenings, List.mem_append] at ho
    rcases hr with hr | hr
    · rcases ho with ho | ho
      · exact h.salted o ho r hr hsystem hseq
      · -- a receipt that was there is not where the new one is put
        obtain ⟨hnewSystem, hnewSeq⟩ := mem_openingRows ho
        exact absurd (.inl ⟨hsystem.trans hnewSystem, hseq.trans hnewSeq⟩) (hwrites.noClash _ hr)
    · obtain rfl := receiptRow_injective hr
      rcases ho with ho | ho
      · exact absurd ⟨hsystem.symm, hseq.symm⟩ (hold o ho)
      · exact (openingRows_salted hwrites ho).2
  · rw [hopenings, List.pairwise_append]
    refine ⟨h.openedOnce, ?_, fun a ha b hb hsame => ?_⟩
    · refine (List.pairwise_map.mp (roles_openingRows receipt (some (prepared.input, prepared.output)))).imp ?_
      exact fun hroles hsame => hroles hsame.2.2
    · obtain ⟨hsystem, hseq⟩ := mem_openingRows hb
      exact hold a ha ⟨hsame.1.trans hsystem, hsame.2.1.trans hseq⟩
  · intro row hrow
    rw [hsubjects, List.mem_append] at hrow
    rcases hrow with hrow | hrow
    · exact h.persons row hrow
    · have hprepared := (prepare_eq_ok.mp hwrites.prepared_eq).1
      rw [Option.mem_toList.mp hrow] at hprepared
      exact pseudonymous_subject hprepared

/-- **Receipts taken back** are signed under the published key; they bring no nonce. -/
theorem recovered (h : Servable c key db) {systemId : SystemId} {head : Receipt} {journal : Option (List Receipt)}
    {taken : List Receipt} (hwhole : Whole c db') (hmissing : Missing c key db systemId head journal taken)
    (hrestores : Restores c db systemId taken db') : Servable c key db' := by
  have hopenings : db'.openings = db.openings := by rw [hrestores.rest]
  have hsubjects : db'.subjects = db.subjects := by rw [hrestores.rest]
  have hnew : ∀ r, receiptRow c r ∈ db'.receipts → receiptRow c r ∈ db.receipts ∨ r ∈ taken := by
    intro r hr
    rw [hrestores.receipts, List.mem_append] at hr
    refine hr.imp_right fun hr => ?_
    obtain ⟨other, hother, hsame⟩ := List.mem_map.mp hr
    exact receiptRow_injective hsame ▸ hother
  refine ⟨hwhole, ?_, fun r hr => ?_, ?_, fun o ho r hr hsystem hseq => ?_, ?_, ?_⟩
  · rw [hrestores.rest]
    exact h.keys
  · rcases hnew r hr with hr | hr
    · exact h.signed r hr
    · have hsigned := takeMissing_signed hmissing.taken_eq r hr
      rw [keyFor, Database.publicKeyFor, h.keys, List.lookup_cons, List.lookup_nil] at hsigned
      by_cases hkey : r.keyId = key.keyId
      · rw [beq_iff_eq.mpr hkey] at hsigned
        exact ⟨hkey, hsigned⟩
      · rw [beq_false_of_ne hkey, if_neg hkey] at hsigned
        cases hsigned
  · rw [hopenings]
    exact h.nonces
  · rw [hopenings] at ho
    rcases hnew r hr with hr | hr
    · exact h.salted o ho r hr hsystem hseq
    · obtain ⟨before, after, hsplit⟩ := List.append_of_mem hr
      exact absurd ⟨hsystem.symm, hseq.symm⟩ (h.apart ho fun row hrow =>
        hrestores.noClash before r after hsplit row (List.mem_append_left _ hrow))
  · rw [hopenings]
    exact h.openedOnce
  · rw [hsubjects]
    exact h.persons

/-- **Every commit keeps what may be served.** -/
theorem commit {k : Kind} (hk : k.IsOrdinary) (h : Commit c u key s k s') (hs : Servable c key s.db) :
    Servable c key s'.db := by
  have hwhole := hs.whole.commit h
  rcases hk with rfl | rfl | rfl
  · cases h with
    | wrote writes genesis => exact hs.wrote writes
  · cases h with
    | recovered ahead missing restores => exact hs.recovered hwhole missing restores
  · cases h with
    | beside h =>
        exact hs.shrink hwhole h.signingKeys (h.receipts ▸ List.Subset.refl _) (h.openings ▸ .refl _)
          (h.subjects ▸ List.Subset.refl _)

/-- **So does an operation that asks the signer for nothing.** -/
theorem perform (h : Servable c key s.db) {op : Operation} (hop : op.asksSigner = false) :
    Servable c key (perform c u key s op).db := by
  have hquiet : Quiet s.db (Sigillo.perform c u key s op).db := perform_quiet s hop
  have hwhole : Whole c (Sigillo.run c u key s [op]).db :=
    run_keeps (P := fun s => Whole c s.db) (fun _ _ _ _ h hs => hs.commit h) h.whole
  obtain ⟨gone, hreceipts, -⟩ := hquiet.gone
  exact h.shrink hwhole hquiet.signingKeys (hreceipts ▸ List.filter_sublist.subset) hquiet.openings
    hquiet.subjects.subset

end Servable

/-- **The database of every run, and every copy of it, can be served.** -/
theorem TwoParties.servable (acts : List Act) : ∀ s ∈ ((start key).run c u key options acts).store ::
    ((start key).run c u key options acts).copies, Servable c key s.db :=
  keeps (fun _ _ _ hk h hs => hs.commit hk h) (fun _ _ hop hs => hs.perform hop) (.fresh key) acts

-- ── A window of a chain ──────────────────────────────────────────────────────────

theorem mapM_rowToReceipt (receipts : List Receipt) :
    (receipts.map (receiptRow c)).mapM rowToReceipt = some receipts := by
  induction receipts with
  | nil => rfl
  | cons r rest ih =>
      rw [List.map_cons, List.mapM_cons, rowToReceipt_receiptRow, Option.bind_eq_bind, Option.bind_some, ih]
      rfl

namespace PlacedChain

variable {systemId : SystemId} {chain : List Receipt}

/-- A window of a chain: `n` receipts from position `a`. -/
theorem getElem?_window {a n i : ℕ} {r : Receipt} (hr : ((chain.drop a).take n)[i]? = some r) :
    chain[a + i]? = some r := by
  rw [List.getElem?_take] at hr
  split at hr
  · rwa [List.getElem?_drop] at hr
  · cases hr

/-- **The receipts between two positions are a window.** -/
theorem filter_between (h : PlacedChain c systemId chain) (a b : ℕ) :
    chain.filter (fun r => decide (a ≤ r.seq.1) && decide (r.seq.1 ≤ b)) = (chain.drop a).take (b + 1 - a) := by
  have hparts : chain = chain.take a ++ ((chain.drop a).take (b + 1 - a) ++ (chain.drop a).drop (b + 1 - a)) := by
    rw [List.take_append_drop, List.take_append_drop]
  conv_lhs => rw [hparts]
  rw [List.filter_append, List.filter_append]
  have hbefore : (chain.take a).filter (fun r => decide (a ≤ r.seq.1) && decide (r.seq.1 ≤ b)) = [] := by
    refine List.filter_eq_nil_iff.mpr fun r hr => ?_
    obtain ⟨n, hn⟩ := List.mem_iff_getElem?.mp hr
    rw [List.getElem?_take] at hn
    split at hn
    · rename_i hlt
      simp [h.seq_eq hn, hlt]
    · cases hn
  have hwithin : ((chain.drop a).take (b + 1 - a)).filter (fun r => decide (a ≤ r.seq.1) && decide (r.seq.1 ≤ b))
      = (chain.drop a).take (b + 1 - a) := by
    refine List.filter_eq_self.mpr fun r hr => ?_
    obtain ⟨n, hn⟩ := List.mem_iff_getElem?.mp hr
    have hlt := (List.getElem?_eq_some_iff.mp hn).1
    rw [List.length_take, lt_min_iff] at hlt
    have hseq := h.seq_eq (getElem?_window hn)
    rw [Bool.and_eq_true, decide_eq_true_eq, decide_eq_true_eq]
    omega
  have hafter : ((chain.drop a).drop (b + 1 - a)).filter (fun r => decide (a ≤ r.seq.1) && decide (r.seq.1 ≤ b))
      = [] := by
    refine List.filter_eq_nil_iff.mpr fun r hr => ?_
    obtain ⟨n, hn⟩ := List.mem_iff_getElem?.mp hr
    rw [List.getElem?_drop, List.getElem?_drop] at hn
    have hseq := h.seq_eq hn
    rw [Bool.and_eq_true, decide_eq_true_eq, decide_eq_true_eq]
    omega
  rw [hbefore, hwithin, hafter, List.nil_append, List.append_nil]

/-- **A window is a run of receipts**, as the verifier wants it. -/
theorem soundReceipts (h : PlacedChain c systemId chain) {a n : ℕ} {first : Receipt}
    (hfirst : ((chain.drop a).take n).head? = some first) : SoundReceipts c first ((chain.drop a).take n) := by
  have hmem : ∀ r ∈ (chain.drop a).take n, r ∈ chain := fun r hr =>
    List.mem_of_mem_drop (List.mem_of_mem_take hr)
  rw [List.head?_eq_getElem?] at hfirst
  have hseq : first.seq.1 = a := h.seq_eq (getElem?_window hfirst)
  refine ⟨by rw [List.head?_eq_getElem?]; exact hfirst, fun r hr => ?_, fun i r hr => ?_, fun i p r hp hr => ?_⟩
  · rw [h.system (hmem r hr), h.system (hmem first (List.mem_of_getElem? hfirst))]
  · have hat := getElem?_window hr
    have hlength := h.length_le
    have hlt := (List.getElem?_eq_some_iff.mp hat).1
    rw [h.seq_eq hat, expectedSeqAt, hseq, roundNat_of_le (by omega)]
  · have hlink := (h _ r (getElem?_window hr)).prevHash
    rwa [← Nat.add_assoc, prevHashAfter_take c (getElem?_window hp)] at hlink

end PlacedChain

/-- **What is exported is a window of the chain**, whatever the clock did. -/
theorem exportedReceipts_eq {db : Database} {systemId : SystemId} {chain : List Receipt}
    (h : ChainOf c db systemId chain) (request : ExportRequest) :
    ∃ a n, exportedReceipts db systemId request = some ((chain.drop a).take n) := by
  rw [exportedReceipts]
  split
  · refine ⟨0, chain.length, ?_⟩
    rw [Database.readChain, h.1, mapM_rowToReceipt, List.drop_zero, List.take_length]
  · rw [Database.readChainInRange]
    split
    · rename_i firstSeq lastSeq hfirst hlast
      split
      · exact ⟨0, 0, rfl⟩
      · refine ⟨firstSeq, lastSeq + 1 - firstSeq, ?_⟩
        rw [h.1, List.filter_map, mapM_rowToReceipt, ← h.2.filter_between firstSeq lastSeq]
        rfl
    · exact ⟨0, 0, rfl⟩

-- ── What is disclosed ────────────────────────────────────────────────────────────

theorem openingKey_inj {a b : OpeningEntry} (h : openingKey a = openingKey b) : a.seq = b.seq ∧ a.role = b.role := by
  have hmark : ∀ n : Count, (0x3A : UInt16) ∉ countText n.1 :=
    not_mem_countText (by rw [NumberChar]; decide)
  obtain ⟨hseq, hrole⟩ := append_mark_inj (hmark _) (hmark _) h
  exact ⟨countText_inj hseq, roleName_inj hrole⟩

theorem mem_openingsOf {db : Database} {systemId : SystemId} {seqs : List Count} {o : OpeningRow}
    (h : o ∈ db.openingsOf systemId seqs) : o ∈ db.openings ∧ o.systemId = systemId := by
  obtain ⟨seq, -, ho⟩ := List.mem_flatMap.mp h
  obtain ⟨hmem, hof⟩ := List.mem_filter.mp ((List.mergeSort_perm _ _).mem_iff.mp ho)
  rw [Bool.and_eq_true] at hof
  exact ⟨hmem, beq_iff_eq.mp hof.1⟩

/-- **No nonce is read twice.** -/
theorem openingsOf_apart {db : Database} (systemId : SystemId) (seqs : List Count)
    (h : db.openings.Pairwise fun a b => ¬ (a.systemId = b.systemId ∧ a.seq = b.seq ∧ a.role = b.role)) :
    (db.openingsOf systemId seqs).Pairwise fun a b => ¬ (a.seq = b.seq ∧ a.role = b.role) := by
  have hread : ∀ seq, ∀ o ∈ (db.openings.filter fun o => o.systemId == systemId && o.seq == seq).mergeSort
      (fun a b => lexLe a.role.name b.role.name), o.systemId = systemId ∧ o.seq = seq := by
    intro seq o ho
    have hof := (List.mem_filter.mp ((List.mergeSort_perm _ _).mem_iff.mp ho)).2
    rw [Bool.and_eq_true, beq_iff_eq, beq_iff_eq] at hof
    exact hof
  rw [Database.openingsOf, List.pairwise_flatMap]
  constructor
  · intro seq _
    have hsorted : ((db.openings.filter fun o => o.systemId == systemId && o.seq == seq).mergeSort
        (fun a b => lexLe a.role.name b.role.name)).Pairwise
          fun a b => ¬ (a.systemId = b.systemId ∧ a.seq = b.seq ∧ a.role = b.role) := by
      refine ((List.mergeSort_perm _ _).pairwise_iff ?_).mpr (h.filter _)
      exact fun hab hba => hab ⟨hba.1.symm, hba.2.1.symm, hba.2.2.symm⟩
    refine hsorted.imp_of_mem fun ha hb hab hsame => hab ⟨?_, hsame⟩
    rw [(hread seq _ ha).1, (hread seq _ hb).1]
  · have hdistinct : (seqs.dedup.mergeSort fun a b => decide (a.1 ≤ b.1)).Nodup :=
      (List.mergeSort_perm _ _).nodup_iff.mpr (List.nodup_dedup seqs)
    refine hdistinct.imp fun hne a ha b hb hsame => hne ?_
    rw [← (hread _ a ha).2, ← (hread _ b hb).2, hsame.1]

theorem nodup_distinct (items : List JsString) : (distinct items).Nodup := by
  induction items with
  | nil => exact List.nodup_nil
  | cons a rest ih =>
      refine List.nodup_cons.mpr ⟨fun h => ?_, ih.filter _⟩
      simpa using (List.mem_filter.mp h).2

theorem disclosed_token {db : Database} {systemId : SystemId} {token : JsString} {found : Pseudonym × JsString}
    (h : disclosed db systemId token = some found) :
    found.1.1 = token ∧ ∃ row ∈ db.subjects, row.identifier = found.2 := by
  rw [disclosed] at h
  split at h
  · obtain ⟨identifier, hfound, rfl⟩ := Option.map_eq_some_iff.mp h
    refine ⟨rfl, ?_⟩
    rw [Database.subjectIdentifierIn] at hfound
    split at hfound
    · obtain ⟨row, hrow, hidentifier⟩ := Option.map_eq_some_iff.mp hfound
      exact ⟨row, List.mem_of_find?_eq_some hrow, hidentifier⟩
    · cases hfound
  · cases h

/-- Each token once, however often it was asked for. -/
theorem nodup_disclosed (db : Database) (systemId : SystemId) (tokens : List JsString) :
    (((distinct tokens).filterMap (disclosed db systemId)).map fun found => found.1.1).Nodup := by
  have h := nodup_distinct tokens
  generalize distinct tokens = items at h
  induction items with
  | nil => exact List.nodup_nil
  | cons a rest ih =>
      obtain ⟨hnew, hrest⟩ := List.nodup_cons.mp h
      rw [List.filterMap_cons]
      split
      · exact ih hrest
      · rename_i found hfound
        rw [List.map_cons, (disclosed_token hfound).1]
        refine List.nodup_cons.mpr ⟨fun hmem => hnew ?_, ih hrest⟩
        obtain ⟨other, hother, hsame⟩ := List.mem_map.mp hmem
        obtain ⟨b, hb, hdisclosed⟩ := List.mem_filterMap.mp hother
        rwa [← hsame, (disclosed_token hdisclosed).1]

-- ── What the archive is made of ──────────────────────────────────────────────────

/-- **What is read fits arrays**, and every authority a token came from has a name. -/
structure Holdable (db : Database) (systemId : SystemId) : Prop where
  receipts : FitsArray (db.chainRows systemId)
  checkpoints : FitsArray (db.readCheckpoints systemId)
  tokens : FitsArray ((db.readCheckpoints systemId).flatMap fun stored => db.readTimestamps stored.id)
  authorities : ∀ row ∈ db.timestamps, 1 ≤ row.tsaUrl.length

theorem mem_readCheckpoints {db : Database} {systemId : SystemId} {stored : StoredCheckpoint}
    (h : stored ∈ db.readCheckpoints systemId) :
    ∃ row ∈ db.checkpoints, row.checkpoint = stored.checkpoint ∧ stored.checkpoint.systemId = systemId := by
  obtain ⟨row, hrow, rfl⟩ := List.mem_map.mp h
  obtain ⟨hmem, hsystem⟩ := List.mem_filter.mp ((List.mergeSort_perm _ _).mem_iff.mp hrow)
  exact ⟨row, hmem, rfl, beq_iff_eq.mp hsystem⟩

theorem checkpointInput_eq {db : Database} (h : ∀ row ∈ db.timestamps, 1 ≤ row.tsaUrl.length)
    (stored : StoredCheckpoint) : ∃ e, checkpointInput db stored = some e ∧ e.stored = stored ∧
      e.timestamps.length = (db.readTimestamps stored.id).length := by
  have hrows : ∀ row ∈ db.readTimestamps stored.id, ∃ t, storedTimestamp row = some t := by
    intro row hrow
    have hmem := (List.mem_filter.mp ((List.mergeSort_perm _ _).mem_iff.mp hrow)).1
    exact ⟨_, dif_pos (h row hmem)⟩
  obtain ⟨timestamps, htimestamps, hall⟩ := exists_mapM_eq_some hrows
  exact ⟨⟨stored, timestamps⟩, by rw [checkpointInput, htimestamps]; rfl, rfl, hall.length_eq.symm⟩

/-- The checkpoints an archive is given are those that are kept, with as many tokens. -/
theorem checkpointInputs_eq {db : Database} (h : ∀ row ∈ db.timestamps, 1 ≤ row.tsaUrl.length)
    (items : List StoredCheckpoint) : ∃ inputs, items.mapM (checkpointInput db) = some inputs ∧
      inputs.map (fun e => e.stored) = items ∧ (inputs.flatMap fun e => e.timestamps).length
        = (items.flatMap fun stored => db.readTimestamps stored.id).length := by
  induction items with
  | nil => exact ⟨[], rfl, rfl, rfl⟩
  | cons stored rest ih =>
      obtain ⟨e, he, hstored, hlength⟩ := checkpointInput_eq h stored
      obtain ⟨inputs, hinputs, hsame, htokens⟩ := ih
      refine ⟨e :: inputs, ?_, by rw [List.map_cons, hstored, hsame], ?_⟩
      · rw [List.mapM_cons, he, Option.bind_eq_bind, Option.bind_some, hinputs]
        rfl
      · rw [List.flatMap_cons, List.flatMap_cons, List.length_append, List.length_append, hlength, htokens]

theorem tokens_of_entries {found : List (Pseudonym × JsString)} {entries : List SubjectEntry}
    (h : List.Forall₂ (fun f e => subjectEntry f = some e) found entries) :
    entries.map (fun e => e.token.1) = found.map fun f => f.1.1 := by
  induction h with
  | nil => rfl
  | cons hone _ ih =>
      rw [List.map_cons, List.map_cons, ih]
      rw [subjectEntry] at hone
      split at hone
      · rw [← Option.some.inj hone]
      · cases hone

/-- **The input of an archive**, where everything that is read can stand in one. -/
structure Reads (db : Database) (key : WriterKey) (systemId : SystemId) (request : ExportRequest)
    (receipts : List Receipt) (input : ArchiveInput) : Prop where
  system : input.systemId = systemId
  receipts : input.receipts = receipts
  checkpoints : ∀ e ∈ input.checkpoints, e.stored ∈ db.readCheckpoints systemId
  keys : ∃ h, input.keys.1 = [⟨key.keyId, base64Encode key.verificationKey, h⟩]
  leaves : input.chainLeaves = some (db.readReceiptHashes systemId)
  openings : List.Forall₂ (fun o e => openingEntry o = some e) (db.openingsOf systemId request.openings) input.openings
  subjects : (input.subjects.map fun e => e.token.1).Nodup

theorem archiveInput_eq {db : Database} (h : Servable c key db) (hkey : key.verificationKey.length = 32)
    {systemId : SystemId} (hholds : Holdable db systemId) {request : ExportRequest} {receipts : List Receipt}
    (hreceipts : exportedReceipts db systemId request = some receipts) (hfits : FitsArray receipts)
    (version : SomeText) : ∃ input, archiveInput version db systemId request = some input ∧
      Reads db key systemId request receipts input := by
  have hpersons : ∀ found ∈ (distinct request.subjects).filterMap (disclosed db systemId),
      ∃ e, subjectEntry found = some e := by
    intro found hfound
    obtain ⟨token, -, hdisclosed⟩ := List.mem_filterMap.mp hfound
    obtain ⟨-, row, hrow, hidentifier⟩ := disclosed_token hdisclosed
    have hlength := h.persons row hrow
    rw [hidentifier] at hlength
    exact ⟨_, dif_pos hlength⟩
  have hnonces : ∀ o ∈ db.openingsOf systemId request.openings, ∃ e, openingEntry o = some e := fun o ho =>
    ⟨_, dif_pos (h.nonces o (mem_openingsOf ho).1)⟩
  obtain ⟨subjects, hsubjects, hallSubjects⟩ := exists_mapM_eq_some hpersons
  obtain ⟨openings, hopenings, hallOpenings⟩ := exists_mapM_eq_some hnonces
  obtain ⟨checkpoints, hcheckpoints, hsame, htokens⟩ := checkpointInputs_eq hholds.authorities
    (db.readCheckpoints systemId)
  have htext := isKeyText_encode hkey
  have hkeys : db.signingKeys.mapM publishedKey = some [⟨key.keyId, base64Encode key.verificationKey, htext⟩] := by
    rw [h.keys, List.mapM_cons, publishedKey, dif_pos htext]
    rfl
  have hcount : FitsArray checkpoints := by
    rw [FitsArray, ← List.length_map (f := fun e : CheckpointInput => e.stored), hsame]
    exact hholds.checkpoints
  have hbytes : FitsArray (checkpoints.flatMap fun e => e.timestamps) := by
    rw [FitsArray, htokens]
    exact hholds.tokens
  have hall : (FitsArray receipts ∧ FitsArray checkpoints ∧ FitsArray (checkpoints.flatMap fun e => e.timestamps)) ∧
      1 ≤ [(⟨key.keyId, base64Encode key.verificationKey, htext⟩ : ManifestKey)].length :=
    ⟨⟨hfits, hcount, hbytes⟩, le_rfl⟩
  let input : ArchiveInput := {
    sigilloVersion := version
    systemId
    receipts
    checkpoints
    keys := ⟨_, hall.2⟩
    exportedAt := request.exportedAt
    chainLeaves := some (db.readReceiptHashes systemId)
    openings
    subjects
    receipts_fit := hall.1.1
    checkpoints_fit := hall.1.2.1
    tokens_fit := hall.1.2.2 }
  refine ⟨input, ?_, ?_⟩
  · rw [archiveInput, hreceipts, Option.bind_eq_bind, Option.bind_some, hsubjects, Option.bind_eq_bind, Option.bind_some,
      hopenings, Option.bind_eq_bind, Option.bind_some, hcheckpoints, Option.bind_eq_bind, Option.bind_some, hkeys,
      Option.bind_eq_bind, Option.bind_some, dif_pos hall]
  · refine ⟨rfl, rfl, fun e he => ?_, ⟨htext, rfl⟩, rfl, hallOpenings, ?_⟩
    · rw [← hsame]
      exact List.mem_map_of_mem he
    · rw [tokens_of_entries hallSubjects]
      exact nodup_disclosed db systemId request.subjects

theorem published_key (hlength : key.verificationKey.length = 32)
    (hid : keyIdFromRawPublicKey c key.verificationKey = key.keyId.1) {h : IsKeyText (base64Encode key.verificationKey)} :
    foldEach (manifestKey c) 1 [] [⟨key.keyId, base64Encode key.verificationKey, h⟩]
      = .ok [(key.keyId, key.verificationKey)] := by
  have hraw : base64Decode (base64Encode key.verificationKey) = key.verificationKey := base64Decode_encode _
  simp only [foldEach, manifestKey, hraw, hlength, hid, ne_eq, not_true_eq_false, if_false]
  rfl

/-- The entries of the nonces that are read stand once. -/
theorem nodup_openingKeys {rows : List OpeningRow} {entries : List OpeningEntry}
    (h : List.Forall₂ (fun o e => openingEntry o = some e) rows entries)
    (hrows : rows.Pairwise fun a b => ¬ (a.seq = b.seq ∧ a.role = b.role)) : (entries.map openingKey).Nodup := by
  induction h with
  | nil => exact List.nodup_nil
  | @cons o e rows entries hone hrest ih =>
      obtain ⟨hnew, hlater⟩ := List.pairwise_cons.mp hrows
      refine List.nodup_cons.mpr ⟨fun hmem => ?_, ih hlater⟩
      obtain ⟨other, hother, hsame⟩ := List.mem_map.mp hmem
      obtain ⟨p, hp, hmade⟩ := exists_of_forall₂ hrest hother
      obtain ⟨hseq, hrole⟩ := openingKey_inj hsame
      refine hnew p hp ?_
      rw [openingEntry] at hone hmade
      split at hone
      · split at hmade
        · rw [← Option.some.inj hone, ← Option.some.inj hmade] at hseq hrole
          exact ⟨hseq.symm, hrole.symm⟩
        · cases hmade
      · cases hone

/-- The leaves an archive's proofs are made from are the hashes of the whole chain. -/
theorem Reads.leavesOf_eq {db : Database} {systemId : SystemId} {request : ExportRequest} {receipts chain : List Receipt}
    {input : ArchiveInput} (h : Reads db key systemId request receipts input) (hchain : ChainOf c db systemId chain)
    (first : Receipt) : leavesOf c input first = receiptHashes c chain := by
  rw [leavesOf, h.leaves]
  dsimp only
  rw [Database.readReceiptHashes, hchain.1, List.map_map, List.map_map]
  exact List.map_congr_left fun r _ => digestOfHex_hex _

/-- A checkpoint that is read is one the signer made of a beginning of the chain. -/
theorem Reads.attested {db : Database} {committed : List Receipt} {systemId : SystemId} {request : ExportRequest}
    {receipts chain : List Receipt} {input : ArchiveInput} (h : Reads db key systemId request receipts input)
    (hbehind : Behind c key committed db) (hchain : ChainOf c db systemId chain)
    (hbegins : chain <+: chainOf committed systemId) {e : CheckpointInput} (he : e ∈ input.checkpoints) :
    e.stored.checkpoint.systemId = systemId ∧ e.stored.checkpoint.keyId = key.keyId ∧
      verifyCheckpointSignature c e.stored.checkpoint key.verificationKey = true ∧ e.size ≤ chain.length ∧
      e.stored.checkpoint.rootHash = (merkleRoot c (receiptHashes c (chain.take e.size))).hex := by
  obtain ⟨row, hrow, hsame, hsystem⟩ := mem_readCheckpoints (h.checkpoints e he)
  have hattested := hbehind.checkpoints row hrow
  rw [hsame] at hattested
  have hwithin := hattested.within
  rw [hsystem, hchain.length_chainRows] at hwithin
  refine ⟨hsystem, hattested.keyId, hattested.verified, hwithin, ?_⟩
  obtain ⟨more, hmore⟩ := hbegins
  rw [hattested.root, hsystem, ← hmore, List.take_append_of_le_length hwithin]
  rfl

/-- A nonce that is disclosed opens a digest of the receipt it names. -/
theorem Reads.salted {db : Database} {systemId : SystemId} {request : ExportRequest} {receipts chain : List Receipt}
    {input : ArchiveInput} (h : Reads db key systemId request receipts input) (hservable : Servable c key db)
    (hchain : ChainOf c db systemId chain) {e : OpeningEntry} (he : e ∈ input.openings) {r : Receipt}
    (hr : r ∈ chain) (hsame : r.seq = e.seq) : r.hashScheme e.role = some .salted := by
  obtain ⟨o, ho, hmade⟩ := exists_of_forall₂ h.openings he
  obtain ⟨hopening, hsystem⟩ := mem_openingsOf ho
  rw [openingEntry] at hmade
  split at hmade
  · obtain rfl := Option.some.inj hmade
    exact hservable.salted o hopening r (hchain.mem_receipts.mpr ⟨r, hr, rfl⟩).1
      ((hchain.2.system hr).trans hsystem.symm) hsame
  · cases hmade

/-- **An archive of a database behind the signer** is one the verifier accepts. -/
theorem Reads.exportable {db : Database} {committed : List Receipt} {systemId : SystemId} {request : ExportRequest}
    {receipts : List Receipt} {input : ArchiveInput} {first last : Receipt}
    (h : Reads db key systemId request receipts input) (hservable : Servable c key db)
    (hbehind : Behind c key committed db) (hchains : IsChain c systemId (chainOf committed systemId))
    (hnames : ∀ r ∈ committed, NamesItself r.toUnsignedReceipt) (hlength : key.verificationKey.length = 32)
    (hid : keyIdFromRawPublicKey c key.verificationKey = key.keyId.1) (hfits : FitsArray (db.chainRows systemId))
    (hreceipts : exportedReceipts db systemId request = some receipts) (hfirst : receipts.head? = some first)
    (hlast : receipts.getLast? = some last) :
    Exportable c input [(key.keyId, key.verificationKey)] first last := by
  obtain ⟨chain, hchain, hbegins⟩ := hbehind.chains systemId
  obtain ⟨a, n, hwindow⟩ := exportedReceipts_eq hchain request
  obtain rfl := Option.some.inj (hreceipts.symm.trans hwindow)
  have hrun := hchain.2.soundReceipts hfirst
  have hmem : ∀ r ∈ (chain.drop a).take n, r ∈ chain := fun r hr =>
    List.mem_of_mem_drop (List.mem_of_mem_take hr)
  have hfirstAt : chain[a]? = some first := by
    rw [List.head?_eq_getElem?] at hfirst
    exact PlacedChain.getElem?_window hfirst
  have hseq := hchain.2.seq_eq hfirstAt
  have hrow : ∀ r ∈ chain, receiptRow c r ∈ db.receipts := fun r hr => (hchain.mem_receipts.mpr ⟨r, hr, rfl⟩).1
  have hlookup : [(key.keyId, key.verificationKey)].lookup key.keyId = some key.verificationKey := by
    rw [List.lookup_cons, beq_self_eq_true]
  have hleaves := h.leavesOf_eq hchain first
  exact {
    run := h.receipts ▸ hrun
    last := h.receipts ▸ hlast
    system := (hchain.2.system (List.mem_of_getElem? hfirstAt)).trans h.system.symm
    genesis := fun hzero => by
      obtain rfl : a = 0 := hseq.symm.trans hzero
      obtain ⟨more, hmore⟩ := hbegins
      have hat : (chainOf committed systemId)[0]? = some first := by
        rw [← hmore, List.getElem?_append_left (List.getElem?_eq_some_iff.mp hfirstAt).1]
        exact hfirstAt
      have hfollows := hchains 0 first hat
      exact ⟨hfollows.genesis.mp hzero, hnames first (mem_chainOf.mp (List.mem_of_getElem? hat)).1 hzero,
        hfollows.prevHash⟩
    published := by
      obtain ⟨hkey, heq⟩ := h.keys
      rw [heq]
      exact published_key hlength hid
    signed := fun r hr => by
      rw [h.receipts] at hr
      obtain ⟨hkey, hverified⟩ := hservable.signed r (hrow r (hmem r hr))
      exact ⟨key.verificationKey, hkey ▸ hlookup, hverified⟩
    checkpointSystem := fun e he => (h.attested hbehind hchain hbegins he).1.trans h.system.symm
    checkpointSigned := fun e he => by
      obtain ⟨-, hkey, hverified, -⟩ := h.attested hbehind hchain hbegins he
      exact ⟨key.verificationKey, hkey ▸ hlookup, hverified⟩
    rebuilt := fun e he hrebuildable => by
      obtain ⟨-, -, -, -, hroot⟩ := h.attested hbehind hchain hbegins he
      rw [h.receipts, rebuildable, Bool.and_eq_true, decide_eq_true_eq, hfirst] at hrebuildable
      obtain ⟨hzero, hsize⟩ := hrebuildable
      obtain rfl : a = 0 := by
        rw [← hseq]
        exact Option.some.inj (beq_iff_eq.mp hzero)
      rw [List.length_take] at hsize
      rw [hroot, h.receipts, recomputedRoot, List.drop_zero, List.take_take, min_eq_left (le_min_iff.mp hsize).1]
      rfl
    leaves := fun r hr _ => by
      rw [h.receipts] at hr
      obtain ⟨i, hi⟩ := List.mem_iff_getElem?.mp hr
      have hat := PlacedChain.getElem?_window hi
      rw [hleaves, receiptHashes, List.getElem?_map, hchain.2.seq_eq hat, hat]
      rfl
    leaves_fit := by
      rw [FitsArray, hleaves, length_receiptHashes, ← hchain.length_chainRows]
      exact hfits
    roots := fun e he _ => by
      obtain ⟨-, -, -, -, hroot⟩ := h.attested hbehind hchain hbegins he
      rw [hroot, hleaves, receiptHashes_take]
    salted := fun e he r hr hsame => by
      rw [h.receipts] at hr
      exact h.salted hservable hchain he (hmem r hr) hsame
    openedOnce := nodup_openingKeys h.openings (openingsOf_apart systemId request.openings hservable.openedOnce)
    namedOnce := h.subjects }

-- ── Checkpoints that are carried ─────────────────────────────────────────────────

/-- A checkpoint that is carried covers the first receipt of the window. -/
theorem lt_size_of_relevant {first last : Receipt} {checkpoints : List CheckpointInput} {e : CheckpointInput}
    (he : e ∈ relevant first last checkpoints) : first.seq.1 < e.size := by
  rw [relevant] at he
  generalize bySize checkpoints = candidates at he
  induction candidates with
  | nil => cases he
  | cons candidate rest ih =>
      rw [relevantFrom] at he
      split_ifs at he with hbefore hall
      · exact ih he
      · rw [List.mem_singleton.mp he]
        exact not_le.mp hbefore
      · rcases List.mem_cons.mp he with rfl | he
        · exact not_le.mp hbefore
        · exact ih he

theorem proofPositions_ne_nil {receipts : List Receipt} {r : Receipt} (hr : r ∈ receipts) {treeSize : ℕ}
    (h : r.seq.1 < treeSize) : proofPositions receipts treeSize ≠ [] := by
  have hmem : r ∈ receipts.filter fun r => decide (r.seq.1 < treeSize) :=
    List.mem_filter.mpr ⟨hr, decide_eq_true h⟩
  obtain ⟨first, rest, hlist⟩ := List.exists_cons_of_ne_nil (List.ne_nil_of_mem hmem)
  unfold proofPositions
  dsimp only
  rw [hlist, List.head?_cons, List.getLast?_cons]
  dsimp only
  split
  · exact List.cons_ne_nil _ _
  · exact List.cons_ne_nil _ _

/-- **A checkpoint that covers a receipt of the window is tied to it**, where all its leaves are here. -/
theorem isLinked_entryOf {receipts : List Receipt} {leaves : List Digest} {e : CheckpointInput}
    {entry : CheckpointEntry} (h : entryOf c receipts leaves e = some entry) (hsize : e.size ≤ leaves.length)
    {r : Receipt} (hr : r ∈ receipts) (hcovers : r.seq.1 < e.size) : isLinked receipts entry = true := by
  rw [entryOf, proofsFor, if_pos hsize] at h
  obtain ⟨proofs, hproofs, rfl⟩ := Option.map_eq_some_iff.mp h
  have hne : proofs ≠ [] := by
    rintro rfl
    have hpositions := proofPositions_ne_nil hr hcovers
    cases hlist : proofPositions receipts e.size with
    | nil => exact hpositions hlist
    | cons seq rest =>
        rw [hlist, List.mapM_cons] at hproofs
        obtain ⟨proof, -, hproofs⟩ := Option.bind_eq_some_iff.mp hproofs
        obtain ⟨others, -, hproofs⟩ := Option.bind_eq_some_iff.mp hproofs
        cases hproofs
  rw [isLinked, Bool.or_eq_true]
  right
  cases proofs with
  | nil => exact absurd rfl hne
  | cons proof others => rfl

-- ── Every run ────────────────────────────────────────────────────────────────────

namespace TwoParties

/-- **Every archive verifies**: in every run of the server and the signer, however requests fare and
    whatever copy is put back, what is exported of any window that holds a receipt, with any nonces and
    persons disclosed, is accepted, and every checkpoint that is carried is tied to its receipts. -/
theorem archives_verify (c : Crypto) (u : Unicode) (key : WriterKey) (options : SignerOptions) (acts : List Act)
    (hlength : key.verificationKey.length = 32) (hid : keyIdFromRawPublicKey c key.verificationKey = key.keyId.1)
    (hsha : Set.InjOn c.sha256 (idBytes '' named acts)) (w : TwoParties)
    (hw : w = (TwoParties.start key).run c u key options acts) (store : Store) (hstore : store ∈ w.store :: w.copies)
    (systemId : SystemId) (hholds : Holdable store.db systemId) (request : ExportRequest) (receipts : List Receipt)
    (hreceipts : exportedReceipts store.db systemId request = some receipts) (hsome : receipts ≠ [])
    (version : SomeText) (o : VerifyOptions) (ho : o.trustedKeyIds = none) :
    ∃ built v, archiveFromStore c version store.db systemId request = some built ∧
      verifyBundle o c built.content.files = .ok v ∧ v.receipts = receipts ∧ v.summary.systemId = systemId ∧
        v.linkedCheckpoints.map LinkedCheckpoint.entry = built.content.checkpoints := by
  have hlevel := hw ▸ level_run hsha
  have hservable : Servable c key store.db := by
    rw [hw] at hstore
    exact servable acts store hstore
  have hbehind : Behind c key w.signer.committed store.db := by
    rcases List.mem_cons.mp hstore with rfl | hcopy
    · exact hlevel.store
    · exact hlevel.copies store hcopy
  obtain ⟨chain, hchain, -⟩ := hbehind.chains systemId
  obtain ⟨a, n, hwindow⟩ := exportedReceipts_eq hchain request
  have hfits : FitsArray receipts := by
    rw [Option.some.inj (hreceipts.symm.trans hwindow)]
    refine lt_of_le_of_lt (List.length_take_le' _ _) (lt_of_le_of_lt ?_ hholds.receipts)
    rw [List.length_drop, hchain.length_chainRows]
    exact Nat.sub_le _ _
  obtain ⟨input, hinput, hreads⟩ := archiveInput_eq hservable hlength hholds hreceipts hfits version
  obtain ⟨first, rest, rfl⟩ := List.exists_cons_of_ne_nil hsome
  have hexportable := hreads.exportable hservable hbehind (hlevel.signer.committed.chain systemId)
    hlevel.signer.names hlength hid hholds.receipts hreceipts rfl (List.getLast?_eq_some_getLast hsome)
  obtain ⟨built, hbuilt, hsame, hvalid, hentries⟩ := built_valid ho hexportable
  rw [hreads.receipts] at hsame
  refine ⟨built, _, by rw [archiveFromStore, hinput]; exact hbuilt, hvalid.verifyBundle_files, hsame, ?_, ?_⟩
  · have hsystem := hvalid.system first (hsame ▸ List.mem_cons_self)
    exact hsystem.symm.trans (hexportable.system.trans hreads.system)
  · -- the leaves of every tree are here, so that every checkpoint has its proofs
    rw [Export.verified, Export.linked_state, List.filter_eq_self]
    intro entry hentry
    obtain ⟨e, he, hmade⟩ := exists_of_forall₂ hentries hentry
    have hrow := mem_of_mem_relevant he
    obtain ⟨row, hcheckpoint, hstored, hsystem⟩ := mem_readCheckpoints (hreads.checkpoints e hrow)
    have hwithin := (hbehind.checkpoints row hcheckpoint).within
    rw [hstored, hsystem, hchain.length_chainRows] at hwithin
    rw [hsame]
    rw [hreads.receipts] at hmade
    refine isLinked_entryOf hmade ?_ List.mem_cons_self (lt_size_of_relevant he)
    rw [hreads.leavesOf_eq hchain, length_receiptHashes]
    exact hwithin

/-- The whole chain of the toy system, and the nonces of its genesis, if there were any. -/
def toyRequest : ExportRequest := ⟨none, none, [], [⟨0, isCount_zero⟩], newYear⟩

theorem opened_exports (c : Crypto) : exportedReceipts (opened c).store.db toySystem toyRequest = some [toyGenesis] := by
  have hrows := (opened_here c).1
  rw [show (opened c).signer.committed = [toyGenesis] from openedSigner_committed c] at hrows
  rw [exportedReceipts, if_pos ⟨rfl, rfl⟩, Database.readChain, hrows]
  exact mapM_rowToReceipt [toyGenesis]

theorem opened_holdable (c : Crypto) : Holdable (opened c).store.db toySystem where
  receipts := by
    rw [FitsArray, (opened_here c).length_chainRows, show (opened c).signer.committed = [toyGenesis] from
      openedSigner_committed c]
    exact lt_of_le_of_lt (List.length_filter_le _ _) (by decide)
  checkpoints := by
    rw [Database.readCheckpoints]
    simp [opened, toyOpened, Store.fresh, Database.fresh, addReceipt]
  tokens := by
    rw [Database.readCheckpoints]
    simp [opened, toyOpened, Store.fresh, Database.fresh, addReceipt]
  authorities := fun _ h => absurd h List.not_mem_nil

/-- The toy system is opened, and its archive verifies. -/
theorem archives_verify_toy : ∃ built v, archiveFromStore toyCrypto ⟨js "0", by decide⟩
      (opened toyCrypto).store.db toySystem toyRequest = some built ∧
    verifyBundle anyKey toyCrypto built.content.files = .ok v ∧ v.receipts = [toyGenesis] ∧
      v.summary.systemId = toySystem ∧
        v.linkedCheckpoints.map LinkedCheckpoint.entry = built.content.checkpoints := by
  have hsha : Set.InjOn toyCrypto.sha256 (idBytes '' named [.signer .restart, opening]) := by
    refine injOn_of_names (fun a ha s hs => ?_) toyCrypto
    rcases List.mem_pair.mp ha with rfl | rfl
    · cases hs
    · exact List.mem_singleton.mp hs
  have hrun := opened_run (u := ⟨id, id, id⟩) (c := toyCrypto) rfl
  exact archives_verify toyCrypto ⟨id, id, id⟩ toyWriter toyOptions [.signer .restart, opening] (by decide) rfl hsha _
    hrun.symm _ List.mem_cons_self toySystem (opened_holdable _) toyRequest [toyGenesis] (opened_exports _)
    (List.cons_ne_nil _ _) _ anyKey rfl

end TwoParties

end Sigillo
