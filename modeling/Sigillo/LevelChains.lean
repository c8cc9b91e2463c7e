import Sigillo.TwoPartySteps

/-!
# The chains of the two parties

However requests fare, whoever dies and whatever copy is put back, a chain of the database is the
beginning of the chain the signer committed (**`databases_behind`**): a receipt comes to the database
only as the one the signer has just committed after it, or from the signer's own record. -/

namespace Sigillo

open DoubleArith Utf16Text JsonText JsonSchema HexBase64 IsoTime FileVolume AssocList Fallible

variable {c : Crypto} {u : Unicode} {key : WriterKey} {options : SignerOptions} {ids : Set SystemId}

-- ── A database behind the signer ─────────────────────────────────────────────────

/-- **A checkpoint of a chain**: signed under the server's key, over no more receipts than are here, and
    with the root of the committed chain's first ones. -/
structure Attested (c : Crypto) (key : WriterKey) (committed : List Receipt) (db : Database)
    (checkpoint : Checkpoint) : Prop where
  keyId : checkpoint.keyId = key.keyId
  verified : verifyCheckpointSignature c checkpoint key.verificationKey = true
  within : checkpoint.treeSize.1 ≤ (db.chainRows checkpoint.systemId).length
  root : checkpoint.rootHash = (merkleRoot c (receiptHashes c
    ((chainOf committed checkpoint.systemId).take checkpoint.treeSize.1))).hex

/-- **A database behind the signer**: its chains are beginnings of what is committed, its checkpoints
    of trees of them, and no system of it is without a receipt. -/
structure Behind (c : Crypto) (key : WriterKey) (committed : List Receipt) (db : Database) : Prop where
  whole : Whole c db
  chains : ∀ systemId, ∃ chain, ChainOf c db systemId chain ∧ chain <+: chainOf committed systemId
  checkpoints : ∀ row ∈ db.checkpoints, Attested c key committed db row.checkpoint
  known : db.publicKeyFor key.keyId = some key.verificationKey
  manned : ∀ record ∈ db.systems, ∃ row ∈ db.receipts, row.systemId = record.systemId

theorem ChainOf.length_chainRows {db : Database} {systemId : SystemId} {chain : List Receipt}
    (h : ChainOf c db systemId chain) : (db.chainRows systemId).length = chain.length := by
  rw [h.1, List.length_map]

/-- A chain is longer where rows are added. -/
theorem length_chainRows_le {db db' : Database} {more : List ReceiptRow}
    (h : db'.receipts = db.receipts ++ more) (systemId : SystemId) :
    (db.chainRows systemId).length ≤ (db'.chainRows systemId).length := by
  rw [Database.chainRows, Database.chainRows, List.length_mergeSort, List.length_mergeSort, h, List.filter_append,
    List.length_append]
  exact Nat.le_add_right _ _

/-- The checkpoint stands while its chain is no shorter. -/
theorem Attested.frame {committed : List Receipt} {db db' : Database} {checkpoint : Checkpoint}
    (h : Attested c key committed db checkpoint)
    (hlength : (db.chainRows checkpoint.systemId).length ≤ (db'.chainRows checkpoint.systemId).length) :
    Attested c key committed db' checkpoint :=
  { h with within := h.within.trans hlength }

namespace Behind

variable {committed more : List Receipt} {db db' : Database}

/-- A checkpoint is of no more than is committed. -/
theorem size_le (h : Behind c key committed db) {row : CheckpointRow} (hrow : row ∈ db.checkpoints) :
    row.checkpoint.treeSize.1 ≤ (chainOf committed row.checkpoint.systemId).length := by
  obtain ⟨chain, hchain, hbegins⟩ := h.chains row.checkpoint.systemId
  have hwithin := (h.checkpoints row hrow).within
  rw [hchain.length_chainRows] at hwithin
  exact hwithin.trans hbegins.length_le

theorem fresh (key : WriterKey) : Behind c key [] (Store.fresh key).db where
  whole := whole_fresh key
  chains systemId := ⟨[], ⟨by rw [Database.chainRows]; exact List.mergeSort_nil, .nil⟩, List.nil_prefix⟩
  checkpoints := fun _ h => absurd h List.not_mem_nil
  known := by
    show List.lookup key.keyId [(key.keyId, key.verificationKey)] = _
    rw [List.lookup_cons_self]
  manned := fun _ h => absurd h List.not_mem_nil

/-- What the signer commits more leaves it behind. -/
theorem mono (h : Behind c key committed db) (hmore : committed <+: more) : Behind c key more db where
  whole := h.whole
  chains systemId := by
    obtain ⟨chain, hchain, hbegins⟩ := h.chains systemId
    exact ⟨chain, hchain, hbegins.trans (chainOf_prefixes hmore systemId)⟩
  checkpoints row hrow := by
    have hattested := h.checkpoints row hrow
    refine { hattested with root := ?_ }
    obtain ⟨rest, hrest⟩ := chainOf_prefixes hmore row.checkpoint.systemId
    rw [← hrest, List.take_append_of_le_length (h.size_le hrow)]
    exact hattested.root
  known := h.known
  manned := h.manned

/-- A change beside the chains. -/
theorem beside (h : Behind c key committed db) (hchange : Beside db db')
    (hcheckpoints : db'.checkpoints = db.checkpoints) : Behind c key committed db' where
  whole := h.whole.frame hchange.receipts (fun _ ho => hchange.openings ▸ ho) hchange.systems
  chains systemId := by
    obtain ⟨chain, ⟨hrows, hplaced⟩, hbegins⟩ := h.chains systemId
    exact ⟨chain, ⟨(Database.chainRows_of_receipts hchange.receipts).trans hrows, hplaced⟩, hbegins⟩
  checkpoints row hrow := (h.checkpoints row (hcheckpoints ▸ hrow)).frame
    (length_chainRows_le (hchange.receipts.trans (List.append_nil _).symm) _)
  known := by
    rw [Database.publicKeyFor, hchange.signingKeys]
    exact h.known
  manned record hrecord := by
    have hmem : record.systemId ∈ db.systems.map (·.systemId) := hchange.systems ▸ List.mem_map_of_mem hrecord
    obtain ⟨before, hbefore, hsame⟩ := List.mem_map.mp hmem
    obtain ⟨row, hrow, hid⟩ := h.manned before hbefore
    exact ⟨row, hchange.receipts ▸ hrow, hid.trans hsame⟩

/-- **What the store does without the signer** leaves it behind. -/
theorem quiet (h : Behind c key committed db) (hwhole : Whole c db') (hquiet : Quiet db db') :
    Behind c key committed db' := by
  obtain ⟨gone, hreceipts, hsystems, hcheckpoints⟩ := hquiet.gone
  have hrows : ∀ systemId, gone systemId = false → db'.chainRows systemId = db.chainRows systemId := by
    intro systemId hkept
    rw [Database.chainRows, Database.chainRows, hreceipts, List.filter_filter]
    congr 1
    refine List.filter_congr fun row _ => ?_
    by_cases hrow : row.systemId = systemId
    · rw [hrow, hkept, Bool.not_false, Bool.and_true]
    · rw [beq_false_of_ne hrow, Bool.false_and]
  constructor
  case whole => exact hwhole
  case chains =>
    intro systemId
    by_cases hgone : gone systemId = true
    · refine ⟨[], ⟨?_, .nil⟩, List.nil_prefix⟩
      rw [Database.chainRows, hreceipts, List.filter_filter, List.filter_eq_nil_iff.mpr]
      · exact List.mergeSort_nil
      · intro row _ hrow
        rw [Bool.and_eq_true, beq_iff_eq] at hrow
        rw [hrow.1, hgone] at hrow
        exact absurd hrow.2 Bool.false_ne_true
    · obtain ⟨chain, ⟨hchain, hplaced⟩, hbegins⟩ := h.chains systemId
      exact ⟨chain, ⟨(hrows systemId (eq_false_of_ne_true hgone)).trans hchain, hplaced⟩, hbegins⟩
  case checkpoints =>
    intro row hrow
    obtain ⟨hmem, hkept⟩ := hcheckpoints row hrow
    exact (h.checkpoints row hmem).frame (hrows _ hkept ▸ le_rfl)
  case known =>
    rw [Database.publicKeyFor, hquiet.signingKeys]
    exact h.known
  case manned =>
    intro record hrecord
    have hmem : record.systemId ∈ db'.systems.map (·.systemId) := List.mem_map_of_mem hrecord
    rw [hsystems, List.mem_filter] at hmem
    obtain ⟨hmem, hkept⟩ := hmem
    obtain ⟨before, hbefore, hsame⟩ := List.mem_map.mp hmem
    obtain ⟨row, hrow, hid⟩ := h.manned before hbefore
    refine ⟨row, ?_, hid.trans hsame⟩
    rw [hreceipts, List.mem_filter]
    refine ⟨hrow, ?_⟩
    rw [hid, hsame]
    exact hkept

-- ── A receipt written ────────────────────────────────────────────────────────────

/-- **A receipt that the signer has just committed** stands in both chains at one place. -/
theorem wrote (h : Behind c key committed db) {event : ChainEvent} {mode : WriteMode} {attempt : Attempt}
    {prepared : Prepared} {receipt : Receipt}
    (hwrites : Writes c u key db event mode attempt prepared receipt db')
    (hnext : receipt.seq.1 = (chainOf committed receipt.systemId).length) :
    Behind c key (committed ++ [receipt]) db' := by
  have hsystem : receipt.systemId = event.systemId :=
    (records_of_buildUnsigned _ _ _ _ hwrites.built).systemId
  have hrows : db'.receipts = db.receipts ++ [receiptRow c receipt] := by rw [hwrites.db_eq]; rfl
  have hgrown := h.mono (List.prefix_append committed [receipt])
  constructor
  case whole => exact h.whole.wrote hwrites
  case chains =>
    intro systemId
    by_cases hown : systemId = event.systemId
    · subst hown
      obtain ⟨chain, hchain, hbegins⟩ := h.chains event.systemId
      have hplaced := Whole.placed hwrites hchain
      have hall : chain = chainOf committed event.systemId :=
        hbegins.eq_of_length (by rw [← hplaced.seq, hnext, hsystem])
      refine ⟨_, hchain.append hplaced hrows, ?_⟩
      rw [hall, ← hsystem, chainOf_append_self]
    · obtain ⟨chain, hchain, hbegins⟩ := hgrown.chains systemId
      refine ⟨chain, ⟨(Database.chainRows_append_of_ne hrows ?_).trans hchain.1, hchain.2⟩, hbegins⟩
      intro row hrow
      rw [List.mem_singleton.mp hrow]
      exact fun hsame => hown (hsame.symm.trans hsystem)
  case checkpoints =>
    have hcheckpoints : db'.checkpoints = db.checkpoints := by rw [hwrites.db_eq]; rfl
    intro row hrow
    exact (hgrown.checkpoints row (hcheckpoints ▸ hrow)).frame (length_chainRows_le hrows _)
  case known =>
    rw [hwrites.db_eq]
    exact h.known
  case manned =>
    have hkept : ∀ record ∈ db.systems, ∃ row ∈ db'.receipts, row.systemId = record.systemId := by
      intro record hrecord
      obtain ⟨row, hrow, hsame⟩ := h.manned record hrecord
      exact ⟨row, hrows ▸ List.mem_append_left _ hrow, hsame⟩
    intro record hrecord
    have hsystems : db'.systems = systemsAfter db event mode := by rw [hwrites.db_eq]; rfl
    rw [hsystems] at hrecord
    cases mode with
    | continuation => exact hkept record hrecord
    | genesis organizationId =>
        rcases List.mem_append.mp hrecord with hrecord | hrecord
        · exact hkept record hrecord
        · rw [List.mem_singleton.mp hrecord, hrows]
          exact ⟨_, List.mem_append_right _ (List.mem_singleton_self _), hsystem⟩

-- ── Receipts taken back ──────────────────────────────────────────────────────────

/-- **What is taken back from the signer's record** carries the chain on as the record does. -/
theorem recovered (h : Behind c key committed db) {systemId : SystemId} {head : Receipt}
    {journal : Option (List Receipt)} {taken : List Receipt}
    (hmissing : Missing c key db systemId head journal taken) (hrestores : Restores c db systemId taken db')
    (htold : ∀ chain, ChainOf c db systemId chain → chain <+: chainOf committed systemId →
      chain ++ taken <+: chainOf committed systemId) : Behind c key committed db' := by
  have hnone : taken ≠ [] := by
    obtain ⟨last, hlast, -⟩ := hmissing.last
    rintro rfl
    cases hlast
  have hown : ∀ r ∈ taken, r.systemId = systemId := by
    obtain ⟨chain, hchain, hbegins⟩ := h.chains systemId
    intro r hr
    exact (mem_chainOf.mp ((htold chain hchain hbegins).subset (List.mem_append_right _ hr))).2
  constructor
  case whole => exact h.whole.recovered hmissing hrestores
  case chains =>
    intro other
    by_cases hsame : other = systemId
    · subst hsame
      obtain ⟨chain, hchain, hbegins⟩ := h.chains other
      have hplaced : PlacedChain c other (chain ++ taken) := by
        refine placedChain_takeMissing hchain.2 ?_ hchain.prevHash hmissing.taken_eq
        rw [firstMissingOf_eq_seqAfter, hchain.seqAfter]
      exact ⟨_, hchain.appendAll hplaced hrestores.receipts, htold chain hchain hbegins⟩
    · obtain ⟨chain, hchain, hbegins⟩ := h.chains other
      refine ⟨chain, ⟨(Database.chainRows_append_of_ne hrestores.receipts ?_).trans hchain.1, hchain.2⟩, hbegins⟩
      intro row hrow
      obtain ⟨r, hr, rfl⟩ := List.mem_map.mp hrow
      exact fun heq => hsame (heq.symm.trans (hown r hr))
  case checkpoints =>
    have hcheckpoints : db'.checkpoints = db.checkpoints := by rw [hrestores.rest]
    intro row hrow
    exact (h.checkpoints row (hcheckpoints ▸ hrow)).frame (length_chainRows_le hrestores.receipts _)
  case known =>
    rw [hrestores.rest]
    exact h.known
  case manned =>
    intro record hrecord
    obtain ⟨added, hsystems, hadded⟩ := hrestores.systems
    rw [hrestores.receipts]
    rw [hsystems] at hrecord
    rcases List.mem_append.mp hrecord with hrecord | hrecord
    · obtain ⟨row, hrow, hsame⟩ := h.manned record hrecord
      exact ⟨row, List.mem_append_left _ hrow, hsame⟩
    · obtain ⟨r, hr⟩ := List.exists_mem_of_ne_nil _ hnone
      exact ⟨receiptRow c r, List.mem_append_right _ (List.mem_map_of_mem hr),
        (hown r hr).trans (hadded record hrecord).1.symm⟩

end Behind

-- ── What a comparison takes ──────────────────────────────────────────────────────

/-- **Pages that are stretches of one list** join into a stretch of it. -/
theorem fetchJournal_prefix {page : ℕ → Except StoreError (List Receipt)} {told : List Receipt}
    (hpage : ∀ start receipts, page start = .ok receipts → receipts <+: told.drop start)
    {firstMissing wanted pages : ℕ} {journal all : List Receipt} (hjournal : journal <+: told.drop firstMissing)
    (h : fetchJournal page firstMissing wanted pages journal = some all) : all <+: told.drop firstMissing := by
  induction pages generalizing journal with
  | zero =>
      obtain rfl := Option.some.inj h
      exact hjournal
  | succ pages ih =>
      rw [fetchJournal] at h
      split at h
      · obtain rfl := Option.some.inj h
        exact hjournal
      · split at h
        · cases h
        · obtain rfl := Option.some.inj h
          exact hjournal
        · rename_i r rest hreceipts
          refine ih ?_ h
          have hnext := hpage _ _ hreceipts
          rw [← List.drop_drop] at hnext
          obtain ⟨later, hlater⟩ := hjournal
          rw [← hlater, List.drop_left] at hnext
          obtain ⟨more, hmore⟩ := hnext
          exact ⟨more, by rw [← hlater, ← hmore, List.append_assoc]⟩

namespace SignerSide.Tells

variable {systemId : SystemId} {committed : List Receipt} {view : SignerView}

/-- The head told is the receipt committed at its position. -/
theorem at_head (h : Tells systemId committed view) (hchain : IsChain c systemId (chainOf committed systemId))
    {head : Receipt} (hhead : view.head = .ok (some head)) :
    (chainOf committed systemId)[head.seq.1]? = some head := by
  obtain ⟨before, hbefore, hlast⟩ := h.head _ hhead
  obtain ⟨rest, hrest⟩ := chainOf_prefixes hbefore systemId
  obtain ⟨n, hn⟩ := List.mem_iff_getElem?.mp (List.mem_of_getLast? hlast.symm)
  have hat : (chainOf committed systemId)[n]? = some head := by
    rw [← hrest, List.getElem?_append_left (List.getElem?_eq_some_iff.mp hn).1]
    exact hn
  rwa [hchain.seq_eq hat]

/-- **What is taken from a signer that tells the truth** is what it committed next. -/
theorem taken (h : Tells systemId committed view) (hchain : IsChain c systemId (chainOf committed systemId))
    {db : Database} {head : Receipt} (hhead : view.head = .ok (some head)) {taken : List Receipt}
    (hmissing : Missing c key db systemId head (journalFrom view head (db.tipRow systemId)) taken)
    {chain : List Receipt} (hhere : ChainOf c db systemId chain)
    (hbegins : chain <+: chainOf committed systemId) : chain ++ taken <+: chainOf committed systemId := by
  have hfirst : firstMissingOf (db.tipRow systemId) = chain.length := by
    rw [firstMissingOf_eq_seqAfter, hhere.seqAfter]
  have htaken := takeMissing_isPrefix hmissing.taken_eq
  have hoffered : (if head.seq.1 = firstMissingOf (db.tipRow systemId) then [head]
      else (journalFrom view head (db.tipRow systemId)).getD [])
      <+: (chainOf committed systemId).drop chain.length := by
    rw [hfirst]
    by_cases hnext : head.seq.1 = chain.length
    · rw [if_pos hnext]
      obtain ⟨hlt, hat⟩ := List.getElem?_eq_some_iff.mp (h.at_head hchain hhead)
      rw [← hnext, List.drop_eq_getElem_cons hlt, hat]
      exact List.prefix_append [head] _
    · rw [if_neg hnext, journalFrom, hfirst]
      split
      · cases hpage : view.receipts with
        | none => exact List.nil_prefix
        | some page =>
            rw [Option.bind_some]
            cases hall : fetchJournal page chain.length (head.seq.1 - chain.length + 1)
                (head.seq.1 - chain.length + 1) [] with
            | none => exact List.nil_prefix
            | some all => exact fetchJournal_prefix (h.page page hpage) List.nil_prefix hall
      · exact List.nil_prefix
  obtain ⟨rest, hrest⟩ := hbegins
  have hnext := htaken.trans hoffered
  rw [← hrest, List.drop_left] at hnext
  rw [← hrest]
  exact (List.prefix_append_right_inj chain).mpr hnext

end SignerSide.Tells

theorem recordDivergence_behind {committed : List Receipt} {s : Store} (h : Behind c key committed s.db)
    (systemId : SystemId) (detail : JsString) (ts : Timestamp) :
    Behind c key committed (recordDivergence s systemId detail ts).db := by
  rw [recordDivergence]
  by_cases hknown : s.divergences.lookup systemId = some detail
  · rw [if_pos hknown]
    exact h
  · rw [if_neg hknown]
    exact h.beside (Beside.refl.logAdmin (by decide) (by decide) _ _ _ _) rfl

/-- **A comparison leaves a database behind the signer that tells the truth.** -/
theorem reconcileNow_behind {committed : List Receipt} {s : Store} (h : Behind c key committed s.db)
    {systemId : SystemId} {view : SignerView} (htells : SignerSide.Tells systemId committed view)
    (hchain : IsChain c systemId (chainOf committed systemId)) :
    Behind c key committed (reconcileNow c key s systemId view).1.db := by
  have hreconciles : Reconciles c key s systemId view (reconcileNow c key s systemId view) :=
    reconcileNow_reconciles s systemId view
  generalize reconcileNow c key s systemId view = out at hreconciles ⊢
  cases hreconciles with
  | failed e => exact h
  | inSync level => exact h
  | diverged detail => exact recordDivergence_behind h systemId detail _
  | recovered head taken db ahead missing restored =>
      exact h.recovered missing (restores_of_foldlM restored)
        fun chain hhere hbegins => htells.taken hchain ahead missing hhere hbegins

/-- What the rows of a chain hash to. -/
theorem chainDigests_of_chainOf {db : Database} {systemId : SystemId} {chain : List Receipt}
    (h : ChainOf c db systemId chain) : chainDigests db systemId = receiptHashes c chain := by
  rw [chainDigests, h.1, List.map_map]
  exact List.map_congr_left fun r _ => digestOfHex_hex _

/-- A checkpoint of the whole chain that is here. -/
theorem Behind.checkpointed {committed : List Receipt} {db db' : Database} (h : Behind c key committed db)
    {checkpoint : Checkpoint} (hkey : checkpoint.keyId = key.keyId)
    (hverified : verifyCheckpointSignature c checkpoint key.verificationKey = true) (hsize : checkpoint.treeSize.1 = (chainDigests db checkpoint.systemId).length)
    (hroot : checkpoint.rootHash = (merkleRoot c (chainDigests db checkpoint.systemId)).hex)
    (hinsert : insertCheckpoint db checkpoint = .ok db') : Behind c key committed db' := by
  obtain ⟨checkpoints, hrow, rfl⟩ := map_eq_ok.mp hinsert
  obtain ⟨-, hcheckpoints⟩ := Database.insertRowInto_eq_ok.mp hrow
  refine { whole := h.whole.frame rfl (List.Subset.refl _) rfl, chains := h.chains, checkpoints := ?_,
           known := h.known, manned := h.manned }
  intro row hmem
  change row ∈ checkpoints at hmem
  rw [hcheckpoints] at hmem
  rcases List.mem_append.mp hmem with hmem | hmem
  · exact { h.checkpoints row hmem with }
  · rw [List.mem_singleton.mp hmem]
    obtain ⟨chain, hchain, hbegins⟩ := h.chains checkpoint.systemId
    rw [chainDigests_of_chainOf hchain] at hsize hroot
    rw [length_receiptHashes] at hsize
    refine ⟨hkey, hverified, ?_, ?_⟩
    · exact (hsize.trans hchain.length_chainRows.symm).le
    · rw [hsize, ← List.prefix_iff_eq_take.mp hbegins]
      exact hroot

/-- **A checkpoint is stored of the tree the signer committed.** -/
theorem createCheckpoint_behind {committed : List Receipt} {s : Store} (h : Behind c key committed s.db)
    {systemId : SystemId} {view : SignerView} (htells : SignerSide.Tells systemId committed view)
    (hchain : IsChain c systemId (chainOf committed systemId)) (reply : Except StoreError Checkpoint) :
    Behind c key committed (createCheckpoint c key s systemId view reply).1.db := by
  have hfirst := reconcileNow_behind h htells hchain
  rw [createCheckpoint]
  split
  · rename_i heq
    rwa [heq] at hfirst
  · rename_i heq
    rwa [heq] at hfirst
  · rename_i s₁ outcome hnot heq
    rw [heq] at hfirst
    dsimp only
    split
    · exact hfirst
    · split
      · exact hfirst
      · split
        · exact hfirst
        · rename_i checkpoint
          split
          · exact hfirst
          · rename_i hverified
            split
            · exact recordDivergence_behind hfirst systemId _ _
            · rename_i hcovers
              split
              · exact hfirst
              · rename_i db hinsert
                rw [not_not] at hverified hcovers
                obtain ⟨hsystem, hkey, hsignature⟩ := hverified
                obtain ⟨hsize, hroot⟩ := hcovers
                rw [← hsystem] at hsize hroot
                exact hfirst.checkpointed hkey hsignature hsize hroot hinsert

-- ── What the server asks a signature for ─────────────────────────────────────────

/-- The position a receipt states is the next one, or the last that is a number. -/
theorem seq_of_ofNat {n : ℕ} (hn : n ≤ 2 ^ 53 + 1) {seq : Count}
    (h : JsNumber.ofNat n = .fin seq.1 seq.2.1) : seq.1 = n ∨ seq.1 = 2 ^ 53 ∧ n = 2 ^ 53 + 1 := by
  by_cases hfits : n ≤ 2 ^ 53
  · rw [JsNumber.ofNat_of_isDouble (isDouble_natCast hfits), JsNumber.fin.injEq] at h
    have hseq : n = seq.1 := by exact_mod_cast h
    exact .inl hseq.symm
  · have hlast : n = 2 ^ 53 + 1 := le_antisymm hn (by omega)
    have hround : JsNumber.ofNat (2 ^ 53 + 1) = .fin (2 ^ 53 : ℕ) (isDouble_natCast le_rfl) := by
      decide +kernel
    rw [hlast, hround, JsNumber.fin.injEq] at h
    have hseq : 2 ^ 53 = seq.1 := by exact_mod_cast h
    exact .inr ⟨hseq.symm, hlast⟩

/-- **What is drafted may still be signed**: its span is on no receipt before its place. -/
theorem Behind.unsaid {committed : List Receipt} {db db' : Database} (h : Behind c key committed db)
    {event : ChainEvent} {mode : WriteMode} {random : Randomness} {prepared : Prepared}
    {unsigned : UnsignedReceipt} (hopens : OpensByName event mode)
    (hdraft : draftReceipt c u key db event mode random = .ok (db', .unsigned prepared unsigned)) :
    unsigned.systemId = event.systemId ∧ Unsaid committed unsigned := by
  obtain ⟨hdup, hplaced, -, -, hbuilt⟩ := draftReceipt_unsigned hdraft
  have hrecords := records_of_buildUnsigned _ _ _ _ hbuilt
  obtain ⟨chain, hchain, hbegins⟩ := h.chains event.systemId
  have hseq := hrecords.seq
  rw [hchain.seqAfter] at hseq
  have hplace := seq_of_ofNat hchain.2.length_le hseq
  have hat : unsigned.seq.1 ≤ chain.length := by omega
  refine ⟨hrecords.systemId, ⟨?_, ?_, ?_⟩⟩
  · rw [hrecords.systemId]
    exact hat.trans hbegins.length_le
  · rw [hrecords.systemId]
    intro r hr hspan
    -- before the place the signer's chain is the one that is here
    obtain ⟨rest, hrest⟩ := hbegins
    rw [← hrest, List.take_append_of_le_length hat] at hr
    have hmem := List.mem_of_mem_take hr
    cases mode with
    | genesis organizationId =>
        have hnil : chain = [] := by
          by_contra hne
          obtain ⟨last, hlast⟩ := Option.ne_none_iff_exists'.mp (mt List.getLast?_eq_none_iff.mp hne)
          rw [hchain.tipRow, hlast] at hplaced
          cases hplaced
        rw [hnil] at hmem
        cases hmem
    | continuation =>
        obtain ⟨htrace, hspanId, hsameTrace, hsameSpan⟩ := hspan
        have hsource := hrecords.source
        have hnames : NamesSpan event r.toUnsignedReceipt := by
          refine ⟨hchain.2.system hmem, ⟨htrace, ?_⟩, ⟨hspanId, ?_⟩⟩
          · rw [← hsource, Source.input, Source.input, hsameTrace]
          · rw [← hsource, Source.input, Source.input, hsameSpan]
        have hrow := (hchain.mem_receipts.mpr ⟨r, hmem, rfl⟩).1
        rw [h.whole.duplicateRow_eq_some.mpr ⟨r, rfl, hrow, hnames⟩] at hdup
        cases hdup
  · intro hzero
    cases mode with
    | genesis organizationId =>
        have hname : unsigned.action.name.1 = event.action.name := congrArg ActionInput.name hrecords.action
        rw [hname, hopens _ rfl, hrecords.systemId]
    | continuation =>
        -- what carries a chain on stands behind a receipt
        have hnil : chain = [] := List.eq_nil_of_length_eq_zero (by omega)
        rw [hchain.tipRow, hnil] at hplaced
        cases hplaced

-- ── Both parties ─────────────────────────────────────────────────────────────────

/-- **The invariant of the two.** -/
structure TwoParties.Level (c : Crypto) (key : WriterKey) (options : SignerOptions) (ids : Set SystemId)
    (w : TwoParties) : Prop where
  signer : w.signer.Sound c options ids
  store : Behind c key w.signer.committed w.store.db
  copies : ∀ copy ∈ w.copies, Behind c key w.signer.committed copy.db

theorem draftReceipt_of_new {db db' : Database} {event : ChainEvent} {mode : WriteMode} {attempt : Attempt}
    {prepared : Prepared} {receipt : Receipt}
    (h : insertReceipt c u key db event mode attempt = .ok (db', .new prepared receipt)) :
    ∃ drafted, draftReceipt c u key db event mode attempt.random
      = .ok (drafted, .unsigned prepared receipt.toUnsignedReceipt) := by
  rw [insertReceipt] at h
  obtain ⟨⟨db₁, draft⟩, hdraft, h⟩ := bind_eq_ok.mp h
  cases draft with
  | duplicate r => cases (Prod.mk.inj (Except.ok.inj h)).2
  | unsigned p unsigned =>
      obtain ⟨sig, -, h⟩ := bind_eq_ok.mp h
      obtain ⟨r, hchecked, h⟩ := bind_eq_ok.mp h
      obtain ⟨db₂, -, h⟩ := bind_eq_ok.mp h
      obtain ⟨db₃, -, h⟩ := bind_eq_ok.mp h
      obtain ⟨rfl, rfl⟩ := Written.new.inj (Prod.mk.inj (Except.ok.inj h)).2
      rw [(checkedReceipt_ok hchecked).1]
      exact ⟨db₁, hdraft⟩

/-- **Where a reply comes only once its receipt is committed**, what is written is what is committed. -/
theorem attemptReceipt_behind {committed after : List Receipt} {s : Store} (h : Behind c key committed s.db)
    (hgrows : committed <+: after) {event : ChainEvent} {mode : WriteMode}
    {alongside : Database → Except StoreError Database} (halong : KeepsChains alongside) {attempt : Attempt}
    (hreply : ∀ sig, attempt.reply = .ok sig → ∀ db prepared unsigned,
      draftReceipt c u key s.db event mode attempt.random = .ok (db, .unsigned prepared unsigned) →
        ∃ made : Signature, made.1 = sig ∧ ∃ before, committed <+: before ∧
          Follows c unsigned.systemId (chainOf before unsigned.systemId) unsigned ∧
            after = before ++ [unsigned.signed made]) :
    Behind c key after (attemptReceipt c u key s event mode alongside attempt).1.db := by
  rw [attemptReceipt]
  split
  case h_1 e hresult => exact h.mono hgrows
  case h_2 db written hresult =>
    obtain ⟨⟨db₁, written₁⟩, hinsert, hwith⟩ := bind_eq_ok.mp hresult
    obtain ⟨db₂, hdb, heq⟩ := map_eq_ok.mp hwith
    obtain ⟨rfl, rfl⟩ := Prod.mk.inj heq
    obtain ⟨hbeside, hcheckpoints⟩ := halong _ _ hdb
    cases written₁ with
    | duplicate receipt =>
        obtain ⟨rfl, -⟩ := insertReceipt_duplicate hinsert
        exact (h.mono hgrows).beside hbeside hcheckpoints
    | new prepared receipt =>
        have hwrites := insertReceipt_new hinsert
        obtain ⟨drafted, hdraft⟩ := draftReceipt_of_new hinsert
        obtain ⟨made, hmade, before, hbefore, hfollows, rfl⟩ := hreply _ hwrites.replied _ _ _ hdraft
        obtain rfl : made = receipt.sig := Subtype.ext hmade
        exact ((h.mono hbefore).wrote hwrites hfollows.seq).beside hbeside hcheckpoints

namespace TwoParties

variable {w : TwoParties}

/-- **What an act leads to**: the two are level, and whatever was committed still is. -/
structure Leads (c : Crypto) (key : WriterKey) (options : SignerOptions) (ids : Set SystemId)
    (w w' : TwoParties) : Prop where
  level : w'.Level c key options ids
  grows : w.signer.committed <+: w'.signer.committed

theorem Level.stays (h : w.Level c key options ids) : Leads c key options ids w w := ⟨h, List.prefix_rfl⟩

theorem Leads.trans {w' w'' : TwoParties} (h : Leads c key options ids w w')
    (h' : Leads c key options ids w' w'') : Leads c key options ids w w'' :=
  ⟨h'.level, h.grows.trans h'.grows⟩

/-- The store commits, and the signer's side has gone on. -/
theorem Level.committed (h : w.Level c key options ids) {store : Store} {signer : SignerSide}
    (hsigner : signer.Sound c options ids) (hgrows : w.signer.committed <+: signer.committed)
    (hstore : Behind c key signer.committed store.db) :
    Leads c key options ids w (w.committed store signer) := by
  refine ⟨⟨hsigner, hstore, fun copy hcopy => ?_⟩, hgrows⟩
  rcases List.mem_append.mp hcopy with hcopy | hcopy
  · exact (h.copies copy hcopy).mono hgrows
  · rw [List.mem_singleton.mp hcopy]
    exact h.store.mono hgrows

/-- **An attempt to write keeps the two level**, whatever becomes of its request. -/
theorem Level.attempt (hn : Named c ids) (h : w.Level c key options ids) {event : ChainEvent}
    (hids : isWellFormed event.systemId.1 = true → event.systemId ∈ ids) {mode : WriteMode}
    (hopens : OpensByName event mode)
    {alongside : Database → Except StoreError Database} (halong : KeepsChains alongside) (t : Try) :
    Leads c key options ids w (w.attempt c u key options event mode alongside t).1 := by
  rcases hasked : w.asked c u key options event mode t with ⟨signer, reply⟩
  have hlevel : signer.Sound c options ids ∧ w.signer.committed <+: signer.committed ∧
      ∀ sig, reply = .ok sig → ∀ db prepared unsigned,
        draftReceipt c u key w.store.db event mode t.random = .ok (db, .unsigned prepared unsigned) →
          ∃ made : Signature, made.1 = sig ∧ ∃ before, w.signer.committed <+: before ∧
            Follows c unsigned.systemId (chainOf before unsigned.systemId) unsigned ∧
              signer.committed = before ++ [unsigned.signed made] := by
    rw [asked] at hasked
    cases hdraft : draftReceipt c u key w.store.db event mode t.random with
    | error e =>
        rw [hdraft] at hasked
        obtain ⟨rfl, rfl⟩ := Prod.mk.inj hasked
        exact ⟨h.signer, List.prefix_rfl, by rintro sig ⟨⟩⟩
    | ok out =>
        obtain ⟨db, draft⟩ := out
        rw [hdraft] at hasked
        cases draft with
        | duplicate receipt =>
            obtain ⟨rfl, rfl⟩ := Prod.mk.inj hasked
            exact ⟨h.signer, List.prefix_rfl, by rintro sig ⟨⟩⟩
        | unsigned prepared unsigned =>
            obtain ⟨hsystem, hunsaid⟩ := h.store.unsaid hopens hdraft
            obtain ⟨hsound, hgrows, hsigned⟩ :=
              h.signer.ask hn t.exchange (hsystem ▸ hids) hunsaid
            dsimp only at hasked
            rw [hasked] at hsound hgrows hsigned
            refine ⟨hsound, hgrows, fun sig hsig db' prepared' unsigned' hsame => ?_⟩
            obtain ⟨-, hdrafts⟩ := Prod.mk.inj (Except.ok.inj hsame)
            obtain ⟨-, rfl⟩ := Draft.unsigned.inj hdrafts
            exact hsigned sig hsig
  obtain ⟨hsound, hgrows, hreply⟩ := hlevel
  rw [TwoParties.attempt, hasked]
  exact h.committed hsound hgrows (attemptReceipt_behind h.store hgrows halong hreply)

/-- **A comparison keeps the two level**, whichever answers come. -/
theorem Level.compare (hn : Named c ids) (h : w.Level c key options ids) (systemId : SystemId) (x : Viewing) :
    Leads c key options ids w (w.compare c key options systemId x).1 := by
  obtain ⟨hsound, hgrows, htells⟩ := h.signer.viewed hn systemId x
  exact h.committed hsound hgrows
    (reconcileNow_behind (h.store.mono hgrows) htells (hsound.committed.chain systemId))

theorem Level.createCheckpoint (hn : Named c ids) (h : w.Level c key options ids) (systemId : SystemId)
    (x : Viewing) (between : List SignerEvent) (now : Timestamp) (comes : Bool) :
    Leads c key options ids w (w.createCheckpoint c key options systemId x between now comes).1 := by
  obtain ⟨hsound, hgrows, htells⟩ := h.signer.viewed hn systemId x
  obtain ⟨hafter, hmore⟩ := hsound.run hn between
  refine h.committed hafter (hgrows.trans hmore) ?_
  exact (createCheckpoint_behind (h.store.mono hgrows) htells (hsound.committed.chain systemId) _).mono hmore

/-- **Every step keeps the two level.** -/
theorem Level.step (hn : Named c ids) (h : w.Level c key options ids) {w' : TwoParties}
    (hstep : Step c u key options ids w w') : Leads c key options ids w w' := by
  cases hstep with
  | attempt event mode alongside t presentable keeps =>
      exact h.attempt hn presentable.names presentable.byName keeps t
  | compare systemId x => exact h.compare hn systemId x
  | createCheckpoint systemId x between now comes => exact h.createCheckpoint hn systemId x between now comes
  | saveConnection row =>
      obtain ⟨hbeside, hcheckpoints⟩ := keepsChains_saveConnection row _ _ rfl
      exact h.committed h.signer List.prefix_rfl (h.store.beside hbeside hcheckpoints)
  | other op alone =>
      refine h.committed h.signer List.prefix_rfl (h.store.quiet ?_ (perform_quiet _ alone))
      have hwhole : Whole c (Sigillo.run c u key w.store [op]).db :=
        run_keeps (P := fun s => Whole c s.db) (fun _ _ _ _ h hs => hs.commit h) h.store.whole
      exact hwhole
  | restore copy taken => exact h.committed h.signer List.prefix_rfl (h.copies copy taken)
  | signer event =>
      obtain ⟨hsound, hgrows⟩ := h.signer.after hn event
      exact ⟨⟨hsound, h.store.mono hgrows, fun copy hcopy => (h.copies copy hcopy).mono hgrows⟩, hgrows⟩

/-- **Along any path the two stay level.** -/
theorem Level.path (hn : Named c ids) (h : w.Level c key options ids) {w' : TwoParties}
    (hpath : Path c u key options ids w w') : Leads c key options ids w w' := by
  induction hpath with
  | refl => exact h.stays
  | tail _ hstep ih => exact ih.trans (ih.level.step hn hstep)

/-- **A receipt written, or not**, keeps the two level. -/
theorem Level.write (hn : Named c ids) (h : w.Level c key options ids) {event : ChainEvent} {mode : WriteMode}
    (hpresentable : Presentable ids w.store event mode) {alongside : Database → Except StoreError Database}
    (halong : KeepsChains alongside) (plan : WritePlan) :
    Leads c key options ids w (w.write c u key options event mode alongside plan).1 :=
  h.path hn (write_path hpresentable halong plan)

/-- **A batch keeps the two level**, at whichever event it stops. -/
theorem Level.writeBatch (hn : Named c ids) (h : w.Level c key options ids) {events : List (ChainEvent × WritePlan)}
    (hids : ∀ e ∈ events, isWellFormed e.1.systemId.1 = true → e.1.systemId ∈ ids) :
    Leads c key options ids w (w.writeBatch c u key options events).1 := h.path hn (writeBatch_path hids)

theorem Level.start : (TwoParties.start key).Level c key options ids where
  signer := SignerSide.sound_start
  store := .fresh key
  copies := fun _ h => absurd h List.not_mem_nil

/-- **Whatever is done, the two stay level.** -/
theorem Level.run (hn : Named c ids) (h : w.Level c key options ids) {acts : List Act}
    (hids : ∀ a ∈ acts, ∀ s ∈ a.names, isWellFormed s.1 = true → s ∈ ids) :
    Leads c key options ids w (w.run c u key options acts) := h.path hn (run_path hids)

theorem named_of_sha256 {acts : List Act} (hsha : Set.InjOn c.sha256 (idBytes '' named acts)) :
    Named c (named acts) := ⟨fun _ hs => hs.2, hsha⟩

/-- **A run from the start is level**, as far as SHA-256 tells its systems apart. -/
theorem level_run {acts : List Act} (hsha : Set.InjOn c.sha256 (idBytes '' named acts)) :
    ((TwoParties.start key).run c u key options acts).Level c key options (named acts) :=
  (Level.start.run (named_of_sha256 hsha) fun a ha _ hs hwell => ⟨⟨a, ha, hs⟩, hwell⟩).level

-- ── A copy put back ──────────────────────────────────────────────────────────────

/-- Answers that all come, and nothing happens beside. -/
def quietViewing : Viewing := ⟨[], true, [], fun _ => 0, fun _ => true, fun _ => newYear⟩

/-- An attempt the signer answers at once. -/
def promptTry : Try := ⟨toyRandomness, ⟨[], newYear, .answered⟩⟩

/-- A write without trouble. -/
def promptPlan : WritePlan := ⟨promptTry, quietViewing, promptTry⟩

/-- The toy system is opened. -/
def opening : Act := .createSystem toySystem newYear none promptPlan

/-- The signer starts, the toy system is opened, and the database from before is put back. -/
def putBack : List Act := [.signer .restart] ++ opening :: [.restore 0]

/-- Where one system is named, SHA-256 has nothing to tell apart. -/
theorem injOn_of_names {acts : List Act} (h : ∀ a ∈ acts, ∀ s ∈ a.names, s = toySystem) (c : Crypto) :
    Set.InjOn c.sha256 (idBytes '' named acts) := by
  have hone : (named acts).Subsingleton := by
    rintro s ⟨⟨a, ha, hs⟩, -⟩ t ⟨⟨b, hb, ht⟩, -⟩
    rw [h a ha s hs, h b hb t ht]
  exact (hone.image _).injOn _

theorem putBack_injOn (c : Crypto) : Set.InjOn c.sha256 (idBytes '' named putBack) := by
  refine injOn_of_names (fun a ha s hs => ?_) c
  simp only [putBack, List.cons_append, List.nil_append, List.mem_cons, List.not_mem_nil, or_false] at ha
  rcases ha with rfl | rfl | rfl
  · cases hs
  · exact List.mem_singleton.mp hs
  · cases hs

-- ── Every run ────────────────────────────────────────────────────────────────────

/-- **However requests fare, whoever dies and whatever copy is put back**: every chain of the database,
    and of every copy of it, is a beginning of the one the signer committed, and every checkpoint is of
    a tree of that one. -/
theorem databases_behind (c : Crypto) (u : Unicode) (key : WriterKey) (options : SignerOptions) (acts : List Act)
    (hsha : Set.InjOn c.sha256 (idBytes '' named acts)) (w : TwoParties)
    (hw : w = (TwoParties.start key).run c u key options acts) (store : Store) (hstore : store ∈ w.store :: w.copies) :
    (∀ systemId, ∃ chain, ChainOf c store.db systemId chain ∧ chain <+: chainOf w.signer.committed systemId) ∧
      ∀ row ∈ store.db.checkpoints,
        row.checkpoint.treeSize.1 ≤ (chainOf w.signer.committed row.checkpoint.systemId).length ∧
          row.checkpoint.rootHash = (merkleRoot c (receiptHashes c
            ((chainOf w.signer.committed row.checkpoint.systemId).take row.checkpoint.treeSize.1))).hex := by
  have hlevel := hw ▸ level_run hsha
  have hbehind : Behind c key w.signer.committed store.db := by
    rcases List.mem_cons.mp hstore with rfl | hcopy
    · exact hlevel.store
    · exact hlevel.copies store hcopy
  exact ⟨hbehind.chains, fun row hrow => ⟨hbehind.size_le hrow, (hbehind.checkpoints row hrow).root⟩⟩

/-- A run that puts a copy back. -/
theorem databases_behind_toy :
    let w := (TwoParties.start toyWriter).run toyCrypto ⟨id, id, id⟩ toyWriter toyOptions putBack
    (∀ systemId, ∃ chain, ChainOf toyCrypto w.store.db systemId chain ∧
        chain <+: chainOf w.signer.committed systemId) ∧
      ∀ row ∈ w.store.db.checkpoints,
        row.checkpoint.treeSize.1 ≤ (chainOf w.signer.committed row.checkpoint.systemId).length ∧
          row.checkpoint.rootHash = (merkleRoot toyCrypto (receiptHashes toyCrypto
            ((chainOf w.signer.committed row.checkpoint.systemId).take row.checkpoint.treeSize.1))).hex :=
  databases_behind toyCrypto ⟨id, id, id⟩ toyWriter toyOptions putBack (putBack_injOn _) _ rfl _ List.mem_cons_self

end TwoParties

end Sigillo
