import Sigillo.KeptRows
import Sigillo.OrganizationDeletion
import Sigillo.SpanAnswers

/-!
# What a chain outlasts

A receipt above the genesis goes in one way only: the erasure, whole, of the chain it is in, which
the operator asks for a system of its own or for a customer (**`chain_lasts`**). And once the store
has committed what it was asked, the guards of the schema let nobody delete anything more from it,
through whatever connection (**`guards_hold`**): the log that opens them is written in the
transaction that leaves nothing behind them. -/

namespace Sigillo

open DoubleArith Utf16Text JsonText JsonSchema HexBase64 IsoTime Fallible Relation

variable {c : Crypto} {u : Unicode} {key : WriterKey} {allowed : Kind → Prop} {s s' : Store}

-- ── The way out ──────────────────────────────────────────────────────────────────

/-- An operation that takes a chain away: the erasure of a system while it is the operator's own, or
    of the customer it belongs to. -/
def Operation.TakesChain (db : Database) (systemId : SystemId) : Operation → Prop
  | .eraseOperatorSystem name _ =>
      name = systemId ∧ ∃ record ∈ db.systems, record.systemId = systemId ∧ record.organizationId = none
  | .eraseOrganization organizationId _ =>
      ∃ record ∈ db.systems, record.systemId = systemId ∧ record.organizationId = some organizationId
  | _ => False

/-- The transactions that take a chain away. -/
def Kind.TakesChain (db : Database) (systemId : SystemId) : Kind → Prop
  | .eraseOperator name =>
      name = systemId ∧ ∃ record ∈ db.systems, record.systemId = systemId ∧ record.organizationId = none
  | .eraseOrganization organizationId =>
      ∃ record ∈ db.systems, record.systemId = systemId ∧ record.organizationId = some organizationId
  | _ => False

theorem Deletes.keeps {db db' : Database} {systemId : SystemId} (h : Deletes db db' systemId)
    {row : ReceiptRow} (hrow : row ∈ db.receipts) (hother : row.systemId ≠ systemId) : row ∈ db'.receipts := by
  rw [h.receipts]
  refine List.mem_filter.mpr ⟨hrow, ?_⟩
  rw [beq_false_of_ne hother]
  rfl

/-- A transaction that takes away a receipt above the genesis erases its chain. -/
theorem Commit.takesChain {k : Kind} (h : Commit c u key s k s') {row : ReceiptRow}
    (hrow : row ∈ s.db.receipts) (hseq : 0 < row.seq.1) :
    row ∈ s'.db.receipts ∨ k.TakesChain s.db row.systemId ∧ .deletedChain row.systemId ∈ s'.history := by
  rcases h.row_kept hrow with hkept | hdeleted
  · exact .inl hkept
  cases h with
  | wrote writes =>
      refine .inl ?_
      rw [show _ = _ from congrArg Database.receipts writes.db_eq]
      exact List.mem_append_left _ hrow
  | recovered ahead missing restores =>
      refine .inl ?_
      rw [show _ = _ from restores.receipts]
      exact List.mem_append_left _ hrow
  | beside h =>
      refine .inl ?_
      rw [show _ = _ from h.receipts]
      exact hrow
  | deletedEmpty only first noOpening deletes openings =>
      rename_i systemId genesis db
      -- the only receipt of the chain that goes is its genesis
      refine .inl (deletes.keeps hrow fun hsame => ?_)
      have hgenesis : row ∈ s.db.chainRows systemId := mem_chainRows.mpr ⟨hrow, hsame⟩
      rw [only, List.mem_singleton] at hgenesis
      rw [hgenesis, first] at hseq
      exact lt_irrefl 0 hseq
  | erasedOperator found own deletes openings =>
      rename_i record db
      by_cases hsame : row.systemId = record.systemId
      · exact .inr ⟨⟨hsame.symm, record, found, hsame.symm, own⟩, hdeleted⟩
      · exact .inl (deletes.keeps hrow hsame)
  | erasedOrganization owned receipts =>
      rename_i organizationId records db _ _ _ _
      by_cases hany : records.any (fun record => record.systemId == row.systemId) = true
      · obtain ⟨record, hrecord, hsame⟩ := List.any_eq_true.mp hany
        rw [owned] at hrecord
        obtain ⟨hfound, howner⟩ := List.mem_filter.mp hrecord
        exact .inr ⟨⟨record, hfound, beq_iff_eq.mp hsame, beq_iff_eq.mp howner⟩, hdeleted⟩
      · refine .inl ?_
        show row ∈ db.receipts
        rw [receipts]
        exact List.mem_filter.mpr ⟨hrow, by simpa using hany⟩
  | erasedSubject receipts =>
      refine .inl ?_
      rw [show _ = _ from receipts]
      exact hrow
  | erasedOpenings receipts =>
      refine .inl ?_
      rw [show _ = _ from receipts]
      exact hrow

/-- An erasure opens no system. -/
theorem Commit.systems_subset {k : Kind} (h : Commit c u key s k s') (hk : ¬ k.IsOrdinary) :
    s'.db.systems ⊆ s.db.systems := by
  cases h with
  | wrote => exact absurd (.inl rfl) hk
  | recovered => exact absurd (.inr (.inl rfl)) hk
  | beside => exact absurd (.inr (.inr rfl)) hk
  | deletedEmpty only first noOpening deletes =>
      rw [show _ = _ from deletes.systems]
      exact List.filter_subset_self _
  | erasedOperator found own deletes =>
      rw [show _ = _ from deletes.systems]
      exact List.filter_subset_self _
  | erasedOrganization owned receipts openings subjects systems =>
      rw [show _ = _ from systems]
      exact List.filter_subset_self _
  | erasedSubject receipts openings systems =>
      rw [show _ = _ from systems]
      exact List.Subset.refl _
  | erasedOpenings receipts subjects systems =>
      rw [show _ = _ from systems]
      exact List.Subset.refl _

/-- An operation that takes a chain away has no transaction but erasures. -/
theorem Operation.TakesChain.erases {op : Operation} {db : Database} {systemId : SystemId}
    (h : op.TakesChain db systemId) {k : Kind} (hk : op.Allows k) : ¬ k.IsOrdinary := by
  cases op with
  | eraseOperatorSystem name request =>
      obtain rfl : k = .eraseOperator name := hk
      rintro (h | h | h) <;> cases h
  | eraseOrganization organizationId request =>
      obtain rfl : k = .eraseOrganization organizationId := hk
      rintro (h | h | h) <;> cases h
  | _ => exact absurd h id

/-- What an operation's transactions take away, the operation takes away. -/
theorem Operation.TakesChain.of_kind {op : Operation} {k : Kind} (hk : op.Allows k) {db : Database}
    {systemId : SystemId} (h : k.TakesChain db systemId) : op.TakesChain db systemId := by
  cases op with
  | eraseOperatorSystem name request =>
      obtain rfl : k = .eraseOperator name := hk
      exact h
  | eraseOrganization organizationId request =>
      obtain rfl : k = .eraseOrganization organizationId := hk
      exact h
  | deleteEmptySystem name request =>
      obtain rfl : k = .deleteEmpty name := hk
      exact h
  | eraseSubject token request =>
      obtain rfl : k = .eraseSubject token := hk
      exact h
  | eraseOpenings name seqs request =>
      obtain rfl : k = .eraseOpenings name seqs := hk
      exact h
  | _ => rcases hk with rfl | rfl | rfl <;> exact absurd h id

theorem Kind.TakesChain.mono {k : Kind} {db db' : Database} {systemId : SystemId}
    (hsystems : db'.systems ⊆ db.systems) (h : k.TakesChain db' systemId) : k.TakesChain db systemId := by
  cases k with
  | eraseOperator name =>
      obtain ⟨hname, record, hrecord, hrest⟩ := h
      exact ⟨hname, record, hsystems hrecord, hrest⟩
  | eraseOrganization organizationId =>
      obtain ⟨record, hrecord, hrest⟩ := h
      exact ⟨record, hsystems hrecord, hrest⟩
  | _ => exact h

/-- **An operation that takes a receipt away, other than a genesis, erases its chain.** -/
theorem perform_takesChain (s : Store) (op : Operation) {row : ReceiptRow} (hrow : row ∈ s.db.receipts)
    (hseq : 0 < row.seq.1) :
    row ∈ (perform c u key s op).db.receipts ∨
      op.TakesChain s.db row.systemId ∧ .deletedChain row.systemId ∈ (perform c u key s op).history := by
  have h : Commits c u key op.Allows s (perform c u key s op) := perform_commits s op
  generalize perform c u key s op = s' at h ⊢
  -- of the transactions of an erasure, each finds only systems that were there when it began
  have hkept : (row ∈ s'.db.receipts ∧ ((∀ k, op.Allows k → ¬ k.IsOrdinary) → s'.db.systems ⊆ s.db.systems)) ∨
      op.TakesChain s.db row.systemId ∧ .deletedChain row.systemId ∈ s'.history := by
    induction h with
    | refl => exact .inl ⟨hrow, fun _ => List.Subset.refl _⟩
    | @tail t t' _ hlast ih =>
        obtain ⟨k, hk, hcommit⟩ := hlast
        rcases ih with ⟨hmem, hsystems⟩ | ⟨htakes, hdeleted⟩
        · rcases hcommit.takesChain hmem hseq with hmem' | ⟨hkind, hdeleted⟩
          · refine .inl ⟨hmem', fun hall => ?_⟩
            exact List.Subset.trans (hcommit.systems_subset (hall k hk)) (hsystems hall)
          · have hall : ∀ k, op.Allows k → ¬ k.IsOrdinary :=
              fun _ => (Operation.TakesChain.of_kind hk hkind).erases
            exact .inr ⟨.of_kind hk (hkind.mono (hsystems hall)), hdeleted⟩
        · exact .inr ⟨htakes, hcommit.history_subset hdeleted⟩
  exact hkept.imp_left And.left

theorem run_takesChain {ops : List Operation} {s : Store} {row : ReceiptRow} (hrow : row ∈ s.db.receipts)
    (hseq : 0 < row.seq.1) :
    row ∈ (run c u key s ops).db.receipts ∨
      ∃ before op after, ops = before ++ op :: after ∧ row ∈ (run c u key s before).db.receipts ∧
        op.TakesChain (run c u key s before).db row.systemId ∧
        .deletedChain row.systemId ∈ (run c u key s (before ++ [op])).history := by
  induction ops generalizing s with
  | nil => exact .inl hrow
  | cons op rest ih =>
      rcases @perform_takesChain c u key s op row hrow hseq with hkept | ⟨htakes, hdeleted⟩
      · rcases ih hkept with hlasts | ⟨before, last, after, rfl, hthere, htakes, hdeleted⟩
        · exact .inl hlasts
        · exact .inr ⟨op :: before, last, after, rfl, hthere, htakes, hdeleted⟩
      · exact .inr ⟨[], op, rest, rfl, hrow, htakes, hdeleted⟩

theorem history_run_subset (s : Store) (ops : List Operation) : s.history ⊆ (run c u key s ops).history := by
  induction ops generalizing s with
  | nil => exact List.Subset.refl _
  | cons op rest ih =>
      have h : Commits c u key op.Allows s (perform c u key s op) := perform_commits s op
      exact List.Subset.trans (history_subset h) (ih (perform c u key s op))

/-- **A receipt above the genesis stays, byte for byte, until its chain is erased whole**: whatever the
    store is asked after it was written, the row is still there, or one of the operations erased its
    system while it was the operator's own or the customer it belonged to; and nothing of that chain is
    in the store after it, whatever follows. -/
theorem chain_lasts (c : Crypto) (u : Unicode) (key : WriterKey) (ops more : List Operation)
    (row : ReceiptRow) (hrow : row ∈ (run c u key (.fresh key) ops).db.receipts) (hseq : 0 < row.seq.1) :
    row ∈ (run c u key (.fresh key) (ops ++ more)).db.receipts ∨
      ∃ before op after, more = before ++ op :: after ∧
        row ∈ (run c u key (.fresh key) (ops ++ before)).db.receipts ∧
        op.TakesChain (run c u key (.fresh key) (ops ++ before)).db row.systemId ∧
        ∀ rest, ∀ r ∈ (run c u key (.fresh key) (ops ++ before ++ op :: rest)).db.receipts,
          r.systemId ≠ row.systemId := by
  have hruns : ∀ after, run c u key (.fresh key) (ops ++ after)
      = run c u key (run c u key (.fresh key) ops) after := fun after => performed_append _ _ _
  rw [hruns]
  rcases @run_takesChain c u key more _ row hrow hseq with
    hlasts | ⟨before, op, after, hmore, hthere, htakes, hdeleted⟩
  · exact .inl hlasts
  · refine .inr ⟨before, op, after, hmore, by rw [hruns]; exact hthere, by rw [hruns]; exact htakes, ?_⟩
    intro rest
    have hburied : (run c u key (.fresh key) (ops ++ before ++ op :: rest)).Buried :=
      (buried_fresh key).run _
    refine (hburied row.systemId ?_).2
    rw [show ops ++ before ++ op :: rest = ops ++ ((before ++ [op]) ++ rest) by simp, hruns, performed_append]
    exact history_run_subset _ rest hdeleted

/-- The search of the toy system, whatever is asked next: here the erasure of the system. -/
theorem chain_lasts_search :
    let ops := toyRun ++ [.append [] (spanEvent (js "search")) toyRandomness toyReplies]
    let more : List Operation := [.eraseOperatorSystem toySystem acmeRequest]
    let row := receiptRow tellingCrypto spanReceipt
    row ∈ (run tellingCrypto ⟨id, id, id⟩ toyWriter (.fresh toyWriter) (ops ++ more)).db.receipts ∨
      ∃ before op after, more = before ++ op :: after ∧
        row ∈ (run tellingCrypto ⟨id, id, id⟩ toyWriter (.fresh toyWriter) (ops ++ before)).db.receipts ∧
        op.TakesChain (run tellingCrypto ⟨id, id, id⟩ toyWriter (.fresh toyWriter) (ops ++ before)).db
          row.systemId ∧
        ∀ rest, ∀ r ∈ (run tellingCrypto ⟨id, id, id⟩ toyWriter (.fresh toyWriter)
          (ops ++ before ++ op :: rest)).db.receipts, r.systemId ≠ row.systemId := by
  intro ops more row
  have hrow : row ∈ (run tellingCrypto ⟨id, id, id⟩ toyWriter (.fresh toyWriter) ops).db.receipts := by
    have hdb : (run tellingCrypto ⟨id, id, id⟩ toyWriter (.fresh toyWriter) ops).db
        = toyWritten (Store.fresh toyWriter).db none spanReceipt := by
      rw [show ops = [_, _] from rfl, run_cons, run_cons, run_nil, perform, perform,
        createSystem_toy (noChains_fresh toyWriter) rfl rfl, append_search rfl]
    rw [hdb]
    exact List.mem_append_right _ (List.mem_singleton_self _)
  exact chain_lasts tellingCrypto ⟨id, id, id⟩ toyWriter ops more row hrow (by decide)

-- ── The guards ───────────────────────────────────────────────────────────────────

/-- **What the log says was deleted is gone**: no receipt and no row of such a system is left. -/
def Database.Interred (db : Database) : Prop :=
  ∀ systemId, db.deletionOf systemId ≠ none →
    (∀ row ∈ db.receipts, row.systemId ≠ systemId) ∧ ∀ record ∈ db.systems, record.systemId ≠ systemId

/-- **A system has a chain**: a row of `systems` stands only beside a receipt. -/
def Database.Manned (db : Database) : Prop :=
  ∀ record ∈ db.systems, ∃ row ∈ db.receipts, row.systemId = record.systemId

/-- A deletion that a longer log tells is an older one or among the new entries. -/
theorem deletionOf_grown {db db' : Database} {entries : List AdminLogRow}
    (hlog : db'.adminLog = db.adminLog ++ entries) {systemId : SystemId} (h : db'.deletionOf systemId ≠ none) :
    db.deletionOf systemId ≠ none ∨
      ∃ entry ∈ entries, entry.action = .systemDelete ∧ entry.systemId = some systemId := by
  by_contra hneither
  push Not at hneither
  obtain ⟨hold, hnew⟩ := hneither
  refine h ?_
  rw [Database.deletionOf, Option.map_eq_none_iff] at hold ⊢
  rw [hlog]
  refine find?_eq_none_of_append hold fun entry hentry => ?_
  rw [Bool.and_eq_false_iff, beq_eq_false_iff_ne, beq_eq_false_iff_ne]
  by_cases haction : entry.action = .systemDelete
  · exact .inr (hnew entry hentry haction)
  · exact .inl haction

theorem Database.Interred.of_plain {db db' : Database} (h : db.Interred) {entries : List AdminLogRow}
    (hlog : db'.adminLog = db.adminLog ++ entries) (hplain : ∀ entry ∈ entries, entry.isPlain)
    (hreceipts : db'.receipts = db.receipts)
    (hsystems : db'.systems.map (·.systemId) = db.systems.map (·.systemId)) : db'.Interred := by
  intro systemId hdeleted
  rcases deletionOf_grown hlog hdeleted with hold | ⟨entry, hentry, haction, -⟩
  · obtain ⟨hrows, hrecords⟩ := h systemId hold
    refine ⟨by rw [hreceipts]; exact hrows, fun record hrecord hname => ?_⟩
    have hmem : systemId ∈ db.systems.map (·.systemId) := by
      rw [← hsystems, ← hname]
      exact List.mem_map_of_mem hrecord
    obtain ⟨old, hold, hsame⟩ := List.mem_map.mp hmem
    exact hrecords old hold hsame
  · exact absurd haction (hplain entry hentry).1

theorem Database.Interred.of_gone {db db' : Database} (h : db.Interred) {entries : List AdminLogRow}
    (gone : SystemId → Bool) (hlog : db'.adminLog = db.adminLog ++ entries)
    (hentries : ∀ entry ∈ entries, entry.action = .systemDelete → ∀ systemId, entry.systemId = some systemId →
      gone systemId = true)
    (hreceipts : db'.receipts = db.receipts.filter fun row => !gone row.systemId)
    (hsystems : db'.systems = db.systems.filter fun record => !gone record.systemId) : db'.Interred := by
  intro systemId hdeleted
  rw [hreceipts, hsystems]
  rcases deletionOf_grown hlog hdeleted with hold | ⟨entry, hentry, haction, hsystem⟩
  · obtain ⟨hrows, hrecords⟩ := h systemId hold
    exact ⟨fun row hrow => hrows row (List.mem_of_mem_filter hrow),
      fun record hrecord => hrecords record (List.mem_of_mem_filter hrecord)⟩
  · have hgone := hentries entry hentry haction systemId hsystem
    constructor
    · rintro row hrow rfl
      have hkept := (List.mem_filter.mp hrow).2
      rw [hgone] at hkept
      cases hkept
    · rintro record hrecord rfl
      have hkept := (List.mem_filter.mp hrecord).2
      rw [hgone] at hkept
      cases hkept

theorem Database.Manned.of_gone {db db' : Database} (h : db.Manned) (gone : SystemId → Bool)
    (hreceipts : db'.receipts = db.receipts.filter fun row => !gone row.systemId)
    (hsystems : db'.systems = db.systems.filter fun record => !gone record.systemId) : db'.Manned := by
  intro record hrecord
  rw [hsystems] at hrecord
  obtain ⟨hfound, hkept⟩ := List.mem_filter.mp hrecord
  obtain ⟨row, hrow, hname⟩ := h record hfound
  refine ⟨row, ?_, hname⟩
  rw [hreceipts]
  refine List.mem_filter.mpr ⟨hrow, ?_⟩
  rw [hname]
  exact hkept

theorem Database.Manned.of_names {db db' : Database} (h : db.Manned) (hreceipts : db'.receipts = db.receipts)
    (hsystems : db'.systems.map (·.systemId) = db.systems.map (·.systemId)) : db'.Manned := by
  intro record hrecord
  have hmem : record.systemId ∈ db.systems.map (·.systemId) := by
    rw [← hsystems]
    exact List.mem_map_of_mem hrecord
  obtain ⟨old, hold, hsame⟩ := List.mem_map.mp hmem
  rw [hreceipts, ← hsame]
  exact h old hold

/-- Rows that come stand under a name no log entry calls deleted. -/
theorem Database.Interred.of_added {db db' : Database} (h : db.Interred) {name : SystemId}
    {rows : List ReceiptRow} (hname : db.deletionOf name = none)
    (hdeleted : ∀ systemId, db'.deletionOf systemId ≠ none → db.deletionOf systemId ≠ none)
    (hreceipts : db'.receipts = db.receipts ++ rows) (hrows : ∀ row ∈ rows, row.systemId = name)
    (hsystems : ∀ record ∈ db'.systems, record ∈ db.systems ∨ record.systemId = name) : db'.Interred := by
  intro systemId hgone
  obtain ⟨hold, hrecords⟩ := h systemId (hdeleted systemId hgone)
  have hother : name ≠ systemId := by
    rintro rfl
    exact hdeleted name hgone hname
  refine ⟨fun row hrow => ?_, fun record hrecord => ?_⟩
  · rw [hreceipts] at hrow
    rcases List.mem_append.mp hrow with hbefore | hnew
    · exact hold row hbefore
    · rw [hrows row hnew]
      exact hother
  · rcases hsystems record hrecord with hbefore | hnew
    · exact hrecords record hbefore
    · rw [hnew]
      exact hother

theorem Database.Manned.of_added {db db' : Database} (h : db.Manned) {name : SystemId}
    {rows : List ReceiptRow} (hreceipts : db'.receipts = db.receipts ++ rows) (hsome : rows ≠ [])
    (hrows : ∀ row ∈ rows, row.systemId = name)
    (hsystems : ∀ record ∈ db'.systems, record ∈ db.systems ∨ record.systemId = name) : db'.Manned := by
  intro record hrecord
  rw [hreceipts]
  rcases hsystems record hrecord with hbefore | hnew
  · obtain ⟨row, hrow, hname⟩ := h record hbefore
    exact ⟨row, List.mem_append_left _ hrow, hname⟩
  · obtain ⟨row, hrow⟩ := List.exists_mem_of_ne_nil rows hsome
    exact ⟨row, List.mem_append_right _ hrow, (hrows row hrow).trans hnew.symm⟩

theorem Writes.settled {db db' : Database} {event : ChainEvent} {mode : WriteMode} {attempt : Attempt}
    {prepared : Prepared} {receipt : Receipt}
    (h : Writes c u key db event mode attempt prepared receipt db')
    (genesis : ∀ o, mode = .genesis o → db.deletionOf event.systemId = none)
    (hinterred : db.Interred) (hmanned : db.Manned) : db'.Interred ∧ db'.Manned := by
  have hlog : db'.adminLog = db.adminLog := by rw [h.db_eq]; rfl
  have hreceipts : db'.receipts = db.receipts ++ [receiptRow c receipt] :=
    congrArg Database.receipts h.db_eq
  have hrows : ∀ row ∈ [receiptRow c receipt], row.systemId = event.systemId := by
    intro row hrow
    rw [List.mem_singleton.mp hrow]
    exact (records_of_buildUnsigned _ _ _ _ h.built).systemId
  have hsystems : ∀ record ∈ db'.systems, record ∈ db.systems ∨ record.systemId = event.systemId := by
    intro record hrecord
    rw [show db'.systems = systemsAfter db event mode from congrArg Database.systems h.db_eq] at hrecord
    cases mode with
    | continuation => exact .inl hrecord
    | genesis o =>
        rcases List.mem_append.mp hrecord with hold | hnew
        · exact .inl hold
        · rw [List.mem_singleton.mp hnew]
          exact .inr rfl
  -- a chain the log calls deleted has no row left to be continued
  have hname : db.deletionOf event.systemId = none := by
    by_contra hdeleted
    obtain ⟨row, hrow, hsame⟩ := h.not_deleted genesis hdeleted
    exact (hinterred event.systemId hdeleted).1 row hrow hsame
  refine ⟨hinterred.of_added hname (fun systemId hgone => ?_) hreceipts hrows hsystems,
    hmanned.of_added hreceipts (List.cons_ne_nil _ _) hrows hsystems⟩
  rw [Database.deletionOf, ← hlog]
  exact hgone

theorem Restores.settled {db db' : Database} {name : SystemId} {taken : List Receipt}
    {journal : Option (List Receipt)} {head : Receipt} (h : Restores c db name taken db')
    (missing : Missing c key db name head journal taken) (hinterred : db.Interred)
    (hmanned : db.Manned) : db'.Interred ∧ db'.Manned := by
  obtain ⟨entries, hlog, hentries⟩ := h.adminLog
  obtain ⟨added, hadd, hadded⟩ := h.systems
  obtain ⟨last, hlast, -⟩ := missing.last
  have hsome : taken.map (receiptRow c) ≠ [] := by
    rw [Ne, List.map_eq_nil_iff]
    rintro rfl
    cases hlast
  have hrows : ∀ row ∈ taken.map (receiptRow c), row.systemId = name := by
    intro row hrow
    obtain ⟨r, hr, rfl⟩ := List.mem_map.mp hrow
    exact takeMissing_system missing.taken_eq r hr
  have hsystems : ∀ record ∈ db'.systems, record ∈ db.systems ∨ record.systemId = name := by
    intro record hrecord
    rw [hadd] at hrecord
    exact (List.mem_append.mp hrecord).imp_right fun hnew => (hadded record hnew).1
  refine ⟨hinterred.of_added missing.notDeleted (fun systemId hgone => ?_) h.receipts hrows hsystems,
    hmanned.of_added h.receipts hsome hrows hsystems⟩
  rcases deletionOf_grown hlog hgone with hold | ⟨entry, hentry, haction, -⟩
  · exact hold
  · exact absurd haction (hentries entry hentry).isPlain.1

theorem Deletes.settled {db db' : Database} {systemId : SystemId} (h : Deletes db db' systemId)
    (hinterred : db.Interred) (hmanned : db.Manned) : db'.Interred ∧ db'.Manned := by
  obtain ⟨entry, hlog, -, hsystem⟩ := h.adminLog
  refine ⟨hinterred.of_gone (· == systemId) hlog ?_ h.receipts h.systems,
    hmanned.of_gone (· == systemId) h.receipts h.systems⟩
  intro e he _ name hname
  rw [List.mem_singleton.mp he, hsystem] at hname
  rw [Option.some.inj hname, beq_self_eq_true]

/-- **Every transaction keeps both.** -/
theorem Commit.settled {k : Kind} (h : Commit c u key s k s') (hinterred : s.db.Interred)
    (hmanned : s.db.Manned) : s'.db.Interred ∧ s'.db.Manned := by
  cases h with
  | wrote writes genesis => exact writes.settled genesis hinterred hmanned
  | recovered ahead missing restores => exact restores.settled missing hinterred hmanned
  | beside h =>
      obtain ⟨entries, hlog, hplain⟩ := h.adminLog
      exact ⟨hinterred.of_plain hlog hplain h.receipts h.systems, hmanned.of_names h.receipts h.systems⟩
  | deletedEmpty only first noOpening deletes => exact deletes.settled hinterred hmanned
  | erasedOperator found own deletes => exact deletes.settled hinterred hmanned
  | erasedOrganization owned receipts openings subjects systems adminLog =>
      rename_i organizationId records db
      obtain ⟨erasure, entries, hlog, herasure, hentries⟩ := adminLog
      let gone : SystemId → Bool := fun name => records.any fun record => record.systemId == name
      refine ⟨hinterred.of_gone gone hlog ?_ receipts systems, hmanned.of_gone gone receipts systems⟩
      intro e he haction name hname
      rcases List.mem_cons.mp he with rfl | he
      · rw [herasure.1] at haction
        cases haction
      · have hpair : (e.action, e.systemId) ∈ records.map fun record =>
            (AdminAction.systemDelete, some record.systemId) := by
          rw [← hentries]
          exact List.mem_map_of_mem he
        obtain ⟨record, hrecord, hsame⟩ := List.mem_map.mp hpair
        refine List.any_eq_true.mpr ⟨record, hrecord, beq_iff_eq.mpr ?_⟩
        exact Option.some.inj ((congrArg Prod.snd hsame).trans hname)
  | erasedSubject receipts openings systems adminLog =>
      obtain ⟨entry, hlog, hplain⟩ := adminLog
      exact ⟨hinterred.of_plain hlog (by simpa using hplain) receipts (by rw [systems]),
        hmanned.of_names receipts (by rw [systems])⟩
  | erasedOpenings receipts subjects systems openings adminLog =>
      rename_i name seqs db
      obtain ⟨entry, hlog, hplain⟩ := adminLog
      exact ⟨hinterred.of_plain hlog (by simpa using hplain) receipts (by rw [systems]),
        hmanned.of_names receipts (by rw [systems])⟩

theorem settled_run (ops : List Operation) :
    (run c u key (.fresh key) ops).db.Interred ∧ (run c u key (.fresh key) ops).db.Manned := by
  refine run_keeps (P := fun s => s.db.Interred ∧ s.db.Manned) ?_ ⟨?_, ?_⟩
  · exact fun s s' k _ hcommit h => hcommit.settled h.1 h.2
  · exact fun systemId hdeleted => absurd rfl hdeleted
  · exact fun record hrecord => absurd hrecord List.not_mem_nil

namespace Database

variable {db db' : Database}

theorem Interred.not_deletable (h : db.Interred) (systemId : SystemId) : db.deletableChain systemId = false := by
  rw [← Bool.not_eq_true]
  intro htrue
  obtain ⟨genesis, hgenesis, hall⟩ := List.any_eq_true.mp htrue
  simp only [Bool.and_eq_true, beq_iff_eq] at hall
  obtain ⟨⟨⟨hname, -⟩, hlogged⟩, -⟩ := hall
  obtain ⟨entry, hentry, hmatch⟩ := List.any_eq_true.mp hlogged
  simp only [Bool.and_eq_true, beq_iff_eq] at hmatch
  exact (h systemId (deletionOf_logged hentry hmatch.1.1 hmatch.1.2)).1 genesis hgenesis hname

theorem Interred.not_erasable (h : db.Interred) (systemId : SystemId) :
    db.operatorErasableChain systemId = false := by
  rw [← Bool.not_eq_true]
  intro htrue
  obtain ⟨record, hrecord, hall⟩ := List.any_eq_true.mp htrue
  simp only [Bool.and_eq_true, beq_iff_eq] at hall
  obtain ⟨⟨hname, hlogged⟩, -⟩ := hall
  obtain ⟨entry, hentry, hmatch⟩ := List.any_eq_true.mp hlogged
  simp only [Bool.and_eq_true, beq_iff_eq] at hmatch
  exact (h systemId (deletionOf_logged hentry hmatch.1.1 hmatch.1.2)).2 record hrecord hname

/-- **No statement deletes anything**: whichever rows it is aimed at, it fails or finds none. -/
structure Sealed (db : Database) : Prop where
  receipts : ∀ p db', db.deleteReceipts p = .ok db' → db' = db
  checkpoints : ∀ p db', db.deleteCheckpoints p = .ok db' → db' = db
  timestamps : ∀ p db', db.deleteTimestamps p = .ok db' → db' = db
  artifacts : ∀ p db', db.deleteArtifacts p = .ok db' → db' = db
  systems : ∀ p db', db.deleteSystems p = .ok db' → db' = db

/-- Where no row may go, none that a statement found is left to go. -/
theorem filter_of_guarded {α : Type} {rows : List α} {p free : α → Bool} (hfree : ∀ a ∈ rows, free a = false)
    (h : ¬ (rows.filter p).any (fun a => !free a) = true) : rows.filter (fun a => !p a) = rows := by
  refine List.filter_eq_self.mpr fun a ha => ?_
  cases hp : p a with
  | false => rfl
  | true =>
      refine absurd (List.any_eq_true.mpr ⟨a, List.mem_filter.mpr ⟨ha, hp⟩, ?_⟩) h
      rw [hfree a ha]
      rfl

theorem Interred.not_checkpointDeletable (h : db.Interred) (row : CheckpointRow) :
    db.checkpointDeletable row = false := by
  rw [checkpointDeletable, h.not_deletable, h.not_erasable, Bool.and_false, Bool.or_false]

theorem Interred.sealed (h : db.Interred) (hmanned : db.Manned) : db.Sealed where
  receipts := by
    intro p db' hdelete
    rw [deleteReceipts] at hdelete
    split at hdelete
    · cases hdelete
    · rename_i hguard
      split at hdelete
      · cases hdelete
      · obtain rfl := Except.ok.inj hdelete
        rw [filter_of_guarded (fun row _ => ?_) hguard]
        rw [receiptDeletable, h.not_deletable, h.not_erasable, Bool.and_false, Bool.or_false]
  checkpoints := by
    intro p db' hdelete
    rw [deleteCheckpoints] at hdelete
    split at hdelete
    · cases hdelete
    · rename_i hguard
      split at hdelete
      · cases hdelete
      · obtain rfl := Except.ok.inj hdelete
        rw [filter_of_guarded (fun row _ => h.not_checkpointDeletable row) hguard]
  timestamps := by
    intro p db' hdelete
    rw [deleteTimestamps] at hdelete
    split at hdelete
    · cases hdelete
    · rename_i hguard
      obtain rfl := Except.ok.inj hdelete
      rw [filter_of_guarded (fun row _ => ?_) hguard]
      refine List.any_eq_false.mpr fun checkpoint _ => ?_
      rw [h.not_checkpointDeletable, Bool.and_false]
      exact Bool.false_ne_true
  artifacts := by
    intro p db' hdelete
    rw [deleteArtifacts] at hdelete
    split at hdelete
    · cases hdelete
    · rename_i hguard
      obtain rfl := Except.ok.inj hdelete
      rw [filter_of_guarded (fun row _ => h.not_erasable row.systemId) hguard]
  systems := by
    intro p db' hdelete
    rw [deleteSystems] at hdelete
    split at hdelete
    · cases hdelete
    · rename_i hreceipts
      split at hdelete
      · cases hdelete
      · obtain rfl := Except.ok.inj hdelete
        have hall : db.systems.filter (fun record => !p record) = db.systems := by
          refine List.filter_eq_self.mpr fun record hrecord => ?_
          cases hp : p record with
          | false => rfl
          | true =>
              obtain ⟨row, hrow, hname⟩ := hmanned record hrecord
              have hany : (db.receipts.any fun r => r.systemId == record.systemId) = true :=
                List.any_eq_true.mpr ⟨row, hrow, beq_iff_eq.mpr hname⟩
              exact absurd (List.any_eq_true.mpr ⟨record, List.mem_filter.mpr ⟨hrecord, hp⟩, hany⟩) hreceipts
        rw [hall]

end Database

/-- **Between two operations the tables of the record cannot be deleted from**: in every database the
    store can leave, a `DELETE` on receipts, checkpoints, timestamp tokens, artifacts or systems, aimed
    at whichever rows and sent through whatever connection, fails or takes nothing. -/
theorem guards_hold (c : Crypto) (u : Unicode) (key : WriterKey) (ops : List Operation) :
    (run c u key (.fresh key) ops).db.Sealed := by
  obtain ⟨hinterred, hmanned⟩ := @settled_run c u key ops
  exact hinterred.sealed hmanned

end Sigillo
