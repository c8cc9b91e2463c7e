import Sigillo.DeletedChains
import Sigillo.KeptRows

/-!
# The deletion of an organization

A customer that never recorded an action is deleted in several transactions, each an entry of the store's
queue: one for each of its systems, and a last one for its people and itself. Whatever else is in the queue
lands in between, so a deletion that is refused leaves everything there exactly when it is refused before it
has deleted its first system (**`deletion_all_or_nothing_iff`**). -/

namespace Sigillo

open DoubleArith Utf16Text JsonText JsonSchema HexBase64 IsoTime Fallible

-- ── The deletion ─────────────────────────────────────────────────────────────────

/-- `receiptsSince(organizationId, "")`: every text comes after the empty one. -/
def Database.recordedActions (db : Database) (organizationId : JsString) : ℕ :=
  (db.receipts.filter fun r => r.actionKind != .genesis
    && db.systems.any fun s => s.systemId == r.systemId && s.organizationId == some organizationId).length

/-- The systems of an organization, `ORDER BY s.system_id`. -/
def Database.systemsOf (db : Database) (organizationId : JsString) : List SystemId :=
  ((db.systems.filter fun s => s.organizationId == some organizationId).map (·.systemId)).insertionSort
    fun a b => lexLe a.1 b.1 = true

/-- How a deletion ends, and which other operations have landed by then. -/
structure DeletionEnd where
  store : Store
  landed : List Operation
  result : Except StoreError Unit

section

variable (c : Crypto) (u : Unicode) (key : WriterKey)

/-- The systems, one transaction each; what lands before each of them is the next of `gaps`. -/
def deleteSystems (request : AdminRequest) (s : Store) (landed : List Operation) :
    List SystemId → List (List Operation) → DeletionEnd
  | [], _ => ⟨s, landed, .ok ()⟩
  | systemId :: rest, gaps =>
      match deleteEmptySystem (run c u key s (gaps.headD [])) systemId request with
      | (s, .error e) => ⟨s, landed ++ gaps.headD [], .error e⟩
      | (s, .ok ()) => deleteSystems request s (landed ++ gaps.headD []) rest gaps.tail

/-- **`deleteOrganization`**, with what lands before each of its systems and before its end. -/
def organizationDeletion (s : Store) (organizationId : JsString) (request : AdminRequest)
    (gaps : List (List Operation)) (last : List Operation) : DeletionEnd :=
  match s.db.organization organizationId with
  | none => ⟨s, [], .error (unknownOrganization organizationId)⟩
  | some organization =>
      if 0 < s.db.recordedActions organizationId then
        ⟨s, [], .error (.storage (organizationId ++ js " has recorded actions: they are "
          ++ js "never deleted; archive its " ++ js "systems instead"))⟩
      else
        match deleteSystems c u key request s [] (s.db.systemsOf organizationId) gaps with
        | ⟨s, landed, .error e⟩ => ⟨s, landed, .error e⟩
        | ⟨s, landed, .ok ()⟩ =>
            match deleteOrganization (run c u key s last) organization request with
            | (s, result) => ⟨s, landed ++ last, result⟩

end

variable {c : Crypto} {u : Unicode} {key : WriterKey}

-- ── One system ───────────────────────────────────────────────────────────────────

theorem transact_error {α : Type} {s s' : Store} {result : Except StoreError (Database × List Happening × α)}
    {e : StoreError} (h : s.transact result = (s', .error e)) : s' = s := by
  cases result with
  | error e' => exact (Prod.mk.inj h).1.symm
  | ok out => cases (Prod.mk.inj h).2

theorem deleteEmptySystem_error {s s' : Store} {systemId : SystemId} {request : AdminRequest} {e : StoreError}
    (h : deleteEmptySystem s systemId request = (s', .error e)) : s' = s := transact_error h

/-- **A system that may be deleted**: it is there, its chain is its genesis alone, nothing hangs from that
    receipt, and every checkpoint is of that one receipt. -/
structure Database.HoldsOnlyGenesis (db : Database) (systemId : SystemId) : Prop where
  registered : db.systemRow systemId ≠ none
  alone : ∃ genesis, db.chainRows systemId = [genesis] ∧ genesis.seq.1 = 0
  bare : ∀ seq : Count, seq.1 = 0 → (∀ a ∈ db.artifacts, ¬ (a.systemId = systemId ∧ a.seq = seq)) ∧
    ∀ o ∈ db.openings, ¬ (o.systemId = systemId ∧ o.seq = seq)
  checkpoints : ∀ row ∈ db.checkpoints, row.checkpoint.systemId = systemId →
    row.checkpoint.treeSize.1 = 1 ∨ db.operatorErasableChain systemId = true

section

variable {db : Database} {systemId : SystemId} {genesis : ReceiptRow} {request : AdminRequest}
  {detail : List (JsString × Json)}

/-- A chain whose deletion is logged by the hash of its only receipt may go. -/
theorem deletableChain_logged (hrows : db.chainRows systemId = [genesis]) (hseq : genesis.seq.1 = 0) :
    (db.logAdmin .systemDelete (some systemId) request detail (some genesis.hash)).deletableChain systemId = true := by
  obtain ⟨hgenesis, hname⟩ := mem_chainRows.mp (hrows ▸ List.mem_singleton_self genesis)
  have hlater : (db.receipts.any fun later => later.systemId == systemId && decide (0 < later.seq.1)) = false := by
    rw [List.any_eq_false]
    intro later hlater hpos
    obtain ⟨hsystem, hpos⟩ := Bool.and_eq_true_iff.mp hpos
    have hmem := mem_chainRows.mpr ⟨hlater, beq_iff_eq.mp hsystem⟩
    rw [hrows, List.mem_singleton] at hmem
    rw [hmem, hseq] at hpos
    cases hpos
  have hentry : ((db.logAdmin .systemDelete (some systemId) request detail (some genesis.hash)).adminLog.any
      fun entry => entry.action == .systemDelete && entry.systemId == some systemId
        && entry.genesisHash == some genesis.hash) = true := by
    refine List.any_eq_true.mpr ⟨_, List.mem_append_right _ (List.mem_singleton_self _), ?_⟩
    simp
  refine List.any_eq_true.mpr ⟨genesis, hgenesis, ?_⟩
  show (_ && _ && List.any (db.logAdmin .systemDelete (some systemId) request detail (some genesis.hash)).adminLog _
    && !(db.receipts.any _)) = true
  rw [hlater, hname, hseq, hentry]
  simp

/-- An entry that names no receipts erased makes no chain the operator's to erase. -/
theorem operatorErasableChain_logged (hdetail : Database.jsonExtract detail (js "receipts_erased") = none)
    (hash : Option (Hex 64)) :
    (db.logAdmin .systemDelete (some systemId) request detail hash).operatorErasableChain systemId
      = db.operatorErasableChain systemId := by
  have hlog : ∀ id, (db.logAdmin .systemDelete (some systemId) request detail hash).erasureLogged id
      = db.erasureLogged id := by
    intro id
    rw [Database.erasureLogged, Database.logAdmin, List.any_append]
    exact Bool.or_false _
  rw [Database.operatorErasableChain, Database.operatorErasableChain]
  simp only [hlog]
  simp only [Database.logAdmin, List.any_append, List.any_cons, List.any_nil, hdetail, Option.isSome_none,
    Bool.and_false, Bool.or_false]

end

theorem deletedDetail_names (db : Database) (record : SystemRow) (displayName : Option JsString)
    (genesis : ReceiptRow) :
    Database.jsonExtract (deletedDetail db record displayName genesis) (js "receipts_erased") = none := rfl

/-- The checkpoints of a chain that may go may go where each is of one receipt, or the operator may erase it. -/
theorem deleteAnchors_isOk {db : Database} {systemId : SystemId} (hchain : db.deletableChain systemId = true) :
    (∃ db', deleteAnchors db systemId = .ok db') ↔ ∀ row ∈ db.checkpoints, row.checkpoint.systemId = systemId →
      row.checkpoint.treeSize.1 = 1 ∨ db.operatorErasableChain systemId = true := by
  have hfree : ∀ row : CheckpointRow, row.checkpoint.systemId = systemId → (db.checkpointDeletable row = true ↔
      (row.checkpoint.treeSize.1 = 1 ∨ db.operatorErasableChain systemId = true)) := by
    intro row hname
    rw [Database.checkpointDeletable, hname, hchain, Bool.and_true, Bool.or_eq_true, beq_iff_eq]
  unfold deleteAnchors
  constructor
  · rintro ⟨db', h⟩ row hrow hname
    obtain ⟨db₁, htimestamps, hcheckpoints⟩ := bind_eq_ok.mp h
    rw [Database.deleteTimestamps] at htimestamps
    split at htimestamps
    · cases htimestamps
    · obtain rfl := Except.ok.inj htimestamps
      rw [Database.deleteCheckpoints] at hcheckpoints
      split at hcheckpoints
      · cases hcheckpoints
      · rename_i hall
        refine (hfree row hname).mp ?_
        by_contra hheld
        refine hall (List.any_eq_true.mpr ⟨row, List.mem_filter.mpr ⟨hrow, beq_iff_eq.mpr hname⟩, ?_⟩)
        rw [Bool.not_eq_true'] 
        exact Bool.eq_false_iff.mpr hheld
  · intro h
    have hall : ∀ row ∈ db.checkpoints, row.checkpoint.systemId = systemId → db.checkpointDeletable row = true :=
      fun row hrow hname => (hfree row hname).mpr (h row hrow hname)
    have htimestamps : (db.deleteTimestamps fun t => ((db.checkpoints.filter fun r =>
        r.checkpoint.systemId == systemId).map (·.id)).contains t.checkpointId) = .ok { db with
          timestamps := db.timestamps.filter fun t => !((db.checkpoints.filter fun r =>
            r.checkpoint.systemId == systemId).map (·.id)).contains t.checkpointId } := by
      refine if_neg fun hheld => ?_
      obtain ⟨t, ht, hnone⟩ := List.any_eq_true.mp hheld
      obtain ⟨-, hid⟩ := List.mem_filter.mp ht
      obtain ⟨row, hrow, heq⟩ := List.mem_map.mp (List.contains_iff_mem.mp hid)
      obtain ⟨hrow, hname⟩ := List.mem_filter.mp hrow
      rw [Bool.not_eq_true', List.any_eq_false] at hnone
      refine hnone row hrow ?_
      rw [heq, hall row hrow (beq_iff_eq.mp hname), beq_self_eq_true]
      rfl
    refine ⟨_, bind_eq_ok.mpr ⟨_, htimestamps, (if_neg fun hheld => ?_).trans (if_neg fun hheld => ?_)⟩⟩
    · obtain ⟨row, hrow, hnot⟩ := List.any_eq_true.mp hheld
      obtain ⟨hrow, hname⟩ := List.mem_filter.mp hrow
      have hheld : (!db.checkpointDeletable row) = true := hnot
      rw [hall row hrow (beq_iff_eq.mp hname)] at hheld
      cases hheld
    · obtain ⟨row, hrow, hleft⟩ := List.any_eq_true.mp hheld
      obtain ⟨t, ht, hid⟩ := List.any_eq_true.mp hleft
      obtain ⟨-, hgone⟩ := List.mem_filter.mp ht
      rw [beq_iff_eq.mp hid, List.contains_iff_mem.mpr (List.mem_map_of_mem hrow)] at hgone
      cases hgone

/-- A genesis alone goes, unless something still refers to it. -/
theorem deleteReceipts_genesis {d : Database} {systemId : SystemId} {genesis : ReceiptRow}
    (hrows : d.chainRows systemId = [genesis]) (hseq : genesis.seq.1 = 0)
    (hchain : d.deletableChain systemId = true) :
    (d.deleteReceipts fun r => r.systemId == systemId && r.seq.1 == 0) =
      if ((d.artifacts.any fun a => a.systemId == systemId && a.seq == genesis.seq)
          || d.openings.any fun o => o.systemId == systemId && o.seq == genesis.seq) = true then .error .constraint
      else .ok { d with receipts := d.receipts.filter fun r => !(r.systemId == systemId) } := by
  obtain ⟨-, hname⟩ := mem_chainRows.mp (hrows ▸ List.mem_singleton_self genesis)
  have hits : (d.receipts.filter fun r => r.systemId == systemId) = [genesis] := by
    have hsame := List.mergeSort_perm (d.receipts.filter fun r => r.systemId == systemId)
      fun a b => decide (a.seq.1 ≤ b.seq.1)
    rw [show List.mergeSort _ _ = [genesis] from hrows] at hsame
    exact (List.singleton_perm.mp hsame).symm
  have hgone : (d.receipts.filter fun r => r.systemId == systemId && r.seq.1 == 0) = [genesis] := by
    rw [show (fun r : ReceiptRow => r.systemId == systemId && r.seq.1 == 0)
      = fun r => (r.seq.1 == 0) && (r.systemId == systemId) from funext fun r => Bool.and_comm .., ← List.filter_filter,
      hits, List.filter_cons_of_pos (by rw [hseq]; rfl), List.filter_nil]
  have hmay : d.receiptDeletable genesis = true := by
    rw [Database.receiptDeletable, hseq, hname, hchain]
    rfl
  rw [Database.deleteReceipts, hgone, filter_genesis hrows hseq]
  simp only [List.any_cons, List.any_nil, hmay, hname, Bool.not_true, Bool.or_false, Bool.false_eq_true, if_false]

/-- What hangs from a system whose chain is gone goes with it. -/
theorem deleteRest_isOk {db : Database} {systemId : SystemId} (hgone : ∀ r ∈ db.receipts, r.systemId ≠ systemId) :
    ∃ db', deleteRest db systemId = .ok db' := by
  have hnamed : ∀ record ∈ db.systems.filter (fun r => r.systemId == systemId), record.systemId = systemId :=
    fun record hrecord => beq_iff_eq.mp (List.mem_filter.mp hrecord).2
  have hfiltered : ∀ {α : Type} {l : List α} {p : α → Bool}, ¬ (l.filter fun x => !p x).any p = true := by
    intro α l p h
    obtain ⟨x, hx, hp⟩ := List.any_eq_true.mp h
    obtain ⟨-, hnot⟩ := List.mem_filter.mp hx
    rw [hp] at hnot
    cases hnot
  refine ⟨_, (if_neg fun hleft => ?_).trans (if_neg fun hleft => ?_)⟩
  · obtain ⟨record, hrecord, hreceipts⟩ := List.any_eq_true.mp hleft
    obtain ⟨r, hr, hsame⟩ := List.any_eq_true.mp hreceipts
    exact hgone r hr ((beq_iff_eq.mp hsame).trans (hnamed record hrecord))
  · obtain ⟨record, hrecord, hrefers⟩ := List.any_eq_true.mp hleft
    obtain rfl := hnamed record hrecord
    rcases Bool.or_eq_true_iff.mp hrefers with hrefers | hrefers
    · exact hfiltered hrefers
    · exact hfiltered hrefers

/-- **What the deletion asks of the tables**, once it is on record. -/
theorem deleteChain_isOk {d : Database} {systemId : SystemId} {genesis : ReceiptRow}
    (hrows : d.chainRows systemId = [genesis]) (hseq : genesis.seq.1 = 0)
    (hchain : d.deletableChain systemId = true) :
    (∃ db', (do
        let db ← deleteAnchors d systemId
        let db ← db.deleteReceipts fun r => r.systemId == systemId && r.seq.1 == 0
        deleteRest db systemId) = .ok db') ↔
      (∀ row ∈ d.checkpoints, row.checkpoint.systemId = systemId →
        row.checkpoint.treeSize.1 = 1 ∨ d.operatorErasableChain systemId = true) ∧
      (∀ a ∈ d.artifacts, ¬ (a.systemId = systemId ∧ a.seq = genesis.seq)) ∧
        ∀ o ∈ d.openings, ¬ (o.systemId = systemId ∧ o.seq = genesis.seq) := by
  rw [← deleteAnchors_isOk hchain]
  have hfree : ((d.artifacts.any fun a => a.systemId == systemId && a.seq == genesis.seq)
      || d.openings.any fun o => o.systemId == systemId && o.seq == genesis.seq) = false ↔
      (∀ a ∈ d.artifacts, ¬ (a.systemId = systemId ∧ a.seq = genesis.seq)) ∧
        ∀ o ∈ d.openings, ¬ (o.systemId = systemId ∧ o.seq = genesis.seq) := by
    simp only [Bool.or_eq_false_iff, List.any_eq_false, Bool.and_eq_true, beq_iff_eq]
  rw [← hfree]
  constructor
  · rintro ⟨db', h⟩
    obtain ⟨db₁, hanchors, h⟩ := bind_eq_ok.mp h
    obtain ⟨db₂, hreceipts, -⟩ := bind_eq_ok.mp h
    refine ⟨⟨db₁, hanchors⟩, Bool.eq_false_iff.mpr fun hheld => ?_⟩
    obtain ⟨timestamps, checkpoints, rfl⟩ := deleteAnchors_ok hanchors
    have hrefused := (deleteReceipts_genesis (d := { d with timestamps, checkpoints }) hrows hseq hchain).trans
      (if_pos hheld)
    cases hreceipts.symm.trans hrefused
  · rintro ⟨⟨db₁, hanchors⟩, hnone⟩
    obtain ⟨timestamps, checkpoints, rfl⟩ := deleteAnchors_ok hanchors
    have hreceipts := (deleteReceipts_genesis (d := { d with timestamps, checkpoints }) hrows hseq hchain).trans
      (if_neg (Bool.eq_false_iff.mp hnone))
    obtain ⟨db₂, hrest⟩ : ∃ db₂, deleteRest { d with
        timestamps, checkpoints, receipts := d.receipts.filter fun r => !(r.systemId == systemId) } systemId = .ok db₂ := by
      refine deleteRest_isOk fun r hr hsame => ?_
      obtain ⟨-, hother⟩ := List.mem_filter.mp hr
      rw [beq_iff_eq.mpr hsame] at hother
      cases hother
    exact ⟨db₂, bind_eq_ok.mpr ⟨_, hanchors, bind_eq_ok.mpr ⟨_, hreceipts, hrest⟩⟩⟩

theorem holdsOnlyGenesis_iff {db : Database} {systemId : SystemId} {record : SystemRow} {genesis : ReceiptRow}
    (hrecord : db.systemRow systemId = some record) (hrows : db.chainRows systemId = [genesis])
    (hseq : genesis.seq.1 = 0) : db.HoldsOnlyGenesis systemId ↔
      (∀ row ∈ db.checkpoints, row.checkpoint.systemId = systemId →
        row.checkpoint.treeSize.1 = 1 ∨ db.operatorErasableChain systemId = true) ∧
      (∀ a ∈ db.artifacts, ¬ (a.systemId = systemId ∧ a.seq = genesis.seq)) ∧
        ∀ o ∈ db.openings, ¬ (o.systemId = systemId ∧ o.seq = genesis.seq) := by
  constructor
  · intro h
    exact ⟨h.checkpoints, h.bare genesis.seq hseq⟩
  · rintro ⟨hcheckpoints, hbare⟩
    refine ⟨?_, ⟨genesis, hrows, hseq⟩, fun seq hzero => ?_, hcheckpoints⟩
    · rw [hrecord]
      exact Option.some_ne_none _
    · rw [show seq = genesis.seq from Subtype.ext (hzero.trans hseq.symm)]
      exact hbare

/-- **A system is deleted exactly when it holds its genesis only**; then its chain is gone, and the log says so. -/
theorem deleteEmptySystem_cases (s : Store) (systemId : SystemId) (request : AdminRequest) :
    (∃ e, deleteEmptySystem s systemId request = (s, .error e) ∧ ¬ s.db.HoldsOnlyGenesis systemId) ∨
      ∃ db, deleteEmptySystem s systemId request
          = ({ s with db, history := s.history ++ [.deletedChain systemId] }, .ok ()) ∧
        s.db.HoldsOnlyGenesis systemId ∧ Deletes s.db db systemId := by
  rw [deleteEmptySystem, administer]
  cases hrecord : s.db.systemRow systemId with
  | none => exact .inl ⟨_, rfl, fun h => h.registered hrecord⟩
  | some record =>
      dsimp only
      rcases hrows : s.db.chainRows systemId with _ | ⟨genesis, _ | ⟨second, more⟩⟩
      · refine .inl ⟨_, rfl, fun h => ?_⟩
        obtain ⟨genesis, heq, -⟩ := h.alone
        cases hrows.symm.trans heq
      · dsimp only
        by_cases hseq : genesis.seq.1 = 0
        · rw [if_neg (not_not.mpr hseq)]
          have hwork := deleteChain_isOk (d := s.db.logAdmin .systemDelete (some systemId) request
            (deletedDetail s.db record record.displayName genesis) (some genesis.hash)) hrows hseq
            (deletableChain_logged hrows hseq)
          rw [operatorErasableChain_logged (deletedDetail_names _ _ _ _)] at hwork
          have hmay := (holdsOnlyGenesis_iff hrecord hrows hseq).trans hwork.symm
          generalize hresult : (do
            let db ← deleteAnchors _ systemId
            let db ← Database.deleteReceipts db fun r => r.systemId == systemId && r.seq.1 == 0
            let db ← deleteRest db systemId
            return (db, [Happening.deletedChain systemId], ()) :
              Except StoreError (Database × List Happening × Unit)) = result
          cases result with
          | error e =>
              refine .inl ⟨e, rfl, fun h => ?_⟩
              obtain ⟨db', hok⟩ := hmay.mp h
              obtain ⟨db₁, hanchors, hok⟩ := bind_eq_ok.mp hok
              obtain ⟨db₂, hreceipts, hrest⟩ := bind_eq_ok.mp hok
              cases hresult.symm.trans (bind_eq_ok.mpr ⟨db₁, hanchors, bind_eq_ok.mpr ⟨db₂, hreceipts,
                bind_eq_ok.mpr ⟨db', hrest, rfl⟩⟩⟩)
          | ok out =>
              obtain ⟨db₁, hanchors, hok⟩ := bind_eq_ok.mp hresult
              obtain ⟨db₂, hreceipts, hok⟩ := bind_eq_ok.mp hok
              obtain ⟨db', hrest, hok⟩ := bind_eq_ok.mp hok
              obtain rfl := Except.ok.inj hok
              refine .inr ⟨db', rfl, hmay.mpr ⟨db', bind_eq_ok.mpr ⟨db₁, hanchors, bind_eq_ok.mpr ⟨db₂, hreceipts,
                hrest⟩⟩⟩, ?_⟩
              obtain ⟨timestamps, checkpoints, rfl⟩ := deleteAnchors_ok hanchors
              obtain ⟨-, rfl⟩ := deleteReceipts_ok hreceipts
              obtain ⟨apiKeys, transferLinks, connections, rfl⟩ := deleteRest_ok hrest
              exact ⟨filter_genesis hrows hseq, rfl, rfl, rfl, rfl, rfl, _, rfl, rfl, rfl⟩
        · rw [if_pos hseq]
          refine .inl ⟨_, rfl, fun h => ?_⟩
          obtain ⟨first, heq, hfirst⟩ := h.alone
          cases hrows.symm.trans heq
          exact hseq hfirst
      · refine .inl ⟨_, rfl, fun h => ?_⟩
        obtain ⟨genesis, heq, -⟩ := h.alone
        cases hrows.symm.trans heq

theorem deleteEmptySystem_isOk {s : Store} {systemId : SystemId} (request : AdminRequest) :
    (deleteEmptySystem s systemId request).2 = .ok () ↔ s.db.HoldsOnlyGenesis systemId := by
  rcases deleteEmptySystem_cases s systemId request with ⟨e, heq, hnot⟩ | ⟨db, heq, hholds, -⟩
  · rw [heq]
    exact iff_of_false (fun h => nomatch h) hnot
  · rw [heq]
    exact iff_of_true rfl hholds

/-- **A system that is deleted had one receipt**, and has none any more. -/
theorem deleteEmptySystem_ok {s s' : Store} {systemId : SystemId} {request : AdminRequest} {result : Unit}
    (h : deleteEmptySystem s systemId request = (s', .ok result)) :
    (∃ genesis ∈ s.db.receipts, genesis.systemId = systemId) ∧ .deletedChain systemId ∈ s'.history := by
  rcases deleteEmptySystem_cases s systemId request with ⟨e, heq, -⟩ | ⟨db, heq, hholds, -⟩
  · cases (Prod.mk.inj (h.symm.trans heq)).2
  · obtain ⟨genesis, hrows, -⟩ := hholds.alone
    obtain ⟨hmem, hname⟩ := mem_chainRows.mp (hrows ▸ List.mem_singleton_self genesis)
    obtain ⟨rfl, -⟩ := Prod.mk.inj (h.symm.trans heq)
    exact ⟨⟨genesis, hmem, hname⟩, List.mem_append_right _ (List.mem_singleton_self _)⟩

/-- An operation that deletes no chain. -/
def Operation.DeletesNothing (op : Operation) : Prop := ∀ k, op.Allows k → k.IsOrdinary

/-- Where nothing is deleted, no chain is said to be. -/
theorem deleted_of_ordinary {s s' : Store} (h : Commits c u key Kind.IsOrdinary s s') {systemId : SystemId}
    (hdeleted : .deletedChain systemId ∈ s'.history) : .deletedChain systemId ∈ s.history := by
  induction h with
  | refl => exact hdeleted
  | tail _ hlast ih =>
      refine ih ?_
      obtain ⟨k, hk, hcommit⟩ := hlast
      cases hcommit with
      | wrote writes =>
          rcases List.mem_append.mp hdeleted with hold | hnew
          · exact hold
          · cases List.mem_singleton.mp hnew
      | recovered ahead missing restores =>
          rcases List.mem_append.mp hdeleted with hold | hnew
          · exact hold
          · obtain ⟨r, -, heq⟩ := List.mem_map.mp hnew
            cases heq
      | beside h => exact hdeleted
      | _ => rcases hk with hk | hk | hk <;> cases hk

/-- Transactions of these kinds are transactions of those. -/
theorem Commits.weaken {allowed other : Kind → Prop} {s s' : Store} (h : Commits c u key allowed s s')
    (himp : ∀ k, allowed k → other k) : Commits c u key other s s' := by
  induction h with
  | refl => exact .refl
  | tail _ hlast ih =>
      obtain ⟨k, hk, hcommit⟩ := hlast
      exact ih.tail ⟨k, himp k hk, hcommit⟩

theorem run_ordinary {ops : List Operation} (h : ∀ op ∈ ops, op.DeletesNothing) (s : Store) :
    Commits c u key Kind.IsOrdinary s (run c u key s ops) := by
  induction ops generalizing s with
  | nil => exact .refl
  | cons op rest ih =>
      have hop : Commits c u key op.Allows s (perform c u key s op) := perform_commits s op
      exact (hop.weaken (h op List.mem_cons_self)).trans (ih (fun op hop => h op (List.mem_cons_of_mem _ hop)) _)

-- ── The systems ──────────────────────────────────────────────────────────────────

/-- **What the deletion of the systems does**: only transactions, after operations that landed; where none is
    refused, every system is deleted. -/
structure DeletionEnd.Follows (c : Crypto) (u : Unicode) (key : WriterKey) (ends : DeletionEnd) (s : Store)
    (landed : List Operation) : Prop where
  commits : Commits c u key (fun _ => True) s ends.store
  landed : ∃ extra, ends.landed = landed ++ extra ∧ ∀ op ∈ extra, op.DeletesNothing

theorem follows_deleteSystems {request : AdminRequest} {systems : List SystemId} {gaps : List (List Operation)}
    (hgaps : ∀ ops ∈ gaps, ∀ op ∈ ops, op.DeletesNothing) (s : Store) (landed : List Operation) :
    (deleteSystems c u key request s landed systems gaps).Follows c u key s landed ∧
      ((deleteSystems c u key request s landed systems gaps).result = .ok () → ∀ systemId ∈ systems,
        .deletedChain systemId ∈ (deleteSystems c u key request s landed systems gaps).store.history) := by
  induction systems generalizing s landed gaps with
  | nil => exact ⟨⟨.refl, [], (List.append_nil _).symm, fun _ h => absurd h List.not_mem_nil⟩,
      fun _ _ h => absurd h List.not_mem_nil⟩
  | cons systemId rest ih =>
      have hfirst : ∀ op ∈ gaps.headD [], op.DeletesNothing := by
        cases gaps with
        | nil => exact fun _ h => absurd h List.not_mem_nil
        | cons ops gaps => exact hgaps ops List.mem_cons_self
      have hrest : ∀ ops ∈ gaps.tail, ∀ op ∈ ops, op.DeletesNothing :=
        fun ops hops => hgaps ops (List.mem_of_mem_tail hops)
      have hran : Commits c u key Kind.IsOrdinary s (run c u key s (gaps.headD [])) := run_ordinary hfirst s
      have hdeletion : Commits c u key (· = .deleteEmpty systemId) (run c u key s (gaps.headD []))
          (deleteEmptySystem (run c u key s (gaps.headD [])) systemId request).1 := deleteEmptySystem_commits _ _ _
      rw [deleteSystems]
      cases hresult : deleteEmptySystem (run c u key s (gaps.headD [])) systemId request with
      | mk s₁ result =>
          rw [hresult] at hdeletion
          have hboth : Commits c u key (fun _ => True) s s₁ :=
            (hran.weaken fun _ _ => trivial).trans (hdeletion.weaken fun _ _ => trivial)
          cases result with
          | error e => exact ⟨⟨hboth, gaps.headD [], rfl, hfirst⟩, fun h => nomatch h⟩
          | ok out =>
              obtain ⟨⟨hcommits, extra, hlanded, hextra⟩, hall⟩ := ih hrest s₁ (landed ++ gaps.headD [])
              refine ⟨⟨hboth.trans hcommits, gaps.headD [] ++ extra, ?_, fun op hop => ?_⟩, fun hok other hother => ?_⟩
              · rw [← List.append_assoc]
                exact hlanded
              · exact (List.mem_append.mp hop).elim (hfirst op) (hextra op)
              · rcases List.mem_cons.mp hother with rfl | hother
                · exact history_subset hcommits (deleteEmptySystem_ok hresult).2
                · exact hall hok other hother

-- ── Everything or nothing ────────────────────────────────────────────────────────

/-- **An organization is still there** as in `before`: its row, its people, and the systems it had or has by
    then, with their chains, checkpoints and keys. -/
structure StillThere (organizationId : JsString) (its : List SystemId) (before db : Database) : Prop where
  organization : db.organization organizationId = before.organization organizationId
  people : (db.users.filter fun r => r.organizationId == organizationId)
    = before.users.filter fun r => r.organizationId == organizationId
  owned : db.systemsOf organizationId = before.systemsOf organizationId
  systems : ∀ systemId, systemId ∈ its ∨ systemId ∈ before.systemsOf organizationId →
    db.systemRow systemId = before.systemRow systemId ∧
    (db.receipts.filter fun r => r.systemId == systemId) = (before.receipts.filter fun r => r.systemId == systemId) ∧
    (db.checkpoints.filter fun r => r.checkpoint.systemId == systemId)
      = (before.checkpoints.filter fun r => r.checkpoint.systemId == systemId) ∧
    (db.apiKeys.filter fun k => k.systemId == systemId) = (before.apiKeys.filter fun k => k.systemId == systemId)

theorem StillThere.refl (organizationId : JsString) (its : List SystemId) (db : Database) :
    StillThere organizationId its db db := ⟨rfl, rfl, rfl, fun _ _ => ⟨rfl, rfl, rfl, rfl⟩⟩

/-- **An organization is gone**: its row, its people, and every chain it had. -/
structure IsGone (organizationId : JsString) (its : List SystemId) (db : Database) : Prop where
  organization : db.organization organizationId = none
  people : ∀ r ∈ db.users, r.organizationId ≠ organizationId
  owned : ∀ s ∈ db.systems, s.organizationId ≠ some organizationId
  chains : ∀ systemId ∈ its, ∀ row ∈ db.receipts, row.systemId ≠ systemId

/-- **The deletion takes everything or nothing**: refused, it leaves the organization as the operations that
    landed would have without it; done, it leaves nothing. -/
def AllOrNothing (c : Crypto) (u : Unicode) (key : WriterKey) (s : Store) (organizationId : JsString)
    (request : AdminRequest) (gaps : List (List Operation)) (last : List Operation) : Prop :=
  let ends := organizationDeletion c u key s organizationId request gaps last
  (∀ e, ends.result = .error e →
      StillThere organizationId (s.db.systemsOf organizationId) (run c u key s ends.landed).db ends.store.db) ∧
    (ends.result = .ok () → IsGone organizationId (s.db.systemsOf organizationId) ends.store.db)

/-- Each system that is left holds its genesis only when its turn comes, and at the end none is the
    organization's. -/
def NothingInTheWay (c : Crypto) (u : Unicode) (key : WriterKey) (organizationId : JsString) (request : AdminRequest)
    (last : List Operation) : Store → List SystemId → List (List Operation) → Prop
  | s, [], _ => ∀ r ∈ (run c u key s last).db.systems, r.organizationId ≠ some organizationId
  | s, systemId :: rest, gaps =>
      (run c u key s (gaps.headD [])).db.HoldsOnlyGenesis systemId ∧
        NothingInTheWay c u key organizationId request last
          (deleteEmptySystem (run c u key s (gaps.headD [])) systemId request).1 rest gaps.tail

/-- **Nothing comes in the way once the first system is deleted.** -/
def UndisturbedAfterFirst (c : Crypto) (u : Unicode) (key : WriterKey) (s : Store) (organizationId : JsString)
    (request : AdminRequest) (gaps : List (List Operation)) (last : List Operation) : Prop :=
  s.db.organization organizationId ≠ none → s.db.recordedActions organizationId = 0 →
    ∀ systemId rest, s.db.systemsOf organizationId = systemId :: rest →
      (run c u key s (gaps.headD [])).db.HoldsOnlyGenesis systemId →
      NothingInTheWay c u key organizationId request last
        (deleteEmptySystem (run c u key s (gaps.headD [])) systemId request).1 rest gaps.tail

theorem organization_some {db : Database} {organizationId : JsString} {organization : Organization}
    (h : db.organization organizationId = some organization) : organization.organizationId = organizationId := by
  have hname := List.find?_some h
  exact beq_iff_eq.mp hname

/-- Nobody is left of an organization whose people are deleted. -/
theorem deleteOrganizationRow_without {db : Database} {organizationId : JsString} :
    Database.deleteOrganizationRow { db with users := db.users.filter fun r => !(r.organizationId == organizationId) }
        organizationId =
      if (db.systems.any fun r => r.organizationId == some organizationId) = true then .error .constraint
      else .ok { db with
        users := db.users.filter fun r => !(r.organizationId == organizationId)
        organizations := db.organizations.filter fun o => !(o.organizationId == organizationId) } := by
  have hnobody : ((db.users.filter fun r => !(r.organizationId == organizationId)).any fun r =>
      r.organizationId == organizationId) = false := by
    rw [List.any_eq_false]
    intro r hr hsame
    obtain ⟨-, hother⟩ := List.mem_filter.mp hr
    rw [hsame] at hother
    cases hother
  rw [Database.deleteOrganizationRow]
  show (if (_ || _) = true then _ else _) = _
  rw [hnobody, Bool.or_false]

/-- **The last transaction** is refused for a system that is the organization's, and for nothing else. -/
theorem deleteOrganization_cases (s : Store) (organization : Organization) (request : AdminRequest) :
    (∃ e, deleteOrganization s organization request = (s, .error e) ∧
        ∃ r ∈ s.db.systems, r.organizationId = some organization.organizationId) ∨
      ∃ s', deleteOrganization s organization request = (s', .ok ()) ∧
        (∀ r ∈ s.db.systems, r.organizationId ≠ some organization.organizationId) ∧
        s'.db.systems = s.db.systems ∧ s'.db.receipts = s.db.receipts ∧
        s'.db.organization organization.organizationId = none ∧
        ∀ r ∈ s'.db.users, r.organizationId ≠ organization.organizationId := by
  rw [deleteOrganization, removeOrganization, deleteOrganizationRow_without]
  by_cases hheld : (s.db.systems.any fun r => r.organizationId == some organization.organizationId) = true
  · rw [if_pos hheld]
    obtain ⟨r, hr, hsame⟩ := List.any_eq_true.mp hheld
    exact .inl ⟨_, rfl, r, hr, beq_iff_eq.mp hsame⟩
  · rw [if_neg hheld]
    refine .inr ⟨_, rfl, fun r hr hsame => hheld ?_, rfl, rfl, ?_, fun r hr hsame => ?_⟩
    · exact List.any_eq_true.mpr ⟨r, hr, beq_iff_eq.mpr hsame⟩
    · refine List.find?_eq_none.mpr fun o ho hsame => ?_
      obtain ⟨-, hother⟩ := List.mem_filter.mp ho
      rw [hsame] at hother
      cases hother
    · obtain ⟨-, hother⟩ := List.mem_filter.mp hr
      rw [beq_iff_eq.mpr hsame] at hother
      cases hother

theorem nothingInTheWay_iff {organizationId : JsString} {organization : Organization} {request : AdminRequest}
    (hname : organization.organizationId = organizationId) (last : List Operation) (s : Store) (landed : List Operation)
    (systems : List SystemId) (gaps : List (List Operation)) :
    NothingInTheWay c u key organizationId request last s systems gaps ↔
      (deleteSystems c u key request s landed systems gaps).result = .ok () ∧
      (deleteOrganization (run c u key (deleteSystems c u key request s landed systems gaps).store last) organization
        request).2 = .ok () := by
  induction systems generalizing s landed gaps with
  | nil =>
      rw [deleteSystems, NothingInTheWay]
      dsimp only
      rcases deleteOrganization_cases (run c u key s last) organization request with ⟨e, heq, r, hr, hheld⟩ |
        ⟨s', heq, hnone, -⟩
      · rw [heq]
        refine iff_of_false (fun h => h r hr (hname ▸ hheld)) fun h => ?_
        cases h.2
      · rw [heq]
        exact iff_of_true (fun r hr => hname ▸ hnone r hr) ⟨rfl, rfl⟩
  | cons systemId rest ih =>
      rw [deleteSystems, NothingInTheWay, ← deleteEmptySystem_isOk request]
      cases hresult : deleteEmptySystem (run c u key s (gaps.headD [])) systemId request with
      | mk s₁ result =>
          cases result with
          | error e => exact iff_of_false (fun h => nomatch h.1) fun h => nomatch h.1
          | ok out =>
              rw [← ih s₁ (landed ++ gaps.headD []) gaps.tail]
              exact and_iff_right rfl

theorem Store.Buried.run {s : Store} (h : s.Buried) (ops : List Operation) : (run c u key s ops).Buried := by
  induction ops generalizing s with
  | nil => exact h
  | cons op rest ih =>
      have hcommits : Commits c u key op.Allows s (perform c u key s op) := perform_commits s op
      exact ih (h.commits hcommits)

theorem performed_append (s : Store) (before after : List Operation) :
    run c u key s (before ++ after) = run c u key (run c u key s before) after := List.foldl_append ..

/-- **Once a system is deleted, not everything is still there.** -/
theorem not_stillThere {s s₁ : Store} {ends : DeletionEnd} {organizationId : JsString} {request : AdminRequest}
    {systemId : SystemId} {its : List SystemId} {landed : List Operation} {result : Unit} (hburied : s.Buried)
    (hdeleted : deleteEmptySystem (run c u key s landed) systemId request = (s₁, .ok result))
    (hends : ends.Follows c u key s₁ landed) (hits : systemId ∈ its) :
    ¬ StillThere organizationId its (run c u key s ends.landed).db ends.store.db := by
  intro hstill
  obtain ⟨⟨genesis, hgenesis, hname⟩, hhistory⟩ := deleteEmptySystem_ok hdeleted
  obtain ⟨extra, hmore, hextra⟩ := hends.landed
  have hfirst : (run c u key s landed).Buried := hburied.run landed
  have hran : Commits c u key Kind.IsOrdinary (run c u key s landed) (run c u key s ends.landed) := by
    rw [hmore, performed_append]
    exact run_ordinary hextra _
  have hthere : genesis ∈ (run c u key s ends.landed).db.receipts := by
    rcases row_kept hran (.inl hgenesis) with hrow | hgone
    · exact hrow
    · have hold := (hfirst genesis.systemId (deleted_of_ordinary hran hgone)).2 genesis hgenesis
      exact absurd rfl hold
  have hcommits : Commits c u key (· = .deleteEmpty systemId) (run c u key s landed)
      (deleteEmptySystem (run c u key s landed) systemId request).1 := deleteEmptySystem_commits _ _ _
  rw [hdeleted] at hcommits
  have hgone : ends.store.Buried := (hfirst.commits hcommits).commits hends.commits
  obtain ⟨-, hreceipts, -⟩ := hstill.systems systemId (.inl hits)
  have hmem : genesis ∈ (run c u key s ends.landed).db.receipts.filter fun r => r.systemId == systemId :=
    List.mem_filter.mpr ⟨hthere, beq_iff_eq.mpr hname⟩
  rw [← hreceipts] at hmem
  exact (hgone systemId (history_subset hends.commits hhistory)).2 genesis (List.mem_of_mem_filter hmem) hname

/-- **A deletion takes everything or nothing** exactly when nothing comes in its way once it has deleted its
    first system; whatever lands in between deletes nothing itself. -/
theorem deletion_all_or_nothing_iff (c : Crypto) (u : Unicode) (key : WriterKey) (ops : List Operation)
    (organizationId : JsString) (request : AdminRequest) {gaps : List (List Operation)} {last : List Operation}
    (hgaps : ∀ landing ∈ last :: gaps, ∀ op ∈ landing, op.DeletesNothing) :
    AllOrNothing c u key (run c u key (.fresh key) ops) organizationId request gaps last ↔
      UndisturbedAfterFirst c u key (run c u key (.fresh key) ops) organizationId request gaps last := by
  have hburied : (run c u key (.fresh key) ops).Buried := (buried_fresh key).run ops
  generalize run c u key (.fresh key) ops = s at hburied ⊢
  have hlast : ∀ op ∈ last, op.DeletesNothing := hgaps last List.mem_cons_self
  have hhead : ∀ op ∈ gaps.headD [], op.DeletesNothing := by
    cases gaps with
    | nil => exact fun _ h => absurd h List.not_mem_nil
    | cons first gaps => exact hgaps first (List.mem_cons_of_mem _ List.mem_cons_self)
  have htail : ∀ landing ∈ gaps.tail, ∀ op ∈ landing, op.DeletesNothing :=
    fun landing h => hgaps landing (List.mem_cons_of_mem _ (List.mem_of_mem_tail h))
  rw [AllOrNothing, organizationDeletion, UndisturbedAfterFirst]
  cases horganization : s.db.organization organizationId with
  | none => exact iff_of_true ⟨fun _ _ => .refl _ _ _, fun h => nomatch h⟩ fun h => absurd rfl h
  | some organization =>
      have hname := organization_some horganization
      dsimp only
      by_cases hrecorded : 0 < s.db.recordedActions organizationId
      · rw [if_pos hrecorded]
        exact iff_of_true ⟨fun _ _ => .refl _ _ _, fun h => nomatch h⟩ fun _ h => absurd h hrecorded.ne'
      · rw [if_neg hrecorded]
        have hnone : s.db.recordedActions organizationId = 0 := Nat.eq_zero_of_not_pos hrecorded
        cases hsystems : s.db.systemsOf organizationId with
        | nil =>
            refine iff_of_true ?_ fun _ _ _ _ h => nomatch h
            rw [deleteSystems]
            dsimp only
            rcases deleteOrganization_cases (run c u key s last) organization request with ⟨e, heq, -⟩ |
              ⟨s', heq, hfree, hsame, -, hgone, hnobody⟩
            · rw [heq]
              exact ⟨fun _ _ => .refl _ _ _, fun h => nomatch h⟩
            · rw [heq]
              rw [hname] at hgone hnobody hfree
              exact ⟨fun _ h => (nomatch h), fun _ => ⟨hgone, hnobody, hsame ▸ hfree, fun _ h => absurd h List.not_mem_nil⟩⟩
        | cons systemId rest =>
            rw [deleteSystems]
            cases hfirst : deleteEmptySystem (run c u key s (gaps.headD [])) systemId request with
            | mk s₁ result =>
                cases result with
                | error e =>
                    obtain rfl := deleteEmptySystem_error hfirst
                    dsimp only
                    refine iff_of_true ⟨fun _ _ => .refl _ _ _, fun h => nomatch h⟩ fun _ _ systemId' rest' heq hok => ?_
                    obtain ⟨rfl, rfl⟩ := List.cons.inj heq
                    have hok := (deleteEmptySystem_isOk request).mpr hok
                    rw [hfirst] at hok
                    cases hok
                | ok out =>
                    dsimp only
                    have hway : NothingInTheWay c u key organizationId request last s₁ rest gaps.tail ↔ _ :=
                      nothingInTheWay_iff hname last s₁ ([] ++ gaps.headD []) rest gaps.tail
                    obtain ⟨hfollows, hall⟩ : (deleteSystems c u key request s₁ ([] ++ gaps.headD []) rest
                      gaps.tail).Follows c u key s₁ ([] ++ gaps.headD []) ∧ _ := follows_deleteSystems htail s₁ _
                    generalize deleteSystems c u key request s₁ ([] ++ gaps.headD []) rest gaps.tail = ends
                      at hway hfollows hall ⊢
                    have hnext : (some organization ≠ none → s.db.recordedActions organizationId = 0 →
                        ∀ other others, systemId :: rest = other :: others →
                          (run c u key s (gaps.headD [])).db.HoldsOnlyGenesis other →
                          NothingInTheWay c u key organizationId request last
                            (deleteEmptySystem (run c u key s (gaps.headD [])) other request).1 others gaps.tail) ↔
                        NothingInTheWay c u key organizationId request last s₁ rest gaps.tail := by
                      constructor
                      · intro h
                        have hholds := (deleteEmptySystem_isOk request).mp (congrArg Prod.snd hfirst)
                        have hnext := h (fun h => nomatch h) hnone systemId rest rfl hholds
                        rw [hfirst] at hnext
                        exact hnext
                      · intro h _ _ other others heq _
                        obtain ⟨rfl, rfl⟩ := List.cons.inj heq
                        rw [hfirst]
                        exact h
                    rw [hnext, hway]
                    obtain ⟨s₂, landed, result⟩ := ends
                    have hran : Commits c u key (fun _ => True) s₁ (run c u key s₂ last) :=
                      hfollows.commits.trans ((run_ordinary hlast s₂).weaken fun _ _ => trivial)
                    cases result with
                    | error e =>
                        refine iff_of_false (fun h => ?_) fun h => nomatch h.1
                        exact not_stillThere hburied hfirst hfollows List.mem_cons_self (h.1 e rfl)
                    | ok out =>
                        rcases deleteOrganization_cases (run c u key s₂ last) organization request with
                          ⟨e, heq, -⟩ | ⟨s', heq, hfree, hsame, hkept, hgone, hnobody⟩
                        · dsimp only
                          rw [heq]
                          refine iff_of_false (fun h => ?_) fun h => nomatch h.2
                          obtain ⟨extra, hlanded, hextra⟩ := hfollows.landed
                          have hends : DeletionEnd.Follows c u key ⟨run c u key s₂ last, landed ++ last, .error e⟩ s₁
                              (gaps.headD []) := by
                            refine ⟨hran, extra ++ last, ?_, fun op hop => ?_⟩
                            · show landed ++ last = _
                              rw [show landed = _ from hlanded, List.append_assoc]
                              rfl
                            · exact (List.mem_append.mp hop).elim (hextra op) (hlast op)
                          exact not_stillThere hburied hfirst hends List.mem_cons_self (h.1 e rfl)
                        · dsimp only
                          rw [heq]
                          refine iff_of_true ⟨fun _ h => (nomatch h), fun _ => ?_⟩ ⟨rfl, rfl⟩
                          rw [hname] at hgone hnobody hfree
                          refine ⟨hgone, hnobody, hsame ▸ hfree, fun other hother row hrow => ?_⟩
                          have hcommits : Commits c u key (· = .deleteEmpty systemId) (run c u key s (gaps.headD []))
                              (deleteEmptySystem (run c u key s (gaps.headD [])) systemId request).1 :=
                            deleteEmptySystem_commits _ _ _
                          rw [hfirst] at hcommits
                          have hend : (run c u key s₂ last).Buried := ((hburied.run _).commits hcommits).commits hran
                          have hdeleted : .deletedChain other ∈ (run c u key s₂ last).history := by
                            rcases List.mem_cons.mp hother with rfl | hother
                            · exact history_subset hran (deleteEmptySystem_ok hfirst).2
                            · exact history_subset (run_ordinary hlast s₂) (hall rfl other hother)
                          exact (hend other hdeleted).2 row (hkept ▸ hrow)

-- ── A deletion that stops half-way ───────────────────────────────────────────────

/-- An account and its only system. -/
def acmeOperations : List Operation :=
  [.createOrganization (js "acme") (js "Acme") acmeRequest true,
    .createSystem toySystem newYear (some (js "acme")) toyReplies]

theorem noChains_acme : acmeStore.db.NoChains := ⟨rfl, rfl, rfl, rfl, fun _ => rfl⟩

/-- The store once the account has its system. -/
def acmeOpened : Store := ⟨toyOpened positionCrypto acmeStore.db (some (js "acme")), [],
  [.wrote (genesisEvent toySystem newYear) (toyPrepared toySystem.1) toyGenesis]⟩

theorem run_acme (u : Unicode) : run positionCrypto u toyWriter (.fresh toyWriter) acmeOperations = acmeOpened := by
  rw [acmeOperations, run_cons, run_cons, run_nil, perform, perform, createOrganization_acme,
    createSystem_toy noChains_acme (by decide) rfl]
  rfl

theorem holdsOnlyGenesis_acme : acmeOpened.db.HoldsOnlyGenesis toySystem := by
  have hrecord : acmeOpened.db.systemRow toySystem = some ⟨toySystem, newYear, some (js "acme"), none, none⟩ := by
    rw [Database.systemRow]
    exact List.find?_cons_of_pos (beq_self_eq_true _)
  have hrows : acmeOpened.db.chainRows toySystem = [receiptRow positionCrypto toyGenesis] := by
    have hits : acmeOpened.db.receipts.filter (fun r => r.systemId == toySystem)
        = [receiptRow positionCrypto toyGenesis] := List.filter_cons_of_pos (beq_self_eq_true toySystem)
    rw [Database.chainRows, hits, List.mergeSort_singleton]
  refine (holdsOnlyGenesis_iff hrecord hrows rfl).mpr ⟨?_, ?_, ?_⟩
  · exact fun _ h => absurd h List.not_mem_nil
  · exact fun _ h => absurd h List.not_mem_nil
  · exact fun _ h => absurd h List.not_mem_nil

/-- The account's only system is deleted. -/
theorem deleteEmptySystem_acme : ∃ s', deleteEmptySystem acmeOpened toySystem acmeRequest = (s', .ok ()) ∧
    Deletes acmeOpened.db s'.db toySystem ∧ s'.history = acmeOpened.history ++ [.deletedChain toySystem] := by
  rcases deleteEmptySystem_cases acmeOpened toySystem acmeRequest with ⟨-, -, hnot⟩ | ⟨db, heq, -, hdeletes⟩
  · exact absurd holdsOnlyGenesis_acme hnot
  · exact ⟨_, heq, hdeletes, rfl⟩

theorem systemsOf_acme : acmeOpened.db.systemsOf (js "acme") = [toySystem] := by decide

/-- **Nothing comes between**, and everything is deleted. -/
theorem deletion_of_acme : AllOrNothing positionCrypto ⟨id, id, id⟩ toyWriter
    (run positionCrypto ⟨id, id, id⟩ toyWriter (.fresh toyWriter) acmeOperations) (js "acme") acmeRequest [] [] := by
  refine (deletion_all_or_nothing_iff positionCrypto ⟨id, id, id⟩ toyWriter acmeOperations (js "acme") acmeRequest
    ?_).mpr ?_
  · intro landing hlanding op hop
    rw [List.mem_singleton.mp hlanding] at hop
    cases hop
  · rw [run_acme]
    intro _ _ systemId rest hsystems _
    obtain ⟨rfl, rfl⟩ := List.cons.inj (systemsOf_acme.symm.trans hsystems)
    obtain ⟨s', heq, hdeletes, -⟩ := deleteEmptySystem_acme
    show ∀ r ∈ (deleteEmptySystem acmeOpened toySystem acmeRequest).1.db.systems, _
    rw [heq]
    intro r hr hacme
    rw [hdeletes.systems] at hr
    obtain ⟨hold, hother⟩ := List.mem_filter.mp hr
    rw [List.mem_singleton.mp (show r ∈ [_] from hold), beq_self_eq_true] at hother
    cases hother

/-- The other system is opened for the account whose first is deleted. -/
theorem createSystem_acme (u : Unicode) {s' : Store}
    (heq : deleteEmptySystem acmeOpened toySystem acmeRequest = (s', .ok ()))
    (hdeletes : Deletes acmeOpened.db s'.db toySystem) : ∃ receipt s'',
    createSystem positionCrypto u toyWriter s' otherSystem newYear (some (js "acme")) toyReplies = (s'', .ok receipt) ∧
      ∃ r ∈ s''.db.systems, r.organizationId = some (js "acme") := by
  have hempty : s'.db.receipts = [] := by
    rw [hdeletes.receipts]
    exact List.filter_cons_of_neg (a := receiptRow positionCrypto toyGenesis) (l := [])
      (by decide : ¬ (!(toySystem == toySystem)) = true)
  have hnone : s'.db.systems = [] := by
    rw [hdeletes.systems]
    exact List.filter_cons_of_neg (a := (⟨toySystem, newYear, some (js "acme"), none, none⟩ : SystemRow)) (l := [])
      (by decide : ¬ (!(toySystem == toySystem)) = true)
  have hwhole : Whole positionCrypto s'.db := by
    have hrun : run positionCrypto u toyWriter (.fresh toyWriter)
        (acmeOperations ++ [.deleteEmptySystem toySystem acmeRequest]) = s' := by
      rw [performed_append, run_acme, run_cons, run_nil, perform, heq]
    exact hrun ▸ whole_run _
  have htame : Tame 0 s' := by
    refine ⟨hwhole, hdeletes.subjects, fun row hrow => ?_, fun row hrow => ?_⟩
    · rw [hempty] at hrow
      cases hrow
    · rw [hempty] at hrow
      cases hrow
  have howner : s'.db.hasOwner (some (js "acme")) = true := by
    show (s'.db.organizations.find? fun o => o.organizationId == js "acme").isSome = true
    rw [hdeletes.organizations]
    decide
  have hnever : s'.db.deletionOf otherSystem = none := by
    obtain ⟨entry, hlog, -, hname⟩ := hdeletes.adminLog
    rw [Database.deletionOf, hlog, List.find?_append, Option.map_eq_none_iff, Option.or_eq_none_iff]
    refine ⟨by decide, List.find?_cons_of_neg ?_⟩
    rw [hname, Bool.and_eq_true_iff]
    exact fun h => absurd h.2 (by decide)
  have htip : s'.db.tipRow otherSystem = none := tipRow_eq_none fun row hrow => by
    rw [hempty] at hrow
    cases hrow
  obtain ⟨receipt, s'', hcreate, -, hsystems, -⟩ := htame.createFor (u := u) howner (by decide) (.inr rfl) htip
    (fun r hr => by rw [hnone] at hr; cases hr) hnever
  refine ⟨receipt, s'', hcreate, ⟨otherSystem, newYear, some (js "acme"), none, none⟩, ?_, rfl⟩
  rw [hsystems]
  exact List.mem_append_right _ (List.mem_singleton_self _)

/-- **A system created before the last turn** keeps the account, whose first system is already deleted. -/
theorem deletion_half_done : ¬ AllOrNothing positionCrypto ⟨id, id, id⟩ toyWriter
    (run positionCrypto ⟨id, id, id⟩ toyWriter (.fresh toyWriter) acmeOperations) (js "acme") acmeRequest []
    [.createSystem otherSystem newYear (some (js "acme")) toyReplies] := by
  have hburied : (run positionCrypto ⟨id, id, id⟩ toyWriter (.fresh toyWriter) acmeOperations).Buried :=
    (buried_fresh toyWriter).run acmeOperations
  rw [run_acme] at hburied ⊢
  obtain ⟨s', heq, hdeletes, -⟩ := deleteEmptySystem_acme
  obtain ⟨receipt, s'', hcreate, r, hr, hacme⟩ := createSystem_acme ⟨id, id, id⟩ heq hdeletes
  rcases deleteOrganization_cases s'' acme acmeRequest with ⟨e, hrefused, -⟩ | ⟨_, -, hfree, -⟩
  · have hends : organizationDeletion positionCrypto ⟨id, id, id⟩ toyWriter acmeOpened (js "acme") acmeRequest []
        [.createSystem otherSystem newYear (some (js "acme")) toyReplies]
        = ⟨s'', [.createSystem otherSystem newYear (some (js "acme")) toyReplies], .error e⟩ := by
      have hknown : acmeOpened.db.organization (js "acme") = some acme := by decide
      have hnothing : ¬ 0 < acmeOpened.db.recordedActions (js "acme") := by decide
      have hsystems : deleteSystems positionCrypto ⟨id, id, id⟩ toyWriter acmeRequest acmeOpened []
          [toySystem] [] = ⟨s', [], .ok ()⟩ := by
        rw [deleteSystems]
        show (match deleteEmptySystem acmeOpened toySystem acmeRequest with
          | (s, .error e) => _
          | (s, .ok ()) => _) = _
        rw [heq]
        rfl
      rw [organizationDeletion, hknown]
      dsimp only
      rw [if_neg hnothing, systemsOf_acme, hsystems]
      dsimp only
      rw [run_cons, run_nil, perform, hcreate, hrefused]
      rfl
    rw [AllOrNothing, hends]
    intro hall
    have hlast : ∀ op ∈ [Operation.createSystem otherSystem newYear (some (js "acme")) toyReplies],
        op.DeletesNothing := by
      intro op hop k hk
      rw [List.mem_singleton.mp hop] at hk
      exact hk
    have hran : Commits positionCrypto ⟨id, id, id⟩ toyWriter Kind.IsOrdinary s' s'' := by
      have hsame : run positionCrypto ⟨id, id, id⟩ toyWriter s'
          [.createSystem otherSystem newYear (some (js "acme")) toyReplies] = s'' := by
        rw [run_cons, run_nil, perform, hcreate]
      exact hsame ▸ run_ordinary hlast s'
    have hdeleted : deleteEmptySystem (run positionCrypto ⟨id, id, id⟩ toyWriter acmeOpened []) toySystem acmeRequest
        = (s', .ok ()) := heq
    refine not_stillThere hburied hdeleted
      ⟨hran.weaken fun _ _ => trivial, _, (List.nil_append _).symm, hlast⟩ ?_ (hall.1 e rfl)
    rw [systemsOf_acme]
    exact List.mem_singleton_self _
  · exact absurd hacme (hfree r hr)

end Sigillo
