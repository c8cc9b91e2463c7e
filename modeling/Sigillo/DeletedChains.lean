import Sigillo.ServerReceipts

/-!
# What becomes of a chain's receipts

The history says what is in the table of receipts: a chain holds what was written to it and taken back,
in that order, until it is deleted (**`receipts_of_history`**), and no receipt of a deleted chain is ever
written again (**`Store.Buried`**). -/

namespace Sigillo

open DoubleArith Utf16Text JsonText JsonSchema HexBase64 IsoTime Fallible Relation

variable {c : Crypto} {u : Unicode} {key : WriterKey} {allowed : Kind → Prop} {s s' : Store}

-- ── Receipts and the history ─────────────────────────────────────────────────────

/-- The row a happening adds to the table. -/
def Happening.row (c : Crypto) : Happening → Option ReceiptRow
  | .wrote _ _ receipt => some (receiptRow c receipt)
  | .tookBack receipt => some (receiptRow c receipt)
  | _ => none

/-- The receipts of a kind, in the order they came. -/
def Database.receiptsOf (db : Database) (systemId : SystemId) (kind : ReceiptRow → Bool) : List ReceiptRow :=
  db.receipts.filter fun row => row.systemId == systemId && kind row

/-- The receipts of a kind that a history adds to a chain. -/
def addedTo (c : Crypto) (systemId : SystemId) (kind : ReceiptRow → Bool) (happened : List Happening) : List ReceiptRow :=
  (happened.filterMap (Happening.row c)).filter fun row => row.systemId == systemId && kind row

theorem addedTo_append (systemId : SystemId) (kind : ReceiptRow → Bool) (a b : List Happening) :
    addedTo c systemId kind (a ++ b) = addedTo c systemId kind a ++ addedTo c systemId kind b := by
  rw [addedTo, List.filterMap_append, List.filter_append]
  rfl

/-- Deleting one chain leaves the receipts of another. -/
theorem receiptsOf_filter {db db' : Database} (gone : SystemId → Bool) {systemId : SystemId} (kind : ReceiptRow → Bool)
    (hgone : gone systemId = false) (h : db'.receipts = db.receipts.filter fun row => !gone row.systemId) :
    db'.receiptsOf systemId kind = db.receiptsOf systemId kind := by
  rw [Database.receiptsOf, h, List.filter_filter]
  refine List.filter_congr fun row _ => ?_
  by_cases hsame : row.systemId = systemId
  · rw [hsame, hgone, Bool.not_false, Bool.and_true]
  · rw [beq_eq_false_iff_ne.mpr hsame, Bool.false_and, Bool.false_and]

theorem Commit.receipts_of_history {k : Kind} (h : Commit c u key s k s') (systemId : SystemId) (kind : ReceiptRow → Bool) :
    ∃ happened, s'.history = s.history ++ happened ∧ (.deletedChain systemId ∈ happened ∨
      s'.db.receiptsOf systemId kind = s.db.receiptsOf systemId kind ++ addedTo c systemId kind happened) := by
  have hsame : ∀ {db : Database}, db.receipts = s.db.receipts →
      db.receiptsOf systemId kind = s.db.receiptsOf systemId kind ++ addedTo c systemId kind [] := by
    intro db hreceipts
    rw [Database.receiptsOf, hreceipts]
    exact (List.append_nil _).symm
  have hdeleted : ∀ {db : Database} {name : SystemId}, Deletes s.db db name →
      .deletedChain systemId ∈ [Happening.deletedChain name] ∨ db.receiptsOf systemId kind
        = s.db.receiptsOf systemId kind ++ addedTo c systemId kind [.deletedChain name] := by
    intro db name hdeletes
    by_cases hname : systemId = name
    · exact .inl (hname ▸ List.mem_singleton_self _)
    · refine .inr ?_
      rw [receiptsOf_filter (fun id => id == name) kind (beq_eq_false_iff_ne.mpr hname) hdeletes.receipts]
      exact (List.append_nil _).symm
  cases h with
  | wrote writes =>
      refine ⟨_, rfl, .inr ?_⟩
      rw [Database.receiptsOf, show _ = _ from congrArg Database.receipts writes.db_eq]
      exact List.filter_append ..
  | recovered ahead missing restores =>
      rename_i name view head taken db
      refine ⟨_, rfl, .inr ?_⟩
      rw [Database.receiptsOf, show _ = _ from restores.receipts, List.filter_append]
      have hrows : (taken.map Happening.tookBack).filterMap (Happening.row c) = taken.map (receiptRow c) := by
        rw [List.filterMap_map]
        exact List.filterMap_eq_map ▸ rfl
      rw [addedTo, hrows]
      rfl
  | beside h => exact ⟨[], (List.append_nil _).symm, .inr (hsame h.receipts)⟩
  | deletedEmpty only first noOpening deletes => exact ⟨_, rfl, hdeleted deletes⟩
  | erasedOperator found own deletes => exact ⟨_, rfl, hdeleted deletes⟩
  | erasedOrganization owned receipts =>
      rename_i organizationId records db _ _ _ _
      refine ⟨_, rfl, ?_⟩
      by_cases hany : records.any (fun record => record.systemId == systemId) = true
      · obtain ⟨record, hrecord, hname⟩ := List.any_eq_true.mp hany
        exact .inl (List.mem_map.mpr ⟨record, hrecord, by rw [beq_iff_eq.mp hname]⟩)
      · refine .inr ?_
        rw [Bool.not_eq_true] at hany
        rw [receiptsOf_filter (fun id => records.any fun record => record.systemId == id) kind hany receipts]
        have hnone : (records.map fun record => Happening.deletedChain record.systemId).filterMap (Happening.row c)
            = [] := by
          rw [List.filterMap_map]
          exact List.filterMap_eq_nil_iff.mpr fun _ _ => rfl
        rw [addedTo, hnone]
        exact (List.append_nil _).symm
  | erasedSubject receipts => exact ⟨[], (List.append_nil _).symm, .inr (hsame receipts)⟩
  | erasedOpenings receipts => exact ⟨_, rfl, .inr (hsame receipts)⟩

/-- **A chain holds what was written to it and taken back**, until it is deleted. -/
theorem receipts_of_history (h : Commits c u key allowed s s') (systemId : SystemId) (kind : ReceiptRow → Bool) :
    ∃ happened, s'.history = s.history ++ happened ∧ (.deletedChain systemId ∈ happened ∨
      s'.db.receiptsOf systemId kind = s.db.receiptsOf systemId kind ++ addedTo c systemId kind happened) := by
  induction h with
  | refl => exact ⟨[], (List.append_nil _).symm, .inr (List.append_nil _).symm⟩
  | tail _ hlast ih =>
      obtain ⟨k, -, hcommit⟩ := hlast
      obtain ⟨before, hbefore, ih⟩ := ih
      obtain ⟨last, hlast, hstep⟩ := hcommit.receipts_of_history systemId kind
      refine ⟨before ++ last, by rw [hlast, hbefore, List.append_assoc], ?_⟩
      rcases ih with hgone | hadded
      · exact .inl (List.mem_append_left _ hgone)
      · rcases hstep with hgone | hmore
        · exact .inl (List.mem_append_right _ hgone)
        · refine .inr ?_
          rw [hmore, hadded, addedTo_append, List.append_assoc]

theorem Commit.said {k : Kind} (h : Commit c u key s k s') {event : ChainEvent} {prepared : Prepared}
    {receipt : Receipt} (hmem : .wrote event prepared receipt ∈ s'.history) :
    .wrote event prepared receipt ∈ s.history ∨ Says c event receipt.toUnsignedReceipt := by
  have hlast : ∀ {x : Happening}, .wrote event prepared receipt ∈ s.history ++ [x] → x ≠ .wrote event prepared receipt →
      .wrote event prepared receipt ∈ s.history ∨ Says c event receipt.toUnsignedReceipt := by
    intro x hmem hne
    rcases List.mem_append.mp hmem with hold | hnew
    · exact .inl hold
    · exact absurd (List.mem_singleton.mp hnew).symm hne
  cases h with
  | wrote writes =>
      rcases List.mem_append.mp hmem with hold | hnew
      · exact .inl hold
      · obtain ⟨rfl, rfl, rfl⟩ := Happening.wrote.inj (List.mem_singleton.mp hnew)
        exact .inr writes.said
  | recovered =>
      rcases List.mem_append.mp hmem with hold | hnew
      · exact .inl hold
      · obtain ⟨r, -, heq⟩ := List.mem_map.mp hnew
        cases heq
  | beside => exact .inl hmem
  | deletedEmpty => exact hlast hmem fun h => nomatch h
  | erasedOperator => exact hlast hmem fun h => nomatch h
  | erasedOrganization =>
      rcases List.mem_append.mp hmem with hold | hnew
      · exact .inl hold
      · obtain ⟨record, -, heq⟩ := List.mem_map.mp hnew
        cases heq
  | erasedSubject => exact .inl hmem
  | erasedOpenings => exact hlast hmem fun h => nomatch h

/-- **Every receipt written says what its event says.** -/
theorem says_of_history (h : Commits c u key allowed s s') {event : ChainEvent} {prepared : Prepared}
    {receipt : Receipt} (hmem : .wrote event prepared receipt ∈ s'.history) :
    .wrote event prepared receipt ∈ s.history ∨ Says c event receipt.toUnsignedReceipt := by
  induction h with
  | refl => exact .inl hmem
  | tail _ hlast ih =>
      obtain ⟨k, -, hcommit⟩ := hlast
      rcases hcommit.said hmem with hold | hsaid
      · exact ih hold
      · exact .inr hsaid

-- ── Deleted chains ───────────────────────────────────────────────────────────────

/-- **A deleted chain stays deleted**: the log says so, and no receipt of it is left. -/
def Store.Buried (s : Store) : Prop :=
  ∀ systemId, .deletedChain systemId ∈ s.history →
    s.db.deletionOf systemId ≠ none ∧ ∀ row ∈ s.db.receipts, row.systemId ≠ systemId

theorem buried_fresh (key : WriterKey) : (Store.fresh key).Buried := fun _ h => absurd h List.not_mem_nil

theorem deletionOf_append {db db' : Database} {entries : List AdminLogRow} (h : db'.adminLog = db.adminLog ++ entries)
    {systemId : SystemId} (hdeleted : db.deletionOf systemId ≠ none) : db'.deletionOf systemId ≠ none := by
  rw [Database.deletionOf, Ne, Option.map_eq_none_iff] at hdeleted ⊢
  rw [h, List.find?_append]
  intro hnone
  exact hdeleted (Option.or_eq_none_iff.mp hnone).1

theorem deletionOf_logged {db : Database} {systemId : SystemId} {entry : AdminLogRow} (h : entry ∈ db.adminLog)
    (haction : entry.action = .systemDelete) (hsystem : entry.systemId = some systemId) :
    db.deletionOf systemId ≠ none := by
  rw [Database.deletionOf, Ne, Option.map_eq_none_iff]
  intro hnone
  have hfalse := List.find?_eq_none.mp hnone entry h
  rw [haction, hsystem] at hfalse
  exact hfalse (by rw [beq_self_eq_true, beq_self_eq_true]; rfl)

/-- Nothing is written to a chain of which nothing is left. -/
theorem Writes.not_deleted {db db' : Database} {event : ChainEvent} {mode : WriteMode} {attempt : Attempt}
    {prepared : Prepared} {receipt : Receipt} (h : Writes c u key db event mode attempt prepared receipt db')
    (hgenesis : ∀ o, mode = .genesis o → db.deletionOf event.systemId = none)
    (hdeleted : db.deletionOf event.systemId ≠ none) : ∃ row ∈ db.receipts, row.systemId = event.systemId := by
  cases mode with
  | genesis o => exact absurd (hgenesis o rfl) hdeleted
  | continuation =>
      have htip : db.tipRow event.systemId ≠ none := by
        intro hnone
        have hplaced := h.placed
        rw [hnone] at hplaced
        cases hplaced
      by_contra hnone
      push Not at hnone
      exact htip (tipRow_eq_none hnone)

/-- What a chain takes back is its own. -/
theorem takeMissing_system {db : Database} {systemId : SystemId} {headSeq seq : ℕ} {previous : Hex 64}
    {journal taken : List Receipt} (h : takeMissing c key db systemId headSeq seq previous journal = .ok taken) :
    ∀ r ∈ taken, r.systemId = systemId := by
  induction journal generalizing seq previous taken with
  | nil =>
      obtain rfl := Except.ok.inj h
      exact fun r hr => absurd hr List.not_mem_nil
  | cons r rest ih =>
      rw [takeMissing] at h
      by_cases hcontinues : continuesChain c key db systemId seq previous r = true
      · rw [if_pos hcontinues] at h
        rw [continuesChain, Bool.and_eq_true, Bool.and_eq_true, Bool.and_eq_true, decide_eq_true_eq] at hcontinues
        by_cases hlast : seq = headSeq
        · rw [if_pos hlast] at h
          obtain rfl := Except.ok.inj h
          exact List.forall_mem_singleton.mpr hcontinues.1.1.1
        · rw [if_neg hlast] at h
          obtain ⟨later, hlater, rfl⟩ := map_eq_ok.mp h
          exact List.forall_mem_cons.mpr ⟨hcontinues.1.1.1, ih hlater⟩
      · rw [if_neg hcontinues] at h
        cases h

theorem Commit.buried {k : Kind} (h : Commit c u key s k s') (hs : s.Buried) : s'.Buried := by
  have hrest : ∀ {db : Database} {divergences : List (SystemId × JsString)} {entries : List AdminLogRow},
      db.adminLog = s.db.adminLog ++ entries → db.receipts = s.db.receipts →
      Store.Buried ⟨db, divergences, s.history⟩ := by
    intro db divergences entries hlog hreceipts systemId hmem
    obtain ⟨hdeletion, hnone⟩ := hs systemId hmem
    refine ⟨deletionOf_append hlog hdeletion, ?_⟩
    show ∀ row ∈ db.receipts, _
    rw [hreceipts]
    exact hnone
  have hdeletes : ∀ {db : Database} {name : SystemId}, Deletes s.db db name →
      Store.Buried { s with db, history := s.history ++ [.deletedChain name] } := by
    intro db name hdeletes systemId hmem
    obtain ⟨entry, hlog, haction, hsystem⟩ := hdeletes.adminLog
    have hreceipts : ∀ row ∈ db.receipts, row ∈ s.db.receipts ∧ row.systemId ≠ name := by
      intro row hrow
      rw [hdeletes.receipts] at hrow
      obtain ⟨hold, hkept⟩ := List.mem_filter.mp hrow
      exact ⟨hold, fun heq => by rw [heq, beq_self_eq_true] at hkept; cases hkept⟩
    rcases List.mem_append.mp hmem with hold | hnew
    · obtain ⟨hdeletion, hnone⟩ := hs systemId hold
      exact ⟨deletionOf_append hlog hdeletion, fun row hrow => hnone row (hreceipts row hrow).1⟩
    · obtain rfl := Happening.deletedChain.inj (List.mem_singleton.mp hnew)
      refine ⟨deletionOf_logged ?_ haction hsystem, fun row hrow => (hreceipts row hrow).2⟩
      rw [hlog]
      exact List.mem_append_right _ (List.mem_singleton_self _)
  cases h with
  | wrote writes genesis =>
      rename_i event mode attempt prepared receipt db
      intro systemId hmem
      have hold : .deletedChain systemId ∈ s.history := by
        rcases List.mem_append.mp hmem with hold | hnew
        · exact hold
        · cases List.mem_singleton.mp hnew
      obtain ⟨hdeletion, hnone⟩ := hs systemId hold
      have hlog : db.adminLog = s.db.adminLog ++ [] := by
        rw [writes.db_eq]
        exact (List.append_nil _).symm
      refine ⟨deletionOf_append hlog hdeletion, fun row hrow hname => ?_⟩
      have hrow : row ∈ s.db.receipts ++ [receiptRow c receipt] := by
        rw [show _ = _ from congrArg Database.receipts writes.db_eq] at hrow
        exact hrow
      rcases List.mem_append.mp hrow with hbefore | hlast
      · exact hnone row hbefore hname
      · have hid : receipt.systemId = event.systemId := (records_of_buildUnsigned _ _ _ _ writes.built).systemId
        rw [List.mem_singleton.mp hlast] at hname
        have hname : event.systemId = systemId := hid.symm.trans hname
        obtain ⟨other, hother, hsame⟩ := writes.not_deleted genesis (hname ▸ hdeletion)
        exact hnone other hother (hsame.trans hname)
  | recovered ahead missing restores =>
      rename_i name view head taken db
      intro systemId hmem
      have hold : .deletedChain systemId ∈ s.history := by
        rcases List.mem_append.mp hmem with hold | hnew
        · exact hold
        · obtain ⟨r, -, heq⟩ := List.mem_map.mp hnew
          cases heq
      obtain ⟨hdeletion, hnone⟩ := hs systemId hold
      obtain ⟨entries, hlog, -⟩ := restores.adminLog
      refine ⟨deletionOf_append hlog hdeletion, fun row hrow hname => ?_⟩
      rw [show _ = _ from restores.receipts] at hrow
      rcases List.mem_append.mp hrow with hbefore | hlast
      · exact hnone row hbefore hname
      · obtain ⟨r, hr, rfl⟩ := List.mem_map.mp hlast
        have hid : r.systemId = name := takeMissing_system missing.taken_eq r hr
        have hname : r.systemId = systemId := hname
        rw [← hname, hid] at hdeletion
        exact hdeletion missing.notDeleted
  | beside h =>
      obtain ⟨entries, hlog, -⟩ := h.adminLog
      exact hrest hlog h.receipts
  | deletedEmpty only first noOpening deletes => exact hdeletes deletes
  | erasedOperator found own deletes => exact hdeletes deletes
  | erasedOrganization owned receipts openings subjects systems adminLog =>
      rename_i organizationId records db
      obtain ⟨erasure, entries, hlog, -, hentries⟩ := adminLog
      intro systemId hmem
      have hreceipts : ∀ row ∈ db.receipts, row ∈ s.db.receipts ∧
          (records.any fun record => record.systemId == row.systemId) = false := by
        intro row hrow
        rw [receipts] at hrow
        obtain ⟨hold, hkept⟩ := List.mem_filter.mp hrow
        exact ⟨hold, by simpa using hkept⟩
      rcases List.mem_append.mp hmem with hold | hnew
      · obtain ⟨hdeletion, hnone⟩ := hs systemId hold
        exact ⟨deletionOf_append hlog hdeletion, fun row hrow => hnone row (hreceipts row hrow).1⟩
      · obtain ⟨record, hrecord, heq⟩ := List.mem_map.mp hnew
        obtain rfl := Happening.deletedChain.inj heq
        refine ⟨?_, fun row hrow hname => ?_⟩
        · have hlogged : (AdminAction.systemDelete, some record.systemId) ∈ entries.map fun e => (e.action, e.systemId) := by
            rw [hentries]
            exact List.mem_map.mpr ⟨record, hrecord, rfl⟩
          obtain ⟨entry, hentry, hpair⟩ := List.mem_map.mp hlogged
          obtain ⟨haction, hsystem⟩ := Prod.mk.inj hpair
          have hmem : entry ∈ db.adminLog := by
            rw [hlog]
            exact List.mem_append_right _ (List.mem_cons_of_mem _ hentry)
          exact deletionOf_logged hmem haction hsystem
        · have hno := (hreceipts row hrow).2
          rw [List.any_eq_false] at hno
          exact hno record hrecord (by rw [hname, beq_self_eq_true])
  | erasedSubject receipts openings systems adminLog =>
      obtain ⟨entry, hlog, -⟩ := adminLog
      exact hrest hlog receipts
  | erasedOpenings receipts subjects systems openings adminLog =>
      rename_i name seqs db
      obtain ⟨entry, hlog, -⟩ := adminLog
      intro systemId hmem
      have hold : .deletedChain systemId ∈ s.history := by
        rcases List.mem_append.mp hmem with hold | hnew
        · exact hold
        · cases List.mem_singleton.mp hnew
      have hkept : Store.Buried ⟨db, s.divergences, s.history⟩ := hrest hlog receipts
      exact hkept systemId hold

/-- **No receipt of a deleted chain is ever written again.** -/
theorem Store.Buried.commits (hs : s.Buried) (h : Commits c u key allowed s s') : s'.Buried := by
  induction h with
  | refl => exact hs
  | tail _ hlast ih =>
      obtain ⟨k, -, hcommit⟩ := hlast
      exact hcommit.buried ih

end Sigillo
