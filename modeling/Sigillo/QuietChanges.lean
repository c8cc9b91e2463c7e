import Sigillo.OtherOperations
import Sigillo.StoreChains

/-!
# What the store does without the signer

An operation that asks the signer for nothing writes no receipt and no checkpoint
(**`perform_quiet`**): it may delete chains whole, with their systems, and what is left of the
chains, the checkpoints and the keys is what was there. -/

namespace Sigillo

open DoubleArith Utf16Text JsonText JsonSchema HexBase64 IsoTime Fallible Relation

/-- **Chains are left alone, or deleted whole** with their checkpoints. -/
structure Quiet (db db' : Database) : Prop where
  gone : ∃ gone : SystemId → Bool, (db'.receipts = db.receipts.filter fun r => !gone r.systemId) ∧
    (db'.systems.map (·.systemId) = (db.systems.map (·.systemId)).filter fun s => !gone s) ∧
    ∀ row ∈ db'.checkpoints, row ∈ db.checkpoints ∧ gone row.checkpoint.systemId = false
  openings : db'.openings.Sublist db.openings
  subjects : db'.subjects.Sublist db.subjects
  signingKeys : db'.signingKeys = db.signingKeys

variable {c : Crypto} {u : Unicode} {key : WriterKey} {s : Store} {db db' db'' : Database}

namespace Quiet

/-- Nothing of the chains is touched; nonces and persons may be erased. -/
theorem of_erased (hreceipts : db'.receipts = db.receipts)
    (hsystems : db'.systems.map (·.systemId) = db.systems.map (·.systemId))
    (hcheckpoints : db'.checkpoints = db.checkpoints) (hkeys : db'.signingKeys = db.signingKeys)
    (hopenings : db'.openings.Sublist db.openings) (hsubjects : db'.subjects.Sublist db.subjects) :
    Quiet db db' where
  gone := ⟨fun _ => false, by rw [hreceipts]; simp, by rw [hsystems]; simp, fun row hrow => ⟨hcheckpoints ▸ hrow, rfl⟩⟩
  openings := hopenings
  subjects := hsubjects
  signingKeys := hkeys

/-- Nor are these. -/
theorem of_same (hreceipts : db'.receipts = db.receipts)
    (hsystems : db'.systems.map (·.systemId) = db.systems.map (·.systemId))
    (hcheckpoints : db'.checkpoints = db.checkpoints) (hkeys : db'.signingKeys = db.signingKeys)
    (hopenings : db'.openings = db.openings) (hsubjects : db'.subjects = db.subjects) : Quiet db db' :=
  of_erased hreceipts hsystems hcheckpoints hkeys (hopenings ▸ .refl _) (hsubjects ▸ .refl _)

theorem refl (db : Database) : Quiet db db := of_same rfl rfl rfl rfl rfl rfl

theorem trans (h : Quiet db db') (h' : Quiet db' db'') : Quiet db db'' := by
  obtain ⟨first, hreceipts, hsystems, hcheckpoints⟩ := h.gone
  obtain ⟨second, hreceipts', hsystems', hcheckpoints'⟩ := h'.gone
  refine ⟨⟨fun s => first s || second s, ?_, ?_, ?_⟩, h'.openings.trans h.openings,
    h'.subjects.trans h.subjects, h'.signingKeys.trans h.signingKeys⟩
  · rw [hreceipts', hreceipts, List.filter_filter]
    exact List.filter_congr fun r _ => by rw [Bool.not_or, Bool.and_comm]
  · rw [hsystems', hsystems, List.filter_filter]
    exact List.filter_congr fun r _ => by rw [Bool.not_or, Bool.and_comm]
  · intro row hrow
    obtain ⟨hmem, hkept'⟩ := hcheckpoints' row hrow
    obtain ⟨hmem, hkept⟩ := hcheckpoints row hmem
    exact ⟨hmem, Bool.or_eq_false_iff.mpr ⟨hkept, hkept'⟩⟩

/-- A system's own columns. -/
theorem of_updated {systemId : SystemId} {change : SystemRow → SystemRow}
    (hsystems : db'.systems = (updateSystem db systemId change).systems)
    (hchange : ∀ r, (change r).systemId = r.systemId) (hreceipts : db'.receipts = db.receipts)
    (hcheckpoints : db'.checkpoints = db.checkpoints) (hkeys : db'.signingKeys = db.signingKeys)
    (hopenings : db'.openings = db.openings) (hsubjects : db'.subjects = db.subjects) : Quiet db db' :=
  of_same hreceipts (hsystems ▸ (beside_updateSystem db systemId hchange).systems) hcheckpoints hkeys hopenings
    hsubjects

end Quiet

-- ── Transactions ─────────────────────────────────────────────────────────────────

/-- A change that throws, or is quiet. -/
def StaysQuiet {α : Type} (s : Store) (result : Except StoreError (Database × List Happening × α)) : Prop :=
  ∀ db happened a, result = .ok (db, happened, a) → Quiet s.db db

namespace StaysQuiet

variable {α : Type} {result : Except StoreError (Database × List Happening × α)}

theorem error (e : StoreError) : StaysQuiet (α := α) s (.error e) := by
  intro db happened a h
  cases h

theorem ok {happened : List Happening} {a : α} (h : Quiet s.db db) : StaysQuiet s (.ok (db, happened, a)) := by
  intro db' happened' a' heq
  obtain ⟨rfl, -⟩ := Prod.mk.inj (Except.ok.inj heq)
  exact h

/-- What is computed first, if anything is. -/
theorem map {result : Except StoreError Database} {f : Database → Database × List Happening × α}
    (hfirst : ∀ db, (f db).1 = db) (h : ∀ db, result = .ok db → Quiet s.db db) :
    StaysQuiet s (result.map f) := by
  intro db happened a heq
  obtain ⟨db₁, hresult, hdb⟩ := map_eq_ok.mp heq
  have hsame := hfirst db₁
  rw [hdb] at hsame
  obtain rfl : db = db₁ := hsame
  exact h db hresult

theorem transact (h : StaysQuiet s result) : Quiet s.db (s.transact result).1.db := by
  cases hresult : result with
  | error e => exact .refl s.db
  | ok out =>
      obtain ⟨db, happened, a⟩ := out
      exact h db happened a hresult

theorem administer {systemId : SystemId} {work : SystemRow → Except StoreError (Database × List Happening × α)}
    (h : ∀ record, record.systemId = systemId → StaysQuiet s (work record)) :
    Quiet s.db (administer s systemId work).1.db := by
  refine transact ?_
  cases hrecord : s.db.systemRow systemId with
  | none => exact error _
  | some record => exact h record (systemRow_some hrecord).2

end StaysQuiet

-- ── Organizations ────────────────────────────────────────────────────────────────

theorem createOrganization_quiet (s : Store) (organizationId name : JsString) (request : AdminRequest)
    (approved : Bool) : Quiet s.db (createOrganization s organizationId name request approved).1.db := by
  refine StaysQuiet.transact ?_
  split
  · exact .error _
  · cases organizationLabel name with
    | error e => exact .error e
    | ok label =>
        dsimp only
        split
        · exact .error _
        · exact .ok (.of_same rfl rfl rfl rfl rfl rfl)

theorem registerOrganization_quiet (s : Store) (uid email name : JsString) (draws : List JsString)
    (request : AdminRequest) : Quiet s.db (registerOrganization s uid email name draws request).1.db := by
  refine StaysQuiet.transact ?_
  cases organizationLabel name with
  | error e => exact .error e
  | ok label =>
      dsimp only
      split
      · exact .error _
      · cases draws.find? fun id => (s.db.organization id).isNone with
        | none => exact .ok (.refl _)
        | some organizationId => exact .ok (.of_same rfl rfl rfl rfl rfl rfl)

theorem approveOrganization_quiet (s : Store) (organizationId : JsString) (request : AdminRequest) :
    Quiet s.db (approveOrganization s organizationId request).1.db := by
  refine StaysQuiet.transact ?_
  cases s.db.organization organizationId with
  | none => exact .error _
  | some organization =>
      dsimp only
      split
      · exact .ok (.refl _)
      · exact .ok (.of_same rfl rfl rfl rfl rfl rfl)

theorem deleteOrganizationRow_quiet {organizationId : JsString}
    (h : db.deleteOrganizationRow organizationId = .ok db') : Quiet db db' := by
  rw [Database.deleteOrganizationRow] at h
  split at h
  · cases h
  · obtain rfl := Except.ok.inj h
    exact .of_same rfl rfl rfl rfl rfl rfl

theorem removeOrganization_quiet {action : AdminAction} {organization : Organization} {request : AdminRequest}
    (h : removeOrganization db action organization request = .ok db') : Quiet db db' := by
  unfold removeOrganization at h
  obtain ⟨db₁, hrow, h⟩ := bind_eq_ok.mp h
  obtain rfl := Except.ok.inj h
  have hpeople : Quiet db { db with
      users := db.users.filter fun r => !(r.organizationId == organization.organizationId) } :=
    .of_same rfl rfl rfl rfl rfl rfl
  exact (hpeople.trans (deleteOrganizationRow_quiet hrow)).trans (.of_same rfl rfl rfl rfl rfl rfl)

theorem rejectOrganization_quiet (s : Store) (organizationId : JsString) (request : AdminRequest) :
    Quiet s.db (rejectOrganization s organizationId request).1.db := by
  refine StaysQuiet.transact ?_
  cases s.db.organization organizationId with
  | none => exact .error _
  | some organization =>
      dsimp only
      split
      · exact .error _
      · split
        · exact .error _
        · exact .map (fun _ => rfl) fun db h => removeOrganization_quiet h

theorem deleteOrganization_quiet (s : Store) (organization : Organization) (request : AdminRequest) :
    Quiet s.db (deleteOrganization s organization request).1.db :=
  StaysQuiet.transact (.map (fun _ => rfl) fun _ h => removeOrganization_quiet h)

-- ── Whose a system is, and its label ─────────────────────────────────────────────

theorem assignSystem_quiet (s : Store) (systemId : SystemId) (organizationId : Option JsString)
    (request : AdminRequest) : Quiet s.db (assignSystem s systemId organizationId request).1.db := by
  refine StaysQuiet.administer fun record hrecord => ?_
  split
  · exact .error _
  · exact .ok (.of_updated rfl (fun _ => rfl) rfl rfl rfl rfl rfl)

theorem createTransfer_quiet (s : Store) (systemId : SystemId) (secret : JsString) (request : AdminRequest) :
    Quiet s.db (createTransfer c s systemId secret request).1.db := by
  refine StaysQuiet.administer fun record hrecord db happened a h => ?_
  obtain ⟨links, -, h⟩ := bind_eq_ok.mp h
  obtain ⟨rfl, -⟩ := Prod.mk.inj (Except.ok.inj h)
  exact .of_same rfl rfl rfl rfl rfl rfl

theorem revokeTransfers_quiet (s : Store) (systemId : SystemId) (request : AdminRequest) :
    Quiet s.db (revokeTransfers s systemId request).1.db :=
  StaysQuiet.administer fun _ _ => .ok (.of_same rfl rfl rfl rfl rfl rfl)

theorem acceptTransfer_quiet (s : Store) (secret organizationId : JsString) (request : AdminRequest) :
    Quiet s.db (acceptTransfer c s secret organizationId request).1.db := by
  refine StaysQuiet.transact ?_
  split
  · exact .error _
  · split
    · exact .error _
    · split
      · exact .error _
      · split
        · exact .error _
        · exact .ok (.of_updated rfl (fun _ => rfl) rfl rfl rfl rfl rfl)

theorem renameSystem_quiet (s : Store) (systemId : SystemId) (displayName : JsString) (request : AdminRequest) :
    Quiet s.db (renameSystem s systemId displayName request).1.db := by
  rw [renameSystem]
  split
  · exact .refl _
  · exact StaysQuiet.administer fun record _ =>
      .ok (.of_updated rfl (fun _ => rfl) rfl rfl rfl rfl rfl)

theorem archiveSystem_quiet (s : Store) (systemId : SystemId) (request : AdminRequest) :
    Quiet s.db (archiveSystem s systemId request).1.db := by
  refine StaysQuiet.administer fun record hrecord => ?_
  split
  · exact .ok (.refl _)
  · exact .ok (.of_updated rfl (fun _ => rfl) rfl rfl rfl rfl rfl)

theorem unarchiveSystem_quiet (s : Store) (systemId : SystemId) (request : AdminRequest) :
    Quiet s.db (unarchiveSystem s systemId request).1.db := by
  refine StaysQuiet.administer fun record hrecord => ?_
  split
  · exact .ok (.refl _)
  · exact .ok (.of_updated rfl (fun _ => rfl) rfl rfl rfl rfl rfl)

-- ── Deletions ────────────────────────────────────────────────────────────────────

/-- The checkpoints of a chain are deleted, and no others. -/
theorem deleteAnchors_gone {systemId : SystemId} (h : deleteAnchors db systemId = .ok db') :
    ∀ row ∈ db'.checkpoints, row ∈ db.checkpoints ∧ (row.checkpoint.systemId == systemId) = false := by
  unfold deleteAnchors at h
  obtain ⟨db₁, htimestamps, hcheckpoints⟩ := bind_eq_ok.mp h
  rw [Database.deleteTimestamps] at htimestamps
  split at htimestamps
  · cases htimestamps
  · obtain rfl := Except.ok.inj htimestamps
    rw [Database.deleteCheckpoints] at hcheckpoints
    split at hcheckpoints
    · cases hcheckpoints
    · split at hcheckpoints
      · cases hcheckpoints
      · obtain rfl := Except.ok.inj hcheckpoints
        intro row hrow
        obtain ⟨hmem, hkept⟩ := List.mem_filter.mp hrow
        exact ⟨hmem, (Bool.not_eq_true' _).mp hkept⟩

/-- **A chain deleted with its system.** -/
theorem Deletes.quiet {systemId : SystemId} (h : Deletes db db' systemId)
    (hcheckpoints : ∀ row ∈ db'.checkpoints, row ∈ db.checkpoints ∧ (row.checkpoint.systemId == systemId) = false)
    (hopenings : db'.openings.Sublist db.openings) : Quiet db db' where
  gone := by
    refine ⟨fun s => s == systemId, h.receipts, ?_, hcheckpoints⟩
    rw [h.systems, List.filter_map]
    rfl
  openings := hopenings
  subjects := h.subjects ▸ .refl _
  signingKeys := h.signingKeys

theorem eraseChain_quiet {request : AdminRequest} {record : SystemRow} {displayName : Option JsString}
    (h : eraseChain request db record displayName = .ok db') : Quiet db db' := by
  refine (eraseChain_ok h).1.quiet ?_ ((eraseChain_ok h).2 ▸ List.filter_sublist)
  rw [eraseChain] at h
  split at h
  · obtain ⟨db₁, hanchors, h⟩ := bind_eq_ok.mp h
    obtain ⟨db₂, hartifacts, h⟩ := bind_eq_ok.mp h
    obtain ⟨db₃, hreceipts, h⟩ := bind_eq_ok.mp h
    have hgone := deleteAnchors_gone hanchors
    obtain ⟨artifacts, rfl⟩ := deleteArtifacts_ok hartifacts
    obtain ⟨-, rfl⟩ := deleteReceipts_ok hreceipts
    obtain ⟨apiKeys, transferLinks, connections, rfl⟩ := deleteRest_ok h
    exact hgone
  · cases h

theorem eraseChains_quiet {request : AdminRequest} {records : List SystemRow}
    (h : records.foldlM (fun db record => eraseChain request db record none) db = .ok db') : Quiet db db' := by
  induction records generalizing db with
  | nil =>
      obtain rfl := Except.ok.inj h
      exact .refl db
  | cons record rest ih =>
      rw [List.foldlM_cons] at h
      obtain ⟨db₁, h₁, h⟩ := bind_eq_ok.mp h
      exact (eraseChain_quiet h₁).trans (ih h)

theorem deleteEmptySystem_quiet (s : Store) (systemId : SystemId) (request : AdminRequest) :
    Quiet s.db (deleteEmptySystem s systemId request).1.db := by
  refine StaysQuiet.administer fun record hrecord => ?_
  split
  · rename_i genesis hrows
    split
    · exact .error _
    · rename_i hseq
      intro db happened a h
      obtain ⟨db₁, hanchors, h⟩ := bind_eq_ok.mp h
      obtain ⟨db₂, hreceipts, h⟩ := bind_eq_ok.mp h
      obtain ⟨db₃, hrest, h⟩ := bind_eq_ok.mp h
      obtain ⟨rfl, -⟩ := Prod.mk.inj (Except.ok.inj h)
      have hgone := deleteAnchors_gone hanchors
      obtain ⟨timestamps, checkpoints, rfl⟩ := deleteAnchors_ok hanchors
      obtain ⟨-, rfl⟩ := deleteReceipts_ok hreceipts
      obtain ⟨apiKeys, transferLinks, connections, rfl⟩ := deleteRest_ok hrest
      refine Deletes.quiet (?_ : Deletes s.db _ systemId) hgone (.refl _)
      exact ⟨filter_genesis hrows (not_not.mp hseq), rfl, rfl, rfl, rfl, rfl, _, rfl, rfl, rfl⟩
  · exact .error _

theorem eraseOperatorSystem_quiet (s : Store) (systemId : SystemId) (request : AdminRequest) :
    Quiet s.db (eraseOperatorSystem s systemId request).1.db := by
  refine StaysQuiet.administer fun record hrecord => ?_
  split
  · exact .error _
  · exact .map (fun _ => rfl) fun db h => eraseChain_quiet h

theorem eraseOrganization_quiet (s : Store) (organizationId : JsString) (request : AdminRequest) :
    Quiet s.db (eraseOrganization s organizationId request).1.db := by
  refine StaysQuiet.transact ?_
  cases s.db.organization organizationId with
  | none => exact .error _
  | some organization =>
      intro db happened a h
      obtain ⟨db₁, hchains, h⟩ := bind_eq_ok.mp h
      obtain ⟨db₂, hrow, h⟩ := bind_eq_ok.mp h
      obtain ⟨rfl, -⟩ := Prod.mk.inj (Except.ok.inj h)
      have herased : Quiet s.db db₁ := by
        refine Quiet.trans ?_ (eraseChains_quiet hchains)
        exact .of_same rfl rfl rfl rfl rfl rfl
      have hpeople : Quiet db₁ { db₁ with users := db₁.users.filter fun r => !(r.organizationId == organizationId) } :=
        .of_same rfl rfl rfl rfl rfl rfl
      exact ((herased.trans hpeople).trans (deleteOrganizationRow_quiet hrow))
        |>.trans (.of_erased rfl rfl rfl rfl (.refl _) List.filter_sublist)

-- ── Every operation ──────────────────────────────────────────────────────────────

theorem recordTimestamp_quiet (s : Store) (row : TimestampRow) : Quiet s.db (recordTimestamp s row).1.db := by
  rw [recordTimestamp]
  split
  · split
    · exact .refl _
    · exact .of_same rfl rfl rfl rfl rfl rfl
  · exact .refl _

/-- The operations that ask the signer. -/
def Operation.asksSigner : Operation → Bool
  | .createSystem .. | .append .. | .appendBatch .. | .recordConnection .. | .reconcileWithSigner ..
  | .createCheckpoint .. => true
  | _ => false

/-- **What the store does without the signer is quiet.** -/
theorem perform_quiet (s : Store) {op : Operation} (hop : op.asksSigner = false) :
    Quiet s.db (perform c u key s op).db := by
  cases op with
  | createSystem => cases hop
  | append => cases hop
  | appendBatch => cases hop
  | recordConnection => cases hop
  | reconcileWithSigner => cases hop
  | createCheckpoint => cases hop
  | recordTimestamp row => exact recordTimestamp_quiet s row
  | createOrganization organizationId name request approved =>
      exact createOrganization_quiet s organizationId name request approved
  | registerOrganization uid email name draws request =>
      exact registerOrganization_quiet s uid email name draws request
  | approveOrganization organizationId request => exact approveOrganization_quiet s organizationId request
  | rejectOrganization organizationId request => exact rejectOrganization_quiet s organizationId request
  | deleteOrganization organization request => exact deleteOrganization_quiet s organization request
  | assignSystem systemId organizationId request => exact assignSystem_quiet s systemId organizationId request
  | createTransfer systemId secret request => exact createTransfer_quiet s systemId secret request
  | revokeTransfers systemId request => exact revokeTransfers_quiet s systemId request
  | acceptTransfer secret organizationId request => exact acceptTransfer_quiet s secret organizationId request
  | renameSystem systemId displayName request => exact renameSystem_quiet s systemId displayName request
  | archiveSystem systemId request => exact archiveSystem_quiet s systemId request
  | unarchiveSystem systemId request => exact unarchiveSystem_quiet s systemId request
  | deleteEmptySystem systemId request => exact deleteEmptySystem_quiet s systemId request
  | eraseOperatorSystem systemId request => exact eraseOperatorSystem_quiet s systemId request
  | eraseOrganization organizationId request => exact eraseOrganization_quiet s organizationId request
  | eraseSubject token request =>
      refine StaysQuiet.transact ?_
      split
      · exact .ok (.of_erased rfl rfl rfl rfl (.refl _) List.filter_sublist)
      · exact .ok (.refl _)
  | eraseOpenings systemId seqs request =>
      exact StaysQuiet.administer fun _ _ => .ok (.of_erased rfl rfl rfl rfl List.filter_sublist (.refl _))
  | reopen => exact .refl _

end Sigillo
