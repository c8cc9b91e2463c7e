import Sigillo.StoreRuns

/-!
# What each operation commits

The transactions of the administrative operations, one by one, and with those of the rest
**`perform_commits`**: whatever the store is asked, it commits only changes of the kinds that
operation allows. -/

namespace Sigillo

open DoubleArith Utf16Text JsonText JsonSchema HexBase64 IsoTime Fallible Relation

variable {c : Crypto} {u : Unicode} {key : WriterKey}

-- ── Organizations ────────────────────────────────────────────────────────────────

/-- `createOrganization` commits ordinarily. -/
theorem createOrganization_commits (s : Store) (organizationId name : JsString) (request : AdminRequest)
    (approved : Bool) :
    Commits c u key Kind.IsOrdinary s (createOrganization s organizationId name request approved).1 := by
  refine transact_beside fun db happened a h => ?_
  by_cases hid : ¬ isOrganizationId organizationId = true
  · rw [if_pos hid] at h
    cases h
  · rw [if_neg hid] at h
    cases hlabel : organizationLabel name with
    | error e => simp [hlabel] at h
    | ok label =>
        rw [hlabel] at h
        by_cases hknown : (s.db.organization organizationId).isSome = true
        · simp only [if_pos hknown] at h
          cases h
        · simp only [if_neg hknown] at h
          obtain ⟨rfl, hrest⟩ := Prod.mk.inj (Except.ok.inj h)
          obtain ⟨rfl, -⟩ := Prod.mk.inj hrest
          exact ⟨rfl, Beside.logAdmin (by exact .of_same rfl) (by decide) (by decide) _ _ _ _⟩

/-- `registerOrganization` commits ordinarily. -/
theorem registerOrganization_commits (s : Store) (uid email name : JsString) (draws : List JsString)
    (request : AdminRequest) :
    Commits c u key Kind.IsOrdinary s (registerOrganization s uid email name draws request).1 := by
  refine transact_beside fun db happened a h => ?_
  cases hlabel : organizationLabel name with
  | error e => simp [hlabel] at h
  | ok label =>
      rw [hlabel] at h
      by_cases hknown : (s.db.users.any fun r => r.uid == uid) = true
      · simp only [if_pos hknown] at h
        cases h
      · simp only [if_neg hknown] at h
        cases hdraw : draws.find? fun id => (s.db.organization id).isNone with
        | none =>
            rw [hdraw] at h
            obtain ⟨rfl, hrest⟩ := Prod.mk.inj (Except.ok.inj h)
            obtain ⟨rfl, -⟩ := Prod.mk.inj hrest
            exact ⟨rfl, .refl⟩
        | some organizationId =>
            rw [hdraw] at h
            obtain ⟨rfl, hrest⟩ := Prod.mk.inj (Except.ok.inj h)
            obtain ⟨rfl, -⟩ := Prod.mk.inj hrest
            exact ⟨rfl, Beside.logAdmin (by exact .of_same rfl) (by decide) (by decide) _ _ _ _⟩

/-- `approveOrganization` commits ordinarily. -/
theorem approveOrganization_commits (s : Store) (organizationId : JsString) (request : AdminRequest) :
    Commits c u key Kind.IsOrdinary s (approveOrganization s organizationId request).1 := by
  refine transact_beside fun db happened a h => ?_
  cases hfound : s.db.organization organizationId with
  | none => simp [hfound] at h
  | some organization =>
      rw [hfound] at h
      by_cases happroved : organization.approvedAt.isSome = true
      · simp only [if_pos happroved] at h
        obtain ⟨rfl, hrest⟩ := Prod.mk.inj (Except.ok.inj h)
        obtain ⟨rfl, -⟩ := Prod.mk.inj hrest
        exact ⟨rfl, .refl⟩
      · simp only [if_neg happroved] at h
        obtain ⟨rfl, hrest⟩ := Prod.mk.inj (Except.ok.inj h)
        obtain ⟨rfl, -⟩ := Prod.mk.inj hrest
        exact ⟨rfl, Beside.logAdmin (by exact .of_same rfl) (by decide) (by decide) _ _ _ _⟩

/-- An organization's people and its row are beside the chains. -/
theorem removeOrganization_beside {db db' : Database} {action : AdminAction} {organization : Organization}
    {request : AdminRequest} (hdelete : action ≠ .systemDelete) (herase : action ≠ .organizationErase)
    (h : removeOrganization db action organization request = .ok db') : Beside db db' := by
  unfold removeOrganization at h
  obtain ⟨db₁, hrow, h⟩ := bind_eq_ok.mp h
  obtain rfl := Except.ok.inj h
  rw [Database.deleteOrganizationRow] at hrow
  split at hrow
  · cases hrow
  · obtain rfl := Except.ok.inj hrow
    exact Beside.logAdmin (by exact .of_same rfl) hdelete herase _ _ _ _

/-- `rejectOrganization` commits ordinarily. -/
theorem rejectOrganization_commits (s : Store) (organizationId : JsString) (request : AdminRequest) :
    Commits c u key Kind.IsOrdinary s (rejectOrganization s organizationId request).1 := by
  refine transact_beside fun db happened a h => ?_
  cases hfound : s.db.organization organizationId with
  | none => simp [hfound] at h
  | some organization =>
      simp only [hfound] at h
      split at h
      · cases h
      · split at h
        · cases h
        · obtain ⟨db₁, hremoved, heq⟩ := map_eq_ok.mp h
          obtain ⟨rfl, hrest⟩ := Prod.mk.inj heq
          obtain ⟨rfl, -⟩ := Prod.mk.inj hrest
          exact ⟨rfl, removeOrganization_beside (by decide) (by decide) hremoved⟩

/-- `deleteOrganization` commits ordinarily. -/
theorem deleteOrganization_commits (s : Store) (organization : Organization) (request : AdminRequest) :
    Commits c u key Kind.IsOrdinary s (deleteOrganization s organization request).1 := by
  refine transact_beside fun db happened a h => ?_
  obtain ⟨db₁, hremoved, heq⟩ := map_eq_ok.mp h
  obtain ⟨rfl, hrest⟩ := Prod.mk.inj heq
  obtain ⟨rfl, -⟩ := Prod.mk.inj hrest
  exact ⟨rfl, removeOrganization_beside (by decide) (by decide) hremoved⟩

-- ── Whose a system is, and its label ─────────────────────────────────────────────

/-- `assignSystem` commits ordinarily. -/
theorem assignSystem_commits (s : Store) (systemId : SystemId) (organizationId : Option JsString)
    (request : AdminRequest) :
    Commits c u key Kind.IsOrdinary s (assignSystem s systemId organizationId request).1 := by
  refine administer_beside fun record db happened a h => ?_
  split at h
  · cases h
  · obtain ⟨rfl, hrest⟩ := Prod.mk.inj (Except.ok.inj h)
    obtain ⟨rfl, -⟩ := Prod.mk.inj hrest
    exact ⟨rfl, Beside.logAdmin (by exact beside_updateSystem s.db systemId fun _ => rfl)
      (by decide) (by decide) _ _ _ _⟩

/-- `createTransfer` commits ordinarily. -/
theorem createTransfer_commits (s : Store) (systemId : SystemId) (secret : JsString) (request : AdminRequest) :
    Commits c u key Kind.IsOrdinary s (createTransfer c s systemId secret request).1 := by
  refine administer_beside fun record db happened a h => ?_
  obtain ⟨links, hlinks, h⟩ := bind_eq_ok.mp h
  obtain ⟨rfl, hrest⟩ := Prod.mk.inj (Except.ok.inj h)
  obtain ⟨rfl, -⟩ := Prod.mk.inj hrest
  exact ⟨rfl, Beside.logAdmin (by exact .of_same rfl) (by decide) (by decide) _ _ _ _⟩

/-- `revokeTransfers` commits ordinarily. -/
theorem revokeTransfers_commits (s : Store) (systemId : SystemId) (request : AdminRequest) :
    Commits c u key Kind.IsOrdinary s (revokeTransfers s systemId request).1 := by
  refine administer_beside fun record db happened a h => ?_
  obtain ⟨rfl, hrest⟩ := Prod.mk.inj (Except.ok.inj h)
  obtain ⟨rfl, -⟩ := Prod.mk.inj hrest
  exact ⟨rfl, .of_same rfl⟩

/-- `acceptTransfer` commits ordinarily. -/
theorem acceptTransfer_commits (s : Store) (secret organizationId : JsString) (request : AdminRequest) :
    Commits c u key Kind.IsOrdinary s (acceptTransfer c s secret organizationId request).1 := by
  refine transact_beside fun db happened a h => ?_
  split at h
  · cases h
  · rename_i link hlink
    split at h
    · cases h
    · split at h
      · cases h
      · split at h
        · cases h
        · obtain ⟨rfl, hrest⟩ := Prod.mk.inj (Except.ok.inj h)
          obtain ⟨rfl, -⟩ := Prod.mk.inj hrest
          refine ⟨rfl, Beside.logAdmin ?_ (by decide) (by decide) _ _ _ _⟩
          have hmoved : Beside s.db (updateSystem s.db link.systemId fun r =>
              { r with organizationId := some organizationId }) :=
            beside_updateSystem s.db link.systemId fun _ => rfl
          exact ⟨hmoved.receipts, hmoved.artifacts, hmoved.openings, hmoved.subjects, hmoved.signingKeys,
            hmoved.systems, hmoved.adminLog⟩

/-- `renameSystem` commits ordinarily. -/
theorem renameSystem_commits (s : Store) (systemId : SystemId) (displayName : JsString)
    (request : AdminRequest) :
    Commits c u key Kind.IsOrdinary s (renameSystem s systemId displayName request).1 := by
  rw [renameSystem]
  split
  · exact .refl
  · refine administer_beside fun record db happened a h => ?_
    obtain ⟨rfl, hrest⟩ := Prod.mk.inj (Except.ok.inj h)
    obtain ⟨rfl, -⟩ := Prod.mk.inj hrest
    exact ⟨rfl, Beside.logAdmin (by exact beside_updateSystem s.db systemId fun _ => rfl)
      (by decide) (by decide) _ _ _ _⟩

/-- `archiveSystem` commits ordinarily. -/
theorem archiveSystem_commits (s : Store) (systemId : SystemId) (request : AdminRequest) :
    Commits c u key Kind.IsOrdinary s (archiveSystem s systemId request).1 := by
  refine administer_beside fun record db happened a h => ?_
  split at h
  · obtain ⟨rfl, hrest⟩ := Prod.mk.inj (Except.ok.inj h)
    obtain ⟨rfl, -⟩ := Prod.mk.inj hrest
    exact ⟨rfl, .refl⟩
  · obtain ⟨rfl, hrest⟩ := Prod.mk.inj (Except.ok.inj h)
    obtain ⟨rfl, -⟩ := Prod.mk.inj hrest
    exact ⟨rfl, Beside.logAdmin (by exact beside_updateSystem s.db systemId fun _ => rfl)
      (by decide) (by decide) _ _ _ _⟩

/-- `unarchiveSystem` commits ordinarily. -/
theorem unarchiveSystem_commits (s : Store) (systemId : SystemId) (request : AdminRequest) :
    Commits c u key Kind.IsOrdinary s (unarchiveSystem s systemId request).1 := by
  refine administer_beside fun record db happened a h => ?_
  split at h
  · obtain ⟨rfl, hrest⟩ := Prod.mk.inj (Except.ok.inj h)
    obtain ⟨rfl, -⟩ := Prod.mk.inj hrest
    exact ⟨rfl, .refl⟩
  · obtain ⟨rfl, hrest⟩ := Prod.mk.inj (Except.ok.inj h)
    obtain ⟨rfl, -⟩ := Prod.mk.inj hrest
    exact ⟨rfl, Beside.logAdmin (by exact beside_updateSystem s.db systemId fun _ => rfl)
      (by decide) (by decide) _ _ _ _⟩

-- ── Deletions ────────────────────────────────────────────────────────────────────

/-- The rows of a chain are the receipts of its system. -/
theorem mem_chainRows {db : Database} {systemId : SystemId} {row : ReceiptRow} :
    row ∈ db.chainRows systemId ↔ row ∈ db.receipts ∧ row.systemId = systemId := by
  rw [Database.chainRows, List.mem_mergeSort, List.mem_filter, beq_iff_eq]

/-- What a deletion of receipts asks of each, and what it leaves. -/
theorem deleteReceipts_ok {db db' : Database} {p : ReceiptRow → Bool} (h : db.deleteReceipts p = .ok db') :
    (∀ row ∈ db.receipts, p row = true → ∀ o ∈ db.openings, ¬ (o.systemId = row.systemId ∧ o.seq = row.seq)) ∧
      db' = { db with receipts := db.receipts.filter fun row => !p row } := by
  rw [Database.deleteReceipts] at h
  split at h
  · cases h
  · split at h
    · cases h
    · rename_i hrefs
      refine ⟨fun row hrow hp o ho hsame => hrefs ?_, (Except.ok.inj h).symm⟩
      refine List.any_eq_true.mpr ⟨row, List.mem_filter.mpr ⟨hrow, hp⟩, ?_⟩
      rw [Bool.or_eq_true]
      refine .inr (List.any_eq_true.mpr ⟨o, ho, ?_⟩)
      rw [Bool.and_eq_true, beq_iff_eq, beq_iff_eq]
      exact hsame

/-- Tokens and checkpoints change, and nothing else. -/
theorem deleteAnchors_ok {db db' : Database} {systemId : SystemId} (h : deleteAnchors db systemId = .ok db') :
    ∃ timestamps checkpoints, db' = { db with timestamps, checkpoints } := by
  unfold deleteAnchors at h
  obtain ⟨db₁, htimestamps, hcheckpoints⟩ := bind_eq_ok.mp h
  rw [Database.deleteTimestamps] at htimestamps
  split at htimestamps
  · cases htimestamps
  · obtain rfl := Except.ok.inj htimestamps
    rw [Database.deleteCheckpoints] at hcheckpoints
    split at hcheckpoints
    · cases hcheckpoints
    · split at hcheckpoints
      · cases hcheckpoints
      · exact ⟨_, _, (Except.ok.inj hcheckpoints).symm⟩

/-- What hangs from the system goes, and its row. -/
theorem deleteRest_ok {db db' : Database} {systemId : SystemId} (h : deleteRest db systemId = .ok db') :
    ∃ apiKeys transferLinks connections, db' = { db with
      apiKeys, transferLinks, connections
      systems := db.systems.filter fun r => !(r.systemId == systemId) } := by
  rw [deleteRest, Database.deleteSystems] at h
  split at h
  · cases h
  · split at h
    · cases h
    · exact ⟨_, _, _, (Except.ok.inj h).symm⟩

/-- The documents change, and nothing else. -/
theorem deleteArtifacts_ok {db db' : Database} {p : ArtifactRow → Bool} (h : db.deleteArtifacts p = .ok db') :
    ∃ artifacts, db' = { db with artifacts } := by
  rw [Database.deleteArtifacts] at h
  split at h
  · cases h
  · exact ⟨_, (Except.ok.inj h).symm⟩

/-- **A chain is erased whole.** -/
theorem eraseChain_ok {request : AdminRequest} {db db' : Database} {record : SystemRow}
    {displayName : Option JsString} (h : eraseChain request db record displayName = .ok db') :
    Deletes db db' record.systemId ∧ OpeningsGone db db' record.systemId := by
  rw [eraseChain] at h
  split at h
  · obtain ⟨db₁, hanchors, h⟩ := bind_eq_ok.mp h
    obtain ⟨db₂, hartifacts, h⟩ := bind_eq_ok.mp h
    obtain ⟨db₃, hreceipts, h⟩ := bind_eq_ok.mp h
    obtain ⟨timestamps, checkpoints, rfl⟩ := deleteAnchors_ok hanchors
    obtain ⟨artifacts, rfl⟩ := deleteArtifacts_ok hartifacts
    obtain ⟨-, rfl⟩ := deleteReceipts_ok hreceipts
    obtain ⟨apiKeys, transferLinks, connections, rfl⟩ := deleteRest_ok h
    exact ⟨⟨rfl, rfl, rfl, rfl, rfl, rfl, _, rfl, rfl, rfl⟩, rfl⟩
  · cases h

/-- The row found is the system's. -/
theorem systemRow_some {db : Database} {systemId : SystemId} {record : SystemRow}
    (h : db.systemRow systemId = some record) : record ∈ db.systems ∧ record.systemId = systemId := by
  rw [Database.systemRow] at h
  have hname := List.find?_some h
  rw [beq_iff_eq] at hname
  exact ⟨List.mem_of_find?_eq_some h, hname⟩

/-- A chain of one receipt goes with its genesis. -/
theorem filter_genesis {db : Database} {systemId : SystemId} {genesis : ReceiptRow}
    (hrows : db.chainRows systemId = [genesis]) (hseq : genesis.seq.1 = 0) :
    (db.receipts.filter fun r => !(r.systemId == systemId && r.seq.1 == 0))
      = db.receipts.filter fun r => !(r.systemId == systemId) := by
  refine List.filter_congr fun r hr => ?_
  by_cases hsystem : r.systemId = systemId
  · have hmem := mem_chainRows.mpr ⟨hr, hsystem⟩
    rw [hrows] at hmem
    rw [List.mem_singleton.mp hmem, hseq]
    simp
  · rw [beq_false_of_ne hsystem]
    rfl

/-- `deleteEmptySystem` commits as itself. -/
theorem deleteEmptySystem_commits (s : Store) (systemId : SystemId) (request : AdminRequest) :
    Commits c u key (· = .deleteEmpty systemId) s (deleteEmptySystem s systemId request).1 := by
  refine administer_commits fun record _ db happened a h => ?_
  split at h
  · rename_i genesis hrows
    split at h
    · cases h
    · rename_i hseq
      have hseq : genesis.seq.1 = 0 := not_not.mp hseq
      obtain ⟨db₁, hanchors, h⟩ := bind_eq_ok.mp h
      obtain ⟨db₂, hreceipts, h⟩ := bind_eq_ok.mp h
      obtain ⟨db₃, hrest, h⟩ := bind_eq_ok.mp h
      obtain ⟨rfl, htail⟩ := Prod.mk.inj (Except.ok.inj h)
      obtain ⟨rfl, -⟩ := Prod.mk.inj htail
      obtain ⟨timestamps, checkpoints, rfl⟩ := deleteAnchors_ok hanchors
      obtain ⟨hrefs, rfl⟩ := deleteReceipts_ok hreceipts
      obtain ⟨apiKeys, transferLinks, connections, rfl⟩ := deleteRest_ok hrest
      have hgenesis := mem_chainRows.mp (hrows ▸ List.mem_singleton_self genesis)
      refine Commits.single rfl (.deletedEmpty hrows hseq ?_ ?_ rfl)
      · intro o ho hsame
        refine hrefs genesis hgenesis.1 ?_ o ho ⟨hsame.1.trans hgenesis.2.symm, hsame.2⟩
        rw [hgenesis.2, hseq]
        simp
      · exact ⟨filter_genesis hrows hseq, rfl, rfl, rfl, rfl, rfl, _, rfl, rfl, rfl⟩
  · cases h

/-- `eraseOperatorSystem` commits as itself. -/
theorem eraseOperatorSystem_commits (s : Store) (systemId : SystemId) (request : AdminRequest) :
    Commits c u key (· = .eraseOperator systemId) s (eraseOperatorSystem s systemId request).1 := by
  refine administer_commits fun record hrecord db happened a h => ?_
  obtain ⟨hmem, rfl⟩ := systemRow_some hrecord
  split at h
  · cases h
  · rename_i howner
    obtain ⟨db₁, herase, heq⟩ := map_eq_ok.mp h
    obtain ⟨rfl, htail⟩ := Prod.mk.inj heq
    obtain ⟨rfl, -⟩ := Prod.mk.inj htail
    obtain ⟨hdeletes, hopenings⟩ := eraseChain_ok herase
    exact Commits.single rfl (.erasedOperator hmem (by simpa using howner) hdeletes hopenings)

/-- **Chains deleted one after the other.** -/
structure DeletesAll (db db' : Database) (records : List SystemRow) : Prop where
  receipts : db'.receipts = db.receipts.filter fun r => !(records.any fun record => record.systemId == r.systemId)
  openings : db'.openings = db.openings.filter fun o => !(records.any fun record => record.systemId == o.systemId)
  subjects : db'.subjects = db.subjects
  systems : db'.systems = db.systems.filter fun r => !(records.any fun record => record.systemId == r.systemId)
  adminLog : ∃ entries, db'.adminLog = db.adminLog ++ entries ∧
    entries.map (fun e => (e.action, e.systemId))
      = records.map fun record => (.systemDelete, some record.systemId)

/-- Chains that are erased one after the other are all gone. -/
theorem deletesAll_of_foldlM {request : AdminRequest} {records : List SystemRow} {db db' : Database}
    (h : records.foldlM (fun db record => eraseChain request db record none) db = .ok db') :
    DeletesAll db db' records := by
  induction records generalizing db with
  | nil =>
      obtain rfl := Except.ok.inj h
      exact ⟨by simp, by simp, rfl, by simp, [], by simp, by simp⟩
  | cons record rest ih =>
      rw [List.foldlM_cons] at h
      obtain ⟨db₁, h₁, h⟩ := bind_eq_ok.mp h
      obtain ⟨hfirst, hopenings⟩ := eraseChain_ok h₁
      have hrest := ih h
      obtain ⟨entry, hlog, haction, hsystem⟩ := hfirst.adminLog
      obtain ⟨entries, hlogs, hentries⟩ := hrest.adminLog
      have hfilter : ∀ (x : SystemId), ((!(rest.any fun r => r.systemId == x)) && !(x == record.systemId))
          = !((record :: rest).any fun r => r.systemId == x) := by
        intro x
        rw [List.any_cons, Bool.not_or, Bool.and_comm, BEq.comm (a := x)]
      constructor
      case receipts =>
        rw [hrest.receipts, hfirst.receipts, List.filter_filter]
        exact List.filter_congr fun r _ => hfilter r.systemId
      case openings =>
        rw [hrest.openings, hopenings, List.filter_filter]
        exact List.filter_congr fun o _ => hfilter o.systemId
      case subjects => rw [hrest.subjects, hfirst.subjects]
      case systems =>
        rw [hrest.systems, hfirst.systems, List.filter_filter]
        exact List.filter_congr fun r _ => hfilter r.systemId
      case adminLog =>
        refine ⟨entry :: entries, by rw [hlogs, hlog, List.append_assoc]; rfl, ?_⟩
        rw [List.map_cons, List.map_cons, hentries, haction, hsystem]

/-- `eraseOrganization` commits as itself. -/
theorem eraseOrganization_commits (s : Store) (organizationId : JsString) (request : AdminRequest) :
    Commits c u key (· = .eraseOrganization organizationId) s
      (eraseOrganization s organizationId request).1 := by
  refine transact_commits fun db happened a h => ?_
  split at h
  · cases h
  · obtain ⟨db₁, hchains, h⟩ := bind_eq_ok.mp h
    obtain ⟨db₂, hrow, h⟩ := bind_eq_ok.mp h
    obtain ⟨rfl, htail⟩ := Prod.mk.inj (Except.ok.inj h)
    obtain ⟨rfl, -⟩ := Prod.mk.inj htail
    have hall := deletesAll_of_foldlM hchains
    rw [Database.deleteOrganizationRow] at hrow
    split at hrow
    · cases hrow
    · obtain rfl := Except.ok.inj hrow
      obtain ⟨entries, hlog, hentries⟩ := hall.adminLog
      refine Commits.single rfl (.erasedOrganization rfl hall.receipts hall.openings ?_ hall.systems
        ⟨_, entries, hlog.trans (List.append_assoc _ _ _), ⟨rfl, rfl⟩, hentries⟩)
      exact fun row hrow => hall.subjects ▸ List.mem_of_mem_filter hrow

-- ── Persons and nonces ───────────────────────────────────────────────────────────

/-- `eraseSubject` commits as itself. -/
theorem eraseSubject_commits (s : Store) (token : Pseudonym) (request : AdminRequest) :
    Commits c u key (· = .eraseSubject token) s (eraseSubject s token request).1 := by
  refine transact_commits fun db happened a h => ?_
  split at h
  · obtain ⟨rfl, htail⟩ := Prod.mk.inj (Except.ok.inj h)
    obtain ⟨rfl, -⟩ := Prod.mk.inj htail
    rw [List.append_nil]
    exact Commits.single rfl (.erasedSubject rfl rfl rfl ⟨_, rfl, AdminAction.noConfusion, AdminAction.noConfusion⟩)
  · obtain ⟨rfl, htail⟩ := Prod.mk.inj (Except.ok.inj h)
    obtain ⟨rfl, -⟩ := Prod.mk.inj htail
    rw [List.append_nil]

/-- `eraseOpenings` commits as itself. -/
theorem eraseOpenings_commits (s : Store) (systemId : SystemId) (seqs : List Count) (request : AdminRequest) :
    Commits c u key (· = .eraseOpenings systemId seqs) s (eraseOpenings s systemId seqs request).1 := by
  refine administer_commits fun record _ db happened a h => ?_
  obtain ⟨rfl, htail⟩ := Prod.mk.inj (Except.ok.inj h)
  obtain ⟨rfl, -⟩ := Prod.mk.inj htail
  exact Commits.single rfl (.erasedOpenings rfl rfl rfl rfl
    ⟨_, rfl, AdminAction.noConfusion, AdminAction.noConfusion⟩)

-- ── Every operation ──────────────────────────────────────────────────────────────

/-- **An operation commits only what it allows.** -/
theorem perform_commits (s : Store) (op : Operation) :
    Commits c u key op.Allows s (perform c u key s op) := by
  cases op with
  | createSystem systemId ts organizationId replies => exact createSystem_commits s systemId ts _ replies
  | append seen event checked replies => exact append_commits s seen event checked replies
  | appendBatch seen events => exact appendBatch_commits s seen events
  | recordConnection seen row event => exact recordConnection_commits s seen row event
  | reconcileWithSigner systems => exact reconcileWithSigner_commits s systems
  | createCheckpoint systemId view reply => exact createCheckpoint_commits s systemId view reply
  | recordTimestamp row => exact recordTimestamp_commits s row
  | createOrganization organizationId name request approved =>
      exact createOrganization_commits s organizationId name request approved
  | registerOrganization uid email name draws request =>
      exact registerOrganization_commits s uid email name draws request
  | approveOrganization organizationId request => exact approveOrganization_commits s organizationId request
  | rejectOrganization organizationId request => exact rejectOrganization_commits s organizationId request
  | deleteOrganization organization request => exact deleteOrganization_commits s organization request
  | assignSystem systemId organizationId request => exact assignSystem_commits s systemId organizationId request
  | createTransfer systemId secret request => exact createTransfer_commits s systemId secret request
  | revokeTransfers systemId request => exact revokeTransfers_commits s systemId request
  | acceptTransfer secret organizationId request => exact acceptTransfer_commits s secret organizationId request
  | renameSystem systemId displayName request => exact renameSystem_commits s systemId displayName request
  | archiveSystem systemId request => exact archiveSystem_commits s systemId request
  | unarchiveSystem systemId request => exact unarchiveSystem_commits s systemId request
  | deleteEmptySystem systemId request => exact deleteEmptySystem_commits s systemId request
  | eraseOperatorSystem systemId request => exact eraseOperatorSystem_commits s systemId request
  | eraseOrganization organizationId request => exact eraseOrganization_commits s organizationId request
  | eraseSubject token request => exact eraseSubject_commits s token request
  | eraseOpenings systemId seqs request => exact eraseOpenings_commits s systemId seqs request
  | reopen =>
      have h : Commit c u key s .beside { s with db := s.db, divergences := [] } := .beside .refl
      exact Commits.single (.inr (.inr rfl)) h

/-- **What every transaction of the allowed kinds keeps, a run keeps.** -/
theorem run_keeps {P : Store → Prop} {ops : List Operation}
    (hstep : ∀ s s' k, (∃ op ∈ ops, op.Allows k) → Commit c u key s k s' → P s → P s') {s : Store}
    (hs : P s) : P (run c u key s ops) := by
  induction ops generalizing s with
  | nil => exact hs
  | cons op rest ih =>
      refine ih (fun a b k ⟨o, ho, hk⟩ => hstep a b k ⟨o, by simp [ho], hk⟩) ?_
      have h : Commits c u key op.Allows s (perform c u key s op) := perform_commits s op
      generalize perform c u key s op = s' at h ⊢
      induction h with
      | refl => exact hs
      | tail _ hlast ih =>
          obtain ⟨k, hk, hcommit⟩ := hlast
          exact hstep _ _ k ⟨op, by simp, hk⟩ hcommit ih

end Sigillo
