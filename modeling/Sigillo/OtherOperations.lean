import Sigillo.DeletedChains
import Sigillo.RefusedBatches

/-!
# What is not the watch's to do

The sessions of a connection are the watch's: nothing else the store does changes one, other than by deleting
its system, and nothing else writes a receipt under a connection's name (**`perform_aside`**). -/

namespace Sigillo

open DoubleArith Utf16Text JsonText JsonSchema HexBase64 IsoTime Fallible Relation

variable {c : Crypto} {u : Unicode} {key : WriterKey} {s s' s'' : Store}

/-- An event under a connection's name; a chain may be called so, and opens with its name. -/
def ChainEvent.IsConnections (event : ChainEvent) : Prop :=
  event.action.kind ≠ .genesis ∧ CONNECTION_PREFIX <+: event.action.name

/-- It deletes the chain of a system. -/
def Happening.deletes (systemId : SystemId) : Happening → Bool
  | .deletedChain name => name == systemId
  | _ => false

/-- A chain was deleted exactly if that is among what happened. -/
theorem deletes_iff {systemId : SystemId} {happened : List Happening} :
    happened.any (Happening.deletes systemId) = true ↔ .deletedChain systemId ∈ happened := by
  rw [List.any_eq_true]
  constructor
  · rintro ⟨x, hx, hdeletes⟩
    cases x with
    | deletedChain name => exact beq_iff_eq.mp hdeletes ▸ hx
    | wrote => cases hdeletes
    | tookBack => cases hdeletes
    | erasedOpenings => cases hdeletes
  · intro hmem
    exact ⟨_, hmem, beq_self_eq_true _⟩

/-- What happened left the watch's aside: no receipt under a connection's name, sessions gone with their
    system only, and nothing taken back from the signer but receipts of a kind. -/
structure AsideBy (takes : Receipt → Prop) (s s' : Store) (happened : List Happening) : Prop where
  history : s'.history = s.history ++ happened
  receipts : ∀ event prepared receipt, .wrote event prepared receipt ∈ happened → ¬ event.IsConnections
  connections : s'.db.connections =
    s.db.connections.filter fun row => !happened.any (Happening.deletes row.systemId)
  taken : ∀ r, .tookBack r ∈ happened → takes r

/-- **Nothing of the watch's is touched.** -/
def Aside (takes : Receipt → Prop) (s s' : Store) : Prop := ∃ happened, AsideBy takes s s' happened

variable {takes : Receipt → Prop}

namespace Aside

/-- Sessions that are left as they are. -/
theorem of_same (hconnections : s'.db.connections = s.db.connections) {happened : List Happening}
    (hhistory : s'.history = s.history ++ happened)
    (hnone : ∀ event prepared receipt, .wrote event prepared receipt ∈ happened → ¬ event.IsConnections)
    (hkept : ∀ systemId, .deletedChain systemId ∉ happened) (htaken : ∀ r, .tookBack r ∈ happened → takes r) :
    Aside takes s s' := by
  refine ⟨happened, hhistory, hnone, ?_, htaken⟩
  rw [hconnections, List.filter_eq_self.mpr]
  intro row _
  rw [Bool.not_eq_true', ← Bool.not_eq_true, deletes_iff]
  exact hkept row.systemId

/-- A step that touches neither the sessions nor the history. -/
theorem of_kept (hconnections : s'.db.connections = s.db.connections) (hhistory : s'.history = s.history) :
    Aside takes s s' :=
  of_same hconnections (hhistory.trans (List.append_nil _).symm) (fun _ _ _ h => absurd h List.not_mem_nil)
    (fun _ h => absurd h List.not_mem_nil) fun _ h => absurd h List.not_mem_nil

theorem refl (s : Store) : Aside takes s s := of_kept rfl rfl

theorem trans (h : Aside takes s s') (h' : Aside takes s' s'') : Aside takes s s'' := by
  obtain ⟨before, hbefore, hnone, hgone, htaken⟩ := h
  obtain ⟨after, hafter, hnone', hgone', htaken'⟩ := h'
  refine ⟨before ++ after, by rw [hafter, hbefore, List.append_assoc], fun event prepared receipt h => ?_, ?_,
    fun r h => (List.mem_append.mp h).elim (htaken r) (htaken' r)⟩
  · rcases List.mem_append.mp h with h | h
    · exact hnone event prepared receipt h
    · exact hnone' event prepared receipt h
  · rw [hgone', hgone, List.filter_filter]
    refine List.filter_congr fun row _ => ?_
    rw [List.any_append, Bool.not_or, Bool.and_comm]

end Aside

-- ── What the signer shows ────────────────────────────────────────────────────────

/-- A receipt the signer shows: its head, or one in its journal. -/
def SignerView.Lists (view : SignerView) (r : Receipt) : Prop :=
  view.head = .ok (some r) ∨
    ∃ page start receipts, view.receipts = some page ∧ page start = .ok receipts ∧ r ∈ receipts

/-- **A receipt the signer brings**: it shows it, and the store does not hold it. -/
def SignerView.Brings (c : Crypto) (view : SignerView) (s : Store) (r : Receipt) : Prop :=
  view.Lists r ∧ receiptRow c r ∉ s.db.receipts

theorem mem_fetchJournal {page : ℕ → Except StoreError (List Receipt)} {firstMissing wanted pages : ℕ}
    {journal all : List Receipt} (h : fetchJournal page firstMissing wanted pages journal = some all) :
    ∀ r ∈ all, r ∈ journal ∨ ∃ start receipts, page start = .ok receipts ∧ r ∈ receipts := by
  induction pages generalizing journal with
  | zero =>
      obtain rfl := Option.some.inj h
      exact fun r hr => .inl hr
  | succ pages ih =>
      rw [fetchJournal] at h
      split at h
      · obtain rfl := Option.some.inj h
        exact fun r hr => .inl hr
      · split at h
        · cases h
        · obtain rfl := Option.some.inj h
          exact fun r hr => .inl hr
        · rename_i first rest hpage
          intro r hr
          rcases ih h r hr with hr | hr
          · rcases List.mem_append.mp hr with hr | hr
            · exact .inl hr
            · exact .inr ⟨_, _, hpage, hr⟩
          · exact .inr hr

/-- **What a chain takes back, the signer brings.** -/
theorem brings_of_missing {systemId : SystemId} {view : SignerView} {head : Receipt} {taken : List Receipt}
    {db : Database} (hahead : view.head = .ok (some head))
    (hmissing : Missing c key s.db systemId head (journalFrom view head (s.db.tipRow systemId)) taken)
    (hrestores : Restores c s.db systemId taken db) : ∀ r ∈ taken, view.Brings c s r := by
  intro r hr
  refine ⟨?_, fun hrow => ?_⟩
  · have hoffered := (takeMissing_isPrefix hmissing.taken_eq).subset hr
    split at hoffered
    · rw [List.mem_singleton.mp hoffered]
      exact .inl hahead
    · rw [journalFrom] at hoffered
      split at hoffered
      · cases hpages : view.receipts with
        | none =>
            rw [hpages] at hoffered
            exact absurd hoffered List.not_mem_nil
        | some page =>
            rw [hpages, Option.bind_some] at hoffered
            cases hfetched : fetchJournal page (firstMissingOf (s.db.tipRow systemId))
              (head.seq.1 - firstMissingOf (s.db.tipRow systemId) + 1)
              (head.seq.1 - firstMissingOf (s.db.tipRow systemId) + 1) [] with
            | none =>
                rw [hfetched] at hoffered
                exact absurd hoffered List.not_mem_nil
            | some all =>
                rw [hfetched] at hoffered
                rcases mem_fetchJournal hfetched r hoffered with hnone | ⟨start, receipts, hpage, hmem⟩
                · exact absurd hnone List.not_mem_nil
                · exact .inr ⟨page, start, receipts, hpages, hpage, hmem⟩
      · exact absurd hoffered List.not_mem_nil
  · obtain ⟨before, after, htaken⟩ := List.append_of_mem hr
    exact hrestores.noClash before r after htaken _ (List.mem_append_left _ hrow) (.inr (.inl rfl))

-- ── Receipts ─────────────────────────────────────────────────────────────────────

/-- A receipt leaves the sessions' rows. -/
theorem connections_insertReceipt {db db' : Database} {event : ChainEvent} {mode : WriteMode} {attempt : Attempt}
    {written : Written} (h : insertReceipt c u key db event mode attempt = .ok (db', written)) :
    db'.connections = db.connections := by
  cases written with
  | duplicate receipt =>
      obtain ⟨rfl, -⟩ := insertReceipt_duplicate h
      rfl
  | new prepared receipt =>
      rw [(insertReceipt_new h).db_eq]
      rfl

/-- One attempt at a receipt that is none of a connection. -/
theorem attemptReceipt_aside {event : ChainEvent} (hevent : ¬ event.IsConnections) (mode : WriteMode)
    (attempt : Attempt) : Aside takes s (attemptReceipt c u key s event mode .ok attempt).1 := by
  rw [attemptReceipt]
  cases hinsert : insertReceipt c u key s.db event mode attempt with
  | error e => exact .refl s
  | ok out =>
      obtain ⟨db, written⟩ := out
      have hsessions := connections_insertReceipt hinsert
      refine Aside.of_same hsessions rfl (fun event' prepared receipt h => ?_) (fun systemId h => ?_) fun r h => ?_
      · cases written with
        | duplicate => exact absurd h List.not_mem_nil
        | new =>
            obtain ⟨rfl, -, -⟩ := Happening.wrote.inj (List.mem_singleton.mp h)
            exact hevent
      · cases written with
        | duplicate => exact absurd h List.not_mem_nil
        | new => cases List.mem_singleton.mp h
      · cases written with
        | duplicate => exact absurd h List.not_mem_nil
        | new => cases List.mem_singleton.mp h

/-- A divergence is logged aside. -/
theorem recordDivergence_aside (s : Store) (systemId : SystemId) (detail : JsString) (ts : Timestamp) :
    Aside takes s (recordDivergence s systemId detail ts) := by
  rw [recordDivergence]
  by_cases hknown : s.divergences.lookup systemId = some detail
  · rw [if_pos hknown]
    exact .refl s
  · rw [if_neg hknown]
    exact .of_kept rfl rfl

/-- What a chain takes back is new to it, and comes without its session. -/
theorem reconcileNow_aside (s : Store) (systemId : SystemId) {view : SignerView}
    (htakes : ∀ r, view.Brings c s r → takes r) : Aside takes s (reconcileNow c key s systemId view).1 := by
  generalize hresult : reconcileNow c key s systemId view = result
  have hcases : Reconciles c key s systemId view (reconcileNow c key s systemId view) :=
    reconcileNow_reconciles s systemId view
  rw [hresult] at hcases
  cases hcases with
  | failed e => exact .refl s
  | inSync => exact .refl s
  | diverged detail => exact recordDivergence_aside s systemId detail _
  | recovered head taken db ahead missing restored =>
      have hrest := (restores_of_foldlM restored).rest
      have hsessions : db.connections = s.db.connections := by rw [hrest]
      refine .of_same hsessions rfl (fun event prepared receipt h => ?_) (fun systemId h => ?_) fun r h => ?_
      · obtain ⟨r, -, heq⟩ := List.mem_map.mp h
        cases heq
      · obtain ⟨r, -, heq⟩ := List.mem_map.mp h
        cases heq
      · obtain ⟨r, hr, heq⟩ := List.mem_map.mp h
        obtain rfl := Happening.tookBack.inj heq
        exact htakes r (brings_of_missing ahead missing (restores_of_foldlM restored) r hr)

/-- A write with its recovery, which may take receipts back. -/
theorem writeReceipt_aside {event : ChainEvent} (hevent : ¬ event.IsConnections) (mode : WriteMode)
    {replies : SignerReplies} (htakes : ∀ r, replies.view.Brings c s r → takes r) :
    Aside takes s (writeReceipt c u key s event mode .ok replies).1 := by
  have hfirst : Aside takes s (attemptReceipt c u key s event mode .ok replies.first).1 :=
    attemptReceipt_aside hevent mode replies.first
  rw [writeReceipt]
  split
  case h_1 s₁ message hrefused =>
    rw [hrefused] at hfirst
    obtain ⟨rfl, -⟩ := attemptReceipt_error hrefused
    have hview : Aside takes s₁ (reconcileNow c key s₁ event.systemId replies.view).1 :=
      reconcileNow_aside s₁ event.systemId htakes
    generalize reconcileNow c key s₁ event.systemId replies.view = result at hview ⊢
    obtain ⟨s₂, outcome⟩ := result
    cases outcome with
    | error e => exact hfirst.trans hview
    | ok outcome =>
        cases outcome with
        | inSync => exact hfirst.trans hview
        | diverged detail => exact hfirst.trans hview
        | recovered seq hash count =>
            exact (hfirst.trans hview).trans (attemptReceipt_aside hevent mode replies.again)
  case h_2 => exact hfirst

/-- **No client writes under a connection's name.** -/
theorem not_connections_of_refusedEvent {event : ChainEvent} (h : refusedEvent event = none) :
    ¬ event.IsConnections := by
  rintro ⟨hkind, hname⟩
  rw [refusedEvent, if_neg hkind, if_pos hname] at h
  cases h

/-- `append` of an event touches nothing of the watch's. -/
theorem append_aside (s : Store) (seen : List SubjectRow) (event : ChainEvent) (checked : Randomness)
    {replies : SignerReplies} (htakes : ∀ r, replies.view.Brings c s r → takes r) :
    Aside takes s (append c u key s seen event checked replies).1 := by
  rw [append]
  cases hrefused : refusedEvent event with
  | some e => exact .refl s
  | none =>
      dsimp only [Option.orElse]
      cases refusedBefore c u key seen event checked with
      | some e => exact .refl s
      | none => exact writeReceipt_aside (not_connections_of_refusedEvent hrefused) _ htakes

/-- What is new to a store that grew was new to it before. -/
theorem SignerView.Brings.before {view : SignerView} (hgrew : s.db.receipts ⊆ s'.db.receipts) {r : Receipt}
    (h : view.Brings c s' r) : view.Brings c s r := ⟨h.1, fun hrow => h.2 (hgrew hrow)⟩

/-- The writes of a batch. -/
theorem writeBatch_aside (s : Store) {events : List (ChainEvent × SignerReplies)}
    (h : ∀ e ∈ events, ¬ e.1.IsConnections) (htakes : ∀ e ∈ events, ∀ r, e.2.view.Brings c s r → takes r) :
    Aside takes s (writeBatch c u key s events).1 := by
  induction events generalizing s with
  | nil => exact .refl s
  | cons first rest ih =>
      obtain ⟨event, replies⟩ := first
      have hwrite : Aside takes s (writeReceipt c u key s event .continuation .ok replies).1 :=
        writeReceipt_aside (h _ List.mem_cons_self) _ (htakes _ List.mem_cons_self)
      have hgrew : s.db.receipts ⊆ (writeReceipt c u key s event .continuation .ok replies).1.db.receipts :=
        receipts_subset_of_commits (writeReceipt_commits (opensNew_continuation s event) writesBeside_ok replies)
      rw [writeBatch]
      generalize writeReceipt c u key s event .continuation .ok replies = result at hwrite hgrew ⊢
      obtain ⟨s₁, outcome⟩ := result
      cases outcome with
      | error e => exact hwrite
      | ok receipt =>
          have hrest := ih s₁ (fun e he => h e (List.mem_cons_of_mem _ he)) fun e he r hr =>
            htakes e (List.mem_cons_of_mem _ he) r (hr.before hgrew)
          dsimp only
          generalize writeBatch c u key s₁ rest = result at hrest ⊢
          obtain ⟨s₂, outcome⟩ := result
          cases outcome with
          | error e => exact hwrite.trans hrest
          | ok receipts => exact hwrite.trans hrest

/-- `appendBatch` of events touches nothing of the watch's. -/
theorem appendBatch_aside (s : Store) (seen : List SubjectRow)
    {events : List (ChainEvent × Randomness × SignerReplies)}
    (htakes : ∀ e ∈ events, ∀ r, e.2.2.view.Brings c s r → takes r) :
    Aside takes s (appendBatch c u key s seen events).1 := by
  rw [appendBatch_eq]
  cases hrefused : batchRefusal c u key seen events with
  | some e => exact .refl s
  | none =>
      refine writeBatch_aside s (fun e he => ?_) fun e he => ?_
      · obtain ⟨x, hx, rfl⟩ := List.mem_map.mp he
        have hnone := (orElse_eq_none.mp (orElse_eq_none.mp hrefused).2).1
        exact not_connections_of_refusedEvent (List.findSome?_eq_none_iff.mp hnone x hx)
      · obtain ⟨x, hx, rfl⟩ := List.mem_map.mp he
        exact htakes x hx

/-- `createSystem` touches nothing of the watch's. -/
theorem createSystem_aside (s : Store) (systemId : SystemId) (ts : Timestamp) (organizationId : Option JsString)
    {replies : SignerReplies} (htakes : ∀ r, replies.view.Brings c s r → takes r) :
    Aside takes s (createSystem c u key s systemId ts organizationId replies).1 := by
  rw [createSystem]
  by_cases howner : ¬ s.db.hasOwner organizationId = true
  · rw [if_pos howner]
    exact .refl s
  · rw [if_neg howner]
    cases s.db.deletionOf systemId with
    | some deletedOn => exact .refl s
    | none => exact writeReceipt_aside (fun h => h.1 rfl) _ htakes

include u in

/-- `reconcileWithSigner`, which may take receipts back. -/
theorem reconcileWithSigner_aside (s : Store) {systems : List (SystemId × SignerView)}
    (htakes : ∀ e ∈ systems, ∀ r, e.2.Brings c s r → takes r) :
    Aside takes s (reconcileWithSigner c key s systems).1 := by
  induction systems generalizing s with
  | nil => exact .refl s
  | cons first rest ih =>
      obtain ⟨systemId, view⟩ := first
      have hfirst : Aside takes s (reconcileNow c key s systemId view).1 :=
        reconcileNow_aside s systemId (htakes _ List.mem_cons_self)
      have hgrew : s.db.receipts ⊆ (reconcileNow c key s systemId view).1.db.receipts :=
        receipts_subset_of_commits (u := u) (reconcileNow_commits s systemId view)
      rw [reconcileWithSigner]
      generalize reconcileNow c key s systemId view = result at hfirst hgrew ⊢
      obtain ⟨s₁, outcome⟩ := result
      cases outcome with
      | error e => exact hfirst
      | ok outcome =>
          have hrest := ih s₁ fun e he r hr => htakes e (List.mem_cons_of_mem _ he) r (hr.before hgrew)
          dsimp only
          generalize reconcileWithSigner c key s₁ rest = result at hrest ⊢
          obtain ⟨s₂, outcomes⟩ := result
          cases outcomes with
          | error e => exact hfirst.trans hrest
          | ok outcomes => exact hfirst.trans hrest

-- ── Checkpoints and timestamps ───────────────────────────────────────────────────

/-- `createCheckpoint` touches nothing of the watch's. -/
theorem createCheckpoint_aside (s : Store) (systemId : SystemId) {view : SignerView}
    (htakes : ∀ r, view.Brings c s r → takes r) (reply : Except StoreError Checkpoint) :
    Aside takes s (createCheckpoint c key s systemId view reply).1 := by
  have hfirst : Aside takes s (reconcileNow c key s systemId view).1 := reconcileNow_aside s systemId htakes
  rw [createCheckpoint]
  split
  · rename_i heq
    rwa [heq] at hfirst
  · rename_i heq
    rwa [heq] at hfirst
  · rename_i s₁ outcome hnot heq
    rw [heq] at hfirst
    refine hfirst.trans ?_
    dsimp only
    split
    · exact .refl s₁
    · split
      · exact .refl s₁
      · cases reply with
        | error e => exact .refl s₁
        | ok checkpoint =>
            dsimp only
            split
            · exact .refl s₁
            · split
              · exact recordDivergence_aside s₁ systemId _ _
              · cases hinsert : insertCheckpoint s₁.db checkpoint with
                | error e => exact .refl s₁
                | ok db =>
                    obtain ⟨checkpoints, -, rfl⟩ := map_eq_ok.mp hinsert
                    exact .of_kept rfl rfl

/-- `recordTimestamp` touches nothing of the watch's. -/
theorem recordTimestamp_aside (s : Store) (row : TimestampRow) : Aside takes s (recordTimestamp s row).1 := by
  rw [recordTimestamp]
  split
  · cases Database.insertRowInto s.db.timestamps
      (fun r => r.checkpointId == row.checkpointId && r.tsaUrl == row.tsaUrl) row with
    | error e => exact .refl s
    | ok timestamps => exact .of_kept rfl rfl
  · exact .refl s

-- ── Administrative changes ───────────────────────────────────────────────────────

/-- A change that throws, or leaves the sessions aside. -/
def LeavesSessions {α : Type} (takes : Receipt → Prop) (s : Store) (result : Except StoreError (Database × List Happening × α)) : Prop :=
  ∀ db happened a, result = .ok (db, happened, a) → Aside takes s { s with db, history := s.history ++ happened }

namespace LeavesSessions

variable {α : Type} {result : Except StoreError (Database × List Happening × α)}

/-- Work that fails. -/
theorem error (e : StoreError) : LeavesSessions (α := α) takes s (.error e) := fun _ _ _ h => nomatch h

theorem ok {db : Database} {a : α} (h : db.connections = s.db.connections) : LeavesSessions takes s (.ok (db, [], a)) := by
  intro db' happened a' heq
  obtain ⟨rfl, hrest⟩ := Prod.mk.inj (Except.ok.inj heq)
  obtain ⟨rfl, -⟩ := Prod.mk.inj hrest
  exact .of_kept h (List.append_nil _)

/-- **A transaction stays aside where its work does.** -/
theorem transact (h : LeavesSessions takes s result) : Aside takes s (s.transact result).1 := by
  cases hresult : result with
  | error e => exact .refl s
  | ok out => exact h _ _ _ hresult

/-- Work on a system that is there. -/
theorem administer {systemId : SystemId} {work : SystemRow → Except StoreError (Database × List Happening × α)}
    (h : ∀ record, record.systemId = systemId → LeavesSessions takes s (work record)) :
    Aside takes s (administer s systemId work).1 := by
  refine LeavesSessions.transact ?_
  cases hrecord : s.db.systemRow systemId with
  | none => exact error _
  | some record => exact h record (systemRow_some hrecord).2

/-- Removing an organization leaves the sessions as they are. -/
theorem removeOrganization {action : AdminAction} {organization : Organization} {request : AdminRequest} :
    LeavesSessions takes s ((removeOrganization s.db action organization request).map fun db => (db, [], ())) := by
  intro db happened a h
  obtain ⟨db₁, hremoved, heq⟩ := map_eq_ok.mp h
  obtain ⟨rfl, hrest⟩ := Prod.mk.inj heq
  obtain ⟨rfl, -⟩ := Prod.mk.inj hrest
  unfold Sigillo.removeOrganization at hremoved
  obtain ⟨db₂, hrow, hlog⟩ := bind_eq_ok.mp hremoved
  obtain rfl := Except.ok.inj hlog
  rw [Database.deleteOrganizationRow] at hrow
  split at hrow
  · cases hrow
  · obtain rfl := Except.ok.inj hrow
    exact .of_kept rfl (List.append_nil _)

end LeavesSessions

/-- `createOrganization` touches nothing of the watch's. -/
theorem createOrganization_aside (s : Store) (organizationId name : JsString) (request : AdminRequest)
    (approved : Bool) : Aside takes s (createOrganization s organizationId name request approved).1 := by
  refine LeavesSessions.transact ?_
  split
  · exact .error _
  · cases organizationLabel name with
    | error e => exact .error e
    | ok label =>
        dsimp only
        split
        · exact .error _
        · exact .ok rfl

/-- `registerOrganization` touches nothing of the watch's. -/
theorem registerOrganization_aside (s : Store) (uid email name : JsString) (draws : List JsString)
    (request : AdminRequest) : Aside takes s (registerOrganization s uid email name draws request).1 := by
  refine LeavesSessions.transact ?_
  cases organizationLabel name with
  | error e => exact .error e
  | ok label =>
      dsimp only
      split
      · exact .error _
      · cases draws.find? fun id => (s.db.organization id).isNone with
        | none => exact .ok rfl
        | some organizationId => exact .ok rfl

/-- `approveOrganization` touches nothing of the watch's. -/
theorem approveOrganization_aside (s : Store) (organizationId : JsString) (request : AdminRequest) :
    Aside takes s (approveOrganization s organizationId request).1 := by
  refine LeavesSessions.transact ?_
  cases s.db.organization organizationId with
  | none => exact .error _
  | some organization =>
      dsimp only
      split
      · exact .ok rfl
      · exact .ok rfl

/-- `rejectOrganization` touches nothing of the watch's. -/
theorem rejectOrganization_aside (s : Store) (organizationId : JsString) (request : AdminRequest) :
    Aside takes s (rejectOrganization s organizationId request).1 := by
  refine LeavesSessions.transact ?_
  cases s.db.organization organizationId with
  | none => exact .error _
  | some organization =>
      dsimp only
      split
      · exact .error _
      · split
        · exact .error _
        · exact .removeOrganization

/-- `deleteOrganization` touches nothing of the watch's. -/
theorem deleteOrganization_aside (s : Store) (organization : Organization) (request : AdminRequest) :
    Aside takes s (deleteOrganization s organization request).1 :=
  LeavesSessions.transact .removeOrganization

/-- `assignSystem` touches nothing of the watch's. -/
theorem assignSystem_aside (s : Store) (systemId : SystemId) (organizationId : Option JsString)
    (request : AdminRequest) : Aside takes s (assignSystem s systemId organizationId request).1 := by
  refine LeavesSessions.administer fun record hrecord => ?_
  split
  · exact .error _
  · exact .ok rfl

/-- `createTransfer` touches nothing of the watch's. -/
theorem createTransfer_aside (s : Store) (systemId : SystemId) (secret : JsString) (request : AdminRequest) :
    Aside takes s (createTransfer c s systemId secret request).1 := by
  refine LeavesSessions.administer fun record hrecord => ?_
  intro db happened a h
  obtain ⟨links, -, h⟩ := bind_eq_ok.mp h
  obtain ⟨rfl, hrest⟩ := Prod.mk.inj (Except.ok.inj h)
  obtain ⟨rfl, -⟩ := Prod.mk.inj hrest
  exact .of_kept rfl (List.append_nil _)

/-- `revokeTransfers` touches nothing of the watch's. -/
theorem revokeTransfers_aside (s : Store) (systemId : SystemId) (request : AdminRequest) :
    Aside takes s (revokeTransfers s systemId request).1 :=
  LeavesSessions.administer fun _ _ => .ok rfl

/-- `acceptTransfer` touches nothing of the watch's. -/
theorem acceptTransfer_aside (s : Store) (secret organizationId : JsString) (request : AdminRequest) :
    Aside takes s (acceptTransfer c s secret organizationId request).1 := by
  refine LeavesSessions.transact ?_
  cases s.db.transferLinks.find? fun l => l.tokenHash == transferHash c secret && l.isOpen
      && !lexLe l.expiresAt request.ts.1 with
  | none => exact .error _
  | some link =>
      dsimp only
      split
      · exact .error _
      · cases s.db.systemRow link.systemId with
        | none => exact .error _
        | some record =>
            dsimp only
            split
            · exact .error _
            · exact .ok rfl

/-- `renameSystem` touches nothing of the watch's. -/
theorem renameSystem_aside (s : Store) (systemId : SystemId) (displayName : JsString) (request : AdminRequest) :
    Aside takes s (renameSystem s systemId displayName request).1 := by
  rw [renameSystem]
  cases normaliseDisplayName displayName with
  | error e => exact .refl s
  | ok next => exact LeavesSessions.administer fun _ _ => .ok rfl

/-- `archiveSystem` touches nothing of the watch's. -/
theorem archiveSystem_aside (s : Store) (systemId : SystemId) (request : AdminRequest) :
    Aside takes s (archiveSystem s systemId request).1 := by
  refine LeavesSessions.administer fun record hrecord => ?_
  split
  · exact .ok rfl
  · exact .ok rfl

/-- `unarchiveSystem` touches nothing of the watch's. -/
theorem unarchiveSystem_aside (s : Store) (systemId : SystemId) (request : AdminRequest) :
    Aside takes s (unarchiveSystem s systemId request).1 := by
  refine LeavesSessions.administer fun record hrecord => ?_
  cases record.archivedAt with
  | none => exact .ok rfl
  | some archivedAt => exact .ok rfl

/-- `eraseSubject` touches nothing of the watch's. -/
theorem eraseSubject_aside (s : Store) (token : Pseudonym) (request : AdminRequest) :
    Aside takes s (eraseSubject s token request).1 := by
  refine LeavesSessions.transact ?_
  split
  · exact .ok rfl
  · exact .ok rfl

/-- `eraseOpenings` touches nothing of the watch's. -/
theorem eraseOpenings_aside (s : Store) (systemId : SystemId) (seqs : List Count) (request : AdminRequest) :
    Aside takes s (eraseOpenings s systemId seqs request).1 := by
  refine LeavesSessions.administer fun record hrecord => ?_
  intro db happened a h
  obtain ⟨rfl, hrest⟩ := Prod.mk.inj (Except.ok.inj h)
  obtain ⟨rfl, -⟩ := Prod.mk.inj hrest
  exact .of_same rfl rfl (fun event prepared receipt hmem => by cases List.mem_singleton.mp hmem)
    (fun systemId hmem => by cases List.mem_singleton.mp hmem) fun r hmem => by cases List.mem_singleton.mp hmem

-- ── Deletions ────────────────────────────────────────────────────────────────────

/-- A system's sessions go with its row. -/
theorem connections_deleteRest {db db' : Database} {systemId : SystemId} (h : deleteRest db systemId = .ok db') :
    db'.connections = db.connections.filter fun row => !(row.systemId == systemId) := by
  rw [deleteRest, Database.deleteSystems] at h
  split at h
  · cases h
  · split at h
    · cases h
    · obtain rfl := Except.ok.inj h
      rfl

/-- The sessions of deleted systems go with them. -/
theorem aside_of_deleted {db : Database} {records : List SystemRow}
    (h : db.connections = s.db.connections.filter fun row => !(records.any fun record => record.systemId == row.systemId)) :
    Aside takes s { s with db, history := s.history ++ records.map fun record => .deletedChain record.systemId } := by
  refine ⟨_, rfl, fun event prepared receipt hmem => ?_, ?_, fun r hmem => ?_⟩
  · obtain ⟨record, -, heq⟩ := List.mem_map.mp hmem
    cases heq
  · rw [h]
    refine List.filter_congr fun row _ => ?_
    rw [List.any_map]
    rfl
  · obtain ⟨record, -, heq⟩ := List.mem_map.mp hmem
    cases heq

/-- The sessions of one deleted system go with it. -/
theorem aside_of_deletedOne {db : Database} {record : SystemRow}
    (h : db.connections = s.db.connections.filter fun row => !(row.systemId == record.systemId)) :
    Aside takes s { s with db, history := s.history ++ [.deletedChain record.systemId] } := by
  have hgone : db.connections = s.db.connections.filter fun row =>
      !([record].any fun record => record.systemId == row.systemId) := by
    rw [h]
    refine List.filter_congr fun row _ => ?_
    rw [List.any_cons, List.any_nil, Bool.or_false, BEq.comm]
  exact aside_of_deleted hgone

/-- The sessions of an erased chain go with it. -/
theorem connections_eraseChain {request : AdminRequest} {db db' : Database} {record : SystemRow}
    {displayName : Option JsString} (h : eraseChain request db record displayName = .ok db') :
    db'.connections = db.connections.filter fun row => !(row.systemId == record.systemId) := by
  rw [eraseChain] at h
  split at h
  · obtain ⟨db₁, hanchors, h⟩ := bind_eq_ok.mp h
    obtain ⟨db₂, hartifacts, h⟩ := bind_eq_ok.mp h
    obtain ⟨db₃, hreceipts, h⟩ := bind_eq_ok.mp h
    obtain ⟨timestamps, checkpoints, rfl⟩ := deleteAnchors_ok hanchors
    obtain ⟨artifacts, rfl⟩ := deleteArtifacts_ok hartifacts
    obtain ⟨-, rfl⟩ := deleteReceipts_ok hreceipts
    have hrest := connections_deleteRest h
    exact hrest
  · cases h

/-- `deleteEmptySystem` touches nothing of the watch's. -/
theorem deleteEmptySystem_aside (s : Store) (systemId : SystemId) (request : AdminRequest) :
    Aside takes s (deleteEmptySystem s systemId request).1 := by
  refine LeavesSessions.administer fun record hrecord => ?_
  split
  · split
    · exact .error _
    · intro db happened a h
      obtain ⟨db₁, hanchors, h⟩ := bind_eq_ok.mp h
      obtain ⟨db₂, hreceipts, h⟩ := bind_eq_ok.mp h
      obtain ⟨db₃, hrest, h⟩ := bind_eq_ok.mp h
      obtain ⟨rfl, htail⟩ := Prod.mk.inj (Except.ok.inj h)
      obtain ⟨rfl, -⟩ := Prod.mk.inj htail
      obtain ⟨timestamps, checkpoints, rfl⟩ := deleteAnchors_ok hanchors
      obtain ⟨-, rfl⟩ := deleteReceipts_ok hreceipts
      have hleft := connections_deleteRest hrest
      obtain rfl := hrecord
      exact aside_of_deletedOne hleft
  · exact .error _

/-- `eraseOperatorSystem` touches nothing of the watch's. -/
theorem eraseOperatorSystem_aside (s : Store) (systemId : SystemId) (request : AdminRequest) :
    Aside takes s (eraseOperatorSystem s systemId request).1 := by
  refine LeavesSessions.administer fun record hrecord => ?_
  split
  · exact .error _
  · intro db happened a h
    obtain ⟨db₁, herase, heq⟩ := map_eq_ok.mp h
    obtain ⟨rfl, htail⟩ := Prod.mk.inj heq
    obtain ⟨rfl, -⟩ := Prod.mk.inj htail
    obtain rfl := hrecord
    exact aside_of_deletedOne (connections_eraseChain herase)

/-- The sessions of erased chains go with them. -/
theorem connections_eraseChains {request : AdminRequest} {records : List SystemRow} {db db' : Database}
    (h : records.foldlM (fun db record => eraseChain request db record none) db = .ok db') :
    db'.connections = db.connections.filter fun row => !(records.any fun record => record.systemId == row.systemId) := by
  induction records generalizing db with
  | nil =>
      obtain rfl := Except.ok.inj h
      exact (List.filter_eq_self.mpr fun _ _ => rfl).symm
  | cons record rest ih =>
      rw [List.foldlM_cons] at h
      obtain ⟨db₁, hfirst, h⟩ := bind_eq_ok.mp h
      rw [ih h, connections_eraseChain hfirst, List.filter_filter]
      refine List.filter_congr fun row _ => ?_
      rw [List.any_cons, Bool.not_or, Bool.and_comm, BEq.comm (a := row.systemId)]

/-- `eraseOrganization` touches nothing of the watch's. -/
theorem eraseOrganization_aside (s : Store) (organizationId : JsString) (request : AdminRequest) :
    Aside takes s (eraseOrganization s organizationId request).1 := by
  refine LeavesSessions.transact ?_
  cases s.db.organization organizationId with
  | none => exact .error _
  | some organization =>
      intro db happened a h
      obtain ⟨db₁, hchains, h⟩ := bind_eq_ok.mp h
      obtain ⟨db₂, hrow, h⟩ := bind_eq_ok.mp h
      obtain ⟨rfl, htail⟩ := Prod.mk.inj (Except.ok.inj h)
      obtain ⟨rfl, -⟩ := Prod.mk.inj htail
      have hgone := connections_eraseChains hchains
      rw [Database.deleteOrganizationRow] at hrow
      split at hrow
      · cases hrow
      · obtain rfl := Except.ok.inj hrow
        exact aside_of_deleted hgone

-- ── Every operation ──────────────────────────────────────────────────────────────

/-- An operation that is not the watch's. -/
def Operation.IsOther : Operation → Prop
  | .recordConnection .. => False
  | _ => True

/-- What the signer shows while an operation runs. -/
def Operation.views : Operation → List SignerView
  | .createSystem _ _ _ replies => [replies.view]
  | .append _ _ _ replies => [replies.view]
  | .appendBatch _ events => events.map fun e => e.2.2.view
  | .recordConnection _ _ event => (event.map fun e => e.2.2.view).toList
  | .reconcileWithSigner systems => systems.map fun e => e.2
  | .createCheckpoint _ view _ => [view]
  | _ => []

/-- **Whatever else the store is asked leaves the watch's sessions and receipts aside**, and takes nothing
    back that the signer does not bring. -/
theorem perform_aside (s : Store) {op : Operation} (hop : op.IsOther) :
    Aside (fun r => ∃ view ∈ op.views, view.Brings c s r) s (perform c u key s op) := by
  have hone : ∀ {view : SignerView}, op.views = [view] → ∀ r, view.Brings c s r →
      ∃ view ∈ op.views, view.Brings c s r := by
    intro view hviews r hr
    exact ⟨view, by rw [hviews]; exact List.mem_singleton_self _, hr⟩
  cases op with
  | createSystem systemId ts organizationId replies => exact createSystem_aside s systemId ts _ (hone rfl)
  | append seen event checked replies => exact append_aside s seen event checked (hone rfl)
  | appendBatch seen events =>
      exact appendBatch_aside s seen fun e he r hr => ⟨_, List.mem_map_of_mem he, hr⟩
  | recordConnection seen row event => exact hop.elim
  | reconcileWithSigner systems =>
      exact reconcileWithSigner_aside (u := u) s fun e he r hr => ⟨_, List.mem_map_of_mem he, hr⟩
  | createCheckpoint systemId view reply => exact createCheckpoint_aside s systemId (hone rfl) reply
  | recordTimestamp row => exact recordTimestamp_aside s row
  | createOrganization organizationId name request approved =>
      exact createOrganization_aside s organizationId name request approved
  | registerOrganization uid email name draws request =>
      exact registerOrganization_aside s uid email name draws request
  | approveOrganization organizationId request => exact approveOrganization_aside s organizationId request
  | rejectOrganization organizationId request => exact rejectOrganization_aside s organizationId request
  | deleteOrganization organization request => exact deleteOrganization_aside s organization request
  | assignSystem systemId organizationId request => exact assignSystem_aside s systemId organizationId request
  | createTransfer systemId secret request => exact createTransfer_aside s systemId secret request
  | revokeTransfers systemId request => exact revokeTransfers_aside s systemId request
  | acceptTransfer secret organizationId request => exact acceptTransfer_aside s secret organizationId request
  | renameSystem systemId displayName request => exact renameSystem_aside s systemId displayName request
  | archiveSystem systemId request => exact archiveSystem_aside s systemId request
  | unarchiveSystem systemId request => exact unarchiveSystem_aside s systemId request
  | deleteEmptySystem systemId request => exact deleteEmptySystem_aside s systemId request
  | eraseOperatorSystem systemId request => exact eraseOperatorSystem_aside s systemId request
  | eraseOrganization organizationId request => exact eraseOrganization_aside s organizationId request
  | eraseSubject token request => exact eraseSubject_aside s token request
  | eraseOpenings systemId seqs request => exact eraseOpenings_aside s systemId seqs request
  | reopen => exact .of_kept rfl rfl

end Sigillo
