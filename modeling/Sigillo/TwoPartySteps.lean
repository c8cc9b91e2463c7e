import Sigillo.TwoParties

/-!
# Steps of the two

Whatever the server or the signer does is a path of few kinds of step (**`run_path`**): an attempt to
write, a comparison, a checkpoint, a change of the store alone, a copy put back, something at the
signer.  What the steps of the store keep, every database and copy has (**`TwoParties.keeps`**). -/

namespace Sigillo

open DoubleArith Utf16Text JsonText JsonSchema HexBase64 IsoTime FileVolume AssocList Fallible Relation

variable {c : Crypto} {u : Unicode} {key : WriterKey} {options : SignerOptions} {ids : Set SystemId}

-- ── What an attempt may be made of ───────────────────────────────────────────────

/-- What is written beside a receipt touches no chain and no checkpoint. -/
def KeepsChains (alongside : Database → Except StoreError Database) : Prop :=
  ∀ db db', alongside db = .ok db' → Beside db db' ∧ db'.checkpoints = db.checkpoints

theorem keepsChains_ok : KeepsChains .ok := by
  intro db db' h
  rw [← Except.ok.inj h]
  exact ⟨.refl, rfl⟩

theorem keepsChains_saveConnection (row : ConnectionRow) : KeepsChains fun db => .ok (saveConnection row db) := by
  intro db db' h
  obtain rfl := Except.ok.inj h
  refine ⟨beside_saveConnection row db, ?_⟩
  rw [saveConnection]
  dsimp only
  split
  · rfl
  · rfl

theorem KeepsChains.beside {alongside : Database → Except StoreError Database} (h : KeepsChains alongside) :
    WritesBeside alongside := fun db db' hdb => (h db db' hdb).1

/-- A chain is opened by an event that names its system. -/
def OpensByName (event : ChainEvent) (mode : WriteMode) : Prop :=
  ∀ organizationId, mode = .genesis organizationId → event.action.name = event.systemId.1

theorem opensByName_continuation (event : ChainEvent) : OpensByName event .continuation := by
  rintro o ⟨⟩

/-- **An event that may be put to a chain of a store**: a chain is opened by name, where none of it was
    deleted. -/
structure Presentable (ids : Set SystemId) (s : Store) (event : ChainEvent) (mode : WriteMode) : Prop where
  names : isWellFormed event.systemId.1 = true → event.systemId ∈ ids
  byName : OpensByName event mode
  opensNew : OpensNew s event mode

theorem presentable_continuation {s : Store} {event : ChainEvent}
    (hids : isWellFormed event.systemId.1 = true → event.systemId ∈ ids) :
    Presentable ids s event .continuation :=
  ⟨hids, opensByName_continuation event, opensNew_continuation s event⟩

namespace TwoParties

-- ── Steps ────────────────────────────────────────────────────────────────────────

/-- **One step of the two.** -/
inductive Step (c : Crypto) (u : Unicode) (key : WriterKey) (options : SignerOptions) (ids : Set SystemId)
    (w : TwoParties) : TwoParties → Prop
  | attempt (event : ChainEvent) (mode : WriteMode) (alongside : Database → Except StoreError Database) (t : Try)
      (presentable : Presentable ids w.store event mode) (keeps : KeepsChains alongside) :
      Step c u key options ids w (w.attempt c u key options event mode alongside t).1
  | compare (systemId : SystemId) (x : Viewing) : Step c u key options ids w (w.compare c key options systemId x).1
  | createCheckpoint (systemId : SystemId) (x : Viewing) (between : List SignerEvent) (now : Timestamp) (comes : Bool) :
      Step c u key options ids w (w.createCheckpoint c key options systemId x between now comes).1
  | saveConnection (row : ConnectionRow) :
      Step c u key options ids w (w.committed { w.store with db := saveConnection row w.store.db } w.signer)
  | other (op : Operation) (alone : op.asksSigner = false) :
      Step c u key options ids w (w.committed (perform c u key w.store op) w.signer)
  | restore (copy : Store) (taken : copy ∈ w.copies) :
      Step c u key options ids w (w.committed { copy with divergences := [] } w.signer)
  | signer (event : SignerEvent) : Step c u key options ids w { w with signer := w.signer.after c options event }

/-- **A path of the two**: one step after the other. -/
def Path (c : Crypto) (u : Unicode) (key : WriterKey) (options : SignerOptions) (ids : Set SystemId) :
    TwoParties → TwoParties → Prop :=
  ReflTransGen (Step c u key options ids)

variable {w : TwoParties} {event : ChainEvent}

theorem Path.refl (w : TwoParties) : Path c u key options ids w w := ReflTransGen.refl

theorem Path.trans {w' w'' : TwoParties} (h : Path c u key options ids w w')
    (h' : Path c u key options ids w' w'') : Path c u key options ids w w'' := ReflTransGen.trans h h'

theorem Step.path {w' : TwoParties} (h : Step c u key options ids w w') : Path c u key options ids w w' :=
  ReflTransGen.single h

-- ── What is done is a path ───────────────────────────────────────────────────────

/-- An attempt that failed changed nothing. -/
theorem store_attempt_of_error {mode : WriteMode} {alongside : Database → Except StoreError Database} {t : Try}
    {w' : TwoParties} {e : StoreError}
    (h : w.attempt c u key options event mode alongside t = (w', .error e)) : w'.store = w.store := by
  rw [TwoParties.attempt] at h
  obtain ⟨rfl, herror⟩ := Prod.mk.inj h
  exact (attemptReceipt_error (Prod.ext rfl herror)).1

theorem write_path {mode : WriteMode} (hpresentable : Presentable ids w.store event mode)
    {alongside : Database → Except StoreError Database} (hkeeps : KeepsChains alongside) (plan : WritePlan) :
    Path c u key options ids w (w.write c u key options event mode alongside plan).1 := by
  have hfirst : Path c u key options ids w (w.attempt c u key options event mode alongside plan.first).1 :=
    (Step.attempt event mode alongside plan.first hpresentable hkeeps).path
  rw [TwoParties.write]
  split
  · rename_i w₁ message heq
    rw [heq] at hfirst
    have hsecond := hfirst.trans (Step.compare event.systemId plan.comparison).path
    have hsame := store_attempt_of_error heq
    -- a comparison deletes nothing, so the chain may still be opened
    have hstill : Presentable ids (w₁.compare c key options event.systemId plan.comparison).1.store event mode :=
      { hpresentable with
        opensNew := fun o ho => deletionOf_reconcileNow (hsame ▸ hpresentable.opensNew o ho) }
    split
    · rename_i w₂ e hcompared
      rwa [hcompared] at hsecond
    · rename_i w₂ seq hash count hcompared
      rw [hcompared] at hsecond hstill
      exact hsecond.trans (Step.attempt event mode alongside plan.again hstill hkeeps).path
    · rename_i w₂ detail hcompared
      rwa [hcompared] at hsecond
    · rename_i w₂ hcompared
      rwa [hcompared] at hsecond
  · exact hfirst

theorem writeBatch_path {events : List (ChainEvent × WritePlan)}
    (hids : ∀ e ∈ events, isWellFormed e.1.systemId.1 = true → e.1.systemId ∈ ids) :
    Path c u key options ids w (w.writeBatch c u key options events).1 := by
  induction events generalizing w with
  | nil => exact .refl w
  | cons e rest ih =>
      obtain ⟨event, plan⟩ := e
      have hfirst : Path c u key options ids w (w.write c u key options event .continuation .ok plan).1 :=
        write_path (presentable_continuation (hids _ List.mem_cons_self)) keepsChains_ok plan
      rw [TwoParties.writeBatch]
      split
      · rename_i w₁ e heq
        rwa [heq] at hfirst
      · rename_i w₁ receipt heq
        rw [heq] at hfirst
        have hrest := hfirst.trans (ih fun e he => hids e (List.mem_cons_of_mem _ he))
        split
        · rename_i w₂ e hlater
          rwa [hlater] at hrest
        · rename_i w₂ receipts hlater
          rwa [hlater] at hrest

theorem reconcileWithSigner_path (systems : List (SystemId × Viewing)) :
    Path c u key options ids w (w.reconcileWithSigner c key options systems).1 := by
  induction systems generalizing w with
  | nil => exact .refl w
  | cons system rest ih =>
      obtain ⟨systemId, x⟩ := system
      have hfirst : Path c u key options ids w (w.compare c key options systemId x).1 :=
        (Step.compare systemId x).path
      rw [TwoParties.reconcileWithSigner]
      split
      · rename_i w₁ e heq
        rwa [heq] at hfirst
      · rename_i w₁ outcome heq
        rw [heq] at hfirst
        have hrest := hfirst.trans (ih (w := w₁))
        split
        · rename_i w₂ e hlater
          rwa [hlater] at hrest
        · rename_i w₂ outcomes hlater
          rwa [hlater] at hrest

theorem createSystem_path {systemId : SystemId} (hids : isWellFormed systemId.1 = true → systemId ∈ ids)
    (ts : Timestamp) (organizationId : Option JsString) (plan : WritePlan) :
    Path c u key options ids w (w.createSystem c u key options systemId ts organizationId plan).1 := by
  rw [TwoParties.createSystem]
  split
  · exact .refl w
  · split
    · exact .refl w
    · rename_i hnew
      exact write_path ⟨hids, fun _ _ => rfl, fun _ _ => hnew⟩ keepsChains_ok plan

theorem append_path (seen : List SubjectRow) (hids : isWellFormed event.systemId.1 = true → event.systemId ∈ ids)
    (checked : Randomness) (plan : WritePlan) :
    Path c u key options ids w (w.append c u key options seen event checked plan).1 := by
  rw [TwoParties.append]
  split
  · exact .refl w
  · exact write_path (presentable_continuation hids) keepsChains_ok plan

theorem appendBatch_path (seen : List SubjectRow) {events : List (ChainEvent × Randomness × WritePlan)}
    (hids : ∀ e ∈ events, isWellFormed e.1.systemId.1 = true → e.1.systemId ∈ ids) :
    Path c u key options ids w (w.appendBatch c u key options seen events).1 := by
  rw [TwoParties.appendBatch]
  split
  · exact .refl w
  · refine writeBatch_path fun e he => ?_
    obtain ⟨first, hfirst, rfl⟩ := List.mem_map.mp he
    exact hids first hfirst

theorem recordConnection_path (seen : List SubjectRow) (row : ConnectionRow)
    {event : Option (ChainEvent × Randomness × WritePlan)}
    (hids : ∀ e ∈ event, isWellFormed e.1.systemId.1 = true → e.1.systemId ∈ ids) :
    Path c u key options ids w (w.recordConnection c u key options seen row event).1 := by
  cases event with
  | none => exact (Step.saveConnection row).path
  | some event =>
      obtain ⟨event, checked, plan⟩ := event
      have hwrite : Path c u key options ids w
          (w.write c u key options event .continuation (fun db => .ok (saveConnection row db)) plan).1 :=
        write_path (presentable_continuation (hids _ rfl)) (keepsChains_saveConnection row) plan
      rw [TwoParties.recordConnection]
      split
      · exact .refl w
      · split
        · exact .refl w
        · split
          · rename_i w₁ e heq
            rwa [heq] at hwrite
          · rename_i w₁ receipt heq
            rwa [heq] at hwrite

/-- **Every act is a path.** -/
theorem act_path (a : Act) (hids : ∀ s ∈ a.names, isWellFormed s.1 = true → s ∈ ids) :
    Path c u key options ids w (w.act c u key options a) := by
  cases a with
  | signer event => exact (Step.signer event).path
  | createSystem systemId ts organizationId plan =>
      exact createSystem_path (hids systemId (List.mem_singleton_self _)) ts organizationId plan
  | append seen event checked plan =>
      exact append_path seen (hids event.systemId (List.mem_singleton_self _)) checked plan
  | appendBatch seen events => exact appendBatch_path seen fun e he => hids _ (List.mem_map_of_mem he)
  | recordConnection seen row event =>
      refine recordConnection_path seen row fun e he => ?_
      obtain rfl : event = some e := he
      exact hids _ (List.mem_singleton_self _)
  | reconcileWithSigner systems => exact reconcileWithSigner_path systems
  | createCheckpoint systemId x between now comes =>
      exact (Step.createCheckpoint systemId x between now comes).path
  | other op =>
      rw [TwoParties.act]
      split
      · exact .refl w
      · rename_i hasks
        exact (Step.other op (eq_false_of_ne_true hasks)).path
  | restore index =>
      rw [TwoParties.act]
      split
      · exact .refl w
      · rename_i copy hcopy
        exact (Step.restore copy (List.mem_of_getElem? hcopy)).path

/-- **So is a run.** -/
theorem run_path {acts : List Act} (hids : ∀ a ∈ acts, ∀ s ∈ a.names, isWellFormed s.1 = true → s ∈ ids) :
    Path c u key options ids w (w.run c u key options acts) := by
  induction acts generalizing w with
  | nil => exact .refl w
  | cons a rest ih =>
      exact (act_path a (hids a List.mem_cons_self)).trans (ih fun b hb => hids b (List.mem_cons_of_mem _ hb))

theorem run_append (w : TwoParties) (before after : List Act) :
    w.run c u key options (before ++ after) = (w.run c u key options before).run c u key options after :=
  List.foldl_append

-- ── What every commit keeps ──────────────────────────────────────────────────────

/-- **What a step does to the store**: commits that delete nothing, an operation that asks the signer for
    nothing, or a copy put back. -/
inductive Step.Stores (c : Crypto) (u : Unicode) (key : WriterKey) (w : TwoParties) : Store → Prop
  | commits {s : Store} (h : Commits c u key Kind.IsOrdinary w.store s) : Stores c u key w s
  | other {op : Operation} (h : op.asksSigner = false) : Stores c u key w (perform c u key w.store op)
  | restored {copy : Store} (h : copy ∈ w.copies) : Stores c u key w { copy with divergences := [] }

theorem Step.store {w' : TwoParties} (h : Step c u key options ids w w') :
    w'.store = w.store ∧ w'.copies = w.copies ∨ w'.copies = w.copies ++ [w.store] ∧ Step.Stores c u key w w'.store := by
  cases h with
  | attempt event mode alongside t presentable keeps =>
      exact .inr ⟨rfl, .commits (attemptReceipt_commits presentable.opensNew keeps.beside _)⟩
  | compare systemId x => exact .inr ⟨rfl, .commits (reconcileNow_commits _ _ _)⟩
  | createCheckpoint systemId x between now comes =>
      exact .inr ⟨rfl, .commits (createCheckpoint_commits _ _ _ _)⟩
  | saveConnection row =>
      exact .inr ⟨rfl, .commits (.single (.inr (.inr rfl)) (.beside (beside_saveConnection row w.store.db)))⟩
  | other op alone => exact .inr ⟨rfl, .other alone⟩
  | restore copy taken => exact .inr ⟨rfl, .restored taken⟩
  | signer event => exact .inl ⟨rfl, rfl⟩

/-- **What these keep**, the database has, and so has every copy of it. -/
theorem keeps {P : Database → Prop}
    (hcommit : ∀ (s s' : Store) (k : Kind), k.IsOrdinary → Commit c u key s k s' → P s.db → P s'.db)
    (hother : ∀ (s : Store) (op : Operation), op.asksSigner = false → P s.db → P (perform c u key s op).db)
    (hfresh : P (Store.fresh key).db) (acts : List Act) :
    ∀ s ∈ ((start key).run c u key options acts).store :: ((start key).run c u key options acts).copies, P s.db := by
  have hcommits : ∀ {s s' : Store}, Commits c u key Kind.IsOrdinary s s' → P s.db → P s'.db := by
    intro s s' h hs
    induction h with
    | refl => exact hs
    | tail _ hlast ih =>
        obtain ⟨k, hk, hlast⟩ := hlast
        exact hcommit _ _ k hk hlast ih
  have hpath : Path c u key options Set.univ (start key) ((start key).run c u key options acts) :=
    run_path fun _ _ _ _ _ => Set.mem_univ _
  generalize (start key).run c u key options acts = w at hpath
  induction hpath with
  | refl => exact fun s hs => List.mem_singleton.mp hs ▸ hfresh
  | @tail w w' _ hstep ih =>
      have hold := ih w.store List.mem_cons_self
      rcases Step.store hstep with ⟨hstore, hcopies⟩ | ⟨hcopies, hstore⟩
      · rw [hstore, hcopies]
        exact ih
      · have hnew : P w'.store.db := by
          generalize w'.store = s at hstore
          cases hstore with
          | commits h => exact hcommits h hold
          | other h => exact hother _ _ h hold
          | @restored copy h => exact ih copy (List.mem_cons_of_mem _ h)
        intro s hs
        rw [hcopies] at hs
        rcases List.mem_cons.mp hs with rfl | hs
        · exact hnew
        · rcases List.mem_append.mp hs with hs | hs
          · exact ih s (List.mem_cons_of_mem _ hs)
          · rw [List.mem_singleton.mp hs]
            exact hold

end TwoParties

end Sigillo
