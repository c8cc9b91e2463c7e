import Sigillo.InitFromDatabase

/-!
# The command again, after a crash

A run that was cut short has put some of the states it had to put. The next run passes over these,
as the signer knows them, and plans the rest (**`prepare_interrupted`**). So the states end the same
(**`again_systems`**); but what was put before is neither logged nor counted in the marker, and the
outcome is that of one run only where nothing had been put (**`initFromDatabase_again_iff`**). -/

namespace Sigillo

open DoubleArith Utf16Text JsonText HexBase64 Fallible

namespace InitFromDatabase

variable {c : Crypto} {db : ServerDatabase} {state : Systems}

-- ── Lists and states ─────────────────────────────────────────────────────────────

/-- What is left of a list without the keys of its first part is its second part. -/
theorem filter_keys_take {α κ : Type} [BEq κ] [LawfulBEq κ] {key : α → κ} {l : List α} (h : (l.map key).Nodup)
    (n : ℕ) : l.filter (fun x => decide (key x ∉ (l.take n).map key)) = l.drop n := by
  have hall : (l.take n).filter (fun x => decide (key x ∉ (l.take n).map key)) = [] := by
    rw [List.filter_eq_nil_iff]
    intro x hx hnot
    exact of_decide_eq_true hnot (List.mem_map_of_mem hx)
  have hsplit : (((l.take n) ++ (l.drop n)).map key).Nodup := by rwa [List.take_append_drop]
  rw [List.map_append, List.nodup_append] at hsplit
  have hrest : (l.drop n).filter (fun x => decide (key x ∉ (l.take n).map key)) = l.drop n := by
    rw [List.filter_eq_self]
    intro x hx
    refine decide_eq_true fun hmem => ?_
    exact hsplit.2.2 _ hmem _ (List.mem_map_of_mem hx) rfl
  calc l.filter (fun x => decide (key x ∉ (l.take n).map key))
      = (l.take n ++ l.drop n).filter (fun x => decide (key x ∉ (l.take n).map key)) := by
        rw [List.take_append_drop]
    _ = l.drop n := by rw [List.filter_append, hall, hrest, List.nil_append]

theorem foldl_set_of_not_mem {states : List SystemState} {systemId : SystemId}
    (h : systemId ∉ states.map SystemState.systemId) : states.foldl Systems.set state systemId = state systemId := by
  induction states generalizing state with
  | nil => rfl
  | cons s rest ih =>
      rw [List.map_cons, List.mem_cons, not_or] at h
      rw [List.foldl_cons, ih h.2, Systems.set, if_neg h.1]

theorem foldl_set_of_mem {states : List SystemState} (hnd : (states.map SystemState.systemId).Nodup)
    {s : SystemState} (h : s ∈ states) : states.foldl Systems.set state s.systemId = some s := by
  induction states generalizing state with
  | nil => cases h
  | cons first rest ih =>
      rw [List.map_cons, List.nodup_cons] at hnd
      rw [List.foldl_cons]
      rcases List.mem_cons.mp h with rfl | h
      · rw [foldl_set_of_not_mem hnd.1, Systems.set, if_pos rfl]
      · exact ih hnd.2 h

-- ── What is planned ──────────────────────────────────────────────────────────────

theorem chainFrom_systemId {systemId : SystemId} {index : ℕ} {previous : Hex 64} {frontier : MerkleFrontier}
    {head : Option Receipt} {rows : List StoredRow} {chain : ChainState}
    (h : chainFrom c db systemId index previous frontier head rows = .ok chain) : chain.systemId = systemId := by
  induction rows generalizing index previous frontier head with
  | nil =>
      cases head with
      | none =>
          rw [chainFrom.eq_def] at h
          cases h
      | some head =>
          rw [chainFrom.eq_def] at h
          rw [← Except.ok.inj h]
  | cons row rest ih =>
      rw [chainFrom] at h
      obtain ⟨receipt, -, h⟩ := bind_eq_ok.mp h
      cases happend : frontierAppend c frontier (receiptHash c receipt.toUnsignedReceipt) with
      | none =>
          rw [happend] at h
          cases h
      | some next =>
          rw [happend] at h
          exact ih h

theorem chainStateOf_systemId {systemId : SystemId} {chain : ChainState}
    (h : chainStateOf c db systemId = .ok chain) : chain.systemId = systemId := by
  rw [chainStateOf] at h
  cases hfrom : chainFrom c db systemId 0 GENESIS_PREV_HASH MerkleTree.emptyFrontier none (db.receipts systemId) with
  | error e =>
      rw [hfrom] at h
      cases h
  | ok state =>
      rw [hfrom] at h
      obtain rfl := Except.ok.inj h
      exact chainFrom_systemId hfrom

/-- The two ways a system is planned: its chain is taken over, or the signer knows it. -/
theorem planChains_cons {systemId : SystemId} {rest : List SystemId} {found : List ChainState × List SystemId} :
    planChains c db state (systemId :: rest) = .ok found ↔
      ∃ chain, chainStateOf c db systemId = .ok chain ∧ ∃ others, planChains c db state rest = .ok others ∧
        ((state systemId = none ∧ found = (chain :: others.1, others.2)) ∨
          ∃ known, state systemId = some known ∧ agrees known chain = true
            ∧ found = (others.1, systemId :: others.2)) := by
  rw [planChains]
  constructor
  · intro h
    obtain ⟨chain, hchain, h⟩ := bind_eq_ok.mp h
    refine ⟨chain, hchain, ?_⟩
    cases hstate : state systemId with
    | none =>
        rw [hstate] at h
        obtain ⟨others, hothers, hfound⟩ := map_eq_ok.mp h
        exact ⟨others, hothers, .inl ⟨rfl, hfound.symm⟩⟩
    | some known =>
        rw [hstate] at h
        by_cases hagrees : agrees known chain = true
        · obtain ⟨others, hothers, hfound⟩ := map_eq_ok.mp ((if_pos hagrees).symm.trans h)
          exact ⟨others, hothers, .inr ⟨known, rfl, hagrees, hfound.symm⟩⟩
        · cases (if_neg hagrees).symm.trans h
  · rintro ⟨chain, hchain, others, hothers, h⟩
    rw [hchain, ok_bind]
    rcases h with ⟨hstate, rfl⟩ | ⟨known, hstate, hagrees, rfl⟩
    · rw [hstate, hothers]
      rfl
    · rw [hstate]
      show (if agrees known chain = true then _ else _) = _
      rw [if_pos hagrees, hothers]
      rfl

/-- The chains taken over are of systems the signer does not know, each once. -/
theorem planChains_spec {ids : List SystemId} {found : List ChainState × List SystemId}
    (h : planChains c db state ids = .ok found) :
    (found.1.map ChainState.systemId).Sublist ids ∧ ∀ chain ∈ found.1, state chain.systemId = none := by
  induction ids generalizing found with
  | nil =>
      obtain rfl := Except.ok.inj h
      exact ⟨List.Sublist.refl _, fun _ hchain => nomatch hchain⟩
  | cons id rest ih =>
      obtain ⟨chain, hchain, others, hothers, h⟩ := planChains_cons.mp h
      obtain ⟨hsub, hnone⟩ := ih hothers
      have hid := chainStateOf_systemId hchain
      rcases h with ⟨hstate, rfl⟩ | ⟨known, hstate, hagrees, rfl⟩
      · refine ⟨?_, fun other hother => ?_⟩
        · rw [List.map_cons, hid]
          exact hsub.cons_cons id
        · rcases List.mem_cons.mp hother with rfl | hother
          · rwa [hid]
          · exact hnone other hother
      · exact ⟨hsub.cons id, hnone⟩

/-- **A second look passes over the chains that have been put**, and finds the others again. -/
theorem planChains_after {ids : List SystemId} (hnd : ids.Nodup) {found : List ChainState × List SystemId}
    (h : planChains c db state ids = .ok found) {after : Systems} {put : List SystemId}
    (hput : ∀ chain ∈ found.1, after chain.systemId = if chain.systemId ∈ put then some (.chain chain) else none)
    (hkept : ∀ id ∈ ids, id ∉ found.1.map ChainState.systemId → after id = state id) :
    ∃ unchanged, planChains c db after ids
      = .ok (found.1.filter fun chain => decide (chain.systemId ∉ put), unchanged) := by
  induction ids generalizing found with
  | nil =>
      obtain rfl := Except.ok.inj h
      exact ⟨[], rfl⟩
  | cons id rest ih =>
      obtain ⟨hnot, hrest⟩ := List.nodup_cons.mp hnd
      obtain ⟨chain, hchain, others, hothers, h⟩ := planChains_cons.mp h
      have hid := chainStateOf_systemId hchain
      have hsub := (planChains_spec hothers).1
      rcases h with ⟨hstate, rfl⟩ | ⟨known, hstate, hagrees, rfl⟩
      · obtain ⟨unchanged, hagain⟩ := ih hrest hothers
          (fun other hother => hput other (List.mem_cons_of_mem _ hother)) fun other hother hmem => by
            refine hkept other (List.mem_cons_of_mem _ hother) ?_
            rw [List.map_cons, List.mem_cons, not_or]
            refine ⟨?_, hmem⟩
            rintro rfl
            exact hnot (hid ▸ hother)
        have hafter := hput chain (List.mem_cons_self ..)
        by_cases hmem : chain.systemId ∈ put
        · refine ⟨id :: unchanged, planChains_cons.mpr ⟨chain, hchain, _, hagain, .inr ⟨.chain chain, ?_, ?_, ?_⟩⟩⟩
          · rw [← hid, hafter, if_pos hmem]
          · rw [agrees, beq_self_eq_true, beq_self_eq_true]
            rfl
          · rw [List.filter_cons_of_neg (by simpa using hmem)]
        · refine ⟨unchanged, planChains_cons.mpr ⟨chain, hchain, _, hagain, .inl ⟨?_, ?_⟩⟩⟩
          · rw [← hid, hafter, if_neg hmem]
          · rw [List.filter_cons_of_pos (by simpa using hmem)]
      · obtain ⟨unchanged, hagain⟩ := ih hrest hothers hput fun other hother hmem =>
          hkept other (List.mem_cons_of_mem _ hother) hmem
        have hafter := hkept id (List.mem_cons_self ..) fun hmem => hnot (hsub.subset hmem)
        exact ⟨id :: unchanged, planChains_cons.mpr ⟨chain, hchain, _, hagain,
          .inr ⟨known, hafter.trans hstate, hagrees, rfl⟩⟩⟩

/-- The systems to retire are none of the database's, unknown to the signer, each once. -/
theorem planRetired_spec {dels found : List RetiredSystem}
    (h : (found.map RetiredSystem.systemId).Nodup ∧ ∀ r ∈ found, r.systemId ∉ db.systemIds ∧ state r.systemId = none) :
    ((planRetired db state found dels).map RetiredSystem.systemId).Nodup
      ∧ ∀ r ∈ planRetired db state found dels, r.systemId ∉ db.systemIds ∧ state r.systemId = none := by
  induction dels generalizing found with
  | nil => exact h
  | cons deletion rest ih =>
      rw [planRetired]
      split_ifs with hskip
      · exact ih h
      · obtain ⟨hdb, hstate, hfound⟩ : _ ∧ _ ∧ _ := by simpa only [not_or] using hskip
        refine ih ⟨?_, fun r hr => ?_⟩
        · rw [List.map_append, List.nodup_append]
          refine ⟨h.1, List.nodup_singleton _, ?_⟩
          rintro a ha b hb rfl
          exact hfound (List.mem_singleton.mp hb ▸ ha)
        · rcases List.mem_append.mp hr with hr | hr
          · exact h.2 r hr
          · obtain rfl := List.mem_singleton.mp hr
            exact ⟨hdb, by simpa using hstate⟩

/-- **A second look passes over the systems that have been retired**, and finds the others again. -/
theorem planRetired_after {dels found : List RetiredSystem} {after : Systems} {put : List SystemId}
    (hafter : ∀ id, id ∉ db.systemIds → ((after id).isSome ↔ (state id).isSome ∨ id ∈ put)) :
    planRetired db after (found.filter fun r => decide (r.systemId ∉ put)) dels
      = (planRetired db state found dels).filter fun r => decide (r.systemId ∉ put) := by
  induction dels generalizing found with
  | nil => rfl
  | cons deletion rest ih =>
      have hfound : deletion.systemId ∈ (found.filter fun r => decide (r.systemId ∉ put)).map RetiredSystem.systemId ↔
          deletion.systemId ∈ found.map RetiredSystem.systemId ∧ deletion.systemId ∉ put := by
        simp only [List.mem_map, List.mem_filter, decide_eq_true_eq]
        constructor
        · rintro ⟨r, ⟨hr, hput⟩, hid⟩
          exact ⟨⟨r, hr, hid⟩, hid ▸ hput⟩
        · rintro ⟨⟨r, hr, hid⟩, hput⟩
          exact ⟨r, ⟨hr, hid ▸ hput⟩, hid⟩
      have hskipped : (deletion.systemId ∈ db.systemIds ∨ (after deletion.systemId).isSome
          ∨ deletion.systemId ∈ (found.filter fun r => decide (r.systemId ∉ put)).map RetiredSystem.systemId) ↔
          (deletion.systemId ∈ db.systemIds ∨ (state deletion.systemId).isSome
            ∨ deletion.systemId ∈ found.map RetiredSystem.systemId) ∨ deletion.systemId ∉ db.systemIds
            ∧ deletion.systemId ∈ put := by
        by_cases hdb : deletion.systemId ∈ db.systemIds
        · exact ⟨fun _ => .inl (.inl hdb), fun _ => .inl hdb⟩
        · rw [hfound, hafter _ hdb]
          tauto
      rw [planRetired, planRetired]
      by_cases hskip : deletion.systemId ∈ db.systemIds ∨ (state deletion.systemId).isSome
          ∨ deletion.systemId ∈ found.map RetiredSystem.systemId
      · rw [if_pos (hskipped.mpr (.inl hskip)), if_pos hskip, ih]
      · rw [if_neg hskip]
        by_cases hput : deletion.systemId ∈ put
        · have hdb : deletion.systemId ∉ db.systemIds := fun hdb => hskip (.inl hdb)
          rw [if_pos (hskipped.mpr (.inr ⟨hdb, hput⟩)), ← ih, List.filter_append,
            List.filter_cons_of_neg (by simpa using hput), List.filter_nil, List.append_nil]
        · rw [if_neg fun h => (hskipped.mp h).elim hskip fun h => hput h.2, ← ih, List.filter_append,
            List.filter_cons_of_pos (by simpa using hput), List.filter_nil]

-- ── The log is not read for chains ───────────────────────────────────────────────

theorem chainFrom_logged (entries : List LogEntry) (systemId : SystemId) (rows : List StoredRow) (index : ℕ)
    (previous : Hex 64) (frontier : MerkleFrontier) (head : Option Receipt) :
    chainFrom c (db.logged entries) systemId index previous frontier head rows
      = chainFrom c db systemId index previous frontier head rows := by
  induction rows generalizing index previous frontier head with
  | nil =>
      rw [chainFrom.eq_def, chainFrom.eq_def]
  | cons row rest ih =>
      rw [chainFrom, chainFrom]
      have hcheck : checkRow c (db.logged entries) systemId index previous row
          = checkRow c db systemId index previous row := rfl
      rw [hcheck]
      refine congrArg _ (funext fun receipt => ?_)
      cases frontierAppend c frontier (receiptHash c receipt.toUnsignedReceipt) with
      | none => rfl
      | some next => exact ih ..

theorem chainStateOf_logged (entries : List LogEntry) (systemId : SystemId) :
    chainStateOf c (db.logged entries) systemId = chainStateOf c db systemId := by
  rw [chainStateOf, chainStateOf, chainFrom_logged]
  rfl

theorem planChains_logged (entries : List LogEntry) (ids : List SystemId) :
    planChains c (db.logged entries) state ids = planChains c db state ids := by
  induction ids with
  | nil => rfl
  | cons id rest ih => rw [planChains, planChains, chainStateOf_logged, ih]

theorem planRetired_logged (entries : List LogEntry) (found dels : List RetiredSystem) :
    planRetired (db.logged entries) state found dels = planRetired db state found dels := by
  induction dels generalizing found with
  | nil => rfl
  | cons deletion rest ih =>
      rw [planRetired, planRetired, ih, ih]
      rfl

/-- What a run logs tells of no deletion. -/
theorem deletions_append (options : InitOptions) (entries : List LogEntry) (states : List SystemState) :
    deletions (entries ++ states.map (entryOf options)) = deletions entries := by
  have hnone : deletions (states.map (entryOf options)) = [] := by
    rw [deletions, List.filterMap_eq_nil_iff]
    intro entry hentry
    obtain ⟨s, -, rfl⟩ := List.mem_map.mp hentry
    exact if_neg (by simp [entryOf])
  rw [deletions, List.filterMap_append, ← deletions, ← deletions, hnone, List.append_nil]

-- ── A run cut short ──────────────────────────────────────────────────────────────

/-- What a run has to write when there is no marker yet: the plan of a database with a log. -/
structure Fresh (c : Crypto) (w : InitWorld) (plan : Plan) (db : ServerDatabase) (entries : List LogEntry) :
    Prop where
  marker : w.marker = none
  database : w.database = some db
  log : db.adminLog = some entries
  chains : ∃ unchanged, planChains c db w.systems db.systemIds = .ok (plan.chains, unchanged)
  retired : plan.retired = planRetired db w.systems [] (deletions entries)

theorem exists_fresh {w : InitWorld} {plan : Plan} (hplan : prepare c w = .ok plan) (hmarker : w.marker = none) :
    ∃ db entries, Fresh c w plan db entries := by
  rw [prepare] at hplan
  cases hdb : w.database with
  | none =>
      rw [hdb] at hplan
      cases hplan
  | some db =>
      cases hlog : db.adminLog with
      | none =>
          simp only [hdb, hlog] at hplan
          cases hplan
      | some entries =>
          simp only [hdb, hlog, hmarker] at hplan
          obtain ⟨found, hfound, hplan⟩ := bind_eq_ok.mp hplan
          obtain rfl := Except.ok.inj hplan
          exact ⟨db, entries, ⟨hmarker, hdb, hlog, ⟨found.2, hfound⟩, rfl⟩⟩

variable {w : InitWorld} {plan : Plan} {entries : List LogEntry}

theorem prepare_of_planned (hmarker : w.marker = none) (hdb : w.database = some db)
    (hlog : db.adminLog = some entries) {found : List ChainState × List SystemId}
    (hchains : planChains c db w.systems db.systemIds = .ok found) :
    prepare c w = .ok ⟨found.1, planRetired db w.systems [] (deletions entries), found.2⟩ := by
  simp only [prepare, hdb, hlog, hmarker, hchains]
  rfl

theorem Fresh.retired_spec (h : Fresh c w plan db entries) :
    (plan.retired.map RetiredSystem.systemId).Nodup
      ∧ ∀ r ∈ plan.retired, r.systemId ∉ db.systemIds ∧ w.systems r.systemId = none := by
  rw [h.retired]
  exact planRetired_spec ⟨List.nodup_nil, fun _ hr => nomatch hr⟩

/-- No system is planned twice, and none that the signer knows. -/
theorem Fresh.states (h : Fresh c w plan db entries) :
    (plan.states.map SystemState.systemId).Nodup ∧ ∀ s ∈ plan.states, w.systems s.systemId = none := by
  obtain ⟨unchanged, hchains⟩ := h.chains
  obtain ⟨hsub, hnone⟩ := planChains_spec hchains
  obtain ⟨hnodup, hretired⟩ := h.retired_spec
  have hmap : plan.states.map SystemState.systemId
      = plan.chains.map ChainState.systemId ++ plan.retired.map RetiredSystem.systemId := by
    rw [Plan.states, List.map_append, List.map_map, List.map_map]
    rfl
  refine ⟨?_, fun s hs => ?_⟩
  · rw [hmap, List.nodup_append]
    refine ⟨hsub.nodup db.distinct, hnodup, ?_⟩
    rintro id hid other hother rfl
    obtain ⟨r, hr, rfl⟩ := List.mem_map.mp hother
    exact (hretired r hr).1 (hsub.subset hid)
  · rcases List.mem_append.mp hs with hs | hs
    · obtain ⟨chain, hchain, rfl⟩ := List.mem_map.mp hs
      exact hnone chain hchain
    · obtain ⟨r, hr, rfl⟩ := List.mem_map.mp hs
      exact (hretired r hr).2

theorem foldl_put (states : List SystemState) (w : InitWorld) :
    (states.map Write.put).foldl InitWorld.apply w = { w with systems := states.foldl Systems.set w.systems } := by
  induction states generalizing w with
  | nil => rfl
  | cons s rest ih =>
      rw [List.map_cons, List.foldl_cons, ih]
      rfl

/-- **What a crash leaves**: some states put, and nothing logged before all of them are. -/
theorem interrupted_eq (h : Fresh c w plan db entries) (hplan : prepare c w = .ok plan) (options : InitOptions)
    {done : ℕ} (hdone : done ≤ plan.states.length + 1) :
    interrupted c options w done =
      { systems := (plan.states.take done).foldl Systems.set w.systems
        marker := none
        database := some (if plan.states.length < done then db.logged (plan.states.map (entryOf options)) else db) } := by
  obtain ⟨systems, marker, database⟩ := w
  obtain rfl : marker = none := h.marker
  obtain rfl : database = some db := h.database
  have hlength : (plan.states.map Write.put).length = plan.states.length := List.length_map _
  have hinterrupted : interrupted c options ⟨systems, none, some db⟩ done
      = ((writesOf options plan).take done).foldl InitWorld.apply ⟨systems, none, some db⟩ := by
    rw [interrupted, hplan]
    rfl
  rw [hinterrupted, writesOf, List.take_append, ← List.map_take, List.foldl_append, foldl_put, hlength]
  by_cases hlogged : plan.states.length < done
  · obtain rfl : done = plan.states.length + 1 := by omega
    rw [if_pos hlogged, Nat.add_sub_cancel_left]
    rfl
  · rw [if_neg hlogged, Nat.sub_eq_zero_of_le (by omega)]
    rfl

/-- **The plan of the next run** is what the first had not put. -/
theorem Fresh.again (h : Fresh c w plan db entries) (hplan : prepare c w = .ok plan) (options : InitOptions)
    {done : ℕ} (hdone : done ≤ plan.states.length + 1) :
    ∃ next, prepare c (interrupted c options w done) = .ok next ∧ next.states = plan.states.drop done
      ∧ next.chains.length + next.retired.length = plan.states.length - done
      ∧ (done = 0 → next.chains = plan.chains ∧ next.retired = plan.retired) := by
  obtain ⟨hnodup, hnone⟩ := h.states
  obtain ⟨unchanged, hchains⟩ := h.chains
  let put := (plan.states.take done).map SystemState.systemId
  let after := (plan.states.take done).foldl Systems.set w.systems
  have htaken : ((plan.states.take done).map SystemState.systemId).Nodup :=
    ((List.take_sublist done plan.states).map _).nodup hnodup
  -- a state that is planned is known exactly if it has been put
  have hplanned : ∀ s ∈ plan.states, after s.systemId = if s.systemId ∈ put then some s else none := by
    intro s hs
    by_cases hput : s.systemId ∈ put
    · obtain ⟨t, ht, hid⟩ := List.mem_map.mp hput
      have hts : t = s := List.inj_on_of_nodup_map hnodup (List.mem_of_mem_take ht) hs hid
      rw [if_pos hput, ← hts]
      exact foldl_set_of_mem htaken ht
    · rw [if_neg hput]
      exact (foldl_set_of_not_mem hput).trans (hnone s hs)
  have hothers : ∀ id, id ∉ plan.states.map SystemState.systemId → after id = w.systems id := fun id hid =>
    foldl_set_of_not_mem fun hput => hid (((List.take_sublist done plan.states).map _).subset hput)
  have hmap : plan.states.map SystemState.systemId
      = plan.chains.map ChainState.systemId ++ plan.retired.map RetiredSystem.systemId := by
    rw [Plan.states, List.map_append, List.map_map, List.map_map]
    rfl
  have hretired := h.retired_spec.2
  have hput : ∀ chain ∈ plan.chains,
      after chain.systemId = if chain.systemId ∈ put then some (.chain chain) else none := fun chain hchain =>
    hplanned (.chain chain) (List.mem_append_left _ (List.mem_map_of_mem hchain))
  have hkept : ∀ id ∈ db.systemIds, id ∉ plan.chains.map ChainState.systemId → after id = w.systems id := by
    intro id hid hnot
    refine hothers id fun hmem => ?_
    rw [hmap, List.mem_append] at hmem
    rcases hmem with hmem | hmem
    · exact hnot hmem
    · obtain ⟨r, hr, rfl⟩ := List.mem_map.mp hmem
      exact (hretired r hr).1 hid
  obtain ⟨unchanged', hchains'⟩ := planChains_after db.distinct hchains hput hkept
  have hknown : ∀ id, id ∉ db.systemIds → ((after id).isSome ↔ (w.systems id).isSome ∨ id ∈ put) := by
    intro id _
    by_cases hmem : id ∈ plan.states.map SystemState.systemId
    · obtain ⟨s, hs, rfl⟩ := List.mem_map.mp hmem
      rw [hplanned s hs, hnone s hs]
      by_cases hput : s.systemId ∈ put
      · simp [hput]
      · simp [hput]
    · rw [hothers id hmem]
      have hput : id ∉ put := fun hput => hmem (((List.take_sublist done plan.states).map _).subset hput)
      simp [hput]
  have hretired' : planRetired db after [] (deletions entries)
      = plan.retired.filter fun r => decide (r.systemId ∉ put) := by
    rw [h.retired]
    exact @planRetired_after db w.systems (deletions entries) [] after put hknown
  let next : Plan := ⟨plan.chains.filter fun chain => decide (chain.systemId ∉ put),
    plan.retired.filter fun r => decide (r.systemId ∉ put), unchanged'⟩
  have hprepare : prepare c (interrupted c options w done) = .ok next := by
    rw [interrupted_eq h hplan options hdone]
    by_cases hlogged : plan.states.length < done
    · rw [if_pos hlogged]
      have hagain := (planChains_logged (plan.states.map (entryOf options)) db.systemIds).trans hchains'
      have hlog : (db.logged (plan.states.map (entryOf options))).adminLog
          = some (entries ++ plan.states.map (entryOf options)) := by
        rw [ServerDatabase.logged, h.log]
        rfl
      refine (prepare_of_planned rfl rfl hlog hagain).trans ?_
      rw [planRetired_logged, deletions_append]
      exact congrArg (fun retired => Except.ok (Plan.mk _ retired _)) hretired'
    · rw [if_neg hlogged]
      refine (prepare_of_planned rfl rfl h.log hchains').trans ?_
      exact congrArg (fun retired => Except.ok (Plan.mk _ retired _)) hretired'
  have hfilter : ∀ ids : List SystemId, (plan.states.filter fun s => decide (s.systemId ∉ ids))
      = (plan.chains.filter fun chain => decide (chain.systemId ∉ ids)).map .chain
        ++ (plan.retired.filter fun r => decide (r.systemId ∉ ids)).map .retired := by
    intro ids
    rw [Plan.states, List.filter_append, List.filter_map, List.filter_map]
    rfl
  have hstates : next.states = plan.states.drop done :=
    (hfilter put).symm.trans (filter_keys_take hnodup done)
  refine ⟨next, hprepare, hstates, ?_, fun hzero => ?_⟩
  · have hlength := congrArg List.length hstates
    rw [List.length_drop, Plan.states, List.length_append, List.length_map, List.length_map] at hlength
    exact hlength
  · subst hzero
    exact ⟨List.filter_eq_self.mpr fun chain _ => by simp [put], List.filter_eq_self.mpr fun r _ => by simp [put]⟩

-- ── The outcome ──────────────────────────────────────────────────────────────────

/-- The entries of the administrative log. -/
def InitWorld.adminEntries (w : InitWorld) : List LogEntry := (w.database.bind ServerDatabase.adminLog).getD []

/-- An entry without its time. -/
def LogEntry.untimed (entry : LogEntry) : LogEntry := { entry with ts := [] }

/-- A marker without its time. -/
def Marker.untimed (marker : Marker) : Marker := { marker with ts := [] }

/-- **Two runs come to the same**, whatever the time of each: the signer's state, the entries of the
    administrative log, and the marker. -/
structure SameOutcome (a b : InitWorld) : Prop where
  systems : a.systems = b.systems
  log : ∀ entry, entry ∈ a.adminEntries.map LogEntry.untimed ↔ entry ∈ b.adminEntries.map LogEntry.untimed
  marker : a.marker.map Marker.untimed = b.marker.map Marker.untimed

/-- What a run that is not cut short leaves, once there is a plan. -/
theorem initFromDatabase_eq {options : InitOptions} {found : ServerDatabase} (hplan : prepare c w = .ok plan)
    (hmarker : w.marker = none) (hdb : w.database = some found) :
    initFromDatabase c options w =
      ({ systems := plan.states.foldl Systems.set w.systems
         marker := some ⟨options.ts, options.databasePath, plan.chains.length, plan.retired.length⟩
         database := some (found.logged (plan.states.map (entryOf options))) }, .ok plan) := by
  obtain ⟨systems, marker, database⟩ := w
  obtain rfl : marker = none := hmarker
  obtain rfl : database = some found := hdb
  have hwrites : initFromDatabase c options ⟨systems, none, some found⟩
      = ((writesOf options plan).foldl InitWorld.apply ⟨systems, none, some found⟩, .ok plan) := by
    rw [initFromDatabase, hplan]
    rfl
  rw [hwrites, writesOf, List.foldl_append, foldl_put]
  rfl

/-- **Run again to the end after a crash**, it comes to its end; the states are those of one run; and
    the log and the marker are, only where nothing had been put. -/
theorem Fresh.outcome (h : Fresh c w plan db entries) (hplan : prepare c w = .ok plan) (options : InitOptions)
    (later : JsString) {done : ℕ} (hdone : done ≤ plan.states.length + 1) :
    (∃ report, (initFromDatabase c { options with ts := later } (interrupted c options w done)).2 = .ok report) ∧
    (initFromDatabase c { options with ts := later } (interrupted c options w done)).1.systems
      = (initFromDatabase c options w).1.systems ∧
    (SameOutcome (initFromDatabase c { options with ts := later } (interrupted c options w done)).1
      (initFromDatabase c options w).1 ↔ done = 0 ∨ plan.states = []) := by
  obtain ⟨next, hnext, hstates, hcount, hzero⟩ := h.again hplan options hdone
  have hcrash := interrupted_eq h hplan options hdone
  have honce : initFromDatabase c options w = _ := initFromDatabase_eq hplan h.marker h.database
  have hagain : initFromDatabase c { options with ts := later } (interrupted c options w done) = _ :=
    initFromDatabase_eq hnext (by rw [hcrash]) (by rw [hcrash])
  have hsystems : next.states.foldl Systems.set (interrupted c options w done).systems
      = plan.states.foldl Systems.set w.systems := by
    rw [hcrash, hstates]
    show (plan.states.drop done).foldl Systems.set ((plan.states.take done).foldl Systems.set w.systems) = _
    rw [← List.foldl_append, List.take_append_drop]
  rw [hagain, honce]
  refine ⟨⟨next, rfl⟩, hsystems, fun hsame => ?_, fun hnothing => ?_⟩
  · have hmarker := Option.some.inj hsame.marker
    have hchains : next.chains.length = plan.chains.length := congrArg Marker.systems hmarker
    have hretired : next.retired.length = plan.retired.length := congrArg Marker.retired hmarker
    have hlength : plan.states.length = plan.chains.length + plan.retired.length := by
      rw [Plan.states, List.length_append, List.length_map, List.length_map]
    by_cases hdone : done = 0
    · exact .inl hdone
    · exact .inr (List.length_eq_zero_iff.mp (by omega))
  · have hnone : next.chains = plan.chains ∧ next.retired = plan.retired := by
      rcases hnothing with rfl | hnil
      · exact hzero rfl
      · obtain ⟨hchains, hretired⟩ := List.append_eq_nil_iff.mp hnil
        rw [List.map_eq_nil_iff] at hchains hretired
        rw [hnil, List.length_nil, Nat.zero_sub] at hcount
        obtain ⟨hnextchains, hnextretired⟩ := Nat.add_eq_zero_iff.mp hcount
        rw [List.length_eq_zero_iff] at hnextchains hnextretired
        exact ⟨hnextchains.trans hchains.symm, hnextretired.trans hretired.symm⟩
    have hsame : next.states = plan.states := by rw [Plan.states, Plan.states, hnone.1, hnone.2]
    have huntimed : ∀ s, (entryOf { options with ts := later } s).untimed = (entryOf options s).untimed :=
      fun _ => rfl
    have hlogged : ∀ {found : ServerDatabase} {before more : List LogEntry}, found.adminLog = some before →
        ∀ (systems : Systems) (marker : Option Marker),
          InitWorld.adminEntries ⟨systems, marker, some (found.logged more)⟩ = before ++ more := by
      intro found before more hbefore systems marker
      show ((found.adminLog.map (· ++ more)).getD []) = _
      rw [hbefore]
      rfl
    refine ⟨hsystems, fun entry => ?_, ?_⟩
    · have hempty : plan.states.length < done → plan.states = [] := by
        intro hlt
        rcases hnothing with rfl | hnil
        · exact absurd hlt (Nat.not_lt_zero _)
        · exact hnil
      have hdb : (if plan.states.length < done then db.logged (plan.states.map (entryOf options)) else db).adminLog
          = some entries := by
        split_ifs with hlt
        · rw [hempty hlt, ServerDatabase.logged, h.log]
          exact congrArg some (List.append_nil _)
        · exact h.log
      rw [hlogged hdb, hlogged h.log, hsame, List.map_append, List.map_append, List.map_map, List.map_map]
      exact Iff.rfl
    · show some (Marker.mk [] _ _ _) = some (Marker.mk [] _ _ _)
      rw [hnone.1, hnone.2]

/-- **A crash between the writes**: the next run comes to its end and to the same states, and to the
    same log and marker only where nothing had been put before the crash. **An unsound chain** is
    found before anything is written. -/
theorem initFromDatabase_again_iff (c : Crypto) (options : InitOptions) (later : JsString) (w : InitWorld) :
    (∀ plan done, prepare c w = .ok plan → w.marker = none → done ≤ plan.states.length + 1 →
      (∃ report, (initFromDatabase c { options with ts := later } (interrupted c options w done)).2 = .ok report) ∧
      (initFromDatabase c { options with ts := later } (interrupted c options w done)).1.systems
        = (initFromDatabase c options w).1.systems ∧
      (SameOutcome (initFromDatabase c { options with ts := later } (interrupted c options w done)).1
        (initFromDatabase c options w).1 ↔ done = 0 ∨ plan.states = [])) ∧
    ∀ db, w.database = some db → ∀ systemId ∈ db.systemIds, ¬ SoundChain c db systemId →
      (initFromDatabase c options w).1 = w := by
  constructor
  · intro plan done hplan hmarker hdone
    obtain ⟨db, entries, hfresh⟩ := exists_fresh hplan hmarker
    exact hfresh.outcome hplan options later hdone
  · intro db hdb systemId hid hunsound
    exact initFromDatabase_of_unsound hdb hid hunsound options

/-- A system whose chain is gone. -/
def deletedSystem : RetiredSystem := ⟨⟨js "a", by decide⟩, GENESIS_PREV_HASH⟩

/-- A database that is left with the deletion of its one system. -/
def emptiedDatabase : ServerDatabase where
  signingKeys := []
  systemIds := []
  distinct := List.nodup_nil
  receipts := fun _ => []
  adminLog := some [⟨[], js "system.delete", some deletedSystem.systemId, [], [], some deletedSystem.genesisHash⟩]

/-- A signer with nothing, and a server without the system. -/
def emptiedWorld : InitWorld := ⟨fun _ => none, none, some emptiedDatabase⟩

/-- What the command is given. -/
def someOptions : InitOptions := ⟨js "sigillo.db", js "root", []⟩

theorem prepare_emptiedWorld : prepare toyCrypto emptiedWorld = .ok ⟨[], [deletedSystem], []⟩ := rfl

/-- A system without a receipt. -/
def bareDatabase : ServerDatabase :=
  { emptiedDatabase with systemIds := [deletedSystem.systemId], distinct := List.nodup_singleton _ }

theorem not_soundChain_bare (systemId : SystemId) : ¬ SoundChain toyCrypto bareDatabase systemId := by
  rintro ⟨receipts, hne, hsound⟩
  cases hsound
  exact hne rfl

theorem initFromDatabase_again_emptied :
    (¬ SameOutcome (initFromDatabase toyCrypto { someOptions with ts := [0x31] }
        (interrupted toyCrypto someOptions emptiedWorld 1)).1
      (initFromDatabase toyCrypto someOptions emptiedWorld).1) ∧
    (initFromDatabase toyCrypto someOptions { emptiedWorld with database := some bareDatabase }).1
      = { emptiedWorld with database := some bareDatabase } := by
  constructor
  · have hrun := (initFromDatabase_again_iff toyCrypto someOptions [0x31] emptiedWorld).1 _ 1 prepare_emptiedWorld
      rfl (by decide)
    rw [hrun.2.2]
    rintro (hzero | hnil)
    · cases hzero
    · cases hnil
  · exact (initFromDatabase_again_iff toyCrypto someOptions [0x31] _).2 bareDatabase rfl deletedSystem.systemId
      (List.mem_singleton_self _) (not_soundChain_bare _)

/-- The state of the deleted system is put and the run cut short there: the next one logs nothing of
    it, and its marker counts no system. -/
theorem initFromDatabase_again_unlogged :
    ¬ SameOutcome (initFromDatabase toyCrypto { someOptions with ts := [0x31] }
        (interrupted toyCrypto someOptions emptiedWorld 1)).1
      (initFromDatabase toyCrypto someOptions emptiedWorld).1 := by
  intro hsame
  have hlogged := hsame.log (entryOf someOptions (.retired deletedSystem)).untimed
  have honce : (entryOf someOptions (.retired deletedSystem)).untimed
      ∈ (initFromDatabase toyCrypto someOptions emptiedWorld).1.adminEntries.map LogEntry.untimed :=
    List.mem_map_of_mem (List.mem_cons_of_mem _ (List.mem_singleton_self _))
  have hagain := hlogged.mpr honce
  obtain ⟨entry, hentry, heq⟩ := List.mem_map.mp hagain
  obtain rfl := List.mem_singleton.mp hentry
  have haction := congrArg LogEntry.action heq
  revert haction
  decide

end InitFromDatabase

end Sigillo
