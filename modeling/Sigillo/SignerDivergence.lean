import Sigillo.StoreRuns
import Sigillo.WrittenReceipts

/-!
# The red light

The store remembers, chain by chain, what the last comparison with the signer found wrong
(`signerDivergence`). A comparison that takes receipts back clears what it remembers; one that finds
the two records level does not touch it. So it says what the last comparison found as long as no
comparison overlooks that a disagreement is over (**`signerDivergence_run`**). -/

namespace Sigillo

open Utf16Text HexBase64 IsoTime Fallible

/-- **`signerDivergence`.** -/
def signerDivergence (s : Store) (systemId : SystemId) : Option JsString :=
  s.divergences.lookup systemId

-- ── Comparisons ──────────────────────────────────────────────────────────────────

/-- **A comparison of a chain with the signer's record, once made.** -/
structure Comparison where
  systemId : SystemId
  /-- The signer's record is the chain's: there is nothing to take back. -/
  level : Bool
  /-- A disagreement on this chain was remembered when it was made. -/
  flagged : Bool
  /-- It ended in disagreement. -/
  disagreed : Bool

/-- The two records are level, and an earlier disagreement is still remembered. -/
def Comparison.Overlooked (x : Comparison) : Prop := x.level = true ∧ x.flagged = true

/-- How the last comparison of a chain ended. -/
def lastComparison (made : List Comparison) (systemId : SystemId) : Option Bool :=
  (made.filter fun x => x.systemId == systemId).getLast?.map (·.disagreed)

variable (c : Crypto) (u : Unicode) (key : WriterKey)

/-- The comparison `reconcileNow` makes, where it comes to an end. -/
def reconcileComparison (s : Store) (systemId : SystemId) (view : SignerView) : List Comparison :=
  let made (disagreed : Bool) : List Comparison :=
    [⟨systemId, isLevel c key s systemId view, (signerDivergence s systemId).isSome, disagreed⟩]
  match (reconcileNow c key s systemId view).2 with
  | .error _ => []
  | .ok (.diverged _) => made true
  | .ok .inSync => made false
  | .ok (.recovered ..) => made false

/-- The comparison `writeReceipt` makes, where the signer refused the position. -/
def writeComparisons (s : Store) (event : ChainEvent) (mode : WriteMode)
    (alongside : Database → Except StoreError Database) (replies : SignerReplies) : List Comparison :=
  match attemptReceipt c u key s event mode alongside replies.first with
  | (s, .error (.signerRefused .sequence _)) => reconcileComparison c key s event.systemId replies.view
  | _ => []

def batchComparisons (s : Store) : List (ChainEvent × SignerReplies) → List Comparison
  | [] => []
  | (event, replies) :: rest =>
      writeComparisons c u key s event .continuation .ok replies ++
        match writeReceipt c u key s event .continuation .ok replies with
        | (_, .error _) => []
        | (s, .ok _) => batchComparisons s rest

def systemsComparisons (s : Store) : List (SystemId × SignerView) → List Comparison
  | [] => []
  | (systemId, view) :: rest =>
      reconcileComparison c key s systemId view ++
        match reconcileNow c key s systemId view with
        | (_, .error _) => []
        | (s, .ok _) => systemsComparisons s rest

/-- The comparison of the signed tree with the chain's, where a tree is signed. -/
def treeComparison (s : Store) (systemId : SystemId) (reply : Except StoreError Checkpoint) :
    List Comparison :=
  let hashes := chainDigests s.db systemId
  if hashes = [] ∨ coveredSize s.db systemId = some hashes.length then []
  else
    match reply with
    | .error _ => []
    | .ok checkpoint =>
        if checkpoint.systemId = systemId ∧ checkpoint.keyId = key.keyId
            ∧ verifyCheckpointSignature c checkpoint key.verificationKey then
          let same := decide (checkpoint.treeSize.1 = hashes.length)
            && decide (checkpoint.rootHash = (merkleRoot c hashes).hex)
          [⟨systemId, same, (signerDivergence s systemId).isSome, !same⟩]
        else []

def checkpointComparisons (s : Store) (systemId : SystemId) (view : SignerView)
    (reply : Except StoreError Checkpoint) : List Comparison :=
  reconcileComparison c key s systemId view ++
    match reconcileNow c key s systemId view with
    | (_, .error _) => []
    | (_, .ok (.diverged _)) => []
    | (s, .ok _) => treeComparison c key s systemId reply

/-- **The comparisons an operation makes**, in their order. -/
def comparisons (s : Store) : Operation → List Comparison
  | .createSystem systemId ts organizationId replies =>
      if s.db.hasOwner organizationId ∧ s.db.deletionOf systemId = none then
        writeComparisons c u key s (genesisEvent systemId ts) (.genesis organizationId) .ok replies
      else []
  | .append seen event checked replies =>
      match (refusedEvent event).orElse fun _ => refusedBefore c u key seen event checked with
      | some _ => []
      | none => writeComparisons c u key s event .continuation .ok replies
  | .appendBatch seen events =>
      match ((events.findSome? fun e => if e.1.action.kind = .genesis then refusedEvent e.1 else none).orElse
          fun _ => (events.findSome? fun e => refusedEvent e.1).orElse
            fun _ => events.findSome? fun e => refusedBefore c u key seen e.1 e.2.1) with
      | some _ => []
      | none => batchComparisons c u key s (events.map fun e => (e.1, e.2.2))
  | .recordConnection seen row (some (event, checked, replies)) =>
      if CONNECTION_PREFIX <+: event.action.name ∧ refusedBefore c u key seen event checked = none then
        writeComparisons c u key s event .continuation (fun db => .ok (saveConnection row db)) replies
      else []
  | .reconcileWithSigner systems => systemsComparisons c key s systems
  | .createCheckpoint systemId view reply => checkpointComparisons c key s systemId view reply
  | _ => []

/-- The comparisons made since the store was opened, once an operation has run. -/
def comparedAfter (s : Store) (made : List Comparison) : Operation → List Comparison
  | .reopen => []
  | op => made ++ comparisons c u key s op

/-- **The comparisons of a run since its process opened the store**, after those made before it. -/
def comparedSince (s : Store) (made : List Comparison) : List Operation → List Comparison
  | [] => made
  | op :: ops => comparedSince (perform c u key s op) (comparedAfter c u key s made op) ops

-- ── What is remembered ───────────────────────────────────────────────────────────

variable {c u key}

@[simp] theorem lastComparison_nil (systemId : SystemId) : lastComparison [] systemId = none := rfl

theorem lastComparison_append (made more : List Comparison) (systemId : SystemId) :
    lastComparison (made ++ more) systemId
      = (lastComparison more systemId).or (lastComparison made systemId) := by
  rw [lastComparison, lastComparison, lastComparison, List.filter_append, List.getLast?_append,
    Option.map_or]

/-- **What is remembered follows the comparisons**, where none was overlooked: of a chain compared,
    whether the last one ended in disagreement; of another, what it was. -/
def Tells (s s' : Store) (made : List Comparison) : Prop :=
  (∀ x ∈ made, ¬ x.Overlooked) → ∀ systemId, (signerDivergence s' systemId).isSome
    = (lastComparison made systemId).getD (signerDivergence s systemId).isSome

theorem Tells.of_same {s s' : Store} (h : s'.divergences = s.divergences) : Tells s s' [] := by
  intro _ systemId
  rw [lastComparison_nil, Option.getD_none, signerDivergence, h, signerDivergence]

theorem Tells.refl (s : Store) : Tells s s [] := .of_same rfl

theorem Tells.trans {s₁ s₂ s₃ : Store} {made more : List Comparison} (h₁ : Tells s₁ s₂ made)
    (h₂ : Tells s₂ s₃ more) : Tells s₁ s₃ (made ++ more) := by
  intro hseen systemId
  rw [h₂ (fun x hx => hseen x (List.mem_append_right _ hx)),
    h₁ fun x hx => hseen x (List.mem_append_left _ hx), lastComparison_append]
  cases lastComparison more systemId with
  | none => rfl
  | some disagreed => rfl

theorem lastComparison_single (x : Comparison) (systemId : SystemId) :
    lastComparison [x] systemId = if systemId = x.systemId then some x.disagreed else none := by
  by_cases h : systemId = x.systemId
  · rw [if_pos h, lastComparison, List.filter_cons, if_pos (beq_iff_eq.mpr h.symm)]
    rfl
  · rw [if_neg h, lastComparison, List.filter_cons, if_neg fun hx => h (beq_iff_eq.mp hx).symm]
    rfl

/-- One comparison is followed where it is remembered and every other chain is left alone. -/
theorem Tells.single {s s' : Store} {x : Comparison}
    (hown : ¬ x.Overlooked → (signerDivergence s' x.systemId).isSome = x.disagreed)
    (hother : ∀ systemId, systemId ≠ x.systemId →
      signerDivergence s' systemId = signerDivergence s systemId) : Tells s s' [x] := by
  intro hseen systemId
  rw [lastComparison_single]
  by_cases h : systemId = x.systemId
  · rw [if_pos h, Option.getD_some, h]
    exact hown (hseen x (List.mem_singleton_self x))
  · rw [if_neg h, Option.getD_none, hother systemId h]

/-- Level records, with nothing remembered, leave nothing remembered. -/
theorem Tells.level {s : Store} {systemId : SystemId} :
    Tells s s [⟨systemId, true, (signerDivergence s systemId).isSome, false⟩] := by
  refine .single (fun hseen => ?_) fun _ _ => rfl
  exact Bool.eq_false_iff.mpr fun hflag => hseen ⟨rfl, hflag⟩

theorem signerDivergence_recordDivergence (s : Store) (systemId name : SystemId) (detail : JsString)
    (ts : Timestamp) : signerDivergence (recordDivergence s systemId detail ts) name
      = if name = systemId then some detail else signerDivergence s name := by
  rw [recordDivergence]
  by_cases hknown : s.divergences.lookup systemId = some detail
  · rw [if_pos hknown]
    by_cases hname : name = systemId
    · rw [if_pos hname, hname]
      exact hknown
    · rw [if_neg hname]
  · rw [if_neg hknown]
    change (AssocList.set s.divergences systemId detail).lookup name = _
    rw [AssocList.lookup_set]
    by_cases hname : name = systemId
    · rw [if_pos hname, if_pos (beq_iff_eq.mpr hname)]
    · rw [if_neg hname, if_neg fun h => hname (beq_iff_eq.mp h)]
      rfl

/-- A disagreement is remembered. -/
theorem Tells.diverged (s : Store) (systemId : SystemId) (detail : JsString) (ts : Timestamp)
    (level flagged : Bool) :
    Tells s (recordDivergence s systemId detail ts) [⟨systemId, level, flagged, true⟩] := by
  refine .single (fun _ => ?_) fun name hname => ?_
  · rw [signerDivergence_recordDivergence, if_pos rfl]
    rfl
  · rw [signerDivergence_recordDivergence, if_neg hname]

/-- A chain that took receipts back is clear. -/
theorem Tells.recovered {s s' : Store} {systemId : SystemId} {level flagged : Bool}
    (h : s'.divergences = s.divergences.filter fun entry => !(entry.1 == systemId)) :
    Tells s s' [⟨systemId, level, flagged, false⟩] := by
  have hlookup : ∀ name, signerDivergence s' name
      = if (!(name == systemId)) then signerDivergence s name else none := by
    intro name
    rw [signerDivergence, h, AssocList.lookup_filter (fun n => !(n == systemId))]
    rfl
  refine .single (fun _ => ?_) fun name hname => ?_
  · rw [hlookup, beq_self_eq_true]
    rfl
  · rw [hlookup, beq_eq_false_iff_ne.mpr hname]
    rfl

-- ── Operations ───────────────────────────────────────────────────────────────────

theorem tells_reconcileNow (s : Store) (systemId : SystemId) (view : SignerView) :
    Tells s (reconcileNow c key s systemId view).1 (reconcileComparison c key s systemId view) := by
  rw [reconcileComparison]
  generalize hresult : reconcileNow c key s systemId view = result
  have h : Reconciles c key s systemId view (reconcileNow c key s systemId view) :=
    reconcileNow_reconciles s systemId view
  rw [hresult] at h
  cases h with
  | failed e => exact .refl s
  | inSync level =>
      rw [level]
      exact .level
  | diverged detail => exact .diverged s systemId detail _ _ _
  | recovered head taken db ahead missing restored => exact .recovered rfl

theorem attemptReceipt_divergences (s : Store) (event : ChainEvent) (mode : WriteMode)
    (alongside : Database → Except StoreError Database) (attempt : Attempt) :
    (attemptReceipt c u key s event mode alongside attempt).1.divergences = s.divergences := by
  rw [attemptReceipt]
  split
  · rfl
  · rfl

theorem tells_writeReceipt (s : Store) (event : ChainEvent) (mode : WriteMode)
    (alongside : Database → Except StoreError Database) (replies : SignerReplies) :
    Tells s (writeReceipt c u key s event mode alongside replies).1
      (writeComparisons c u key s event mode alongside replies) := by
  have hfirst : (attemptReceipt c u key s event mode alongside replies.first).1.divergences = s.divergences :=
    attemptReceipt_divergences s event mode alongside replies.first
  rw [writeReceipt, writeComparisons]
  generalize attemptReceipt c u key s event mode alongside replies.first = result at hfirst ⊢
  obtain ⟨s₁, answer⟩ := result
  have hsame : Tells s s₁ [] := .of_same hfirst
  cases answer with
  | ok receipt => exact hsame
  | error e =>
      by_cases hrefused : ∃ message, e = .signerRefused .sequence message
      · obtain ⟨message, rfl⟩ := hrefused
        have hcompared : Tells s₁ (reconcileNow c key s₁ event.systemId replies.view).1 _ :=
          tells_reconcileNow s₁ event.systemId replies.view
        have hreconcile := hsame.trans hcompared
        rw [List.nil_append] at hreconcile
        dsimp only
        generalize reconcileNow c key s₁ event.systemId replies.view = outcome at hreconcile ⊢
        obtain ⟨s₂, outcome⟩ := outcome
        cases outcome with
        | error e => exact hreconcile
        | ok outcome =>
            cases outcome with
            | inSync => exact hreconcile
            | diverged detail => exact hreconcile
            | recovered seq hash count =>
                have hagain : (attemptReceipt c u key s₂ event mode alongside replies.again).1.divergences
                    = s₂.divergences := attemptReceipt_divergences s₂ event mode alongside replies.again
                have hboth := hreconcile.trans (.of_same hagain)
                rwa [List.append_nil] at hboth
      · cases e with
        | signerRefused code message =>
            cases code with
            | sequence => exact absurd ⟨message, rfl⟩ hrefused
            | other => exact hsame
        | _ => exact hsame

theorem tells_writeBatch (s : Store) (events : List (ChainEvent × SignerReplies)) :
    Tells s (writeBatch c u key s events).1 (batchComparisons c u key s events) := by
  induction events generalizing s with
  | nil => exact .refl s
  | cons first rest ih =>
      obtain ⟨event, replies⟩ := first
      have hwrite : Tells s (writeReceipt c u key s event .continuation .ok replies).1 _ :=
        tells_writeReceipt s event .continuation .ok replies
      rw [writeBatch, batchComparisons]
      generalize writeReceipt c u key s event .continuation .ok replies = result at hwrite ⊢
      obtain ⟨s₁, outcome⟩ := result
      cases outcome with
      | error e => exact hwrite.trans (.refl s₁)
      | ok receipt =>
          have hrest := hwrite.trans (ih s₁)
          simp only
          generalize writeBatch c u key s₁ rest = result at hrest ⊢
          obtain ⟨s₂, outcome⟩ := result
          cases outcome with
          | error e => exact hrest
          | ok receipts => exact hrest

theorem tells_reconcileWithSigner (s : Store) (systems : List (SystemId × SignerView)) :
    Tells s (reconcileWithSigner c key s systems).1 (systemsComparisons c key s systems) := by
  induction systems generalizing s with
  | nil => exact .refl s
  | cons first rest ih =>
      obtain ⟨systemId, view⟩ := first
      have hfirst : Tells s (reconcileNow c key s systemId view).1 _ := tells_reconcileNow s systemId view
      rw [reconcileWithSigner, systemsComparisons]
      generalize reconcileNow c key s systemId view = result at hfirst ⊢
      obtain ⟨s₁, outcome⟩ := result
      cases outcome with
      | error e => exact hfirst.trans (.refl s₁)
      | ok outcome =>
          have hrest := hfirst.trans (ih s₁)
          simp only
          generalize reconcileWithSigner c key s₁ rest = result at hrest ⊢
          obtain ⟨s₂, outcomes⟩ := result
          cases outcomes with
          | error e => exact hrest
          | ok outcomes => exact hrest

theorem checkpointComparisons_of_ok {s s₁ : Store} {systemId : SystemId} {view : SignerView}
    {outcome : ReconcileOutcome} (h : reconcileNow c key s systemId view = (s₁, .ok outcome))
    (hnot : ∀ detail, outcome ≠ .diverged detail) (reply : Except StoreError Checkpoint) :
    checkpointComparisons c key s systemId view reply
      = reconcileComparison c key s systemId view ++ treeComparison c key s₁ systemId reply := by
  rw [checkpointComparisons, h]
  cases outcome with
  | inSync => rfl
  | recovered seq hash count => rfl
  | diverged detail => exact absurd rfl (hnot detail)

/-- The store once the chain agrees with the signer's record and its tree has been signed. -/
theorem tells_createCheckpoint (s : Store) (systemId : SystemId) (view : SignerView)
    (reply : Except StoreError Checkpoint) :
    Tells s (createCheckpoint c key s systemId view reply).1
      (checkpointComparisons c key s systemId view reply) := by
  have hfirst : Tells s (reconcileNow c key s systemId view).1 _ := tells_reconcileNow s systemId view
  cases hresult : reconcileNow c key s systemId view with
  | mk s₁ answer =>
  rw [hresult] at hfirst
  rw [createCheckpoint, hresult]
  split
  case h_1 s₂ e heq =>
    obtain ⟨rfl, rfl⟩ := Prod.mk.inj heq
    rw [checkpointComparisons, hresult]
    exact hfirst.trans (.refl s₁)
  case h_2 s₂ detail heq =>
    obtain ⟨rfl, rfl⟩ := Prod.mk.inj heq
    rw [checkpointComparisons, hresult]
    exact hfirst.trans (.refl s₁)
  case h_3 s₂ outcome hnot heq =>
    obtain ⟨rfl, rfl⟩ := Prod.mk.inj heq
    rw [checkpointComparisons_of_ok hresult fun detail h => hnot detail h]
    refine hfirst.trans ?_
    unfold treeComparison
    dsimp only
    by_cases hnone : chainDigests s₁.db systemId = []
    · rw [if_pos hnone, if_pos (.inl hnone)]
      exact .refl s₁
    · by_cases hcovered : coveredSize s₁.db systemId = some (chainDigests s₁.db systemId).length
      · rw [if_neg hnone, if_pos hcovered, if_pos (.inr hcovered)]
        exact .refl s₁
      · rw [if_neg hnone, if_neg hcovered, if_neg (not_or.mpr ⟨hnone, hcovered⟩)]
        cases reply with
        | error e => exact .refl s₁
        | ok checkpoint =>
            by_cases hsigned : checkpoint.systemId = systemId ∧ checkpoint.keyId = key.keyId
                ∧ verifyCheckpointSignature c checkpoint key.verificationKey = true
            · simp only [if_pos hsigned, if_neg (not_not.mpr hsigned)]
              by_cases htree : checkpoint.treeSize.1 = (chainDigests s₁.db systemId).length
                  ∧ checkpoint.rootHash = (merkleRoot c (chainDigests s₁.db systemId)).hex
              · rw [if_neg (not_not.mpr htree), decide_eq_true htree.1, decide_eq_true htree.2]
                split
                · exact .level
                · exact .level
              · have hdiffer : (decide (checkpoint.treeSize.1 = (chainDigests s₁.db systemId).length)
                    && decide (checkpoint.rootHash
                      = (merkleRoot c (chainDigests s₁.db systemId)).hex)) = false := by
                  rw [← Bool.decide_and]
                  exact decide_eq_false htree
                rw [if_pos htree, hdiffer]
                exact .diverged _ _ _ _ _ _
            · simp only [if_neg hsigned, if_pos hsigned]
              exact .refl s₁

theorem transact_divergences {α : Type} (s : Store)
    (result : Except StoreError (Database × List Happening × α)) :
    (s.transact result).1.divergences = s.divergences := by
  cases result with
  | error e => rfl
  | ok result => rfl

theorem administer_divergences {α : Type} (s : Store) (systemId : SystemId)
    (work : SystemRow → Except StoreError (Database × List Happening × α)) :
    (administer s systemId work).1.divergences = s.divergences := transact_divergences s _

/-- **What is remembered follows every operation** of a process. -/
theorem tells_perform (s : Store) {op : Operation} (hop : op ≠ .reopen) :
    Tells s (perform c u key s op) (comparisons c u key s op) := by
  cases op with
  | createSystem systemId ts organizationId replies =>
      rw [perform, createSystem, comparisons]
      by_cases howner : s.db.hasOwner organizationId = true
      · rw [if_neg (not_not.mpr howner)]
        cases hdeletion : s.db.deletionOf systemId with
        | some deletedOn =>
            rw [if_neg fun h => absurd h.2 (Option.some_ne_none _)]
            exact .refl s
        | none =>
            rw [if_pos ⟨howner, rfl⟩]
            exact tells_writeReceipt s _ _ .ok replies
      · rw [if_pos howner, if_neg fun h => howner h.1]
        exact .refl s
  | append seen event checked replies =>
      rw [perform, append, comparisons]
      cases (refusedEvent event).orElse fun _ => refusedBefore c u key seen event checked with
      | some e => exact .refl s
      | none => exact tells_writeReceipt s event .continuation .ok replies
  | appendBatch seen events =>
      rw [perform, appendBatch, comparisons]
      cases ((events.findSome? fun e => if e.1.action.kind = .genesis then refusedEvent e.1 else none).orElse
          fun _ => (events.findSome? fun e => refusedEvent e.1).orElse
            fun _ => events.findSome? fun e => refusedBefore c u key seen e.1 e.2.1) with
      | some e => exact .refl s
      | none => exact tells_writeBatch s _
  | recordConnection seen row event =>
      cases event with
      | none => exact .refl s
      | some event =>
          obtain ⟨event, checked, replies⟩ := event
          have hwrite : Tells s (writeReceipt c u key s event .continuation
              (fun db => .ok (saveConnection row db)) replies).1 _ :=
            tells_writeReceipt s event .continuation (fun db => .ok (saveConnection row db)) replies
          rw [perform, recordConnection, comparisons]
          by_cases hname : CONNECTION_PREFIX <+: event.action.name
          · rw [if_neg (not_not.mpr hname)]
            cases hrefused : refusedBefore c u key seen event checked with
            | some e =>
                rw [if_neg fun h => absurd h.2 (Option.some_ne_none _)]
                exact .refl s
            | none =>
                rw [if_pos ⟨hname, rfl⟩]
                dsimp only
                split
                · rename_i heq
                  rwa [heq] at hwrite
                · rename_i heq
                  rwa [heq] at hwrite
          · rw [if_pos hname, if_neg fun h => hname h.1]
            exact .refl s
  | reconcileWithSigner systems => exact tells_reconcileWithSigner s systems
  | createCheckpoint systemId view reply => exact tells_createCheckpoint s systemId view reply
  | reopen => exact absurd rfl hop
  | recordTimestamp row =>
      refine .of_same ?_
      rw [perform, recordTimestamp]
      split
      · split
        · rfl
        · rfl
      · rfl
  | registerOrganization => exact .of_same (transact_divergences _ _)
  | createOrganization => exact .of_same (transact_divergences _ _)
  | approveOrganization => exact .of_same (transact_divergences _ _)
  | rejectOrganization => exact .of_same (transact_divergences _ _)
  | deleteOrganization => exact .of_same (transact_divergences _ _)
  | assignSystem => exact .of_same (administer_divergences _ _ _)
  | createTransfer => exact .of_same (administer_divergences _ _ _)
  | revokeTransfers => exact .of_same (administer_divergences _ _ _)
  | acceptTransfer => exact .of_same (transact_divergences _ _)
  | renameSystem systemId displayName request =>
      refine .of_same ?_
      rw [perform, renameSystem]
      split
      · rfl
      · exact administer_divergences _ _ _
  | archiveSystem => exact .of_same (administer_divergences _ _ _)
  | unarchiveSystem => exact .of_same (administer_divergences _ _ _)
  | deleteEmptySystem => exact .of_same (administer_divergences _ _ _)
  | eraseOperatorSystem => exact .of_same (administer_divergences _ _ _)
  | eraseOrganization => exact .of_same (transact_divergences _ _)
  | eraseSubject => exact .of_same (transact_divergences _ _)
  | eraseOpenings => exact .of_same (administer_divergences _ _ _)

-- ── Runs ─────────────────────────────────────────────────────────────────────────

theorem tells_run {s₀ s : Store} {made : List Comparison} (h₀ : s₀.divergences = [])
    (h : Tells s₀ s made) (ops : List Operation) :
    Tells s₀ (run c u key s ops) (comparedSince c u key s made ops) := by
  induction ops generalizing s made with
  | nil => exact h
  | cons op ops ih =>
      rw [run_cons, comparedSince]
      refine ih ?_
      cases op with
      | reopen =>
          show Tells s₀ { s with divergences := [] } []
          exact .of_same h₀.symm
      | _ => exact h.trans (tells_perform s Operation.noConfusion)

/-- **In every run whose comparisons overlook nothing, what is remembered of a chain is what its last
    comparison found**: a disagreement exactly when it ended in one. -/
theorem signerDivergence_run (c : Crypto) (u : Unicode) (key : WriterKey) (ops : List Operation)
    (hseen : ∀ x ∈ comparedSince c u key (.fresh key) [] ops, ¬ x.Overlooked) (systemId : SystemId) :
    signerDivergence (run c u key (.fresh key) ops) systemId ≠ none ↔
      lastComparison (comparedSince c u key (.fresh key) [] ops) systemId = some true := by
  have htells : Tells (.fresh key) (run c u key (.fresh key) ops) (comparedSince c u key (.fresh key) [] ops) :=
    tells_run rfl (.refl _) ops
  have h := htells hseen systemId
  have hfresh : (signerDivergence (.fresh key) systemId).isSome = false := rfl
  rw [hfresh] at h
  rw [← Option.isSome_iff_ne_none, h]
  cases lastComparison (comparedSince c u key (.fresh key) [] ops) systemId with
  | none => simp
  | some disagreed => simp

/-- A signer whose head is this. -/
def headView (head : Option Receipt) : SignerView := ⟨.ok head, none, fun _ => newYear⟩

/-- A signer that has signed nothing disagrees with a chain. -/
theorem reconcileNow_nothing {s : Store} {systemId : SystemId} {t : TipRow}
    (h : s.db.tipRow systemId = some t) : ∃ detail, reconcileNow c key s systemId (headView none)
      = (recordDivergence s systemId detail newYear, .ok (.diverged detail)) := by
  rw [reconcileNow]
  simp only [headView, h]
  exact ⟨_, rfl⟩

theorem tipRow_recordDivergence (s : Store) (systemId name : SystemId) (detail : JsString) (ts : Timestamp) :
    (recordDivergence s systemId detail ts).db.tipRow name = s.db.tipRow name := by
  rw [recordDivergence]
  split
  · rfl
  · rfl

/-- A system is created, and then the signer started on an empty directory. -/
def lostSigner : List Operation :=
  [.createSystem toySystem newYear none toyReplies, .reconcileWithSigner [(toySystem, headView none)]]

/-- The first comparison of that run is the second operation's, and what it found is remembered. -/
theorem run_lostSigner (u : Unicode) : ∃ s₁ detail,
    s₁.db.tipRow toySystem = some ⟨toyGenesis.seq, receiptHashHex toyCrypto toyGenesis.toUnsignedReceipt, newYear⟩ ∧
    run toyCrypto u toyWriter (.fresh toyWriter) lostSigner = recordDivergence s₁ toySystem detail newYear ∧
    comparedSince toyCrypto u toyWriter (.fresh toyWriter) [] lostSigner
      = [⟨toySystem, isLevel toyCrypto toyWriter s₁ toySystem (headView none), false, true⟩] := by
  have hopen : createSystem toyCrypto u toyWriter (.fresh toyWriter) toySystem newYear none toyReplies = _ :=
    createSystem_toy (noChains_fresh toyWriter) rfl rfl
  have hwrites : Writes toyCrypto u toyWriter (Store.fresh toyWriter).db (genesisEvent toySystem newYear)
      (.genesis none) toyReplies.first (toyPrepared toySystem.1) toyGenesis (toyOpened toyCrypto (Store.fresh toyWriter).db none) :=
    toyGenesis_writes (noChains_fresh toyWriter) rfl rfl
  have hinsert := insertReceipt_of_writes hwrites (by simp [(noChains_fresh toyWriter).openings])
  have htip := tipRow_toyOpened (c := toyCrypto) (noChains_fresh toyWriter) none
  obtain ⟨s₁, hs₁⟩ : ∃ s₁, s₁ = perform toyCrypto u toyWriter (.fresh toyWriter)
    (.createSystem toySystem newYear none toyReplies) := ⟨_, rfl⟩
  have hdb : s₁.db = toyOpened toyCrypto (Store.fresh toyWriter).db none := by
    rw [hs₁, perform, hopen]
  have hnone : (signerDivergence s₁ toySystem).isSome = false := by
    rw [hs₁, perform, hopen]
    rfl
  rw [← hdb] at htip
  obtain ⟨detail, hlost⟩ : ∃ detail, reconcileNow toyCrypto toyWriter s₁ toySystem (headView none) = _ :=
    reconcileNow_nothing htip
  have hstep : perform toyCrypto u toyWriter s₁ (.reconcileWithSigner [(toySystem, headView none)])
      = recordDivergence s₁ toySystem detail newYear := by
    rw [perform, reconcileWithSigner, hlost]
    rfl
  -- the signer took the first receipt at once, so there was nothing to compare
  have hfirst : comparisons toyCrypto u toyWriter (.fresh toyWriter)
      (.createSystem toySystem newYear none toyReplies) = [] := by
    rw [comparisons]
    split
    · rw [writeComparisons, attemptReceipt, hinsert]
      rfl
    · rfl
  have hsecond : comparisons toyCrypto u toyWriter s₁ (.reconcileWithSigner [(toySystem, headView none)])
      = [⟨toySystem, isLevel toyCrypto toyWriter s₁ toySystem (headView none), false, true⟩] := by
    rw [comparisons, systemsComparisons, reconcileComparison, hlost, hnone]
    rfl
  refine ⟨s₁, detail, htip, ?_, ?_⟩
  · rw [lostSigner, run_cons, run_cons, run_nil, ← hs₁, hstep]
  · simp only [lostSigner, comparedSince, comparedAfter]
    rw [hfirst, ← hs₁, hsecond]
    rfl

/-- What the comparison found is remembered, and forgotten when the process is started again. -/
theorem signerDivergence_run_lost :
    let u : Unicode := ⟨id, id, id⟩
    signerDivergence (run toyCrypto u toyWriter (.fresh toyWriter) lostSigner) toySystem ≠ none ∧
      signerDivergence (run toyCrypto u toyWriter (.fresh toyWriter) (lostSigner ++ [.reopen])) toySystem = none := by
  intro u
  obtain ⟨s₁, detail, -, -, hmade⟩ := run_lostSigner u
  have hreopened : comparedSince toyCrypto u toyWriter (.fresh toyWriter) [] (lostSigner ++ [.reopen]) = [] := rfl
  constructor
  · refine (signerDivergence_run toyCrypto u toyWriter lostSigner (fun x hx => ?_) toySystem).mpr ?_
    · rw [hmade] at hx
      rintro ⟨-, hflagged⟩
      rw [List.mem_singleton.mp hx] at hflagged
      cases hflagged
    · rw [hmade, lastComparison_single, if_pos rfl]
  · by_contra hne
    have hlast := (signerDivergence_run toyCrypto u toyWriter (lostSigner ++ [.reopen])
      (fun x hx => by rw [hreopened] at hx; cases hx) toySystem).mp hne
    rw [hreopened] at hlast
    cases hlast

-- ── A light that stays on ────────────────────────────────────────────────────────

/-- A chain that is level is found in sync, and nothing changes. -/
theorem reconcileNow_of_isLevel {s : Store} {systemId : SystemId} {view : SignerView}
    (h : isLevel c key s systemId view = true) : reconcileNow c key s systemId view = (s, .ok .inSync) := by
  rw [isLevel] at h
  rw [reconcileNow]
  cases hhead : view.head with
  | error e => simp [hhead] at h
  | ok head? =>
      cases head? with
      | none =>
          rw [hhead] at h
          exact if_pos h
      | some head =>
          simp only [hhead, Bool.and_eq_true, decide_eq_true_eq] at h
          obtain ⟨hgood, htip⟩ := h
          simp only [if_neg (not_not.mpr hgood), if_pos htip]

theorem comparedSince_concat (s : Store) (made : List Comparison) (ops : List Operation) (op : Operation) :
    comparedSince c u key s made (ops ++ [op])
      = comparedAfter c u key (run c u key s ops) (comparedSince c u key s made ops) op := by
  induction ops generalizing s made with
  | nil => rfl
  | cons first ops ih => exact ih _ _

/-- A signer started on an empty directory, and then on its own. -/
def lostAndFound : List Operation :=
  lostSigner ++ [.reconcileWithSigner [(toySystem, headView (some toyGenesis))]]

/-- **The light stays on after a comparison that found nothing wrong.** -/
theorem stale_disagreement :
    let u : Unicode := ⟨id, id, id⟩
    lastComparison (comparedSince toyCrypto u toyWriter (.fresh toyWriter) [] lostAndFound) toySystem
        = some false ∧
      signerDivergence (run toyCrypto u toyWriter (.fresh toyWriter) lostAndFound) toySystem ≠ none := by
  intro u
  obtain ⟨s₁, detail, htip, hrun, -⟩ := run_lostSigner u
  obtain ⟨s₂, hs₂⟩ : ∃ s₂, s₂ = recordDivergence s₁ toySystem detail newYear := ⟨_, rfl⟩
  have htip₂ : s₂.db.tipRow toySystem = _ := (hs₂ ▸ tipRow_recordDivergence s₁ _ _ _ _).trans htip
  have hlevel : isLevel toyCrypto toyWriter s₂ toySystem (headView (some toyGenesis)) = true := by
    rw [isLevel, headView]
    simp only [htip₂, keyFor]
    cases s₂.db.publicKeyFor toyGenesis.keyId with
    | none => rfl
    | some k => rfl
  have hfound := reconcileNow_of_isLevel hlevel
  rw [← hs₂] at hrun
  constructor
  · have hlast : comparisons toyCrypto u toyWriter s₂
        (.reconcileWithSigner [(toySystem, headView (some toyGenesis))])
        = [⟨toySystem, true, (signerDivergence s₂ toySystem).isSome, false⟩] := by
      rw [comparisons, systemsComparisons, reconcileComparison, hfound, hlevel]
      rfl
    rw [lostAndFound, comparedSince_concat, hrun]
    simp only [comparedAfter]
    rw [hlast, lastComparison_append, lastComparison_single, if_pos rfl, Option.some_or]
  · have hlight : run toyCrypto u toyWriter (.fresh toyWriter) lostAndFound
        = perform toyCrypto u toyWriter (run toyCrypto u toyWriter (.fresh toyWriter) lostSigner)
          (.reconcileWithSigner [(toySystem, headView (some toyGenesis))]) := List.foldl_concat ..
    rw [hlight, hrun, perform, reconcileWithSigner, hfound]
    show signerDivergence s₂ toySystem ≠ none
    rw [hs₂, signerDivergence_recordDivergence, if_pos rfl]
    exact Option.some_ne_none detail

end Sigillo
