import Sigillo.OtherOperations
import Sigillo.SilentSessions

/-!
# The states of a session

What the watch has written of a session says what state the session is in, and what may be written next. The
rows of the sessions keep to that (**`WatchWorld.consistent_run`**): whatever is sent, fails or is deleted in
between, a session's row is in the state its receipts say, and every receipt was in order when it was written,
by whatever rule the heartbeats keep. -/

namespace Sigillo

open DoubleArith Utf16Text JsonText JsonSchema HexBase64 IsoTime Fallible

-- ── Runs of labels ───────────────────────────────────────────────────────────────

section Obeys

variable {σ α : Type} (next : σ → α → σ) (rule : σ → α → Prop)

/-- Every label is in order in the state the ones before it leave. -/
def Obeys : σ → List α → Prop
  | _, [] => True
  | state, label :: rest => rule state label ∧ Obeys (next state label) rest

variable {next rule}

theorem obeys_append {state : σ} {before after : List α} : Obeys next rule state (before ++ after) ↔
    Obeys next rule state before ∧ Obeys next rule (before.foldl next state) after := by
  induction before generalizing state with
  | nil => exact (true_and _).symm ▸ Iff.rfl
  | cons label rest ih =>
      show rule state label ∧ Obeys next rule (next state label) (rest ++ after) ↔ _
      rw [ih, ← and_assoc]
      rfl

theorem Obeys.at {state : σ} {before after : List α} {label : α}
    (h : Obeys next rule state (before ++ label :: after)) : rule (before.foldl next state) label :=
  (obeys_append.mp h).2.1

theorem Obeys.mono {other : σ → α → Prop} (hrule : ∀ state label, rule state label → other state label)
    {state : σ} {labels : List α} (h : Obeys next rule state labels) : Obeys next other state labels := by
  induction labels generalizing state with
  | nil => trivial
  | cons label rest ih => exact ⟨hrule state label h.1, ih h.2⟩

end Obeys

-- ── Changes and states ───────────────────────────────────────────────────────────

/-- The state a session is in after a change; `none` where it never started. -/
def Change.leaves (before : Option ConnectionState) : Change → Option ConnectionState
  | .start | .restored | .scriptChanged | .powerOff => some .«open»
  | .stop => some .closed
  | .lost | .ended => some .lost
  | .sleep | .offline => before

/-- The state a session is in after its changes. -/
def stateAfter (changes : List Change) : Option ConnectionState := changes.foldl Change.leaves none

/-- **A change that is one**: it finds the session in another state than it leaves it in, or, where it moves
    none, finds it connected. -/
def Change.Moves (before : Option ConnectionState) : Change → Prop
  | .start => before = none
  | .stop => before ≠ some .closed
  | .lost | .ended => before = some .«open»
  | .restored => before = some .lost ∨ before = some .closed
  | .scriptChanged | .powerOff => before = some .«open»
  | .sleep | .offline => before = some .«open» ∨ before = some .lost

/-- **A change the protocol has**: only a session that started is stopped, and only a lost one restored. -/
def Change.Documented (before : Option ConnectionState) : Change → Prop
  | .stop => before = some .«open» ∨ before = some .lost
  | .restored => before = some .lost
  | change => change.Moves before

theorem Change.Documented.moves {before : Option ConnectionState} {change : Change} (h : change.Documented before) :
    change.Moves before := by
  cases change with
  | stop =>
      rcases h with rfl | rfl
      · exact fun h => nomatch h
      · exact fun h => nomatch h
  | restored => exact .inl h
  | _ => exact h

-- ── Rows ─────────────────────────────────────────────────────────────────────────

/-- A session's name. -/
abbrev SessionKey := SystemId × JsString

/-- What a session is told apart by. -/
def ConnectionRow.key (row : ConnectionRow) : SessionKey := (row.systemId, row.sessionId)

/-- The row a session has among these. -/
def rowOf (rows : List ConnectionRow) (session : SessionKey) : Option ConnectionRow :=
  rows.find? fun row => row.systemId == session.1 && row.sessionId == session.2

/-- The state a session is in, by its row. -/
def stateOf (rows : List ConnectionRow) (session : SessionKey) : Option ConnectionState :=
  (rowOf rows session).map (·.state)

variable {rows : List ConnectionRow} {row : ConnectionRow} {session : SessionKey}

theorem isOf_iff : (row.systemId == session.1 && row.sessionId == session.2) = true ↔ row.key = session := by
  rw [Bool.and_eq_true, beq_iff_eq, beq_iff_eq]
  exact Prod.mk_inj.symm

theorem rowOf_some (h : rowOf rows session = some row) : row ∈ rows ∧ row.key = session := by
  have hsame := List.find?_some h
  exact ⟨List.mem_of_find?_eq_some h, isOf_iff.mp hsame⟩

theorem rowOf_eq_none : rowOf rows session = none ↔ ∀ row ∈ rows, row.key ≠ session := by
  rw [rowOf, List.find?_eq_none]
  exact forall₂_congr fun row _ => not_congr isOf_iff

/-- Where no session has two rows, a row is its session's. -/
theorem rowOf_of_mem (honce : (rows.map ConnectionRow.key).Nodup) (h : row ∈ rows) : rowOf rows row.key = some row := by
  cases hfound : rowOf rows row.key with
  | none => exact absurd rfl (rowOf_eq_none.mp hfound row h)
  | some other =>
      obtain ⟨hmem, hkey⟩ := rowOf_some hfound
      rw [List.inj_on_of_nodup_map honce hmem h hkey]

/-- Sessions of other systems are found where some systems' are gone. -/
theorem rowOf_filter (gone : SystemId → Bool) (h : gone session.1 = false) :
    rowOf (rows.filter fun row => !gone row.systemId) session = rowOf rows session := by
  rw [rowOf, List.find?_filter]
  congr 1
  funext row
  by_cases hsame : row.systemId = session.1
  · rw [hsame, h]
    simp [Bool.beq_eq_decide_eq]
  · rw [beq_eq_false_iff_ne.mpr hsame]
    simp

theorem savedConnections_eq : savedConnections row rows =
    if rowOf rows row.key = none then rows ++ [row]
    else rows.map fun r => if r.key = row.key then
      { r with state := row.state, lastBeatAt := row.lastBeatAt, scriptChanged := row.scriptChanged } else r := by
  rw [savedConnections]
  by_cases hany : (rows.any fun r => r.systemId == row.systemId && r.sessionId == row.sessionId) = true
  · obtain ⟨r, hr, hsame⟩ := List.any_eq_true.mp hany
    rw [if_pos hany, if_neg fun hnone => rowOf_eq_none.mp hnone r hr (isOf_iff.mp hsame)]
    refine List.map_congr_left fun r _ => ?_
    have hsame : (r.systemId == row.systemId && r.sessionId == row.sessionId) = true ↔ r.key = row.key :=
      @isOf_iff r row.key
    by_cases hkey : r.key = row.key
    · rw [if_pos (hsame.mpr hkey), if_pos hkey]
    · rw [if_neg (hsame.not.mpr hkey), if_neg hkey]
  · rw [if_neg hany, if_pos]
    refine rowOf_eq_none.mpr fun r hr hkey => hany (List.any_eq_true.mpr ⟨r, hr, ?_⟩)
    exact isOf_iff.mpr hkey

/-- **Once a session is saved**, it is in the state of its row, and every other in the one it was in. -/
theorem stateOf_saved : stateOf (savedConnections row rows) session =
    if session = row.key then some row.state else stateOf rows session := by
  rw [savedConnections_eq]
  by_cases hnone : rowOf rows row.key = none
  · rw [if_pos hnone, stateOf, rowOf, List.find?_append]
    by_cases hkey : session = row.key
    · obtain rfl := hkey
      have hfound : rows.find? (fun r => r.systemId == row.key.1 && r.sessionId == row.key.2) = none := hnone
      rw [if_pos rfl, hfound, Option.none_or, List.find?_singleton, if_pos (isOf_iff.mpr rfl)]
      rfl
    · rw [if_neg hkey, List.find?_singleton, if_neg (isOf_iff.not.mpr fun h => hkey h.symm), Option.or_none]
      rfl
  · rw [if_neg hnone, stateOf, rowOf, List.find?_map]
    have hsame : ((fun r : ConnectionRow => r.systemId == session.1 && r.sessionId == session.2) ∘ fun r =>
        if r.key = row.key then
          { r with state := row.state, lastBeatAt := row.lastBeatAt, scriptChanged := row.scriptChanged } else r)
        = fun r => r.systemId == session.1 && r.sessionId == session.2 := by
      funext r
      by_cases hkey : r.key = row.key
      · show (ConnectionRow.systemId (ite _ _ _) == _ && ConnectionRow.sessionId (ite _ _ _) == _) = _
        rw [if_pos hkey]
      · show (ConnectionRow.systemId (ite _ _ _) == _ && ConnectionRow.sessionId (ite _ _ _) == _) = _
        rw [if_neg hkey]
    rw [hsame, Option.map_map]
    by_cases hkey : session = row.key
    · obtain rfl := hkey
      rw [if_pos rfl]
      obtain ⟨found, hfound⟩ := Option.ne_none_iff_exists'.mp hnone
      have hfound' : rows.find? (fun r => r.systemId == row.key.1 && r.sessionId == row.key.2) = some found := hfound
      rw [hfound', Option.map_some]
      show some (ConnectionRow.state (ite _ _ _)) = _
      rw [if_pos (rowOf_some hfound).2]
    · rw [if_neg hkey, stateOf, rowOf]
      cases hfound : rows.find? fun r => r.systemId == session.1 && r.sessionId == session.2 with
      | none => rfl
      | some found =>
          have hfound' : found.key = session := (rowOf_some hfound).2
          show some (ConnectionRow.state (ite _ _ _)) = some found.state
          rw [if_neg fun h => hkey (hfound'.symm.trans h)]

theorem keys_saved (honce : (rows.map ConnectionRow.key).Nodup) :
    ((savedConnections row rows).map ConnectionRow.key).Nodup := by
  rw [savedConnections_eq]
  by_cases hnone : rowOf rows row.key = none
  · rw [if_pos hnone, List.map_append, List.nodup_append]
    refine ⟨honce, List.nodup_singleton _, ?_⟩
    rintro a ha b hb rfl
    obtain ⟨r, hr, rfl⟩ := List.mem_map.mp ha
    exact rowOf_eq_none.mp hnone r hr (List.mem_singleton.mp hb)
  · rw [if_neg hnone, List.map_map]
    have hsame : (ConnectionRow.key ∘ fun r : ConnectionRow => if r.key = row.key then
        { r with state := row.state, lastBeatAt := row.lastBeatAt, scriptChanged := row.scriptChanged } else r)
        = ConnectionRow.key := by
      funext r
      show ConnectionRow.key (ite _ _ _) = _
      by_cases hkey : r.key = row.key
      · rw [if_pos hkey]
        rfl
      · rw [if_neg hkey]
    rw [hsame]
    exact honce

end Sigillo
