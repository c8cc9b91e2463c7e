import Sigillo.ServedKeys

/-!
# A new vault takes over the account's keys

The vault's row is written first, and the keys are sealed again one after the other, in no
transaction. Any statement of the database may throw, and so does a key that does not open.

* **`createVaultWith_never`** — where no statement throws, this is `createVault`;
* **`othersKept`** — the keys of other accounts are never touched, whatever throws;
* **`createVault_allOrNothing_iff`** — making a vault is all or nothing exactly if nothing throws once
  its row is written. -/

namespace Sigillo

open Utf16Text JsonText HexBase64 EcmaText

-- ── What may throw ───────────────────────────────────────────────────────────────

/-- The statements of `createVault`, the last two for each key under the server's own that is read,
    and for each that is written. -/
inductive VaultStatement where
  | exists
  | insert
  | schedule
  | select
  | owner (n : ℕ)
  | update (n : ℕ)

inductive TakeoverError where
  | key (e : KeyError)
  | database (statement : VaultStatement)

variable (g : Cipher) (zones : TimeZones) (config : KeyConfig) (ownerOf : SystemId → JsString)
  (fails : VaultStatement → Bool)

namespace KeyStore

variable (k : KeyStore)

/-- A key of the account under the server's own key. -/
def Owned (owner : JsString) (row : ProviderKeyRow) : Prop :=
  row.vaultOwner = none ∧ ownerOf row.systemId = owner

instance (owner : JsString) : DecidablePred (Owned ownerOf owner) := fun _ => inferInstanceAs (Decidable (_ ∧ _))

/-- What a key under the server's own opens to. -/
def openedByServer (row : ProviderKeyRow) : Option Bytes :=
  openBytes g config.legacyKey row.sealed (associatedData row.systemId row.provider)

/-- The row of a key sealed again, for the vault. -/
def takenRow (key : Bytes) (owner : JsString) (iv : Iv) (plain : Bytes) (row : ProviderKeyRow) : ProviderKeyRow :=
  { row with
    sealed := sealBytes g key iv plain (associatedData row.systemId row.provider)
    vaultOwner := some owner }

/-- What is sealed again, and the vault's key: none where the row does not open, or the vault is closed. -/
def plainAndKey (dataKey : Option Bytes) (row : ProviderKeyRow) : Option (Bytes × Bytes) :=
  (openedByServer g config row).bind fun plain => dataKey.map fun key => (plain, key)

/-- The loop of `createVault`, over the keys from the `n`th to be written and the `m`th to be read on. -/
def takeOver (dataKey : Option Bytes) (owner : JsString) (ivs : ℕ → Iv) :
    List ProviderKeyRow → ℕ → ℕ → List ProviderKeyRow × Except TakeoverError Unit
  | [], _, _ => ([], .ok ())
  | row :: rest, n, m =>
      if row.vaultOwner ≠ none then
        (row :: (takeOver dataKey owner ivs rest n m).1, (takeOver dataKey owner ivs rest n m).2)
      else if fails (.owner m) then (row :: rest, .error (.database (.owner m)))
      else if ownerOf row.systemId ≠ owner then
        (row :: (takeOver dataKey owner ivs rest n (m + 1)).1, (takeOver dataKey owner ivs rest n (m + 1)).2)
      else
        match plainAndKey g config dataKey row with
        | none => (row :: rest, .error (.key .cipher))
        | some (plain, key) =>
            if fails (.update n) then (row :: rest, .error (.database (.update n)))
            else
              (takenRow g key owner (ivs n) plain row :: (takeOver dataKey owner ivs rest (n + 1) (m + 1)).1,
                (takeOver dataKey owner ivs rest (n + 1) (m + 1)).2)

/-- **`createVault`**, on a database whose statements may throw. -/
def createVaultWith (owner passphrase : JsString) (draws : VaultDraws) (ivs : ℕ → Iv) (time : ℤ) :
    KeyStore × Except TakeoverError JsString :=
  if fails .exists then (k, .error (.database .exists))
  else
    match k.vaults.create g owner time passphrase draws with
    | (vaults, .error e) => ({ k with vaults }, .error (.key (.vault e)))
    | (vaults, .ok recovery) =>
        if fails .insert then (k, .error (.database .insert))
        else if fails .schedule then ({ k with vaults }, .error (.database .schedule))
        else
          let (vaults, dataKey) := vaults.dataKey zones owner time
          if fails .select then ({ k with vaults }, .error (.database .select))
          else
            let (rows, result) := takeOver g config ownerOf fails dataKey owner ivs k.rows 0 0
            ({ vaults, rows }, result.map fun _ => recovery)

-- ── Where nothing throws ─────────────────────────────────────────────────────────

theorem takeOver_never (dataKey : Option Bytes) (owner : JsString) (ivs : ℕ → Iv) (rows : List ProviderKeyRow)
    (n m : ℕ) : takeOver g config ownerOf (fun _ => false) dataKey owner ivs rows n m =
      ((reseal g config ownerOf dataKey owner ivs rows n).1,
        (reseal g config ownerOf dataKey owner ivs rows n).2.mapError .key) := by
  induction rows generalizing n m with
  | nil => rfl
  | cons row rest ih =>
      rw [takeOver]
      unfold reseal
      by_cases howner : row.vaultOwner = none
      · rw [if_neg (not_not.mpr howner), if_neg Bool.false_ne_true]
        by_cases hof : ownerOf row.systemId = owner
        · rw [if_neg (not_not.mpr hof), if_pos ⟨howner, hof⟩, plainAndKey, openedByServer]
          cases openBytes g config.legacyKey row.sealed (associatedData row.systemId row.provider) with
          | none => rfl
          | some plain =>
              cases dataKey with
              | none => rfl
              | some key =>
                  show (if false = true then _ else _) = _
                  rw [if_neg Bool.false_ne_true, ih]
                  rfl
        · rw [if_pos hof, if_neg (fun h => hof h.2), ih]
      · rw [if_pos howner, if_neg (fun h => howner h.1), ih]

/-- **Where no statement throws, this is `createVault`.** -/
theorem createVaultWith_never (owner passphrase : JsString) (draws : VaultDraws) (ivs : ℕ → Iv) (time : ℤ) :
    k.createVaultWith g zones config ownerOf (fun _ => false) owner passphrase draws ivs time =
      ((k.createVault g zones config ownerOf owner passphrase draws ivs time).1,
        (k.createVault g zones config ownerOf owner passphrase draws ivs time).2.mapError .key) := by
  rw [createVaultWith, createVault, if_neg Bool.false_ne_true]
  obtain ⟨vaults, e | recovery⟩ := k.vaults.create g owner time passphrase draws
  · rfl
  · dsimp only
    rw [if_neg Bool.false_ne_true, if_neg Bool.false_ne_true, if_neg Bool.false_ne_true, takeOver_never]
    dsimp only
    cases (reseal g config ownerOf (vaults.dataKey zones owner time).2 owner ivs k.rows 0).2 <;> rfl

-- ── What is left of the rows ─────────────────────────────────────────────────────

/-- The row of another account's key, or of one a vault has, is what it was. -/
def Kept (owner : JsString) (row after : ProviderKeyRow) : Prop := ¬ Owned ownerOf owner row → after = row

theorem kept_refl (owner : JsString) (rows : List ProviderKeyRow) :
    List.Forall₂ (Kept ownerOf owner) rows rows := by
  induction rows with
  | nil => exact .nil
  | cons row rows ih => exact .cons (fun _ => rfl) ih

theorem takeOver_kept (dataKey : Option Bytes) (owner : JsString) (ivs : ℕ → Iv) (rows : List ProviderKeyRow)
    (n m : ℕ) : List.Forall₂ (Kept ownerOf owner) rows
      (takeOver g config ownerOf fails dataKey owner ivs rows n m).1 := by
  induction rows generalizing n m with
  | nil => exact .nil
  | cons row rest ih =>
      have hsame := kept_refl ownerOf owner (row :: rest)
      rw [takeOver]
      by_cases hvault : row.vaultOwner ≠ none
      · rw [if_pos hvault]
        exact .cons (fun _ => rfl) (ih n m)
      rw [if_neg hvault]
      by_cases hread : fails (.owner m) = true
      · rw [if_pos hread]
        exact hsame
      rw [if_neg hread]
      by_cases hof : ownerOf row.systemId ≠ owner
      · rw [if_pos hof]
        exact .cons (fun _ => rfl) (ih n (m + 1))
      rw [if_neg hof]
      cases plainAndKey g config dataKey row with
      | none => exact hsame
      | some both =>
          dsimp only
          by_cases hwrite : fails (.update n) = true
          · rw [if_pos hwrite]
            exact hsame
          · rw [if_neg hwrite]
            exact .cons (fun h => absurd ⟨not_not.mp hvault, not_not.mp hof⟩ h) (ih (n + 1) (m + 1))

/-- **The keys of other accounts are never touched**, whatever throws. -/
theorem othersKept (owner passphrase : JsString) (draws : VaultDraws) (ivs : ℕ → Iv) (time : ℤ) :
    List.Forall₂ (Kept ownerOf owner) k.rows
      (k.createVaultWith g zones config ownerOf fails owner passphrase draws ivs time).1.rows := by
  have hsame := kept_refl ownerOf owner k.rows
  rw [createVaultWith]
  by_cases hexists : fails .exists = true
  · rw [if_pos hexists]
    exact hsame
  rw [if_neg hexists]
  match k.vaults.create g owner time passphrase draws with
  | (vaults, .error e) => exact hsame
  | (vaults, .ok recovery) =>
      dsimp only
      by_cases hinsert : fails .insert = true
      · rw [if_pos hinsert]
        exact hsame
      rw [if_neg hinsert]
      by_cases hschedule : fails .schedule = true
      · rw [if_pos hschedule]
        exact hsame
      rw [if_neg hschedule]
      by_cases hselect : fails .select = true
      · rw [if_pos hselect]
        exact hsame
      · rw [if_neg hselect]
        exact takeOver_kept g config ownerOf fails _ owner ivs k.rows 0 0

-- ── When the loop goes through ───────────────────────────────────────────────────

/-- The keys under the server's own key, of any account. -/
def serversRows (rows : List ProviderKeyRow) : List ProviderKeyRow := rows.filter fun row => row.vaultOwner = none

/-- Those of the account. -/
def ownedRows (owner : JsString) (rows : List ProviderKeyRow) : List ProviderKeyRow :=
  rows.filter fun row => Owned ownerOf owner row

/-- **Nothing throws in the loop**: whose each key is can be read, each of the account's opens under
    the server's key and is written back, and the vault is open if there is any. -/
structure GoesThrough (dataKey : Option Bytes) (owner : JsString) (rows : List ProviderKeyRow) (n m : ℕ) : Prop where
  owners : ∀ i < (serversRows rows).length, fails (.owner (m + i)) = false
  updates : ∀ i < (ownedRows ownerOf owner rows).length, fails (.update (n + i)) = false
  opens : ∀ row ∈ ownedRows ownerOf owner rows, ∃ plain, openedByServer g config row = some plain
  key : ownedRows ownerOf owner rows ≠ [] → ∃ key, dataKey = some key

theorem forall_lt_succ_shift {P : ℕ → Prop} {n len : ℕ} :
    (∀ i < len + 1, P (n + i)) ↔ P n ∧ ∀ i < len, P (n + 1 + i) := by
  rw [Nat.forall_lt_succ_left]
  simp only [Nat.add_zero, Nat.add_assoc, Nat.add_comm 1]

variable {g config ownerOf fails} {dataKey : Option Bytes} {owner : JsString} {ivs : ℕ → Iv}
  {row : ProviderKeyRow} {rest : List ProviderKeyRow} {n m : ℕ}

theorem goesThrough_vault (h : row.vaultOwner ≠ none) :
    GoesThrough g config ownerOf fails dataKey owner (row :: rest) n m ↔
      GoesThrough g config ownerOf fails dataKey owner rest n m := by
  have hservers : serversRows (row :: rest) = serversRows rest :=
    List.filter_cons_of_neg (by rw [decide_eq_true_eq]; exact h)
  have howned : ownedRows ownerOf owner (row :: rest) = ownedRows ownerOf owner rest :=
    List.filter_cons_of_neg (by rw [decide_eq_true_eq]; exact fun ho => h ho.1)
  constructor
  · rintro ⟨h1, h2, h3, h4⟩
    exact ⟨hservers ▸ h1, howned ▸ h2, howned ▸ h3, howned ▸ h4⟩
  · rintro ⟨h1, h2, h3, h4⟩
    exact ⟨hservers ▸ h1, howned ▸ h2, howned ▸ h3, howned ▸ h4⟩

theorem goesThrough_other (h : row.vaultOwner = none) (hof : ownerOf row.systemId ≠ owner) :
    GoesThrough g config ownerOf fails dataKey owner (row :: rest) n m ↔
      fails (.owner m) = false ∧ GoesThrough g config ownerOf fails dataKey owner rest n (m + 1) := by
  have hservers : serversRows (row :: rest) = row :: serversRows rest :=
    List.filter_cons_of_pos (decide_eq_true h)
  have howned : ownedRows ownerOf owner (row :: rest) = ownedRows ownerOf owner rest :=
    List.filter_cons_of_neg (by rw [decide_eq_true_eq]; exact fun ho => hof ho.2)
  constructor
  · rintro ⟨h1, h2, h3, h4⟩
    rw [hservers, List.length_cons] at h1
    obtain ⟨h0, h1⟩ := (forall_lt_succ_shift (P := fun i => fails (.owner i) = false)).mp h1
    exact ⟨h0, h1, howned ▸ h2, howned ▸ h3, howned ▸ h4⟩
  · rintro ⟨h0, h1, h2, h3, h4⟩
    refine ⟨?_, howned ▸ h2, howned ▸ h3, howned ▸ h4⟩
    rw [hservers, List.length_cons]
    exact (forall_lt_succ_shift (P := fun i => fails (.owner i) = false)).mpr ⟨h0, h1⟩

theorem goesThrough_owned (h : row.vaultOwner = none) (hof : ownerOf row.systemId = owner) :
    GoesThrough g config ownerOf fails dataKey owner (row :: rest) n m ↔
      fails (.owner m) = false ∧ (∃ plain key, plainAndKey g config dataKey row = some (plain, key)) ∧
        fails (.update n) = false ∧ GoesThrough g config ownerOf fails dataKey owner rest (n + 1) (m + 1) := by
  have hservers : serversRows (row :: rest) = row :: serversRows rest :=
    List.filter_cons_of_pos (decide_eq_true h)
  have howned : ownedRows ownerOf owner (row :: rest) = row :: ownedRows ownerOf owner rest :=
    List.filter_cons_of_pos (decide_eq_true ⟨h, hof⟩)
  constructor
  · rintro ⟨h1, h2, h3, h4⟩
    rw [hservers, List.length_cons] at h1
    rw [howned, List.length_cons] at h2
    replace h1 := (forall_lt_succ_shift (P := fun i => fails (.owner i) = false)).mp h1
    replace h2 := (forall_lt_succ_shift (P := fun i => fails (.update i) = false)).mp h2
    rw [howned, List.forall_mem_cons] at h3
    rw [howned] at h4
    obtain ⟨plain, hplain⟩ := h3.1
    obtain ⟨key, rfl⟩ := h4 (List.cons_ne_nil _ _)
    refine ⟨h1.1, ⟨plain, key, ?_⟩, h2.1, h1.2, h2.2, h3.2, fun _ => ⟨key, rfl⟩⟩
    rw [plainAndKey, hplain]
    rfl
  · rintro ⟨h0, ⟨plain, key, hboth⟩, hwrite, h1, h2, h3, h4⟩
    obtain ⟨plain', hplain, hkey⟩ := Option.bind_eq_some_iff.mp hboth
    obtain ⟨key', rfl, -⟩ := Option.map_eq_some_iff.mp hkey
    refine ⟨?_, ?_, ?_, fun _ => ⟨key', rfl⟩⟩
    · rw [hservers, List.length_cons]
      exact (forall_lt_succ_shift (P := fun i => fails (.owner i) = false)).mpr ⟨h0, h1⟩
    · rw [howned, List.length_cons]
      exact (forall_lt_succ_shift (P := fun i => fails (.update i) = false)).mpr ⟨hwrite, h2⟩
    · rw [howned, List.forall_mem_cons]
      exact ⟨⟨plain', hplain⟩, h3⟩

/-- **The loop ends without an error** exactly if nothing throws in it. -/
theorem takeOver_ok_iff (rows : List ProviderKeyRow) (n m : ℕ) :
    (takeOver g config ownerOf fails dataKey owner ivs rows n m).2 = .ok () ↔
      GoesThrough g config ownerOf fails dataKey owner rows n m := by
  induction rows generalizing n m with
  | nil => exact iff_of_true rfl ⟨fun _ h => (nomatch h), fun _ h => (nomatch h), fun _ h => (nomatch h),
      fun h => absurd rfl h⟩
  | cons row rest ih =>
      rw [takeOver]
      by_cases hvault : row.vaultOwner ≠ none
      · rw [if_pos hvault, goesThrough_vault hvault]
        exact ih n m
      have hserver := not_not.mp hvault
      rw [if_neg hvault]
      by_cases hread : fails (.owner m) = true
      · rw [if_pos hread]
        refine iff_of_false (fun h => nomatch h) fun h => ?_
        have hpos : 0 < (serversRows (row :: rest)).length :=
          List.length_pos_of_mem (List.mem_filter.mpr ⟨List.mem_cons_self .., decide_eq_true hserver⟩)
        have hfirst := h.owners 0 hpos
        exact absurd (hread.symm.trans hfirst) (by decide)
      have hfalse := Bool.eq_false_iff.mpr hread
      rw [if_neg hread]
      by_cases hof : ownerOf row.systemId ≠ owner
      · rw [if_pos hof, goesThrough_other hserver hof, and_iff_right hfalse]
        exact ih n (m + 1)
      rw [if_neg hof, goesThrough_owned hserver (not_not.mp hof), and_iff_right hfalse]
      cases hboth : plainAndKey g config dataKey row with
      | none => exact iff_of_false (fun h => nomatch h) fun h => nomatch h.1
      | some both =>
          obtain ⟨plain, key⟩ := both
          rw [and_iff_right ⟨plain, key, rfl⟩]
          dsimp only
          by_cases hwrite : fails (.update n) = true
          · rw [if_pos hwrite]
            exact iff_of_false (fun h => nomatch h) fun h => absurd (hwrite.symm.trans h.1) (by decide)
          · rw [if_neg hwrite, and_iff_right (Bool.eq_false_iff.mpr hwrite)]
            exact ih (n + 1) (m + 1)

-- ── What a vault that was made leaves ────────────────────────────────────────────

variable (g config ownerOf fails)

/-- A key of the account is under the vault, and opens to what it did; any other row is as it was. -/
def TakenOver (key : Bytes) (owner : JsString) (row after : ProviderKeyRow) : Prop :=
  if Owned ownerOf owner row then
    after = { row with sealed := after.sealed, vaultOwner := some owner } ∧
      ∃ plain, openedByServer g config row = some plain ∧
        openBytes g key after.sealed (associatedData row.systemId row.provider) = some plain
  else after = row

theorem takeOver_taken (hg : g.Sound) {key : Bytes} (rows : List ProviderKeyRow) (n m : ℕ)
    (h : (takeOver g config ownerOf fails (some key) owner ivs rows n m).2 = .ok ()) :
    List.Forall₂ (TakenOver g config ownerOf key owner) rows
      (takeOver g config ownerOf fails (some key) owner ivs rows n m).1 := by
  induction rows generalizing n m with
  | nil => exact .nil
  | cons row rest ih =>
      have hnot : ¬ Owned ownerOf owner row → TakenOver g config ownerOf key owner row row := fun ho => by
        rw [TakenOver, if_neg ho]
      rw [takeOver] at h ⊢
      by_cases hvault : row.vaultOwner ≠ none
      · rw [if_pos hvault] at h ⊢
        exact .cons (hnot fun ho => hvault ho.1) (ih n m h)
      rw [if_neg hvault] at h ⊢
      by_cases hread : fails (.owner m) = true
      · rw [if_pos hread] at h
        cases h
      rw [if_neg hread] at h ⊢
      by_cases hof : ownerOf row.systemId ≠ owner
      · rw [if_pos hof] at h ⊢
        exact .cons (hnot fun ho => hof ho.2) (ih n (m + 1) h)
      rw [if_neg hof] at h ⊢
      cases hboth : plainAndKey g config (some key) row with
      | none =>
          rw [hboth] at h
          cases h
      | some both =>
          obtain ⟨plain, key'⟩ := both
          obtain ⟨plain', hplain, hsame⟩ := Option.bind_eq_some_iff.mp hboth
          obtain ⟨rfl, rfl⟩ := Prod.mk.inj (Option.some.inj hsame)
          rw [hboth] at h
          dsimp only at h ⊢
          by_cases hwrite : fails (.update n) = true
          · rw [if_pos hwrite] at h
            cases h
          · rw [if_neg hwrite] at h ⊢
            refine .cons ?_ (ih (n + 1) (m + 1) h)
            rw [TakenOver, if_pos ⟨not_not.mp hvault, not_not.mp hof⟩]
            exact ⟨rfl, plain', hplain, openBytes_self g hg _ _ _ _⟩

/-- No key of the account is there to be taken over. -/
theorem takeOver_none (rows : List ProviderKeyRow) (n m : ℕ) (hnone : ownedRows ownerOf owner rows = [])
    (key : Bytes) :
    List.Forall₂ (TakenOver g config ownerOf key owner) rows
      (takeOver g config ownerOf fails dataKey owner ivs rows n m).1 := by
  have hkept := takeOver_kept g config ownerOf fails dataKey owner ivs rows n m
  have hnot : ∀ row ∈ rows, ¬ Owned ownerOf owner row := by
    intro row hrow howned
    have hmem : row ∈ ownedRows ownerOf owner rows := List.mem_filter.mpr ⟨hrow, decide_eq_true howned⟩
    rw [hnone] at hmem
    cases hmem
  refine (List.forall₂_and_left _ _ |>.mpr ⟨hnot, hkept⟩).imp fun row after h => ?_
  rw [TakenOver, if_neg h.1]
  exact h.2 h.1

/-- **All or nothing**: the recovery key comes back, it opens the vault, and under the vault's key stand
    all keys of the account that were under the server's own; or the tables are what they were. -/
def AllOrNothing (owner : JsString) (recovery : Bytes) (made : KeyStore × Except TakeoverError JsString) : Prop :=
  match made.2 with
  | .ok text =>
      text = grouped (toHex recovery) ∧ ∃ row key, made.1.vaults.row owner = some row ∧
        openBytes g recovery row.wrappedByRecov (vaultAad owner (js "recovery")) = some key ∧
        List.Forall₂ (TakenOver g config ownerOf key owner) k.rows made.1.rows
  | .error _ => made.1.vaults.rows = k.vaults.rows ∧ made.1.rows = k.rows

/-- The vault a `create` makes, where it makes one. -/
theorem create_ok {v : Vaults} {passphrase : JsString} {draws : VaultDraws} {time : ℤ} (hhas : v.has owner = false)
    (hlong : ¬ passphrase.length < PASSPHRASE_MIN) : v.create g owner time passphrase draws =
      ({ v with
          rows := v.rows ++ [Vaults.sealedRow g owner time passphrase draws]
          held := AssocList.set v.held owner ⟨draws.dataKey, time + UNLOCK_TTL_MS⟩ },
        .ok (grouped (toHex draws.recovery))) := by
  rw [Vaults.create, if_neg (by rw [hhas]; exact Bool.false_ne_true), checkPassphrase, if_neg hlong]

theorem create_error {v : Vaults} {passphrase : JsString} (draws : VaultDraws) (time : ℤ)
    (h : v.has owner = true ∨ passphrase.length < PASSPHRASE_MIN) :
    ∃ e, v.create g owner time passphrase draws = (v, .error e) := by
  rw [Vaults.create]
  by_cases hhas : v.has owner = true
  · rw [if_pos hhas]
    exact ⟨_, rfl⟩
  · rw [if_neg hhas, checkPassphrase, if_pos (h.resolve_left hhas)]
    exact ⟨_, rfl⟩

/-- The vaults once the row of a new one is written. -/
def withVault (v : Vaults) (owner passphrase : JsString) (draws : VaultDraws) (time : ℤ) : Vaults :=
  { v with
    rows := v.rows ++ [Vaults.sealedRow g owner time passphrase draws]
    held := AssocList.set v.held owner ⟨draws.dataKey, time + UNLOCK_TTL_MS⟩ }

theorem row_withVault {v : Vaults} {owner : JsString} (hhas : v.has owner = false) (passphrase : JsString)
    (draws : VaultDraws) (time : ℤ) :
    (withVault g v owner passphrase draws time).row owner = some (Vaults.sealedRow g owner time passphrase draws) := by
  rw [Vaults.has, Option.isSome_eq_false_iff, Option.isNone_iff_eq_none] at hhas
  rw [Vaults.row, withVault, List.find?_append, show v.rows.find? _ = none from hhas, Option.none_or]
  exact List.find?_cons_of_pos (beq_self_eq_true owner)

/-- The data key of a new vault, where the sealed hours do not run. -/
theorem dataKey_withVault (v : Vaults) (owner passphrase : JsString) (draws : VaultDraws) (time : ℤ) :
    ((withVault g v owner passphrase draws time).dataKey zones owner time).2 =
        (if v.isSealed zones owner time then none else some draws.dataKey) ∧
      ((withVault g v owner passphrase draws time).dataKey zones owner time).1.rows =
        (withVault g v owner passphrase draws time).rows := by
  have hheld : (withVault g v owner passphrase draws time).held.lookup owner =
      some ⟨draws.dataKey, time + UNLOCK_TTL_MS⟩ := by
    rw [withVault, AssocList.lookup_set, if_pos (beq_self_eq_true owner)]
  have htime : ¬ time + UNLOCK_TTL_MS ≤ time := by
    rw [UNLOCK_TTL_MS]
    omega
  rw [Vaults.dataKey, hheld]
  dsimp only
  by_cases hnow : v.isSealed zones owner time = true
  · rw [if_pos (.inr hnow), if_pos hnow]
    exact ⟨rfl, rfl⟩
  · have hopen : (withVault g v owner passphrase draws time).isSealed zones owner time ≠ true := hnow
    rw [if_neg (not_or.mpr ⟨htime, hopen⟩), if_neg hnow]
    exact ⟨rfl, rfl⟩

/-- **Making a vault is all or nothing** exactly if it is refused before the vault's row is written, or
    nothing throws after that: neither the sealed hours nor the keys fail to be read, nor whose they
    are; every key of the account under the server's own opens and is written back; and the sealed
    hours do not run, if there is such a key. Other accounts' keys are never touched. -/
theorem createVault_allOrNothing_iff (hg : g.Sound) (owner passphrase : JsString) (draws : VaultDraws)
    (ivs : ℕ → Iv) (time : ℤ) :
    (k.AllOrNothing g config ownerOf owner draws.recovery
        (k.createVaultWith g zones config ownerOf fails owner passphrase draws ivs time) ∧
      List.Forall₂ (Kept ownerOf owner) k.rows
        (k.createVaultWith g zones config ownerOf fails owner passphrase draws ivs time).1.rows) ↔
    (fails .exists = true ∨ k.vaults.has owner = true ∨ passphrase.length < PASSPHRASE_MIN ∨ fails .insert = true) ∨
      fails .schedule = false ∧ fails .select = false ∧
        GoesThrough g config ownerOf fails (if k.vaults.isSealed zones owner time then none else some draws.dataKey)
          owner k.rows 0 0 := by
  rw [and_iff_left (othersKept g zones config ownerOf fails k owner passphrase draws ivs time), createVaultWith]
  by_cases hexists : fails .exists = true
  · rw [if_pos hexists]
    exact iff_of_true ⟨rfl, rfl⟩ (.inl (.inl hexists))
  rw [if_neg hexists]
  by_cases hrefused : k.vaults.has owner = true ∨ passphrase.length < PASSPHRASE_MIN
  · obtain ⟨e, he⟩ := create_error g draws time hrefused
    rw [he]
    exact iff_of_true ⟨rfl, rfl⟩ (.inl (.inr (by tauto)))
  obtain ⟨hhas, hlong⟩ := not_or.mp hrefused
  rw [create_ok g (Bool.eq_false_iff.mpr hhas) hlong]
  dsimp only
  rw [show ({ k.vaults with
    rows := k.vaults.rows ++ [Vaults.sealedRow g owner time passphrase draws]
    held := AssocList.set k.vaults.held owner ⟨draws.dataKey, time + UNLOCK_TTL_MS⟩ } : Vaults) =
      withVault g k.vaults owner passphrase draws time from rfl]
  by_cases hinsert : fails .insert = true
  · rw [if_pos hinsert]
    exact iff_of_true ⟨rfl, rfl⟩ (.inl (.inr (.inr (.inr hinsert))))
  rw [if_neg hinsert, or_iff_right (by tauto)]
  -- From here on the vault's row is written, and whatever throws leaves it.
  have hwritten : (withVault g k.vaults owner passphrase draws time).rows ≠ k.vaults.rows :=
    fun h => absurd (congrArg List.length h) (by rw [withVault, List.length_append]; exact Nat.succ_ne_self _)
  obtain ⟨hkey, hrows⟩ := dataKey_withVault g zones k.vaults owner passphrase draws time
  by_cases hschedule : fails .schedule = true
  · rw [if_pos hschedule]
    exact iff_of_false (fun h => hwritten h.1) fun h => absurd (hschedule.symm.trans h.1) (by decide)
  rw [if_neg hschedule, and_iff_right (Bool.eq_false_iff.mpr hschedule)]
  by_cases hselect : fails .select = true
  · rw [if_pos hselect]
    exact iff_of_false (fun h => hwritten (hrows.symm.trans h.1)) fun h =>
      absurd (hselect.symm.trans h.1) (by decide)
  rw [if_neg hselect, and_iff_right (Bool.eq_false_iff.mpr hselect), ← hkey,
    ← (takeOver_ok_iff k.rows 0 0 : (takeOver g config ownerOf fails _ owner ivs k.rows 0 0).2 = .ok () ↔ _)]
  cases hresult : (takeOver g config ownerOf fails
      ((withVault g k.vaults owner passphrase draws time).dataKey zones owner time).2 owner ivs k.rows 0 0).2 with
  | error e =>
      refine iff_of_false (fun h => ?_) fun h => nomatch h
      rw [AllOrNothing] at h
      exact hwritten (hrows.symm.trans h.1)
  | ok done =>
      refine iff_of_true ?_ rfl
      rw [AllOrNothing]
      refine ⟨rfl, Vaults.sealedRow g owner time passphrase draws, draws.dataKey, ?_, openBytes_self g hg _ _ _ _, ?_⟩
      · rw [Vaults.row, hrows]
        exact row_withVault g (Bool.eq_false_iff.mpr hhas) passphrase draws time
      · have hgoes := (takeOver_ok_iff k.rows 0 0).mp hresult
        rw [hkey] at hgoes hresult ⊢
        by_cases hnow : k.vaults.isSealed zones owner time = true
        · refine takeOver_none g config ownerOf fails k.rows 0 0 ?_ draws.dataKey
          by_contra hsome
          obtain ⟨key, hsealed⟩ := hgoes.key hsome
          rw [if_pos hnow] at hsealed
          cases hsealed
        · rw [if_neg hnow] at hresult ⊢
          exact takeOver_taken g config ownerOf fails hg k.rows 0 0 hresult

-- ── A key that does not open ─────────────────────────────────────────────────────

/-- A key of the operator's, sealed under the key of a server that is gone. -/
def foreignRow : ProviderKeyRow :=
  { toyRow with
    sealed := sealBytes toyCipher (List.replicate 32 8) zeroIv (utf8Encode openaiKey)
      (associatedData toySystem .openai) }

def toyDraws : VaultDraws := ⟨List.replicate 32 1, List.replicate 32 2, List.replicate 16 3, zeroIv, zeroIv⟩

/-- The operator has no vault yet, and one key. -/
def withKey (row : ProviderKeyRow) : KeyStore := ⟨⟨[], [], [], []⟩, [row]⟩

def toyVaultMade (row : ProviderKeyRow) : KeyStore × Except TakeoverError JsString :=
  (withKey row).createVaultWith toyCipher utc ⟨serverKey, true⟩ (fun _ => js "operator") (fun _ => false)
    (js "operator") (js "correct horse battery") toyDraws (fun _ => zeroIv) 0

/-- A vault over a key that opens. -/
theorem createVault_allOrNothing_toy :
    (withKey toyRow).AllOrNothing toyCipher ⟨serverKey, true⟩ (fun _ => js "operator") (js "operator")
      toyDraws.recovery (toyVaultMade toyRow) := by
  refine ((createVault_allOrNothing_iff toyCipher utc ⟨serverKey, true⟩ (fun _ => js "operator") (fun _ => false)
    (withKey toyRow) toyCipher_sound (js "operator") (js "correct horse battery") toyDraws (fun _ => zeroIv) 0).mpr
    (.inr ⟨rfl, rfl, fun _ _ => rfl, fun _ _ => rfl, ?_, fun _ => ⟨toyDraws.dataKey, rfl⟩⟩)).1
  intro row hrow
  obtain rfl : row = toyRow := List.mem_singleton.mp (List.mem_of_mem_filter hrow)
  exact ⟨utf8Encode openaiKey, openBytes_self toyCipher toyCipher_sound _ _ _ _⟩

/-- **A key that does not open ends it halfway**: the vault is there, its recovery key is not given
    out, and the key is still sealed as it was. -/
theorem createVault_halfway :
    ¬ (withKey foreignRow).AllOrNothing toyCipher ⟨serverKey, true⟩ (fun _ => js "operator") (js "operator")
      toyDraws.recovery (toyVaultMade foreignRow) := by
  have htag : ¬ (List.replicate 32 8 ++ List.replicate 16 0 : Bytes).take 16 =
      (serverKey ++ List.replicate 16 0).take 16 := by decide
  have hclosed : openedByServer toyCipher ⟨serverKey, true⟩ foreignRow = none := by
    show openBytes toyCipher serverKey foreignRow.sealed _ = none
    rw [foreignRow, openBytes_sealBytes toyCipher toyCipher_sound]
    show (if (List.replicate 32 8 ++ List.replicate 16 0 : Bytes).take 16 =
      (serverKey ++ List.replicate 16 0).take 16 then some (utf8Encode openaiKey) else none) = none
    exact if_neg htag
  obtain ⟨-, hrows⟩ := dataKey_withVault toyCipher utc ⟨[], [], [], []⟩ (js "operator")
    (js "correct horse battery") toyDraws 0
  have hloop : ∀ dataKey, takeOver toyCipher ⟨serverKey, true⟩ (fun _ => js "operator") (fun _ => false) dataKey
      (js "operator") (fun _ => zeroIv) [foreignRow] 0 0 = ([foreignRow], .error (.key .cipher)) := by
    intro dataKey
    have howner : ¬ foreignRow.vaultOwner ≠ none := not_not.mpr rfl
    have hkey : plainAndKey toyCipher ⟨serverKey, true⟩ dataKey foreignRow = none := by
      rw [plainAndKey, hclosed]
      rfl
    rw [takeOver, if_neg howner, if_neg Bool.false_ne_true, if_neg (not_not.mpr rfl), hkey]
  rw [toyVaultMade, createVaultWith, if_neg Bool.false_ne_true, create_ok toyCipher rfl (by decide)]
  dsimp only
  rw [if_neg Bool.false_ne_true, if_neg Bool.false_ne_true, if_neg Bool.false_ne_true, withKey, hloop, AllOrNothing]
  intro h
  exact absurd (hrows.symm.trans h.1) (List.cons_ne_nil _ _)

end KeyStore

end Sigillo
