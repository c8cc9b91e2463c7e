import Sigillo.ProviderKeys
import Sigillo.WrittenReceipts
import Mathlib.Logic.Function.Basic

/-!
# Whom a key serves

Under the account's own data key, or the server's: what opens a saved key was set for it, and its vault
stood open. What stands against it is a system that changes hands: its keys stay where they are. In every
run in which no system with a saved key goes to another account, a key serves only the account it was saved
for (**`served_to_its_account`**). -/

namespace Sigillo

open Utf16Text JsonText HexBase64 EcmaText IsoTime

variable {g : Cipher} {u : Unicode} {zones : TimeZones} {keyOf : JsString → Bytes} {v v' : Vaults}

-- ── The vaults ───────────────────────────────────────────────────────────────────

/-- A row that seals an account's data key, under the passphrase and under the recovery key. -/
structure VaultRow.Seals (g : Cipher) (dataKey : Bytes) (r : VaultRow) : Prop where
  byPass : ∃ key iv, r.wrappedByPass = sealBytes g key iv dataKey (vaultAad r.owner (js "pass"))
  byRecov : ∃ key iv, r.wrappedByRecov = sealBytes g key iv dataKey (vaultAad r.owner (js "recovery"))

/-- **Every account has one data key**: what its row seals is what is held for it. -/
structure Vaults.Keyed (g : Cipher) (keyOf : JsString → Bytes) (v : Vaults) : Prop where
  rows : ∀ r ∈ v.rows, r.Seals g (keyOf r.owner)
  held : ∀ owner h, v.held.lookup owner = some h → v.has owner = true ∧ h.dataKey = keyOf owner

/-- What every use of a vault keeps. -/
structure Vaults.Keeps (g : Cipher) (keyOf : JsString → Bytes) (v v' : Vaults) : Prop where
  keyed : v'.Keyed g keyOf
  has : ∀ owner, v.has owner = true → v'.has owner = true

namespace Vaults

/-- An owner has a vault exactly if there is a row. -/
theorem has_iff {owner : JsString} : v.has owner = true ↔ ∃ r ∈ v.rows, r.owner = owner := by
  rw [has, row, List.find?_isSome]
  simp only [beq_iff_eq]

/-- The row found is the owner's. -/
theorem row_some {owner : JsString} {r : VaultRow} (h : v.row owner = some r) : r ∈ v.rows ∧ r.owner = owner :=
  ⟨List.mem_of_find?_eq_some h, by simpa using List.find?_some h⟩

/-- Nothing happened. -/
theorem Keyed.refl (h : v.Keyed g keyOf) : v.Keeps g keyOf v := ⟨h, fun _ hhas => hhas⟩

/-- A vault that is locked is held no longer. -/
theorem lookup_lock {owner other : JsString} :
    (v.lock owner).held.lookup other = if other = owner then none else v.held.lookup other := by
  rw [lock, AssocList.lookup_filter (fun name => name != owner)]
  by_cases hsame : other = owner
  · rw [if_pos hsame, hsame, if_neg (by simp)]
  · rw [if_neg hsame, if_pos (by simpa using hsame)]

/-- Locking takes a data key away. -/
theorem Keyed.lock (h : v.Keyed g keyOf) (owner : JsString) : v.Keeps g keyOf (v.lock owner) where
  keyed := by
    refine ⟨h.rows, fun other held hheld => ?_⟩
    rw [lookup_lock] at hheld
    by_cases hsame : other = owner
    · rw [if_pos hsame] at hheld
      cases hheld
    · rw [if_neg hsame] at hheld
      exact h.held other held hheld
  has := fun _ hhas => hhas

/-- Asking for the key. -/
theorem Keyed.dataKey (h : v.Keyed g keyOf) (owner : JsString) (time : ℤ) :
    v.Keeps g keyOf (v.dataKey zones owner time).1 := by
  rw [Vaults.dataKey]
  cases v.held.lookup owner with
  | none => exact h.refl
  | some held =>
      by_cases hover : held.untilTime ≤ time ∨ v.isSealed zones owner time = true
      · simp only [if_pos hover]
        exact h.lock owner
      · simp only [if_neg hover]
        exact h.refl

/-- **A data key is had only of a vault that is open**: unlocked, its time running, outside its sealed
    hours. -/
theorem dataKey_some {owner : JsString} {time : ℤ} {key : Bytes} (h : v.dataKey zones owner time = (v', some key)) :
    v' = v ∧ v.isSealed zones owner time = false ∧ ∃ held, v.held.lookup owner = some held ∧
      held.dataKey = key ∧ time < held.untilTime := by
  rw [Vaults.dataKey] at h
  cases hheld : v.held.lookup owner with
  | none =>
      rw [hheld] at h
      cases h
  | some held =>
      rw [hheld] at h
      by_cases hover : held.untilTime ≤ time ∨ v.isSealed zones owner time = true
      · simp only [if_pos hover] at h
        cases h
      · simp only [if_neg hover] at h
        cases h
        rw [not_or] at hover
        exact ⟨rfl, by simpa using hover.2, held, rfl, rfl, not_le.mp hover.1⟩

/-- Holding the key of a vault that is there. -/
theorem Keyed.setHeld (h : v.Keyed g keyOf) {owner : JsString} (hhas : v.has owner = true) (untilTime : ℤ) :
    Keyed g keyOf { v with held := AssocList.set v.held owner ⟨keyOf owner, untilTime⟩ } := by
  refine ⟨h.rows, fun other held hheld => ?_⟩
  rw [AssocList.lookup_set] at hheld
  by_cases hsame : other = owner
  · rw [if_pos (by simpa using hsame)] at hheld
    rw [← Option.some.inj hheld, hsame]
    exact ⟨hhas, rfl⟩
  · rw [if_neg (by simpa using hsame)] at hheld
    exact h.held other held hheld

/-- **A secret opens a vault to its data key, or not at all.** -/
theorem tryOpen_eq (hg : g.Sound) (h : v.Keyed g keyOf) {owner secret : JsString} {r : VaultRow} {key : Bytes}
    (hrow : v.row owner = some r) (hopen : tryOpen g u owner secret r = some key) : key = keyOf owner := by
  obtain ⟨hmem, rfl⟩ := row_some hrow
  obtain ⟨⟨passKey, passIv, hpass⟩, recovKey, recovIv, hrecov⟩ := h.rows r hmem
  unfold tryOpen at hopen
  dsimp only at hopen
  split at hopen
  · rw [hrecov] at hopen
    exact openBytes_eq g hg hopen
  · rw [hpass] at hopen
    exact openBytes_eq g hg hopen

/-- Unlocking. -/
theorem Keyed.unlock (hg : g.Sound) (h : v.Keyed g keyOf) (owner secret : JsString) (time : ℤ) :
    v.Keeps g keyOf (v.unlock g u zones owner time secret).1 := by
  rw [Vaults.unlock]
  cases hrow : v.row owner with
  | none => exact h.refl
  | some r =>
      dsimp only
      split
      · exact h.refl
      · split
        · exact h.refl
        · cases hopen : tryOpen g u owner secret r with
          | none => exact ⟨⟨h.rows, h.held⟩, fun _ hhas => hhas⟩
          | some key =>
              rw [tryOpen_eq hg h hrow hopen]
              have hhas : v.has owner = true := by
                rw [has, hrow]
                rfl
              exact ⟨⟨h.rows, (h.setHeld hhas _).held⟩, fun _ hhas => hhas⟩

/-- Setting a schedule. -/
theorem Keyed.setSchedule (h : v.Keyed g keyOf) (owner : JsString) (schedule : VaultSchedule) (time : ℤ) :
    v.Keeps g keyOf (v.setSchedule zones owner time schedule).1 := by
  rw [Vaults.setSchedule]
  split
  · exact h.refl
  · cases checkSchedule zones schedule with
    | error text => exact h.refl
    | ok checked =>
        have hkept : v.Keeps g keyOf { v with schedules := AssocList.set v.schedules owner checked } :=
          ⟨⟨h.rows, h.held⟩, fun _ hhas => hhas⟩
        dsimp only
        split
        · exact ⟨(hkept.keyed.lock owner).keyed, fun _ hhas => hhas⟩
        · exact hkept

/-- One after the other. -/
theorem Keeps.trans {v'' : Vaults} (h : v.Keeps g keyOf v') (h' : v'.Keeps g keyOf v'') : v.Keeps g keyOf v'' :=
  ⟨h'.keyed, fun owner hhas => h'.has owner (h.has owner hhas)⟩

/-- Sweeping. -/
theorem Keyed.sweep (h : v.Keyed g keyOf) (time : ℤ) : v.Keeps g keyOf (v.sweep zones time).1 := by
  rw [Vaults.sweep]
  refine List.foldlRecOn (motive := fun found : Vaults × List JsString => v.Keeps g keyOf found.1) _ _ h.refl ?_
  rintro ⟨v₁, closed⟩ hkept owner -
  have hkeeps : v₁.Keeps g keyOf (v₁.dataKey zones owner time).1 := hkept.keyed.dataKey owner time
  dsimp only
  cases hkey : v₁.dataKey zones owner time with
  | mk v₂ key =>
      rw [hkey] at hkeeps
      cases key with
      | none => exact hkept.trans hkeeps
      | some key => exact hkept.trans hkeeps

/-- Changing the passphrase. -/
theorem Keyed.changePassphrase (h : v.Keyed g keyOf) (owner passphrase : JsString) (salt : Bytes) (iv : Iv)
    (time : ℤ) : v.Keeps g keyOf (v.changePassphrase g zones owner time passphrase salt iv).1 := by
  rw [Vaults.changePassphrase]
  have hkeeps : v.Keeps g keyOf (v.dataKey zones owner time).1 := h.dataKey owner time
  cases hkey : v.dataKey zones owner time with
  | mk v₁ key =>
      rw [hkey] at hkeeps
      cases key with
      | none => exact hkeeps
      | some key =>
          obtain ⟨rfl, -, held, hheld, rfl, -⟩ := dataKey_some hkey
          obtain ⟨-, hdata⟩ := h.held owner held hheld
          cases checkPassphrase passphrase with
          | error e => exact hkeeps
          | ok =>
              have hmap : ∀ (f : VaultRow → VaultRow), (∀ r, (f r).owner = r.owner) → ∀ other,
                  v₁.has other = true → Vaults.has { v₁ with rows := v₁.rows.map f } other = true := by
                intro f hf other hhas
                obtain ⟨r, hr, rfl⟩ := has_iff.mp hhas
                exact has_iff.mpr ⟨_, List.mem_map_of_mem hr, hf r⟩
              have howners : ∀ (salt wrapped : Bytes) (r : VaultRow), (if r.owner == owner then
                  { r with salt, wrappedByPass := wrapped } else r).owner = r.owner := by
                intro salt wrapped r
                split
                · rfl
                · rfl
              refine ⟨⟨?_, fun other held' hheld' => ?_⟩, fun other hhas => ?_⟩
              · intro r hr
                obtain ⟨r₀, hr₀, rfl⟩ := List.mem_map.mp hr
                by_cases howner : r₀.owner = owner
                · rw [if_pos (by simpa using howner)]
                  refine ⟨⟨g.derive passphrase salt, iv, ?_⟩, (h.rows r₀ hr₀).byRecov⟩
                  show sealBytes g _ iv _ _ = sealBytes g _ iv (keyOf r₀.owner) (vaultAad r₀.owner _)
                  rw [hdata, howner]
                · rw [if_neg (by simpa using howner)]
                  exact h.rows r₀ hr₀
              · obtain ⟨hhas, heq⟩ := h.held other held' hheld'
                exact ⟨hmap _ (howners salt _) other hhas, heq⟩
              · exact hmap _ (howners salt _) other hhas

/-- **A new vault has a data key of its own**, and leaves the others theirs. -/
theorem Keyed.create (h : v.Keyed g keyOf) {owner passphrase : JsString} {draws : VaultDraws} {time : ℤ}
    {recovery : JsString} (hcreate : v.create g owner time passphrase draws = (v', .ok recovery)) :
    v.has owner = false ∧ v.Keeps g (Function.update keyOf owner draws.dataKey) v' ∧ v'.has owner = true := by
  rw [Vaults.create] at hcreate
  by_cases hhas : v.has owner = true
  · rw [if_pos hhas] at hcreate
    cases hcreate
  · rw [if_neg hhas] at hcreate
    cases hcheck : checkPassphrase passphrase with
    | error e =>
        rw [hcheck] at hcreate
        cases hcreate
    | ok =>
        rw [hcheck] at hcreate
        obtain ⟨hv, -⟩ := Prod.mk.inj hcreate
        have hrows : v'.rows = v.rows ++ [sealedRow g owner time passphrase draws] := by rw [← hv]
        have hheld : v'.held = AssocList.set v.held owner ⟨draws.dataKey, time + UNLOCK_TTL_MS⟩ := by rw [← hv]
        have hother : ∀ other, v.has other = true → Function.update keyOf owner draws.dataKey other = keyOf other := by
          intro other hsome
          refine Function.update_of_ne ?_ _ _
          rintro rfl
          exact hhas hsome
        have hmore : ∀ other, v.has other = true → v'.has other = true := by
          intro other hsome
          obtain ⟨r, hr, rfl⟩ := has_iff.mp hsome
          exact has_iff.mpr ⟨r, hrows ▸ List.mem_append_left _ hr, rfl⟩
        have hnew : v'.has owner = true :=
          has_iff.mpr ⟨_, hrows ▸ List.mem_append_right _ (List.mem_singleton_self _), rfl⟩
        refine ⟨by simpa using hhas, ⟨⟨fun r hr => ?_, fun other entry hentry => ?_⟩, hmore⟩, hnew⟩
        · rw [hrows] at hr
          rcases List.mem_append.mp hr with hr | hr
          · rw [hother r.owner (has_iff.mpr ⟨r, hr, rfl⟩)]
            exact h.rows r hr
          · rw [List.mem_singleton.mp hr]
            show VaultRow.Seals g (Function.update keyOf owner draws.dataKey owner) _
            rw [Function.update_self]
            exact ⟨⟨_, _, rfl⟩, _, _, rfl⟩
        · rw [hheld, AssocList.lookup_set] at hentry
          by_cases hsame : other = owner
          · rw [if_pos (by simpa using hsame)] at hentry
            rw [← Option.some.inj hentry, hsame, Function.update_self]
            exact ⟨hnew, rfl⟩
          · rw [if_neg (by simpa using hsame)] at hentry
            obtain ⟨hsome, heq⟩ := h.held other entry hentry
            exact ⟨hmore other hsome, heq.trans (hother other hsome).symm⟩

end Vaults

-- ── The saved keys ───────────────────────────────────────────────────────────────

variable {c : Crypto} {key : WriterKey} {legacyKey : Bytes} {w w' : KeyWorld}

/-- **A row that holds what was saved for its system's account**, under the account's vault or under the
    server's own key. -/
structure KeyWorld.Holds (g : Cipher) (legacyKey : Bytes) (keyOf : JsString → Bytes) (w : KeyWorld)
    (row : ProviderKeyRow) (text : JsString) : Prop where
  shape : HasKeyShape text
  saved : ⟨row.systemId, row.provider, text, w.db.accountOf row.systemId⟩ ∈ w.savings
  underServer : row.vaultOwner = none → ∃ iv, row.sealed
    = sealBytes g legacyKey iv (utf8Encode text) (associatedData row.systemId row.provider)
  underVault : ∀ owner, row.vaultOwner = some owner → owner = w.db.vaultOwnerOf row.systemId ∧
    w.keys.vaults.has owner = true ∧ ∃ iv, row.sealed
      = sealBytes g (keyOf owner) iv (utf8Encode text) (associatedData row.systemId row.provider)

/-- **What a run keeps** as long as no system with a saved key changes hands. -/
structure KeyWorld.Kept (g : Cipher) (legacyKey : Bytes) (keyOf : JsString → Bytes) (w : KeyWorld) : Prop where
  keyed : w.keys.vaults.Keyed g keyOf
  rows : ∀ row ∈ w.keys.rows, ∃ text, w.Holds g legacyKey keyOf row text

/-- A key is plain text. -/
theorem HasKeyShape.isWellFormed {text : JsString} (h : HasKeyShape text) : isWellFormed text = true := by
  refine (Scalars.of_ascii fun c hc => ?_).isWellFormed
  have hchar := h.2 c hc
  rw [isKeyChar, decide_eq_true_eq] at hchar
  rcases hchar with hc | hc | hc | rfl | rfl | rfl
  · omega
  · omega
  · omega
  · decide
  · decide
  · decide

/-- The vault of a system is that of its account. -/
theorem Database.vaultOwnerOf_eq (db : Database) (systemId : SystemId) :
    db.vaultOwnerOf systemId = vaultName (db.accountOf systemId).join := by
  rw [vaultOwnerOf, accountOf]
  cases db.systemRow systemId with
  | none => rfl
  | some r => rfl

namespace KeyWorld

/-- A row holds what it held, where its system's account, the savings and the data keys stay. -/
theorem Holds.of {keyOf' : JsString → Bytes} {row : ProviderKeyRow} {text : JsString}
    (h : w.Holds g legacyKey keyOf row text)
    (haccount : w'.db.accountOf row.systemId = w.db.accountOf row.systemId) (hsavings : w.savings ⊆ w'.savings)
    (hhas : ∀ owner, w.keys.vaults.has owner = true → w'.keys.vaults.has owner = true)
    (hkeys : ∀ owner, w.keys.vaults.has owner = true → keyOf' owner = keyOf owner) :
    w'.Holds g legacyKey keyOf' row text where
  shape := h.shape
  saved := by
    rw [haccount]
    exact hsavings h.saved
  underServer := h.underServer
  underVault := by
    intro owner howner
    obtain ⟨hname, hsome, hsealed⟩ := h.underVault owner howner
    rw [hkeys owner hsome, Database.vaultOwnerOf_eq, haccount, ← Database.vaultOwnerOf_eq]
    exact ⟨hname, hhas owner hsome, hsealed⟩

/-- Use of the vaults. -/
theorem Kept.withVaults (h : w.Kept g legacyKey keyOf) {vaults : Vaults}
    (hkeeps : w.keys.vaults.Keeps g keyOf vaults) :
    Kept g legacyKey keyOf { w with keys := { w.keys with vaults } } where
  keyed := hkeeps.keyed
  rows := by
    intro row hrow
    obtain ⟨text, htext⟩ := h.rows row hrow
    exact ⟨text, htext.of rfl (fun _ hs => hs) hkeeps.has fun _ _ => rfl⟩

/-- Rows that go. -/
theorem Kept.subset (h : w.Kept g legacyKey keyOf) {rows : List ProviderKeyRow} (hrows : rows ⊆ w.keys.rows) :
    Kept g legacyKey keyOf { w with keys := { w.keys with rows } } where
  keyed := h.keyed
  rows := by
    intro row hrow
    obtain ⟨text, htext⟩ := h.rows row (hrows hrow)
    exact ⟨text, htext.of rfl (fun _ hs => hs) (fun _ hs => hs) fun _ _ => rfl⟩

/-- A row that is saved stands beside the others. -/
theorem Kept.upsert (h : w.Kept g legacyKey keyOf) {row : ProviderKeyRow} {text : JsString} {saved : List Saving}
    (hrow : Holds g legacyKey keyOf { w with savings := w.savings ++ saved } row text) :
    Kept g legacyKey keyOf { w with keys := w.keys.upsert row, savings := w.savings ++ saved } where
  keyed := h.keyed
  rows := by
    intro other hother
    rcases List.mem_append.mp hother with hother | hother
    · obtain ⟨text, htext⟩ := h.rows other (List.mem_of_mem_filter hother)
      exact ⟨text, htext.of rfl (List.subset_append_left _ _) (fun _ hs => hs) fun _ _ => rfl⟩
    · rw [List.mem_singleton.mp hother]
      exact ⟨text, hrow.of rfl (fun _ hs => hs) (fun _ hs => hs) fun _ _ => rfl⟩

/-- **Saving a key.** -/
theorem Kept.set (h : w.Kept g legacyKey keyOf) (systemId : SystemId) (provider : Provider)
    (text createdAt : JsString) (time : ℤ) (iv : Iv) :
    (step g u zones c key legacyKey w (.set systemId provider text createdAt time iv)).Kept g legacyKey keyOf := by
  show Kept g legacyKey keyOf { w with
    keys := (w.keys.set g zones (w.keyConfig legacyKey) w.db.vaultOwnerOf systemId provider text createdAt time iv).1
    savings := w.savings ++ w.saving systemId provider text
      (w.keys.set g zones (w.keyConfig legacyKey) w.db.vaultOwnerOf systemId provider text createdAt time iv).2 }
  have hnothing : ∀ {vaults : Vaults}, w.keys.vaults.Keeps g keyOf vaults →
      Kept g legacyKey keyOf { w with keys := { w.keys with vaults }, savings := w.savings ++ [] } := by
    intro vaults hkeeps
    rw [List.append_nil]
    exact h.withVaults hkeeps
  rw [KeyStore.set]
  by_cases hshape : HasKeyShape (trim text)
  · simp only [hshape, not_true_eq_false, if_false]
    by_cases henabled : (w.keyConfig legacyKey).vaultEnabled = true
    · simp only [henabled, if_true]
      by_cases hhas : w.keys.vaults.has (w.db.vaultOwnerOf systemId) = true
      · simp only [hhas, not_true_eq_false, if_false]
        have hkeeps : w.keys.vaults.Keeps g keyOf
            (w.keys.vaults.dataKey zones (w.db.vaultOwnerOf systemId) time).1 := h.keyed.dataKey _ time
        cases hkey : w.keys.vaults.dataKey zones (w.db.vaultOwnerOf systemId) time with
        | mk vaults dataKey =>
            rw [hkey] at hkeeps
            cases dataKey with
            | none => exact hnothing hkeeps
            | some dataKey =>
                obtain ⟨rfl, -, held, hheld, rfl, -⟩ := Vaults.dataKey_some hkey
                obtain ⟨-, hdata⟩ := h.keyed.held _ _ hheld
                refine h.upsert ⟨hshape, List.mem_append_right _ (List.mem_singleton_self _), fun hnone => ?_, ?_⟩
                · cases hnone
                · rintro owner ⟨⟩
                  exact ⟨rfl, hhas, iv, by rw [hdata]⟩
      · simp only [hhas]
        exact hnothing h.keyed.refl
    · simp only [henabled]
      refine h.upsert ⟨hshape, List.mem_append_right _ (List.mem_singleton_self _), fun _ => ⟨iv, rfl⟩, ?_⟩
      rintro owner ⟨⟩
  · simp only [hshape, not_false_eq_true, if_true]
    exact hnothing h.keyed.refl

/-- **What a new vault takes over**: a key of the account opens to what was saved, and is sealed again. -/
theorem reseal_holds (hg : g.Sound) {owner : JsString} {ivs : ℕ → Iv} {dataKey : Option Bytes} (hdata : ∀ key, dataKey = some key → w.keys.vaults.has owner = true ∧ key = keyOf owner)
    {rows : List ProviderKeyRow} (hrows : ∀ row ∈ rows, ∃ text, w.Holds g legacyKey keyOf row text) (n : ℕ) :
    ∀ row ∈ (KeyStore.reseal g (w.keyConfig legacyKey) w.db.vaultOwnerOf dataKey owner ivs rows n).1,
      ∃ text, w.Holds g legacyKey keyOf row text := by
  induction rows generalizing n with
  | nil => exact fun row hrow => absurd hrow List.not_mem_nil
  | cons first rest ih =>
      have hfirst := hrows first List.mem_cons_self
      have hrest := fun row hrow => hrows row (List.mem_cons_of_mem _ hrow)
      intro row hrow
      unfold KeyStore.reseal at hrow
      by_cases htaken : first.vaultOwner = none ∧ w.db.vaultOwnerOf first.systemId = owner
      · rw [if_pos htaken] at hrow
        cases hopen : openBytes g (w.keyConfig legacyKey).legacyKey first.sealed
            (associatedData first.systemId first.provider) with
        | none =>
            simp only [hopen] at hrow
            exact hrows row hrow
        | some plain =>
            simp only [hopen] at hrow
            cases dataKey with
            | none => exact hrows row hrow
            | some key =>
                rcases List.mem_cons.mp hrow with rfl | hrow
                · -- it opens to the text that was saved, and is sealed under the account's data key
                  obtain ⟨text, hshape, hsaved, hserver, -⟩ := hfirst
                  obtain ⟨iv, hsealed⟩ := hserver htaken.1
                  rw [hsealed] at hopen
                  obtain rfl := openBytes_eq g hg hopen
                  obtain ⟨hhas, rfl⟩ := hdata key rfl
                  refine ⟨text, hshape, hsaved, fun hnone => ?_, ?_⟩
                  · cases hnone
                  · rintro other ⟨⟩
                    exact ⟨htaken.2.symm, hhas, ivs n, rfl⟩
                · exact ih hrest (n + 1) row hrow
      · rw [if_neg htaken] at hrow
        rcases List.mem_cons.mp hrow with rfl | hrow
        · exact hfirst
        · exact ih hrest n row hrow

/-- **Making a vault.** -/
theorem Kept.createVault (hg : g.Sound) (h : w.Kept g legacyKey keyOf) (owner passphrase : JsString)
    (draws : VaultDraws) (ivs : ℕ → Iv) (time : ℤ) : ∃ keyOf',
    (step g u zones c key legacyKey w (.createVault owner passphrase draws ivs time)).Kept g legacyKey keyOf' := by
  show ∃ keyOf', Kept g legacyKey keyOf' { w with keys :=
    (w.keys.createVault g zones (w.keyConfig legacyKey) w.db.vaultOwnerOf owner passphrase draws ivs time).1 }
  rw [KeyStore.createVault]
  cases hcreate : w.keys.vaults.create g owner time passphrase draws with
  | mk vaults result =>
      cases result with
      | error e =>
          -- a refused vault changes nothing
          have hsame : vaults = w.keys.vaults := by
            rw [Vaults.create] at hcreate
            split at hcreate
            · exact (Prod.mk.inj hcreate).1.symm
            · split at hcreate
              · exact (Prod.mk.inj hcreate).1.symm
              · cases (Prod.mk.inj hcreate).2
          exact ⟨keyOf, hsame ▸ h⟩
      | ok recovery =>
          obtain ⟨hnew, hkeeps, hhas⟩ := h.keyed.create hcreate
          have hdataKey : vaults.Keeps g (Function.update keyOf owner draws.dataKey)
              (vaults.dataKey zones owner time).1 := hkeeps.keyed.dataKey owner time
          refine ⟨Function.update keyOf owner draws.dataKey, ?_⟩
          cases hkey : vaults.dataKey zones owner time with
          | mk opened dataKey =>
              rw [hkey] at hdataKey
              have hall : ∀ row ∈ w.keys.rows, ∃ text, Holds g legacyKey (Function.update keyOf owner draws.dataKey)
                  { w with keys := { w.keys with vaults := opened } } row text := by
                intro row hrow
                obtain ⟨text, htext⟩ := h.rows row hrow
                refine ⟨text, htext.of rfl (fun _ hs => hs) (hkeeps.trans hdataKey).has fun other hother => ?_⟩
                refine Function.update_of_ne ?_ _ _
                rintro rfl
                rw [hother] at hnew
                cases hnew
              have hdata : ∀ k, dataKey = some k →
                  opened.has owner = true ∧ k = Function.update keyOf owner draws.dataKey owner := by
                rintro k rfl
                obtain ⟨rfl, -, held, hheld, rfl, -⟩ := Vaults.dataKey_some hkey
                exact hdataKey.keyed.held _ _ hheld
              simp only [hkey]
              refine ⟨hdataKey.keyed, fun row hrow => ?_⟩
              obtain ⟨text, htext⟩ := reseal_holds (w := { w with keys := { w.keys with vaults := opened } }) hg
                hdata hall 0 row hrow
              exact ⟨text, htext.of rfl (fun _ hs => hs) (fun _ hs => hs) fun _ _ => rfl⟩

/-- **A step moves no key**: the systems of the keys that stay are whose they were. -/
def KeepsAccounts (before after : KeyWorld) : Prop :=
  ∀ row ∈ after.keys.rows, after.db.accountOf row.systemId = before.db.accountOf row.systemId

/-- **One step keeps what is saved**, where it moves no key. -/
theorem Kept.step (hg : g.Sound) (h : w.Kept g legacyKey keyOf) {s : KeyStep}
    (hmoves : KeepsAccounts w (step g u zones c key legacyKey w s)) : ∃ keyOf',
    (step g u zones c key legacyKey w s).Kept g legacyKey keyOf' := by
  cases s with
  | store op =>
      refine ⟨keyOf, h.keyed, fun row hrow => ?_⟩
      obtain ⟨text, htext⟩ := h.rows row (List.mem_of_mem_filter hrow)
      exact ⟨text, htext.of (hmoves row hrow) (fun _ hs => hs) (fun _ hs => hs) fun _ _ => rfl⟩
  | set systemId provider text createdAt time iv => exact ⟨keyOf, h.set systemId provider text createdAt time iv⟩
  | get systemId provider time =>
      refine ⟨keyOf, ?_⟩
      show Kept g legacyKey keyOf { w with keys :=
        (w.keys.get g zones (w.keyConfig legacyKey) systemId provider time).1 }
      rw [KeyStore.get]
      cases w.keys.row systemId provider with
      | none => exact h
      | some row =>
          cases howner : row.vaultOwner with
          | none =>
              simp only [howner]
              exact h
          | some owner =>
              simp only [howner]
              split
              · exact h
              · have hkeeps : w.keys.vaults.Keeps g keyOf (w.keys.vaults.dataKey zones owner time).1 :=
                  h.keyed.dataKey owner time
                cases hkey : w.keys.vaults.dataKey zones owner time with
                | mk vaults dataKey =>
                    rw [hkey] at hkeeps
                    cases dataKey with
                    | none => exact h.withVaults hkeeps
                    | some dataKey => exact h.withVaults hkeeps
  | remove systemId provider => exact ⟨keyOf, h.subset (List.filter_subset_self _)⟩
  | createVault owner passphrase draws ivs time => exact h.createVault hg owner passphrase draws ivs time
  | unlock owner secret time => exact ⟨keyOf, h.withVaults (h.keyed.unlock hg owner secret time)⟩
  | lock owner => exact ⟨keyOf, h.withVaults (h.keyed.lock owner)⟩
  | isUnlocked owner time => exact ⟨keyOf, h.withVaults (h.keyed.dataKey owner time)⟩
  | setSchedule owner schedule time => exact ⟨keyOf, h.withVaults (h.keyed.setSchedule owner schedule time)⟩
  | sweep time => exact ⟨keyOf, h.withVaults (h.keyed.sweep time)⟩
  | changePassphrase owner passphrase salt iv time =>
      exact ⟨keyOf, h.withVaults (h.keyed.changePassphrase owner passphrase salt iv time)⟩
  | restart vaultEnabled =>
      have hempty : w.keys.vaults.Keeps g keyOf { w.keys.vaults with held := [], failures := [] } :=
        ⟨⟨h.keyed.rows, fun owner held hheld => by cases hheld⟩, fun _ hs => hs⟩
      refine ⟨keyOf, hempty.keyed, fun row hrow => ?_⟩
      obtain ⟨text, htext⟩ := h.rows row hrow
      exact ⟨text, htext.of rfl (fun _ hs => hs) (fun _ hs => hs) fun _ _ => rfl⟩

-- ── Every call ───────────────────────────────────────────────────────────────────

/-- **A key serves its account only**: what `get` returns for a system was saved while the system was of
    the account it is of now, and the vault it is under, if it is under one, is that account's, unlocked
    and outside its sealed hours. -/
def ServesItsAccount (g : Cipher) (zones : TimeZones) (legacyKey : Bytes) (w : KeyWorld) : Prop :=
  ∀ systemId provider time text,
    (w.keys.get g zones (w.keyConfig legacyKey) systemId provider time).2 = .ok (some text) →
    ∀ account, w.db.accountOf systemId = some account →
      ⟨systemId, provider, text, some account⟩ ∈ w.savings ∧
      ∀ row owner, w.keys.row systemId provider = some row → row.vaultOwner = some owner →
        owner = vaultName account ∧ (w.keys.vaults.isUnlocked zones owner time).2 = true ∧
          w.keys.vaults.isSealed zones owner time = false

/-- The row found is the system's, of the provider. -/
theorem row_some {k : KeyStore} {systemId : SystemId} {provider : Provider} {row : ProviderKeyRow}
    (h : k.row systemId provider = some row) : row ∈ k.rows ∧ row.systemId = systemId ∧ row.provider = provider := by
  have hfound := List.find?_some h
  rw [Bool.and_eq_true, beq_iff_eq, beq_iff_eq] at hfound
  exact ⟨List.mem_of_find?_eq_some h, hfound⟩

/-- What a row that was sealed opens to. -/
theorem opened_eq (hg : g.Sound) {row : ProviderKeyRow} {dataKey dataKey' : Bytes} {iv : Iv} {text other : JsString}
    (hshape : HasKeyShape text)
    (hsealed : row.sealed = sealBytes g dataKey iv (utf8Encode text) (associatedData row.systemId row.provider))
    (h : KeyStore.opened g dataKey' row = .ok (some other)) : other = text := by
  rw [KeyStore.opened, hsealed] at h
  cases hopen : openBytes g dataKey' (sealBytes g dataKey iv (utf8Encode text)
      (associatedData row.systemId row.provider)) (associatedData row.systemId row.provider) with
  | none =>
      rw [hopen] at h
      cases h
  | some plain =>
      rw [hopen] at h
      obtain rfl := openBytes_eq g hg hopen
      rw [← Option.some.inj (Except.ok.inj h), utf8Decode_utf8Encode hshape.isWellFormed]

/-- **What holds of the rows serves each account its own keys.** -/
theorem Kept.serves (hg : g.Sound) (h : w.Kept g legacyKey keyOf) : ServesItsAccount g zones legacyKey w := by
  intro systemId provider time text hget account haccount
  rw [KeyStore.get] at hget
  cases hrow : w.keys.row systemId provider with
  | none =>
      rw [hrow] at hget
      cases hget
  | some row =>
      obtain ⟨hmem, rfl, rfl⟩ := row_some hrow
      obtain ⟨saved, hsaved⟩ := h.rows row hmem
      rw [hrow] at hget
      have hsaving := hsaved.saved
      rw [haccount] at hsaving
      cases howner : row.vaultOwner with
      | none =>
          simp only [howner] at hget
          obtain ⟨iv, hsealed⟩ := hsaved.underServer howner
          rw [opened_eq hg hsaved.shape hsealed hget]
          refine ⟨hsaving, ?_⟩
          rintro _ owner ⟨⟩ hother
          rw [howner] at hother
          cases hother
      | some owner =>
          simp only [howner] at hget
          obtain ⟨hname, -, iv, hsealed⟩ := hsaved.underVault owner howner
          split at hget
          · cases hget
          · cases hkey : w.keys.vaults.dataKey zones owner time with
            | mk vaults dataKey =>
                rw [hkey] at hget
                cases dataKey with
                | none => cases hget
                | some dataKey =>
                    obtain ⟨-, hsealedHours, -⟩ := Vaults.dataKey_some hkey
                    rw [opened_eq hg hsaved.shape hsealed hget]
                    refine ⟨hsaving, ?_⟩
                    rintro _ other ⟨⟩ hother
                    rw [howner] at hother
                    obtain rfl := Option.some.inj hother
                    refine ⟨?_, ?_, hsealedHours⟩
                    · rw [hname, Database.vaultOwnerOf_eq, haccount]
                      rfl
                    · rw [Vaults.isUnlocked, hkey]
                      rfl

/-- A run and one step more. -/
theorem run_append_singleton (before : List KeyStep) (s : KeyStep) :
    w.run g u zones c key legacyKey (before ++ [s])
      = (w.run g u zones c key legacyKey before).step g u zones c key legacyKey s := by
  rw [run, List.foldl_append]
  rfl

/-- **Every run that moves no key**: in every world it reaches, a key serves the account it was saved for. -/
theorem served_to_its_account (hg : g.Sound) (vaultEnabled : Bool) {steps : List KeyStep}
    (hmoves : ∀ before s after, steps = before ++ s :: after →
      KeepsAccounts ((fresh key vaultEnabled).run g u zones c key legacyKey before)
        ((fresh key vaultEnabled).run g u zones c key legacyKey (before ++ [s])))
    {reached : List KeyStep} (hreached : reached <+: steps) :
    ServesItsAccount g zones legacyKey ((fresh key vaultEnabled).run g u zones c key legacyKey reached) := by
  suffices hkept : ∃ keyOf, Kept g legacyKey keyOf ((fresh key vaultEnabled).run g u zones c key legacyKey reached) by
    obtain ⟨keyOf, hkept⟩ := hkept
    exact hkept.serves hg
  induction reached using List.reverseRecOn with
  | nil =>
      refine ⟨fun _ => [], ⟨fun r hr => absurd hr List.not_mem_nil, fun owner held hheld => by cases hheld⟩, ?_⟩
      exact fun row hrow => absurd hrow List.not_mem_nil
  | append_singleton before s ih =>
      obtain ⟨after, rfl⟩ := hreached
      obtain ⟨keyOf, hkept⟩ := ih ⟨s :: after, by rw [List.append_assoc, List.singleton_append]⟩
      have hstep : KeepsAccounts ((fresh key vaultEnabled).run g u zones c key legacyKey before)
          ((fresh key vaultEnabled).run g u zones c key legacyKey (before ++ [s])) :=
        hmoves before s after (by rw [List.append_assoc, List.singleton_append])
      rw [run_append_singleton] at hstep ⊢
      exact hkept.step hg hstep

end KeyWorld

-- ── A system that changes hands ──────────────────────────────────────────────────

/-- A cipher whose tag is the beginning of the key. -/
def toyCipher : Cipher where
  encrypt key _ _ plain := (plain, (key ++ List.replicate 16 0).take 16)
  decrypt key _ _ sealed := if sealed.2 = (key ++ List.replicate 16 0).take 16 then some sealed.1 else none
  derive _ salt := salt

/-- The toy cipher opens what it sealed. -/
theorem toyCipher_sound : toyCipher.Sound where
  tag := by
    intro key iv aad plain
    show ((key ++ List.replicate 16 0).take 16).length = 16
    rw [List.length_take, List.length_append, List.length_replicate]
    omega
  decrypts := fun key iv aad plain => if_pos rfl
  nothingElse := by
    intro key iv aad plain key' aad' other h
    rw [toyCipher] at h
    dsimp only at h
    split at h
    · exact (Option.some.inj h).symm
    · cases h

/-- Time zones with one of them. -/
def utc : TimeZones := ⟨fun name => name == js "UTC", fun _ _ => (0, 0, 0)⟩

/-- The server's key. -/
def serverKey : Bytes := List.replicate 32 7

/-- A provider's key. -/
def openaiKey : JsString := js "sk-proj-0123456789abcdef"

/-- An initialization vector. -/
def zeroIv : Iv := ⟨List.replicate 12 0, by decide⟩

/-- The key is set for the toy system. -/
def toySet : KeyStep := .set toySystem .openai openaiKey newYear.1 0 zeroIv

/-- The toy world without vaults. -/
def toyKeys (steps : List KeyStep) : KeyWorld :=
  (KeyWorld.fresh toyWriter false).run toyCipher ⟨id, id, id⟩ utc tellingCrypto toyWriter serverKey steps

/-- An account, a system of it, and the system's key. -/
def acmeSteps : List KeyStep :=
  [.store (.createOrganization (js "acme") (js "Acme") acmeRequest true),
    .store (.createSystem toySystem newYear (some (js "acme")) toyReplies), toySet]

/-- The row of the toy key, under the server's own. -/
def toyRow : ProviderKeyRow :=
  ⟨toySystem, .openai, sealBytes toyCipher serverKey zeroIv (utf8Encode openaiKey)
    (associatedData toySystem .openai), KeyStore.last4 openaiKey, newYear.1, none⟩

/-- It has a key's shape. -/
theorem openaiKey_shape : HasKeyShape openaiKey := by decide

/-- What setting it leaves. -/
theorem step_toySet {w : KeyWorld} (h : w.vaultEnabled = false) :
    w.step toyCipher ⟨id, id, id⟩ utc tellingCrypto toyWriter serverKey toySet =
      { w with
        keys := w.keys.upsert toyRow
        savings := w.savings ++ [⟨toySystem, .openai, openaiKey, w.db.accountOf toySystem⟩] } := by
  have htrim : trim openaiKey = openaiKey := by decide
  have hset : w.keys.set toyCipher utc (w.keyConfig serverKey) w.db.vaultOwnerOf toySystem .openai openaiKey
      newYear.1 0 zeroIv = (w.keys.upsert toyRow, .ok ⟨.openai, KeyStore.last4 openaiKey, newYear.1⟩) := by
    rw [KeyStore.set, htrim]
    dsimp only
    rw [if_neg (not_not.mpr openaiKey_shape), KeyWorld.keyConfig, h]
    rfl
  rw [toySet, KeyWorld.step, hset]
  show ({ w with
    keys := w.keys.upsert toyRow
    savings := w.savings ++ [⟨toySystem, .openai, trim openaiKey, w.db.accountOf toySystem⟩] } : KeyWorld) = _
  rw [htrim]

/-- What the row of the toy key opens to. -/
theorem opened_toyRow : KeyStore.opened toyCipher serverKey toyRow = .ok (some openaiKey) := by
  have hopen : openBytes toyCipher serverKey toyRow.sealed (associatedData toyRow.systemId toyRow.provider)
      = some (utf8Encode openaiKey) := openBytes_self toyCipher toyCipher_sound _ _ _ _
  rw [KeyStore.opened, hopen]
  dsimp only
  rw [utf8Decode_utf8Encode openaiKey_shape.isWellFormed]

/-- The toy key of a system of the account. -/
theorem toyKeys_acme : ∃ history, toyKeys acmeSteps =
    ⟨⟨toyOpened tellingCrypto acmeStore.db (some (js "acme")), [], history⟩, ⟨⟨[], [], [], []⟩, [toyRow]⟩, false,
      [⟨toySystem, .openai, openaiKey, some (some (js "acme"))⟩]⟩ := by
  have hempty : acmeStore.db.NoChains := ⟨rfl, rfl, rfl, rfl, fun _ => rfl⟩
  rw [toyKeys, acmeSteps, KeyWorld.run, List.foldl_cons, List.foldl_cons, List.foldl_cons, List.foldl_nil]
  have hfirst : (KeyWorld.fresh toyWriter false).step toyCipher ⟨id, id, id⟩ utc tellingCrypto toyWriter serverKey
      (.store (.createOrganization (js "acme") (js "Acme") acmeRequest true))
      = ⟨acmeStore, ⟨⟨[], [], [], []⟩, []⟩, false, []⟩ := by
    rw [KeyWorld.step]
    show (⟨(createOrganization (Store.fresh toyWriter) (js "acme") (js "Acme") acmeRequest true).1, _, _, _⟩ :
      KeyWorld) = _
    rw [createOrganization_acme]
    rfl
  rw [hfirst, step_toySet rfl]
  rw [KeyWorld.step, perform, createSystem_toy hempty (by decide) rfl]
  exact ⟨_, rfl⟩

/-- No step of the account's moves its key, and a call of its system is made with it. -/
theorem served_to_its_account_acme :
    KeyWorld.ServesItsAccount toyCipher utc serverKey (toyKeys acmeSteps) ∧
      ((toyKeys acmeSteps).keys.get toyCipher utc ((toyKeys acmeSteps).keyConfig serverKey) toySystem .openai 0).2
        = .ok (some openaiKey) := by
  constructor
  · refine KeyWorld.served_to_its_account (u := ⟨id, id, id⟩) (c := tellingCrypto) toyCipher_sound false (fun before s after hsteps => ?_) (List.prefix_refl acmeSteps)
    -- there is no row before the key is set, and setting it leaves the store alone
    rcases before with _ | ⟨s₁, _ | ⟨s₂, _ | ⟨s₃, before⟩⟩⟩
    · obtain ⟨h₁, -⟩ := List.cons.inj hsteps
      subst h₁
      exact fun row hrow => absurd hrow List.not_mem_nil
    · obtain ⟨h₁, hrest⟩ := List.cons.inj hsteps
      obtain ⟨h₂, -⟩ := List.cons.inj hrest
      subst h₁ h₂
      exact fun row hrow => absurd hrow List.not_mem_nil
    · obtain ⟨h₁, hrest⟩ := List.cons.inj hsteps
      obtain ⟨h₂, hlast⟩ := List.cons.inj hrest
      obtain ⟨h₃, -⟩ := List.cons.inj hlast
      subst h₁ h₂ h₃
      exact fun row hrow => rfl
    · have hlength := congrArg List.length hsteps
      rw [List.length_append, List.length_cons, List.length_cons, List.length_cons, List.length_cons] at hlength
      exact absurd hlength (by rw [show acmeSteps.length = 3 from rfl]; omega)
  · obtain ⟨history, hacme⟩ := toyKeys_acme
    rw [hacme]
    exact opened_toyRow

/-- **The operator takes a system back, and the customer's key with it**: every call of the system is then
    made with the key the customer saved. -/
theorem key_serves_next_owner :
    let w := toyKeys (acmeSteps ++ [.store (.assignSystem toySystem none acmeRequest)])
    (w.keys.get toyCipher utc (w.keyConfig serverKey) toySystem .openai 0).2 = .ok (some openaiKey) ∧
      w.db.accountOf toySystem = some none ∧ w.savings.map Saving.account = [some (some (js "acme"))] ∧
      ¬ KeyWorld.ServesItsAccount toyCipher utc serverKey w := by
  intro w
  obtain ⟨history, hacme⟩ := toyKeys_acme
  obtain ⟨db, hw, hsystems⟩ : ∃ db, w = ⟨⟨db, [], history ++ []⟩, ⟨⟨[], [], [], []⟩, [toyRow]⟩, false,
      [⟨toySystem, .openai, openaiKey, some (some (js "acme"))⟩]⟩ ∧
      db.systems = [⟨toySystem, newYear, none, none, none⟩] := by
    have hrun : w = (toyKeys acmeSteps).step toyCipher ⟨id, id, id⟩ utc tellingCrypto toyWriter serverKey
        (.store (.assignSystem toySystem none acmeRequest)) := KeyWorld.run_append_singleton acmeSteps _
    rw [hrun, hacme]
    exact ⟨(assignSystem ⟨toyOpened tellingCrypto acmeStore.db (some (js "acme")), [], history⟩ toySystem none
      acmeRequest).1.db, rfl, rfl⟩
  have haccount : w.db.accountOf toySystem = some none := by
    rw [hw]
    show (db.systems.find? _).map _ = _
    rw [hsystems]
    decide
  have hget : (w.keys.get toyCipher utc (w.keyConfig serverKey) toySystem .openai 0).2 = .ok (some openaiKey) := by
    rw [hw]
    exact opened_toyRow
  refine ⟨hget, haccount, by rw [hw]; rfl, fun h => ?_⟩
  have hsaved := (h toySystem .openai 0 openaiKey hget none haccount).1
  rw [hw, List.mem_singleton] at hsaved
  cases hsaved

end Sigillo
