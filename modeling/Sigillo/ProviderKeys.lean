import Sigillo.Vaults
import Sigillo.StoredReceipts
import Sigillo.StoreRuns

/-!
# Keys of the model providers

The customer's own key for a provider, held for a system so that its agent never has it. Where vaults are
on, a key is sealed under the data key of the account that owns the system; where they are off, under the
server's own. The table of the keys, the vaults and the owners of the systems are kept apart: what a run
does to the three is a step of `KeyWorld`. -/

namespace Sigillo

open Utf16Text JsonText HexBase64 EcmaText

/-- The cloud models the gateway carries. -/
inductive Provider where
  | openai | anthropic | gemini | mistral | groq | openrouter | deepseek | xai | together | fireworks
  | perplexity | cohere | cerebras | moonshot | qwen | zai | nvidia | sambanova
deriving DecidableEq

/-- The word for a provider. -/
def Provider.name : Provider → JsString
  | .openai => js "openai"
  | .anthropic => js "anthropic"
  | .gemini => js "gemini"
  | .mistral => js "mistral"
  | .groq => js "groq"
  | .openrouter => js "openrouter"
  | .deepseek => js "deepseek"
  | .xai => js "xai"
  | .together => js "together"
  | .fireworks => js "fireworks"
  | .perplexity => js "perplexity"
  | .cohere => js "cohere"
  | .cerebras => js "cerebras"
  | .moonshot => js "moonshot"
  | .qwen => js "qwen"
  | .zai => js "zai"
  | .nvidia => js "nvidia"
  | .sambanova => js "sambanova"

/-- What an operation fails with. -/
inductive KeyError where
  /-- The text is not what a provider's key looks like. -/
  | shape
  | vault (error : VaultError)
  /-- The cipher refused what is stored. -/
  | cipher
deriving DecidableEq

/-- A row of the table. -/
structure ProviderKeyRow where
  systemId : SystemId
  provider : Provider
  sealed : Bytes
  last4 : JsString
  createdAt : JsString
  /-- Whose vault seals it; none of one that is sealed under the server's own key. -/
  vaultOwner : Option JsString
deriving DecidableEq

/-- What the console shows of a key. -/
structure ProviderKeyRecord where
  provider : Provider
  last4 : JsString
  createdAt : JsString
deriving DecidableEq

/-- The keys and the vaults. -/
structure KeyStore where
  vaults : Vaults
  rows : List ProviderKeyRow

/-- How this process was started: the server's own key, and whether vaults are on. -/
structure KeyConfig where
  legacyKey : Bytes
  vaultEnabled : Bool

/-- `[A-Za-z0-9_.-]`. -/
def isKeyChar (c : UInt16) : Bool :=
  decide ((0x41 ≤ c.toNat ∧ c.toNat ≤ 0x5A) ∨ (0x61 ≤ c.toNat ∧ c.toNat ≤ 0x7A)
    ∨ (0x30 ≤ c.toNat ∧ c.toNat ≤ 0x39) ∨ c = 0x5F ∨ c = 0x2E ∨ c = 0x2D)

/-- What a provider's key looks like. -/
def HasKeyShape (key : JsString) : Prop := (20 ≤ key.length ∧ key.length ≤ 512) ∧ ∀ c ∈ key, isKeyChar c = true

instance : DecidablePred HasKeyShape := fun _ => inferInstanceAs (Decidable (_ ∧ _))

/-- What a key is sealed with. -/
def associatedData (systemId : SystemId) (provider : Provider) : Bytes :=
  utf8Encode (js "sigillo provider key" ++ [0x0A] ++ systemId.1 ++ [0x0A] ++ provider.name)

variable (g : Cipher) (u : Unicode) (zones : TimeZones) (config : KeyConfig) (ownerOf : SystemId → JsString)

namespace KeyStore

variable (k : KeyStore)

/-- The row of a system's key. -/
def row (systemId : SystemId) (provider : Provider) : Option ProviderKeyRow :=
  k.rows.find? fun r => r.systemId == systemId && r.provider == provider

/-- In the place of the row of that system and provider, or beside the others. -/
def upsert (row : ProviderKeyRow) : KeyStore :=
  { k with rows := k.rows.filter (fun r => !(r.systemId == row.systemId && r.provider == row.provider)) ++ [row] }

/-- The last four characters, for the console. -/
def last4 (key : JsString) : JsString := key.drop (key.length - 4)

/-- **`set`**: saves a key for the system, replacing any it had for that provider. -/
def set (systemId : SystemId) (provider : Provider) (key createdAt : JsString) (time : ℤ) (iv : Iv) :
    KeyStore × Except KeyError ProviderKeyRecord :=
  let cleaned := trim key
  if ¬ HasKeyShape cleaned then (k, .error .shape)
  else
    let saved (k : KeyStore) (dataKey : Bytes) (vaultOwner : Option JsString) :
        KeyStore × Except KeyError ProviderKeyRecord :=
      (k.upsert ⟨systemId, provider, sealBytes g dataKey iv (utf8Encode cleaned) (associatedData systemId provider),
        last4 cleaned, createdAt, vaultOwner⟩, .ok ⟨provider, last4 cleaned, createdAt⟩)
    if config.vaultEnabled then
      let owner := ownerOf systemId
      if ¬ k.vaults.has owner then (k, .error (.vault (.message (js "create the account's vault first"))))
      else
        match k.vaults.dataKey zones owner time with
        | (vaults, none) => ({ k with vaults }, .error (.vault (.locked owner)))
        | (vaults, some dataKey) => saved { k with vaults } dataKey (some owner)
    else saved k config.legacyKey none

/-- What a sealed key opens to. -/
def opened (dataKey : Bytes) (row : ProviderKeyRow) : Except KeyError (Option JsString) :=
  match openBytes g dataKey row.sealed (associatedData row.systemId row.provider) with
  | none => .error .cipher
  | some plain => .ok (some (utf8Decode plain))

/-- **`get`**: the key in the clear for one call to the provider, or none if the system has none. -/
def get (systemId : SystemId) (provider : Provider) (time : ℤ) : KeyStore × Except KeyError (Option JsString) :=
  match k.row systemId provider with
  | none => (k, .ok none)
  | some row =>
      match row.vaultOwner with
      | none => (k, opened g config.legacyKey row)
      | some owner =>
          -- sealed by a vault before the vaults were suspended: it reads as not set
          if ¬ config.vaultEnabled then (k, .ok none)
          else
            match k.vaults.dataKey zones owner time with
            | (vaults, none) => ({ k with vaults }, .error (.vault
                (if vaults.isSealed zones owner time then .sealed owner else .locked owner)))
            | (vaults, some dataKey) => ({ k with vaults }, opened g dataKey row)

/-- The rows once a new vault took over the account's; the error of one that does not open ends it there. -/
def reseal (dataKey : Option Bytes) (owner : JsString) (ivs : ℕ → Iv) :
    List ProviderKeyRow → ℕ → List ProviderKeyRow × Except KeyError Unit
  | [], _ => ([], .ok ())
  | row :: rest, n =>
      if row.vaultOwner = none ∧ ownerOf row.systemId = owner then
        match openBytes g config.legacyKey row.sealed (associatedData row.systemId row.provider), dataKey with
        | some plain, some key =>
            let taken : ProviderKeyRow := { row with
              sealed := sealBytes g key (ivs n) plain (associatedData row.systemId row.provider)
              vaultOwner := some owner }
            let (rows, result) := reseal dataKey owner ivs rest (n + 1)
            (taken :: rows, result)
        | _, _ => (row :: rest, .error .cipher)
      else
        let (rows, result) := reseal dataKey owner ivs rest n
        (row :: rows, result)

/-- **`createVault`**: makes an account's vault, which takes over the account's keys. -/
def createVault (owner passphrase : JsString) (draws : VaultDraws) (ivs : ℕ → Iv) (time : ℤ) :
    KeyStore × Except KeyError JsString :=
  match k.vaults.create g owner time passphrase draws with
  | (vaults, .error e) => ({ k with vaults }, .error (.vault e))
  | (vaults, .ok recovery) =>
      let (vaults, dataKey) := vaults.dataKey zones owner time
      let (rows, result) := reseal g config ownerOf dataKey owner ivs k.rows 0
      ({ vaults, rows }, result.map fun _ => recovery)

/-- `list`. -/
def list (systemId : SystemId) : List ProviderKeyRecord :=
  ((k.rows.filter fun r => r.systemId == systemId).mergeSort fun a b => lexLe a.provider.name b.provider.name).map
    fun r => ⟨r.provider, r.last4, r.createdAt⟩

/-- `remove`. -/
def remove (systemId : SystemId) (provider : Provider) : KeyStore × Bool :=
  let rows := k.rows.filter fun r => !(r.systemId == systemId && r.provider == provider)
  ({ k with rows }, decide (rows.length < k.rows.length))

end KeyStore

-- ── Keys, vaults and owners together ─────────────────────────────────────────────

/-- Whose a system is: of an organization, of the operator alone, or of nobody where there is none. -/
def Database.accountOf (db : Database) (systemId : SystemId) : Option (Option JsString) :=
  (db.systemRow systemId).map (·.organizationId)

/-- The name of an account's vault. -/
def vaultName (account : Option JsString) : JsString := account.getD (js "operator")

/-- Whose vault a system's keys belong to. -/
def Database.vaultOwnerOf (db : Database) (systemId : SystemId) : JsString :=
  vaultName ((db.systemRow systemId).bind (·.organizationId))

/-- A key that was saved, and whose its system was then: the program keeps no such record. -/
structure Saving where
  systemId : SystemId
  provider : Provider
  key : JsString
  account : Option (Option JsString)

/-- The store, the keys beside it, whether this process has vaults on, and what was saved so far. -/
structure KeyWorld where
  store : Store
  keys : KeyStore
  vaultEnabled : Bool
  savings : List Saving

/-- What can happen to a world. -/
inductive KeyStep where
  | store (op : Operation)
  | set (systemId : SystemId) (provider : Provider) (key createdAt : JsString) (time : ℤ) (iv : Iv)
  | get (systemId : SystemId) (provider : Provider) (time : ℤ)
  | remove (systemId : SystemId) (provider : Provider)
  | createVault (owner passphrase : JsString) (draws : VaultDraws) (ivs : ℕ → Iv) (time : ℤ)
  | unlock (owner secret : JsString) (time : ℤ)
  | lock (owner : JsString)
  | isUnlocked (owner : JsString) (time : ℤ)
  | setSchedule (owner : JsString) (schedule : VaultSchedule) (time : ℤ)
  | sweep (time : ℤ)
  | changePassphrase (owner passphrase : JsString) (salt : Bytes) (iv : Iv) (time : ℤ)
  /-- The process ends, and one is started with vaults on or off. -/
  | restart (vaultEnabled : Bool)

namespace KeyWorld

variable (c : Crypto) (key : WriterKey) (legacyKey : Bytes) (w : KeyWorld)

/-- A world with nothing in it. -/
def fresh (vaultEnabled : Bool) : KeyWorld := ⟨.fresh key, ⟨⟨[], [], [], []⟩, []⟩, vaultEnabled, []⟩

/-- The configuration it has. -/
def keyConfig : KeyConfig := ⟨legacyKey, w.vaultEnabled⟩

/-- Its database. -/
def db : Database := w.store.db

/-- The keys of a system go with its row. -/
def dropDeleted (before after : Database) (keys : KeyStore) : KeyStore :=
  { keys with rows := keys.rows.filter fun r =>
      !((before.systemRow r.systemId).isSome && (after.systemRow r.systemId).isNone) }

/-- What is saved is remembered with the account of that moment. -/
def saving (systemId : SystemId) (provider : Provider) (text : JsString) :
    Except KeyError ProviderKeyRecord → List Saving
  | .error _ => []
  | .ok _ => [⟨systemId, provider, trim text, w.db.accountOf systemId⟩]

/-- **One step.** -/
def step : KeyStep → KeyWorld
  | .store op =>
      let store := perform c u key w.store op
      { w with store, keys := dropDeleted w.db store.db w.keys }
  | .set systemId provider text createdAt time iv =>
      let (keys, result) := w.keys.set g zones (w.keyConfig legacyKey) w.db.vaultOwnerOf systemId provider text
        createdAt time iv
      { w with keys, savings := w.savings ++ w.saving systemId provider text result }
  | .get systemId provider time =>
      { w with keys := (w.keys.get g zones (w.keyConfig legacyKey) systemId provider time).1 }
  | .remove systemId provider => { w with keys := (w.keys.remove systemId provider).1 }
  | .createVault owner passphrase draws ivs time =>
      { w with keys := (w.keys.createVault g zones (w.keyConfig legacyKey) w.db.vaultOwnerOf owner passphrase
          draws ivs time).1 }
  | .unlock owner secret time =>
      { w with keys := { w.keys with vaults := (w.keys.vaults.unlock g u zones owner time secret).1 } }
  | .lock owner => { w with keys := { w.keys with vaults := w.keys.vaults.lock owner } }
  | .isUnlocked owner time =>
      { w with keys := { w.keys with vaults := (w.keys.vaults.isUnlocked zones owner time).1 } }
  | .setSchedule owner schedule time =>
      { w with keys := { w.keys with vaults := (w.keys.vaults.setSchedule zones owner time schedule).1 } }
  | .sweep time => { w with keys := { w.keys with vaults := (w.keys.vaults.sweep zones time).1 } }
  | .changePassphrase owner passphrase salt iv time =>
      { w with keys := { w.keys with
          vaults := (w.keys.vaults.changePassphrase g zones owner time passphrase salt iv).1 } }
  | .restart vaultEnabled =>
      { w with vaultEnabled, keys := { w.keys with vaults := { w.keys.vaults with held := [], failures := [] } } }

/-- A run. -/
def run (steps : List KeyStep) : KeyWorld := steps.foldl (step g u zones c key legacyKey) w

end KeyWorld
end Sigillo
