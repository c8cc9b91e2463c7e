import Sigillo.SealedHours
import Sigillo.ChainEvents
import Sigillo.AssocList
import Sigillo.DateText

/-!
# Vaults

Each account's data key, sealed under what its owner keeps: a key derived from the passphrase, and a
recovery key. The data key itself is only ever in memory, from the time the owner unlocks the vault until
it is locked, its time runs out or its sealed hours begin. The cipher is the platform's: what is relied
on is that what was sealed opens again, and opens to nothing else (`Cipher.Sound`). -/

namespace Sigillo

open Utf16Text JsonText HexBase64 EcmaText

-- ── Sealing ──────────────────────────────────────────────────────────────────────

/-- A nonce of the cipher. -/
abbrev Iv := { b : Bytes // b.length = 12 }

/-- AES-256-GCM and scrypt. -/
structure Cipher where
  /-- The ciphertext and the tag of a plaintext, from a key, a nonce and associated data. -/
  encrypt : Bytes → Bytes → Bytes → Bytes → Bytes × Bytes
  decrypt : Bytes → Bytes → Bytes → Bytes × Bytes → Option Bytes
  /-- The key of a passphrase and a salt. -/
  derive : JsString → Bytes → Bytes

/-- **What the cipher promises**: what it encrypted decrypts, and to nothing else under any key. -/
structure Cipher.Sound (g : Cipher) : Prop where
  tag : ∀ key iv aad plain, (g.encrypt key iv aad plain).2.length = 16
  decrypts : ∀ key iv aad plain, g.decrypt key iv aad (g.encrypt key iv aad plain) = some plain
  nothingElse : ∀ key iv aad plain key' aad' other,
    g.decrypt key' iv aad' (g.encrypt key iv aad plain) = some other → other = plain

variable (g : Cipher) (u : Unicode) (zones : TimeZones)

def sealBytes (key : Bytes) (iv : Iv) (plain aad : Bytes) : Bytes :=
  iv.1 ++ (g.encrypt key iv.1 aad plain).1 ++ (g.encrypt key iv.1 aad plain).2

/-- `open`; `none` where it throws. -/
def openBytes (key sealed aad : Bytes) : Option Bytes :=
  g.decrypt key (sealed.take 12) aad
    ((sealed.take (sealed.length - 16)).drop 12, sealed.drop (sealed.length - 16))

/-- What is sealed is cut where it was joined. -/
theorem openBytes_sealBytes (hg : g.Sound) (key key' : Bytes) (iv : Iv) (plain aad aad' : Bytes) :
    openBytes g key' (sealBytes g key iv plain aad) aad'
      = g.decrypt key' iv.1 aad' (g.encrypt key iv.1 aad plain) := by
  have htag := hg.tag key iv.1 aad plain
  have hiv := iv.2
  rw [openBytes, sealBytes]
  generalize g.encrypt key iv.1 aad plain = sealed at htag
  obtain ⟨text, tag⟩ := sealed
  have hcut : (iv.1 ++ text ++ tag).length - 16 = (iv.1 ++ text).length := by
    rw [List.length_append, show tag.length = 16 from htag]
    rfl
  show g.decrypt key' ((iv.1 ++ text ++ tag).take 12) aad' (((iv.1 ++ text ++ tag).take _).drop 12, _) = _
  rw [hcut, List.take_left, List.drop_left, List.append_assoc, List.take_left' hiv, List.drop_left' hiv]

theorem openBytes_self (hg : g.Sound) (key : Bytes) (iv : Iv) (plain aad : Bytes) :
    openBytes g key (sealBytes g key iv plain aad) aad = some plain := by
  rw [openBytes_sealBytes g hg, hg.decrypts]

theorem openBytes_eq (hg : g.Sound) {key key' : Bytes} {iv : Iv} {plain aad aad' other : Bytes}
    (h : openBytes g key' (sealBytes g key iv plain aad) aad' = some other) : other = plain := by
  rw [openBytes_sealBytes g hg] at h
  exact hg.nothingElse _ _ _ _ _ _ _ h

-- ── The vaults of the accounts ───────────────────────────────────────────────────

def PASSPHRASE_MIN : ℕ := 12

def UNLOCK_TTL_MS : ℤ := 12 * 3600000

def GUESSES : ℕ := 5

def GUESS_WINDOW_MS : ℤ := 15 * 60000

inductive VaultError where
  | message (text : JsString)
  /-- The owner has not entered the passphrase, or the unlocked time ran out. -/
  | locked (owner : JsString)
  /-- It cannot be opened until the window ends. -/
  | sealed (owner : JsString)
deriving DecidableEq

/-- The row of an account's vault: the data key sealed twice. -/
structure VaultRow where
  owner : JsString
  salt : Bytes
  wrappedByPass : Bytes
  wrappedByRecov : Bytes
  createdAt : JsString
deriving DecidableEq

/-- A data key in memory. -/
structure Held where
  dataKey : Bytes
  untilTime : ℤ
deriving DecidableEq

/-- **The vaults**: their rows and schedules, and what this process holds of them. -/
structure Vaults where
  rows : List VaultRow
  schedules : List (JsString × VaultSchedule)
  held : List (JsString × Held)
  failures : List (JsString × List ℤ)

/-- What making a vault draws. -/
structure VaultDraws where
  dataKey : Bytes
  recovery : Bytes
  salt : Bytes
  passIv : Iv
  recoveryIv : Iv

def vaultAad (owner kind : JsString) : Bytes :=
  utf8Encode (js "sigillo vault " ++ kind ++ [0x0A] ++ owner)

def noVault : VaultError := .message (js "this account has no vault yet")

def checkPassphrase (passphrase : JsString) : Except VaultError Unit :=
  if passphrase.length < PASSPHRASE_MIN then
    .error (.message (js "the passphrase needs at least " ++ decimal PASSPHRASE_MIN ++ js " characters"))
  else .ok ()

/-- `replace(/(.{4})(?=.)/g, "$1-")`. -/
def grouped : JsString → JsString
  | a :: b :: c :: d :: e :: rest => a :: b :: c :: d :: 0x2D :: grouped (e :: rest)
  | short => short

namespace Vaults

variable (v : Vaults) (owner : JsString) (time : ℤ)

def row : Option VaultRow := v.rows.find? fun r => r.owner == owner

def has : Bool := (v.row owner).isSome

def isSealed : Bool :=
  match v.schedules.lookup owner with
  | none => false
  | some schedule => isSealedAt zones schedule time

def lock : Vaults := { v with held := v.held.filter fun entry => entry.1 != owner }

/-- **The data key**, or none while locked; one whose time is over is dropped. -/
def dataKey : Vaults × Option Bytes :=
  match v.held.lookup owner with
  | none => (v, none)
  | some held =>
      if held.untilTime ≤ time ∨ v.isSealed zones owner time then (v.lock owner, none)
      else (v, some held.dataKey)

def isUnlocked : Vaults × Bool := ((v.dataKey zones owner time).1, (v.dataKey zones owner time).2.isSome)

/-- The row a data key is kept in. -/
def sealedRow (passphrase : JsString) (draws : VaultDraws) : VaultRow where
  owner
  salt := draws.salt
  wrappedByPass := sealBytes g (g.derive passphrase draws.salt) draws.passIv draws.dataKey
    (vaultAad owner (js "pass"))
  wrappedByRecov := sealBytes g draws.recovery draws.recoveryIv draws.dataKey (vaultAad owner (js "recovery"))
  createdAt := IsoTime.isoText time

/-- **`create`**: makes the vault and leaves it unlocked. -/
def create (passphrase : JsString) (draws : VaultDraws) : Vaults × Except VaultError JsString :=
  if v.has owner then (v, .error (.message (js "this account already has a vault")))
  else
    match checkPassphrase passphrase with
    | .error e => (v, .error e)
    | .ok () =>
        ({ v with
            rows := v.rows ++ [sealedRow g owner time passphrase draws]
            held := AssocList.set v.held owner ⟨draws.dataKey, time + UNLOCK_TTL_MS⟩ },
          .ok (grouped (toHex draws.recovery)))

/-- What a secret opens the row to: a recovery key, or a passphrase. -/
def tryOpen (secret : JsString) (row : VaultRow) : Option Bytes :=
  let asRecovery := u.toLowerCase (secret.filter fun c => !(isSpace c || c == 0x2D))
  if IsHex 64 asRecovery then
    openBytes g (fromHex asRecovery) row.wrappedByRecov (vaultAad owner (js "recovery"))
  else openBytes g (g.derive secret row.salt) row.wrappedByPass (vaultAad owner (js "pass"))

/-- **`unlock`**: false for a wrong secret, refused when too many were wrong lately. -/
def unlock (secret : JsString) : Vaults × Except VaultError Bool :=
  match v.row owner with
  | none => (v, .error noVault)
  | some row =>
      if v.isSealed zones owner time then (v, .error (.sealed owner))
      else
        let recent := ((v.failures.lookup owner).getD []).filter fun t => decide (time - t < GUESS_WINDOW_MS)
        if GUESSES ≤ recent.length then
          (v, .error (.message (js "too many wrong attempts: " ++ js "try again in a few minutes")))
        else
          match tryOpen g u owner secret row with
          | none => ({ v with failures := AssocList.set v.failures owner (recent ++ [time]) }, .ok false)
          | some key =>
              ({ v with
                  failures := v.failures.filter fun entry => entry.1 != owner
                  held := AssocList.set v.held owner ⟨key, time + UNLOCK_TTL_MS⟩ }, .ok true)

/-- **`setSchedule`**: keeps the sealed hours, and closes the vault at once if they are running. -/
def setSchedule (schedule : VaultSchedule) : Vaults × Except VaultError Unit :=
  if ¬ v.has owner then (v, .error noVault)
  else
    match checkSchedule zones schedule with
    | .error text => (v, .error (.message text))
    | .ok checked =>
        let kept := { v with schedules := AssocList.set v.schedules owner checked }
        (if kept.isSealed zones owner time then kept.lock owner else kept, .ok ())

/-- **`sweep`**: closes every vault whose time is over. -/
def sweep : Vaults × List JsString :=
  (v.held.map Prod.fst).foldl (fun (v, closed) owner =>
    match v.dataKey zones owner time with
    | (v, none) => (v, closed ++ [owner])
    | (v, some _) => (v, closed)) (v, [])

/-- **`changePassphrase`** of an unlocked vault; the recovery key stays the same. -/
def changePassphrase (passphrase : JsString) (salt : Bytes) (iv : Iv) : Vaults × Except VaultError Unit :=
  match v.dataKey zones owner time with
  | (v, none) => (v, .error (.locked owner))
  | (v, some key) =>
      match checkPassphrase passphrase with
      | .error e => (v, .error e)
      | .ok () =>
          let wrapped := sealBytes g (g.derive passphrase salt) iv key (vaultAad owner (js "pass"))
          ({ v with rows := v.rows.map fun r =>
              if r.owner == owner then { r with salt, wrappedByPass := wrapped } else r }, .ok ())

end Vaults

end Sigillo
