import Mathlib
import ChronoSynth.Lib.JsText
import ChronoSynth.Lib.Run

/-!
# The vault of the tenants' keys

`tenant-vault.ts` wraps data keys and signs payloads under keys that it derives from the platform's key. A reference has
versions in a table, and a derived key depends on the version.

* `VaultCrypto` — what is used of `node:crypto`. A sealed text is opened by the key that sealed it and by no other, so a
  tag is not sixteen bytes but a type of its own.
* Each call is audited; the ids and the times of the rows are left out.
* Versions are added and marked as revoked by others, at any time.

The version that wraps is given back to the caller, but what is unwrapped is unwrapped under the latest version. A run
keeps what was wrapped and signed exactly as long as there is no later version (`keysSurvive_iff`).
-/

namespace ChronoSynth.DataPlane

/-! ## The library -/

/-- HMAC-SHA256 and AES-256-GCM. -/
structure VaultCrypto where
  Key : Type
  Tag : Type
  hmac : Key → ByteArray → Key
  encrypt : Key → ByteArray → ByteArray → Tag × ByteArray
  decrypt : Key → ByteArray → Tag → ByteArray → Option ByteArray
  platformKey : Key
  [decKey : DecidableEq Key]
  hmac_injective : ∀ {key key' message message'}, hmac key message = hmac key' message' → key = key' ∧ message = message'
  size_encrypt : ∀ key iv plain, (encrypt key iv plain).2.size = plain.size
  decrypt_iff : ∀ key iv tag sealed plain, decrypt key iv tag sealed = some plain ↔ encrypt key iv plain = (tag, sealed)
  encrypt_key : ∀ {key key' iv plain plain'}, encrypt key iv plain = encrypt key' iv plain' → key = key'

instance (crypto : VaultCrypto) : DecidableEq crypto.Key := crypto.decKey

/-! ## The table of versions -/

inductive KmsProvider
  | platform | aws_kms | gcp_kms | azure_key_vault | external
  deriving DecidableEq

inductive KeyStatus
  | active | revoked
  deriving DecidableEq

structure KeyVersionRow where
  tenantId : String
  keyRef : String
  provider : KmsProvider
  version : ℕ
  status : KeyStatus
  deriving DecidableEq

/-- `UNIQUE(tenant_id, key_ref, provider, version)`. -/
def KeyVersionRow.unique (row : KeyVersionRow) : String × String × KmsProvider × ℕ :=
  (row.tenantId, row.keyRef, row.provider, row.version)

structure KeyVersions where
  rows : List KeyVersionRow
  nodup : (rows.map KeyVersionRow.unique).Nodup

namespace KeyVersions

variable (table : KeyVersions)

/-- `INSERT OR IGNORE`. -/
def insertOrIgnore (row : KeyVersionRow) : KeyVersions :=
  if h : row.unique ∈ table.rows.map KeyVersionRow.unique then table
  else
    { rows := table.rows ++ [row]
      nodup := by
        rw [List.map_append, List.nodup_append]
        exact ⟨table.nodup, List.nodup_singleton _, fun a ha b hb hab =>
          h (by rwa [← List.mem_singleton.1 hb, ← hab])⟩ }

/-- `UPDATE ... SET status = 'revoked'`. -/
def revoke (which : KeyVersionRow → Bool) : KeyVersions where
  rows := table.rows.map fun row => if which row then { row with status := .revoked } else row
  nodup := by
    have hunique : KeyVersionRow.unique ∘ (fun row : KeyVersionRow =>
        if which row then { row with status := .revoked } else row) = KeyVersionRow.unique := by
      funext row
      simp only [Function.comp_apply]
      split <;> rfl
    rw [List.map_map, hunique]
    exact table.nodup

/-- The platform's versions of a reference. -/
def versionsOf (tenantId keyRef : String) : List KeyVersionRow :=
  table.rows.filter fun row => row.tenantId = tenantId ∧ row.keyRef = keyRef ∧ row.provider = .platform

/-- `ORDER BY version DESC LIMIT 1`. -/
def latest (tenantId keyRef : String) : Option KeyVersionRow :=
  (table.versionsOf tenantId keyRef).argmax KeyVersionRow.version

end KeyVersions

/-! ## The vault -/

inductive VaultOperation
  | wrapDataKey | unwrapDataKey | sign | verify
  deriving DecidableEq

structure VaultAudit where
  tenantId : String
  operation : VaultOperation
  keyRef : String
  keyVersion : Option ℕ
  /-- The message of a failure. -/
  errorMessage : Option String
  deriving DecidableEq

structure VaultDb where
  keyVersions : KeyVersions
  audit : List VaultAudit

/-- What stands in a wrapped data key: the initialisation vector, the tag and the sealed text. A buffer that is too short
for the first two has none. -/
inductive WrappedDataKey (crypto : VaultCrypto)
  | short
  | parts (iv : ByteArray) (tag : crypto.Tag) (ciphertext : ByteArray)

inductive KeyPurpose
  | wrap | sign
  deriving DecidableEq

def KeyPurpose.text : KeyPurpose → String
  | wrap => "wrap"
  | sign => "sign"

/-- What a key is derived from. -/
def keyText (tenantId keyRef : String) (keyVersion : ℕ) (purpose : KeyPurpose) : String :=
  purpose.text ++ "\x00" ++ tenantId ++ "\x00" ++ keyRef ++ "\x00" ++ toString keyVersion

namespace PlatformTenantVault

variable (crypto : VaultCrypto) (tenantId keyRef : String)

def derivePlatformKey (keyVersion : ℕ) (purpose : KeyPurpose) : crypto.Key :=
  crypto.hmac crypto.platformKey (keyText tenantId keyRef keyVersion purpose).toByteArray

def getLatestUsableKeyVersion (table : KeyVersions) : Except String KeyVersionRow :=
  match table.latest tenantId keyRef with
  | none => .error ("unknown key: " ++ keyRef)
  | some row => if row.status = .revoked then .error ("key revoked: " ++ keyRef) else .ok row

/-- The table in which `getOrCreateActiveKeyVersion` looks for the latest version. -/
def createKeyVersion (table : KeyVersions) : KeyVersions :=
  table.insertOrIgnore ⟨tenantId, keyRef, .platform, 1, .active⟩

/-- `withAudit`: what a call says, and the table with the row of the audit. -/
def withAudit {α : Type} (operation : VaultOperation) (db : VaultDb) (table : KeyVersions) (result : Except String α) :
    Except String α × VaultDb :=
  (result,
    { keyVersions := table
      audit := db.audit ++ [⟨tenantId, operation, keyRef, (table.latest tenantId keyRef).map (·.version),
        match result with
        | .ok _ => none
        | .error message => some message⟩] })

@[simp] theorem withAudit_fst {α : Type} {operation : VaultOperation} {db : VaultDb} {table : KeyVersions}
    {result : Except String α} : (withAudit tenantId keyRef operation db table result).1 = result := rfl

def wrapWith (key : crypto.Key) (iv plaintextDataKey : ByteArray) : WrappedDataKey crypto :=
  .parts iv (crypto.encrypt key iv plaintextDataKey).1 (crypto.encrypt key iv plaintextDataKey).2

/-- With the random bytes it draws. -/
def wrapDataKey (iv plaintextDataKey : ByteArray) (db : VaultDb) :
    Except String (WrappedDataKey crypto × ℕ) × VaultDb :=
  let table := createKeyVersion tenantId keyRef db.keyVersions
  withAudit tenantId keyRef .wrapDataKey db table do
    let row ← getLatestUsableKeyVersion tenantId keyRef table
    return (wrapWith crypto (derivePlatformKey crypto tenantId keyRef row.version .wrap) iv plaintextDataKey, row.version)

def unwrapWith (key : crypto.Key) : WrappedDataKey crypto → Except String ByteArray
  | .short => .error "wrapped data key is malformed"
  | .parts iv tag ciphertext =>
    if ciphertext.size = 0 then .error "wrapped data key is malformed"
    else
      match crypto.decrypt key iv tag ciphertext with
      | none => .error "Unsupported state or unable to authenticate data"
      | some plain => .ok plain

def unwrapDataKey (wrappedDataKey : WrappedDataKey crypto) (db : VaultDb) : Except String ByteArray × VaultDb :=
  withAudit tenantId keyRef .unwrapDataKey db db.keyVersions do
    let row ← getLatestUsableKeyVersion tenantId keyRef db.keyVersions
    unwrapWith crypto (derivePlatformKey crypto tenantId keyRef row.version .wrap) wrappedDataKey

/-- The algorithm it names is always HMAC-SHA256. -/
def sign (payload : ByteArray) (db : VaultDb) : Except String (crypto.Key × ℕ) × VaultDb :=
  let table := createKeyVersion tenantId keyRef db.keyVersions
  withAudit tenantId keyRef .sign db table do
    let row ← getLatestUsableKeyVersion tenantId keyRef table
    return (crypto.hmac (derivePlatformKey crypto tenantId keyRef row.version .sign) payload, row.version)

def verify (payload : ByteArray) (signature : crypto.Key) (db : VaultDb) : Except String Bool × VaultDb :=
  withAudit tenantId keyRef .verify db db.keyVersions do
    let row ← getLatestUsableKeyVersion tenantId keyRef db.keyVersions
    return crypto.hmac (derivePlatformKey crypto tenantId keyRef row.version .sign) payload = signature

end PlatformTenantVault

/-! ## Runs -/

inductive VaultEvent (crypto : VaultCrypto)
  | addVersion (row : KeyVersionRow)
  | revoke (which : KeyVersionRow → Bool)
  | wrapDataKey (tenantId keyRef : String) (iv plaintextDataKey : ByteArray)
  | unwrapDataKey (tenantId keyRef : String) (wrappedDataKey : WrappedDataKey crypto)
  | sign (tenantId keyRef : String) (payload : ByteArray)
  | verify (tenantId keyRef : String) (payload : ByteArray) (signature : crypto.Key)

/-- What a call has given out. -/
structure Issued (crypto : VaultCrypto) where
  tenantId : String
  keyRef : String
  keyVersion : ℕ
  /-- The data key or the payload. -/
  content : ByteArray
  output : WrappedDataKey crypto ⊕ crypto.Key

namespace PlatformTenantVault

variable {crypto : VaultCrypto}

def step (db : VaultDb) : VaultEvent crypto → VaultDb
  | .addVersion row => { db with keyVersions := db.keyVersions.insertOrIgnore row }
  | .revoke which => { db with keyVersions := db.keyVersions.revoke which }
  | .wrapDataKey tenantId keyRef iv plain => (wrapDataKey crypto tenantId keyRef iv plain db).2
  | .unwrapDataKey tenantId keyRef wrapped => (unwrapDataKey crypto tenantId keyRef wrapped db).2
  | .sign tenantId keyRef payload => (sign crypto tenantId keyRef payload db).2
  | .verify tenantId keyRef payload signature => (verify crypto tenantId keyRef payload signature db).2

/-- What a step gives out. -/
def issued (db : VaultDb) : VaultEvent crypto → List (Issued crypto)
  | .wrapDataKey tenantId keyRef iv plain =>
    match (wrapDataKey crypto tenantId keyRef iv plain db).1 with
    | .error _ => []
    | .ok (wrapped, version) => [⟨tenantId, keyRef, version, plain, .inl wrapped⟩]
  | .sign tenantId keyRef payload =>
    match (sign crypto tenantId keyRef payload db).1 with
    | .error _ => []
    | .ok (signature, version) => [⟨tenantId, keyRef, version, payload, .inr signature⟩]
  | _ => []

/-- The vault, and all that it has given out. -/
def recorded : VaultDb × List (Issued crypto) → VaultEvent crypto → VaultDb × List (Issued crypto) :=
  noting step fun db given e => issued db e ++ given

end PlatformTenantVault

open PlatformTenantVault

def KeyVersions.Unrevoked (table : KeyVersions) (tenantId keyRef : String) (version : ℕ) : Prop :=
  ∃ row ∈ table.versionsOf tenantId keyRef, row.version = version ∧ row.status ≠ .revoked

/-- It is still unwrapped to what was wrapped, or verifies. -/
def Issued.Back {crypto : VaultCrypto} (given : Issued crypto) (db : VaultDb) : Prop :=
  match given.output with
  | .inl wrapped =>
    (unwrapDataKey crypto given.tenantId given.keyRef wrapped db).1 = .ok given.content
  | .inr signature =>
    (verify crypto given.tenantId given.keyRef given.content signature db).1 = .ok true

/-- What was wrapped is unwrapped for no other tenant. -/
def Issued.Apart {crypto : VaultCrypto} (given : Issued crypto) (db : VaultDb) : Prop :=
  ∀ wrapped, given.output = .inl wrapped → ∀ tenantId ≠ given.tenantId, ∀ keyRef plain,
    (unwrapDataKey crypto tenantId keyRef wrapped db).1 ≠ .ok plain

/-- What was given out under a version that is not revoked comes back, and no other tenant unwraps it. -/
def Kept {crypto : VaultCrypto} (x : VaultDb × List (Issued crypto)) : Prop :=
  ∀ given ∈ x.2, (x.1.keyVersions.Unrevoked given.tenantId given.keyRef given.keyVersion → given.Back x.1) ∧
    given.Apart x.1

/-- The step wraps and signs under versions that are not revoked. -/
def UsesUnrevoked {crypto : VaultCrypto} (db : VaultDb) (e : VaultEvent crypto) : Prop :=
  ∀ given ∈ issued db e,
    (step db e).keyVersions.Unrevoked given.tenantId given.keyRef given.keyVersion

/-- **Keys survive**: in every state of the run. -/
def KeysSurvive {crypto : VaultCrypto} (db : VaultDb) (events : List (VaultEvent crypto)) : Prop :=
  Always recorded Kept (db, []) events ∧ Along step UsesUnrevoked db events

/-- Nothing is newer than a version that is not revoked and under which something was given out, what was wrapped is not
empty, and the key under which it was wrapped is no other tenant's latest one. -/
def Unrotated {crypto : VaultCrypto} (x : VaultDb × List (Issued crypto)) : Prop :=
  ∀ given ∈ x.2,
    (x.1.keyVersions.Unrevoked given.tenantId given.keyRef given.keyVersion →
      (∀ row ∈ x.1.keyVersions.versionsOf given.tenantId given.keyRef, row.version ≤ given.keyVersion) ∧
      (given.output.isLeft → given.content.size ≠ 0)) ∧
    (given.output.isLeft → given.content.size ≠ 0 → ∀ tenantId ≠ given.tenantId, ∀ keyRef,
      ∀ row ∈ x.1.keyVersions.latest tenantId keyRef, row.status ≠ .revoked →
        keyText tenantId keyRef row.version .wrap ≠ keyText given.tenantId given.keyRef given.keyVersion .wrap)

/-! ## The latest version -/

section
variable {table : KeyVersions} {tenantId keyRef : String} {row row' : KeyVersionRow} {version : ℕ}

theorem mem_versionsOf : row ∈ table.versionsOf tenantId keyRef ↔
    row ∈ table.rows ∧ row.tenantId = tenantId ∧ row.keyRef = keyRef ∧ row.provider = .platform := by
  simp [KeyVersions.versionsOf]

theorem eq_of_version (h : row ∈ table.versionsOf tenantId keyRef) (h' : row' ∈ table.versionsOf tenantId keyRef)
    (hv : row.version = row'.version) : row = row' := by
  obtain ⟨hmem, ht, hk, hp⟩ := mem_versionsOf.1 h
  obtain ⟨hmem', ht', hk', hp'⟩ := mem_versionsOf.1 h'
  refine List.inj_on_of_nodup_map table.nodup hmem hmem' ?_
  simp only [KeyVersionRow.unique, ht, hk, hp, ht', hk', hp', hv]

theorem latest_eq_iff : (∃ row ∈ table.latest tenantId keyRef, row.status ≠ .revoked ∧ row.version = version) ↔
    table.Unrevoked tenantId keyRef version ∧ ∀ row ∈ table.versionsOf tenantId keyRef, row.version ≤ version := by
  constructor
  · rintro ⟨row, hrow, hstatus, rfl⟩
    exact ⟨⟨row, List.argmax_mem hrow, rfl, hstatus⟩, fun _ h => List.le_of_mem_argmax h hrow⟩
  · rintro ⟨⟨row, hrow, rfl, hstatus⟩, hmax⟩
    cases hlatest : table.latest tenantId keyRef with
    | none =>
      rw [KeyVersions.latest, List.argmax_eq_none] at hlatest
      rw [hlatest] at hrow
      cases hrow
    | some last =>
      have hmem := List.argmax_mem (Option.mem_def.2 hlatest)
      have hle := List.le_of_mem_argmax hrow (Option.mem_def.2 hlatest)
      obtain rfl := eq_of_version hmem hrow ((hmax _ hmem).antisymm hle)
      exact ⟨last, rfl, hstatus, rfl⟩

end

/-! ## What comes back -/

theorem keyText_version {tenantId keyRef : String} {v v' : ℕ} {purpose : KeyPurpose}
    (h : keyText tenantId keyRef v purpose = keyText tenantId keyRef v' purpose) : v = v' :=
  toString_nat_injective ((String.append_right_inj _).1 h)

namespace PlatformTenantVault

variable {crypto : VaultCrypto} {tenantId keyRef tenantId' keyRef' : String} {iv plain plain' payload : ByteArray}
  {db : VaultDb} {table : KeyVersions} {row : KeyVersionRow} {v v' : ℕ} {purpose : KeyPurpose}

theorem derivePlatformKey_inj : derivePlatformKey crypto tenantId keyRef v purpose =
    derivePlatformKey crypto tenantId' keyRef' v' purpose ↔
      keyText tenantId keyRef v purpose = keyText tenantId' keyRef' v' purpose := by
  refine ⟨fun h => ?_, fun h => by rw [derivePlatformKey, derivePlatformKey, h]⟩
  exact String.toByteArray_inj.1 (crypto.hmac_injective h).2

theorem getLatest_eq_ok : getLatestUsableKeyVersion tenantId keyRef table = .ok row ↔
    row ∈ table.latest tenantId keyRef ∧ row.status ≠ .revoked := by
  unfold getLatestUsableKeyVersion
  cases hlatest : table.latest tenantId keyRef with
  | none => simp
  | some last =>
    by_cases hstatus : last.status = .revoked
    · simp only [hstatus, if_true, Option.mem_def, Option.some.injEq, reduceCtorEq, false_iff, not_and, not_not]
      rintro rfl
      exact hstatus
    · simp only [if_neg hstatus, Except.ok.injEq, Option.mem_def, Option.some.injEq]
      exact ⟨fun h => ⟨h, h ▸ hstatus⟩, And.left⟩

theorem bind_latest_eq_ok {α : Type} {f : KeyVersionRow → Except String α} {a : α} :
    (getLatestUsableKeyVersion tenantId keyRef table >>= f) = .ok a ↔
      ∃ row ∈ table.latest tenantId keyRef, row.status ≠ .revoked ∧ f row = .ok a := by
  cases hlatest : getLatestUsableKeyVersion tenantId keyRef table with
  | error message =>
    refine ⟨nofun, fun ⟨row, hrow, hstatus, _⟩ => ?_⟩
    rw [getLatest_eq_ok.2 ⟨hrow, hstatus⟩] at hlatest
    cases hlatest
  | ok last =>
    obtain ⟨hmem, hstatus⟩ := getLatest_eq_ok.1 hlatest
    refine ⟨fun h => ⟨last, hmem, hstatus, h⟩, fun ⟨row, hrow, _, h⟩ => ?_⟩
    obtain rfl := Option.some.inj (hmem.symm.trans hrow)
    exact h

theorem unwrapWith_eq_ok {key key' : crypto.Key} : unwrapWith crypto key' (wrapWith crypto key iv plain) = .ok plain' ↔
    plain.size ≠ 0 ∧ key' = key ∧ plain' = plain := by
  rw [wrapWith, unwrapWith, crypto.size_encrypt]
  split
  next hsize => simp [hsize]
  next hsize =>
    have hsame : crypto.decrypt key iv (crypto.encrypt key iv plain).1 (crypto.encrypt key iv plain).2 = some plain :=
      (crypto.decrypt_iff ..).2 rfl
    constructor
    · intro h
      split at h
      · cases h
      next opened hopened =>
        obtain rfl := Except.ok.inj h
        have hkey : key' = key := crypto.encrypt_key ((crypto.decrypt_iff ..).1 hopened)
        subst hkey
        rw [hsame] at hopened
        exact ⟨hsize, rfl, (Option.some.inj hopened).symm⟩
    · rintro ⟨-, rfl, rfl⟩
      rw [hsame]

theorem unwrapDataKey_eq_ok : (unwrapDataKey crypto tenantId' keyRef'
    (wrapWith crypto (derivePlatformKey crypto tenantId keyRef v .wrap) iv plain) db).1 = .ok plain' ↔
      ∃ row ∈ db.keyVersions.latest tenantId' keyRef', row.status ≠ .revoked ∧ plain.size ≠ 0 ∧
        keyText tenantId' keyRef' row.version .wrap = keyText tenantId keyRef v .wrap ∧ plain' = plain := by
  rw [unwrapDataKey, withAudit_fst, bind_latest_eq_ok]
  simp only [unwrapWith_eq_ok, derivePlatformKey_inj]

theorem verify_eq_ok : (verify crypto tenantId keyRef payload
    (crypto.hmac (derivePlatformKey crypto tenantId keyRef v .sign) payload) db).1 = .ok true ↔
      ∃ row ∈ db.keyVersions.latest tenantId keyRef, row.status ≠ .revoked ∧ row.version = v := by
  rw [verify, withAudit_fst, bind_latest_eq_ok]
  refine exists_congr fun row => and_congr_right fun _ => and_congr_right fun _ => ?_
  simp only [pure, Except.pure, Except.ok.injEq, decide_eq_true_eq]
  refine ⟨fun h => keyText_version (derivePlatformKey_inj.1 (crypto.hmac_injective h).1), fun h => by rw [h]⟩

end PlatformTenantVault

/-! ## What a run keeps -/

namespace Issued

variable {crypto : VaultCrypto} {given : Issued crypto} {db : VaultDb}

/-- It was made under the version it names. -/
def Genuine (given : Issued crypto) : Prop :=
  (∃ iv, given.output = .inl (wrapWith crypto
    (derivePlatformKey crypto given.tenantId given.keyRef given.keyVersion .wrap) iv given.content)) ∨
  given.output = .inr (crypto.hmac
    (derivePlatformKey crypto given.tenantId given.keyRef given.keyVersion .sign) given.content)

theorem back_iff (h : given.Genuine)
    (hun : db.keyVersions.Unrevoked given.tenantId given.keyRef given.keyVersion) : given.Back db ↔
      (∀ row ∈ db.keyVersions.versionsOf given.tenantId given.keyRef, row.version ≤ given.keyVersion) ∧
      (given.output.isLeft → given.content.size ≠ 0) := by
  rw [Back, ← and_iff_right hun (b := ∀ row ∈ _, _), ← latest_eq_iff]
  rcases h with ⟨iv, houtput⟩ | houtput
  · simp only [houtput, unwrapDataKey_eq_ok, Sum.isLeft_inl, forall_const, and_true]
    constructor
    · rintro ⟨row, hrow, hstatus, hsize, htext⟩
      exact ⟨⟨row, hrow, hstatus, keyText_version htext⟩, hsize⟩
    · rintro ⟨⟨row, hrow, hstatus, hversion⟩, hsize⟩
      exact ⟨row, hrow, hstatus, hsize, by rw [hversion]⟩
  · simp only [houtput, verify_eq_ok, Sum.isLeft_inr, Bool.false_eq_true, false_imp_iff, and_true]

theorem apart_iff (h : given.Genuine) : given.Apart db ↔
    (given.output.isLeft → given.content.size ≠ 0 → ∀ tenantId ≠ given.tenantId, ∀ keyRef,
      ∀ row ∈ db.keyVersions.latest tenantId keyRef, row.status ≠ .revoked →
        keyText tenantId keyRef row.version .wrap ≠ keyText given.tenantId given.keyRef given.keyVersion .wrap) := by
  rcases h with ⟨iv, houtput⟩ | houtput
  · constructor
    · intro hapart _ hsize tenantId hne keyRef row hrow hstatus htext
      exact hapart _ houtput tenantId hne keyRef given.content
        (unwrapDataKey_eq_ok.2 ⟨row, hrow, hstatus, hsize, htext, rfl⟩)
    · intro hdiffer wrapped hwrapped tenantId hne keyRef plain hok
      obtain rfl := Sum.inl.inj (houtput.symm.trans hwrapped)
      obtain ⟨row, hrow, hstatus, hsize, htext, -⟩ := unwrapDataKey_eq_ok.1 hok
      exact hdiffer (by rw [houtput, Sum.isLeft_inl]) hsize tenantId hne keyRef row hrow hstatus htext
  · simp [Apart, houtput]

end Issued

section
variable {crypto : VaultCrypto} {db : VaultDb} {e : VaultEvent crypto} {events : List (VaultEvent crypto)}
  {given : Issued crypto} {x : VaultDb × List (Issued crypto)}

/-- **What a step gives out** is made under a version that is not revoked. -/
theorem genuine_issued (h : given ∈ issued db e) : given.Genuine ∧
    (step db e).keyVersions.Unrevoked given.tenantId given.keyRef given.keyVersion := by
  cases e with
  | addVersion row => cases h
  | revoke which => cases h
  | unwrapDataKey tenantId keyRef wrapped => cases h
  | verify tenantId keyRef payload signature => cases h
  | wrapDataKey tenantId keyRef iv plain =>
    simp only [issued] at h
    split at h
    · cases h
    next wrapped version hok =>
      obtain rfl := List.mem_singleton.1 h
      rw [wrapDataKey, withAudit_fst,
        bind_latest_eq_ok] at hok
      obtain ⟨row, hrow, hstatus, hout⟩ := hok
      obtain ⟨rfl, rfl⟩ := Prod.mk.inj (Except.ok.inj hout)
      exact ⟨.inl ⟨iv, rfl⟩, (latest_eq_iff.1 ⟨row, hrow, hstatus, rfl⟩).1⟩
  | sign tenantId keyRef payload =>
    simp only [issued] at h
    split at h
    · cases h
    next signature version hok =>
      obtain rfl := List.mem_singleton.1 h
      rw [sign, withAudit_fst, bind_latest_eq_ok] at hok
      obtain ⟨row, hrow, hstatus, hout⟩ := hok
      obtain ⟨rfl, rfl⟩ := Prod.mk.inj (Except.ok.inj hout)
      exact ⟨.inr rfl, (latest_eq_iff.1 ⟨row, hrow, hstatus, rfl⟩).1⟩

theorem always_genuine :
    Always recorded (fun x => ∀ given ∈ x.2, given.Genuine) (db, []) events := by
  refine Always.of_inductive (fun _ h => nomatch h) fun x e hx given hgiven => ?_
  rcases List.mem_append.1 hgiven with hnew | hold
  · exact (genuine_issued hnew).1
  · exact hx given hold

theorem kept_iff (h : ∀ given ∈ x.2, given.Genuine) : Kept x ↔ Unrotated x :=
  forall₂_congr fun given hgiven =>
    and_congr (forall_congr' (Issued.back_iff (h given hgiven))) (Issued.apart_iff (h given hgiven))

/-- **Keys survive a run exactly if no version is newer than one in use.** -/
theorem keysSurvive_iff (crypto : VaultCrypto) (db : VaultDb) (events : List (VaultEvent crypto)) :
    KeysSurvive db events ↔ Always recorded Unrotated (db, []) events := by
  have hgenuine : Always recorded (fun x => ∀ given ∈ x.2, given.Genuine) (db, []) events :=
    always_genuine
  refine (and_iff_left fun pre e _ given hgiven => (genuine_issued hgiven).2).trans ?_
  exact forall₂_congr fun pre hpre => kept_iff (hgenuine pre hpre)

end

/-! ## A rotated key -/

inductive SymbolicKey
  | platform
  | mac (key : SymbolicKey) (message : ByteArray)
  deriving DecidableEq

/-- Tags that say what was sealed with which key. -/
def symbolicVault : VaultCrypto where
  Key := SymbolicKey
  Tag := SymbolicKey × ByteArray × ByteArray
  hmac := .mac
  encrypt key iv plain := ((key, iv, plain), plain)
  decrypt key iv tag sealed := if tag = (key, iv, sealed) then some sealed else none
  platformKey := .platform
  hmac_injective h := by
    cases h
    exact ⟨rfl, rfl⟩
  size_encrypt _ _ _ := rfl
  decrypt_iff key iv tag sealed plain := by
    constructor
    · intro h
      split at h
      next htag =>
        obtain rfl := Option.some.inj h
        rw [htag]
      next => cases h
    · intro h
      obtain ⟨rfl, rfl⟩ := Prod.mk.inj h
      exact if_pos rfl
  encrypt_key h := congrArg (·.1.1) h

/-- A data key is wrapped, and its reference gets a second version. -/
def rotation : List (VaultEvent symbolicVault) :=
  [.wrapDataKey "t1" "master" ⟨#[0]⟩ ⟨#[7]⟩, .addVersion ⟨"t1", "master", .platform, 2, .active⟩]

/-- The data key is lost. -/
theorem not_keysSurvive : ¬ ∀ (crypto : VaultCrypto) (db : VaultDb) (events : List (VaultEvent crypto)),
    KeysSurvive db events := by
  intro h
  have hkept := (h symbolicVault ⟨⟨[], List.nodup_nil⟩, []⟩ rotation).1.last
  have hunrotated := (kept_iff always_genuine.last).1 hkept
  have hgiven : ∃ given ∈ (run recorded (⟨⟨[], List.nodup_nil⟩, []⟩, []) rotation).2,
      given.tenantId = "t1" ∧ given.keyRef = "master" ∧ given.keyVersion = 1 := by
    refine ⟨_, List.mem_cons_self, rfl, rfl, rfl⟩
  obtain ⟨given, hmem, ht, hk, hv⟩ := hgiven
  have hun := (hunrotated given hmem).1
  rw [ht, hk, hv] at hun
  have hfirst : (run recorded (⟨⟨[], List.nodup_nil⟩, []⟩, []) rotation).1.keyVersions.Unrevoked
      "t1" "master" 1 := ⟨⟨"t1", "master", .platform, 1, .active⟩, by decide, rfl, by decide⟩
  have hle := (hun hfirst).1 ⟨"t1", "master", .platform, 2, .active⟩ (by decide)
  exact absurd hle (by decide)

end ChronoSynth.DataPlane
