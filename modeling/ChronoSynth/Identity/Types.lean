import Mathlib.Algebra.GroupWithZero.Nat
import Mathlib.Data.List.Basic
import Mathlib.Logic.Function.Basic
import ChronoSynth.Lib.Interleave
import ChronoSynth.Lib.Table

/-!
# The identity tables

The directory of the coordinator database, and the shards in which the users of the tenants are kept.

* Identifiers of tenants and users and refresh tokens are drawn at random: numbers nobody has drawn
  before, otherwise arbitrary. A refresh token is known by its hash; the model gives both one number.
* Display names, subscriptions, quotas, avatars, customers of the payment provider and access tokens decide
  nothing here and are left out.
-/

namespace ChronoSynth.Identity

abbrev TenantId := ℕ

abbrev UserId := ℕ

/-- A refresh token, by its hash. -/
abbrev Token := ℕ

/-- A shard database. -/
abbrev ShardId := ℕ

/-- Milliseconds. -/
abbrev Time := ℤ

/-! ## Rows -/

inductive DirectoryStatus
  | PENDING | ACTIVE
  deriving DecidableEq, Repr

inductive OperationKind
  | REGISTER | EMAIL_CHANGE | TOKEN
  deriving DecidableEq, Repr

/-- `lookup_kind` and `lookup_value`. -/
inductive Lookup
  | email (value : String)
  | refresh_token_hash (value : Token)
  deriving DecidableEq, Repr

/-- `tenant_identity_directory`; unique by its lookup key. -/
structure DirectoryRow where
  tenantId : TenantId
  userId : Option UserId
  operationId : String
  operationKind : OperationKind
  previousLookupValue : Option String
  pendingPasswordHash : Option String
  lookup : Lookup
  status : DirectoryStatus
  updatedAt : Time
  deriving DecidableEq, Repr

/-- `users`; unique by identifier and by email in a shard. -/
structure User where
  id : UserId
  email : String
  passwordHash : String
  tenantId : TenantId
  deriving DecidableEq, Repr

/-- `identities`; one for a user. -/
structure IdentityRow where
  userId : UserId
  tenantId : TenantId
  deriving DecidableEq, Repr

/-- `tenant_bootstrap`: the operation is `COMPLETE`. -/
structure Bootstrap where
  tenantId : TenantId
  operationId : String
  deriving DecidableEq, Repr

/-- `refresh_tokens`. -/
structure RefreshToken where
  userId : UserId
  tokenHash : Token
  isRevoked : Bool
  expiresAt : Time
  createdAt : Time
  deriving DecidableEq, Repr

/-- The tables of a shard. -/
structure Shard where
  users : List User
  identities : List IdentityRow
  bootstraps : List Bootstrap
  refreshTokens : List RefreshToken
  deriving DecidableEq, Repr

/-- The coordinator database and the shards. -/
structure Db where
  /-- The numbers drawn so far. -/
  drawn : List ℕ
  directory : List DirectoryRow
  shard : ShardId → Shard

/-- Nobody has registered. -/
def Db.empty : Db := ⟨[], [], fun _ => ⟨[], [], [], []⟩⟩

/-! ## Errors -/

/-- What a service throws, by the code of the error. -/
inductive AuthError
  | AUTH_EMAIL_EXISTS (message : String)
  | AUTH_REGISTRATION_IN_PROGRESS (message : String)
  | AUTH_REGISTRATION_RETRY (message : String)
  | AUTH_INVALID_CREDENTIALS (message : String)
  | AUTH_EXPIRED (message : String)
  | AUTH_INVALID_TOKEN (message : String)
  | STATE_ALREADY_EXISTS (message : String)
  | STATE_INVALID_TRANSITION (message : String)
  | STORAGE_READ (message : String)
  /-- A unique index of the database refuses a row. -/
  | UniqueViolation (index : String)
  deriving DecidableEq, Repr

/-! ## What is plugged in -/

/-- What the services are constructed with. -/
structure Ports where
  /-- `trim().toLowerCase()`. -/
  canonicalizeEmail : String → String
  canonicalizeEmail_idem : ∀ email, canonicalizeEmail (canonicalizeEmail email) = canonicalizeEmail email
  /-- `argon2`: a hash of the password under a salt. -/
  hash : ℕ → String → String
  verify : String → String → Bool
  verify_hash : ∀ salt password, verify (hash salt password) password = true
  /-- `dbForTenant`. -/
  shardOf : TenantId → ShardId
  /-- The operation that changes the email of a user, a fingerprint of all three. -/
  changeOperationId : TenantId → UserId → String → String
  refreshTtlMs : Time
  graceMs : Time

/-- What is open about a step: the clock, the salt of a hash, the numbers the random identifiers come to, and
with which row a list without an order begins. -/
structure Env where
  now : Time
  salt : ℕ
  id : ℕ → ℕ
  tie : ℕ

/-! ## Queries -/

namespace Db

variable (ports : Ports) (db : Db)

/-- The number of the next random identifier: as the environment has it, unless it is taken. -/
def fresh (e : Env) : ℕ := if e.id db.drawn.length ∈ db.drawn then db.drawn.sum + 1 else e.id db.drawn.length

/-- `dirQueryByLookup`. -/
def byLookup (lookup : Lookup) : Option DirectoryRow := db.directory.find? (·.lookup = lookup)

/-- `dirQueryPendingBefore`, in any order. -/
def pendingBefore (graceMs : Time) (e : Env) : List DirectoryRow :=
  (db.directory.filter fun row => row.status = .PENDING ∧ row.updatedAt ≤ e.now - graceMs).rotate e.tie

/-- `dbForTenant`. -/
def dbForTenant (tenantId : TenantId) : Shard := db.shard (ports.shardOf tenantId)

end Db

/-- `authQueryUserById`. -/
def Shard.userById (shard : Shard) (userId : UserId) : Option User := shard.users.find? (·.id = userId)

/-- `authQueryRefreshToken`. -/
def Shard.refreshToken (shard : Shard) (tokenHash : Token) : Option RefreshToken :=
  shard.refreshTokens.find? fun row => row.tokenHash = tokenHash ∧ row.isRevoked = false

/-- `bootQueryByOperation`. -/
def Shard.bootByOperation (shard : Shard) (tenantId : TenantId) (operationId : String) : Option Bootstrap :=
  shard.bootstraps.find? fun row => row.tenantId = tenantId ∧ row.operationId = operationId

/-! ## Commands -/

/-- What the database executes in one step. -/
inductive Cmd
  /-- `dirCmdReserve` of a registration, whose identifiers are drawn with it. -/
  | reserveTenant (email operationId pendingPasswordHash : String)
  /-- `dirCmdReserve` of a refresh token. -/
  | recordActiveLookup (tenantId : TenantId) (token : Token)
  /-- `dirCmdReserve` of an email change. -/
  | reserveEmailChange (tenantId : TenantId) (userId : UserId) (oldEmail newEmail operationId : String)
  | dirActivate (lookup : Lookup) (operationId : String)
  | dirDeleteByLookup (lookup : Lookup)
  | dirDeleteByLookupOp (lookup : Lookup) (operationId : String)
  /-- The transaction of `completeEmailChange`. -/
  | completeEmailChange (oldEmail newEmail operationId : String)
  /-- The transaction of `IdentityWriter.create`. -/
  | createIdentity (tenantId : TenantId) (userId : UserId)
  /-- The transaction of `register` in the shard. -/
  | createUser (tenantId : TenantId) (userId : UserId) (email passwordHash operationId : String)
  | updateEmail (tenantId : TenantId) (userId : UserId) (email : String)
  /-- A refresh token is issued; `exchanged` is the one that is given for it. -/
  | createRefreshToken (tenantId : TenantId) (userId : UserId) (exchanged : Option Token)
  | revokeTokenById (tenantId : TenantId) (token : Token)
  | revokeTokenByHash (tenantId : TenantId) (token : Token)
  | revokeTokensByUser (tenantId : TenantId) (userId : UserId)
  | cleanupExpiredTokens (shard : ShardId) (cutoff : Time)
  deriving DecidableEq, Repr

/-- What a command answers: the rows it has affected, or the token it has issued. -/
inductive Answer
  | rowsAffected (n : ℕ)
  | token (token : Token)
  deriving DecidableEq, Repr

abbrev Reply := Except AuthError Answer

namespace Db

variable (ports : Ports) (e : Env) (db : Db)

/-- `INSERT … ON CONFLICT(lookup_kind, lookup_value) DO NOTHING`. -/
def reserve (row : DirectoryRow) : Db × Reply :=
  if (db.byLookup row.lookup).isSome then (db, .ok (.rowsAffected 0))
  else ({ db with directory := db.directory ++ [row] }, .ok (.rowsAffected 1))

/-- The entry may be activated by the operation. -/
def Pends (row : DirectoryRow) (lookup : Lookup) (operationId : String) : Prop :=
  row.lookup = lookup ∧ row.operationId = operationId ∧ row.status = .PENDING

instance (row : DirectoryRow) (lookup : Lookup) (operationId : String) :
    Decidable (Pends row lookup operationId) := inferInstanceAs (Decidable (_ ∧ _ ∧ _))

def activate (lookup : Lookup) (operationId : String) : Db :=
  { db with
    directory := Table.update (Pends · lookup operationId)
      (fun row => { row with status := .ACTIVE, updatedAt := e.now }) db.directory }

def deleteByLookup (lookup : Lookup) : Db :=
  { db with directory := db.directory.filter fun row => ¬ row.lookup = lookup }

def deleteByLookupOp (lookup : Lookup) (operationId : String) : Db :=
  { db with directory := db.directory.filter fun row => ¬ Pends row lookup operationId }

def putShard (tenantId : TenantId) (shard : Shard) : Db :=
  { db with shard := Function.update db.shard (ports.shardOf tenantId) shard }

def updateTokens (shard : ShardId) (p : RefreshToken → Prop) [DecidablePred p] : Db :=
  { db with
    shard := Function.update db.shard shard { db.shard shard with
      refreshTokens := Table.update p (fun row => { row with isRevoked := true })
        (db.shard shard).refreshTokens } }

def count (n : ℕ) : Reply := .ok (.rowsAffected n)

end Db

/-- What a command does. -/
def exec (ports : Ports) (e : Env) (cmd : Cmd) (db : Db) : Db × Reply :=
  match cmd with
  | .reserveTenant email operationId pendingPasswordHash =>
    let db₁ := { db with drawn := db.fresh e :: db.drawn }
    let db₂ := { db₁ with drawn := db₁.fresh e :: db₁.drawn }
    db₂.reserve {
      tenantId := db.fresh e, userId := some (db₁.fresh e), operationId, operationKind := .REGISTER,
      previousLookupValue := none, pendingPasswordHash := some pendingPasswordHash,
      lookup := .email email, status := .PENDING, updatedAt := e.now }
  | .recordActiveLookup tenantId token =>
    db.reserve {
      tenantId, userId := none, operationId := "lk:refresh_token_hash", operationKind := .TOKEN,
      previousLookupValue := none, pendingPasswordHash := none, lookup := .refresh_token_hash token,
      status := .ACTIVE, updatedAt := e.now }
  | .reserveEmailChange tenantId userId oldEmail newEmail operationId =>
    db.reserve {
      tenantId, userId := some userId, operationId, operationKind := .EMAIL_CHANGE,
      previousLookupValue := some oldEmail, pendingPasswordHash := none, lookup := .email newEmail,
      status := .PENDING, updatedAt := e.now }
  | .dirActivate lookup operationId =>
    (db.activate e lookup operationId, Db.count (db.directory.countP (Db.Pends · lookup operationId)))
  | .dirDeleteByLookup lookup =>
    (db.deleteByLookup lookup, Db.count (db.directory.countP (·.lookup = lookup)))
  | .dirDeleteByLookupOp lookup operationId =>
    (db.deleteByLookupOp lookup operationId, Db.count (db.directory.countP (Db.Pends · lookup operationId)))
  | .completeEmailChange oldEmail newEmail operationId =>
    if db.directory.countP (Db.Pends · (.email newEmail) operationId) = 1 then
      ((db.activate e (.email newEmail) operationId).deleteByLookup (.email oldEmail), Db.count 1)
    else
      (db, .error (.STATE_INVALID_TRANSITION "改名提交失败：新 email PENDING→ACTIVE CAS 未命中，旧 email 保留"))
  | .createIdentity tenantId userId =>
    let shard := db.dbForTenant ports tenantId
    if ∃ row ∈ shard.identities, row.userId = userId then (db, .error (.UniqueViolation "identities.user_id"))
    else
      (db.putShard ports tenantId { shard with identities := shard.identities ++ [⟨userId, tenantId⟩] },
        Db.count 1)
  | .createUser tenantId userId email passwordHash operationId =>
    let shard := db.dbForTenant ports tenantId
    if ∃ user ∈ shard.users, user.id = userId then (db, .error (.UniqueViolation "users.id"))
    else if ∃ user ∈ shard.users, user.email = email then (db, .error (.UniqueViolation "users.email"))
    else
      let bootstraps :=
        if (shard.bootByOperation tenantId operationId).isSome then shard.bootstraps
        else shard.bootstraps ++ [⟨tenantId, operationId⟩]
      (db.putShard ports tenantId
        { shard with users := shard.users ++ [⟨userId, email, passwordHash, tenantId⟩], bootstraps },
        Db.count 1)
  | .updateEmail tenantId userId email =>
    let shard := db.dbForTenant ports tenantId
    if (∃ user ∈ shard.users, user.tenantId = tenantId ∧ user.id = userId) ∧
        ∃ user ∈ shard.users, user.email = email ∧ user.id ≠ userId then
      (db, .error (.UniqueViolation "users.email"))
    else
      (db.putShard ports tenantId
        { shard with
          users := Table.update (fun user => user.tenantId = tenantId ∧ user.id = userId)
            (fun user => { user with email }) shard.users },
        Db.count (shard.users.countP fun user => user.tenantId = tenantId ∧ user.id = userId))
  | .createRefreshToken tenantId userId _ =>
    let shard := db.dbForTenant ports tenantId
    ({ db.putShard ports tenantId
        { shard with
          refreshTokens := shard.refreshTokens ++
            [⟨userId, db.fresh e, false, e.now + ports.refreshTtlMs, e.now⟩] } with
        drawn := db.fresh e :: db.drawn },
      .ok (.token (db.fresh e)))
  | .revokeTokenById tenantId token | .revokeTokenByHash tenantId token =>
    (db.updateTokens (ports.shardOf tenantId) (·.tokenHash = token),
      Db.count ((db.dbForTenant ports tenantId).refreshTokens.countP (·.tokenHash = token)))
  | .revokeTokensByUser tenantId userId =>
    (db.updateTokens (ports.shardOf tenantId) (·.userId = userId),
      Db.count ((db.dbForTenant ports tenantId).refreshTokens.countP (·.userId = userId)))
  | .cleanupExpiredTokens shard cutoff =>
    let old : RefreshToken → Prop := fun row =>
      row.isRevoked = true ∧ row.createdAt < cutoff ∨ row.expiresAt < cutoff
    have : DecidablePred old := fun _ => inferInstanceAs (Decidable (_ ∧ _ ∨ _))
    ({ db with
        shard := Function.update db.shard shard { db.shard shard with
          refreshTokens := (db.shard shard).refreshTokens.filter fun row => ¬ old row } },
      Db.count ((db.shard shard).refreshTokens.countP fun row => old row))

end ChronoSynth.Identity
