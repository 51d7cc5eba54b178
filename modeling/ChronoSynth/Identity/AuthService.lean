import ChronoSynth.Identity.Types

/-!
# Registration, sessions, changes of email, and recovery

`AuthService`, `UserEmailDirectoryService` and `TenantReservationRecovery`, over the methods of
`TenantIdentityDirectory`. A call reads and commands one statement after the other; each is a step of its own,
and a call may crash after any of them, which is to say that it makes no further step.
-/

namespace ChronoSynth.Identity

abbrev IdentityCall := Prog Db Cmd Reply Env AuthError

/-- A command; its error is thrown. -/
def send (cmd : Cmd) : IdentityCall Answer := do
  match ← Prog.transaction cmd with
  | .ok answer => return answer
  | .error err => .throw err

/-- The number of rows a command has affected. -/
def rows (cmd : Cmd) : IdentityCall ℕ := do
  match ← send cmd with
  | .rowsAffected n => return n
  | .token _ => return 1

def checking (c : Prop) [Decidable c] (err : AuthError) : IdentityCall Unit :=
  if c then return () else .throw err

variable (ports : Ports)

/-! ## The directory -/

/-- `readLookup`: an entry that has just been written is there. -/
def readLookup (lookup : Lookup) : IdentityCall DirectoryRow := do
  match ← Prog.query (·.byLookup lookup) with
  | none => .throw (.STORAGE_READ "目录项写入后读回缺失")
  | some row => return row

/-- What `reserveTenant` returns. -/
structure Reservation where
  reservedByUs : Bool
  canonicalTenantId : TenantId
  canonicalUserId : UserId
  pendingPasswordHash : Option String
  deriving DecidableEq, Repr

/-- `reserveTenant`. -/
def reserveTenant (email operationId pendingPasswordHash : String) : IdentityCall Reservation := do
  let lookupValue := ports.canonicalizeEmail email
  let _ ← send (.reserveTenant lookupValue operationId pendingPasswordHash)
  let row ← readLookup (.email lookupValue)
  match row.userId with
  | none => .throw (.STORAGE_READ "目录项缺少 user_id")
  | some canonicalUserId =>
    checking (row.operationId = operationId → row.pendingPasswordHash ≠ none)
      (.STORAGE_READ "register 目录项缺少 pending_password_hash")
    return {
      reservedByUs := row.operationId = operationId, canonicalTenantId := row.tenantId, canonicalUserId,
      pendingPasswordHash := row.pendingPasswordHash }

/-- `activateTenant`. -/
def activateTenant (email operationId : String) : IdentityCall Bool := do
  return (← rows (.dirActivate (.email (ports.canonicalizeEmail email)) operationId)) = 1

/-- `resolveByEmail`. -/
def resolveByEmail (email : String) : IdentityCall (Option DirectoryRow) :=
  Prog.query (·.byLookup (.email (ports.canonicalizeEmail email)))

/-- `resolveByRefreshTokenHash`. -/
def resolveByRefreshTokenHash (token : Token) : IdentityCall (Option TenantId) := do
  match ← Prog.query (·.byLookup (.refresh_token_hash token)) with
  | none => return none
  | some row => if row.status = .ACTIVE then return some row.tenantId else return none

/-- `recordActiveLookup`. -/
def recordActiveLookup (tenantId : TenantId) (token : Token) : IdentityCall Unit := do
  let _ ← send (.recordActiveLookup tenantId token)
  let row ← readLookup (.refresh_token_hash token)
  checking (row.tenantId = tenantId)
    (.STATE_ALREADY_EXISTS "目录键 refresh_token_hash 已映射到其他租户，拒绝覆盖")

/-- `reserveEmailChange`. -/
def reserveEmailChange (tenantId : TenantId) (userId : UserId) (oldEmail newEmail operationId : String) :
    IdentityCall Unit := do
  let newLookup := ports.canonicalizeEmail newEmail
  let _ ← send (.reserveEmailChange tenantId userId (ports.canonicalizeEmail oldEmail) newLookup operationId)
  let row ← readLookup (.email newLookup)
  checking (row.operationId = operationId) (.AUTH_EMAIL_EXISTS "目标邮箱已被占用")

/-- `completeEmailChange`. -/
def completeEmailChange (oldEmail newEmail operationId : String) : IdentityCall Unit := do
  let _ ← send (.completeEmailChange (ports.canonicalizeEmail oldEmail) (ports.canonicalizeEmail newEmail)
    operationId)
  return ()

/-- `rollbackEmailChange`. -/
def rollbackEmailChange (newEmail operationId : String) : IdentityCall Unit := do
  let _ ← send (.dirDeleteByLookupOp (.email (ports.canonicalizeEmail newEmail)) operationId)
  return ()

/-! ## Sessions -/

/-- What a session is given to: a user, and its refresh token. -/
structure TokenPair where
  userId : UserId
  tenantId : TenantId
  refreshToken : Token
  deriving DecidableEq, Repr

/-- `generateTokenPair`; `exchanged` is the token that is given for it. -/
def generateTokenPair (userId : UserId) (tenantId : TenantId) (exchanged : Option Token) :
    IdentityCall TokenPair := do
  match ← send (.createRefreshToken tenantId userId exchanged) with
  | .rowsAffected _ => .throw (.STORAGE_READ "refresh_tokens")
  | .token refreshToken =>
    recordActiveLookup tenantId refreshToken
    return { userId, tenantId, refreshToken }

/-- `login`. -/
def login (email password : String) : IdentityCall TokenPair := do
  let invalid : AuthError := .AUTH_INVALID_CREDENTIALS "邮箱或密码错误"
  match ← resolveByEmail ports (ports.canonicalizeEmail email) with
  | none => .throw invalid
  | some entry =>
    checking (entry.status = .ACTIVE) invalid
    match entry.userId with
    | none => .throw invalid
    | some userId =>
      match ← Prog.query fun db => (db.dbForTenant ports entry.tenantId).userById userId with
      | none => .throw invalid
      | some user =>
        checking (user.id = userId ∧ user.tenantId = entry.tenantId) invalid
        checking (ports.verify user.passwordHash password = true) invalid
        generateTokenPair user.id user.tenantId none

/-- `refresh`. -/
def refresh (token : Token) : IdentityCall TokenPair := do
  let expired : AuthError := .AUTH_EXPIRED "刷新令牌无效或已过期"
  match ← resolveByRefreshTokenHash token with
  | none => .throw expired
  | some tenantId =>
    let found ← Prog.queryAny fun e db =>
      ((db.dbForTenant ports tenantId).refreshToken token).filter fun row => e.now ≤ row.expiresAt
    match found with
    | none => .throw expired
    | some row =>
      match ← Prog.query fun db => (db.dbForTenant ports tenantId).userById row.userId with
      | none => .throw (.AUTH_INVALID_TOKEN "用户不存在")
      | some user =>
        let _ ← send (.revokeTokenById tenantId row.tokenHash)
        let _ ← send (.dirDeleteByLookup (.refresh_token_hash token))
        generateTokenPair user.id user.tenantId (some row.tokenHash)

/-- `revokeByTokenHash`. -/
def revokeByTokenHash (token : Token) : IdentityCall Unit := do
  match ← resolveByRefreshTokenHash token with
  | none => return ()
  | some tenantId =>
    let _ ← send (.revokeTokenByHash tenantId token)
    let _ ← send (.dirDeleteByLookup (.refresh_token_hash token))
    return ()

/-- `logout`, of a token, of a user with his tenant, or of both. -/
def logout (token : Option Token) (jwtUser : Option (TenantId × UserId)) : IdentityCall Unit := do
  match token with
  | none => pure ()
  | some token => revokeByTokenHash token
  match jwtUser with
  | none => return ()
  | some (tenantId, userId) =>
    let _ ← send (.revokeTokensByUser tenantId userId)
    return ()

/-! ## Registration -/

/-- `register`. -/
def register (email password operationId : String) : IdentityCall TokenPair := do
  let canonEmail := ports.canonicalizeEmail email
  let exists_ : AuthError := .AUTH_EMAIL_EXISTS "该邮箱已注册"
  let inProgress : AuthError := .AUTH_REGISTRATION_IN_PROGRESS "该邮箱注册进行中"
  let existing ← resolveByEmail ports canonEmail
  checking (∀ entry ∈ existing, entry.status ≠ .ACTIVE) exists_
  let firstHash ← Prog.queryAny fun e _ => ports.hash e.salt password
  let reserved ← reserveTenant ports canonEmail operationId firstHash
  if reserved.reservedByUs = false then
    let cur ← resolveByEmail ports canonEmail
    .throw (if ∃ entry ∈ cur, entry.status = .ACTIVE then exists_ else inProgress)
  else
    match reserved.pendingPasswordHash with
    | none => .throw inProgress
    | some passwordHash =>
      let tenantId := reserved.canonicalTenantId
      let userId := reserved.canonicalUserId
      checking (ports.verify passwordHash password = true) inProgress
      let boot ← Prog.query fun db => (db.dbForTenant ports tenantId).bootByOperation tenantId operationId
      if boot = none then
        let _ ← send (.createIdentity tenantId userId)
        let _ ← send (.createUser tenantId userId canonEmail passwordHash operationId)
        confirm tenantId userId canonEmail
      else confirm tenantId userId canonEmail
where
  /-- The entry is activated, and only then tokens are issued. -/
  confirm (tenantId : TenantId) (userId : UserId) (canonEmail : String) : IdentityCall TokenPair := do
    if (← activateTenant ports canonEmail operationId) = true then generateTokenPair userId tenantId none
    else
      let row ← resolveByEmail ports canonEmail
      checking (∃ entry ∈ row, entry.tenantId = tenantId ∧ entry.status = .ACTIVE)
        (.AUTH_REGISTRATION_RETRY "注册未确认，请携原 Idempotency-Key 重试")
      generateTokenPair userId tenantId none

/-! ## Changes of email -/

/-- `updateEmail`; what it returns is the user's new row. -/
def updateEmail (tenantId : TenantId) (userId : UserId) (email : String) : IdentityCall User := do
  let canonNew := ports.canonicalizeEmail email
  let missing : AuthError := .AUTH_INVALID_TOKEN "用户不存在"
  match ← Prog.query fun db => (db.dbForTenant ports tenantId).userById userId with
  | none => .throw missing
  | some user =>
    checking (user.tenantId = tenantId) missing
    let canonOld := ports.canonicalizeEmail user.email
    let operationId := ports.changeOperationId tenantId userId canonNew
    if canonOld = canonNew then
      match ← resolveByEmail ports canonNew with
      | some ⟨tenant, _, _, .EMAIL_CHANGE, some previous, _, _, .PENDING, _⟩ =>
        if tenant = tenantId then
          completeEmailChange ports previous canonNew operationId
          readProfile
        else readProfile
      | _ => readProfile
    else
      let existing ← resolveByEmail ports canonNew
      checking (∀ entry ∈ existing, entry.tenantId = tenantId) (.AUTH_EMAIL_EXISTS "该邮箱已被使用")
      reserveEmailChange ports tenantId userId canonOld canonNew operationId
      let _ ← send (.updateEmail tenantId userId canonNew)
      completeEmailChange ports canonOld canonNew operationId
      readProfile
where
  /-- `readProfile`. -/
  readProfile : IdentityCall User := do
    match ← Prog.query fun db => (db.dbForTenant ports tenantId).userById userId with
    | none => .throw (.AUTH_INVALID_TOKEN "用户不存在")
    | some user => return user

/-! ## Recovery -/

/-- `reconcileRegister`. -/
def reconcileRegister (pending : DirectoryRow) (email : String) : IdentityCall Unit := do
  let boot ← Prog.query fun db =>
    (db.dbForTenant ports pending.tenantId).bootByOperation pending.tenantId pending.operationId
  if boot = none then return ()
  else
    let _ ← activateTenant ports email pending.operationId
    return ()

/-- `reconcileEmailChange`. -/
def reconcileEmailChange (pending : DirectoryRow) (email : String) : IdentityCall Unit := do
  match pending.userId with
  | none => settle none
  | some userId =>
    let user ← Prog.query fun db => (db.dbForTenant ports pending.tenantId).userById userId
    settle (user.map (·.email))
where
  /-- What the shard says about the email decides. -/
  settle (shardEmail : Option String) : IdentityCall Unit :=
    if shardEmail = some email then
      completeEmailChange ports (pending.previousLookupValue.getD "") email pending.operationId
    else if shardEmail = pending.previousLookupValue then
      rollbackEmailChange ports email pending.operationId
    else return ()

/-- `reconcileOne`. -/
def reconcileOne (pending : DirectoryRow) : IdentityCall Unit :=
  match pending.lookup, pending.operationKind with
  | .email email, .REGISTER => reconcileRegister ports pending email
  | .email email, .EMAIL_CHANGE => reconcileEmailChange ports pending email
  | _, _ => return ()

/-- `try … catch` around a call whose error is only logged. -/
def isolated : IdentityCall Unit → IdentityCall Unit
  | .ret a => .ret a
  | .throw _ => .ret ()
  | .read f => .read fun e db => isolated (f e db)
  | .txn cmd k => .txn cmd fun r => isolated (k r)

def reconcileAll : List DirectoryRow → IdentityCall Unit
  | [] => return ()
  | pending :: rest => do
    isolated (reconcileOne ports pending)
    reconcileAll rest

/-- `reconcile`. -/
def reconcile : IdentityCall Unit := do
  let stale ← Prog.queryAny fun e db => db.pendingBefore ports.graceMs e
  reconcileAll ports stale

/-! ## The system -/

inductive Call
  | register (email password operationId : String)
  | login (email password : String)
  | refresh (token : Token)
  | logout (token : Option Token) (jwtUser : Option (TenantId × UserId))
  | revokeByTokenHash (token : Token)
  | updateEmail (tenantId : TenantId) (userId : UserId) (email : String)
  | reconcile
  | cleanupExpired (shard : ShardId) (cutoff : Time)
  deriving DecidableEq, Repr

/-- What a call returns. -/
inductive Outcome
  | done
  | tokens (pair : TokenPair)
  deriving DecidableEq, Repr

def Call.start : Call → IdentityCall Outcome
  | .register email password operationId => do
    return .tokens (← Identity.register ports email password operationId)
  | .login email password => do return .tokens (← Identity.login ports email password)
  | .refresh token => do return .tokens (← Identity.refresh ports token)
  | .logout token jwtUser => do Identity.logout token jwtUser; return .done
  | .revokeByTokenHash token => do Identity.revokeByTokenHash token; return .done
  | .updateEmail tenantId userId email => do
    let _ ← Identity.updateEmail ports tenantId userId email
    return .done
  | .reconcile => do Identity.reconcile ports; return .done
  | .cleanupExpired shard cutoff => do let _ ← send (.cleanupExpiredTokens shard cutoff); return .done

/-- The databases with the calls in progress. -/
abbrev IdentityPool := Pool Call Db Cmd Reply Env AuthError Outcome

abbrev IdentityThread := Thread Call Db Cmd Reply Env AuthError Outcome

abbrev IdentityMove := Move Call Env

def IdentityPool.step : IdentityPool → IdentityMove → IdentityPool := Pool.step (Call.start ports) (exec ports)

/-- Nobody has registered, and nobody calls. -/
def IdentityPool.init : IdentityPool := Pool.idle .empty

/-! ## A deployment -/

/-- One shard, passwords that hash to themselves, and sessions of a thousand milliseconds. -/
def Ports.plain : Ports where
  canonicalizeEmail := id
  canonicalizeEmail_idem _ := rfl
  hash _ := id
  verify := fun hash password => hash = password
  verify_hash _ _ := decide_eq_true rfl
  shardOf _ := 0
  changeOperationId _ _ := id
  refreshTtlMs := 1000
  graceMs := 0

/-- One reading of the clock; the numbers follow one another. -/
def Env.plain (now : Time) : Env := ⟨now, 0, fun n => n, 0⟩

/-- The steps of a call. -/
def steps (i n : ℕ) (now : Time) : List IdentityMove := List.replicate n (.go i (.plain now))

end ChronoSynth.Identity
