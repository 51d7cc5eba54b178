import Mathlib.Logic.Function.Basic
import ChronoSynth.Lib.Traces

/-!
# Break-glass tokens

The table `break_glass_jti_consumptions` and the calls of `BreakGlassService`: `issue`, `verify`, which consumes
the token, and `pruneExpired`.

* Every command is one statement, but for `consume`, the transaction of a consumption and its evidence, which is
  carried out as a whole or not at all. All replicas have one clock, which never goes back; a step says how much
  time has elapsed since the one before.
* A signature cannot be forged: a token is genuine exactly if it has been issued. The random `jti` is numbered.
* The `lastGc` of a replica lives in its memory, which is a part of the state here. The evidence is left out;
  that it cannot be written is what goes wrong in a consumption.
-/

namespace ChronoSynth.BreakGlass

inductive BreakGlassScope
  | authKeysRotate | authKeysCompromise | authUserUnlock | dataRestore | tenantDeleteOverride
  deriving DecidableEq, Repr

structure BreakGlassPayload where
  jti : ℕ
  iat : ℤ
  exp : ℤ
  requestedBy : String
  approvalId : String
  scope : BreakGlassScope
  tenantId : String
  deriving DecidableEq, Repr

def MAX_TTL_MS : ℤ := 15 * 60 * 1000

inductive BreakGlassError
  | invalidFormat | signatureInvalid | expired | scopeMismatch | tenantMismatch | replayDetected
  | noApprovalId | ttlTooLong
  /-- The evidence could not be written. -/
  | evidence (error : String)
  deriving DecidableEq, Repr

/-- A row of `break_glass_jti_consumptions`. -/
structure Consumption where
  tenantId : String
  jti : ℕ
  tokenScope : BreakGlassScope
  consumedAt : ℤ
  consumedBy : Option String
  requestIp : Option String
  deriving DecidableEq, Repr

structure BreakGlassState where
  clock : ℤ
  /-- The tokens that have been issued. -/
  issued : List BreakGlassPayload
  consumptions : List Consumption
  /-- The `lastGc` of each replica. -/
  lastGc : ℕ → ℤ

/-- All replicas have been started at the given time. -/
def BreakGlassState.started (clock : ℤ) : BreakGlassState := ⟨clock, [], [], fun _ => clock⟩

/-- What is open about a step: the time that has elapsed, and what goes wrong in a transaction. -/
structure Env where
  elapsed : ℕ
  failure : Option String
  deriving DecidableEq

/-- Some time later, and nothing goes wrong. -/
def Env.after (elapsed : ℕ) : Env := ⟨elapsed, none⟩

/-- The key of a token's consumption: a token without a tenant is one of the platform. -/
def BreakGlassPayload.partitionTenant (payload : BreakGlassPayload) : String :=
  if payload.tenantId = "" then "platform" else payload.tenantId

/-- The row of a consumption. -/
def BreakGlassPayload.consumption (payload : BreakGlassPayload) (consumedAt : ℤ) (requestIp : Option String) :
    Consumption where
  tenantId := payload.partitionTenant
  jti := payload.jti
  tokenScope := payload.scope
  consumedAt
  consumedBy := if payload.requestedBy = "" then none else some payload.requestedBy
  requestIp

/-! ## Commands -/

inductive BreakGlassCmd
  /-- `Date.now()`. -/
  | now
  /-- The clock, and whether it is time for the replica to prune. -/
  | cadence (replica : ℕ)
  | issue (requestedBy approvalId : String) (scope : BreakGlassScope) (tenantId : String) (ttlMs : ℤ)
  | consume (payload : BreakGlassPayload) (requiredScope : BreakGlassScope) (requestedTenantId : String)
      (consumedAt : ℤ) (requestIp : Option String)
  | pruneConsumptions (before : ℤ)
  deriving DecidableEq, Repr

structure BreakGlassReply where
  rowsAffected : ℕ
  clock : ℤ
  due : Bool
  token : Option BreakGlassPayload
  failure : Option String
  deriving DecidableEq, Repr

/-- The reply of a statement. -/
def BreakGlassReply.affected (rows : ℕ) (clock : ℤ) : BreakGlassReply := ⟨rows, clock, false, none, none⟩

namespace BreakGlassState

variable (s : BreakGlassState)

/-- The token has a row. -/
def Consumed (payload : BreakGlassPayload) : Prop :=
  ∃ row ∈ s.consumptions, row.tenantId = payload.partitionTenant ∧ row.jti = payload.jti

instance (payload : BreakGlassPayload) : Decidable (s.Consumed payload) :=
  inferInstanceAs (Decidable (∃ row ∈ _, _))

end BreakGlassState

/-- What a command does once it is time. -/
def execNow (failure : Option String) (cmd : BreakGlassCmd) (s : BreakGlassState) :
    BreakGlassState × BreakGlassReply :=
  match cmd with
  | .now => (s, .affected 0 s.clock)
  | .cadence replica =>
    if s.clock - s.lastGc replica < 60000 then (s, .affected 0 s.clock)
    else ({ s with lastGc := Function.update s.lastGc replica s.clock },
      { BreakGlassReply.affected 0 s.clock with due := true })
  | .issue requestedBy approvalId scope tenantId ttlMs =>
    let payload : BreakGlassPayload := {
      jti := s.issued.length, iat := s.clock, exp := s.clock + ttlMs, requestedBy, approvalId, scope,
      tenantId }
    ({ s with issued := s.issued ++ [payload] },
      { BreakGlassReply.affected 0 s.clock with token := some payload })
  | .consume payload _ _ consumedAt requestIp =>
    if s.Consumed payload then (s, .affected 0 s.clock)
    else match failure with
      | some error => (s, { BreakGlassReply.affected 0 s.clock with failure := some error })
      | none =>
        ({ s with consumptions := s.consumptions ++ [payload.consumption consumedAt requestIp] },
          .affected 1 s.clock)
  | .pruneConsumptions before =>
    ({ s with consumptions := s.consumptions.filter fun row => ¬ row.consumedAt < before },
      .affected (s.consumptions.countP fun row => row.consumedAt < before) s.clock)

def exec (e : Env) (cmd : BreakGlassCmd) (s : BreakGlassState) : BreakGlassState × BreakGlassReply :=
  execNow e.failure cmd { s with clock := s.clock + e.elapsed }

/-! ## The calls -/

abbrev BreakGlassProg := Prog BreakGlassState BreakGlassCmd BreakGlassReply Env BreakGlassError

/-- `Date.now()`. -/
def now : BreakGlassProg ℤ := do return (← Prog.transaction .now).clock

def issue (requestedBy approvalId : String) (scope : BreakGlassScope) (tenantId : String)
    (ttlMs : Option ℤ) : BreakGlassProg (Option BreakGlassPayload) := do
  if approvalId = "" then .throw .noApprovalId
  else
    let ttlMs := ttlMs.getD MAX_TTL_MS
    if MAX_TTL_MS < ttlMs ∨ ttlMs ≤ 0 then .throw .ttlTooLong
    else return (← Prog.transaction (.issue requestedBy approvalId scope tenantId ttlMs)).token

/-- `pruneExpired`, at the given time. -/
def pruneExpired (now : ℤ) : BreakGlassProg ℕ := do
  return (← Prog.transaction (.pruneConsumptions (now - 2 * MAX_TTL_MS))).rowsAffected

def pruneExpiredCadenced (replica : ℕ) : BreakGlassProg Unit := do
  let reply ← Prog.transaction (.cadence replica)
  if reply.due then
    let _ ← pruneExpired reply.clock
    return
  else return

/-- `deserialise`, of a text that stands for the payload, or for none. -/
def deserialise (token : Option BreakGlassPayload) : BreakGlassProg BreakGlassPayload :=
  match token with
  | none => .throw .invalidFormat
  | some payload => do
    let genuine ← Prog.query fun s : BreakGlassState => decide (payload ∈ s.issued)
    if genuine then return payload else .throw .signatureInvalid

def verify (replica : ℕ) (token : Option BreakGlassPayload) (requiredScope : BreakGlassScope)
    (requestedTenantId : String) (requestIp : Option String) : BreakGlassProg BreakGlassPayload := do
  pruneExpiredCadenced replica
  let payload ← deserialise token
  let now ← now
  if payload.exp ≤ now then .throw .expired
  else if payload.scope ≠ requiredScope then .throw .scopeMismatch
  else if payload.tenantId ≠ requestedTenantId then .throw .tenantMismatch
  else
    let reply ← Prog.transaction (.consume payload requiredScope requestedTenantId now requestIp)
    match reply.failure with
    | some error => .throw (.evidence error)
    | none => if reply.rowsAffected = 0 then .throw .replayDetected else return payload

inductive BreakGlassCall
  | issue (requestedBy approvalId : String) (scope : BreakGlassScope) (tenantId : String)
      (ttlMs : Option ℤ)
  | verify (replica : ℕ) (token : Option BreakGlassPayload) (requiredScope : BreakGlassScope)
      (requestedTenantId : String) (requestIp : Option String)
  | prune
  deriving DecidableEq

inductive BreakGlassResult
  | issued (token : Option BreakGlassPayload)
  | accepted (payload : BreakGlassPayload)
  | pruned (rows : ℕ)
  deriving DecidableEq

def BreakGlassCall.start : BreakGlassCall → BreakGlassProg BreakGlassResult
  | .issue requestedBy approvalId scope tenantId ttlMs =>
    return .issued (← BreakGlass.issue requestedBy approvalId scope tenantId ttlMs)
  | .verify replica token requiredScope requestedTenantId requestIp =>
    return .accepted (← BreakGlass.verify replica token requiredScope requestedTenantId requestIp)
  | .prune => do
    let now ← now
    return .pruned (← pruneExpired now)

/-- The calls of any number of replicas over the table. -/
abbrev BreakGlassPool :=
  Pool BreakGlassCall BreakGlassState BreakGlassCmd BreakGlassReply Env BreakGlassError BreakGlassResult

abbrev BreakGlassThread :=
  Thread BreakGlassCall BreakGlassState BreakGlassCmd BreakGlassReply Env BreakGlassError BreakGlassResult

abbrev BreakGlassMove := Move BreakGlassCall Env

end ChronoSynth.BreakGlass
