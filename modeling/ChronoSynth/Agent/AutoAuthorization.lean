import ChronoSynth.Lib.JsonValue
import ChronoSynth.Lib.RowMap
import ChronoSynth.Lib.Traces
import Mathlib.Tactic.SplitIfs

/-!
# Automatic authorisation of tools

Translation of `tool-auto-authorization-bridge.ts` over the stores it uses: the permissions (one row for each tool
of a persona, which a grant replaces as a whole), the suggestions of the eligibility projection, the requests that
wait for approval, and the whitelist in the governance overrides.

* The clock that a run reads is a part of its call; the clock of a command is an oracle, and so is the order in
  which a `SELECT` without `ORDER BY` lists the suggestions.
* The ids and revocation keys, which are random, are numbered.
* A whitelist that is not set is the empty object literal, which has the properties of `Object.prototype`; one that
  is set has no prototype.
-/

namespace ChronoSynth.Agent

/-! ## Rows -/

/-- The scopes of the administration are the first three; a whitelist may also give the last. -/
inductive ToolScope
  | read | write | execute | any
  deriving DecidableEq

structure ToolConstraints where
  maxActionsPerDay : Option ℕ
  requireConfirmation : Option Bool
  budgetLimitCents : Option ℕ
  allowList : Option (List String)
  denyList : Option (List String)
  deriving DecidableEq

structure PermissionKey where
  tenantId : String
  personaId : String
  toolId : String
  deriving DecidableEq

/-- A row of `tool_permissions`. -/
structure ToolPermission where
  id : ℕ
  key : PermissionKey
  scope : ToolScope
  constraints : ToolConstraints
  grantedBy : String
  grantedAt : ℚ
  expiresAt : Option ℚ
  revokedAt : Option ℚ
  revocationKey : ℕ
  deriving DecidableEq

inductive EligibilityRiskClass
  | high | low
  deriving DecidableEq

/-- A row of `capability_tool_eligibility`: a suggestion. -/
structure CapabilityToolEligibility where
  tenantId : String
  personaId : String
  capability : String
  toolId : String
  schemaVersion : String
  sourceRuleVersion : String
  riskClass : EligibilityRiskClass
  expiresAt : Option ℚ
  active : Bool
  deriving DecidableEq

inductive ToolAuthorizationRequestStatus
  | pending | approved | rejected
  deriving DecidableEq

structure RequestKey where
  tenantId : String
  personaId : String
  capability : String
  toolId : String
  deriving DecidableEq

inductive RequestReason
  | high_risk | not_whitelisted
  deriving DecidableEq

/-- A row of `tool_authorization_requests`. -/
structure ToolAuthorizationRequest where
  id : ℕ
  key : RequestKey
  sourceRuleVersion : String
  riskClass : EligibilityRiskClass
  reason : RequestReason
  status : ToolAuthorizationRequestStatus
  requestedAt : ℚ
  deriving DecidableEq

namespace ToolAuthorizationRequest

/-- The request waits for a decision about this suggestion. -/
def PendingFor (key : RequestKey) (r : ToolAuthorizationRequest) : Prop := r.key = key ∧ r.status = .pending

instance (key : RequestKey) : DecidablePred (PendingFor key) := fun r =>
  inferInstanceAs (Decidable (r.key = key ∧ r.status = .pending))

end ToolAuthorizationRequest

/-- The requests: at most one of those with a key is pending. -/
structure RequestTable where
  rows : List ToolAuthorizationRequest
  unique : ∀ key, rows.countP (fun r => r.PendingFor key) ≤ 1

/-! ## The whitelist -/

/-- What governance lets be granted automatically. -/
structure ToolAutoAuthPolicy where
  scope : ToolScope
  maxExpiryMs : JsNumber
  requireConfirmation : Option Bool
  scope_valid : scope ≠ .execute
  expires : 0 < maxExpiryMs.val

abbrev Whitelist := List (String × ToolAutoAuthPolicy)

namespace Whitelist

/-- The scopes that `VALID_TOOL_SCOPES` has. -/
def scope? : Json → Option { s : ToolScope // s ≠ .execute }
  | .str "read" => some ⟨.read, by decide⟩
  | .str "write" => some ⟨.write, by decide⟩
  | .str "any" => some ⟨.any, by decide⟩
  | _ => none

/-- The keys that would change a prototype. -/
def protoPollutionKeys : List String := ["__proto__", "constructor", "prototype"]

def sanitizePolicy (toolId : String) (raw : Json) : Except String ToolAutoAuthPolicy :=
  match raw with
  | .obj _ =>
    match (raw.get? "scope").bind scope? with
    | none => .error s!"toolAutoAuthWhitelist「{toolId}」scope 必须为 read/write/any"
    | some scope =>
      match (raw.get? "maxExpiryMs").bind Json.num? with
      | none => .error s!"toolAutoAuthWhitelist「{toolId}」maxExpiryMs 必须为正数（红线：自动授权禁永久）"
      | some ms =>
        if h : 0 < ms.val then
          .ok ⟨scope, ms, (raw.get? "requireConfirmation").map fun c => c.bool? = some true, scope.2, h⟩
        else .error s!"toolAutoAuthWhitelist「{toolId}」maxExpiryMs 必须为正数（红线：自动授权禁永久）"
  | _ => .error s!"toolAutoAuthWhitelist「{toolId}」策略必须是对象"

def sanitizeEntry (entry : String × Json) : Except String (String × ToolAutoAuthPolicy) :=
  if entry.1 = "" then .error "toolAutoAuthWhitelist toolId 不得为空"
  else if entry.1 ∈ protoPollutionKeys then
    let key := entry.1
    .error s!"toolAutoAuthWhitelist toolId 不得为原型污染键「{key}」"
  else (sanitizePolicy entry.1 entry.2).map fun policy => (entry.1, policy)

/-- The whitelist of an override, checked as it is written and as it is read. -/
def sanitizeToolAutoAuthWhitelist : Json → Except String Whitelist
  | .obj members => members.mapM sanitizeEntry
  | _ => .error "toolAutoAuthWhitelist 必须是对象（toolId → 策略）"

/-! ### What is stored is read back -/

def scopeText : ToolScope → String
  | .read => "read"
  | .write => "write"
  | .execute => "execute"
  | .any => "any"

def policyJson (policy : ToolAutoAuthPolicy) : Json :=
  .obj ([("scope", .str (scopeText policy.scope)), ("maxExpiryMs", .num policy.maxExpiryMs)] ++
    match policy.requireConfirmation with
    | none => []
    | some confirm => [("requireConfirmation", .bool confirm)])

def toJson (whitelist : Whitelist) : Json := .obj (whitelist.map fun entry => (entry.1, policyJson entry.2))

theorem sanitizePolicy_policyJson (toolId : String) (policy : ToolAutoAuthPolicy) :
    sanitizePolicy toolId (policyJson policy) = .ok policy := by
  obtain ⟨scope, ms, confirm, hscope, hms⟩ := policy
  cases scope with
  | execute => exact absurd rfl hscope
  | read | write | any =>
    rcases confirm with _ | _ | _ <;>
      simp [sanitizePolicy, policyJson, scopeText, scope?, Json.get?, Json.num?, Json.bool?, hms]

theorem sanitizeEntry_policyJson {entry : String × Json} {allowed : String × ToolAutoAuthPolicy}
    (h : sanitizeEntry entry = .ok allowed) : sanitizeEntry (allowed.1, policyJson allowed.2) = .ok allowed := by
  unfold sanitizeEntry at h ⊢
  split_ifs at h with hempty hproto
  have hid : allowed.1 = entry.1 := by
    cases hp : sanitizePolicy entry.1 entry.2 with
    | error e => rw [hp] at h; cases h
    | ok policy =>
      rw [hp] at h
      exact congrArg Prod.fst (Except.ok.inj h).symm
  rw [hid, if_neg hempty, if_neg hproto, sanitizePolicy_policyJson, ← hid]
  rfl

/-- **What is stored is read back**: a whitelist that has been accepted is accepted as it is stored, and unchanged. -/
theorem sanitize_toJson {input : Json} {whitelist : Whitelist}
    (h : sanitizeToolAutoAuthWhitelist input = .ok whitelist) :
    sanitizeToolAutoAuthWhitelist whitelist.toJson = .ok whitelist := by
  cases input with
  | null | bool | num | str | arr => cases h
  | obj members =>
    change members.mapM sanitizeEntry = .ok whitelist at h
    change (whitelist.map fun entry => (entry.1, policyJson entry.2)).mapM sanitizeEntry = .ok whitelist
    induction members generalizing whitelist with
    | nil =>
      obtain rfl : [] = whitelist := Except.ok.inj h
      rfl
    | cons entry members ih =>
      rw [List.mapM_cons] at h
      obtain ⟨allowed, hentry, h⟩ := bind_ok.1 h
      obtain ⟨rest, hrest, h⟩ := bind_ok.1 h
      obtain rfl : allowed :: rest = whitelist := Except.ok.inj h
      rw [List.map_cons, List.mapM_cons, sanitizeEntry_policyJson hentry, ih hrest]
      rfl

theorem sanitize_toJson_read : sanitizeToolAutoAuthWhitelist
    (toJson [("search", ⟨.read, .ofInt 60000, none, by decide, by decide⟩)]) =
      .ok [("search", ⟨.read, .ofInt 60000, none, by decide, by decide⟩)] := by
  have hinput : sanitizeToolAutoAuthWhitelist
      (.obj [("search", .obj [("maxExpiryMs", .num (.ofInt 60000)), ("scope", .str "read"), ("note", .null)])]) =
        .ok [("search", ⟨.read, .ofInt 60000, none, by decide, by decide⟩)] := by rfl
  exact sanitize_toJson hinput

/-- The names of the properties of `Object.prototype`. -/
def inheritedNames : List String :=
  ["constructor", "__defineGetter__", "__defineSetter__", "hasOwnProperty", "__lookupGetter__", "__lookupSetter__",
    "isPrototypeOf", "propertyIsEnumerable", "toString", "valueOf", "__proto__", "toLocaleString"]

end Whitelist

/-- What `whitelist[toolId]` may be. -/
inductive WhitelistEntry
  | policy (policy : ToolAutoAuthPolicy)
  /-- A property of `Object.prototype`, whose own fields are not those of a policy. -/
  | inherited

namespace WhitelistEntry

def scope : WhitelistEntry → Option ToolScope
  | policy p => some p.scope
  | inherited => none

/-- `policy.requireConfirmation !== false`. -/
def confirms : WhitelistEntry → Bool
  | policy p => p.requireConfirmation ≠ some false
  | inherited => true

end WhitelistEntry

def ToolAutoAuthPolicy.computeGrantExpiry (policy : ToolAutoAuthPolicy) (now : ℚ) : Option ℚ → ℚ
  | none => now + policy.maxExpiryMs.val
  | some expiresAt => min (now + policy.maxExpiryMs.val) expiresAt

/-- The expiry that is written; from what is no policy, `NaN` is computed, which is bound as `NULL`. -/
def WhitelistEntry.computeGrantExpiry (now : ℚ) (expiresAt : Option ℚ) : WhitelistEntry → Option ℚ
  | policy p => some (p.computeGrantExpiry now expiresAt)
  | inherited => none

/-- `PersonaGovernanceOverride`, as far as it is about tools. -/
structure PersonaGovernanceOverride where
  toolAutoAuthWhitelist : Option Whitelist

/-! ## Tools -/

structure ToolMetadata where
  id : String
  schemaVersion : Option String
  highRisk : Bool
  deriving DecidableEq

/-- The registered tools; one with an id that is taken is refused. -/
structure ToolRegistry where
  adapters : List ToolMetadata
  unique : (adapters.map ToolMetadata.id).Nodup

structure CurrentToolState where
  schemaVersion : String
  riskClass : EligibilityRiskClass
  deriving DecidableEq

def ToolRegistry.currentToolState (registry : ToolRegistry) (toolId : String) : Option CurrentToolState :=
  (registry.adapters.find? fun m => m.id = toolId).map fun m =>
    ⟨m.schemaVersion.getD "v1", if m.highRisk then .high else .low⟩

/-! ## The database -/

structure Db where
  /-- How many ids have been drawn. -/
  draws : ℕ
  permissions : RowMap ToolPermission.key
  requests : RequestTable
  eligibility : List CapabilityToolEligibility
  governance : String → String → Option PersonaGovernanceOverride

/-- What the database and the clock add to a step. -/
structure Env where
  now : ℚ
  order : (l : List CapabilityToolEligibility) → { l' : List CapabilityToolEligibility // l'.Perm l }

/-- `ToolPermissionGrantParams`; an undefined scope is `none`. -/
structure ToolPermissionGrantParams where
  key : PermissionKey
  scope : Option ToolScope
  constraints : ToolConstraints
  grantedBy : String
  expiresAt : Option ℚ
  deriving DecidableEq

structure CreateToolAuthorizationRequestInput where
  key : RequestKey
  sourceRuleVersion : String
  riskClass : EligibilityRiskClass
  reason : RequestReason
  requestedAt : ℚ
  deriving DecidableEq

inductive Cmd
  | grant (p : ToolPermissionGrantParams)
  | revoke (id : ℕ) (tenantId : String)
  | revokeByKey (tenantId : String) (revocationKey : ℕ)
  | insertRequest (input : CreateToolAuthorizationRequestInput)
  deriving DecidableEq

inductive Reply
  | rowsAffected (n : ℕ)
  /-- The constraint `NOT NULL` of a scope. -/
  | notNull
  /-- The index of the pending requests. -/
  | unique
  deriving DecidableEq

namespace Db

variable (db : Db)

def whitelist (tenantId personaId : String) : Option Whitelist :=
  (db.governance tenantId personaId).bind PersonaGovernanceOverride.toolAutoAuthWhitelist

/-- `resolvePersonaToolAutoAuthWhitelist(…)[toolId]`. -/
def whitelistEntry (key : PermissionKey) : Option WhitelistEntry :=
  match db.whitelist key.tenantId key.personaId with
  | some whitelist => (whitelist.find? fun entry => entry.1 = key.toolId).map fun entry => .policy entry.2
  | none => if key.toolId ∈ Whitelist.inheritedNames then some .inherited else none

/-- A request waits for a decision about the suggestion. -/
def Pending (key : RequestKey) : Prop := ∃ r ∈ db.requests.rows, r.PendingFor key

instance (key : RequestKey) : Decidable (db.Pending key) :=
  inferInstanceAs (Decidable (∃ r ∈ db.requests.rows, r.PendingFor key))

/-- `UPDATE … SET revoked_at = ? WHERE … AND revoked_at IS NULL`. -/
def revokeWhere (now : ℚ) (p : ToolPermission → Prop) [DecidablePred p] : Db × Reply :=
  ({ db with permissions :=
      { rows := db.permissions.rows.map fun row =>
          if p row ∧ row.revokedAt = none then { row with revokedAt := some now } else row
        nodup := by
          have hkey : ∀ row : ToolPermission, (if p row ∧ row.revokedAt = none then
              { row with revokedAt := some now } else row).key = row.key := fun row => by split <;> rfl
          simpa only [List.map_map, Function.comp_def, hkey] using db.permissions.nodup } },
    .rowsAffected (db.permissions.rows.countP fun row => p row ∧ row.revokedAt = none))

def grantedRow (now : ℚ) (p : ToolPermissionGrantParams) (scope : ToolScope) : ToolPermission where
  id := ((db.permissions.get? p.key).map ToolPermission.id).getD db.draws
  key := p.key
  scope := scope
  constraints := p.constraints
  grantedBy := p.grantedBy
  grantedAt := now
  expiresAt := p.expiresAt
  revokedAt := none
  revocationKey := db.draws

end Db

def CreateToolAuthorizationRequestInput.row (input : CreateToolAuthorizationRequestInput) (id : ℕ) :
    ToolAuthorizationRequest :=
  ⟨id, input.key, input.sourceRuleVersion, input.riskClass, input.reason, .pending, input.requestedAt⟩

/-- An insertion that the index admits. -/
def RequestTable.insert (requests : RequestTable) (input : CreateToolAuthorizationRequestInput) (id : ℕ)
    (h : ¬ ∃ r ∈ requests.rows, r.PendingFor input.key) : RequestTable where
  rows := requests.rows ++ [input.row id]
  unique key := by
    rw [List.countP_append, List.countP_singleton]
    by_cases hkey : input.key = key
    · have hzero : requests.rows.countP (fun r => r.PendingFor key) = 0 := by
        rw [List.countP_eq_zero]
        exact fun r hr hp => h ⟨r, hr, by rw [hkey]; simpa using hp⟩
      rw [hzero, Nat.zero_add]
      split <;> decide
    · rw [if_neg (by simpa [ToolAuthorizationRequest.PendingFor, CreateToolAuthorizationRequestInput.row] using hkey)]
      exact requests.unique key

def exec (env : Env) (cmd : Cmd) (db : Db) : Db × Reply :=
  match cmd with
  | .grant p =>
    let drawn := { db with draws := db.draws + 1 }
    match p.scope with
    | none => (drawn, .notNull)
    | some scope => ({ drawn with permissions := db.permissions.set (db.grantedRow env.now p scope) }, .rowsAffected 1)
  | .revoke id tenantId => db.revokeWhere env.now fun row => row.id = id ∧ row.key.tenantId = tenantId
  | .revokeByKey tenantId revocationKey =>
    db.revokeWhere env.now fun row => row.key.tenantId = tenantId ∧ row.revocationKey = revocationKey
  | .insertRequest input =>
    let drawn := { db with draws := db.draws + 1 }
    if h : ∃ r ∈ db.requests.rows, r.PendingFor input.key then (drawn, .unique)
    else ({ drawn with requests := db.requests.insert input db.draws h }, .rowsAffected 1)

/-! ## The calls -/

/-- A run for a persona: the instance it is made at, and the clock it reads. -/
structure RunInput where
  tenantId : String
  registry : ToolRegistry
  now : ℚ
  personaId : String
  grantedBy : String

structure Granted where
  toolId : String
  capability : String
  permissionId : Option ℕ
  expiresAt : Option ℚ

structure Requested where
  toolId : String
  capability : String
  reason : RequestReason

structure Skipped where
  toolId : String
  capability : String

structure ToolAutoAuthorizationResult where
  granted : List Granted
  requested : List Requested
  skipped : List Skipped

structure GrantPermissionInput where
  key : PermissionKey
  scope : ToolScope
  constraints : ToolConstraints
  grantedBy : String
  expiresAt : Option ℚ

inductive Answer
  | ran (result : ToolAutoAuthorizationResult)
  | granted
  | revoked (any : Bool)

abbrev Call (α : Type) := Prog Db Cmd Reply Env Reply α

namespace RunInput

variable (a : RunInput) (e : CapabilityToolEligibility)

/-- The suggestion is one for the persona that may be used now. -/
def Valid : Prop :=
  e.tenantId = a.tenantId ∧ e.personaId = a.personaId ∧ e.active = true ∧
    (∃ expiresAt, e.expiresAt = some expiresAt ∧ a.now < expiresAt) ∧
    a.registry.currentToolState e.toolId = some ⟨e.schemaVersion, e.riskClass⟩

instance : DecidablePred a.Valid := fun e =>
  have : Decidable (∃ expiresAt, e.expiresAt = some expiresAt ∧ a.now < expiresAt) :=
    match h : e.expiresAt with
    | none => isFalse (by simp)
    | some expiresAt => decidable_of_iff (a.now < expiresAt) (by simp)
  inferInstanceAs (Decidable (_ ∧ _ ∧ _ ∧ _ ∧ _))

/-- `listValidForAuthorization`, in the order of the table. -/
def valid (db : Db) : List CapabilityToolEligibility := db.eligibility.filter fun e => a.Valid e

def permissionKey : PermissionKey := ⟨a.tenantId, a.personaId, e.toolId⟩

def requestKey : RequestKey := ⟨a.tenantId, a.personaId, e.capability, e.toolId⟩

def grantParams (entry : WhitelistEntry) : ToolPermissionGrantParams where
  key := a.permissionKey e
  scope := entry.scope
  constraints := ⟨none, some entry.confirms, none, none, none⟩
  grantedBy := a.grantedBy
  expiresAt := entry.computeGrantExpiry a.now e.expiresAt

def requestInput : CreateToolAuthorizationRequestInput where
  key := a.requestKey e
  sourceRuleVersion := e.sourceRuleVersion
  riskClass := e.riskClass
  reason := if e.riskClass = .high then .high_risk else .not_whitelisted
  requestedAt := a.now

end RunInput

/-- `ToolAuthorizationRequestStore.createIfAbsent`. -/
def createIfAbsent (input : CreateToolAuthorizationRequestInput) : Call Bool := do
  let existing ← Prog.query fun db : Db => decide (db.Pending input.key)
  if existing then return false
  else
    match ← Prog.transaction (.insertRequest input) with
    | .unique => return false
    | _ => return true

/-- `ToolPermissionService.grant`. -/
def grant (p : ToolPermissionGrantParams) : Call Unit := do
  match ← Prog.transaction (.grant p) with
  | .notNull => .throw .notNull
  | _ => return ()

/-- One suggestion under what the whitelist has for its tool. -/
def handle (a : RunInput) (entry : Option WhitelistEntry) (e : CapabilityToolEligibility)
    (result : ToolAutoAuthorizationResult) : Call ToolAutoAuthorizationResult :=
  match entry, e.riskClass with
  | some entry, .low => do
    let p := a.grantParams e entry
    grant p
    let permission ← Prog.query fun db : Db => db.permissions.get? p.key
    return { result with
      granted := result.granted ++ [⟨e.toolId, e.capability, permission.map ToolPermission.id, p.expiresAt⟩] }
  | _, _ => do
    let input := a.requestInput e
    let created ← createIfAbsent input
    if created then
      return { result with requested := result.requested ++ [⟨e.toolId, e.capability, input.reason⟩] }
    else return { result with skipped := result.skipped ++ [⟨e.toolId, e.capability⟩] }

def handleAll (a : RunInput) (entry : PermissionKey → Option WhitelistEntry) :
    List CapabilityToolEligibility → ToolAutoAuthorizationResult → Call ToolAutoAuthorizationResult
  | [], result => return result
  | e :: rest, result => do
    let result ← handle a (entry (a.permissionKey e)) e result
    handleAll a entry rest result

/-- `ToolAutoAuthorizationBridge.run`. -/
def runBridge (a : RunInput) : Call ToolAutoAuthorizationResult := do
  let entry ← Prog.query Db.whitelistEntry
  let valid ← Prog.queryAny fun (env : Env) db => (env.order (a.valid db)).val
  handleAll a entry valid ⟨[], [], []⟩

inductive AuthCall
  | run (a : RunInput)
  | grant (input : GrantPermissionInput)
  | revoke (id : ℕ) (tenantId : String)
  | revokeByKey (tenantId : String) (revocationKey : ℕ)

def AuthCall.start : AuthCall → Call Answer
  | run a => do return .ran (← runBridge a)
  | grant input => do
    Agent.grant ⟨input.key, some input.scope, input.constraints, input.grantedBy, input.expiresAt⟩
    return .granted
  | revoke id tenantId => do
    match ← Prog.transaction (.revoke id tenantId) with
    | .rowsAffected n => return .revoked (0 < n)
    | _ => return .revoked false
  | revokeByKey tenantId revocationKey => do
    match ← Prog.transaction (.revokeByKey tenantId revocationKey) with
    | .rowsAffected n => return .revoked (0 < n)
    | _ => return .revoked false

abbrev AuthPool := Pool AuthCall Db Cmd Reply Env Reply Answer

abbrev AuthMove := Move AuthCall Env

abbrev AuthPool.step : AuthPool → AuthMove → AuthPool := Pool.step AuthCall.start exec

end ChronoSynth.Agent
