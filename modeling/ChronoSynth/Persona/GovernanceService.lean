import ChronoSynth.Persona.Transactions

/-!
# Governance cases and actions

`persona-governance-service.ts`.
-/

namespace ChronoSynth.Persona

/-- The old `status` column cannot say `draft`, `suspended` or `dormant`. -/
def toLegacyStatus : PersonaCoreStatus → LegacyStatus
  | .suspended => .restricted
  | .dormant | .draft => .active
  | .active => .active
  | .restricted => .restricted
  | .deceased => .deceased
  | .transferred => .transferred

def isTerminalStatus (status : PersonaCoreStatus) : Bool :=
  status = .deceased ∨ status = .transferred

def severityToLevel : GovernanceCaseSeverity → ℚ
  | .critical => 5
  | .high => 4
  | .medium => 3
  | .low => 1

def resolvePersonaStatusForAction (currentStatus : PersonaCoreStatus) :
    GovernanceActionType → PersonaCoreStatus
  | .temporary_restriction => .restricted
  | .temporary_suspension => .suspended
  | .termination => .deceased
  | .reinstate => .active
  | .warning => currentStatus

def reputationDeltaForAction (actionType : GovernanceActionType) (severityLevel : ℚ) : ℚ :=
  match actionType with
  | .warning => round (-8 / 10 * severityLevel)
  | .temporary_restriction => round (-15 / 10 * severityLevel)
  | .temporary_suspension => round (-21 / 10 * severityLevel)
  | .termination => round (-4 * severityLevel)
  | .reinstate => round (12 / 10 * severityLevel)

/-! ## Opening a case -/

/-- The transaction of `openGovernanceCase`; the persona is looked up again inside it. -/
def openGovernanceCaseTx (env : Env) (personaId : Id) (taskId : Option Id)
    (severity : GovernanceCaseSeverity) : TxM Reply := do
  let db ← get
  match getPersonaById db personaId with
  | none => return .committed
  | some _ =>
    let caseId ← generateId TenantDb.cases
    let _ ← createGovernanceCase env.now caseId personaId taskId severity
    return .inserted caseId

structure OpenGovernanceCaseInput where
  personaId : Id
  taskId : Option Id
  severity : GovernanceCaseSeverity
  deriving DecidableEq, Repr

def openGovernanceCase (input : OpenGovernanceCaseInput) :
    ServiceCall (Option GovernanceCase) := do
  let some _ ← Prog.query fun db => getPersonaById db input.personaId | return none
  match ← Prog.transaction (.openGovernanceCase input.personaId input.taskId input.severity) with
  | .failed e => .throw e
  | .inserted caseId => Prog.query fun db => getGovernanceCaseById db caseId
  | _ => return none

/-! ## Acting on a case -/

/-- Reinstating the persona closes the case. -/
def caseStatusForAction (actionType : GovernanceActionType) : GovernanceCaseStatus :=
  if actionType = .reinstate then .resolved else .action_applied

/-- The transaction of `applyGovernanceAction`; a case that has been resolved meanwhile rolls it
back. -/
def applyGovernanceActionTx (env : Env) (caseId personaId : Id) (actionType : GovernanceActionType)
    (durationSeconds : Option ℕ) (actorUserId : Id) (nextStatus : PersonaCoreStatus)
    (reputationDelta : ℚ) : TxM Reply := do
  let actionId ← generateId TenantDb.actions
  let _ ← createGovernanceAction caseId env.now actionId actionType durationSeconds actorUserId
  let claim ← updateGovernanceCaseAction caseId (caseStatusForAction actionType)
    (if caseStatusForAction actionType = .resolved then some env.now else none)
  if claim ≠ 1 then throw .GovernanceClaimLostError
  let _ ← applyGovernanceActionToPersona personaId env.now reputationDelta nextStatus
    (toLegacyStatus nextStatus)
  if reputationDelta ≠ 0 then
    let _ ← insertGrowthEvent personaId env.now none .governance 0 reputationDelta 0
  return .inserted actionId

structure ApplyGovernanceActionInput where
  caseId : Id
  actionType : GovernanceActionType
  durationSeconds : Option ℕ
  actorUserId : Id
  deriving DecidableEq, Repr

structure GovernanceActionOutcome where
  governanceCase : GovernanceCase
  action : GovernanceAction
  personaStatus : PersonaCoreStatus
  deriving DecidableEq, Repr

def applyGovernanceAction (input : ApplyGovernanceActionInput) :
    ServiceCall (Option GovernanceActionOutcome) := do
  let some governanceCase ← Prog.query fun db => getGovernanceCaseById db input.caseId
    | return none
  if governanceCase.status = .resolved then return none
  let some persona ← Prog.query fun db => getPersonaById db governanceCase.personaId | return none
  -- a warning writes back the status that was read here
  let nextStatus := resolvePersonaStatusForAction persona.status input.actionType
  let reputationDelta :=
    reputationDeltaForAction input.actionType (severityToLevel governanceCase.severity)
  match ← Prog.transaction (.applyGovernanceAction input.caseId governanceCase.personaId
    input.actionType input.durationSeconds input.actorUserId nextStatus reputationDelta) with
  | .failed .GovernanceClaimLostError => return none
  | .failed e => .throw e
  | .inserted actionId =>
    let some nextCase ← Prog.query fun db => getGovernanceCaseById db input.caseId | return none
    let some nextAction ← Prog.query fun db => getGovernanceActionById db actionId | return none
    return some ⟨nextCase, nextAction, nextStatus⟩
  | _ => return none

/-! ## Appeals -/

/-- The transaction of `appealGovernanceCase`. -/
def appealGovernanceCaseTx (env : Env) (caseId : Id) : TxM Reply := do
  let claim ← appealGovernanceCaseRow caseId env.now
  if claim ≠ 1 then throw .GovernanceClaimLostError
  return .committed

structure AppealGovernanceCaseInput where
  caseId : Id
  actorUserId : Id
  deriving DecidableEq, Repr

def appealGovernanceCase (input : AppealGovernanceCaseInput) :
    ServiceCall (Option GovernanceCase) := do
  let some governanceCase ← Prog.query fun db => getGovernanceCaseById db input.caseId
    | return none
  let some persona ← Prog.query fun db => getPersonaById db governanceCase.personaId | return none
  if persona.ownerUserId ≠ input.actorUserId then return none
  if governanceCase.status = .resolved ∨ governanceCase.status = .appealed then return none
  match ← Prog.transaction (.appealGovernanceCase input.caseId) with
  | .failed .GovernanceClaimLostError => return none
  | .failed e => .throw e
  | _ => Prog.query fun db => getGovernanceCaseById db input.caseId

end ChronoSynth.Persona
