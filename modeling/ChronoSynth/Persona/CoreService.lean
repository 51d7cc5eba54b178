import ChronoSynth.Persona.GovernanceService

/-!
# Personas

`persona-core-service.ts`: creation, activation, ownership transfer, knowledge, governance events
and the evaluation of the lifecycle.
-/

namespace ChronoSynth.Persona

/-! ## Creation -/

/-- The transaction of `createPersona`: the persona and its wallet. -/
def createPersonaTx (env : Env) (ownerUserId : Id) : TxM Reply := do
  let personaId ← generateId TenantDb.personas
  let walletId ← generateId TenantDb.wallets
  let _ ← createPersona env.now personaId ownerUserId 50
  let _ ← createWallet env.now walletId personaId
  return .inserted personaId

structure CreatePersonaCoreInput where
  ownerUserId : Id
  deriving DecidableEq, Repr

def createPersonaCore (input : CreatePersonaCoreInput) :
    ServiceCall (Option PersonaCoreDetail) := do
  match ← Prog.transaction (.createPersona input.ownerUserId) with
  | .failed e => .throw e
  | .inserted personaId => Prog.query fun db => getPersonaDetail db personaId input.ownerUserId
  | _ => return none

/-- The statement of `createFork`. -/
def createForkTx (personaId : Id) : TxM Reply := do
  let forkId ← generateId TenantDb.forks
  let _ ← createFork personaId forkId
  return .inserted forkId

structure PersonaInput where
  ownerUserId : Id
  personaId : Id
  deriving DecidableEq, Repr

def createPersonaFork (input : PersonaInput) : ServiceCall (Option PersonaCoreDetail) := do
  let some detail ← Prog.query fun db => getPersonaDetail db input.personaId input.ownerUserId
    | return none
  if isTerminalStatus detail.persona.status then return none
  match ← Prog.transaction (.createFork input.personaId) with
  | .failed e => .throw e
  | _ => Prog.query fun db => getPersonaDetail db input.personaId input.ownerUserId

/-! ## Activation -/

/-- The transaction of `activatePersona`. -/
def activatePersonaTx (env : Env) (personaId : Id) : TxM Reply := do
  let _ ← activatePersonaRow personaId env.now
  return .committed

def activatePersona (input : PersonaInput) : ServiceCall (Option PersonaCoreDetail) := do
  let some detail ← Prog.query fun db => getPersonaDetail db input.personaId input.ownerUserId
    | return none
  if detail.persona.status = .deceased ∨ detail.persona.status = .transferred then return none
  if detail.persona.status = .active then return some detail
  match ← Prog.transaction (.activatePersona input.personaId) with
  | .failed e => .throw e
  | _ => Prog.query fun db => getPersonaDetail db input.personaId input.ownerUserId

/-- The transaction of `deactivatePersona`. -/
def deactivatePersonaTx (env : Env) (personaId : Id) : TxM Reply := do
  let _ ← deactivatePersonaRow personaId env.now
  return .committed

def deactivatePersona (input : PersonaInput) : ServiceCall (Option PersonaCoreDetail) := do
  let some detail ← Prog.query fun db => getPersonaDetail db input.personaId input.ownerUserId
    | return none
  if detail.persona.status = .deceased ∨ detail.persona.status = .transferred then return none
  if detail.persona.status = .dormant then return some detail
  match ← Prog.transaction (.deactivatePersona input.personaId) with
  | .failed e => .throw e
  | _ => Prog.query fun db => getPersonaDetail db input.personaId input.ownerUserId

/-! ## Ownership transfer -/

/-- The transaction of `requestTransfer`. -/
def requestTransferTx (env : Env) (personaId fromOwnerUserId toOwnerUserId : Id) : TxM Reply := do
  let transferId ← generateId TenantDb.transfers
  let _ ← createTransfer personaId env.now transferId fromOwnerUserId toOwnerUserId
  return .inserted transferId

structure RequestPersonaTransferInput where
  ownerUserId : Id
  personaId : Id
  toOwnerUserId : Id
  deriving DecidableEq, Repr

def requestTransfer (input : RequestPersonaTransferInput) :
    ServiceCall (Option PersonaTransfer) := do
  let some detail ← Prog.query fun db => getPersonaDetail db input.personaId input.ownerUserId
    | return none
  if detail.persona.status = .deceased ∨ detail.persona.status = .transferred then return none
  if input.toOwnerUserId = input.ownerUserId then return none
  let exist ← Prog.query fun db => userExists db input.toOwnerUserId
  if ¬ exist then return none
  match ← Prog.queryAny fun env db => getPendingTransfer env db input.personaId with
  | some pending => return some pending
  | none =>
    match ← Prog.transaction
      (.requestTransfer input.personaId input.ownerUserId input.toOwnerUserId) with
    | .failed e => .throw e
    | .inserted transferId => Prog.query fun db => getTransferById db transferId
    | _ => return none

/-- The transaction of `approveTransfer`; a transfer that has been approved meanwhile rolls it
back. -/
def approveTransferTx (env : Env) (personaId transferId approverUserId : Id) : TxM Reply := do
  let claim ← approveTransferRow env.now transferId
  if claim ≠ 1 then throw .TransferClaimLostError
  let _ ← transferPersonaOwner personaId env.now approverUserId
  let _ ← completeTransfer env.now transferId
  return .committed

structure ApprovePersonaTransferInput where
  personaId : Id
  transferId : Id
  approverUserId : Id
  deriving DecidableEq, Repr

structure TransferOutcome where
  transfer : PersonaTransfer
  detail : PersonaCoreDetail
  deriving DecidableEq, Repr

def approveTransfer (input : ApprovePersonaTransferInput) :
    ServiceCall (Option TransferOutcome) := do
  let some transfer ← Prog.query fun db =>
      getTransferByPersonaId db input.personaId input.transferId
    | return none
  if transfer.status ≠ .pending_review ∨ transfer.toOwnerUserId ≠ input.approverUserId then
    return none
  match ← Prog.transaction
    (.approveTransfer input.personaId input.transferId input.approverUserId) with
  | .failed .TransferClaimLostError => return none
  | .failed e => .throw e
  | _ =>
    let completed ← Prog.query fun db => getTransferById db input.transferId
    let detail ← Prog.query fun db => getPersonaDetail db input.personaId input.approverUserId
    return do return ⟨← completed, ← detail⟩

/-! ## Knowledge -/

/-- The transaction of `addKnowledge`. -/
def addKnowledgeTx (env : Env) (personaId : Id) (growthDelta reputationDelta : ℚ) : TxM Reply := do
  let _ ← insertGrowthEvent personaId env.now none .knowledge_sync growthDelta reputationDelta 0
  let _ ← updatePersonaKnowledgeSync personaId env.now growthDelta reputationDelta
  return .committed

structure AddPersonaKnowledgeInput where
  ownerUserId : Id
  personaId : Id
  confidence : Option ℚ
  deriving DecidableEq, Repr

def addKnowledge (input : AddPersonaKnowledgeInput) : ServiceCall (Option PersonaCoreDetail) := do
  let some detail ← Prog.query fun db => getPersonaDetail db input.personaId input.ownerUserId
    | return none
  if isTerminalStatus detail.persona.status then return none
  let confidence := clamp (input.confidence.getD (3 / 4)) 0 1
  let growthDelta := round (3 / 10 + confidence * (8 / 10))
  let reputationDelta := round (confidence * (4 / 10))
  match ← Prog.transaction (.addKnowledge input.personaId growthDelta reputationDelta) with
  | .failed e => .throw e
  | _ => Prog.query fun db => getPersonaDetail db input.personaId input.ownerUserId

/-! ## Governance events -/

/-- The transaction of `addGovernanceEvent`. -/
def addGovernanceEventTx (env : Env) (personaId : Id) (reputationDelta growthDelta : ℚ)
    (nextStatus : Option PersonaCoreStatus) : TxM Reply := do
  if growthDelta ≠ 0 ∨ reputationDelta ≠ 0 then
    let _ ← insertGrowthEvent personaId env.now none .governance growthDelta reputationDelta 0
  let _ ← applyGovernanceEvent personaId env.now reputationDelta growthDelta
    (nextStatus.map fun status => (status, toLegacyStatus status))
  return .committed

structure AddGovernanceEventInput where
  ownerUserId : Id
  personaId : Id
  eventType : PersonaGovernanceEventType
  severity : ℚ
  deriving DecidableEq, Repr

/-- The severity of an event, from 1 to 5. -/
def AddGovernanceEventInput.level (input : AddGovernanceEventInput) : ℤ :=
  mathRound (clamp input.severity 1 5)

def AddGovernanceEventInput.nextStatus (input : AddGovernanceEventInput) :
    Option PersonaCoreStatus :=
  match input.eventType with
  | .restriction => if 4 ≤ input.level then some .suspended else some .restricted
  | .death => some .deceased
  | .transfer => some .transferred
  | .warning | .reward | .review => none

def AddGovernanceEventInput.reputationDelta (input : AddGovernanceEventInput) : ℚ :=
  match input.eventType with
  | .warning => round (-15 / 10 * input.level)
  | .reward => round (18 / 10 * input.level)
  | .restriction => round (-25 / 10 * input.level)
  | .death => round (-4 * input.level)
  | .transfer => 0
  | .review => round (-5 / 10 * input.level)

def AddGovernanceEventInput.growthDelta (input : AddGovernanceEventInput) : ℚ :=
  match input.eventType with
  | .reward => round (25 / 100 * input.level)
  | _ => 0

def addGovernanceEvent (input : AddGovernanceEventInput) :
    ServiceCall (Option PersonaCoreDetail) := do
  let some _ ← Prog.query fun db => getPersonaDetail db input.personaId input.ownerUserId
    | return none
  match ← Prog.transaction (.addGovernanceEvent input.personaId input.reputationDelta
    input.growthDelta input.nextStatus) with
  | .failed e => .throw e
  | _ => Prog.query fun db => getPersonaDetail db input.personaId input.ownerUserId

def markDeceased (input : PersonaInput) : ServiceCall (Option PersonaCoreDetail) :=
  addGovernanceEvent
    { ownerUserId := input.ownerUserId, personaId := input.personaId, eventType := .death,
      severity := 5 }

/-! ## Lifecycle -/

inductive LifecycleTransition
  | none | dormant | reactivated | deceased
  deriving DecidableEq, Repr

structure EvaluatePersonaLifecycleInput where
  ownerUserId : Id
  personaId : Id
  inactivityDays : Option ℚ
  deriving DecidableEq, Repr

structure PersonaLifecycleEvaluation where
  detail : PersonaCoreDetail
  transition : LifecycleTransition
  inactivityDays : ℤ
  lastActiveAt : Time
  deriving DecidableEq, Repr

/-- Inactive personas go dormant, and dormant ones that stay inactive are marked as deceased. -/
def evaluateLifecycle (input : EvaluatePersonaLifecycleInput) :
    ServiceCall (Option PersonaLifecycleEvaluation) := do
  let some detail ← Prog.query fun db => getPersonaDetail db input.personaId input.ownerUserId
    | return none
  let inactivityDays := mathRound (clamp (input.inactivityDays.getD 180) 30 3650)
  let lastActiveAt ← Prog.queryAny fun env db =>
    resolveLastActiveAt env db input.personaId detail.persona.createdAt
  if detail.persona.status = .deceased ∨ detail.persona.status = .transferred then
    return some ⟨detail, .none, inactivityDays, lastActiveAt⟩
  let thresholdMs := inactivityDays * 24 * 60 * 60 * 1000
  let nowMs ← Prog.queryAny fun env _ => env.now
  if detail.persona.status = .dormant then
    if (nowMs : ℤ) - detail.persona.updatedAt < thresholdMs then
      return some ⟨detail, .none, inactivityDays, lastActiveAt⟩
    else
      let some deceased ← markDeceased ⟨input.ownerUserId, input.personaId⟩ | return none
      return some ⟨deceased, .deceased, inactivityDays, lastActiveAt⟩
  else if (nowMs : ℤ) - lastActiveAt < thresholdMs then
    return some ⟨detail, .none, inactivityDays, lastActiveAt⟩
  else
    let some dormant ← deactivatePersona ⟨input.ownerUserId, input.personaId⟩ | return none
    return some ⟨dormant, .dormant, inactivityDays, lastActiveAt⟩

end ChronoSynth.Persona
