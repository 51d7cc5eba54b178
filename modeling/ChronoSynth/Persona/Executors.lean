import ChronoSynth.Lib.Table
import ChronoSynth.Persona.Types

/-!
# The statements of the persona services

`persona-core-executors.ts`: the queries as functions of the tables, the commands as state
transformers that return the number of affected rows. A command that violates a unique index fails,
and so does what a transaction throws; the transaction is then rolled back.
-/

namespace ChronoSynth.Persona

/-- The unique indexes of the tables that a command can run into. -/
inductive UniqueIndex
  | task_applications | wallet_settlements_assignment | wallet_payout_idempotency
  deriving DecidableEq, Repr

/-- What a transaction or a call throws. The three lost claims and the insufficient balance are
sentinels: the call that opened the transaction catches them. -/
inductive PersonaError
  | LeaseLostError
  | TransferClaimLostError
  | GovernanceClaimLostError
  | INSUFFICIENT
  | UniqueViolation (index : UniqueIndex)
  | ValidationError (message : String)
  | StateError (message : String)
  deriving DecidableEq, Repr

/-- A statement, or several, inside a transaction. -/
abbrev TxM := StateT TenantDb (Except PersonaError)

variable (env : Env) (db : TenantDb)

/-! ## Queries -/

section queries
variable (personaId ownerUserId taskId assignmentId walletId caseId : Id)

def getPersonaById : Option PersonaCore := db.personas.find? (·.id = personaId)

def personaExists : Bool :=
  (db.personas.find? fun pc => pc.ownerUserId = ownerUserId ∧ pc.id = personaId).isSome

def userExists (userId : Id) : Bool := userId ∈ db.users

def forkBelongsToPersona (forkId : Id) : Bool :=
  (db.forks.find? fun f => f.personaId = personaId ∧ f.id = forkId).isSome

def getWalletByPersonaId : Option PersonaWallet := db.wallets.find? (·.personaId = personaId)

/-- A persona joined with its wallet. -/
structure PersonaCoreDetail where
  persona : PersonaCore
  wallet : PersonaWallet
  deriving DecidableEq, Repr

def getPersonaDetail : Option PersonaCoreDetail := do
  let persona ← db.personas.find? fun pc => pc.ownerUserId = ownerUserId ∧ pc.id = personaId
  let wallet ← getWalletByPersonaId db persona.id
  return ⟨persona, wallet⟩

/-- The wallet, if its persona belongs to the caller. -/
def getWalletByIdForOwner : Option PersonaWallet := do
  let wallet ← db.wallets.find? (·.id = walletId)
  let persona ← getPersonaById db wallet.personaId
  if persona.ownerUserId = ownerUserId then some wallet else none

def getMarketplaceTask : Option MarketplaceTask := db.tasks.find? (·.id = taskId)

def findTaskApplication : Option TaskApplication :=
  db.applications.find? fun a => a.taskId = taskId ∧ a.personaId = personaId

def getTaskAssignmentById : Option TaskAssignment := db.assignments.find? (·.id = assignmentId)

def getLatestTaskAssignmentByTask : Option TaskAssignment :=
  Table.latest TaskAssignment.assignedAt env.tie (db.assignments.filter (·.taskId = taskId))

def getLatestTaskAssignmentForPersonaAndTask : Option TaskAssignment :=
  Table.latest TaskAssignment.assignedAt env.tie
    (db.assignments.filter fun a => a.personaId = personaId ∧ a.taskId = taskId)

def getLatestTaskResultByAssignment : Option TaskResult :=
  Table.latest TaskResult.createdAt env.tie (db.results.filter (·.assignmentId = assignmentId))

def getWalletSettlementByAssignmentId : Option TaskWalletSettlement :=
  db.settlements.find? (·.assignmentId = assignmentId)

def getWalletPayoutRequestById (payoutId : Id) : Option WalletPayoutRequest :=
  db.payoutRequests.find? (·.id = payoutId)

def findPayoutByIdempotencyKey (key : String) : Option WalletPayoutRequest :=
  db.payoutRequests.find? (·.idempotencyKey = some key)

/-- A session, if its persona belongs to the caller. -/
def getRuntimeSession (sessionId : Id) : Option RuntimeSession :=
  (db.sessions.find? (·.id = sessionId)).filter fun s => personaExists db s.personaId ownerUserId

/-- The sessions whose timeout the clock of the database has passed, the oldest timeout first. -/
def getTimedOutRuntimeSessions (limit : ℕ) : List RuntimeSession :=
  let expired := db.sessions.filter fun s =>
    (s.timeoutAt.any fun t => t ≤ env.dbNow) ∧ s.completedAt = none
  (expired.mergeSort fun s s' => s.timeoutAt.getD 0 ≤ s'.timeoutAt.getD 0).take limit

def getPendingTransfer : Option PersonaTransfer :=
  Table.latest PersonaTransfer.requestedAt env.tie
    (db.transfers.filter fun t => t.personaId = personaId ∧ t.status = .pending_review)

def getTransferByPersonaId (transferId : Id) : Option PersonaTransfer :=
  db.transfers.find? fun t => t.personaId = personaId ∧ t.id = transferId

def getTransferById (transferId : Id) : Option PersonaTransfer :=
  db.transfers.find? (·.id = transferId)

def getGovernanceCaseById : Option GovernanceCase := db.cases.find? (·.id = caseId)

def getGovernanceActionById (actionId : Id) : Option GovernanceAction :=
  db.actions.find? (·.id = actionId)

/-- The last sign of life of a persona: in its wallet, its memories and its tasks. -/
def resolveLastActiveAt (fallback : Time) : Time :=
  let wallet := (db.wallets.filter (·.personaId = personaId)).map fun w =>
    w.lastSettledAt.getD w.createdAt
  let task := (db.tasks.filter (·.assigneePersonaId = some personaId)).map fun t =>
    t.completedAt.getD t.updatedAt
  (wallet ++ task).foldl max (max fallback (env.memoryAt.getD 0))

end queries

/-! ## Commands -/

/-- The number of the next row of a table, in place of a random identifier. -/
def generateId {α : Type} (table : TenantDb → List α) : TxM Id := fun db =>
  .ok ((table db).length, db)

theorem generateId_eq {α : Type} {table : TenantDb → List α} {db : TenantDb} :
    generateId table db = .ok ((table db).length, db) := rfl

section updates

def updatePersonas (p : PersonaCore → Prop) [DecidablePred p] (g : PersonaCore → PersonaCore) :
    TxM ℕ := fun db =>
  .ok (db.personas.countP p, { db with personas := Table.update p g db.personas })

def updateWallets (p : PersonaWallet → Prop) [DecidablePred p]
    (g : PersonaWallet → PersonaWallet) : TxM ℕ := fun db =>
  .ok (db.wallets.countP p, { db with wallets := Table.update p g db.wallets })

def updateTasks (p : MarketplaceTask → Prop) [DecidablePred p]
    (g : MarketplaceTask → MarketplaceTask) : TxM ℕ := fun db =>
  .ok (db.tasks.countP p, { db with tasks := Table.update p g db.tasks })

def updateApplications (p : TaskApplication → Prop) [DecidablePred p]
    (g : TaskApplication → TaskApplication) : TxM ℕ := fun db =>
  .ok (db.applications.countP p, { db with applications := Table.update p g db.applications })

def updateAssignments (p : TaskAssignment → Prop) [DecidablePred p]
    (g : TaskAssignment → TaskAssignment) : TxM ℕ := fun db =>
  .ok (db.assignments.countP p, { db with assignments := Table.update p g db.assignments })

def updateResults (p : TaskResult → Prop) [DecidablePred p] (g : TaskResult → TaskResult) :
    TxM ℕ := fun db =>
  .ok (db.results.countP p, { db with results := Table.update p g db.results })

def updateSessions (p : RuntimeSession → Prop) [DecidablePred p]
    (g : RuntimeSession → RuntimeSession) : TxM ℕ := fun db =>
  .ok (db.sessions.countP p, { db with sessions := Table.update p g db.sessions })

def updateTransfers (p : PersonaTransfer → Prop) [DecidablePred p]
    (g : PersonaTransfer → PersonaTransfer) : TxM ℕ := fun db =>
  .ok (db.transfers.countP p, { db with transfers := Table.update p g db.transfers })

def updateCases (p : GovernanceCase → Prop) [DecidablePred p]
    (g : GovernanceCase → GovernanceCase) : TxM ℕ := fun db =>
  .ok (db.cases.countP p, { db with cases := Table.update p g db.cases })

end updates

/-! ### Personas -/

def PersonaCore.create (now : Time) (id ownerUserId : Id) (reputation : ℚ) : PersonaCore :=
  { id, ownerUserId, legacyStatus := .active, status := .active, growthIndex := 0, reputation,
    trainingInvestment := 0, createdAt := now, updatedAt := now, deceasedAt := none,
    transferredAt := none }

def createPersona (now : Time) (id ownerUserId : Id) (reputation : ℚ) : TxM ℕ := fun db =>
  .ok (1, { db with personas := db.personas ++ [.create now id ownerUserId reputation] })

def createFork (personaId id : Id) : TxM ℕ := fun db =>
  .ok (1, { db with forks := db.forks ++ [{ id, personaId }] })

section personas
variable (personaId : Id) (now : Time)

def PersonaCore.activate (pc : PersonaCore) : PersonaCore :=
  { pc with
    status := .active
    legacyStatus := if pc.legacyStatus = .transferred then .active else pc.legacyStatus
    updatedAt := now }

def activatePersonaRow : TxM ℕ := updatePersonas (·.id = personaId) (·.activate now)

def PersonaCore.deactivate (pc : PersonaCore) : PersonaCore :=
  { pc with status := .dormant, updatedAt := now }

def deactivatePersonaRow : TxM ℕ := updatePersonas (·.id = personaId) (·.deactivate now)

def PersonaCore.transferOwner (ownerUserId : Id) (pc : PersonaCore) : PersonaCore :=
  { pc with
    ownerUserId
    legacyStatus := .active
    status := .active
    transferredAt := some now
    updatedAt := now }

def transferPersonaOwner (ownerUserId : Id) : TxM ℕ :=
  updatePersonas (·.id = personaId) (·.transferOwner now ownerUserId)

def PersonaCore.knowledgeSync (growthDelta reputationDelta : ℚ) (pc : PersonaCore) : PersonaCore :=
  { pc with
    growthIndex := pc.growthIndex + growthDelta
    reputation := pc.reputation + reputationDelta
    updatedAt := now }

def updatePersonaKnowledgeSync (growthDelta reputationDelta : ℚ) : TxM ℕ :=
  updatePersonas (·.id = personaId) (·.knowledgeSync now growthDelta reputationDelta)

/-- `nextStatus` comes with the value for the old column. -/
def PersonaCore.governanceEvent (reputationDelta growthDelta : ℚ)
    (nextStatus : Option (PersonaCoreStatus × LegacyStatus)) (pc : PersonaCore) : PersonaCore :=
  { pc with
    reputation := pc.reputation + reputationDelta
    growthIndex := pc.growthIndex + growthDelta
    updatedAt := now
    status := (nextStatus.map Prod.fst).getD pc.status
    legacyStatus := (nextStatus.map Prod.snd).getD pc.legacyStatus
    deceasedAt := if nextStatus.map Prod.fst = some .deceased then some now else pc.deceasedAt
    transferredAt :=
      if nextStatus.map Prod.fst = some .transferred then some now else pc.transferredAt }

def applyGovernanceEvent (reputationDelta growthDelta : ℚ)
    (nextStatus : Option (PersonaCoreStatus × LegacyStatus)) : TxM ℕ :=
  updatePersonas (·.id = personaId) (·.governanceEvent now reputationDelta growthDelta nextStatus)

def PersonaCore.governanceAction (reputationDelta : ℚ) (nextStatus : PersonaCoreStatus)
    (legacyStatus : LegacyStatus) (pc : PersonaCore) : PersonaCore :=
  { pc with
    reputation := pc.reputation + reputationDelta
    updatedAt := now
    status := nextStatus
    legacyStatus
    deceasedAt := if nextStatus = .deceased then some now else pc.deceasedAt }

def applyGovernanceActionToPersona (reputationDelta : ℚ) (nextStatus : PersonaCoreStatus)
    (legacyStatus : LegacyStatus) : TxM ℕ :=
  updatePersonas (·.id = personaId) (·.governanceAction now reputationDelta nextStatus legacyStatus)

def PersonaCore.taskAccepted (growthDelta reputationDelta : ℚ) (pc : PersonaCore) : PersonaCore :=
  { pc with
    growthIndex := pc.growthIndex + growthDelta
    reputation := pc.reputation + reputationDelta
    status := .active
    updatedAt := now }

def updatePersonaTaskAccepted (growthDelta reputationDelta : ℚ) : TxM ℕ :=
  updatePersonas (·.id = personaId) (·.taskAccepted now growthDelta reputationDelta)

def PersonaCore.taskCompleted (growthDelta reputationDelta ownerTrainingHours : ℚ)
    (pc : PersonaCore) : PersonaCore :=
  { pc with
    growthIndex := pc.growthIndex + growthDelta
    reputation := pc.reputation + reputationDelta
    trainingInvestment := pc.trainingInvestment + ownerTrainingHours
    status := .active
    updatedAt := now }

def completeTaskPersonaUpdate (growthDelta reputationDelta ownerTrainingHours : ℚ) : TxM ℕ :=
  updatePersonas (·.id = personaId)
    (·.taskCompleted now growthDelta reputationDelta ownerTrainingHours)

/-- The event of a change of a persona; its number is the next one. -/
def insertGrowthEvent (taskId : Option Id) (eventType : PersonaGrowthEventType)
    (growthDelta reputationDelta trainingDelta : ℚ) : TxM ℕ := fun db =>
  .ok (1, { db with growthEvents := db.growthEvents ++ [
    { id := db.growthEvents.length, personaId, taskId, eventType, growthDelta, reputationDelta,
      trainingDelta, createdAt := now }] })

def PersonaTransfer.create (id fromOwnerUserId toOwnerUserId : Id) : PersonaTransfer :=
  { id, personaId, fromOwnerUserId, toOwnerUserId, status := .pending_review, requestedAt := now,
    approvedAt := none, completedAt := none }

def createTransfer (id fromOwnerUserId toOwnerUserId : Id) : TxM ℕ := fun db =>
  .ok (1, { db with transfers := db.transfers ++
    [.create personaId now id fromOwnerUserId toOwnerUserId] })

def PersonaTransfer.approve (t : PersonaTransfer) : PersonaTransfer :=
  { t with status := .approved, approvedAt := some now }

def approveTransferRow (transferId : Id) : TxM ℕ :=
  updateTransfers (fun t => t.id = transferId ∧ t.status = .pending_review) (·.approve now)

def PersonaTransfer.complete (t : PersonaTransfer) : PersonaTransfer :=
  { t with status := .completed, completedAt := some now }

def completeTransfer (transferId : Id) : TxM ℕ :=
  updateTransfers (·.id = transferId) (·.complete now)

end personas

/-! ### Wallets -/

section wallets
variable (walletId : Id) (now : Time)

def PersonaWallet.create (id personaId : Id) : PersonaWallet :=
  { id, personaId, balance := 0, tokenBalance := 0, currency := WALLET_CURRENCY, status := .active,
    lastSettledAt := none, createdAt := now, updatedAt := now }

def createWallet (id personaId : Id) : TxM ℕ := fun db =>
  .ok (1, { db with wallets := db.wallets ++ [.create now id personaId] })

/-- The partial unique index: a key that is given is used once. -/
def createWalletPayoutRequest (r : WalletPayoutRequest) : TxM ℕ := fun db =>
  if r.idempotencyKey ≠ none ∧ ∃ r' ∈ db.payoutRequests, r'.idempotencyKey = r.idempotencyKey then
    .error (.UniqueViolation .wallet_payout_idempotency)
  else .ok (1, { db with payoutRequests := db.payoutRequests ++ [r] })

def PersonaWallet.debit (amountMinor : ℤ) (w : PersonaWallet) : PersonaWallet :=
  { w with
    balance := sqlRound ((sqlRound (w.balance * 100) - amountMinor) / 100) 4
    updatedAt := now }

/-- Conditional debit: the balance is tested in the statement that changes it. -/
def debitWalletBalance (amountMinor : ℤ) : TxM ℕ :=
  updateWallets (fun w => w.id = walletId ∧ amountMinor ≤ sqlRound (w.balance * 100))
    (·.debit now amountMinor)

def PersonaWallet.settle (ownerAmount personaAmount : ℚ) (w : PersonaWallet) : PersonaWallet :=
  { w with
    balance := sqlRound ((sqlRound (w.balance * 100) + sqlRound (ownerAmount * 100)) / 100) 4
    tokenBalance := w.tokenBalance + personaAmount
    lastSettledAt := some now
    updatedAt := now }

/-- The currency is tested, not written. -/
def settlePersonaWallet (ownerAmount personaAmount : ℚ) (currency : String) : TxM ℕ :=
  updateWallets (fun w => w.id = walletId ∧ w.currency = currency)
    (·.settle now ownerAmount personaAmount)

def PersonaWallet.credit (payout tokenReward : ℚ) (w : PersonaWallet) : PersonaWallet :=
  { w with
    balance := w.balance + payout
    tokenBalance := w.tokenBalance + tokenReward
    lastSettledAt := some now
    updatedAt := now }

/-- By persona, and without rounding. -/
def completeTaskWalletUpdate (personaId : Id) (payout tokenReward : ℚ) : TxM ℕ :=
  updateWallets (·.personaId = personaId) (·.credit now payout tokenReward)

/-- An assignment is settled once. -/
def createWalletSettlement (s : TaskWalletSettlement) : TxM ℕ := fun db =>
  if ∃ s' ∈ db.settlements, s'.assignmentId = s.assignmentId then
    .error (.UniqueViolation .wallet_settlements_assignment)
  else .ok (1, { db with settlements := db.settlements ++ [s] })

/-- A row of the journal. -/
def WalletTransaction.create (id : Id) (transactionType : WalletTransactionType) (amountMinor : ℤ)
    (currency : String) (referenceType : ReferenceType) (referenceId : Id) : WalletTransaction :=
  { id, walletId, transactionType, amountMinor, currency, referenceType := some referenceType,
    referenceId := some referenceId, createdAt := now }

def insertWalletTransaction (t : WalletTransaction) : TxM ℕ := fun db =>
  .ok (1, { db with walletTransactions := db.walletTransactions ++ [t] })

end wallets

/-! ### Tasks -/

section marketplace
variable (taskId assignmentId resultId : Id) (now : Time)

def MarketplaceTask.publish (id publisherUserId : Id) (reward : ℚ) (currency : String) :
    MarketplaceTask :=
  { id, publisherUserId, assigneePersonaId := none, assigneeForkId := none, reward, currency,
    status := .open, qualityScore := none, growthDelta := none, publishedAt := now,
    acceptedAt := none, completedAt := none, updatedAt := now }

def publishMarketplaceTask (id publisherUserId : Id) (reward : ℚ) (currency : String) : TxM ℕ :=
  fun db => .ok (1, { db with tasks := db.tasks ++
    [.publish now id publisherUserId reward currency] })

def MarketplaceTask.assign (personaId : Id) (t : MarketplaceTask) : MarketplaceTask :=
  { t with
    status := .accepted
    assigneePersonaId := some personaId
    acceptedAt := some now
    updatedAt := now }

def acceptMarketplaceTaskAssignment (personaId : Id) : TxM ℕ :=
  updateTasks (fun t => t.id = taskId ∧ t.status = .open) (·.assign now personaId)

def MarketplaceTask.accept (personaId : Id) (forkId : Option Id) (t : MarketplaceTask) :
    MarketplaceTask :=
  { t with
    status := .accepted
    assigneePersonaId := some personaId
    assigneeForkId := forkId
    acceptedAt := some now
    updatedAt := now }

def acceptMarketplaceTaskLegacy (personaId : Id) (forkId : Option Id) : TxM ℕ :=
  updateTasks (fun t => t.id = taskId ∧ t.status = .open) (·.accept now personaId forkId)

def MarketplaceTask.touch (t : MarketplaceTask) : MarketplaceTask := { t with updatedAt := now }

def touchMarketplaceTask : TxM ℕ := updateTasks (·.id = taskId) (·.touch now)

def MarketplaceTask.complete (qualityScore growthDelta : ℚ) (t : MarketplaceTask) :
    MarketplaceTask :=
  { t with
    status := .completed
    qualityScore := some qualityScore
    growthDelta := some growthDelta
    completedAt := some now
    updatedAt := now }

/-- Optimistic concurrency: the status is tested in the statement that changes it. -/
def completeMarketplaceTask (qualityScore growthDelta : ℚ) : TxM ℕ :=
  updateTasks (fun t => t.id = taskId ∧ t.status = .accepted)
    (·.complete now qualityScore growthDelta)

def MarketplaceTask.reopen (t : MarketplaceTask) : MarketplaceTask :=
  { t with
    status := .open
    assigneePersonaId := none
    assigneeForkId := none
    acceptedAt := none
    updatedAt := now }

def reopenMarketplaceTask : TxM ℕ :=
  updateTasks (fun t => t.id = taskId ∧ t.status = .accepted) (·.reopen now)

/-! ### Applications -/

def TaskApplication.create (id personaId : Id) : TaskApplication :=
  { id, taskId, personaId, status := .submitted, createdAt := now, updatedAt := now }

def createTaskApplication (id personaId : Id) : TxM ℕ := fun db =>
  if ∃ a ∈ db.applications, a.taskId = taskId ∧ a.personaId = personaId then
    .error (.UniqueViolation .task_applications)
  else .ok (1, { db with applications := db.applications ++ [.create taskId now id personaId] })

def TaskApplication.mark (applicationId : Id) (a : TaskApplication) : TaskApplication :=
  { a with
    status := if a.id = applicationId then .assigned else a.status
    updatedAt := now }

def markTaskApplicationsAssigned (applicationId : Id) : TxM ℕ :=
  updateApplications (·.taskId = taskId) (·.mark now applicationId)

def TaskApplication.reject (a : TaskApplication) : TaskApplication :=
  { a with status := .rejected, updatedAt := now }

/-- A task that was taken without an application has none to reject. -/
def rejectTaskApplication (applicationId : Option Id) : TxM ℕ :=
  match applicationId with
  | none => pure 0
  | some applicationId => updateApplications (·.id = applicationId) (·.reject now)

/-! ### Assignments -/

def TaskAssignment.create (id personaId : Id) (applicationId : Option Id) : TaskAssignment :=
  { id, taskId, personaId, applicationId, runtimeSessionId := none, status := .assigned,
    assignedAt := now, startedAt := none, submittedAt := none, completedAt := none }

def createTaskAssignment (id personaId : Id) (applicationId : Option Id) : TxM ℕ := fun db =>
  .ok (1, { db with assignments := db.assignments ++
    [.create taskId now id personaId applicationId] })

def TaskAssignment.link (sessionId : Id) (a : TaskAssignment) : TaskAssignment :=
  { a with runtimeSessionId := some sessionId }

def linkTaskAssignmentRuntimeSession (sessionId : Id) : TxM ℕ :=
  updateAssignments (·.id = assignmentId) (·.link sessionId)

def TaskAssignment.start (a : TaskAssignment) : TaskAssignment :=
  { a with status := .in_progress, startedAt := a.startedAt.or (some now) }

def startTaskAssignment : TxM ℕ :=
  updateAssignments
    (fun a => a.id = assignmentId ∧ (a.status = .assigned ∨ a.status = .in_progress)) (·.start now)

def TaskAssignment.submit (a : TaskAssignment) : TaskAssignment :=
  { a with status := .submitted, submittedAt := some now }

def submitTaskAssignment : TxM ℕ := updateAssignments (·.id = assignmentId) (·.submit now)

def TaskAssignment.accept (a : TaskAssignment) : TaskAssignment :=
  { a with status := .accepted, completedAt := some now }

def acceptTaskAssignment : TxM ℕ :=
  updateAssignments (fun a => a.id = assignmentId ∧ a.status = .submitted) (·.accept now)

def TaskAssignment.reject (a : TaskAssignment) : TaskAssignment := { a with status := .rejected }

def rejectTaskAssignment : TxM ℕ :=
  updateAssignments (fun a => a.id = assignmentId ∧ a.status = .submitted) TaskAssignment.reject

def TaskAssignment.dispute (a : TaskAssignment) : TaskAssignment := { a with status := .disputed }

def disputeTaskAssignment : TxM ℕ :=
  updateAssignments (·.id = assignmentId) TaskAssignment.dispute

/-! ### Results -/

def TaskResult.create (id : Id) : TaskResult :=
  { id, taskId, assignmentId, qualityScore := none, clientRating := none, status := .submitted,
    createdAt := now, updatedAt := now, acceptedAt := none, rejectedAt := none,
    disputedAt := none }

def createTaskResult (id : Id) : TxM ℕ := fun db =>
  .ok (1, { db with results := db.results ++ [.create taskId assignmentId now id] })

def TaskResult.accept (qualityScore : ℚ) (clientRating : ℤ) (r : TaskResult) : TaskResult :=
  { r with
    status := .accepted
    qualityScore := some qualityScore
    clientRating := some clientRating
    acceptedAt := some now
    updatedAt := now }

def acceptTaskResult (qualityScore : ℚ) (clientRating : ℤ) : TxM ℕ :=
  updateResults (·.id = resultId) (·.accept now qualityScore clientRating)

def TaskResult.reject (r : TaskResult) : TaskResult :=
  { r with status := .rejected, rejectedAt := some now, updatedAt := now }

def rejectTaskResult : TxM ℕ := updateResults (·.id = resultId) (·.reject now)

def TaskResult.dispute (r : TaskResult) : TaskResult :=
  { r with status := .disputed, disputedAt := some now, updatedAt := now }

def disputeTaskResult : TxM ℕ := updateResults (·.id = resultId) (·.dispute now)

end marketplace

/-! ### Sessions -/

section sessions
variable (sessionId : Id)

def RuntimeSession.create (id personaId taskId assignmentId : Id) (timeoutAfterMs : ℕ) :
    RuntimeSession :=
  { id, personaId, taskId, assignmentId := some assignmentId, state := .PLAN, retryCount := 0,
    timeoutAt := some (env.dbNow + timeoutAfterMs), createdAt := env.now, updatedAt := env.now,
    completedAt := none }

def createRuntimeSessionRow (id personaId taskId assignmentId : Id) (timeoutAfterMs : ℕ) : TxM ℕ :=
  fun db => .ok (1, { db with sessions := db.sessions ++
    [.create env id personaId taskId assignmentId timeoutAfterMs] })

/-- The step of a session to `state`, which renews its timeout. -/
def RuntimeSession.renew (state : RuntimeSessionState) (timeoutAfterMs : ℕ) (s : RuntimeSession) :
    RuntimeSession :=
  { s with
    state
    updatedAt := env.now
    timeoutAt := some (env.dbNow + timeoutAfterMs) }

def planRuntimeSessionRow (timeoutAfterMs : ℕ) : TxM ℕ :=
  updateSessions (·.id = sessionId) (·.renew env .EXECUTE timeoutAfterMs)

def executeRuntimeSessionRow (timeoutAfterMs : ℕ) : TxM ℕ :=
  updateSessions (·.id = sessionId) (·.renew env .EVALUATE timeoutAfterMs)

def evaluateRuntimeSessionRow (timeoutAfterMs : ℕ) : TxM ℕ :=
  updateSessions (·.id = sessionId) (·.renew env .MEMORY_UPDATE timeoutAfterMs)

def RuntimeSession.complete (s : RuntimeSession) : RuntimeSession :=
  { s with
    state := .COMPLETED
    updatedAt := env.now
    completedAt := some env.now
    timeoutAt := none }

def completeRuntimeSessionRow : TxM ℕ := updateSessions (·.id = sessionId) (·.complete env)

def RuntimeSession.retry (state : RuntimeSessionState) (timeoutAfterMs : ℕ) (s : RuntimeSession) :
    RuntimeSession :=
  { s with
    state
    retryCount := s.retryCount + 1
    timeoutAt := some (env.dbNow + timeoutAfterMs)
    updatedAt := env.now }

def retryRuntimeSession (state expectedState : RuntimeSessionState) (timeoutAfterMs : ℕ) : TxM ℕ :=
  updateSessions (fun s => s.id = sessionId ∧ s.state = expectedState)
    (·.retry env state timeoutAfterMs)

def RuntimeSession.timeout (s : RuntimeSession) : RuntimeSession :=
  { s with
    state := .TIMEOUT
    timeoutAt := none
    updatedAt := env.now
    completedAt := some env.now }

def timeoutRuntimeSession (expectedState : RuntimeSessionState) : TxM ℕ :=
  updateSessions (fun s => s.id = sessionId ∧ s.state = expectedState) (·.timeout env)

end sessions

/-! ### Governance -/

section governance
variable (caseId : Id) (now : Time)

def GovernanceCase.create (id personaId : Id) (taskId : Option Id)
    (severity : GovernanceCaseSeverity) : GovernanceCase :=
  { id, personaId, taskId, severity, status := .open, openedAt := now, resolvedAt := none,
    appealedAt := none }

def createGovernanceCase (id personaId : Id) (taskId : Option Id)
    (severity : GovernanceCaseSeverity) : TxM ℕ := fun db =>
  .ok (1, { db with cases := db.cases ++ [.create now id personaId taskId severity] })

def createGovernanceAction (id : Id) (actionType : GovernanceActionType)
    (durationSeconds : Option ℕ) (actorUserId : Id) : TxM ℕ := fun db =>
  .ok (1, { db with actions := db.actions ++ [
    { id, caseId, actionType, durationSeconds, actorUserId, createdAt := now }] })

def GovernanceCase.act (status : GovernanceCaseStatus) (resolvedAt : Option Time)
    (c : GovernanceCase) : GovernanceCase :=
  { c with status, resolvedAt }

def updateGovernanceCaseAction (status : GovernanceCaseStatus) (resolvedAt : Option Time) : TxM ℕ :=
  updateCases (fun c => c.id = caseId ∧ c.status ≠ .resolved) (·.act status resolvedAt)

def GovernanceCase.appeal (c : GovernanceCase) : GovernanceCase :=
  { c with status := .appealed, appealedAt := some now, resolvedAt := none }

def appealGovernanceCaseRow : TxM ℕ :=
  updateCases (fun c => c.id = caseId ∧ c.status ≠ .resolved ∧ c.status ≠ .appealed)
    (·.appeal now)

end governance

end ChronoSynth.Persona
