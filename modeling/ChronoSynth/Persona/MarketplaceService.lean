import ChronoSynth.Persona.GovernanceService
import ChronoSynth.Persona.WalletService

/-!
# The marketplace

`persona-marketplace-service.ts`: tasks are published, taken, worked on, submitted, accepted or
rejected, disputed and paid. Every call reads first and then opens its transactions; what it has
read may have changed by then.
-/

namespace ChronoSynth.Persona

/-! ## Publishing and applying -/

/-- The statement of `publishTask`. -/
def publishTaskTx (env : Env) (publisherUserId : Id) (reward : ℚ) (currency : String) :
    TxM Reply := do
  let taskId ← generateId TenantDb.tasks
  let _ ← publishMarketplaceTask env.now taskId publisherUserId reward currency
  return .inserted taskId

structure PublishMarketplaceTaskInput where
  publisherUserId : Id
  reward : ℚ
  currency : Option String
  deriving DecidableEq, Repr

def publishTask (input : PublishMarketplaceTaskInput) : ServiceCall (Option MarketplaceTask) := do
  if input.reward ≤ 0 then .throw (.ValidationError "任务奖励必须为正数")
  else
    let currency := input.currency.getD WALLET_CURRENCY
    if currency ≠ WALLET_CURRENCY then
      .throw (.ValidationError ("任务币种必须为 " ++ WALLET_CURRENCY ++
        "（persona 钱包不支持其它币种，结算会永久失败）"))
    else
      match ← Prog.transaction (.publishTask input.publisherUserId input.reward currency) with
      | .failed e => .throw e
      | .inserted taskId => Prog.query fun db => getMarketplaceTask db taskId
      | _ => return none

/-- The first statement of `applyToTask`. -/
def applyToTaskTx (env : Env) (taskId personaId : Id) : TxM Reply := do
  let applicationId ← generateId TenantDb.applications
  let _ ← createTaskApplication taskId env.now applicationId personaId
  return .inserted applicationId

structure ApplyTaskInput where
  ownerUserId : Id
  taskId : Id
  personaId : Id
  deriving DecidableEq, Repr

def applyToTask (input : ApplyTaskInput) : ServiceCall (Option TaskApplication) := do
  let some detail ← Prog.query fun db => getPersonaDetail db input.personaId input.ownerUserId
    | return none
  if detail.persona.status ≠ .active then return none
  let some task ← Prog.query fun db => getMarketplaceTask db input.taskId | return none
  if task.status ≠ .open then return none
  match ← Prog.query fun db => findTaskApplication db input.personaId input.taskId with
  | some _ => return none
  | none =>
    match ← Prog.transaction (.applyToTask input.taskId input.personaId) with
    | .failed e => .throw e
    | _ => Prog.query fun db => findTaskApplication db input.personaId input.taskId

/-! ## Taking a task -/

/-- The transaction of `assignTask`. Whether the task was still open is not looked at. -/
def assignTaskTx (env : Env) (taskId personaId applicationId : Id) : TxM Reply := do
  let assignmentId ← generateId TenantDb.assignments
  let _ ← createTaskAssignment taskId env.now assignmentId personaId (some applicationId)
  let _ ← markTaskApplicationsAssigned taskId env.now applicationId
  let _ ← acceptMarketplaceTaskAssignment taskId env.now personaId
  return .inserted assignmentId

structure AssignTaskInput where
  actorUserId : Id
  taskId : Id
  personaId : Id
  deriving DecidableEq, Repr

def assignTask (input : AssignTaskInput) : ServiceCall (Option TaskAssignment) := do
  let some task ← Prog.query fun db => getMarketplaceTask db input.taskId | return none
  if task.status ≠ .open ∨ task.publisherUserId ≠ input.actorUserId then return none
  let some persona ← Prog.query fun db => getPersonaById db input.personaId | return none
  if persona.status ≠ .active then return none
  let some application ← Prog.query fun db =>
      findTaskApplication db input.personaId input.taskId
    | return none
  if application.status ≠ .submitted then return none
  let latestAssignment ← Prog.queryAny fun env db =>
    getLatestTaskAssignmentByTask env db input.taskId
  if latestAssignment.any fun a => a.status ≠ .rejected ∧ a.status ≠ .completed then return none
  match ← Prog.transaction (.assignTask input.taskId input.personaId application.id) with
  | .failed e => .throw e
  | .inserted assignmentId => Prog.query fun db => getTaskAssignmentById db assignmentId
  | _ => return none

/-- The transaction of `acceptTask`. Whether the task was still open is not looked at. -/
def acceptTaskTx (env : Env) (taskId personaId : Id) (forkId : Option Id) : TxM Reply := do
  let _ ← acceptMarketplaceTaskLegacy taskId env.now personaId forkId
  let assignmentId ← generateId TenantDb.assignments
  let _ ← createTaskAssignment taskId env.now assignmentId personaId none
  return .committed

structure AcceptMarketplaceTaskInput where
  ownerUserId : Id
  taskId : Id
  personaId : Id
  forkId : Option Id
  deriving DecidableEq, Repr

def acceptTask (input : AcceptMarketplaceTaskInput) : ServiceCall (Option MarketplaceTask) := do
  let some detail ← Prog.query fun db => getPersonaDetail db input.personaId input.ownerUserId
    | return none
  if detail.persona.status ≠ .active then return none
  let forkBelongs ← Prog.query fun db =>
    input.forkId.all fun forkId => forkBelongsToPersona db input.personaId forkId
  if ¬ forkBelongs then return none
  let some task ← Prog.query fun db => getMarketplaceTask db input.taskId | return none
  if task.status ≠ .open then return none
  match ← Prog.transaction (.acceptTask input.taskId input.personaId input.forkId) with
  | .failed e => .throw e
  | _ => Prog.query fun db => getMarketplaceTask db input.taskId

/-! ## Runtime sessions -/

def isRuntimeTerminalState (state : RuntimeSessionState) : Bool :=
  state = .COMPLETED ∨ state = .FAILED ∨ state = .TIMEOUT ∨ state = .ERROR

def isRuntimeActiveState (state : RuntimeSessionState) : Bool :=
  state = .PLAN ∨ state = .EXECUTE ∨ state = .EVALUATE ∨ state = .MEMORY_UPDATE ∨
    state = .REPUTATION_UPDATE

def nextRuntimeRetryState (_state : RuntimeSessionState) : RuntimeSessionState := .PLAN

def shouldRetryRuntimeSession (retryCount maxRetries : ℕ) : Bool := retryCount < maxRetries

/-- The transaction of `createRuntimeSession`. -/
def createRuntimeSessionTx (env : Env) (personaId taskId assignmentId : Id)
    (timeoutAfterMs : ℕ) : TxM Reply := do
  let sessionId ← generateId TenantDb.sessions
  let _ ← createRuntimeSessionRow env sessionId personaId taskId assignmentId timeoutAfterMs
  let _ ← linkTaskAssignmentRuntimeSession assignmentId sessionId
  return .inserted sessionId

structure CreateRuntimeSessionInput where
  ownerUserId : Id
  personaId : Id
  taskId : Id
  /-- The timeout the service is configured with. -/
  runtimeSessionTimeoutMs : ℕ
  deriving DecidableEq, Repr

def createRuntimeSession (input : CreateRuntimeSessionInput) :
    ServiceCall (Option RuntimeSession) := do
  let some detail ← Prog.query fun db => getPersonaDetail db input.personaId input.ownerUserId
    | return none
  if detail.persona.status ≠ .active then return none
  let some task ← Prog.query fun db => getMarketplaceTask db input.taskId | return none
  if task.assigneePersonaId ≠ some input.personaId then return none
  let some assignment ← Prog.queryAny fun env db =>
      getLatestTaskAssignmentForPersonaAndTask env db input.personaId input.taskId
    | return none
  if assignment.status ≠ .assigned ∧ assignment.status ≠ .in_progress ∧
      assignment.status ≠ .submitted then return none
  match ← Prog.transaction (.createRuntimeSession input.personaId input.taskId assignment.id
    input.runtimeSessionTimeoutMs) with
  | .failed e => .throw e
  | .inserted sessionId => Prog.query fun db => getRuntimeSession db input.ownerUserId sessionId
  | _ => return none

structure RuntimeSessionInput where
  ownerUserId : Id
  sessionId : Id
  /-- The timeout the service is configured with. -/
  runtimeSessionTimeoutMs : ℕ
  deriving DecidableEq, Repr

/-- The statement of `planRuntimeSession`. -/
def planRuntimeSessionTx (env : Env) (sessionId : Id) (timeoutAfterMs : ℕ) : TxM Reply := do
  let _ ← planRuntimeSessionRow env sessionId timeoutAfterMs
  return .committed

def planRuntimeSession (input : RuntimeSessionInput) : ServiceCall (Option RuntimeSession) := do
  let some session ← Prog.query fun db => getRuntimeSession db input.ownerUserId input.sessionId
    | return none
  if isRuntimeTerminalState session.state then return none
  let some _ ← Prog.query fun db => getMarketplaceTask db session.taskId | return none
  match ← Prog.transaction
    (.planRuntimeSession input.sessionId input.runtimeSessionTimeoutMs) with
  | .failed e => .throw e
  | _ => Prog.query fun db => getRuntimeSession db input.ownerUserId input.sessionId

/-- The transaction of `executeRuntimeSession`. -/
def executeRuntimeSessionTx (env : Env) (sessionId : Id) (assignmentId : Option Id)
    (timeoutAfterMs : ℕ) : TxM Reply := do
  let _ ← executeRuntimeSessionRow env sessionId timeoutAfterMs
  match assignmentId with
  | none => return .committed
  | some assignmentId =>
    let _ ← startTaskAssignment assignmentId env.now
    return .committed

def executeRuntimeSession (input : RuntimeSessionInput) :
    ServiceCall (Option RuntimeSession) := do
  let some session ← Prog.query fun db => getRuntimeSession db input.ownerUserId input.sessionId
    | return none
  if session.state ≠ .PLAN ∧ session.state ≠ .EXECUTE then return none
  let some _ ← Prog.query fun db => getMarketplaceTask db session.taskId | return none
  match ← Prog.transaction (.executeRuntimeSession input.sessionId session.assignmentId
    input.runtimeSessionTimeoutMs) with
  | .failed e => .throw e
  | _ => Prog.query fun db => getRuntimeSession db input.ownerUserId input.sessionId

/-- The statement of `evaluateRuntimeSession`. -/
def evaluateRuntimeSessionTx (env : Env) (sessionId : Id) (timeoutAfterMs : ℕ) : TxM Reply := do
  let _ ← evaluateRuntimeSessionRow env sessionId timeoutAfterMs
  return .committed

def evaluateRuntimeSession (input : RuntimeSessionInput) :
    ServiceCall (Option RuntimeSession) := do
  let some session ← Prog.query fun db => getRuntimeSession db input.ownerUserId input.sessionId
    | return none
  if session.state ≠ .EVALUATE then return none
  match ← Prog.transaction
    (.evaluateRuntimeSession input.sessionId input.runtimeSessionTimeoutMs) with
  | .failed e => .throw e
  | _ => Prog.query fun db => getRuntimeSession db input.ownerUserId input.sessionId

/-- The transaction of `completeRuntimeSession`. -/
def completeRuntimeSessionTx (env : Env) (sessionId : Id) : TxM Reply := do
  let _ ← completeRuntimeSessionRow env sessionId
  return .committed

def completeRuntimeSession (input : RuntimeSessionInput) :
    ServiceCall (Option RuntimeSession) := do
  let some session ← Prog.query fun db => getRuntimeSession db input.ownerUserId input.sessionId
    | return none
  if isRuntimeTerminalState session.state ∨ (session.state ≠ .EVALUATE ∧
      session.state ≠ .MEMORY_UPDATE ∧ session.state ≠ .REPUTATION_UPDATE) then return none
  let some _ ← Prog.query fun db => getMarketplaceTask db session.taskId | return none
  match ← Prog.transaction (.completeRuntimeSession input.sessionId) with
  | .failed e => .throw e
  | _ => Prog.query fun db => getRuntimeSession db input.ownerUserId input.sessionId

/-- The two statements of the recovery: another try, or the end. Both test the state that was
read. -/
def retryRuntimeSessionTx (env : Env) (sessionId : Id) (state expectedState : RuntimeSessionState)
    (timeoutAfterMs : ℕ) : TxM Reply := do
  return .affected (← retryRuntimeSession env sessionId state expectedState timeoutAfterMs)

def timeoutRuntimeSessionTx (env : Env) (sessionId : Id) (expectedState : RuntimeSessionState) :
    TxM Reply := do
  return .affected (← timeoutRuntimeSession env sessionId expectedState)

structure RecoverInput where
  sessionTimeoutMs : ℕ
  maxRetries : ℕ
  limit : Option ℕ
  deriving DecidableEq, Repr

structure RecoverOutcome where
  scanned : ℕ
  recovered : ℕ
  timedOut : ℕ
  deriving DecidableEq, Repr

/-- One session of the scan after the other. -/
def recoverSessions (input : RecoverInput) :
    List RuntimeSession → RecoverOutcome → ServiceCall RecoverOutcome
  | [], outcome => return outcome
  | session :: rest, outcome =>
    if ¬ isRuntimeActiveState session.state then recoverSessions input rest outcome
    else if shouldRetryRuntimeSession session.retryCount input.maxRetries then do
      match ← Prog.transaction (.retryRuntimeSession session.id
        (nextRuntimeRetryState session.state) session.state input.sessionTimeoutMs) with
      | .failed e => .throw e
      | .affected rows =>
        recoverSessions input rest
          { outcome with recovered := outcome.recovered + if 0 < rows then 1 else 0 }
      | _ => recoverSessions input rest outcome
    else do
      match ← Prog.transaction (.timeoutRuntimeSession session.id session.state) with
      | .failed e => .throw e
      | .affected rows =>
        recoverSessions input rest
          { outcome with timedOut := outcome.timedOut + if 0 < rows then 1 else 0 }
      | _ => recoverSessions input rest outcome

def recoverTimedOutRuntimeSessions (input : RecoverInput) : ServiceCall RecoverOutcome := do
  let rows ← Prog.queryAny fun env db => getTimedOutRuntimeSessions env db (input.limit.getD 100)
  recoverSessions input rows ⟨rows.length, 0, 0⟩

/-! ## Submitting a result -/

/-- The transaction of `submitTaskResult`. -/
def submitTaskResultTx (env : Env) (taskId assignmentId : Id) : TxM Reply := do
  let resultId ← generateId TenantDb.results
  let _ ← createTaskResult taskId assignmentId env.now resultId
  let _ ← submitTaskAssignment assignmentId env.now
  let _ ← touchMarketplaceTask taskId env.now
  return .inserted resultId

structure SubmitTaskResultInput where
  ownerUserId : Id
  taskId : Id
  assignmentId : Id
  deriving DecidableEq, Repr

def submitTaskResult (input : SubmitTaskResultInput) : ServiceCall (Option TaskResult) := do
  let some assignment ← Prog.query fun db => getTaskAssignmentById db input.assignmentId
    | return none
  if assignment.taskId ≠ input.taskId then return none
  let exist ← Prog.query fun db => personaExists db assignment.personaId input.ownerUserId
  if ¬ exist then return none
  if assignment.status ≠ .assigned ∧ assignment.status ≠ .in_progress ∧
      assignment.status ≠ .rejected then return none
  let some task ← Prog.query fun db => getMarketplaceTask db input.taskId | return none
  if task.assigneePersonaId ≠ some assignment.personaId then return none
  match ← Prog.transaction (.submitTaskResult input.taskId input.assignmentId) with
  | .failed e => .throw e
  | _ => Prog.queryAny fun env db => getLatestTaskResultByAssignment env db input.assignmentId

/-! ## Settlement -/

structure SettlementAmounts where
  ownerAmountMinor : ℤ
  personaAmountMinor : ℤ
  platformAmountMinor : ℤ
  deriving DecidableEq, Repr

/-- The shares are rounded down; the platform gets what is left. -/
def computeSettlementSplit (totalAmountMinor ownerPct personaPct _platformPct : ℤ) :
    SettlementAmounts :=
  let ownerAmountMinor := ⌊(totalAmountMinor * ownerPct / 100 : ℚ)⌋
  let personaAmountMinor := ⌊(totalAmountMinor * personaPct / 100 : ℚ)⌋
  ⟨ownerAmountMinor, personaAmountMinor,
    totalAmountMinor - ownerAmountMinor - personaAmountMinor⟩

/-- The row a task is paid by. -/
def SettleTaskPaymentInput.settlement (env : Env) (input : SettleTaskPaymentInput)
    (id walletId : Id) : TaskWalletSettlement :=
  let amounts := computeSettlementSplit (mathRound input.totalAmountMinor) input.split.ownerPct
    input.split.personaPct input.split.platformPct
  { id, walletId, taskId := input.taskId, assignmentId := input.assignmentId,
    totalAmountMinor := mathRound input.totalAmountMinor, currency := input.currency,
    ownerPct := input.split.ownerPct, personaPct := input.split.personaPct,
    platformPct := input.split.platformPct, ownerAmountMinor := amounts.ownerAmountMinor,
    personaAmountMinor := amounts.personaAmountMinor,
    platformAmountMinor := amounts.platformAmountMinor, createdAt := env.now,
    completedAt := some env.now }

/-- What `settleTaskPaymentInTx` writes once it has checked everything. -/
def writeSettlement (env : Env) (s : TaskWalletSettlement) : TxM Reply := do
  let _ ← createWalletSettlement s
  let _ ← settlePersonaWallet s.walletId env.now (fromMinor s.ownerAmountMinor)
    (fromMinor s.personaAmountMinor) s.currency
  insertWalletTransactionInTx env s.walletId .task_payment s.totalAmountMinor s.currency
    .wallet_settlement s.id
  -- a share of zero is not written to the journal
  if 0 < s.platformAmountMinor then
    insertWalletTransactionInTx env s.walletId .platform_fee (-s.platformAmountMinor)
      s.currency .wallet_settlement s.id
  if 0 < s.personaAmountMinor then
    insertWalletTransactionInTx env s.walletId .persona_reserve (-s.personaAmountMinor)
      s.currency .wallet_settlement s.id
  return .settled (getWalletSettlementByAssignmentId (← get) s.assignmentId)

/-- The transaction of `settleTaskPayment`; it makes its checks itself. -/
def settleTaskPaymentInTx (env : Env) (input : SettleTaskPaymentInput) : TxM Reply := do
  let db ← get
  let some task := getMarketplaceTask db input.taskId | return .settled none
  if task.publisherUserId ≠ input.actorUserId ∨ task.assigneePersonaId = none then
    return .settled none
  let some assignment := getTaskAssignmentById db input.assignmentId | return .settled none
  if assignment.taskId ≠ input.taskId ∨ some assignment.personaId ≠ task.assigneePersonaId then
    return .settled none
  let some wallet := getWalletByPersonaId db assignment.personaId | return .settled none
  if wallet.status ≠ .active then return .settled none
  match getWalletSettlementByAssignmentId db input.assignmentId with
  | some existing => return .settled (some existing)
  | none =>
    if input.currency ≠ wallet.currency then
      throw (.ValidationError ("钱包币种不符，禁结算：wallet=" ++ wallet.currency ++ " 结算=" ++
        input.currency))
    let totalAmountMinor := mathRound input.totalAmountMinor
    if totalAmountMinor ≤ 0 then return .settled none
    -- the amount is the reward of the task
    if totalAmountMinor ≠ toMinor task.reward then return .settled none
    if input.split.ownerPct + input.split.personaPct + input.split.platformPct ≠ 100 then
      return .settled none
    let settlementId ← generateId TenantDb.settlements
    writeSettlement env (input.settlement env settlementId wallet.id)

def settleTaskPayment (input : SettleTaskPaymentInput) :
    ServiceCall (Option TaskWalletSettlement) := do
  match ← Prog.transaction (.settleTaskPayment input) with
  | .failed e => .throw e
  | .settled settlement => return settlement
  | _ => return none

/-! ## Accepting a result -/

/-- The transaction of `acceptSubmittedTask`; a task that has been completed or reopened meanwhile
rolls it back. -/
def acceptSubmittedTaskTx (env : Env) (a : TaskAcceptance) : TxM Reply := do
  let _ ← acceptTaskResult a.resultId env.now a.qualityScore a.clientRating
  let _ ← acceptTaskAssignment a.assignmentId env.now
  let claim ← completeMarketplaceTask a.taskId env.now a.qualityScore a.growthDelta
  if claim ≠ 1 then throw .LeaseLostError
  let _ ← updatePersonaTaskAccepted a.personaId env.now a.growthDelta a.reputationDelta
  let _ ← insertGrowthEvent a.personaId env.now (some a.taskId) .task_completed a.growthDelta
    a.reputationDelta 0
  return .committed

structure AcceptSubmittedTaskInput where
  actorUserId : Id
  taskId : Id
  qualityScore : ℚ
  clientRating : ℚ
  deriving DecidableEq, Repr

structure TaskOutcome where
  task : MarketplaceTask
  assignment : TaskAssignment
  result : TaskResult
  deriving DecidableEq, Repr

def acceptanceSplit : SettlementSplit := ⟨60, 20, 20⟩

/-- The task, the assignment and its result as they are now. -/
def readTaskOutcome (taskId assignmentId : Id) : ServiceCall (Option TaskOutcome) := do
  let some task ← Prog.query fun db => getMarketplaceTask db taskId | return none
  let some assignment ← Prog.query fun db => getTaskAssignmentById db assignmentId | return none
  let some result ← Prog.queryAny fun env db =>
      getLatestTaskResultByAssignment env db assignmentId
    | return none
  return some ⟨task, assignment, result⟩

/-- The acceptance commits first; the payment is a transaction of its own. -/
def acceptSubmittedTask (input : AcceptSubmittedTaskInput) :
    ServiceCall (Option TaskOutcome) := do
  let some task ← Prog.query fun db => getMarketplaceTask db input.taskId | return none
  if task.publisherUserId ≠ input.actorUserId ∨ task.assigneePersonaId = none then return none
  let some assignment ← Prog.queryAny fun env db =>
      getLatestTaskAssignmentByTask env db input.taskId
    | return none
  if assignment.status ≠ .submitted then return none
  let some result ← Prog.queryAny fun env db =>
      getLatestTaskResultByAssignment env db assignment.id
    | return none
  if result.status ≠ .submitted then return none
  let some persona ← Prog.query fun db => getPersonaById db assignment.personaId | return none
  if isTerminalStatus persona.status then return none
  let qualityScore := clamp input.qualityScore 0 1
  let clientRating := mathRound (clamp input.clientRating 1 5)
  let rewardSignal := max task.reward 1 / 100
  let growthDelta := round (rewardSignal * (6 / 10 + qualityScore))
  let reputationDelta := round ((qualityScore - 5 / 10) * 8 + rewardSignal * 3 +
    (clientRating - 3) * (8 / 10))
  let totalAmountMinor := toMinor task.reward
  -- what the settlement would refuse is refused before anything is written
  if totalAmountMinor ≤ 0 then return none
  let some payeeWallet ← Prog.query fun db => getWalletByPersonaId db assignment.personaId
    | return none
  if payeeWallet.status ≠ .active ∨ payeeWallet.currency ≠ task.currency then return none
  match ← Prog.transaction (.acceptSubmittedTask
    { taskId := input.taskId, assignmentId := assignment.id, resultId := result.id,
      personaId := assignment.personaId, qualityScore, clientRating, growthDelta,
      reputationDelta }) with
  | .failed .LeaseLostError => return none
  | .failed e => .throw e
  | _ =>
    let some _ ← settleTaskPayment
        { actorUserId := input.actorUserId, taskId := task.id, assignmentId := assignment.id,
          totalAmountMinor, currency := task.currency, split := acceptanceSplit }
      | return none
    readTaskOutcome input.taskId assignment.id

/-! ## Rejecting a result -/

/-- The transaction of `rejectSubmittedTask`; a task that has been completed meanwhile rolls it
back. -/
def rejectSubmittedTaskTx (env : Env) (taskId assignmentId resultId : Id)
    (applicationId : Option Id) : TxM Reply := do
  let _ ← rejectTaskResult resultId env.now
  let _ ← rejectTaskAssignment assignmentId
  let _ ← rejectTaskApplication env.now applicationId
  let reopen ← reopenMarketplaceTask taskId env.now
  if reopen ≠ 1 then throw .LeaseLostError
  return .committed

structure TaskActorInput where
  actorUserId : Id
  taskId : Id
  deriving DecidableEq, Repr

def rejectSubmittedTask (input : TaskActorInput) : ServiceCall (Option TaskOutcome) := do
  let some task ← Prog.query fun db => getMarketplaceTask db input.taskId | return none
  if task.publisherUserId ≠ input.actorUserId then return none
  let some assignment ← Prog.queryAny fun env db =>
      getLatestTaskAssignmentByTask env db input.taskId
    | return none
  if assignment.status ≠ .submitted then return none
  let some result ← Prog.queryAny fun env db =>
      getLatestTaskResultByAssignment env db assignment.id
    | return none
  if result.status ≠ .submitted then return none
  match ← Prog.transaction (.rejectSubmittedTask input.taskId assignment.id result.id
    assignment.applicationId) with
  | .failed .LeaseLostError => return none
  | .failed e => .throw e
  | _ => readTaskOutcome input.taskId assignment.id

/-! ## Disputes -/

/-- The second transaction of `disputeTask`. -/
def disputeTaskTx (env : Env) (taskId assignmentId : Id) (resultId : Option Id) : TxM Reply := do
  let _ ← disputeTaskAssignment assignmentId
  match resultId with
  | none => pure ()
  | some resultId =>
    let _ ← disputeTaskResult resultId env.now
  let _ ← touchMarketplaceTask taskId env.now
  return .committed

structure DisputeOutcome where
  task : MarketplaceTask
  assignment : TaskAssignment
  result : Option TaskResult
  governanceCase : GovernanceCase
  deriving DecidableEq, Repr

/-- The case is opened first, in a transaction of its own. -/
def disputeTask (input : TaskActorInput) : ServiceCall (Option DisputeOutcome) := do
  let some task ← Prog.query fun db => getMarketplaceTask db input.taskId | return none
  if task.publisherUserId ≠ input.actorUserId then return none
  let some assigneePersonaId := task.assigneePersonaId | return none
  let some assignment ← Prog.queryAny fun env db =>
      getLatestTaskAssignmentByTask env db input.taskId
    | return none
  if assignment.status ≠ .submitted ∧ assignment.status ≠ .accepted then return none
  let result ← Prog.queryAny fun env db => getLatestTaskResultByAssignment env db assignment.id
  let some governanceCase ← openGovernanceCase
      { personaId := assigneePersonaId, taskId := some task.id, severity := .medium }
    | return none
  match ← Prog.transaction
    (.disputeTask input.taskId assignment.id (result.map TaskResult.id)) with
  | .failed e => .throw e
  | _ =>
    let some nextTask ← Prog.query fun db => getMarketplaceTask db input.taskId | return none
    let some nextAssignment ← Prog.query fun db => getTaskAssignmentById db assignment.id
      | return none
    let nextResult ← Prog.queryAny fun env db =>
      result.bind fun _ => getLatestTaskResultByAssignment env db assignment.id
    let some nextCase ← Prog.query fun db => getGovernanceCaseById db governanceCase.id
      | return none
    return some ⟨nextTask, nextAssignment, nextResult, nextCase⟩

/-! ## Completing a task directly -/

/-- The row a task is paid by that is completed directly: the owner gets all of it. -/
def TaskCompletion.settlement (env : Env) (c : TaskCompletion) (id : Id) : TaskWalletSettlement :=
  { id, walletId := c.walletId, taskId := c.taskId, assignmentId := c.assignmentId,
    totalAmountMinor := c.payoutMinor, currency := c.currency, ownerPct := 100, personaPct := 0,
    platformPct := 0, ownerAmountMinor := c.payoutMinor, personaAmountMinor := 0,
    platformAmountMinor := 0, createdAt := env.now, completedAt := some env.now }

/-- The transaction of `completeTask`, the second way a task is paid; a task that has been completed
or reopened meanwhile rolls it back. -/
def completeTaskTx (env : Env) (c : TaskCompletion) : TxM Reply := do
  let claim ← completeMarketplaceTask c.taskId env.now c.qualityScore c.growthDelta
  if claim ≠ 1 then throw .LeaseLostError
  let _ ← completeTaskWalletUpdate env.now c.personaId c.payout c.tokenReward
  if 0 < c.payoutMinor then
    let settlementId ← generateId TenantDb.settlements
    let _ ← createWalletSettlement (c.settlement env settlementId)
    insertWalletTransactionInTx env c.walletId .task_payment c.payoutMinor c.currency
      .wallet_settlement settlementId
  let _ ← completeTaskPersonaUpdate c.personaId env.now c.growthDelta c.reputationDelta
    c.ownerTrainingHours
  let _ ← insertGrowthEvent c.personaId env.now (some c.taskId) .task_completed c.growthDelta
    c.reputationDelta c.ownerTrainingHours
  return .committed

structure CompleteMarketplaceTaskInput where
  ownerUserId : Id
  taskId : Id
  qualityScore : ℚ
  ownerTrainingHours : Option ℚ
  deriving DecidableEq, Repr

structure CompletionOutcome where
  task : MarketplaceTask
  wallet : PersonaWallet
  persona : PersonaCoreDetail
  deriving DecidableEq, Repr

def completeTask (input : CompleteMarketplaceTaskInput) :
    ServiceCall (Option CompletionOutcome) := do
  let some task ← Prog.query fun db => getMarketplaceTask db input.taskId | return none
  if task.status ≠ .accepted then return none
  let some personaId := task.assigneePersonaId | return none
  let some detail ← Prog.query fun db => getPersonaDetail db personaId input.ownerUserId
    | return none
  if isTerminalStatus detail.persona.status then return none
  let qualityScore := clamp input.qualityScore 0 1
  let ownerTrainingHours := max 0 (input.ownerTrainingHours.getD 0)
  let rewardSignal := max task.reward 1 / 100
  let growthDelta := round (rewardSignal * (6 / 10 + qualityScore) +
    ownerTrainingHours * (15 / 100))
  let reputationDelta := round ((qualityScore - 5 / 10) * 8 + rewardSignal * 3)
  let payout := round (task.reward * max qualityScore (2 / 10)) 2
  let tokenReward := round (growthDelta * 8) 2
  let some payeeWallet ← Prog.query fun db => getWalletByPersonaId db personaId | return none
  if payeeWallet.status ≠ .active ∨ payeeWallet.currency ≠ task.currency then return none
  -- the payment is anchored on the latest assignment, as a settlement is
  let some assignmentForAnchor ← Prog.queryAny fun env db =>
      getLatestTaskAssignmentByTask env db input.taskId
    | return none
  match ← Prog.query fun db => getWalletSettlementByAssignmentId db assignmentForAnchor.id with
  | some _ => return none
  | none =>
    match ← Prog.transaction (.completeTask
      { taskId := input.taskId, assignmentId := assignmentForAnchor.id, personaId,
        walletId := payeeWallet.id, currency := payeeWallet.currency, qualityScore, growthDelta,
        reputationDelta, ownerTrainingHours, payout, payoutMinor := toMinor payout,
        tokenReward }) with
    | .failed .LeaseLostError => return none
    | .failed e => .throw e
    | _ =>
      let some nextTask ← Prog.query fun db => getMarketplaceTask db task.id | return none
      let some wallet ← Prog.query fun db => getWalletByPersonaId db personaId | return none
      let some nextPersona ← Prog.query fun db => getPersonaDetail db personaId input.ownerUserId
        | return none
      return some ⟨nextTask, wallet, nextPersona⟩

end ChronoSynth.Persona
