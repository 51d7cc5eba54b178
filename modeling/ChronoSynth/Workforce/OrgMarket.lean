import ChronoSynth.Workforce.OrgChartService

/-!
# The tables of the market for organisations

Applications, assignments, wallets and settlements of organisations, the marketplace tasks they are about,
and the transactions of `OrgBiddingService` and `OrgWalletService` on them.
-/

namespace ChronoSynth.Workforce

open Service

/-!
## Planning a goal

The transaction of `OrgPlanningService.runGoal`: the tasks of a goal are given to their assignees. A task that
calls no tool is done on the spot; one that does stays delegated.
-/

section

structure GoalInput where
  title : String
  description : String
  goalType : String
  sourceMarketplaceTaskId : Option Id
  deriving DecidableEq, Repr

structure RunGoalResult where
  goalId : Id
  taskCount : ℕ
  executiveSummary : String
  pendingRealExecution : ℕ
  goalStatus : GoalStatus
  playbookVersion : ℕ
  deriving DecidableEq, Repr

def executeTaskDeterministically (taskType title : String) : String :=
  "[" ++ taskType ++ "] 已完成：" ++ title

def pendingExecutionNote (taskType title : String) : String :=
  "[" ++ taskType ++ "] 已就绪，待真实执行（需经审批门）：" ++ title

/-- A line of the summary for each task, the first of them the `n`-th. -/
def aggregateLines : ℕ → List OrgTask → List String
  | _, [] => []
  | n, t :: tasks =>
    (toString n ++ ". " ++ if t.status = .delegated then t.title ++ "（待真实执行）"
      else t.resultSummary.getD "（无产出）") :: aggregateLines (n + 1) tasks

def aggregate (goalTitle : String) (tasks : List OrgTask) (pendingRealExecution : ℕ) : String :=
  let head :=
    if 0 < pendingRealExecution then
      "目标「" ++ goalTitle ++ "」已规划+部分交付，共 " ++ toString tasks.length ++ " 个环节，其中 " ++
        toString pendingRealExecution ++ " 个待真实执行（需经审批门）："
    else "目标「" ++ goalTitle ++ "」已交付，共 " ++ toString tasks.length ++ " 个环节："
  head ++ "\n" ++ "\n".intercalate (aggregateLines 1 tasks)

variable (e : Env) (orgId : OrgId)

def insertTask (t : OrgTask) : Service Unit := modify fun s => { s with tasks := s.tasks ++ [t] }

def insertReport (r : TaskReport) : Service Unit := modify fun s => { s with reports := s.reports ++ [r] }

def insertGoal (g : OrgGoal) : Service Unit := modify fun s => { s with goals := s.goals ++ [g] }

/-- The row of a task that has just been delegated. -/
def TaskSpec.toTask (spec : TaskSpec) (taskId goalId managerWorkerId assigneeId : Id) (ts : Time) :
    OrgTask where
  id := taskId
  orgId := orgId
  goalId := goalId
  assignedToWorkerId := some assigneeId
  accountableWorkerId := managerWorkerId
  title := spec.title
  taskType := spec.taskType
  status := .delegated
  riskLevel := spec.riskLevel
  allowsToolExecution := spec.allowsToolExecution
  acceptanceCriteria := spec.acceptanceCriteria
  requiredCapabilities := spec.requiredCapabilities
  resultSummary := none
  blockedReason := none
  resumeAttemptCount := 0
  lastWakeEventId := none
  createdAt := ts
  updatedAt := ts

/-- A task is delegated; if it calls no tool, it is done and submitted. -/
def planTask (goalId managerWorkerId : Id) (spec : TaskSpec) (assigneeId : Id) : Service OrgTask := do
  let taskId ← idgen e
  let task := spec.toTask orgId taskId goalId managerWorkerId assigneeId e.now
  insertTask task
  if spec.allowsToolExecution = true then
    let reportId ← idgen e
    insertReport {
      id := reportId, orgId, taskId, fromWorkerId := assigneeId, toWorkerId := managerWorkerId,
      reportType := .progress, summary := pendingExecutionNote spec.taskType spec.title,
      createdAt := e.now }
    return task
  else
    let result := executeTaskDeterministically spec.taskType spec.title
    let _ ← changed (·.updateTaskExecution orgId taskId e.now .submitted (some result) none)
    let reportId ← idgen e
    insertReport {
      id := reportId, orgId, taskId, fromWorkerId := assigneeId, toWorkerId := managerWorkerId,
      reportType := .final, summary := result, createdAt := e.now }
    return { task with status := .submitted, resultSummary := some result }

def planTasks (goalId managerWorkerId : Id) : List (TaskSpec × Id) → Service (List OrgTask)
  | [] => return []
  | (spec, assigneeId) :: resolved => do
    let task ← planTask e orgId goalId managerWorkerId spec assigneeId
    return task :: (← planTasks goalId managerWorkerId resolved)

/-- The transaction of `runGoal`. -/
def runGoalInTx (goalId managerWorkerId : Id) (goal : GoalInput) (version : ℕ)
    (resolved : List (TaskSpec × Id)) : Service RunGoalResult := do
  insertGoal {
    id := goalId, orgId, ownerWorkerId := managerWorkerId, goalType := goal.goalType, status := .active,
    playbookVersion := version, sourceMarketplaceTaskId := goal.sourceMarketplaceTaskId,
    createdAt := e.now, updatedAt := e.now }
  let tasks ← planTasks e orgId goalId managerWorkerId resolved
  let pendingRealExecution := tasks.countP fun t => t.status = .delegated
  let summary := aggregate goal.title tasks pendingRealExecution
  let reportId ← idgen e
  insertReport {
    id := reportId, orgId, taskId := (tasks.getLast?.map (·.id)).getD goalId,
    fromWorkerId := managerWorkerId, toWorkerId := managerWorkerId, reportType := .final, summary,
    createdAt := e.now }
  let goalStatus : GoalStatus := if 0 < pendingRealExecution then .active else .completed
  modify fun s => s.updateGoalStatus orgId goalId e.now goalStatus
  return {
    goalId, taskCount := resolved.length, executiveSummary := summary, pendingRealExecution, goalStatus,
    playbookVersion := version }

end

/-! ## Statements -/

namespace Store

variable (s : Store)

def getOrgWallet (orgId : OrgId) : Option OrgWallet := s.wallets.find? (·.orgId = orgId)

def getOrgWalletSettlementBySourceTask (sourceMarketplaceTaskId : Id) : Option OrgWalletSettlement :=
  s.settlements.find? (·.sourceMarketplaceTaskId = sourceMarketplaceTaskId)

def getOrgTaskApplication (taskId : Id) (orgId : OrgId) : Option OrgTaskApplication :=
  s.applications.find? fun a => a.taskId = taskId ∧ a.orgId = orgId

/-- `ORDER BY created_at DESC, id DESC LIMIT 1`. -/
def getLatestOrgTaskAssignment (taskId : Id) : Option OrgTaskAssignment :=
  ((s.assignments.filter (·.taskId = taskId)).insertionSort fun a b =>
    b.createdAt < a.createdAt ∨ a.createdAt = b.createdAt ∧ b.id ≤ a.id).head?

def getMarketplaceTaskBrief (taskId : Id) : Option MarketplaceTask :=
  s.marketplaceTasks.find? (·.id = taskId)

def setOrgTaskApplicationStatus (taskId : Id) (orgId : OrgId) (now : Time)
    (status : OrgTaskApplicationStatus) : Store :=
  { s with
    applications := Table.update (fun a => a.taskId = taskId ∧ a.orgId = orgId)
      (fun a => { a with status, updatedAt := now }) s.applications }

/-- `COALESCE(?, org_goal_id)`: the goal is only written when one is given. -/
def updateOrgTaskAssignmentStatus (id : Id) (now : Time) (fromStatus toStatus : OrgTaskAssignmentStatus)
    (orgGoalId : Option Id) : Option OrgTaskAssignment × Store :=
  let p : OrgTaskAssignment → Prop := fun a => a.id = id ∧ a.status = fromStatus
  have : DecidablePred p := fun _ => inferInstanceAs (Decidable (_ ∧ _))
  (s.assignments.find? (fun a => p a),
    { s with
      assignments := Table.update p
        (fun a => { a with status := toStatus, orgGoalId := orgGoalId.or a.orgGoalId, updatedAt := now })
        s.assignments })

def updateMarketplaceTask (taskId : Id) (fromStatus : MarketplaceTaskStatus)
    (g : MarketplaceTask → MarketplaceTask) : Option MarketplaceTask × Store :=
  let p : MarketplaceTask → Prop := fun t => t.id = taskId ∧ t.status = fromStatus
  have : DecidablePred p := fun _ => inferInstanceAs (Decidable (_ ∧ _))
  (s.marketplaceTasks.find? (fun t => p t),
    { s with marketplaceTasks := Table.update p g s.marketplaceTasks })

def markMarketplaceTaskAssignedToOrg (taskId : Id) (orgId : OrgId) (now : Time) :
    Option MarketplaceTask × Store :=
  s.updateMarketplaceTask taskId .open fun t =>
    { t with status := .accepted, assigneeKind := .org, assigneeOrgId := some orgId, updatedAt := now }

def markMarketplaceTaskCompleted (taskId : Id) (now : Time) : Option MarketplaceTask × Store :=
  s.updateMarketplaceTask taskId .accepted fun t => { t with status := .completed, updatedAt := now }

/-- The amount is added to the balance that was read; a frozen wallet takes none. -/
def creditOrgWallet (orgId : OrgId) (deltaMinor : ℤ) (now : Time) : Option OrgWallet × Store :=
  match s.getOrgWallet orgId with
  | none => (none, s)
  | some wallet =>
    if wallet.status = .active then
      (some wallet,
        { s with
          wallets := Table.update
            (fun w => w.orgId = orgId ∧ w.status = .active ∧ w.balance = wallet.balance)
            (fun w =>
              { w with
                balance := wallet.balance + deltaMinor, lastSettledAt := some now, updatedAt := now })
            s.wallets })
    else (none, s)

end Store

variable (e : Env)

/-- `getOrCreateOrgWallet`. -/
def getOrCreateOrgWallet (orgId : OrgId) (id : Id) (currency : String) : Service OrgWallet := do
  let s ← get
  match s.getOrgWallet orgId with
  | some wallet => return wallet
  | none =>
    let wallet : OrgWallet := {
      id, orgId, balance := 0, currency, status := .active, lastSettledAt := none, createdAt := e.now,
      updatedAt := e.now }
    set { s with wallets := s.wallets ++ [wallet] }
    return wallet

/-! ## Settlements -/

structure SettleInput where
  orgId : OrgId
  sourceMarketplaceTaskId : Id
  goalId : Option Id
  totalAmountMinor : ℚ
  currency : String
  platformPct : ℚ
  deriving DecidableEq, Repr

def insertOrgWalletTransaction (walletId : Id) (transactionType : OrgWalletTransactionType)
    (amountMinor : ℤ) (currency : String) (referenceId : Id) : Service Unit := do
  let id ← idgen e
  modify fun s => { s with walletTransactions := s.walletTransactions ++ [{
    id, walletId, transactionType, amountMinor, currency, referenceId, createdAt := e.now }] }

/-- `settleInTx`. -/
def settleInTx (input : SettleInput) : Service OrgWalletSettlement := do
  let s ← get
  match s.getOrgWalletSettlementBySourceTask input.sourceMarketplaceTaskId with
  | some settled => return settled
  | none =>
    let total := mathRound input.totalAmountMinor
    let platformPct := mathRound input.platformPct
    let walletId ← idgen e
    let wallet ← getOrCreateOrgWallet e input.orgId walletId input.currency
    require (wallet.status = .active) (.Error ("org wallet 冻结，禁结算：org=" ++ input.orgId))
    require (wallet.currency = input.currency)
      (.Error ("org wallet 币种不符，禁结算：org=" ++ input.orgId ++ " 金库=" ++ wallet.currency ++
        " 结算=" ++ input.currency))
    let platformAmount := total * platformPct / 100
    let orgAmount := total - platformAmount
    let settlementId ← idgen e
    let settlement : OrgWalletSettlement := {
      id := settlementId, orgId := input.orgId, walletId := wallet.id,
      sourceMarketplaceTaskId := input.sourceMarketplaceTaskId, goalId := input.goalId,
      totalAmountMinor := total, currency := input.currency, platformPct,
      platformAmountMinor := platformAmount, orgAmountMinor := orgAmount, createdAt := e.now }
    modify fun s => { s with settlements := s.settlements ++ [settlement] }
    let credited ← changed (·.creditOrgWallet input.orgId orgAmount e.now)
    require (credited = true)
      (.Error ("org wallet 入账失败（金库冻结或并发改走）：org=" ++ input.orgId))
    insertOrgWalletTransaction e wallet.id .task_payment total input.currency settlementId
    insertOrgWalletTransaction e wallet.id .platform_fee (-platformAmount) input.currency settlementId
    return settlement

/-! ## Assignments -/

def insertOrgTaskApplication (taskId : Id) (orgId : OrgId) : Service Id := do
  let id ← idgen e
  let s ← get
  require (s.getOrgTaskApplication taskId orgId = none) (.UniqueViolation "uq_task_org_applications")
  let row : OrgTaskApplication := {
    id, taskId, orgId, status := .submitted, createdAt := e.now, updatedAt := e.now }
  set { s with applications := s.applications ++ [row] }
  return id

/-- The transaction of `confirmAssignToOrg`. -/
def confirmInTx (taskId : Id) (orgId : OrgId) (applicationId : Id) : Service Id := do
  let assignmentId ← idgen e
  let hit ← changed (·.markMarketplaceTaskAssignedToOrg taskId orgId e.now)
  require (hit = true) (.TaskNotAvailableError ("工单已被并发委派或状态改变：" ++ toString taskId))
  modify fun s => s.setOrgTaskApplicationStatus taskId orgId e.now .assigned
  modify fun s => { s with assignments := s.assignments ++ [{
    id := assignmentId, taskId, orgId, applicationId := some applicationId, orgGoalId := none,
    status := .assigned, createdAt := e.now, updatedAt := e.now }] }
  return assignmentId

structure AcceptInput where
  taskId : Id
  actorUserId : String
  platformPct : Option ℚ
  deriving DecidableEq, Repr

/-- The transaction of `acceptOrgTask`. -/
def acceptOrgTaskInTx (input : AcceptInput) (task : MarketplaceTask) (assign : OrgTaskAssignment) :
    Service (Option OrgWalletSettlement) := do
  let hit ← changed (·.updateOrgTaskAssignmentStatus assign.id e.now .submitted .accepted none)
  require (hit = true) (.OrgAssignmentStateError "指派状态并发改变，验收失败")
  let hit ← changed (·.markMarketplaceTaskCompleted input.taskId e.now)
  require (hit = true) (.OrgAssignmentStateError "工单状态并发改变（非 accepted），验收失败")
  if 0 < mathRound (task.reward * 100) then
    return some (← settleInTx e {
      orgId := assign.orgId, sourceMarketplaceTaskId := input.taskId, goalId := assign.orgGoalId,
      totalAmountMinor := mathRound (task.reward * 100), currency := task.currency,
      platformPct := input.platformPct.getD 20 })
  return none

/-! ## The rest of the marketplace -/

structure PublishInput where
  publisherUserId : String
  title : String
  description : String
  reward : ℚ
  currency : String
  deriving DecidableEq, Repr

def publishMarketplaceTask (input : PublishInput) : Service Id := do
  let id ← idgen e
  modify fun s => { s with marketplaceTasks := s.marketplaceTasks ++ [{
    id, publisherUserId := input.publisherUserId, title := input.title,
    description := input.description, reward := input.reward, currency := input.currency,
    status := .open, assigneeKind := .persona, assigneeOrgId := none, updatedAt := e.now }] }
  return id

/-- The persona side of the marketplace accepts, completes or cancels a task. -/
def moveMarketplaceTask (taskId : Id) (fromStatus toStatus : MarketplaceTaskStatus) : Service Bool :=
  changed fun s => s.updateMarketplaceTask taskId fromStatus fun t =>
    { t with status := toStatus, updatedAt := e.now }

end ChronoSynth.Workforce
