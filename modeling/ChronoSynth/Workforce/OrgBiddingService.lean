import ChronoSynth.Workforce.LearningRequestService

/-!
# Goals and the market, as calls

`OrgPlanningService.runGoal`, and the market for organisations: an organisation applies for a task of the
marketplace, is assigned it by the publisher, plans it, submits it, and is paid when the publisher accepts
(`OrgBiddingService`, `OrgWalletService`).
-/

namespace ChronoSynth.Workforce

/-! ## Running a goal -/

/-- The assignee of each specification, if all of them may be delegated to. -/
def resolveAssignees (orgId : OrgId) (managerWorkerId : Id) (workerIdByRole : String → Option Id) :
    List TaskSpec → WorkforceCall (List (TaskSpec × Id))
  | [] => return []
  | spec :: specs =>
    match workerIdByRole spec.assigneeRoleCode with
    | none =>
      .throw (.AssigneeNotFoundError
        ("分解需要岗位「" ++ spec.assigneeRoleCode ++ "」的下属，但组织里没有该直接下属"))
    | some assigneeId => do
      match ← Prog.query (assertCanDelegate orgId · managerWorkerId assigneeId) with
      | .error err => .throw err
      | .ok () =>
        return (spec, assigneeId) :: (← resolveAssignees orgId managerWorkerId workerIdByRole specs)

def Answer.goal? : Answer → Option RunGoalResult
  | .goal result => some result
  | _ => none

/-- `runGoal`. -/
def runGoal (orgId : OrgId) (managerWorkerId : Id) (goal : GoalInput)
    (workerIdByRole : String → Option Id) : WorkforceCall (Option RunGoalResult) := do
  let playbooks ← Prog.queryAny fun e _ => e.playbooks
  match playbooks.lookup goal.goalType with
  | none =>
    .throw (.UnsupportedGoalTypeError ("不支持的 goalType：" ++ goal.goalType ++ "（已支持：" ++
      ", ".intercalate (playbooks.map (·.1)) ++ "）"))
  | some playbook =>
    let resolved ← resolveAssignees orgId managerWorkerId workerIdByRole
      (playbook.decompose goal.title goal.description)
    return (← send (.runGoalInTx orgId managerWorkerId goal playbook.version resolved)).goal?

/-! ## Settling -/

def Answer.settlement? : Answer → Option OrgWalletSettlement
  | .settlement row => row
  | _ => none

/-- `validate`. -/
def SettleInput.Valid (input : SettleInput) : Prop :=
  0 < mathRound input.totalAmountMinor ∧ 0 ≤ mathRound input.platformPct ∧ mathRound input.platformPct ≤ 100

instance (input : SettleInput) : Decidable input.Valid := inferInstanceAs (Decidable (_ ∧ _ ∧ _))

/-- `settleOrgTaskPayment`; `none` where the input or the wallet does not allow it. -/
def settleOrgTaskPayment (input : SettleInput) : WorkforceCall (Option OrgWalletSettlement) := do
  if ¬ input.Valid then return none
  else
    match ← Prog.query (·.getOrgWalletSettlementBySourceTask input.sourceMarketplaceTaskId) with
    | some settled => return some settled
    | none =>
      let probe ← Prog.query (·.getOrgWallet input.orgId)
      if ∃ wallet ∈ probe, wallet.status ≠ .active ∨ wallet.currency ≠ input.currency then return none
      else return (← send (.settleInTx input)).settlement?

/-! ## Bidding -/

/-- `requireOpenTask`. -/
def requireOpenTask (taskId : Id) : WorkforceCall MarketplaceTask := do
  match ← Prog.query (·.getMarketplaceTaskBrief taskId) with
  | none => .throw (.TaskNotAvailableError ("工单不存在：" ++ toString taskId))
  | some task =>
    checking (task.status = .open)
      (.TaskNotAvailableError
        ("工单不可申请（当前状态 " ++ task.status.text ++ "，需 open）：" ++ toString taskId))
    return task

/-- `applyAsOrg`. -/
def applyAsOrg (taskId : Id) (orgId : OrgId) : WorkforceCall (Option Id) := do
  let _ ← requireOpenTask taskId
  let workers ← Prog.query (·.listWorkers orgId)
  checking (workers ≠ []) (.OrgNotFoundError ("组织不存在或无成员：" ++ orgId))
  let applied ← Prog.query (·.getOrgTaskApplication taskId orgId)
  checking (applied = none) (.DuplicateOrgApplicationError "该组织已申请此工单")
  return (← send (.insertOrgTaskApplication taskId orgId)).id?

/-- `confirmAssignToOrg`. -/
def confirmAssignToOrg (taskId : Id) (orgId : OrgId) (actorUserId : String) :
    WorkforceCall (Option Id) := do
  let task ← requireOpenTask taskId
  checking (task.publisherUserId = actorUserId) (.NotPublisherError "只有工单发布者能确认委派")
  match ← Prog.query (·.getOrgTaskApplication taskId orgId) with
  | none => .throw (.NoOrgApplicationError "该组织未申请此工单，不能委派")
  | some app =>
    checking (app.status = .submitted) (.NoOrgApplicationError "该组织未申请此工单，不能委派")
    return (← send (.confirmInTx taskId orgId app.id)).id?

structure StartInput where
  taskId : Id
  orgId : OrgId
  managerWorkerId : Id
  goalType : String
  deriving DecidableEq, Repr

def requireAssignment (taskId : Id) (orgId : OrgId) (status : OrgTaskAssignmentStatus)
    (message : OrgTaskAssignmentStatus → String) : WorkforceCall OrgTaskAssignment := do
  match ← Prog.query (·.getLatestOrgTaskAssignment taskId) with
  | none => .throw (.OrgAssignmentStateError ("组织 " ++ orgId ++ " 未被委派此工单"))
  | some assign =>
    checking (assign.orgId = orgId) (.OrgAssignmentStateError ("组织 " ++ orgId ++ " 未被委派此工单"))
    checking (assign.status = status) (.OrgAssignmentStateError (message assign.status))
    return assign

/-- `try … catch` around a call. -/
def attempting {α : Type} : WorkforceCall α → WorkforceCall (Except WorkforceError α)
  | .ret a => .ret (.ok a)
  | .throw err => .ret (.error err)
  | .read f => .read fun e s => attempting (f e s)
  | .txn cmd k => .txn cmd fun r => attempting (k r)

/-- `startOrgTask`: the assignment is taken first, and given back if the goal cannot be planned. -/
def startOrgTask (input : StartInput) : WorkforceCall (Option RunGoalResult) := do
  let assign ← requireAssignment input.taskId input.orgId .assigned fun status =>
    "指派状态 " ++ status.text ++ "，不能启动（需 assigned）"
  let manager ← Prog.query (·.getWorker input.orgId input.managerWorkerId)
  checking (manager ≠ none)
    (.OrgNotFoundError ("组织不存在或无成员：数字员工不存在：" ++ toString input.managerWorkerId))
  match ← Prog.query (·.getMarketplaceTaskBrief input.taskId) with
  | none => .throw (.TaskNotAvailableError ("工单不存在：" ++ toString input.taskId))
  | some task =>
    let hit ← hits (.updateOrgTaskAssignmentStatus assign.id .assigned .in_progress none)
    checking (hit = true) (.OrgAssignmentStateError "指派状态并发改变，启动失败，请重试")
    let workerIdByRole ← Prog.query fun s => s.workerIdByRole input.orgId
    match ← attempting (runGoal input.orgId input.managerWorkerId
        { title := task.title, description := task.description, goalType := input.goalType,
          sourceMarketplaceTaskId := some input.taskId } workerIdByRole) with
    | .error err =>
      let _ ← hits (.updateOrgTaskAssignmentStatus assign.id .in_progress .assigned none)
      .throw err
    | .ok goal =>
      let hit ← hits (.updateOrgTaskAssignmentStatus assign.id .in_progress .in_progress
        (goal.map (·.goalId)))
      checking (hit = true) (.OrgAssignmentStateError "指派状态并发改变，回填 goal 失败")
      return goal

/-- `submitOrgTask`. -/
def submitOrgTask (taskId : Id) (orgId : OrgId) : WorkforceCall Unit := do
  let assign ← requireAssignment taskId orgId .in_progress fun status =>
    "指派状态 " ++ status.text ++ "，不能提交（需 in_progress）"
  let hit ← hits (.updateOrgTaskAssignmentStatus assign.id .in_progress .submitted none)
  checking (hit = true) (.OrgAssignmentStateError "指派状态并发改变，提交失败，请重试")

/-- `acceptOrgTask`. -/
def acceptOrgTask (input : AcceptInput) : WorkforceCall (Option OrgWalletSettlement) := do
  match ← Prog.query (·.getMarketplaceTaskBrief input.taskId) with
  | none => .throw (.TaskNotAvailableError ("工单不存在：" ++ toString input.taskId))
  | some task =>
    checking (task.publisherUserId = input.actorUserId) (.NotPublisherError "只有工单发布者能确认委派")
    match ← Prog.query (·.getLatestOrgTaskAssignment input.taskId) with
    | none => .throw (.OrgAssignmentStateError "无 submitted 指派可验收")
    | some assign =>
      checking (assign.status = .submitted) (.OrgAssignmentStateError "无 submitted 指派可验收")
      return (← send (.acceptOrgTaskInTx input task assign)).settlement?

end ChronoSynth.Workforce
