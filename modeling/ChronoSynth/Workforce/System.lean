import ChronoSynth.Workforce.OrgBiddingService
import ChronoSynth.Workforce.WorkerExecutionService
import ChronoSynth.Workforce.LearningRequestService

/-!
# The workforce as a system

Any calls of the services run interleaved over one database. A call waits between its reads, its commands
and the answer of the tool pipeline; a method whose steps no call of another comes between is one command.
-/

namespace ChronoSynth.Workforce

/-!
## Waking tasks up

`TaskWakeHandler` wakes the tasks that a learned capability was missing for, when a capability has been
learned; `TaskWakeReconciler` sweeps over the tasks that are blocked for a missing capability.
-/

section

namespace Store

variable (s : Store)

def listBlockedTasksForLearnedCapability (personaId : PersonaId) (capability : String) : List OrgTask :=
  byAge (·.createdAt) (·.id) (s.tasks.filter fun t => t.status = .blocked ∧
    ∃ r ∈ s.learningRequests, r.triggeredByTaskId = some t.id ∧ r.personaId = personaId ∧
      r.capability = capability)

def capabilityGapBlocked : List OrgTask := s.tasks.filter fun t => t.status = .blocked ∧
  t.blockedReason = some .capability_gap ∧
  ∃ r ∈ s.learningRequests, r.triggeredByTaskId = some t.id ∧ r.orgId = t.orgId

def listCapabilityGapBlockedTasks (orgId : OrgId) : List OrgTask :=
  byAge (·.createdAt) (·.id) (s.capabilityGapBlocked.filter (·.orgId = orgId))

def listCapabilityGapBlockedTasksAllOrgs : List OrgTask :=
  s.capabilityGapBlocked.insertionSort fun a b => a.orgId < b.orgId ∨ a.orgId = b.orgId ∧
    (a.createdAt < b.createdAt ∨ a.createdAt = b.createdAt ∧ a.id ≤ b.id)

end Store

inductive TaskWakeOutcome
  | woke (taskId : Id)
  | still_blocked (taskId : Id) (remainingGaps : List String)
  | attempts_exhausted (taskId : Id)
  | skipped_idempotent (taskId : Id)
  | lost_race (taskId : Id)
  deriving DecidableEq, Repr

variable (ports : Ports)

/-- The task is woken if its persona has learned what it takes, and stays blocked if not. -/
def recheck (orgId : OrgId) (task : OrgTask) (wakeEventId : String) (learned : List String) :
    WorkforceCall TaskWakeOutcome := do
  let remaining := detectCapabilityGaps ports task.requiredCapabilities learned
  if remaining ≠ [] then
    let hit ← hits (.recordWakeAttemptOnBlocked orgId task.id
      ("复检仍缺能力：" ++ ", ".intercalate remaining ++ "（保持挂起）") wakeEventId)
    return if hit then .still_blocked task.id remaining else .lost_race task.id
  else
    let hit ← hits (.wakeBlockedTaskToDelegated orgId task.id
      "已学齐所需能力，唤醒重跑（待执行门接手）" wakeEventId)
    return if hit then .woke task.id else .lost_race task.id

/-- `wakeOneTask`. -/
def wakeOneTask (orgId : OrgId) (taskId : Id) (personaId : PersonaId) (wakeEventId : String) :
    WorkforceCall TaskWakeOutcome := do
  match ← Prog.query (·.getTask orgId taskId) with
  | none => return .lost_race taskId
  | some task =>
    if task.status ≠ .blocked then return .lost_race taskId
    else if task.lastWakeEventId = some wakeEventId then return .skipped_idempotent taskId
    else if ports.maxResumeAttempts ≤ task.resumeAttemptCount then
      let hit ← hits (.recordWakeAttemptOnBlocked orgId taskId
        ("唤醒尝试超上限(" ++ toString ports.maxResumeAttempts ++ ")，停在 blocked 待人工/SLA 兜底") wakeEventId)
      return if hit then .attempts_exhausted taskId else .lost_race taskId
    else
      let learned ← listLearnedCapabilities personaId
      recheck ports orgId task wakeEventId learned

def wakeTasks (personaId : PersonaId) (wakeEventId : String) :
    List OrgTask → WorkforceCall (List TaskWakeOutcome)
  | [] => return []
  | task :: tasks => do
    let outcome ← wakeOneTask ports task.orgId task.id personaId wakeEventId
    return outcome :: (← wakeTasks personaId wakeEventId tasks)

/-- `onLearned`. -/
def onLearned (personaId : PersonaId) (capability learningRequestId : String) :
    WorkforceCall (List TaskWakeOutcome) := do
  let blocked ← Prog.query (·.listBlockedTasksForLearnedCapability personaId capability)
  wakeTasks ports personaId learningRequestId blocked

def reconcileEventId (personaId : PersonaId) (learned : List String) : String :=
  "reconcile:" ++ personaId ++ ":" ++ (Json.arr (learned.map .str)).stringify

/-- `personaIdOfTask`. -/
def Store.personaIdOfTask (s : Store) (task : OrgTask) : PersonaId :=
  ((task.assignedToWorkerId.bind (s.getWorker task.orgId ·)).map (·.personaId)).getD ""

/-- A task that is not woken and has been blocked for too long is marked. -/
def markTimeout (now : Time) (task : OrgTask) (outcome : TaskWakeOutcome) : WorkforceCall Unit := do
  if outcome ≠ .woke task.id ∧ ports.learningTimeoutMs < now - task.updatedAt then
    let _ ← hits (.markBlockedTaskLearningTimeout task.orgId task.id
      ("[learning_timeout] 挂起超 " ++ toString (mathRound (ports.learningTimeoutMs / 86400000)) ++
        " 天未学会，待人工/改委派"))
  else pure ()

/-- `reconcileTasks`. -/
def reconcileTasks (now : Time) : List OrgTask → WorkforceCall (List TaskWakeOutcome)
  | [] => return []
  | task :: tasks => do
    let personaId ← Prog.query (·.personaIdOfTask task)
    if personaId = "" then reconcileTasks now tasks
    else
      let learned ← listLearnedCapabilities personaId
      let outcome ← wakeOneTask ports task.orgId task.id personaId (reconcileEventId personaId learned)
      markTimeout ports now task outcome
      return outcome :: (← reconcileTasks now tasks)

/-- `reconcileOnce`. -/
def reconcileOnce (orgId : OrgId) : WorkforceCall (List TaskWakeOutcome) := do
  let now ← Prog.queryAny fun e _ => e.now
  let blocked ← Prog.query (·.listCapabilityGapBlockedTasks orgId)
  reconcileTasks ports now blocked

/-- `reconcileTenant`. -/
def reconcileTenant : WorkforceCall (List TaskWakeOutcome) := do
  let now ← Prog.queryAny fun e _ => e.now
  let blocked ← Prog.query (·.listCapabilityGapBlockedTasksAllOrgs)
  reconcileTasks ports now blocked

end

/-- The command is a method that runs as a whole. -/
def Cmd.Whole : Cmd → Prop
  | .bootstrap .. | .hireWorker .. | .reparent .. | .offboard .. | .absorb .. | .proposeHandoff ..
  | .acceptHandoff .. | .rejectHandoff .. | .cancelHandoff .. | .openThread .. | .sendMessage ..
  | .closeThread .. | .raiseEscalation .. | .resolveEscalation .. | .reescalate ..
  | .cancelEscalation .. | .recordCollaboration .. | .setNote .. | .publishMarketplaceTask ..
  | .moveMarketplaceTask .. | .transitionLearningRequest .. | .setApprovalArgumentsHash ..
  | .expireStaleApprovals .. => True
  | _ => False

inductive Call
  | method (cmd : {cmd : Cmd // cmd.Whole})
  | requestApproval (input : ApprovalRequestInput)
  | approveByHuman (orgId : OrgId) (approvalId : Id) (approverUserId : String)
  | approveByWorker (orgId : OrgId) (approvalId approverWorkerId : Id)
  | rejectApproval (orgId : OrgId) (approvalId : Id) (workerId : Option Id) (userId : Option String)
  | isApprovalCleared (orgId : OrgId) (approvalId : Id)
  | execute (input : ExecuteTaskInput)
  | onLearned (personaId : PersonaId) (capability learningRequestId : String)
  | reconcileOnce (orgId : OrgId)
  | reconcileTenant
  | runGoal (orgId : OrgId) (managerWorkerId : Id) (goal : GoalInput)
      (workerIdByRole : String → Option Id)
  | settleOrgTaskPayment (input : SettleInput)
  | applyAsOrg (taskId : Id) (orgId : OrgId)
  | confirmAssignToOrg (taskId : Id) (orgId : OrgId) (actorUserId : String)
  | startOrgTask (input : StartInput)
  | submitOrgTask (taskId : Id) (orgId : OrgId)
  | acceptOrgTask (input : AcceptInput)

/-- What a call returns, as far as it is looked at. -/
inductive Outcome
  | done
  | execution (result : ExecuteTaskResult)
  deriving DecidableEq, Repr

variable (ports : Ports)

def Call.start : Call → WorkforceCall Outcome
  | .method cmd => do let _ ← send cmd.1; return .done
  | .requestApproval input => do let _ ← Workforce.requestApproval input; return .done
  | .approveByHuman orgId approvalId approverUserId => do
    Workforce.approveByHuman orgId approvalId approverUserId
    return .done
  | .approveByWorker orgId approvalId approverWorkerId => do
    Workforce.approveByWorker orgId approvalId approverWorkerId
    return .done
  | .rejectApproval orgId approvalId workerId userId => do
    Workforce.rejectApproval orgId approvalId workerId userId
    return .done
  | .isApprovalCleared orgId approvalId => do
    let _ ← Workforce.isApprovalCleared orgId approvalId
    return .done
  | .execute input => do return .execution (← Workforce.execute ports input)
  | .onLearned personaId capability learningRequestId => do
    let _ ← Workforce.onLearned ports personaId capability learningRequestId
    return .done
  | .reconcileOnce orgId => do let _ ← Workforce.reconcileOnce ports orgId; return .done
  | .reconcileTenant => do let _ ← Workforce.reconcileTenant ports; return .done
  | .runGoal orgId managerWorkerId goal workerIdByRole => do
    let _ ← Workforce.runGoal orgId managerWorkerId goal workerIdByRole
    return .done
  | .settleOrgTaskPayment input => do let _ ← Workforce.settleOrgTaskPayment input; return .done
  | .applyAsOrg taskId orgId => do let _ ← Workforce.applyAsOrg taskId orgId; return .done
  | .confirmAssignToOrg taskId orgId actorUserId => do
    let _ ← Workforce.confirmAssignToOrg taskId orgId actorUserId
    return .done
  | .startOrgTask input => do let _ ← Workforce.startOrgTask input; return .done
  | .submitOrgTask taskId orgId => do Workforce.submitOrgTask taskId orgId; return .done
  | .acceptOrgTask input => do let _ ← Workforce.acceptOrgTask input; return .done

/-- The database with the calls in progress. -/
abbrev WorkforcePool := Pool Call Store Cmd Reply Env WorkforceError Outcome

abbrev WorkforceMove := Move Call Env

def WorkforcePool.step : WorkforcePool → WorkforceMove → WorkforcePool := Pool.step (Call.start ports) exec

/-- Nothing has been set up and nobody has called. -/
def WorkforcePool.init : WorkforcePool := Pool.idle .empty

end ChronoSynth.Workforce
