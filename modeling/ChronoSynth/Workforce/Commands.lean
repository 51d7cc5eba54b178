import ChronoSynth.Workforce.Collaboration
import ChronoSynth.Workforce.Types
import ChronoSynth.Workforce.OrgMarket
import ChronoSynth.Workforce.OrgRestructureService

/-!
# The commands of the workforce

What the database executes in one step, on behalf of all callers: the statements and the transactions of the
calls that wait between their steps, and as a whole the methods whose steps no other caller can come between.
-/

namespace ChronoSynth.Workforce

open Service

/-! ## Learning requests -/

/-- `active`: the request takes the slot of its persona and capability. -/
def LearningRequestStatus.Active (status : LearningRequestStatus) : Prop :=
  status = .pending ∨ status = .learning

instance (status : LearningRequestStatus) : Decidable status.Active := inferInstanceAs (Decidable (_ ∨ _))

namespace Store

variable (s : Store)

def findActive (personaId : PersonaId) (capability : String) : Option LearningRequest :=
  (byAge (·.createdAt) (·.id) (s.learningRequests.filter fun r =>
    r.personaId = personaId ∧ r.capability = capability ∧ r.status.Active)).head?

def transitionLearningRequest (id : Id) (now : Time) (fromStatus toStatus : LearningRequestStatus) :
    Option LearningRequest × Store :=
  let p : LearningRequest → Prop := fun r => r.id = id ∧ r.status = fromStatus
  have : DecidablePred p := fun _ => inferInstanceAs (Decidable (_ ∧ _))
  (s.learningRequests.find? (fun r => p r),
    { s with
      learningRequests := Table.update p (fun r => { r with status := toStatus, updatedAt := now })
        s.learningRequests })

/-- The timeout is noted once. -/
def markBlockedTaskLearningTimeout (orgId : OrgId) (taskId : Id) (now : Time) (reason : String) :
    Option OrgTask × Store :=
  s.updateTask
    (fun t => t.orgId = orgId ∧ t.id = taskId ∧ t.status = .blocked ∧
      (t.resultSummary.getD "").startsWith "[learning_timeout]" = false)
    fun t => { t with resultSummary := some reason, updatedAt := now }

end Store

variable (e : Env)

/-- An active request takes its slot; the database refuses a second one. -/
def insertLearningRequest (orgId : OrgId) (personaId : PersonaId) (capability : String)
    (triggeredByTaskId : Option Id) : Service Id := do
  let id ← idgen e
  let s ← get
  require (s.findActive personaId capability = none)
    (.UniqueViolation "uq_learning_req_active_persona_cap")
  let row : LearningRequest := {
    id, orgId, personaId, capability, triggeredByTaskId, status := .pending, createdAt := e.now,
    updatedAt := e.now }
  set { s with learningRequests := s.learningRequests ++ [row] }
  return id

/-! ## Approvals -/

structure ApprovalRequestInput where
  orgId : OrgId
  subjectType : ApprovalSubjectType
  subjectId : Id
  requesterWorkerId : Id
  taskRisk : RiskLevel
  signals : DeclaredRiskSignals
  allowWorkerApproval : Bool
  ttlMs : Option ℤ
  deriving DecidableEq, Repr

def insertApproval (input : ApprovalRequestInput) (assessment : RiskAssessment) (mode : ApprovalMode) :
    Service Id := do
  let id ← idgen e
  modify fun s => { s with approvals := s.approvals ++ [{
    id, orgId := input.orgId, subjectType := input.subjectType, subjectId := input.subjectId,
    requesterWorkerId := input.requesterWorkerId, effectiveRisk := assessment.effectiveRisk,
    requiresHuman := assessment.requiresHuman, approvalMode := mode, status := .pending,
    approverWorkerId := none, approverUserId := none, reason := assessment.rationale,
    createdAt := e.now, expiresAt := input.ttlMs.map (e.now + ·), decidedAt := none, consumedAt := none,
    argumentsHash := none }] }
  return id

/-! ## Tool calls -/

/-- `ToolInvokeRequest`. -/
structure ToolInvokeRequest where
  personaId : PersonaId
  toolId : String
  invokerId : String
  invokerUserId : String
  arguments : Args
  confirmationToken : Option String
  deriving DecidableEq, Repr

/-- `ExecuteTaskInput`. -/
structure ExecuteTaskInput where
  orgId : OrgId
  taskId : Id
  workerId : Id
  principalUserId : String
  toolId : String
  arguments : Args
  riskSignals : Option DeclaredRiskSignals
  approvalId : Option Id
  confirmationToken : Option String
  deriving DecidableEq, Repr

/-! ## Commands -/

inductive Cmd
  | bootstrap (orgId : OrgId) (specs : List WorkerSpec)
  | hireWorker (orgId : OrgId) (spec : HireSpec)
  | reparent (orgId : OrgId) (workerId newManagerWorkerId : Id)
  | offboard (input : OffboardInput)
  | absorb (input : AbsorbInput)
  | proposeHandoff (orgId : OrgId) (input : HandoffInput)
  | acceptHandoff (orgId : OrgId) (handoffId respondingWorkerId : Id)
  | rejectHandoff (orgId : OrgId) (handoffId respondingWorkerId : Id)
  | cancelHandoff (orgId : OrgId) (handoffId cancellingWorkerId : Id)
  | openThread (orgId : OrgId) (input : ThreadInput)
  | sendMessage (orgId : OrgId) (input : MessageInput)
  | closeThread (orgId : OrgId) (threadId : Id)
  | raiseEscalation (orgId : OrgId) (taskId fromWorkerId : Id) (reason : String)
  | resolveEscalation (orgId : OrgId) (escalationId resolvingWorkerId : Id) (resolution : String)
  | reescalate (orgId : OrgId) (escalationId byWorkerId : Id) (reason : String)
  | cancelEscalation (orgId : OrgId) (escalationId byWorkerId : Id)
  | recordCollaboration (orgId : OrgId) (workerId : Id) (counterpartType : CounterpartType)
      (counterpartId : String)
  | setNote (orgId : OrgId) (workerId : Id) (counterpartType : CounterpartType) (counterpartId : String)
  | publishMarketplaceTask (input : PublishInput)
  | moveMarketplaceTask (taskId : Id) (fromStatus toStatus : MarketplaceTaskStatus)
  | runGoalInTx (orgId : OrgId) (managerWorkerId : Id) (goal : GoalInput) (version : ℕ)
      (resolved : List (TaskSpec × Id))
  | settleInTx (input : SettleInput)
  | insertOrgTaskApplication (taskId : Id) (orgId : OrgId)
  | confirmInTx (taskId : Id) (orgId : OrgId) (applicationId : Id)
  | updateOrgTaskAssignmentStatus (id : Id) (fromStatus toStatus : OrgTaskAssignmentStatus)
      (orgGoalId : Option Id)
  | acceptOrgTaskInTx (input : AcceptInput) (task : MarketplaceTask) (assign : OrgTaskAssignment)
  | insertLearningRequest (orgId : OrgId) (personaId : PersonaId) (capability : String)
      (triggeredByTaskId : Option Id)
  | transitionLearningRequest (id : Id) (fromStatus toStatus : LearningRequestStatus)
  | transitionTaskExecutionIfStatus (orgId : OrgId) (taskId : Id) (expectedStatus nextStatus : TaskStatus)
      (resultSummary : Option String) (expectedAssignee : Option Id)
      (blockedReason : Option TaskBlockedReason)
  | updateTaskExecution (orgId : OrgId) (taskId : Id) (status : TaskStatus)
      (resultSummary : Option String) (blockedReason : Option TaskBlockedReason)
  | reassignDelegatedTaskIfHeldBy (orgId : OrgId) (taskId expectedCurrentWorkerId newAssigneeWorkerId : Id)
  | wakeBlockedTaskToDelegated (orgId : OrgId) (taskId : Id) (resultSummary wakeEventId : String)
  | recordWakeAttemptOnBlocked (orgId : OrgId) (taskId : Id) (resultSummary wakeEventId : String)
  | markBlockedTaskLearningTimeout (orgId : OrgId) (taskId : Id) (reason : String)
  | insertApproval (input : ApprovalRequestInput) (assessment : RiskAssessment) (mode : ApprovalMode)
  | expireStaleApprovals (orgId : OrgId)
  | decideApprovalIfPending (orgId : OrgId) (approvalId : Id) (status : ApprovalStatus)
      (approverWorkerId : Option Id) (approverUserId : Option String)
  | consumeApprovalIfUnused (orgId : OrgId) (approvalId : Id)
  | setApprovalArgumentsHash (orgId : OrgId) (approvalId : Id) (argumentsHash : String)
  /-- The call of the tool pipeline starts. -/
  | invoke (input : ExecuteTaskInput) (request : ToolInvokeRequest)
  /-- The pipeline has answered. -/
  | answered (input : ExecuteTaskInput)
  deriving DecidableEq, Repr

/-- What a command that goes through answers; a statement on a row answers with the row it has changed, as it
was before. -/
inductive Answer
  | done
  | hit (changed : Bool)
  | id (id : Id)
  | task (row : Option OrgTask)
  | approval (row : Option OrgApproval)
  | assignment (row : Option OrgTaskAssignment)
  | goal (result : RunGoalResult)
  | settlement (row : Option OrgWalletSettlement)
  | absorbed (result : AbsorbResult)
  | decision (decision : Except String ToolInvokeDecision)

abbrev Reply := Except WorkforceError Answer

/-- A statement, answered with the row it has changed. -/
def statement {α : Type} (answer : Option α → Answer) (f : Store → Option α × Store) : Service Answer :=
  modifyGet fun s => (answer (f s).1, (f s).2)

/-- What a command does. -/
def Cmd.service : Cmd → Service Answer
  | .bootstrap orgId specs => (fun _ => .done) <$> Workforce.bootstrap e orgId specs
  | .hireWorker orgId spec => .id <$> Workforce.hireWorker e orgId spec
  | .reparent orgId workerId newManagerWorkerId =>
    (fun _ => .done) <$> Workforce.reparent e orgId workerId newManagerWorkerId
  | .offboard input => (fun _ => .done) <$> Workforce.offboard e input
  | .absorb input => .absorbed <$> Workforce.absorb e input
  | .proposeHandoff orgId input => .id <$> Workforce.proposeHandoff e orgId input
  | .acceptHandoff orgId handoffId respondingWorkerId =>
    (fun _ => .done) <$> Workforce.acceptHandoff e orgId handoffId respondingWorkerId
  | .rejectHandoff orgId handoffId respondingWorkerId =>
    (fun _ => .done) <$> Workforce.rejectHandoff e orgId handoffId respondingWorkerId
  | .cancelHandoff orgId handoffId cancellingWorkerId =>
    (fun _ => .done) <$> Workforce.cancelHandoff e orgId handoffId cancellingWorkerId
  | .openThread orgId input => .id <$> Workforce.openThread e orgId input
  | .sendMessage orgId input => .id <$> Workforce.sendMessage e orgId input
  | .closeThread orgId threadId => (fun _ => .done) <$> Workforce.closeThread orgId threadId
  | .raiseEscalation orgId taskId fromWorkerId reason =>
    .id <$> Workforce.raiseEscalation e orgId taskId fromWorkerId reason
  | .resolveEscalation orgId escalationId resolvingWorkerId resolution =>
    (fun _ => .done) <$> Workforce.resolveEscalation e orgId escalationId resolvingWorkerId resolution
  | .reescalate orgId escalationId byWorkerId reason =>
    .id <$> Workforce.reescalate e orgId escalationId byWorkerId reason
  | .cancelEscalation orgId escalationId byWorkerId =>
    (fun _ => .done) <$> Workforce.cancelEscalation e orgId escalationId byWorkerId
  | .recordCollaboration orgId workerId counterpartType counterpartId =>
    (fun _ => .done) <$> Workforce.recordCollaboration orgId workerId counterpartType counterpartId
  | .setNote orgId workerId counterpartType counterpartId =>
    (fun _ => .done) <$> Workforce.setNote orgId workerId counterpartType counterpartId
  | .publishMarketplaceTask input => .id <$> Workforce.publishMarketplaceTask e input
  | .moveMarketplaceTask taskId fromStatus toStatus =>
    .hit <$> Workforce.moveMarketplaceTask e taskId fromStatus toStatus
  | .runGoalInTx orgId managerWorkerId goal version resolved => do
    let goalId ← idgen e
    .goal <$> transaction (Workforce.runGoalInTx e orgId goalId managerWorkerId goal version resolved)
  | .settleInTx input => (fun row => .settlement (some row)) <$> transaction (Workforce.settleInTx e input)
  | .insertOrgTaskApplication taskId orgId => .id <$> Workforce.insertOrgTaskApplication e taskId orgId
  | .confirmInTx taskId orgId applicationId =>
    .id <$> transaction (Workforce.confirmInTx e taskId orgId applicationId)
  | .updateOrgTaskAssignmentStatus id fromStatus toStatus orgGoalId =>
    statement .assignment (·.updateOrgTaskAssignmentStatus id e.now fromStatus toStatus orgGoalId)
  | .acceptOrgTaskInTx input task assign =>
    .settlement <$> transaction (Workforce.acceptOrgTaskInTx e input task assign)
  | .insertLearningRequest orgId personaId capability triggeredByTaskId =>
    .id <$> Workforce.insertLearningRequest e orgId personaId capability triggeredByTaskId
  | .transitionLearningRequest id fromStatus toStatus =>
    .hit <$> changed (·.transitionLearningRequest id e.now fromStatus toStatus)
  | .transitionTaskExecutionIfStatus orgId taskId expectedStatus nextStatus resultSummary
      expectedAssignee blockedReason =>
    statement .task (·.transitionTaskExecutionIfStatus orgId taskId e.now expectedStatus nextStatus
      resultSummary expectedAssignee blockedReason)
  | .updateTaskExecution orgId taskId status resultSummary blockedReason =>
    statement .task (·.updateTaskExecution orgId taskId e.now status resultSummary blockedReason)
  | .reassignDelegatedTaskIfHeldBy orgId taskId expectedCurrentWorkerId newAssigneeWorkerId =>
    statement .task (·.reassignDelegatedTaskIfHeldBy orgId taskId e.now expectedCurrentWorkerId
      newAssigneeWorkerId)
  | .wakeBlockedTaskToDelegated orgId taskId resultSummary wakeEventId =>
    statement .task (·.wakeBlockedTaskToDelegated orgId taskId e.now resultSummary wakeEventId)
  | .recordWakeAttemptOnBlocked orgId taskId resultSummary wakeEventId =>
    statement .task (·.recordWakeAttemptOnBlocked orgId taskId e.now resultSummary wakeEventId)
  | .markBlockedTaskLearningTimeout orgId taskId reason =>
    statement .task (·.markBlockedTaskLearningTimeout orgId taskId e.now reason)
  | .insertApproval input assessment mode => .id <$> Workforce.insertApproval e input assessment mode
  | .expireStaleApprovals orgId => statement .approval (·.expireStaleApprovals orgId e.now)
  | .decideApprovalIfPending orgId approvalId status approverWorkerId approverUserId =>
    statement .approval
      (·.decideApprovalIfPending orgId approvalId e.now status approverWorkerId approverUserId)
  | .consumeApprovalIfUnused orgId approvalId =>
    statement .approval (·.consumeApprovalIfUnused orgId approvalId e.now)
  | .setApprovalArgumentsHash orgId approvalId argumentsHash =>
    statement .approval (·.setApprovalArgumentsHash orgId approvalId argumentsHash)
  | .invoke .. => pure .done
  | .answered _ => pure (.decision e.decision)

/-- A method as a step of the database. -/
def runService (p : Service Answer) (s : Store) : Store × Reply :=
  match p s with
  | .ok a s' => (s', .ok a)
  | .error err s' => (s', .error err)

theorem ensures_iff_runService {p : Service Answer} {s : Store} {Q : Reply → Store → Prop} :
    Ensures p s Q ↔ Q (runService p s).2 (runService p s).1 := by
  unfold Ensures runService
  cases p s with
  | ok a s' => rfl
  | error err s' => rfl

def exec (e : Env) (cmd : Cmd) (s : Store) : Store × Reply := runService (cmd.service e) s

end ChronoSynth.Workforce
