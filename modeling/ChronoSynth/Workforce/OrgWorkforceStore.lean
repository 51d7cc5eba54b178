import ChronoSynth.Lib.Service
import ChronoSynth.Workforce.Types

/-!
# The workforce store

`OrgWorkforceStore`: the queries and the statements on the workforce tables. A statement that reports
whether it has changed a row is given here with the row it has changed, as it was before.
-/

namespace ChronoSynth.Workforce

open Service

abbrev Service := EStateM WorkforceError Store

/-- `ORDER BY created_at ASC, id ASC`. -/
def byAge {α : Type} (createdAt : α → Time) (id : α → Id) (rows : List α) : List α :=
  rows.insertionSort fun a b => createdAt a < createdAt b ∨ createdAt a = createdAt b ∧ id a ≤ id b

namespace Store

variable (s : Store)

/-! ## Identifiers -/

/-- The number of the next random identifier: as the environment has it, unless it is taken. -/
def fresh (e : Env) : Id := if e.id s.drawn.length ∈ s.drawn then s.drawn.sum + 1 else e.id s.drawn.length

/-! ## Queries -/

def listPositions (orgId : OrgId) : List OrgPosition :=
  byAge (·.createdAt) (·.id) (s.positions.filter fun p => p.orgId = orgId)

def listWorkers (orgId : OrgId) : List DigitalWorker :=
  byAge (·.createdAt) (·.id) (s.workers.filter fun w => w.orgId = orgId)

def getWorker (orgId : OrgId) (workerId : Id) : Option DigitalWorker :=
  s.workers.find? fun w => w.orgId = orgId ∧ w.id = workerId

/-- The direct reports of a manager, along edges of every type. -/
def listDirectReports (orgId : OrgId) (managerWorkerId : Id) : List Id :=
  ((s.edges.filter fun e => e.orgId = orgId ∧ e.managerWorkerId = some managerWorkerId).map
    (·.reportWorkerId)).insertionSort (· ≤ ·)

/-- The direct manager of a worker, along solid edges only. -/
def getManagerOf (orgId : OrgId) (reportWorkerId : Id) : Option Id :=
  ((s.edges.filter fun e => e.orgId = orgId ∧ e.reportWorkerId = reportWorkerId ∧
    e.edgeType = .solid).filterMap (·.managerWorkerId)).min?

def getGoal (orgId : OrgId) (goalId : Id) : Option OrgGoal :=
  s.goals.find? fun g => g.orgId = orgId ∧ g.id = goalId

def getTask (orgId : OrgId) (taskId : Id) : Option OrgTask :=
  s.tasks.find? fun t => t.orgId = orgId ∧ t.id = taskId

def listTasksByAssignee (orgId : OrgId) (workerId : Id) : List OrgTask :=
  byAge (·.createdAt) (·.id)
    (s.tasks.filter fun t => t.orgId = orgId ∧ t.assignedToWorkerId = some workerId)

def getHandoff (orgId : OrgId) (handoffId : Id) : Option OrgHandoff :=
  s.handoffs.find? fun h => h.orgId = orgId ∧ h.id = handoffId

def getApproval (orgId : OrgId) (approvalId : Id) : Option OrgApproval :=
  s.approvals.find? fun a => a.orgId = orgId ∧ a.id = approvalId

/-- The worker of each role, the oldest one where several hold it. -/
def workerIdByRole (orgId : OrgId) (roleCode : String) : Option Id :=
  ((s.listWorkers orgId).find? fun w =>
    (s.listPositions orgId).any fun p => p.id = w.positionId ∧ p.roleCode = roleCode).map (·.id)

/-! ## Statements -/

section tasks
variable (orgId : OrgId) (taskId : Id) (now : Time)

/-- `UPDATE org_tasks SET g WHERE p`, with the row that was changed. -/
def updateTask (p : OrgTask → Prop) [DecidablePred p] (g : OrgTask → OrgTask) : Option OrgTask × Store :=
  (s.tasks.find? (fun t => p t), { s with tasks := Table.update p g s.tasks })

def reasonOf (status : TaskStatus) (blockedReason : Option TaskBlockedReason) :
    Option TaskBlockedReason :=
  if status = .blocked then blockedReason else none

def updateTaskExecution (status : TaskStatus) (resultSummary : Option String)
    (blockedReason : Option TaskBlockedReason) : Option OrgTask × Store :=
  s.updateTask (fun t => t.orgId = orgId ∧ t.id = taskId) fun t =>
    { t with
      status, resultSummary, blockedReason := reasonOf status blockedReason, updatedAt := now }

def transitionTaskExecutionIfStatus (expectedStatus nextStatus : TaskStatus)
    (resultSummary : Option String) (expectedAssignee : Option Id)
    (blockedReason : Option TaskBlockedReason) : Option OrgTask × Store :=
  s.updateTask
    (fun t => t.orgId = orgId ∧ t.id = taskId ∧ t.status = expectedStatus ∧
      (expectedAssignee = none ∨ t.assignedToWorkerId = expectedAssignee))
    fun t =>
      { t with
        status := nextStatus, resultSummary, blockedReason := reasonOf nextStatus blockedReason,
        updatedAt := now }

def wakeBlockedTaskToDelegated (resultSummary wakeEventId : String) : Option OrgTask × Store :=
  s.updateTask
    (fun t => t.orgId = orgId ∧ t.id = taskId ∧ t.status = .blocked ∧
      t.lastWakeEventId ≠ some wakeEventId)
    fun t =>
      { t with
        status := .delegated, resultSummary := some resultSummary,
        resumeAttemptCount := t.resumeAttemptCount + 1, lastWakeEventId := some wakeEventId,
        updatedAt := now }

def recordWakeAttemptOnBlocked (resultSummary wakeEventId : String) : Option OrgTask × Store :=
  s.updateTask
    (fun t => t.orgId = orgId ∧ t.id = taskId ∧ t.status = .blocked ∧
      t.lastWakeEventId ≠ some wakeEventId)
    fun t =>
      { t with
        resultSummary := some resultSummary, resumeAttemptCount := t.resumeAttemptCount + 1,
        lastWakeEventId := some wakeEventId, updatedAt := now }

def reassignTaskIfHeldBy (expectedCurrentWorkerId newAssigneeWorkerId : Id) : Option OrgTask × Store :=
  s.updateTask
    (fun t => t.orgId = orgId ∧ t.id = taskId ∧ t.assignedToWorkerId = some expectedCurrentWorkerId)
    fun t => { t with assignedToWorkerId := some newAssigneeWorkerId, updatedAt := now }

def reassignDelegatedTaskIfHeldBy (expectedCurrentWorkerId newAssigneeWorkerId : Id) :
    Option OrgTask × Store :=
  s.updateTask
    (fun t => t.orgId = orgId ∧ t.id = taskId ∧ t.assignedToWorkerId = some expectedCurrentWorkerId ∧
      t.status = .delegated)
    fun t => { t with assignedToWorkerId := some newAssigneeWorkerId, updatedAt := now }

end tasks

section approvals
variable (orgId : OrgId) (approvalId : Id) (now : Time)

/-- `UPDATE org_approvals SET g WHERE p`, with the row that was changed. -/
def updateApproval (p : OrgApproval → Prop) [DecidablePred p] (g : OrgApproval → OrgApproval) :
    Option OrgApproval × Store :=
  (s.approvals.find? (fun a => p a), { s with approvals := Table.update p g s.approvals })

def decideApprovalIfPending (status : ApprovalStatus) (approverWorkerId : Option Id)
    (approverUserId : Option String) : Option OrgApproval × Store :=
  s.updateApproval
    (fun a => a.orgId = orgId ∧ a.id = approvalId ∧ a.status = .pending ∧ ∀ t ∈ a.expiresAt, now < t)
    fun a => { a with status, approverWorkerId, approverUserId, decidedAt := some now }

def consumeApprovalIfUnused : Option OrgApproval × Store :=
  s.updateApproval
    (fun a => a.orgId = orgId ∧ a.id = approvalId ∧ a.status = .approved ∧ a.consumedAt = none)
    fun a => { a with consumedAt := some now }

def setApprovalArgumentsHash (argumentsHash : String) : Option OrgApproval × Store :=
  s.updateApproval (fun a => a.orgId = orgId ∧ a.id = approvalId)
    fun a => { a with argumentsHash := some argumentsHash }

def expireStaleApprovals : Option OrgApproval × Store :=
  s.updateApproval
    (fun a => a.orgId = orgId ∧ a.status = .pending ∧ ∃ t ∈ a.expiresAt, t ≤ now)
    fun a => { a with status := .expired, decidedAt := some now }

end approvals

end Store

/-! ## Other statements -/

namespace Store

variable (s : Store)

def updateGoalStatus (orgId : OrgId) (goalId : Id) (now : Time) (status : GoalStatus) : Store :=
  { s with
    goals := Table.update (fun g => g.orgId = orgId ∧ g.id = goalId)
      (fun g => { g with status, updatedAt := now }) s.goals }

def getThread (orgId : OrgId) (threadId : Id) : Option OrgConversationThread :=
  s.threads.find? fun t => t.orgId = orgId ∧ t.id = threadId

def setThreadStatus (orgId : OrgId) (threadId : Id) (status : ThreadStatus) : Store :=
  { s with
    threads := Table.update (fun t => t.orgId = orgId ∧ t.id = threadId) (fun t => { t with status })
      s.threads }

def getEscalation (orgId : OrgId) (escalationId : Id) : Option OrgEscalation :=
  s.escalations.find? fun x => x.orgId = orgId ∧ x.id = escalationId

def transitionEscalationIfPending (orgId : OrgId) (escalationId : Id) (now : Time)
    (status : EscalationStatus) : Option OrgEscalation × Store :=
  let p : OrgEscalation → Prop := fun x => x.orgId = orgId ∧ x.id = escalationId ∧ x.status = .pending
  have : DecidablePred p := fun _ => inferInstanceAs (Decidable (_ ∧ _ ∧ _))
  (s.escalations.find? (fun x => p x),
    { s with
      escalations := Table.update p (fun x => { x with status, decidedAt := some now }) s.escalations })

def transitionHandoffIfProposed (orgId : OrgId) (handoffId : Id) (now : Time) (status : HandoffStatus) :
    Option OrgHandoff × Store :=
  let p : OrgHandoff → Prop := fun h => h.orgId = orgId ∧ h.id = handoffId ∧ h.status = .proposed
  have : DecidablePred p := fun _ => inferInstanceAs (Decidable (_ ∧ _ ∧ _))
  (s.handoffs.find? (fun h => p h),
    { s with
      handoffs := Table.update p (fun h => { h with status, respondedAt := some now }) s.handoffs })

end Store

/-! ## Statements as methods -/

/-- A random identifier. -/
def idgen (e : Env) : Service Id := modifyGet fun s =>
  (s.fresh e, { s with drawn := s.fresh e :: s.drawn })

/-- A statement and whether it has changed a row. -/
def changed {α : Type} (f : Store → Option α × Store) : Service Bool := modifyGet fun s =>
  ((f s).1.isSome, (f s).2)

def insertPosition (p : OrgPosition) : Service Unit := do
  let s ← get
  require (∀ q ∈ s.positions, ¬ (q.orgId = p.orgId ∧ q.roleCode = p.roleCode))
    (.UniqueViolation "uq_positions_role")
  set { s with positions := s.positions ++ [p] }

def insertWorker (w : DigitalWorker) : Service Unit :=
  modify fun s => { s with workers := s.workers ++ [w] }

def insertEdge (edge : ReportingEdge) : Service Unit := do
  let s ← get
  require (∀ f ∈ s.edges, ¬ (f.orgId = edge.orgId ∧ f.reportWorkerId = edge.reportWorkerId))
    (.UniqueViolation "uq_edges_report_worker")
  set { s with edges := s.edges ++ [edge] }

namespace Store

/-- The edge and the worker that `reparentWorker` touches. -/
def reparentWorker (s : Store) (orgId : OrgId) (reportWorkerId : Id) (newManagerWorkerId : Option Id)
    (now : Time) : Option ReportingEdge × Store :=
  (s.edges.find? fun e => e.orgId = orgId ∧ e.reportWorkerId = reportWorkerId,
    { s with
      edges := Table.update (fun e => e.orgId = orgId ∧ e.reportWorkerId = reportWorkerId)
        (fun e => { e with managerWorkerId := newManagerWorkerId }) s.edges
      workers := Table.update (fun w => w.orgId = orgId ∧ w.id = reportWorkerId)
        (fun w => { w with updatedAt := now }) s.workers })

def setWorkerEmploymentStatus (s : Store) (orgId : OrgId) (workerId : Id) (status : EmploymentStatus)
    (now : Time) : Option DigitalWorker × Store :=
  (s.getWorker orgId workerId,
    { s with
      workers := Table.update (fun w => w.orgId = orgId ∧ w.id = workerId)
        (fun w => { w with employmentStatus := status, updatedAt := now }) s.workers })

/-- The rows of `fromOrgId` in the twelve tables of the list are given to `toOrgId`. -/
def migrated (s : Store) (fromOrgId toOrgId : OrgId) : Store :=
  { s with
    workers := Table.update (·.orgId = fromOrgId) (fun r => { r with orgId := toOrgId }) s.workers
    positions := Table.update (·.orgId = fromOrgId) (fun r => { r with orgId := toOrgId }) s.positions
    edges := Table.update (·.orgId = fromOrgId) (fun r => { r with orgId := toOrgId }) s.edges
    goals := Table.update (·.orgId = fromOrgId) (fun r => { r with orgId := toOrgId }) s.goals
    tasks := Table.update (·.orgId = fromOrgId) (fun r => { r with orgId := toOrgId }) s.tasks
    reports := Table.update (·.orgId = fromOrgId) (fun r => { r with orgId := toOrgId }) s.reports
    threads := Table.update (·.orgId = fromOrgId) (fun r => { r with orgId := toOrgId }) s.threads
    messages := Table.update (·.orgId = fromOrgId) (fun r => { r with orgId := toOrgId }) s.messages
    handoffs := Table.update (·.orgId = fromOrgId) (fun r => { r with orgId := toOrgId }) s.handoffs
    approvals := Table.update (·.orgId = fromOrgId) (fun r => { r with orgId := toOrgId }) s.approvals
    escalations :=
      Table.update (·.orgId = fromOrgId) (fun r => { r with orgId := toOrgId }) s.escalations
    learningRequests :=
      Table.update (·.orgId = fromOrgId) (fun r => { r with orgId := toOrgId }) s.learningRequests }

end Store

/-- The role code of a position is changed, unless another one of the organisation has it. -/
def renamePositionRoleCode (orgId : OrgId) (oldRoleCode newRoleCode : String) : Service Unit := do
  let s ← get
  require (∀ p ∈ s.positions, ∀ q ∈ s.positions, p.orgId = orgId → p.roleCode = oldRoleCode →
      ¬ (q.orgId = orgId ∧ q.roleCode = newRoleCode ∧ q.id ≠ p.id))
    (.UniqueViolation "uq_positions_role")
  set { s with
    positions := Table.update (fun p => p.orgId = orgId ∧ p.roleCode = oldRoleCode)
      (fun p => { p with roleCode := newRoleCode }) s.positions }

/-- `migrateOrgStructure`: refused by the database where a role code or an edge would occur twice. -/
def migrateOrgStructure (fromOrgId toOrgId : OrgId) : Service ℕ := do
  let s ← get
  require (∀ p ∈ s.positions, ∀ q ∈ s.positions, p.orgId = fromOrgId → q.orgId = toOrgId →
      p.roleCode ≠ q.roleCode)
    (.UniqueViolation "uq_positions_role")
  require (∀ e ∈ s.edges, ∀ f ∈ s.edges, e.orgId = fromOrgId → f.orgId = toOrgId →
      e.reportWorkerId ≠ f.reportWorkerId)
    (.UniqueViolation "uq_edges_report_worker")
  set (s.migrated fromOrgId toOrgId)
  return (s.listWorkers fromOrgId).length

end ChronoSynth.Workforce
