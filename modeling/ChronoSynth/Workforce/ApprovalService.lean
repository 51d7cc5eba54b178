import ChronoSynth.Workforce.LearningRequestService

/-!
# The approval service

`ApprovalService`: a risky execution is requested, decided by a human or by the direct manager, and consumed
once by the execution it was requested for.
-/

namespace ChronoSynth.Workforce

/-- `request`; nothing is to be approved where the risk is low. -/
def requestApproval (input : ApprovalRequestInput) : WorkforceCall (Option Id) := do
  let requester ← Prog.query (·.getWorker input.orgId input.requesterWorkerId)
  checking (requester ≠ none)
    (.InvalidApprovalError ("发起者 " ++ toString input.requesterWorkerId ++ " 不在组织 " ++ input.orgId ++
      " 内"))
  let assessment := assessExecutionRisk input.taskRisk input.signals
  match routeApproval assessment input.allowWorkerApproval with
  | .no_approval => return none
  | .org_or_human => return (← send (.insertApproval input assessment .org_or_human)).id?
  | .human_only => return (← send (.insertApproval input assessment .human_only)).id?

/-- `requirePending`. -/
def requirePending (orgId : OrgId) (approvalId : Id) : WorkforceCall OrgApproval := do
  match ← Prog.query (·.getApproval orgId approvalId) with
  | none => .throw (.InvalidApprovalError ("审批 " ++ toString approvalId ++ " 不存在"))
  | some a =>
    checking (a.status = .pending) (.InvalidApprovalError ("审批已是 " ++ a.status.text ++ " 状态"))
    return a

/-- `assertWorkerMayDispose`. -/
def assertWorkerMayDispose (orgId : OrgId) (approval : OrgApproval) (workerId : Id) :
    WorkforceCall Unit := do
  checking (approval.approvalMode = .org_or_human)
    (.InvalidApprovalError "该审批模式为 human_only，不允许上级数字员工处置（policy 未开 worker 审批）")
  checking (workerId ≠ approval.requesterWorkerId) (.InvalidApprovalError "不能自处置")
  let approver ← Prog.query (·.getWorker orgId workerId)
  checking (∃ w ∈ approver, w.employmentStatus = .active)
    (.InvalidApprovalError "处置者须是组织内 active 数字员工")
  let reports ← Prog.query (·.listDirectReports orgId workerId)
  checking (approval.requesterWorkerId ∈ reports)
    (.InvalidApprovalError "上级数字员工处置：必须是发起者的直接上级")

/-- A pending approval that has not expired is decided. -/
def decide (orgId : OrgId) (approvalId : Id) (status : ApprovalStatus) (approverWorkerId : Option Id)
    (approverUserId : Option String) : WorkforceCall Unit := do
  let hit ← hits (.decideApprovalIfPending orgId approvalId status approverWorkerId approverUserId)
  checking (hit = true) (.InvalidApprovalError "审批已被并发响应或已过期")

/-- `approveByHuman`. -/
def approveByHuman (orgId : OrgId) (approvalId : Id) (approverUserId : String) : WorkforceCall Unit := do
  checking (trim approverUserId ≠ "") (.InvalidApprovalError "人类审批必须有 approverUserId")
  let _ ← requirePending orgId approvalId
  decide orgId approvalId .approved none (some approverUserId)

/-- `approveByWorker`. -/
def approveByWorker (orgId : OrgId) (approvalId approverWorkerId : Id) : WorkforceCall Unit := do
  let approval ← requirePending orgId approvalId
  checking (approval.requiresHuman = false)
    (.InvalidApprovalError "该审批要求人类批准，上级数字员工批准不充分（ADR-0055 铁律3）")
  assertWorkerMayDispose orgId approval approverWorkerId
  decide orgId approvalId .approved (some approverWorkerId) none

/-- `reject`, by a worker or by a user and not by both. -/
def rejectApproval (orgId : OrgId) (approvalId : Id) (workerId : Option Id) (userId : Option String) :
    WorkforceCall Unit := do
  let approval ← requirePending orgId approvalId
  let human := trim (userId.getD "")
  match workerId with
  | none =>
    checking (human ≠ "") (.InvalidApprovalError "拒绝必须标明拒绝者（userId 或 workerId）")
    decide orgId approvalId .rejected none (some human)
  | some worker =>
    checking (human = "") (.InvalidApprovalError "拒绝者只能二选一（userId 或 workerId），不能兼填")
    assertWorkerMayDispose orgId approval worker
    decide orgId approvalId .rejected (some worker) none

/-- `setApprovalArgumentsHash`. -/
def setApprovalArgumentsHash (orgId : OrgId) (approvalId : Id) (argumentsHash : String) :
    WorkforceCall Unit := do
  let _ ← send (.setApprovalArgumentsHash orgId approvalId argumentsHash)

/-- `expireStaleApprovals`. -/
def expireStaleApprovals (orgId : OrgId) : WorkforceCall Unit := do
  let _ ← send (.expireStaleApprovals orgId)

/-- `isApprovalCleared`. -/
def isApprovalCleared (orgId : OrgId) (approvalId : Id) : WorkforceCall Bool := do
  expireStaleApprovals orgId
  let a ← Prog.query (·.getApproval orgId approvalId)
  return a.any (·.status = .approved)

structure ExecutionApprovalCheck where
  orgId : OrgId
  approvalId : Id
  subjectType : ApprovalSubjectType
  subjectId : Id
  requesterWorkerId : Id
  effectiveRisk : RiskLevel
  deriving DecidableEq, Repr

/-- The approval was requested for this execution, and for a risk that is not lower. -/
def ExecutionApprovalCheck.Binds (check : ExecutionApprovalCheck) (a : OrgApproval) : Prop :=
  a.subjectType = check.subjectType ∧ a.subjectId = check.subjectId ∧
    a.requesterWorkerId = check.requesterWorkerId ∧ check.effectiveRisk.order ≤ a.effectiveRisk.order

instance (check : ExecutionApprovalCheck) (a : OrgApproval) : Decidable (check.Binds a) :=
  inferInstanceAs (Decidable (_ ∧ _ ∧ _ ∧ _))

/-- `isExecutionApprovalCleared`. -/
def isExecutionApprovalCleared (check : ExecutionApprovalCheck) : WorkforceCall Bool := do
  expireStaleApprovals check.orgId
  let a ← Prog.query (·.getApproval check.orgId check.approvalId)
  return a.any fun a => a.status = .approved ∧ check.Binds a

/-- `consumeExecutionApproval`: checked first, then consumed. -/
def consumeExecutionApproval (check : ExecutionApprovalCheck) (argumentsHash : Option String) :
    WorkforceCall Bool := do
  let cleared ← isExecutionApprovalCleared check
  if cleared = false then return false
  else
    let bound ← Prog.query fun s =>
      (s.getApproval check.orgId check.approvalId).bind (·.argumentsHash)
    if bound ≠ none ∧ bound ≠ argumentsHash then return false
    else hits (.consumeApprovalIfUnused check.orgId check.approvalId)

end ChronoSynth.Workforce
