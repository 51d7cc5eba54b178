import Mathlib.Data.List.Sort
import ChronoSynth.Lib.JsText
import ChronoSynth.Lib.Table

/-!
# The workforce tables

The rows of the digital workforce of one tenant. Every statement of its store is bound to a tenant by
`tenant_id = ?`, so the rows of a tenant are a database of their own (`Store`).

* Organisations are named by their callers; all other identifiers are drawn when a row is made. An
  identifier is a number nobody has drawn before, otherwise arbitrary (`Store.fresh`): which of two rows
  comes first in `ORDER BY created_at, id` is open.
* Texts and figures that no modelled statement reads (display names, ranking scores, quality rubrics,
  deadlines, reasons) are left out.
-/

namespace ChronoSynth.Workforce

abbrev Id := ℕ

abbrev OrgId := String

abbrev PersonaId := String

/-- Milliseconds. -/
abbrev Time := ℤ

/-- The arguments of a tool call, as JSON text. -/
abbrev Args := String

/-- A character that `String.prototype.trim` takes away. -/
def isSpace (c : Char) : Bool :=
  c.val ∈ [0x9, 0xA, 0xB, 0xC, 0xD, 0x20, 0xA0, 0x1680, 0x2028, 0x2029, 0x202F, 0x205F, 0x3000, 0xFEFF] ∨
    0x2000 ≤ c.val ∧ c.val ≤ 0x200A

/-- `String.prototype.trim`. -/
@[irreducible] def trim (text : String) : String :=
  String.ofList (((text.toList.dropWhile isSpace).reverse.dropWhile isSpace).reverse)

/-! ## Enumerations -/

inductive EmploymentStatus
  | active | suspended | offboarded
  deriving DecidableEq, Repr

inductive ReportingEdgeType
  | solid | dotted | escalation
  deriving DecidableEq, Repr

inductive GoalStatus
  | proposed | active | completed | cancelled
  deriving DecidableEq, Repr

inductive TaskStatus
  | draft | delegated | in_progress | submitted | approved | rejected | blocked
  deriving DecidableEq, Repr

inductive TaskBlockedReason
  | capability_gap | execution_failure
  deriving DecidableEq, Repr

inductive ReportType
  | progress | final | blocker | escalation
  deriving DecidableEq, Repr

inductive RiskLevel
  | low | medium | high
  deriving DecidableEq, Repr

/-- `RISK_ORDER`. -/
def RiskLevel.order : RiskLevel → ℕ
  | low => 0
  | medium => 1
  | high => 2

inductive ThreadStatus
  | «open» | closed
  deriving DecidableEq, Repr

inductive MessageType
  | request | response | report | note | escalation
  deriving DecidableEq, Repr

inductive CounterpartType
  | worker | team | external
  deriving DecidableEq, Repr

inductive HandoffStatus
  | proposed | accepted | rejected | cancelled
  deriving DecidableEq, Repr

inductive ApprovalSubjectType
  | task_execution | tool_invocation
  deriving DecidableEq, Repr

inductive ApprovalMode
  | org_or_human | human_only
  deriving DecidableEq, Repr

inductive ApprovalStatus
  | pending | approved | rejected | expired
  deriving DecidableEq, Repr

inductive LearningRequestStatus
  | pending | learning | passed | failed | cancelled
  deriving DecidableEq, Repr

inductive EscalationStatus
  | pending | resolved | reescalated | cancelled
  deriving DecidableEq, Repr

inductive OrgWalletStatus
  | active | frozen
  deriving DecidableEq, Repr

inductive OrgWalletTransactionType
  | task_payment | platform_fee | refund
  deriving DecidableEq, Repr

inductive OrgTaskApplicationStatus
  | submitted | assigned | rejected | withdrawn
  deriving DecidableEq, Repr

inductive OrgTaskAssignmentStatus
  | assigned | in_progress | submitted | accepted | rejected | completed
  deriving DecidableEq, Repr

inductive MarketplaceTaskStatus
  | «open» | accepted | completed | cancelled
  deriving DecidableEq, Repr

inductive AssigneeKind
  | persona | org
  deriving DecidableEq, Repr

/-! ## Statuses in messages -/

def TaskStatus.text : TaskStatus → String
  | draft => "draft"
  | delegated => "delegated"
  | in_progress => "in_progress"
  | submitted => "submitted"
  | approved => "approved"
  | rejected => "rejected"
  | blocked => "blocked"

def HandoffStatus.text : HandoffStatus → String
  | proposed => "proposed"
  | accepted => "accepted"
  | rejected => "rejected"
  | cancelled => "cancelled"

def EscalationStatus.text : EscalationStatus → String
  | pending => "pending"
  | resolved => "resolved"
  | reescalated => "reescalated"
  | cancelled => "cancelled"

def ApprovalStatus.text : ApprovalStatus → String
  | pending => "pending"
  | approved => "approved"
  | rejected => "rejected"
  | expired => "expired"

def OrgTaskAssignmentStatus.text : OrgTaskAssignmentStatus → String
  | assigned => "assigned"
  | in_progress => "in_progress"
  | submitted => "submitted"
  | accepted => "accepted"
  | rejected => "rejected"
  | completed => "completed"

def MarketplaceTaskStatus.text : MarketplaceTaskStatus → String
  | «open» => "open"
  | accepted => "accepted"
  | completed => "completed"
  | cancelled => "cancelled"

/-! ## Rows -/

/-- `org_positions`. -/
structure OrgPosition where
  id : Id
  orgId : OrgId
  roleCode : String
  createdAt : Time
  deriving DecidableEq, Repr

/-- `digital_workers`. -/
structure DigitalWorker where
  id : Id
  orgId : OrgId
  personaId : PersonaId
  positionId : Id
  employmentStatus : EmploymentStatus
  createdAt : Time
  updatedAt : Time
  deriving DecidableEq, Repr

/-- `reporting_edges`. -/
structure ReportingEdge where
  id : Id
  orgId : OrgId
  managerWorkerId : Option Id
  reportWorkerId : Id
  edgeType : ReportingEdgeType
  createdAt : Time
  deriving DecidableEq, Repr

/-- `org_goals`. -/
structure OrgGoal where
  id : Id
  orgId : OrgId
  ownerWorkerId : Id
  goalType : String
  status : GoalStatus
  playbookVersion : ℕ
  sourceMarketplaceTaskId : Option Id
  createdAt : Time
  updatedAt : Time
  deriving DecidableEq, Repr

/-- `org_tasks`. -/
structure OrgTask where
  id : Id
  orgId : OrgId
  goalId : Id
  assignedToWorkerId : Option Id
  accountableWorkerId : Id
  title : String
  taskType : String
  status : TaskStatus
  riskLevel : RiskLevel
  allowsToolExecution : Bool
  acceptanceCriteria : String
  requiredCapabilities : List String
  resultSummary : Option String
  blockedReason : Option TaskBlockedReason
  resumeAttemptCount : ℕ
  lastWakeEventId : Option String
  createdAt : Time
  updatedAt : Time
  deriving DecidableEq, Repr

/-- `task_reports`. -/
structure TaskReport where
  id : Id
  orgId : OrgId
  taskId : Id
  fromWorkerId : Id
  toWorkerId : Id
  reportType : ReportType
  summary : String
  createdAt : Time
  deriving DecidableEq, Repr

/-- `org_conversation_threads`. -/
structure OrgConversationThread where
  id : Id
  orgId : OrgId
  goalId : Option Id
  taskId : Option Id
  createdByWorkerId : Id
  status : ThreadStatus
  createdAt : Time
  deriving DecidableEq, Repr

/-- `org_messages`. -/
structure OrgMessage where
  id : Id
  orgId : OrgId
  threadId : Id
  fromWorkerId : Id
  toWorkerId : Option Id
  messageType : MessageType
  correlationId : Option String
  createdAt : Time
  deriving DecidableEq, Repr

/-- `org_handoffs`. -/
structure OrgHandoff where
  id : Id
  orgId : OrgId
  taskId : Id
  fromWorkerId : Id
  toWorkerId : Id
  status : HandoffStatus
  createdAt : Time
  respondedAt : Option Time
  deriving DecidableEq, Repr

/-- `org_approvals`. -/
structure OrgApproval where
  id : Id
  orgId : OrgId
  subjectType : ApprovalSubjectType
  subjectId : Id
  requesterWorkerId : Id
  effectiveRisk : RiskLevel
  requiresHuman : Bool
  approvalMode : ApprovalMode
  status : ApprovalStatus
  approverWorkerId : Option Id
  approverUserId : Option String
  reason : String
  createdAt : Time
  expiresAt : Option Time
  decidedAt : Option Time
  consumedAt : Option Time
  argumentsHash : Option String
  deriving DecidableEq, Repr

/-- `org_escalations`. -/
structure OrgEscalation where
  id : Id
  orgId : OrgId
  taskId : Id
  fromWorkerId : Id
  toWorkerId : Id
  parentEscalationId : Option Id
  depth : ℕ
  status : EscalationStatus
  createdAt : Time
  decidedAt : Option Time
  deriving DecidableEq, Repr

/-- `learning_requests`. -/
structure LearningRequest where
  id : Id
  orgId : OrgId
  personaId : PersonaId
  capability : String
  triggeredByTaskId : Option Id
  status : LearningRequestStatus
  createdAt : Time
  updatedAt : Time
  deriving DecidableEq, Repr

/-- `worker_collaboration_memory`. -/
structure CollaborationMemory where
  orgId : OrgId
  workerId : Id
  counterpartType : CounterpartType
  counterpartId : String
  interactionCount : ℕ
  deriving DecidableEq, Repr

/-- `org_wallets`. -/
structure OrgWallet where
  id : Id
  orgId : OrgId
  balance : ℤ
  currency : String
  status : OrgWalletStatus
  lastSettledAt : Option Time
  createdAt : Time
  updatedAt : Time
  deriving DecidableEq, Repr

/-- `org_wallet_settlements`. -/
structure OrgWalletSettlement where
  id : Id
  orgId : OrgId
  walletId : Id
  sourceMarketplaceTaskId : Id
  goalId : Option Id
  totalAmountMinor : ℤ
  currency : String
  platformPct : ℤ
  platformAmountMinor : ℤ
  orgAmountMinor : ℤ
  createdAt : Time
  deriving DecidableEq, Repr

/-- `org_wallet_transactions`. -/
structure OrgWalletTransaction where
  id : Id
  walletId : Id
  transactionType : OrgWalletTransactionType
  amountMinor : ℤ
  currency : String
  referenceId : Id
  createdAt : Time
  deriving DecidableEq, Repr

/-- `task_org_applications`. -/
structure OrgTaskApplication where
  id : Id
  taskId : Id
  orgId : OrgId
  status : OrgTaskApplicationStatus
  createdAt : Time
  updatedAt : Time
  deriving DecidableEq, Repr

/-- `task_org_assignments`. -/
structure OrgTaskAssignment where
  id : Id
  taskId : Id
  orgId : OrgId
  applicationId : Option Id
  orgGoalId : Option Id
  status : OrgTaskAssignmentStatus
  createdAt : Time
  updatedAt : Time
  deriving DecidableEq, Repr

/-- `marketplace_tasks`, as far as the workforce reads it. -/
structure MarketplaceTask where
  id : Id
  publisherUserId : String
  title : String
  description : String
  reward : ℚ
  currency : String
  status : MarketplaceTaskStatus
  assigneeKind : AssigneeKind
  assigneeOrgId : Option OrgId
  updatedAt : Time
  deriving DecidableEq, Repr

/-! ## The database -/

structure Store where
  /-- The identifiers drawn so far. -/
  drawn : List Id
  positions : List OrgPosition
  workers : List DigitalWorker
  edges : List ReportingEdge
  goals : List OrgGoal
  tasks : List OrgTask
  reports : List TaskReport
  threads : List OrgConversationThread
  messages : List OrgMessage
  handoffs : List OrgHandoff
  approvals : List OrgApproval
  escalations : List OrgEscalation
  learningRequests : List LearningRequest
  collaborations : List CollaborationMemory
  wallets : List OrgWallet
  settlements : List OrgWalletSettlement
  walletTransactions : List OrgWalletTransaction
  applications : List OrgTaskApplication
  assignments : List OrgTaskAssignment
  marketplaceTasks : List MarketplaceTask
  deriving DecidableEq, Repr

/-- Nothing has been set up yet. -/
def Store.empty : Store :=
  ⟨[], [], [], [], [], [], [], [], [], [], [], [], [], [], [], [], [], [], [], []⟩

/-! ## Errors -/

/-- What a service throws, by the class of the error. -/
inductive WorkforceError
  | InvalidOrgChartError (message : String)
  | AssigneeNotFoundError (message : String)
  | UnsupportedGoalTypeError (message : String)
  | InvalidHandoffError (message : String)
  | InvalidApprovalError (message : String)
  | InvalidCollaborationError (message : String)
  | InvalidEscalationError (message : String)
  | MissingHumanPrincipalError (message : String)
  | WorkerExecutionError (message : String)
  | TaskNotAvailableError (message : String)
  | NotPublisherError (message : String)
  | OrgNotFoundError (message : String)
  | NoOrgApplicationError (message : String)
  | DuplicateOrgApplicationError (message : String)
  | OrgAssignmentStateError (message : String)
  | Error (message : String)
  /-- A unique index of the database refuses a row. -/
  | UniqueViolation (index : String)
  deriving DecidableEq, Repr

/-! ## The tool pipeline -/

/-- Why the pipeline has not carried out a call. -/
inductive ToolInvokeStatus
  | tool_not_found | denied_permission | denied_quota | denied_budget | denied_circuit_open
  | denied_authorization | pending_confirmation | failed | timeout
  deriving DecidableEq, Repr

def ToolInvokeStatus.text : ToolInvokeStatus → String
  | tool_not_found => "tool_not_found"
  | denied_permission => "denied_permission"
  | denied_quota => "denied_quota"
  | denied_budget => "denied_budget"
  | denied_circuit_open => "denied_circuit_open"
  | denied_authorization => "denied_authorization"
  | pending_confirmation => "pending_confirmation"
  | failed => "failed"
  | timeout => "timeout"

/-- What the pipeline answers; the result of the tool is only handed on and left out. -/
inductive ToolInvokeDecision
  | ok (invocationId : String)
  | refused (status : ToolInvokeStatus) (reason : String) (confirmationTokenId : Option String)
  deriving DecidableEq, Repr

/-! ## Playbooks -/

/-- A task a goal is decomposed into. -/
structure TaskSpec where
  assigneeRoleCode : String
  title : String
  taskType : String
  riskLevel : RiskLevel
  allowsToolExecution : Bool
  acceptanceCriteria : String
  requiredCapabilities : List String
  deriving DecidableEq, Repr

/-- A version of the rules for a type of goals. -/
structure DecompositionPlaybook where
  version : ℕ
  /-- The tasks of a goal, from its title and its description. -/
  decompose : String → String → List TaskSpec

/-! ## What is open -/

/-- What is open about a step: the clock, the numbers the random identifiers come to, what a persona has
learned, the active playbook of each type of goals, and what the tool pipeline answers or throws. -/
structure Env where
  now : Time
  id : ℕ → Id
  learned : PersonaId → List String
  playbooks : List (String × DecompositionPlaybook)
  decision : Except String ToolInvokeDecision

/-!
## The risk of an execution

`assessExecutionRisk` and `routeApproval`: how risky a tool call is, and who may approve it.
-/

/-- The signals a caller declares; a signal that is not given counts as `false`. -/
structure DeclaredRiskSignals where
  toolRisk : Option RiskLevel
  outboundCommitment : Bool
  sensitiveData : Bool
  funds : Bool
  irreversible : Bool
  requireConfirmation : Bool
  deriving DecidableEq, Repr

/-- No signal is given. -/
def DeclaredRiskSignals.none : DeclaredRiskSignals := ⟨.none, false, false, false, false, false⟩

structure RiskAssessment where
  effectiveRisk : RiskLevel
  requiresHuman : Bool
  rationale : String
  deriving DecidableEq, Repr

/-- `maxRisk`. -/
def maxRisk (a b : RiskLevel) : RiskLevel := if b.order ≤ a.order then a else b

/-- The labels of the hard signals that are given. -/
def DeclaredRiskSignals.hit (signals : DeclaredRiskSignals) : List String :=
  ([(signals.outboundCommitment, "对外承诺"), (signals.sensitiveData, "敏感数据"), (signals.funds, "资金动作"),
    (signals.irreversible, "不可逆操作")].filter (·.1)).map (·.2)

def assessExecutionRisk (taskRisk : RiskLevel) (signals : DeclaredRiskSignals) : RiskAssessment :=
  if signals.hit ≠ [] then
    ⟨.high, true, "命中硬风险（" ++ "、".intercalate signals.hit ++ "）→ 强制 high，必须人类审批"⟩
  else
    let risk := maxRisk taskRisk (signals.toolRisk.getD .low)
    let risk := if signals.requireConfirmation then maxRisk risk .medium else risk
    ⟨risk, risk = .high, match risk with
      | .high => "有效风险 high → 必须人类审批"
      | .medium => "有效风险 medium → 需组织内审批"
      | .low => "有效风险 low → 无需审批"⟩

inductive ApprovalRoute
  | no_approval | org_or_human | human_only
  deriving DecidableEq, Repr

def routeApproval (assessment : RiskAssessment) (allowWorkerApproval : Bool) : ApprovalRoute :=
  if assessment.requiresHuman then .human_only
  else if assessment.effectiveRisk = .low then .no_approval
  else if allowWorkerApproval then .org_or_human
  else .human_only

end ChronoSynth.Workforce
