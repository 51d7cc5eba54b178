import ChronoSynth.Workforce.OrgWorkforceStore

/-!
# Collaboration

How the workers of an organisation deal with each other: handoffs of tasks (`HandoffService`), threads and
messages (`AgentCommunicationService`), escalations along the chart (`EscalationService`), and what a worker
remembers of a counterpart (`WorkerCollaborationMemoryStore`).
-/

namespace ChronoSynth.Workforce

open Service

variable (e : Env) (orgId : OrgId)

/-! ## Handoffs -/

structure HandoffInput where
  taskId : Id
  fromWorkerId : Id
  toWorkerId : Id
  deriving DecidableEq, Repr

/-- `propose`. -/
def proposeHandoff (input : HandoffInput) : Service Id := do
  require (input.fromWorkerId ≠ input.toWorkerId) (.InvalidHandoffError "不能交接给自己")
  let s ← get
  match s.getTask orgId input.taskId with
  | none => throw (.InvalidHandoffError ("任务 " ++ toString input.taskId ++ " 不存在"))
  | some task =>
    require (task.assignedToWorkerId = some input.fromWorkerId)
      (.InvalidHandoffError "只有任务当前执行者能发起交接")
    require (s.getWorker orgId input.toWorkerId ≠ none)
      (.InvalidHandoffError ("接收者 " ++ toString input.toWorkerId ++ " 不在组织 " ++ orgId ++ " 内"))
    let id ← idgen e
    modify fun s => { s with handoffs := s.handoffs ++ [{
      id, orgId, taskId := input.taskId, fromWorkerId := input.fromWorkerId,
      toWorkerId := input.toWorkerId, status := .proposed, createdAt := e.now, respondedAt := none }] }
    return id

/-- `requireProposed`. -/
def requireProposed (handoffId : Id) : Service OrgHandoff := do
  let s ← get
  match s.getHandoff orgId handoffId with
  | none => throw (.InvalidHandoffError ("交接 " ++ toString handoffId ++ " 不存在"))
  | some handoff =>
    require (handoff.status = .proposed)
      (.InvalidHandoffError ("交接已是 " ++ handoff.status.text ++ " 状态，不能再响应"))
    return handoff

/-- The transaction of `accept`. -/
def acceptInTx (handoff : OrgHandoff) (handoffId : Id) : Service Unit := do
  let hit ← changed (·.transitionHandoffIfProposed orgId handoffId e.now .accepted)
  require (hit = true) (.InvalidHandoffError "交接已被并发响应，状态不再是 proposed")
  let hit ← changed
    (·.reassignTaskIfHeldBy orgId handoff.taskId e.now handoff.fromWorkerId handoff.toWorkerId)
  require (hit = true) (.InvalidHandoffError "任务当前执行者已变（陈旧交接），不能接受")

/-- `accept`. -/
def acceptHandoff (handoffId respondingWorkerId : Id) : Service Unit := do
  let handoff ← requireProposed orgId handoffId
  require (respondingWorkerId = handoff.toWorkerId) (.InvalidHandoffError "只有接收者能接受交接")
  transaction (acceptInTx e orgId handoff handoffId)

/-- A handoff that is answered without the task changing hands. -/
def closeHandoff (handoffId workerId : Id) (who : OrgHandoff → Id) (status : HandoffStatus)
    (message : String) : Service Unit := do
  let handoff ← requireProposed orgId handoffId
  require (workerId = who handoff) (.InvalidHandoffError message)
  let hit ← changed (·.transitionHandoffIfProposed orgId handoffId e.now status)
  require (hit = true) (.InvalidHandoffError "交接已被并发响应，状态不再是 proposed")

/-- `reject`. -/
def rejectHandoff (handoffId respondingWorkerId : Id) : Service Unit :=
  closeHandoff e orgId handoffId respondingWorkerId (·.toWorkerId) .rejected "只有接收者能拒绝交接"

/-- `cancel`. -/
def cancelHandoff (handoffId cancellingWorkerId : Id) : Service Unit :=
  closeHandoff e orgId handoffId cancellingWorkerId (·.fromWorkerId) .cancelled "只有发起者能撤回交接"

/-! ## Threads and messages -/

/-- `assertWorkerInOrg`. -/
def assertWorkerInOrg (workerId : Id) : Service Unit := do
  let s ← get
  require (s.getWorker orgId workerId ≠ none)
    (.InvalidCollaborationError ("worker " ++ toString workerId ++ " 不在组织 " ++ orgId ++ " 内"))

structure ThreadInput where
  createdByWorkerId : Id
  goalId : Option Id
  taskId : Option Id
  deriving DecidableEq, Repr

/-- `openThread`. -/
def openThread (input : ThreadInput) : Service Id := do
  assertWorkerInOrg orgId input.createdByWorkerId
  let s ← get
  require (∀ taskId ∈ input.taskId, s.getTask orgId taskId ≠ none)
    (.InvalidCollaborationError ("线程绑定的任务 " ++ toString (input.taskId.getD 0) ++ " 不存在于本组织"))
  require (∀ goalId ∈ input.goalId, s.getGoal orgId goalId ≠ none)
    (.InvalidCollaborationError ("线程绑定的目标 " ++ toString (input.goalId.getD 0) ++ " 不存在于本组织"))
  let id ← idgen e
  modify fun s => { s with threads := s.threads ++ [{
    id, orgId, goalId := input.goalId, taskId := input.taskId,
    createdByWorkerId := input.createdByWorkerId, status := .open, createdAt := e.now }] }
  return id

/-- `HIGH_GOVERNANCE_TYPES`. -/
def MessageType.HighGovernance (messageType : MessageType) : Prop :=
  messageType = .request ∨ messageType = .report ∨ messageType = .escalation

instance (messageType : MessageType) : Decidable messageType.HighGovernance :=
  inferInstanceAs (Decidable (_ ∨ _))

def MessageType.text : MessageType → String
  | request => "request"
  | response => "response"
  | report => "report"
  | note => "note"
  | escalation => "escalation"

structure MessageInput where
  threadId : Id
  fromWorkerId : Id
  toWorkerId : Option Id
  messageType : MessageType
  content : String
  correlationId : Option String
  deriving DecidableEq, Repr

/-- `sendMessage`. -/
def sendMessage (input : MessageInput) : Service Id := do
  let s ← get
  match s.getThread orgId input.threadId with
  | none => throw (.InvalidCollaborationError ("线程 " ++ toString input.threadId ++ " 不存在"))
  | some thread =>
    require (thread.status = .open) (.InvalidCollaborationError "线程已关闭，不能再发消息")
    assertWorkerInOrg orgId input.fromWorkerId
    match input.toWorkerId with
    | none => pure ()
    | some toWorkerId => assertWorkerInOrg orgId toWorkerId
    require (trim input.content ≠ "") (.InvalidCollaborationError "消息内容不能为空")
    require (input.messageType.HighGovernance → input.correlationId.getD "" ≠ "" ∨
        thread.taskId ≠ none ∨ thread.goalId ≠ none)
      (.InvalidCollaborationError
        (input.messageType.text ++ " 类型消息必须有 correlationId 或线程绑定 task/goal（可追溯）"))
    let id ← idgen e
    modify fun s => { s with messages := s.messages ++ [{
      id, orgId, threadId := input.threadId, fromWorkerId := input.fromWorkerId,
      toWorkerId := input.toWorkerId, messageType := input.messageType,
      correlationId := input.correlationId, createdAt := e.now }] }
    return id

/-- `closeThread`. -/
def closeThread (threadId : Id) : Service Unit := do
  let s ← get
  require (s.getThread orgId threadId ≠ none)
    (.InvalidCollaborationError ("线程 " ++ toString threadId ++ " 不存在"))
  modify fun s => s.setThreadStatus orgId threadId .closed

/-! ## Escalations -/

/-- `MAX_DEPTH`. -/
def MAX_DEPTH : ℕ := 16

/-- `create`. -/
def createEscalation (taskId fromWorkerId toWorkerId : Id) (parentEscalationId : Option Id) (depth : ℕ) :
    Service Id := do
  let id ← idgen e
  modify fun s => { s with escalations := s.escalations ++ [{
    id, orgId, taskId, fromWorkerId, toWorkerId, parentEscalationId, depth, status := .pending,
    createdAt := e.now, decidedAt := none }] }
  return id

/-- `raise`. -/
def raiseEscalation (taskId fromWorkerId : Id) (reason : String) : Service Id := do
  let s ← get
  match s.getTask orgId taskId with
  | none => throw (.InvalidEscalationError ("任务 " ++ toString taskId ++ " 不存在"))
  | some task =>
    require (task.assignedToWorkerId = some fromWorkerId)
      (.InvalidEscalationError "只有任务当前执行者能发起升级")
    require (trim reason ≠ "") (.InvalidEscalationError "升级原因不能为空")
    match s.getManagerOf orgId fromWorkerId with
    | none => throw (.InvalidEscalationError "发起者没有直接上级，无法升级（顶层须自行处置）")
    | some manager => createEscalation e orgId taskId fromWorkerId manager none 0

/-- `requirePending` of escalations. -/
def requireEscalationPending (escalationId : Id) : Service OrgEscalation := do
  let s ← get
  match s.getEscalation orgId escalationId with
  | none => throw (.InvalidEscalationError ("升级 " ++ toString escalationId ++ " 不存在"))
  | some esc =>
    require (esc.status = .pending)
      (.InvalidEscalationError ("升级已是 " ++ esc.status.text ++ " 状态，不能再处置"))
    return esc

/-- A pending escalation is settled. -/
def transitionEscalation (escalationId : Id) (status : EscalationStatus) : Service Unit := do
  let hit ← changed (·.transitionEscalationIfPending orgId escalationId e.now status)
  require (hit = true) (.InvalidEscalationError "升级已被并发处置，状态不再是 pending")

/-- `resolve`. -/
def resolveEscalation (escalationId resolvingWorkerId : Id) (resolution : String) : Service Unit := do
  let esc ← requireEscalationPending orgId escalationId
  require (resolvingWorkerId = esc.toWorkerId)
    (.InvalidEscalationError "只有被升级到的上级能处置该升级")
  require (trim resolution ≠ "") (.InvalidEscalationError "处置说明不能为空")
  transitionEscalation e orgId escalationId .resolved

/-- `reescalate`. -/
def reescalate (escalationId byWorkerId : Id) (reason : String) : Service Id := do
  let esc ← requireEscalationPending orgId escalationId
  require (byWorkerId = esc.toWorkerId) (.InvalidEscalationError "只有被升级到的上级能再升级")
  require (trim reason ≠ "") (.InvalidEscalationError "再升级原因不能为空")
  require (esc.depth + 1 ≤ MAX_DEPTH) (.InvalidEscalationError "升级链已达最大层级，不能再升")
  let s ← get
  match s.getManagerOf orgId byWorkerId with
  | none => throw (.InvalidEscalationError "已到顶层（无上级），不能再升，请自行处置")
  | some nextManager => transaction do
    transitionEscalation e orgId escalationId .reescalated
    createEscalation e orgId esc.taskId byWorkerId nextManager (some esc.id) (esc.depth + 1)

/-- `cancel` of escalations. -/
def cancelEscalation (escalationId byWorkerId : Id) : Service Unit := do
  let esc ← requireEscalationPending orgId escalationId
  require (byWorkerId = esc.fromWorkerId) (.InvalidEscalationError "只有升级发起者能撤回")
  transitionEscalation e orgId escalationId .cancelled

/-! ## Collaboration memory -/

/-- An upsert on worker and counterpart: a new row starts with `count` interactions, one that is there has
`count` added. -/
def upsertCollaboration (workerId : Id) (counterpartType : CounterpartType) (counterpartId : String)
    (count : ℕ) : Service Unit := modify fun s =>
  let p : CollaborationMemory → Prop := fun m =>
    m.orgId = orgId ∧ m.workerId = workerId ∧ m.counterpartType = counterpartType ∧
      m.counterpartId = counterpartId
  have : DecidablePred p := fun _ => inferInstanceAs (Decidable (_ ∧ _ ∧ _ ∧ _))
  if ∃ m ∈ s.collaborations, p m then
    { s with
      collaborations := Table.update p
        (fun m => { m with interactionCount := m.interactionCount + count }) s.collaborations }
  else
    { s with
      collaborations := s.collaborations ++ [⟨orgId, workerId, counterpartType, counterpartId, count⟩] }

def recordCollaboration (workerId : Id) (counterpartType : CounterpartType) (counterpartId : String) :
    Service Unit :=
  upsertCollaboration orgId workerId counterpartType counterpartId 1

/-- `setNote`; the note itself is display data. -/
def setNote (workerId : Id) (counterpartType : CounterpartType) (counterpartId : String) : Service Unit :=
  upsertCollaboration orgId workerId counterpartType counterpartId 0

end ChronoSynth.Workforce
