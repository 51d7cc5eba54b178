import ChronoSynth.Workforce.ApprovalService

/-!
# Executing a task

`WorkerExecutionService.execute`: a delegated task of a worker passes the gate of capabilities, the compiler
of arguments, the gate of risk and approval, takes the task, calls the tool pipeline, waits for its answer,
and writes the outcome to the task.
-/

namespace ChronoSynth.Workforce

inductive ExecuteTaskResult
  | executed (invocationId : String)
  | needs_approval (effectiveRisk : RiskLevel) (reason : String)
  | needs_pipeline_confirmation (confirmationTokenId reason : String)
  | learning_required (gaps : List RegisterGapOutcome) (reason : String)
  | delegated_to_colleague (toWorkerId : Id) (gaps : List RegisterGapOutcome) (reason : String)
  | degraded (note : String) (gaps : List RegisterGapOutcome)
  | param_compile_failed (code reason : String)
  | failed (status reason : String)
  deriving DecidableEq, Repr

variable (ports : Ports) (input : ExecuteTaskInput)

/-- `requireExecutableTask`. -/
def requireExecutableTask : WorkforceCall OrgTask := do
  match ← Prog.query (·.getTask input.orgId input.taskId) with
  | none => .throw (.WorkerExecutionError ("任务 " ++ toString input.taskId ++ " 不存在"))
  | some task =>
    checking (task.assignedToWorkerId = some input.workerId)
      (.WorkerExecutionError "执行者必须是任务当前指派的数字员工")
    checking (task.status = .delegated)
      (.WorkerExecutionError ("任务须是 delegated 才能发起执行（当前 " ++ task.status.text ++ "）"))
    checking (task.allowsToolExecution = true)
      (.WorkerExecutionError "该任务 A0 契约未允许工具执行（allowsToolExecution=false）")
    let worker ← Prog.query (·.getWorker input.orgId input.workerId)
    checking (∃ w ∈ worker, w.employmentStatus = .active)
      (.WorkerExecutionError "执行者须是组织内 active 数字员工")
    return task

/-- `personaIdOfWorker`. -/
def personaIdOfWorker : WorkforceCall PersonaId :=
  Prog.query fun s => ((s.getWorker input.orgId input.workerId).map (·.personaId)).getD ""

/-! ## The gate of capabilities -/

inductive DispositionOutcome
  | delegated (toWorkerId : Id)
  | degraded (note : String)
  | suspend
  deriving DecidableEq, Repr

/-- `dispose`. -/
def dispose (allowDegrade : Bool) (task : OrgTask) (missingCapabilities : List String) :
    WorkforceCall DispositionOutcome := do
  match ← findCapableColleague ports input.orgId task.requiredCapabilities input.workerId with
  | some colleague =>
    let hit ← hits (.reassignDelegatedTaskIfHeldBy input.orgId task.id input.workerId colleague.id)
    return if hit then .delegated colleague.id else .suspend
  | none =>
    if allowDegrade then
      let caps := ", ".intercalate missingCapabilities
      let note := "[降级] 缺能力：" ++ caps ++ "——已完成可做部分，" ++ caps ++
        " 相关部分待进修后补齐（未假装完成；已登记学习）"
      let hit ← hits
        (.transitionTaskExecutionIfStatus input.orgId task.id .delegated .submitted (some note) none none)
      return if hit then .degraded note else .suspend
    else return .suspend

/-- The task is blocked until the capabilities have been learned. -/
def suspendTask (outcomes : List RegisterGapOutcome) : WorkforceCall ExecuteTaskResult := do
  let caps := ", ".intercalate (outcomes.map (·.capability))
  let hit ← hits (.transitionTaskExecutionIfStatus input.orgId input.taskId .delegated .blocked
    (some ("能力缺口待进修：" ++ caps)) (some input.workerId) (some .capability_gap))
  checking (hit = true) (.WorkerExecutionError
    ("任务 " ++ toString input.taskId ++ " 非 delegated 或已被并发改动/改派，挂起失败（学习请求已登记，请重试）"))
  return .learning_required outcomes ("缺能力：" ++ caps ++ "（已登记学习请求，待进修后重跑）")

/-- A gap ends the execution: the task goes to a colleague, is degraded, or is blocked. -/
def disposeOfGaps (task : OrgTask) (outcomes : List RegisterGapOutcome) :
    WorkforceCall ExecuteTaskResult := do
  match ports.disposition with
  | none => suspendTask input outcomes
  | some allowDegrade =>
    match ← dispose ports input allowDegrade task (outcomes.map (·.capability)) with
    | .delegated toWorkerId =>
      return .delegated_to_colleague toWorkerId outcomes
        ("缺能力：" ++ ", ".intercalate (outcomes.map (·.capability)) ++ "——已委派给有能力的同事 " ++
          toString toWorkerId ++ "（学习请求已登记）")
    | .degraded note => return .degraded note outcomes
    | .suspend => suspendTask input outcomes

/-- The gaps that stand in the way. -/
def capabilityGate (task : OrgTask) : WorkforceCall (List RegisterGapOutcome) := do
  if ports.learning = false ∨ task.requiredCapabilities = [] then return []
  else
    let personaId ← personaIdOfWorker input
    detectAndRegister ports input.orgId personaId task.requiredCapabilities input.taskId

/-! ## Arguments and risk -/

/-- `taskFields`. -/
def taskFields (task : OrgTask) : TaskFields where
  taskId := task.id
  title := task.title
  taskType := task.taskType
  acceptanceCriteria := task.acceptanceCriteria
  riskLevel := task.riskLevel
  goalId := task.goalId

/-- The first rule that applies compiles the arguments, or refuses to; where there is none, the caller's
are used. -/
def compileWith (compiler : ToolCompiler) (personaId : PersonaId) (task : OrgTask) :
    List String → ToolCompileResult
  | [] => .ok input.arguments
  | capability :: capabilities =>
    match compiler.compile personaId input.toolId capability (taskFields task) with
    | .ok arguments => .ok arguments
    | .refused code reason =>
      if code = "no_rule" then compileWith compiler personaId task capabilities else .refused code reason

/-- `compileArguments`. -/
def compileArguments (personaId : PersonaId) (task : OrgTask) : ToolCompileResult :=
  match ports.compiler with
  | none => .ok input.arguments
  | some compiler =>
    if task.requiredCapabilities = [] ∨ compiler.registered input.toolId = false then
      .ok input.arguments
    else compileWith input compiler personaId task task.requiredCapabilities

def executionRisk (taskRisk : RiskLevel) (arguments : Args) : RiskAssessment :=
  assessExecutionRisk taskRisk (match ports.riskDeriver with
    | some derive => derive input.toolId arguments input.riskSignals
    | none => input.riskSignals.getD .none)

def approvalCheck (approvalId : Id) (effectiveRisk : RiskLevel) : ExecutionApprovalCheck where
  orgId := input.orgId
  approvalId := approvalId
  subjectType := .task_execution
  subjectId := input.taskId
  requesterWorkerId := input.workerId
  effectiveRisk := effectiveRisk

/-- The gate of approval; `none` lets the execution pass. -/
def approvalGate (assessment : RiskAssessment) : WorkforceCall (Option ExecuteTaskResult) := do
  if assessment.effectiveRisk = .low then return none
  else match input.approvalId with
  | none => return some (.needs_approval assessment.effectiveRisk assessment.rationale)
  | some approvalId =>
    let cleared ←
      consumeExecutionApproval (approvalCheck input approvalId assessment.effectiveRisk) none
    return if cleared then none else some (.needs_approval assessment.effectiveRisk
      "审批未放行/已过期/已被使用/与本次执行不匹配（任务/发起者/风险等级/参数）")

/-! ## The call of the pipeline -/

/-- `resolveWorkerExecutionActor`, with the request it makes. -/
def toolRequest (personaId : PersonaId) (arguments : Args) : Option ToolInvokeRequest :=
  if trim input.principalUserId = "" then none
  else some {
    personaId, toolId := input.toolId, invokerId := "worker:" ++ toString input.workerId,
    invokerUserId := trim input.principalUserId, arguments,
    confirmationToken := input.confirmationToken }

/-- What the answer of the pipeline makes of the task: its status, the summary, the reason of a block. -/
def outcomeOf (decision : Except String ToolInvokeDecision) :
    TaskStatus × String × Option TaskBlockedReason :=
  match decision with
  | .error reason => (.blocked, "执行异常：" ++ reason, some .execution_failure)
  | .ok (.ok invocationId) =>
    (.submitted, "已执行工具 " ++ input.toolId ++ "（invocation " ++ invocationId ++ "）", none)
  | .ok (.refused .pending_confirmation _ _) =>
    (.delegated, "待管线二次确认（需人类显式提供 confirmation token 后重试）", none)
  | .ok (.refused status reason _) =>
    (.blocked, "执行被拦截/失败：" ++ status.text ++ "（" ++ reason ++ "）", some .execution_failure)

/-- What the answer of the pipeline makes of the call. -/
def resultOf (decision : Except String ToolInvokeDecision) : ExecuteTaskResult :=
  match decision with
  | .error reason => .failed "failed" reason
  | .ok (.ok invocationId) => .executed invocationId
  | .ok (.refused .pending_confirmation reason token) =>
    .needs_pipeline_confirmation (token.getD "") reason
  | .ok (.refused status reason _) => .failed status.text reason

def Answer.decision? : Answer → Except String ToolInvokeDecision
  | .decision d => d
  | _ => .error ""

/-- The task is taken, the pipeline called, and the outcome written. -/
def runTool (request : ToolInvokeRequest) : WorkforceCall ExecuteTaskResult := do
  let hit ← hits (.transitionTaskExecutionIfStatus input.orgId input.taskId .delegated .in_progress none
    (some input.workerId) none)
  checking (hit = true) (.WorkerExecutionError
    ("任务 " ++ toString input.taskId ++ " 非 delegated 或已被并发执行/改派，无法发起执行"))
  let _ ← send (.invoke input request)
  let decision := (← send (.answered input)).decision?
  let (status, resultSummary, blockedReason) := outcomeOf input decision
  let _ ← send (.updateTaskExecution input.orgId input.taskId status (some resultSummary) blockedReason)
  return resultOf decision

/-- The gates of risk and approval, the actor, and the run. -/
def passGates (task : OrgTask) (personaId : PersonaId) (arguments : Args) :
    WorkforceCall ExecuteTaskResult := do
  match ← approvalGate input (executionRisk ports input task.riskLevel arguments) with
  | some refusal => return refusal
  | none =>
    match toolRequest input personaId arguments with
    | none => .throw (.MissingHumanPrincipalError ("数字员工 " ++ toString input.workerId ++
        " 的真实执行缺少人类法律 principal——org_worker 不得以无 principal 执行"))
    | some request => runTool input request

/-- `execute`. -/
def execute : WorkforceCall ExecuteTaskResult := do
  let task ← requireExecutableTask input
  let outcomes ← capabilityGate ports input task
  if outcomes ≠ [] then disposeOfGaps ports input task outcomes
  else
    let personaId ← personaIdOfWorker input
    match compileArguments ports input personaId task with
    | .refused code reason => return .param_compile_failed code reason
    | .ok arguments => passGates ports input task personaId arguments

end ChronoSynth.Workforce
