import ChronoSynth.Lib.Search
import ChronoSynth.Workforce.OrgWorkforceStore

/-!
# The restructuring service

`OrgRestructureService`: a worker is given another manager, is taken out of service, or a whole
organisation is absorbed by another one.
-/

namespace ChronoSynth.Workforce

open Service

/-- `IN_HAND_STATUSES`. -/
def TaskStatus.InHand (status : TaskStatus) : Prop :=
  status = .delegated ∨ status = .in_progress ∨ status = .submitted

instance (status : TaskStatus) : Decidable status.InHand := inferInstanceAs (Decidable (_ ∨ _))

namespace Store

variable (s : Store) (orgId : OrgId)

/-- `isInSubtree`: a breadth-first search along edges of every type, at most as long as the organisation
has workers, and one more. -/
def isInSubtree (rootWorkerId candidateWorkerId : Id) : Bool :=
  rootWorkerId = candidateWorkerId ∨
    search (s.listDirectReports orgId) candidateWorkerId ((s.listWorkers orgId).length + 1)
      [rootWorkerId] [rootWorkerId]

/-- `findRoot`: the first worker without a manager, as `getManagerOf` sees managers. -/
def findRoot : Option Id :=
  ((s.listWorkers orgId).find? fun w => s.getManagerOf orgId w.id = none).map (·.id)

end Store

variable (e : Env)

/-- `reparent`. -/
def reparent (orgId : OrgId) (workerId newManagerWorkerId : Id) : Service Unit := do
  require (workerId ≠ newManagerWorkerId) (.InvalidOrgChartError "不能把自己挂到自己下")
  let s ← get
  require (s.getWorker orgId workerId ≠ none)
    (.InvalidOrgChartError ("worker 不存在：" ++ toString workerId))
  match s.getWorker orgId newManagerWorkerId with
  | none => throw (.InvalidOrgChartError ("新上级不存在：" ++ toString newManagerWorkerId))
  | some mgr =>
    require (mgr.employmentStatus = .active)
      (.InvalidOrgChartError ("新上级非 active：" ++ toString newManagerWorkerId))
    require (s.isInSubtree orgId workerId newManagerWorkerId = false)
      (.InvalidOrgChartError ("reparent 会成环：" ++ toString newManagerWorkerId ++ " 在 " ++
        toString workerId ++ " 的子树内"))
    let hit ← changed (·.reparentWorker orgId workerId (some newManagerWorkerId) e.now)
    require (hit = true)
      (.InvalidOrgChartError ("worker " ++ toString workerId ++
        " 无汇报边（根 worker 不可 reparent，或数据异常）"))

structure OffboardInput where
  orgId : OrgId
  workerId : Id
  reparentReportsTo : Option Id
  reassignTasksTo : Option Id
  deriving DecidableEq, Repr

/-- The direct reports are given another manager. -/
def settleReports (input : OffboardInput) (reports : List Id) : Service Unit := do
  if reports = [] then return
  match input.reparentReportsTo with
  | none =>
    throw (.InvalidOrgChartError ("worker " ++ toString input.workerId ++ " 有 " ++
      toString reports.length ++ " 名直接下属，须指定 reparentReportsTo 安置"))
  | some newManager =>
    let s ← get
    require (∃ w ∈ s.getWorker input.orgId newManager, w.employmentStatus = .active)
      (.InvalidOrgChartError ("reparentReportsTo 无效或非 active：" ++ toString newManager))
    reports.forM fun reportId => reparent e input.orgId reportId newManager

/-- The tasks in hand are given another assignee. -/
def settleTasks (input : OffboardInput) (inHand : List OrgTask) : Service Unit := do
  if inHand = [] then return
  match input.reassignTasksTo with
  | none =>
    throw (.InvalidOrgChartError ("worker " ++ toString input.workerId ++ " 有 " ++
      toString inHand.length ++ " 个在手任务，须指定 reassignTasksTo 重分配"))
  | some newAssignee =>
    let s ← get
    require (∃ w ∈ s.getWorker input.orgId newAssignee, w.employmentStatus = .active)
      (.InvalidOrgChartError ("reassignTasksTo 无效或非 active：" ++ toString newAssignee))
    inHand.forM fun t => do
      let hit ← changed (·.reassignTaskIfHeldBy input.orgId t.id e.now input.workerId newAssignee)
      require (hit = true)
        (.InvalidOrgChartError ("任务 " ++ toString t.id ++ " 重分配失败（已被并发改走），请重试"))

/-- `offboard`. -/
def offboard (input : OffboardInput) : Service Unit := do
  let s ← get
  require (s.getWorker input.orgId input.workerId ≠ none)
    (.InvalidOrgChartError ("worker 不存在：" ++ toString input.workerId))
  require (s.getManagerOf input.orgId input.workerId ≠ none)
    (.InvalidOrgChartError "不能裁撤根 worker（组织会无根）；如要换帅请先 reparent 接班人为根")
  transaction do
    let s ← get
    settleReports e input (s.listDirectReports input.orgId input.workerId)
    let s ← get
    settleTasks e input
      ((s.listTasksByAssignee input.orgId input.workerId).filter fun t => t.status.InHand)
    let hit ← changed (·.setWorkerEmploymentStatus input.orgId input.workerId .offboarded e.now)
    require (hit = true) (.InvalidOrgChartError ("offboard 失败：" ++ toString input.workerId))

structure AbsorbInput where
  targetOrgId : OrgId
  sourceOrgId : OrgId
  mountUnderWorkerId : Id
  deriving DecidableEq, Repr

structure AbsorbResult where
  movedWorkers : ℕ
  renamedRoles : List (String × String)
  sourceRootWorkerId : Id
  deriving DecidableEq, Repr

/-- What a role code that both organisations have is changed to. -/
def renamedRole (sourceOrgId roleCode : String) : String := roleCode ++ "__from_" ++ sourceOrgId

/-- The role codes of the source that the target has are changed. -/
def renameRoles (input : AbsorbInput) (targetRoles : List String) :
    List OrgPosition → Service (List (String × String))
  | [] => return []
  | pos :: rest => do
    if pos.roleCode ∈ targetRoles then
      let newRole := renamedRole input.sourceOrgId pos.roleCode
      renamePositionRoleCode input.sourceOrgId pos.roleCode newRole
      return (pos.roleCode, newRole) :: (← renameRoles input targetRoles rest)
    else renameRoles input targetRoles rest

/-- The transaction of `absorb`. -/
def absorbInTx (input : AbsorbInput) (sourceRoot : Id) : Service AbsorbResult := do
  let s ← get
  let renamedRoles ← renameRoles input ((s.listPositions input.targetOrgId).map (·.roleCode))
    (s.listPositions input.sourceOrgId)
  let movedWorkers ← migrateOrgStructure input.sourceOrgId input.targetOrgId
  let _ ← changed
    (·.reparentWorker input.targetOrgId sourceRoot (some input.mountUnderWorkerId) e.now)
  return ⟨movedWorkers, renamedRoles, sourceRoot⟩

/-- `absorb`. -/
def absorb (input : AbsorbInput) : Service AbsorbResult := do
  require (input.targetOrgId ≠ input.sourceOrgId) (.InvalidOrgChartError "不能吸收自己")
  let s ← get
  require (s.listWorkers input.targetOrgId ≠ [])
    (.InvalidOrgChartError ("目标组织不存在：" ++ input.targetOrgId))
  require (s.listWorkers input.sourceOrgId ≠ [])
    (.InvalidOrgChartError ("源组织不存在：" ++ input.sourceOrgId))
  match s.getWorker input.targetOrgId input.mountUnderWorkerId with
  | none =>
    throw (.InvalidOrgChartError ("挂载点 worker 不在目标组织：" ++ toString input.mountUnderWorkerId))
  | some mount =>
    require (mount.employmentStatus = .active)
      (.InvalidOrgChartError ("挂载点非 active：" ++ toString input.mountUnderWorkerId))
    match s.findRoot input.sourceOrgId with
    | none => throw (.InvalidOrgChartError ("源组织无根（结构异常）：" ++ input.sourceOrgId))
    | some sourceRoot => transaction (absorbInTx e input sourceRoot)

end ChronoSynth.Workforce
