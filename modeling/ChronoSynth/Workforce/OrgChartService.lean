import ChronoSynth.Workforce.OrgWorkforceStore

/-!
# The organisation chart service

`OrgChartService`: an organisation is set up from a list of specifications, or hires one more worker.
The methods do not open a transaction of their own.
-/

namespace ChronoSynth.Workforce

open Service

/-- A position with the worker who holds it; without a `managerRoleCode` it is the root. -/
structure WorkerSpec where
  roleCode : String
  personaId : PersonaId
  managerRoleCode : Option String
  edgeType : Option ReportingEdgeType
  deriving DecidableEq, Repr

namespace WorkerSpec

/-- `managerOf.get(cur) ?? null`. -/
def managerOf (specs : List WorkerSpec) (roleCode : String) : Option String :=
  (specs.find? fun spec => spec.roleCode = roleCode).bind (·.managerRoleCode)

/-- A role code that comes a second time on the way up by `managerOf`. A way through more role codes than
there are specifications has come to one of them twice. -/
def cycleAt (specs : List WorkerSpec) : ℕ → Option String → List String → Option String
  | _, none, _ => none
  | 0, some cur, _ => some cur
  | n + 1, some cur, seen =>
    if cur ∈ seen then some cur else cycleAt specs n (managerOf specs cur) (cur :: seen)

def strayManager (specs : List WorkerSpec) : Option String :=
  specs.findSome? fun spec => spec.managerRoleCode.filter fun m => m ∉ specs.map (·.roleCode)

end WorkerSpec

/-- `validateStructure`: the role codes are different, every manager is one of them, there is one root, and
there is no cycle. -/
def validateStructure (specs : List WorkerSpec) : Except WorkforceError Unit :=
  let rootCount := specs.countP fun spec => spec.managerRoleCode = none
  if ¬ (specs.map (·.roleCode)).Nodup then
    .error (.InvalidOrgChartError "roleCode 必须唯一")
  else match WorkerSpec.strayManager specs with
  | some m => .error (.InvalidOrgChartError ("上级岗位不存在：" ++ m))
  | none =>
    if rootCount = 0 then
      .error (.InvalidOrgChartError "组织图必须有一个根（无上级的顶层岗位）")
    else if 1 < rootCount then
      .error (.InvalidOrgChartError "组织图只能有一个根")
    else
      match specs.findSome? fun spec =>
          WorkerSpec.cycleAt specs (specs.length + 1) (some spec.roleCode) [] with
      | some cur => .error (.InvalidOrgChartError ("组织图成环，涉及岗位：" ++ cur))
      | none => .ok ()

variable (e : Env) (orgId : OrgId)

/-- The position and the worker of a specification. -/
def hirePosition (roleCode : String) (personaId : PersonaId) (ts : Time) : Service Id := do
  let positionId ← idgen e
  let workerId ← idgen e
  insertPosition { id := positionId, orgId, roleCode, createdAt := ts }
  insertWorker {
    id := workerId, orgId, personaId, positionId, employmentStatus := .active, createdAt := ts,
    updatedAt := ts }
  return workerId

/-- The positions and the workers of all specifications, with the worker of each role code. -/
def bootstrapWorkers (ts : Time) : List WorkerSpec → Service (List (String × Id))
  | [] => return []
  | spec :: specs => do
    let workerId ← hirePosition e orgId spec.roleCode spec.personaId ts
    let rest ← bootstrapWorkers ts specs
    return (spec.roleCode, workerId) :: rest

def bootstrapEdge (ts : Time) (workerIdByRole : List (String × Id)) (spec : WorkerSpec) :
    Service Unit := do
  let edgeId ← idgen e
  insertEdge {
    id := edgeId, orgId, managerWorkerId := spec.managerRoleCode.bind (workerIdByRole.lookup ·),
    reportWorkerId := (workerIdByRole.lookup spec.roleCode).getD 0,
    edgeType := spec.edgeType.getD .solid, createdAt := ts }

/-- `bootstrap`. -/
def bootstrap (specs : List WorkerSpec) : Service Unit := do
  require (specs ≠ []) (.InvalidOrgChartError "组织至少需要一个数字员工")
  match validateStructure specs with
  | .error err => throw err
  | .ok () =>
    let workerIdByRole ← bootstrapWorkers e orgId e.now specs
    specs.forM (bootstrapEdge e orgId e.now workerIdByRole)

structure HireSpec where
  roleCode : String
  personaId : PersonaId
  managerWorkerId : Id
  edgeType : Option ReportingEdgeType
  deriving DecidableEq, Repr

/-- `hireWorker`. -/
def hireWorker (spec : HireSpec) : Service Id := do
  let s ← get
  require (s.listWorkers orgId ≠ []) (.InvalidOrgChartError ("组织 " ++ orgId ++ " 不存在（先建组织再招人）"))
  require (s.getWorker orgId spec.managerWorkerId ≠ none)
    (.InvalidOrgChartError ("上级数字员工不存在：" ++ toString spec.managerWorkerId))
  require (∀ p ∈ s.listPositions orgId, p.roleCode ≠ spec.roleCode)
    (.InvalidOrgChartError ("roleCode 已存在：" ++ spec.roleCode))
  let workerId ← hirePosition e orgId spec.roleCode spec.personaId e.now
  let edgeId ← idgen e
  insertEdge {
    id := edgeId, orgId, managerWorkerId := some spec.managerWorkerId, reportWorkerId := workerId,
    edgeType := spec.edgeType.getD .solid, createdAt := e.now }
  return workerId

/-- `assertCanDelegate`. -/
def assertCanDelegate (s : Store) (fromWorkerId toWorkerId : Id) : Except WorkforceError Unit :=
  if fromWorkerId = toWorkerId then .error (.InvalidOrgChartError "不能自委派")
  else if toWorkerId ∉ s.listDirectReports orgId fromWorkerId then
    .error (.InvalidOrgChartError
      ("委派非法：" ++ toString toWorkerId ++ " 不是 " ++ toString fromWorkerId ++ " 的直接下属"))
  else .ok ()

end ChronoSynth.Workforce
