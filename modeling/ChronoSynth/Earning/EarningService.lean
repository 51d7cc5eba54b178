import ChronoSynth.Earning.Policy
import ChronoSynth.Lease.PersonaLeaseStore
import ChronoSynth.Lib.Embed
import ChronoSynth.Persona.System

/-!
# Autonomous earning

`persona-earning-service.ts` over the marketplace of one tenant and the lease store that all instances share: a cycle
takes the persona's earning lease, counts what the persona has, and has the pipeline apply for what the policy and the
decision engine let through. All other calls of the persona services go on beside it.

* There is one clock. It moves by steps of its own (`tick`), and whoever reads the time reads it.
* `getPersonaDetail` lists the tasks that the persona's owner has published or the persona is assigned, the twelve that
  were changed last (`marketplaceTasks`); among tasks changed at the same time the database may choose.
* What the decision engine recommends and whether the pipeline lets the tool be used are oracles of the call.
* What a call logs and the events it emits are left out.
-/

namespace ChronoSynth.Earning

open Persona (Id Time Env TenantDb Tx Reply PersonaError PersonaCore MarketplaceTask getPersonaDetail)
open Lease (LeaseDb LeaseCmd LeaseReply LeaseScope)

def EARNING_LEASE_TTL_MS : ℚ := 120000

/-- Twenty-four hours. -/
def WINDOW_MS : ℕ := 86400000

/-! ## The system -/

structure EarningDb where
  now : Time
  tenant : TenantDb
  leases : LeaseDb

inductive EarningTx
  | market (t : Tx)
  | lease (cmd : LeaseCmd)
  /-- Time passes. -/
  | tick (ms : ℕ)

structure EarningReply where
  market : Reply
  lease : LeaseReply

structure EarningEnv where
  tie : ℕ
  memoryAt : Option Time
  /-- The order in which the database finds rows, before it sorts them. -/
  order : (rows : List MarketplaceTask) → { rows' : List MarketplaceTask // rows'.Perm rows }
  recommendedAlternative : MarketplaceTask → EarningAdmission → String
  /-- Whether the pipeline comes to invoke the tool. -/
  permits : Bool

inductive EarningError
  | market (e : PersonaError)
  | lease (message : String)

/-- What is left open about a step of the marketplace, at a time. -/
def EarningEnv.at (o : EarningEnv) (db : EarningDb) : Env := ⟨db.now, db.now, o.tie, o.memoryAt⟩

/-- The lease table is judged by the clock. -/
def EarningDb.leaseDb (db : EarningDb) : LeaseDb := { db.leases with clock := db.now }

/-- Each command changes its part, and its part of the reply says what. -/
def exec (o : EarningEnv) : EarningTx → EarningDb → EarningDb × EarningReply
  | .market t, db =>
    let (tenant, reply) := Persona.exec (o.at db) t db.tenant
    ({ db with tenant }, ⟨reply, ⟨0, 0, none⟩⟩)
  | .lease cmd, db =>
    let (leases, reply) := Lease.exec 0 cmd db.leaseDb
    ({ db with leases }, ⟨.committed, reply⟩)
  | .tick ms, db => ({ db with now := db.now + ms }, ⟨.committed, ⟨0, 0, none⟩⟩)

abbrev EarningProg := Prog EarningDb EarningTx EarningReply EarningEnv EarningError

def marketCall {α : Type} (p : Persona.ServiceCall α) : EarningProg α :=
  p.embed EarningDb.tenant EarningEnv.at .market EarningReply.market .market

def leaseCall {α : Type} (p : Lease.LeaseProg α) : EarningProg α :=
  p.embed EarningDb.leaseDb (fun _ _ => 0) .lease EarningReply.lease .lease

/-- The work is done under the lease, or not at all; the lease is released however the work ends. -/
def withLease {α : Type} (scope : LeaseScope) (ttlMs : ℚ) (fn : EarningProg α) : EarningProg (Option α) := do
  let now ← Prog.query EarningDb.now
  match ← leaseCall (Lease.acquire scope now ttlMs) with
  | none => return none
  | some handle =>
    let result ← fn.attempt
    let _ ← leaseCall (Lease.release handle)
    match result with
    | .ok a => return some a
    | .error e => .throw e

/-! ## Counting -/

section counting
variable (personaId : Id)

/-- Whether the task was taken in the last twenty-four hours. -/
def InWindow (now : Time) (t : MarketplaceTask) : Prop := now ≤ t.acceptedAt.getD 0 + WINDOW_MS

instance (now : Time) : DecidablePred (InWindow now) := fun _ => inferInstanceAs (Decidable (_ ≤ _))

/-- The tasks the persona has taken and not finished. -/
def openOf (tasks : List MarketplaceTask) : List MarketplaceTask :=
  tasks.filter fun t => t.assigneePersonaId = some personaId ∧ t.status = .accepted

/-- Those of them that were taken in the window. -/
def exposedOf (now : Time) (tasks : List MarketplaceTask) : List MarketplaceTask :=
  tasks.filter fun t => t.assigneePersonaId = some personaId ∧ t.status = .accepted ∧ InWindow now t

/-- The tasks the persona has taken in the window, whether finished or not. -/
def amlWindowOf (now : Time) (tasks : List MarketplaceTask) : List MarketplaceTask :=
  tasks.filter fun t =>
    t.assigneePersonaId = some personaId ∧ (t.status = .accepted ∨ t.status = .completed) ∧ InWindow now t

def rewardOf (tasks : List MarketplaceTask) : ℚ := (tasks.map (·.reward)).sum

end counting

/-- `getPersonaDetail(…)?.marketplaceTasks ?? []`. -/
def marketplaceTasks (ownerUserId personaId : Id) (o : EarningEnv) (db : EarningDb) : List MarketplaceTask :=
  match getPersonaDetail db.tenant personaId ownerUserId with
  | none => []
  | some _ =>
    let rows := db.tenant.tasks.filter fun t =>
      t.publisherUserId = ownerUserId ∨ t.assigneePersonaId = some personaId
    ((o.order rows).val.insertionSort fun a b => b.updatedAt ≤ a.updatedAt).take 12

/-- `listMarketplaceTasks(tenantId, 'open')`; a task is created when it is published. -/
def listOpenTasks (o : EarningEnv) (db : EarningDb) : List MarketplaceTask :=
  (o.order (db.tenant.tasks.filter (·.status = .open))).val.insertionSort fun a b =>
    b.updatedAt < a.updatedAt ∨ b.updatedAt = a.updatedAt ∧ b.publishedAt ≤ a.publishedAt

/-! ## The cycle -/

structure EarningCycleInput where
  tenantId : String
  personaId : Id
  ownerUserId : Id
  policy : Option EarningPolicyConfig
  maxTasksPerCycle : Option ℤ
  /-- The category of a task, a column that is never changed. -/
  categoryOf : Id → MarketplaceTaskCategory

inductive EarningCycleDecision
  | applied | skipped | needs_human_review | forbidden
  deriving DecidableEq, Repr

structure EarningCycleTaskOutcome where
  taskId : Id
  decision : EarningCycleDecision
  reasons : List EarningReason

structure EarningCycleResult where
  scanned : ℕ
  applied : ℕ
  reviewQueued : ℕ
  skipped : ℕ
  outcomes : List EarningCycleTaskOutcome

def emptyResult : EarningCycleResult := ⟨0, 0, 0, 0, []⟩

namespace EarningCycleInput

variable (i : EarningCycleInput)

def effectivePolicy : EarningPolicyConfig := i.policy.getD DEFAULT_EARNING_POLICY

/-- The tasks that the persona's detail shows. -/
def tasks : EarningProg (List MarketplaceTask) := Prog.queryAny (marketplaceTasks i.ownerUserId i.personaId)

def openTaskCount : EarningProg ℕ := do return (openOf i.personaId (← i.tasks)).length

/-- The failures since the last good result, the last changed task first. -/
def failureStreak : List MarketplaceTask → ℕ
  | [] => 0
  | t :: rest =>
    if t.status = .cancelled ∨ (t.status = .completed ∧ t.qualityScore.getD 1 < 4 / 10) then failureStreak rest + 1
    else if t.status = .completed then 0
    else failureStreak rest

def recentFailureStreak : EarningProg ℕ := do
  let tasks ← i.tasks
  return failureStreak ((tasks.filter (·.assigneePersonaId = some i.personaId)).insertionSort
    fun a b => b.updatedAt ≤ a.updatedAt)

def buildPersonaSnapshot (persona : PersonaCore) : EarningProg EarningPersonaSnapshot := do
  let openTaskCount ← i.openTaskCount
  let recentFailureStreak ← i.recentFailureStreak
  return ⟨persona.status, persona.reputation, openTaskCount, 0, recentFailureStreak⟩

def computeTodayExposure : EarningProg ℚ := do
  let now ← Prog.query EarningDb.now
  return rewardOf (exposedOf i.personaId now (← i.tasks))

def computeAmlWindowTasks : EarningProg (List MarketplaceTask) := do
  let now ← Prog.query EarningDb.now
  return amlWindowOf i.personaId now (← i.tasks)

def categoryCompleted (category : MarketplaceTaskCategory) : EarningProg ℕ := do
  return ((← i.tasks).filter fun t =>
    i.categoryOf t.id = category ∧ t.status = .completed ∧ t.assigneePersonaId = some i.personaId).length

def publisherIsNew (publisherUserId : Id) : EarningProg Bool := do
  return ¬ ((← i.tasks).any fun t => t.publisherUserId = publisherUserId ∧ t.assigneePersonaId = some i.personaId)

def amlBlockReason (task : MarketplaceTask) : EarningProg (Option EarningReason) := do
  let tasks := (← i.tasks).filter (·.publisherUserId = task.publisherUserId)
  let cancelled := (tasks.filter (·.status = .cancelled)).length
  return if tasks.length ≥ 3 ∧ (cancelled : ℚ) / tasks.length > 1 / 2 then
    some (.cancelRate task.publisherUserId cancelled tasks.length) else none

inductive AcceptDecision
  | accept | skip | needs_human_review
  deriving DecidableEq, Repr

def decideAccept (task : MarketplaceTask) (admission : EarningAdmission) : EarningProg AcceptDecision := do
  let top ← Prog.queryAny fun (o : EarningEnv) _ => o.recommendedAlternative task admission
  return if top = "请人工复核" then .needs_human_review else if top = "接受任务" then .accept else .skip

/-- Whether the tool was invoked and has applied: what it throws is a result of the pipeline. -/
def applyViaPipeline (task : MarketplaceTask) : EarningProg Bool := do
  let permitted ← Prog.queryAny fun (o : EarningEnv) _ => o.permits
  if permitted then
    match ← (marketCall (Persona.applyToTask ⟨i.ownerUserId, task.id, i.personaId⟩)).attempt with
    | .ok (some _) => return true
    | .ok none | .error _ => return false
  else return false

/-- What a cycle has come to. -/
structure Progress where
  todayExposure : ℚ
  windowAmlTasks : List MarketplaceTask
  outcomes : List EarningCycleTaskOutcome
  applied : ℕ
  reviewQueued : ℕ
  skipped : ℕ

namespace Progress

variable (p : Progress) (task : MarketplaceTask)

def skip (decision : EarningCycleDecision) (reasons : List EarningReason) : Progress :=
  { p with outcomes := p.outcomes ++ [⟨task.id, decision, reasons⟩], skipped := p.skipped + 1 }

def review (reasons : List EarningReason) : Progress :=
  { p with outcomes := p.outcomes ++ [⟨task.id, .needs_human_review, reasons⟩], reviewQueued := p.reviewQueued + 1 }

/-- The exposure and the window count the task as taken; the open tasks are not counted again. -/
def apply (personaId : Id) (now : Time) : Progress :=
  { p with
    todayExposure := p.todayExposure + task.reward
    windowAmlTasks := p.windowAmlTasks ++
      [{ task with status := .accepted, assigneePersonaId := some personaId, acceptedAt := some now }]
    outcomes := p.outcomes ++ [⟨task.id, .applied, [.appliedByPipeline]⟩]
    applied := p.applied + 1 }

end Progress

/-- One task of the cycle. -/
def considerTask (snapshot : EarningPersonaSnapshot) (task : MarketplaceTask) (p : Progress) :
    EarningProg Progress := do
  if task.publisherUserId = i.ownerUserId then return p.skip task .skipped [.selfPublished]
  else match ← i.amlBlockReason task with
  | some reason => return p.skip task .forbidden [reason]
  | none =>
    let amlAgg := evaluateAmlAggregate
      ⟨task.publisherUserId, task.reward, p.windowAmlTasks, i.effectivePolicy.aml⟩
    if amlAgg.blocked then return p.skip task .forbidden amlAgg.reasons
    else
      let categoryCompletedCount ← i.categoryCompleted (i.categoryOf task.id)
      let publisherIsNew ← i.publisherIsNew task.publisherUserId
      let admission := evaluateEarningAdmission
        { task, category := i.categoryOf task.id, persona := { snapshot with categoryCompletedCount }
          config := i.effectivePolicy, todayRewardExposure := p.todayExposure, publisherIsNew }
      if admission.admission = .forbidden then return p.skip task .forbidden admission.reasons
      else
        let decision ← decideAccept task admission.admission
        if admission.admission = .needs_human_review ∨ decision = .needs_human_review then
          return p.review task admission.reasons
        else if decision = .skip then return p.skip task .skipped [.engineSkips]
        else if ← i.applyViaPipeline task then
          let now ← Prog.query EarningDb.now
          return p.apply task i.personaId now
        else return p.skip task .skipped [.pipelineDenied]

def considerTasks (snapshot : EarningPersonaSnapshot) : List MarketplaceTask → Progress → EarningProg Progress
  | [], p => return p
  | task :: rest, p => do considerTasks snapshot rest (← i.considerTask snapshot task p)

def runCycleBody (persona : PersonaCore) : EarningProg EarningCycleResult := do
  let maxTasks := max 1 (i.maxTasksPerCycle.getD 3)
  let openTasks ← Prog.queryAny listOpenTasks
  let snapshot ← i.buildPersonaSnapshot persona
  let todayExposure ← i.computeTodayExposure
  let windowAmlTasks ← i.computeAmlWindowTasks
  let p ← i.considerTasks snapshot (openTasks.take maxTasks.toNat) ⟨todayExposure, windowAmlTasks, [], 0, 0, 0⟩
  return ⟨openTasks.length, p.applied, p.reviewQueued, p.skipped, p.outcomes⟩

end EarningCycleInput

def runEarningCycle (i : EarningCycleInput) : EarningProg EarningCycleResult := do
  match ← Prog.query fun db => getPersonaDetail db.tenant i.personaId i.ownerUserId with
  | none => return emptyResult
  | some detail =>
    if detail.persona.status ≠ .active then return emptyResult
    else
      match ← withLease ⟨i.tenantId, toString i.personaId, .earning⟩ EARNING_LEASE_TTL_MS
        (i.runCycleBody detail.persona) with
      | none => return emptyResult
      | some result => return result

/-! ## All calls -/

/-- What is fixed of the cycles of one persona. -/
structure EarningPersona where
  tenantId : String
  personaId : Id
  policy : Option EarningPolicyConfig
  categoryOf : Id → MarketplaceTaskCategory

/-- A cycle of the persona, a call of the persona services by anyone, or the clock. -/
inductive EarningCall
  | cycle (ownerUserId : Id) (maxTasksPerCycle : Option ℤ)
  | market (call : Persona.Call)
  | wait (ms : ℕ)

inductive EarningAnswer
  | cycle (r : EarningCycleResult)
  | market (a : Persona.Answer)
  | waited

variable (P : EarningPersona)

def EarningPersona.input (ownerUserId : Id) (maxTasksPerCycle : Option ℤ) : EarningCycleInput :=
  { P with ownerUserId, maxTasksPerCycle }

def start : EarningCall → EarningProg EarningAnswer
  | .cycle ownerUserId maxTasksPerCycle => do return .cycle (← runEarningCycle (P.input ownerUserId maxTasksPerCycle))
  | .market call => do return .market (← marketCall (Persona.start call))
  | .wait ms => do
    let _ ← Prog.transaction (.tick ms)
    return .waited

abbrev EarningPool := Pool EarningCall EarningDb EarningTx EarningReply EarningEnv EarningError EarningAnswer

abbrev EarningMove := Move EarningCall EarningEnv

def EarningPool.step : EarningPool → EarningMove → EarningPool := Pool.step (start P) exec

end ChronoSynth.Earning
