import ChronoSynth.Lib.Traces
import ChronoSynth.Workforce.System

/-!
# Which commands a call hands over

Whatever a call reads, its commands are of a few kinds (`Call.May`, `Call.start_uses`).
-/

namespace ChronoSynth.Workforce

open Prog

variable {S : Cmd → Prop} {ports : Ports} {input : ExecuteTaskInput}

theorem uses_send {cmd : Cmd} (h : S cmd) : (send cmd).Uses S :=
  .bind (.transaction h) fun r => by cases r <;> trivial

theorem uses_hits {cmd : Cmd} (h : S cmd) : (hits cmd).Uses S := .bind (uses_send h) fun _ => trivial

theorem uses_checking {c : Prop} [Decidable c] {err : WorkforceError} : (checking c err).Uses S := by
  unfold checking
  split <;> trivial

theorem yields_checking {c : Prop} [Decidable c] {err : WorkforceError} :
    (checking c err).Yields fun _ => c := by
  unfold checking
  split
  next h => exact h
  next => trivial

theorem uses_ite {α : Type} {c : Prop} [Decidable c] {p q : WorkforceCall α} (hp : p.Uses S) (hq : q.Uses S) :
    (if c then p else q).Uses S := by
  split
  · exact hp
  · exact hq

/-- The commands of an execution. -/
def ExecuteTaskInput.May (input : ExecuteTaskInput) : Cmd → Prop
  | .insertLearningRequest .. => True
  | .transitionTaskExecutionIfStatus orgId taskId expectedStatus nextStatus .. =>
    orgId = input.orgId ∧ taskId = input.taskId ∧ expectedStatus = .delegated ∧
      (nextStatus = .submitted ∨ nextStatus = .blocked ∨ nextStatus = .in_progress)
  | .updateTaskExecution orgId taskId status .. =>
    orgId = input.orgId ∧ taskId = input.taskId ∧
      (status = .submitted ∨ status = .blocked ∨ status = .delegated)
  | .reassignDelegatedTaskIfHeldBy orgId taskId expectedCurrentWorkerId _ =>
    orgId = input.orgId ∧ taskId = input.taskId ∧ expectedCurrentWorkerId = input.workerId
  | .expireStaleApprovals orgId => orgId = input.orgId
  | .consumeApprovalIfUnused orgId approvalId => orgId = input.orgId ∧ input.approvalId = some approvalId
  | .invoke input' _ => input' = input
  | .answered input' => input' = input
  | _ => False

theorem firstCapable_uses {need : List String} {excludeWorkerId : Id} {workers : List DigitalWorker} :
    (firstCapable ports need excludeWorkerId workers).Uses S := by
  induction workers with
  | nil => trivial
  | cons worker workers ih =>
    refine uses_ite ih (.bind .queryAny fun learned => uses_ite trivial ih)

section execute
variable (hS : ∀ cmd, input.May cmd → S cmd)
include hS

theorem registerGaps_uses {orgId : OrgId} {personaId : PersonaId} {taskId : Id} {gaps : List String} :
    (registerGaps orgId personaId taskId gaps).Uses S := by
  induction gaps with
  | nil => trivial
  | cons capability gaps ih =>
    refine .bind ?_ fun _ => .bind ih fun _ => trivial
    refine .bind .query fun active => ?_
    cases active with
    | some _ => trivial
    | none =>
      refine .bind (.transaction (hS _ trivial)) fun r => ?_
      cases r with
      | ok _ => trivial
      | error _ => exact .bind .query fun active => by cases active <;> trivial

theorem suspendTask_uses {outcomes : List RegisterGapOutcome} : (suspendTask input outcomes).Uses S :=
  .bind (uses_hits (hS _ ⟨rfl, rfl, rfl, .inr (.inl rfl)⟩)) fun _ => .bind uses_checking fun _ => trivial

theorem disposeOfGaps_uses {task : OrgTask} (htask : task.id = input.taskId)
    {outcomes : List RegisterGapOutcome} : (disposeOfGaps ports input task outcomes).Uses S := by
  unfold disposeOfGaps
  split
  · exact suspendTask_uses hS
  · refine .bind ?_ fun outcome => ?_
    · refine .bind (uses_ite trivial (.bind .query fun _ => firstCapable_uses)) fun colleague => ?_
      cases colleague with
      | some colleague => exact .bind (uses_hits (hS _ ⟨rfl, htask, rfl⟩)) fun _ => trivial
      | none =>
        exact uses_ite (.bind (uses_hits (hS _ ⟨rfl, htask, rfl, .inl rfl⟩)) fun _ => trivial) trivial
    · cases outcome with
      | delegated _ | degraded _ => trivial
      | suspend => exact suspendTask_uses hS

theorem approvalGate_uses {assessment : RiskAssessment} : (approvalGate input assessment).Uses S := by
  refine uses_ite trivial ?_
  split
  · trivial
  next approvalId heq =>
    refine .bind (.bind ?_ fun cleared => uses_ite trivial (.bind .query fun _ => uses_ite trivial ?_))
      fun _ => trivial
    · exact .bind (.bind (uses_send (hS _ rfl)) fun _ => trivial) fun _ => .bind .query fun _ => trivial
    · exact uses_hits (hS _ ⟨rfl, heq⟩)

theorem runTool_uses {request : ToolInvokeRequest} : (runTool input request).Uses S := by
  refine .bind (uses_hits (hS _ ⟨rfl, rfl, rfl, .inr (.inr rfl)⟩)) fun _ => .bind uses_checking fun _ =>
    .bind (uses_send (hS _ rfl)) fun _ => .bind (uses_send (hS _ rfl)) fun answer => ?_
  refine .bind (uses_send (hS _ ⟨rfl, rfl, ?_⟩)) fun _ => trivial
  cases answer.decision? with
  | error _ => exact .inr (.inl rfl)
  | ok d =>
    cases d with
    | ok _ => exact .inl rfl
    | refused status _ _ => cases status <;> simp

end execute

theorem requireExecutableTask_yields : (requireExecutableTask input).Yields fun task =>
    task.id = input.taskId ∧ task.orgId = input.orgId ∧ task.assignedToWorkerId = some input.workerId ∧
      task.allowsToolExecution = true := by
  refine .bind .query fun task htask => ?_
  obtain ⟨s, rfl⟩ := htask
  cases htask : s.getTask input.orgId input.taskId with
  | none => trivial
  | some task =>
    obtain ⟨-, horg, hid⟩ := Table.find_spec htask
    exact .bind yields_checking fun _ hassigned => .bind yields_checking fun _ _ =>
      .bind yields_checking fun _ hallows => .bind .query fun _ _ => .bind yields_checking fun _ _ =>
        ⟨hid, horg, hassigned, hallows⟩

theorem requireExecutableTask_uses : (requireExecutableTask input).Uses S := by
  refine .bind .query fun task => ?_
  cases task with
  | none => trivial
  | some task =>
    exact .bind uses_checking fun _ => .bind uses_checking fun _ => .bind uses_checking fun _ =>
      .bind .query fun _ => .bind uses_checking fun _ => trivial

theorem execute_uses : (execute ports input).Uses input.May := by
  refine .bind_yields requireExecutableTask_uses requireExecutableTask_yields fun task htask => ?_
  refine .bind (uses_ite trivial (.bind .query fun _ => .bind .queryAny fun _ =>
    registerGaps_uses fun _ h => h)) fun outcomes => uses_ite (disposeOfGaps_uses (fun _ h => h) htask.1) ?_
  refine .bind .query fun personaId => ?_
  split
  · trivial
  · refine .bind (approvalGate_uses fun _ h => h) fun refusal => ?_
    split
    · trivial
    · split
      · trivial
      · exact runTool_uses fun _ h => h

/-! ## The other calls -/

/-- The commands of a wake-up and of a sweep. -/
def Cmd.Wakes : Cmd → Prop
  | .wakeBlockedTaskToDelegated .. | .recordWakeAttemptOnBlocked ..
  | .markBlockedTaskLearningTimeout .. => True
  | _ => False

theorem wakeOneTask_uses {orgId : OrgId} {taskId : Id} {personaId : PersonaId} {wakeEventId : String} :
    (wakeOneTask ports orgId taskId personaId wakeEventId).Uses Cmd.Wakes := by
  refine .bind .query fun task => ?_
  cases task with
  | none => trivial
  | some task =>
    refine uses_ite trivial (uses_ite trivial (uses_ite (.bind (uses_hits trivial) fun _ => trivial) ?_))
    refine .bind .queryAny fun learned => uses_ite ?_ ?_
    · exact .bind (uses_hits trivial) fun _ => trivial
    · exact .bind (uses_hits trivial) fun _ => trivial

theorem wakeTasks_uses {personaId : PersonaId} {wakeEventId : String} {tasks : List OrgTask} :
    (wakeTasks ports personaId wakeEventId tasks).Uses Cmd.Wakes := by
  induction tasks with
  | nil => trivial
  | cons task tasks ih => exact .bind wakeOneTask_uses fun _ => .bind ih fun _ => trivial

theorem reconcileTasks_uses {now : Time} {tasks : List OrgTask} :
    (reconcileTasks ports now tasks).Uses Cmd.Wakes := by
  induction tasks with
  | nil => trivial
  | cons task tasks ih =>
    refine .bind .query fun personaId => uses_ite ih ?_
    refine .bind .queryAny fun learned => .bind wakeOneTask_uses fun outcome => .bind ?_ fun _ =>
      .bind ih fun _ => trivial
    exact uses_ite (.bind (uses_hits trivial) fun _ => trivial) trivial

/-- The command plans the goal. -/
def Cmd.Plans (orgId : OrgId) (managerWorkerId : Id) (source : Option Id) (cmd : Cmd) : Prop :=
  ∃ goal version resolved, cmd = .runGoalInTx orgId managerWorkerId goal version resolved ∧
    goal.sourceMarketplaceTaskId = source

theorem resolveAssignees_uses {orgId : OrgId} {managerWorkerId : Id} {workerIdByRole : String → Option Id}
    {specs : List TaskSpec} : (resolveAssignees orgId managerWorkerId workerIdByRole specs).Uses S := by
  induction specs with
  | nil => trivial
  | cons spec specs ih =>
    rw [resolveAssignees]
    split
    · trivial
    · refine .bind .query fun r => ?_
      cases r with
      | error _ => trivial
      | ok _ => exact .bind ih fun _ => trivial

theorem runGoal_uses {orgId : OrgId} {managerWorkerId : Id} {goal : GoalInput}
    {workerIdByRole : String → Option Id} : (runGoal orgId managerWorkerId goal workerIdByRole).Uses
      (Cmd.Plans orgId managerWorkerId goal.sourceMarketplaceTaskId) := by
  refine .bind .queryAny fun playbooks => ?_
  split
  · trivial
  · exact .bind resolveAssignees_uses fun resolved =>
      .bind (uses_send ⟨goal, _, resolved, rfl, rfl⟩) fun _ => trivial

theorem uses_attempting {α : Type} {p : WorkforceCall α} (h : p.Uses S) : (attempting p).Uses S := by
  induction p with
  | ret a | throw e => trivial
  | read f ih => exact fun o s => ih o s (h o s)
  | txn t k ih => exact ⟨h.1, fun r => ih r (h.2 r)⟩

/-- The commands of a start. -/
def StartInput.May (input : StartInput) (cmd : Cmd) : Prop :=
  cmd.Plans input.orgId input.managerWorkerId (some input.taskId) ∨
    ∃ id goalId, cmd = .updateOrgTaskAssignmentStatus id .assigned .in_progress none ∨
      cmd = .updateOrgTaskAssignmentStatus id .in_progress .assigned none ∨
      cmd = .updateOrgTaskAssignmentStatus id .in_progress .in_progress goalId

theorem requireAssignment_uses {taskId : Id} {orgId : OrgId} {status : OrgTaskAssignmentStatus}
    {message : OrgTaskAssignmentStatus → String} : (requireAssignment taskId orgId status message).Uses S := by
  refine .bind .query fun assign => ?_
  cases assign with
  | none => trivial
  | some assign => exact .bind uses_checking fun _ => .bind uses_checking fun _ => trivial

theorem startOrgTask_uses {input : StartInput} : (startOrgTask input).Uses input.May := by
  refine .bind requireAssignment_uses fun assign => .bind .query fun manager => .bind uses_checking fun _ =>
    .bind .query fun task => ?_
  cases task with
  | none => trivial
  | some task =>
    refine .bind (uses_hits (.inr ⟨_, none, .inl rfl⟩)) fun _ => .bind uses_checking fun _ =>
      .bind .query fun byRole => .bind (uses_attempting (runGoal_uses.mono fun _ h => .inl h)) fun r => ?_
    cases r with
    | error _ => exact .bind (uses_hits (.inr ⟨_, none, .inr (.inl rfl)⟩)) fun _ => trivial
    | ok goal =>
      exact .bind (uses_hits (.inr ⟨_, _, .inr (.inr rfl)⟩)) fun _ => .bind uses_checking fun _ => trivial

def DecidesAs (orgId : OrgId) (approvalId : Id) (status : ApprovalStatus) (byWorker : Option Id → Prop)
    (cmd : Cmd) : Prop :=
  ∃ worker user, cmd = .decideApprovalIfPending orgId approvalId status worker user ∧ byWorker worker ∧
    (worker = none ↔ user ≠ none)

theorem requirePending_uses {orgId : OrgId} {approvalId : Id} : (requirePending orgId approvalId).Uses S := by
  refine .bind .query fun a => ?_
  cases a with
  | none => trivial
  | some a => exact .bind uses_checking fun _ => trivial

theorem assertWorkerMayDispose_uses {orgId : OrgId} {approval : OrgApproval} {workerId : Id} :
    (assertWorkerMayDispose orgId approval workerId).Uses S :=
  .bind uses_checking fun _ => .bind uses_checking fun _ => .bind .query fun _ => .bind uses_checking fun _ =>
    .bind .query fun _ => uses_checking

theorem decide_uses {orgId : OrgId} {approvalId : Id} {status : ApprovalStatus} {worker : Option Id}
    {user : Option String} (h : S (.decideApprovalIfPending orgId approvalId status worker user)) :
    (decide orgId approvalId status worker user).Uses S :=
  .bind (uses_hits h) fun _ => uses_checking

theorem approveByHuman_uses {orgId : OrgId} {approvalId : Id} {user : String} :
    (approveByHuman orgId approvalId user).Uses (DecidesAs orgId approvalId .approved (· = none)) := by
  unfold approveByHuman
  generalize trim user = human
  exact .bind uses_checking fun _ => .bind requirePending_uses fun _ =>
    decide_uses ⟨none, some user, rfl, rfl, by simp⟩

theorem rejectApproval_uses {orgId : OrgId} {approvalId : Id} {workerId : Option Id} {user : Option String} :
    (rejectApproval orgId approvalId workerId user).Uses
      (DecidesAs orgId approvalId .rejected fun w => ∀ i ∈ w, workerId = some i) := by
  refine .bind requirePending_uses fun approval => ?_
  generalize trim (user.getD "") = human
  cases workerId with
  | none => exact .bind uses_checking fun _ => decide_uses ⟨none, some human, rfl, by simp, by simp⟩
  | some worker =>
    exact .bind uses_checking fun _ => .bind assertWorkerMayDispose_uses fun _ =>
      decide_uses ⟨some worker, none, rfl, by simp, by simp⟩

theorem requestApproval_uses {input : ApprovalRequestInput} : (requestApproval input).Uses fun cmd =>
    ∃ mode, cmd = .insertApproval input (assessExecutionRisk input.taskRisk input.signals) mode ∧
      ((assessExecutionRisk input.taskRisk input.signals).requiresHuman = true → mode = .human_only) := by
  refine .bind .query fun requester => .bind uses_checking fun _ => ?_
  dsimp only
  split
  · trivial
  next hroute =>
    refine .bind (uses_send ⟨_, rfl, fun hr => ?_⟩) fun _ => trivial
    rw [routeApproval, if_pos hr] at hroute
    cases hroute
  next => exact .bind (uses_send ⟨_, rfl, fun _ => rfl⟩) fun _ => trivial

theorem requireOpenTask_uses {taskId : Id} : (requireOpenTask taskId).Uses S := by
  refine .bind .query fun task => ?_
  cases task with
  | none => trivial
  | some task => exact .bind uses_checking fun _ => trivial

/-- The commands a call may hand over. -/
def Call.May : Call → Cmd → Prop
  | .method cmd, c => c = cmd.1
  | .requestApproval input, c =>
    ∃ mode, c = .insertApproval input (assessExecutionRisk input.taskRisk input.signals) mode ∧
      ((assessExecutionRisk input.taskRisk input.signals).requiresHuman = true → mode = .human_only)
  | .approveByHuman orgId approvalId _, c => DecidesAs orgId approvalId .approved (· = none) c
  | .approveByWorker orgId approvalId workerId, c =>
    DecidesAs orgId approvalId .approved (· = some workerId) c
  | .rejectApproval orgId approvalId workerId _, c =>
    DecidesAs orgId approvalId .rejected (fun w => ∀ i ∈ w, workerId = some i) c
  | .isApprovalCleared orgId _, c => c = .expireStaleApprovals orgId
  | .execute input, c => input.May c
  | .onLearned .., c | .reconcileOnce _, c | .reconcileTenant, c => c.Wakes
  | .runGoal orgId managerWorkerId goal _, c => c.Plans orgId managerWorkerId goal.sourceMarketplaceTaskId
  | .settleOrgTaskPayment input, c => c = .settleInTx input ∧ input.Valid
  | .applyAsOrg taskId orgId, c => c = .insertOrgTaskApplication taskId orgId
  | .confirmAssignToOrg taskId orgId _, c => ∃ applicationId, c = .confirmInTx taskId orgId applicationId
  | .startOrgTask input, c => input.May c
  | .submitOrgTask .., c => ∃ id, c = .updateOrgTaskAssignmentStatus id .in_progress .submitted none
  | .acceptOrgTask input, c => ∃ task assign, c = .acceptOrgTaskInTx input task assign

/-- **Every call only hands over its own commands.** -/
theorem Call.start_uses (c : Call) : (c.start ports).Uses c.May := by
  cases c with
  | method cmd => exact .bind (uses_send rfl) fun _ => trivial
  | requestApproval input => exact .bind requestApproval_uses fun _ => trivial
  | approveByHuman orgId approvalId user =>
    exact .bind approveByHuman_uses fun _ => trivial
  | approveByWorker orgId approvalId workerId =>
    exact .bind (.bind requirePending_uses fun _ => .bind uses_checking fun _ =>
      .bind assertWorkerMayDispose_uses fun _ => decide_uses ⟨_, _, rfl, rfl, by simp⟩) fun _ => trivial
  | rejectApproval orgId approvalId workerId userId =>
    exact .bind rejectApproval_uses fun _ => trivial
  | isApprovalCleared orgId approvalId =>
    exact .bind (.bind (.bind (uses_send rfl) fun _ => trivial) fun _ => .bind .query fun _ => trivial)
      fun _ => trivial
  | execute input => exact .bind execute_uses fun _ => trivial
  | onLearned => exact .bind (.bind .query fun _ => wakeTasks_uses) fun _ => trivial
  | reconcileOnce => exact .bind (.bind .queryAny fun _ => .bind .query fun _ => reconcileTasks_uses) fun _ => trivial
  | reconcileTenant =>
    exact .bind (.bind .queryAny fun _ => .bind .query fun _ => reconcileTasks_uses) fun _ => trivial
  | runGoal => exact .bind runGoal_uses fun _ => trivial
  | settleOrgTaskPayment input =>
    refine .bind ?_ fun _ => trivial
    unfold Workforce.settleOrgTaskPayment
    split
    · trivial
    next hvalid =>
      refine .bind .query fun settled => ?_
      cases settled with
      | some _ => trivial
      | none =>
        exact .bind .query fun probe =>
          uses_ite trivial (.bind (uses_send ⟨rfl, not_not.1 hvalid⟩) fun _ => trivial)
  | applyAsOrg taskId orgId =>
    refine .bind (.bind ?_ fun _ => .bind .query fun _ => .bind uses_checking fun _ => .bind .query fun _ =>
      .bind uses_checking fun _ => .bind (uses_send rfl) fun _ => trivial) fun _ => trivial
    exact requireOpenTask_uses
  | confirmAssignToOrg taskId orgId user =>
    refine .bind (.bind requireOpenTask_uses fun _ => .bind uses_checking fun _ =>
      .bind .query fun app => ?_) fun _ => trivial
    cases app with
    | none => trivial
    | some app => exact .bind uses_checking fun _ => .bind (uses_send ⟨_, rfl⟩) fun _ => trivial
  | startOrgTask => exact .bind startOrgTask_uses fun _ => trivial
  | submitOrgTask =>
    exact .bind (.bind requireAssignment_uses fun _ => .bind (uses_hits ⟨_, rfl⟩) fun _ => uses_checking)
      fun _ => trivial
  | acceptOrgTask input =>
    refine .bind (.bind .query fun task => ?_) fun _ => trivial
    cases task with
    | none => trivial
    | some task =>
      refine .bind uses_checking fun _ => .bind .query fun assign => ?_
      cases assign with
      | none => trivial
      | some assign => exact .bind uses_checking fun _ => .bind (uses_send ⟨_, _, rfl⟩) fun _ => trivial

end ChronoSynth.Workforce
