import ChronoSynth.Workforce.Commands

/-!
# What a command leaves alone

Each command writes to a few tables (`Cmd.tables`); the others it leaves as they are (`exec_sameOff`). The
invariants of a table look at these commands only.
-/

namespace ChronoSynth.Workforce

open Service

/-- The tables of the workforce. -/
inductive Tbl
  | positions | workers | edges | goals | tasks | reports | threads | messages | handoffs | approvals
  | escalations | learningRequests | collaborations | wallets | settlements | walletTransactions
  | applications | assignments | marketplaceTasks
  deriving DecidableEq, Repr

/-- The rows of a table. -/
abbrev Tbl.Row : Tbl → Type
  | positions => OrgPosition
  | workers => DigitalWorker
  | edges => ReportingEdge
  | goals => OrgGoal
  | tasks => OrgTask
  | reports => TaskReport
  | threads => OrgConversationThread
  | messages => OrgMessage
  | handoffs => OrgHandoff
  | approvals => OrgApproval
  | escalations => OrgEscalation
  | learningRequests => LearningRequest
  | collaborations => CollaborationMemory
  | wallets => OrgWallet
  | settlements => OrgWalletSettlement
  | walletTransactions => OrgWalletTransaction
  | applications => OrgTaskApplication
  | assignments => OrgTaskAssignment
  | marketplaceTasks => MarketplaceTask

namespace Store

def rows (s : Store) : (t : Tbl) → List t.Row
  | .positions => s.positions
  | .workers => s.workers
  | .edges => s.edges
  | .goals => s.goals
  | .tasks => s.tasks
  | .reports => s.reports
  | .threads => s.threads
  | .messages => s.messages
  | .handoffs => s.handoffs
  | .approvals => s.approvals
  | .escalations => s.escalations
  | .learningRequests => s.learningRequests
  | .collaborations => s.collaborations
  | .wallets => s.wallets
  | .settlements => s.settlements
  | .walletTransactions => s.walletTransactions
  | .applications => s.applications
  | .assignments => s.assignments
  | .marketplaceTasks => s.marketplaceTasks

/-- One table is written. -/
def put (s : Store) : (t : Tbl) → List t.Row → Store
  | .positions, rows => { s with positions := rows }
  | .workers, rows => { s with workers := rows }
  | .edges, rows => { s with edges := rows }
  | .goals, rows => { s with goals := rows }
  | .tasks, rows => { s with tasks := rows }
  | .reports, rows => { s with reports := rows }
  | .threads, rows => { s with threads := rows }
  | .messages, rows => { s with messages := rows }
  | .handoffs, rows => { s with handoffs := rows }
  | .approvals, rows => { s with approvals := rows }
  | .escalations, rows => { s with escalations := rows }
  | .learningRequests, rows => { s with learningRequests := rows }
  | .collaborations, rows => { s with collaborations := rows }
  | .wallets, rows => { s with wallets := rows }
  | .settlements, rows => { s with settlements := rows }
  | .walletTransactions, rows => { s with walletTransactions := rows }
  | .applications, rows => { s with applications := rows }
  | .assignments, rows => { s with assignments := rows }
  | .marketplaceTasks, rows => { s with marketplaceTasks := rows }

theorem rows_put_of_ne {s : Store} {t u : Tbl} {rows : List t.Row} (h : u ≠ t) :
    (s.put t rows).rows u = s.rows u := by
  cases t <;> cases u <;> first | rfl | exact absurd rfl h

theorem drawn_put {s : Store} {t : Tbl} {rows : List t.Row} : (s.put t rows).drawn = s.drawn := by
  cases t <;> rfl

end Store

/-- Only the tables of the list have changed, and no number has been given back. -/
structure SameOff (T : List Tbl) (s s' : Store) : Prop where
  /-- The other tables. -/
  same : ∀ t, t ∉ T → s'.rows t = s.rows t
  /-- The numbers drawn. -/
  drawn : s.drawn ⊆ s'.drawn

namespace SameOff

variable {T T' : List Tbl} {s s' s'' : Store}

instance : Std.Refl (SameOff T) := ⟨fun _ => ⟨fun _ _ => rfl, List.Subset.refl _⟩⟩

theorem trans (h : SameOff T s s') (h' : SameOff T s' s'') : SameOff T s s'' :=
  ⟨fun t ht => (h'.same t ht).trans (h.same t ht), List.Subset.trans h.drawn h'.drawn⟩

instance : IsTrans Store (SameOff T) := ⟨fun _ _ _ => trans⟩

/-- One of the tables is written. -/
theorem put (t : Tbl) (h : t ∈ T) (rows : List t.Row) : SameOff T s (s.put t rows) :=
  ⟨fun _ hu => Store.rows_put_of_ne fun heq => hu (heq ▸ h), by rw [Store.drawn_put]; exact List.Subset.refl _⟩

end SameOff

/-! ## The methods -/

variable {T : List Tbl} {e : Env} {orgId : OrgId}

theorem keeps_idgen : Keeps (SameOff T) (idgen e) := .modifyGet fun s =>
  ⟨fun t _ => by cases t <;> rfl, fun _ hi => List.mem_cons_of_mem _ hi⟩

theorem keeps_insertPosition (h : .positions ∈ T) {p : OrgPosition} :
    Keeps (SameOff T) (insertPosition p) := fun s => by
  simp only [insertPosition, ensures_bind, ensures_get, ensures_require, ensures_set]
  exact ⟨fun _ => .put .positions h _, fun _ => Std.Refl.refl s⟩

theorem keeps_insertWorker (h : .workers ∈ T) {w : DigitalWorker} :
    Keeps (SameOff T) (insertWorker w) := .modify fun _ => .put .workers h _

theorem keeps_insertEdge (h : .edges ∈ T) {edge : ReportingEdge} :
    Keeps (SameOff T) (insertEdge edge) := fun s => by
  simp only [insertEdge, ensures_bind, ensures_get, ensures_require, ensures_set]
  exact ⟨fun _ => .put .edges h _, fun _ => Std.Refl.refl s⟩

theorem keeps_reparentWorker (h : .edges ∈ T) (h' : .workers ∈ T) {workerId : Id} {m : Option Id}
    {now : Time} : Keeps (SameOff T) (changed (·.reparentWorker orgId workerId m now)) :=
  .modifyGet fun s => (SameOff.put .edges h (s.reparentWorker orgId workerId m now).2.edges).trans
    (.put .workers h' (s.reparentWorker orgId workerId m now).2.workers)

theorem keeps_hirePosition (h : .positions ∈ T) (h' : .workers ∈ T) {roleCode : String}
    {personaId : PersonaId} {ts : Time} :
    Keeps (SameOff T) (hirePosition e orgId roleCode personaId ts) :=
  .bind keeps_idgen fun _ => .bind keeps_idgen fun _ => .bind (keeps_insertPosition h) fun _ =>
    .bind (keeps_insertWorker h') fun _ => .pure

theorem keeps_bootstrapWorkers (h : .positions ∈ T) (h' : .workers ∈ T) {ts : Time}
    {specs : List WorkerSpec} : Keeps (SameOff T) (bootstrapWorkers e orgId ts specs) := by
  induction specs with
  | nil => exact .pure
  | cons spec specs ih => exact .bind (keeps_hirePosition h h') fun _ => .bind ih fun _ => .pure

theorem keeps_bootstrap {specs : List WorkerSpec} :
    Keeps (SameOff [.positions, .workers, .edges]) (bootstrap e orgId specs) := by
  refine .bind .require fun _ => ?_
  split
  · exact .throw
  · exact .bind (keeps_bootstrapWorkers (by simp) (by simp)) fun _ =>
      .forM fun spec => .bind keeps_idgen fun _ => keeps_insertEdge (by simp)

theorem keeps_hireWorker {spec : HireSpec} :
    Keeps (SameOff [.positions, .workers, .edges]) (hireWorker e orgId spec) :=
  .bind .get fun _ => .bind .require fun _ => .bind .require fun _ => .bind .require fun _ =>
    .bind (keeps_hirePosition (by simp) (by simp)) fun _ => .bind keeps_idgen fun _ =>
      .bind (keeps_insertEdge (by simp)) fun _ => .pure

theorem keeps_reparent (h : .edges ∈ T) (h' : .workers ∈ T) {workerId m : Id} :
    Keeps (SameOff T) (reparent e orgId workerId m) := by
  refine .bind .require fun _ => .bind .get fun _ => .bind .require fun _ => ?_
  split
  · exact .throw
  · exact .bind .require fun _ => .bind .require fun _ => .bind (keeps_reparentWorker h h') fun _ =>
      .require

theorem keeps_settleReports (h : .edges ∈ T) (h' : .workers ∈ T) {input : OffboardInput}
    {reports : List Id} : Keeps (SameOff T) (settleReports e input reports) := by
  refine .ite .pure ?_
  split
  · exact .throw
  · exact .bind .get fun _ => .bind .require fun _ => .forM fun _ => keeps_reparent h h'

theorem keeps_settleTasks (h : .tasks ∈ T) {input : OffboardInput} {inHand : List OrgTask} :
    Keeps (SameOff T) (settleTasks e input inHand) := by
  refine .ite .pure ?_
  split
  · exact .throw
  · exact .bind .get fun _ => .bind .require fun _ =>
      .forM fun _ => .bind (.modifyGet fun _ => .put .tasks h _) fun _ => .require

theorem keeps_offboard {input : OffboardInput} :
    Keeps (SameOff [.workers, .edges, .tasks]) (offboard e input) :=
  .bind .get fun _ => .bind .require fun _ => .bind .require fun _ => .transaction <|
    .bind .get fun _ => .bind (keeps_settleReports (by simp) (by simp)) fun _ => .bind .get fun _ =>
      .bind (keeps_settleTasks (by simp)) fun _ =>
        .bind (.modifyGet fun _ => .put .workers (by simp) _) fun _ => .require

theorem keeps_renamePositionRoleCode (h : .positions ∈ T) {old new : String} :
    Keeps (SameOff T) (renamePositionRoleCode orgId old new) := fun s => by
  simp only [renamePositionRoleCode, ensures_bind, ensures_get, ensures_require, ensures_set]
  exact ⟨fun _ => .put .positions h _, fun _ => Std.Refl.refl s⟩

theorem keeps_renameRoles (h : .positions ∈ T) {input : AbsorbInput} {roles : List String}
    {positions : List OrgPosition} : Keeps (SameOff T) (renameRoles input roles positions) := by
  induction positions with
  | nil => exact .pure
  | cons pos rest ih =>
    exact .ite (.bind (keeps_renamePositionRoleCode h) fun _ => .bind ih fun _ => .pure) ih

/-- The tables of `migrateOrgStructure`. -/
def migratedTables : List Tbl :=
  [.workers, .positions, .edges, .goals, .tasks, .reports, .threads, .messages, .handoffs, .approvals,
    .escalations, .learningRequests]

theorem keeps_migrateOrgStructure {fromOrgId toOrgId : OrgId} :
    Keeps (SameOff migratedTables) (migrateOrgStructure fromOrgId toOrgId) := fun s => by
  simp only [migrateOrgStructure, ensures_bind, ensures_get, ensures_require, ensures_set, ensures_pure]
  refine ⟨fun _ => ⟨fun _ => ⟨fun t ht => ?_, List.Subset.refl _⟩, fun _ => Std.Refl.refl s⟩,
    fun _ => Std.Refl.refl s⟩
  cases t <;> first | rfl | simp [migratedTables] at ht

def chartTables : List Tbl := [.positions, .workers, .edges]

theorem SameOff.migrated {s s' : Store} {fromOrgId toOrgId : OrgId} (h : SameOff chartTables s s') :
    SameOff chartTables (s.migrated fromOrgId toOrgId) (s'.migrated fromOrgId toOrgId) := by
  refine ⟨fun t ht => ?_, h.drawn⟩
  have hsame := h.same t ht
  cases t with
  | positions | workers | edges => simp [chartTables] at ht
  | _ => first | exact congrArg (Table.update _ _) hsame | exact hsame

/-- **`absorb`** moves the rows of the source, or does nothing. -/
theorem absorb_moves {input : AbsorbInput} {s : Store} : Ensures (absorb e input) s fun r s' =>
    match r with
    | .ok _ => SameOff chartTables (s.migrated input.sourceOrgId input.targetOrgId) s'
    | .error _ => s' = s := by
  unfold absorb
  simp only [ensures_bind, ensures_require, ensures_get]
  refine ⟨fun _ => ⟨fun _ => ⟨fun _ => ?_, fun _ => trivial⟩, fun _ => trivial⟩, fun _ => trivial⟩
  split
  · trivial
  · simp only [ensures_bind, ensures_require]
    refine ⟨fun _ => ?_, fun _ => trivial⟩
    split
    · trivial
    · simp only [ensures_transaction, absorbInTx, ensures_bind, ensures_get, ensures_pure]
      refine (keeps_renameRoles (T := chartTables) (by simp [chartTables]) s).mono fun r s₁ h₁ => ?_
      cases r with
      | error _ => trivial
      | ok _ =>
        simp only [migrateOrgStructure, ensures_bind, ensures_get, ensures_require, ensures_set, ensures_pure]
        refine ⟨fun _ => ⟨fun _ => ?_, fun _ => trivial⟩, fun _ => trivial⟩
        refine (keeps_reparentWorker (T := chartTables) (by simp [chartTables]) (by simp [chartTables]) _).mono
          fun r s₂ h₂ => ?_
        cases r with
        | error _ => trivial
        | ok _ => exact h₁.migrated.trans h₂

theorem keeps_absorb {input : AbsorbInput} : Keeps (SameOff migratedTables) (absorb e input) := by
  refine .bind .require fun _ => .bind .get fun _ => .bind .require fun _ => .bind .require fun _ => ?_
  split
  · exact .throw
  · refine .bind .require fun _ => ?_
    split
    · exact .throw
    · exact .transaction <| .bind .get fun _ => .bind (keeps_renameRoles (by simp [migratedTables])) fun _ =>
        .bind keeps_migrateOrgStructure fun _ =>
          .bind (keeps_reparentWorker (by simp [migratedTables]) (by simp [migratedTables])) fun _ => .pure

theorem keeps_proposeHandoff {input : HandoffInput} :
    Keeps (SameOff [.handoffs]) (proposeHandoff e orgId input) := by
  refine .bind .require fun _ => .bind .get fun _ => ?_
  split
  · exact .throw
  · exact .bind .require fun _ => .bind .require fun _ => .bind keeps_idgen fun _ =>
      .bind (.modify fun _ => .put .handoffs (by simp) _) fun _ => .pure

theorem keeps_requireProposed {handoffId : Id} :
    Keeps (SameOff T) (requireProposed orgId handoffId) := by
  refine .bind .get fun _ => ?_
  split
  · exact .throw
  · exact .bind .require fun _ => .pure

theorem keeps_acceptHandoff {handoffId respondingWorkerId : Id} :
    Keeps (SameOff [.handoffs, .tasks]) (acceptHandoff e orgId handoffId respondingWorkerId) :=
  .bind keeps_requireProposed fun _ => .bind .require fun _ => .transaction <|
    .bind (.modifyGet fun _ => .put .handoffs (by simp) _) fun _ => .bind .require fun _ =>
      .bind (.modifyGet fun _ => .put .tasks (by simp) _) fun _ => .require

theorem keeps_closeHandoff {handoffId workerId : Id} {who : OrgHandoff → Id} {status : HandoffStatus}
    {message : String} :
    Keeps (SameOff [.handoffs]) (closeHandoff e orgId handoffId workerId who status message) :=
  .bind keeps_requireProposed fun _ => .bind .require fun _ =>
    .bind (.modifyGet fun _ => .put .handoffs (by simp) _) fun _ => .require

theorem keeps_assertWorkerInOrg {workerId : Id} : Keeps (SameOff T) (assertWorkerInOrg orgId workerId) :=
  .bind .get fun _ => .require

theorem keeps_openThread {input : ThreadInput} :
    Keeps (SameOff [.threads]) (openThread e orgId input) :=
  .bind keeps_assertWorkerInOrg fun _ => .bind .get fun _ => .bind .require fun _ =>
    .bind .require fun _ => .bind keeps_idgen fun _ =>
      .bind (.modify fun _ => .put .threads (by simp) _) fun _ => .pure

theorem keeps_sendMessage {input : MessageInput} :
    Keeps (SameOff [.messages]) (sendMessage e orgId input) := by
  refine .bind .get fun _ => ?_
  split
  · exact .throw
  · refine .bind .require fun _ => .bind keeps_assertWorkerInOrg fun _ => ?_
    split
    on_goal 2 => refine .bind keeps_assertWorkerInOrg fun _ => ?_
    all_goals
      exact .bind .require fun _ => .bind .require fun _ => .bind keeps_idgen fun _ =>
        .bind (.modify fun _ => .put .messages (by simp) _) fun _ => .pure

theorem keeps_requireEscalationPending {escalationId : Id} :
    Keeps (SameOff T) (requireEscalationPending orgId escalationId) := by
  refine .bind .get fun _ => ?_
  split
  · exact .throw
  · exact .bind .require fun _ => .pure

theorem keeps_transitionEscalation {escalationId : Id} {status : EscalationStatus} :
    Keeps (SameOff [.escalations]) (transitionEscalation e orgId escalationId status) :=
  .bind (.modifyGet fun _ => .put .escalations (by simp) _) fun _ => .require

theorem keeps_createEscalation {taskId fromWorkerId toWorkerId : Id} {parent : Option Id} {depth : ℕ} :
    Keeps (SameOff [.escalations])
      (createEscalation e orgId taskId fromWorkerId toWorkerId parent depth) :=
  .bind keeps_idgen fun _ => .bind (.modify fun _ => .put .escalations (by simp) _) fun _ => .pure

theorem keeps_raiseEscalation {taskId fromWorkerId : Id} {reason : String} :
    Keeps (SameOff [.escalations]) (raiseEscalation e orgId taskId fromWorkerId reason) := by
  refine .bind .get fun _ => ?_
  split
  · exact .throw
  · refine .bind .require fun _ => .bind .require fun _ => ?_
    split
    · exact .throw
    · exact keeps_createEscalation

theorem keeps_reescalate {escalationId byWorkerId : Id} {reason : String} :
    Keeps (SameOff [.escalations]) (reescalate e orgId escalationId byWorkerId reason) := by
  refine .bind keeps_requireEscalationPending fun _ => .bind .require fun _ => .bind .require fun _ =>
    .bind .require fun _ => .bind .get fun _ => ?_
  split
  · exact .throw
  · exact .transaction <| .bind keeps_transitionEscalation fun _ => keeps_createEscalation

theorem keeps_upsertCollaboration {workerId : Id} {counterpartType : CounterpartType}
    {counterpartId : String} {count : ℕ} : Keeps (SameOff [.collaborations])
      (upsertCollaboration orgId workerId counterpartType counterpartId count) := .modify fun s => by
  dsimp only
  split
  · exact .put .collaborations (by simp) _
  · exact .put .collaborations (by simp) _

theorem keeps_insertReport (h : .reports ∈ T) {r : TaskReport} : Keeps (SameOff T) (insertReport r) :=
  .modify fun _ => .put .reports h _

theorem keeps_planTasks {goalId managerWorkerId : Id} {resolved : List (TaskSpec × Id)}
    (h : .tasks ∈ T) (h' : .reports ∈ T) :
    Keeps (SameOff T) (planTasks e orgId goalId managerWorkerId resolved) := by
  induction resolved with
  | nil => exact .pure
  | cons x rest ih =>
    refine .bind ?_ fun _ => .bind ih fun _ => .pure
    refine .bind keeps_idgen fun _ => .bind (.modify fun _ => .put .tasks h _) fun _ => .ite ?_ ?_
    · exact .bind keeps_idgen fun _ => .bind (keeps_insertReport h') fun _ => .pure
    · exact .bind (.modifyGet fun _ => .put .tasks h _) fun _ => .bind keeps_idgen fun _ =>
        .bind (keeps_insertReport h') fun _ => .pure

theorem keeps_runGoalInTx {goalId managerWorkerId : Id} {goal : GoalInput} {version : ℕ}
    {resolved : List (TaskSpec × Id)} : Keeps (SameOff [.goals, .tasks, .reports])
      (runGoalInTx e orgId goalId managerWorkerId goal version resolved) :=
  .bind (.modify fun _ => .put .goals (by simp) _) fun _ =>
    .bind (keeps_planTasks (by simp) (by simp)) fun _ => .bind keeps_idgen fun _ =>
      .bind (keeps_insertReport (by simp)) fun _ =>
        .bind (.modify fun _ => .put .goals (by simp) _) fun _ => .pure

theorem keeps_getOrCreateOrgWallet (h : .wallets ∈ T) {id : Id} {currency : String} :
    Keeps (SameOff T) (getOrCreateOrgWallet e orgId id currency) := fun s => by
  simp only [getOrCreateOrgWallet, ensures_bind, ensures_get]
  split
  · exact Std.Refl.refl s
  · exact .put .wallets h _

theorem sameOff_creditOrgWallet (h : .wallets ∈ T) {s : Store} {delta : ℤ} {now : Time} :
    SameOff T s (s.creditOrgWallet orgId delta now).2 := by
  simp only [Store.creditOrgWallet]
  split
  · exact Std.Refl.refl s
  · split
    · exact .put .wallets h _
    · exact Std.Refl.refl s

def settledTables : List Tbl := [.wallets, .settlements, .walletTransactions]

theorem keeps_insertOrgWalletTransaction (h : .walletTransactions ∈ T) {walletId referenceId : Id}
    {transactionType : OrgWalletTransactionType} {amountMinor : ℤ} {currency : String} :
    Keeps (SameOff T)
      (insertOrgWalletTransaction e walletId transactionType amountMinor currency referenceId) :=
  .bind keeps_idgen fun _ => .modify fun _ => .put .walletTransactions h _

theorem keeps_settleInTx (h : settledTables ⊆ T) {input : SettleInput} :
    Keeps (SameOff T) (settleInTx e input) := by
  have hw : .wallets ∈ T := h (by simp [settledTables])
  have ht : .walletTransactions ∈ T := h (by simp [settledTables])
  refine .bind .get fun _ => ?_
  split
  · exact .pure
  · exact .bind keeps_idgen fun _ => .bind (keeps_getOrCreateOrgWallet hw) fun _ =>
      .bind .require fun _ => .bind .require fun _ => .bind keeps_idgen fun _ =>
        .bind (.modify fun _ => .put .settlements (h (by simp [settledTables])) _) fun _ =>
          .bind (.modifyGet fun _ => sameOff_creditOrgWallet hw) fun _ => .bind .require fun _ =>
            .bind (keeps_insertOrgWalletTransaction ht) fun _ =>
              .bind (keeps_insertOrgWalletTransaction ht) fun _ => .pure

theorem keeps_acceptOrgTaskInTx {input : AcceptInput} {task : MarketplaceTask} {assign : OrgTaskAssignment} :
    Keeps (SameOff (.assignments :: .marketplaceTasks :: settledTables))
      (acceptOrgTaskInTx e input task assign) :=
  .bind (.modifyGet fun _ => .put .assignments (by simp) _) fun _ => .bind .require fun _ =>
    .bind (.modifyGet fun _ => .put .marketplaceTasks (by simp) _) fun _ => .bind .require fun _ =>
      .ite (.bind (keeps_settleInTx (by simp)) fun _ => .pure) .pure

theorem keeps_insertOrgTaskApplication {taskId : Id} :
    Keeps (SameOff [.applications]) (insertOrgTaskApplication e taskId orgId) :=
  .bind keeps_idgen fun _ s => by
    simp only [ensures_bind, ensures_get, ensures_require, ensures_set, ensures_pure]
    exact ⟨fun _ => .put .applications (by simp) _, fun _ => Std.Refl.refl s⟩

theorem keeps_confirmInTx {taskId applicationId : Id} :
    Keeps (SameOff [.applications, .assignments, .marketplaceTasks])
      (confirmInTx e taskId orgId applicationId) :=
  .bind keeps_idgen fun _ => .bind (.modifyGet fun _ => .put .marketplaceTasks (by simp) _) fun _ =>
    .bind .require fun _ => .bind (.modify fun _ => .put .applications (by simp) _) fun _ =>
      .bind (.modify fun _ => .put .assignments (by simp) _) fun _ => .pure

theorem keeps_insertLearningRequest {personaId : PersonaId} {capability : String} {task : Option Id} :
    Keeps (SameOff [.learningRequests]) (insertLearningRequest e orgId personaId capability task) :=
  .bind keeps_idgen fun _ s => by
    simp only [ensures_bind, ensures_get, ensures_require, ensures_set, ensures_pure]
    exact ⟨fun _ => .put .learningRequests (by simp) _, fun _ => Std.Refl.refl s⟩

/-! ## The commands -/

/-- The tables a command writes to. -/
def Cmd.tables : Cmd → List Tbl
  | .bootstrap .. | .hireWorker .. => [.positions, .workers, .edges]
  | .reparent .. => [.workers, .edges]
  | .offboard .. => [.workers, .edges, .tasks]
  | .absorb .. => migratedTables
  | .acceptHandoff .. => [.handoffs, .tasks]
  | .proposeHandoff .. | .rejectHandoff .. | .cancelHandoff .. => [.handoffs]
  | .openThread .. | .closeThread .. => [.threads]
  | .sendMessage .. => [.messages]
  | .raiseEscalation .. | .resolveEscalation .. | .reescalate .. | .cancelEscalation .. => [.escalations]
  | .recordCollaboration .. | .setNote .. => [.collaborations]
  | .publishMarketplaceTask .. | .moveMarketplaceTask .. => [.marketplaceTasks]
  | .runGoalInTx .. => [.goals, .tasks, .reports]
  | .settleInTx .. => settledTables
  | .insertOrgTaskApplication .. => [.applications]
  | .confirmInTx .. => [.applications, .assignments, .marketplaceTasks]
  | .updateOrgTaskAssignmentStatus .. => [.assignments]
  | .acceptOrgTaskInTx .. => .assignments :: .marketplaceTasks :: settledTables
  | .insertLearningRequest .. | .transitionLearningRequest .. => [.learningRequests]
  | .transitionTaskExecutionIfStatus .. | .updateTaskExecution .. | .reassignDelegatedTaskIfHeldBy ..
  | .wakeBlockedTaskToDelegated .. | .recordWakeAttemptOnBlocked ..
  | .markBlockedTaskLearningTimeout .. => [.tasks]
  | .insertApproval .. | .expireStaleApprovals .. | .decideApprovalIfPending ..
  | .consumeApprovalIfUnused .. | .setApprovalArgumentsHash .. => [.approvals]
  | .invoke .. | .answered _ => []

theorem keeps_service (cmd : Cmd) : Keeps (SameOff cmd.tables) (cmd.service e) := by
  cases cmd with
  | bootstrap => exact .map keeps_bootstrap
  | hireWorker => exact .map keeps_hireWorker
  | reparent => exact .map (keeps_reparent (by simp [Cmd.tables]) (by simp [Cmd.tables]))
  | offboard => exact .map keeps_offboard
  | absorb => exact .map keeps_absorb
  | proposeHandoff => exact .map keeps_proposeHandoff
  | acceptHandoff => exact .map keeps_acceptHandoff
  | rejectHandoff | cancelHandoff => exact .map keeps_closeHandoff
  | openThread => exact .map keeps_openThread
  | sendMessage => exact .map keeps_sendMessage
  | closeThread =>
    exact .map <| .bind .get fun _ => .bind .require fun _ =>
      .modify fun _ => .put .threads (by simp [Cmd.tables]) _
  | raiseEscalation => exact .map keeps_raiseEscalation
  | resolveEscalation =>
    exact .map <| .bind keeps_requireEscalationPending fun _ => .bind .require fun _ =>
      .bind .require fun _ => keeps_transitionEscalation
  | reescalate => exact .map keeps_reescalate
  | cancelEscalation =>
    exact .map <| .bind keeps_requireEscalationPending fun _ => .bind .require fun _ =>
      keeps_transitionEscalation
  | recordCollaboration | setNote => exact .map keeps_upsertCollaboration
  | publishMarketplaceTask =>
    exact .map <| .bind keeps_idgen fun _ =>
      .bind (.modify fun _ => .put .marketplaceTasks (by simp [Cmd.tables]) _) fun _ => .pure
  | moveMarketplaceTask =>
    exact .map <| .modifyGet fun _ => .put .marketplaceTasks (by simp [Cmd.tables]) _
  | runGoalInTx => exact .bind keeps_idgen fun _ => .map <| .transaction keeps_runGoalInTx
  | settleInTx => exact .map <| .transaction <| keeps_settleInTx (by simp [Cmd.tables])
  | insertOrgTaskApplication => exact .map keeps_insertOrgTaskApplication
  | confirmInTx => exact .map <| .transaction keeps_confirmInTx
  | updateOrgTaskAssignmentStatus =>
    exact .modifyGet fun _ => .put .assignments (by simp [Cmd.tables]) _
  | acceptOrgTaskInTx => exact .map <| .transaction keeps_acceptOrgTaskInTx
  | insertLearningRequest => exact .map keeps_insertLearningRequest
  | transitionLearningRequest =>
    exact .map <| .modifyGet fun _ => .put .learningRequests (by simp [Cmd.tables]) _
  | transitionTaskExecutionIfStatus | updateTaskExecution | reassignDelegatedTaskIfHeldBy
  | wakeBlockedTaskToDelegated | recordWakeAttemptOnBlocked | markBlockedTaskLearningTimeout =>
    exact .modifyGet fun _ => .put .tasks (by simp [Cmd.tables]) _
  | insertApproval =>
    exact .map <| .bind keeps_idgen fun _ =>
      .bind (.modify fun _ => .put .approvals (by simp [Cmd.tables]) _) fun _ => .pure
  | expireStaleApprovals | decideApprovalIfPending | consumeApprovalIfUnused
  | setApprovalArgumentsHash => exact .modifyGet fun _ => .put .approvals (by simp [Cmd.tables]) _
  | invoke | answered => exact .pure

/-- **Frame.** A command changes no table but its own. -/
theorem exec_sameOff (cmd : Cmd) (s : Store) : SameOff cmd.tables s (exec e cmd s).1 :=
  ensures_iff_runService.1 (keeps_service cmd s)

end ChronoSynth.Workforce
