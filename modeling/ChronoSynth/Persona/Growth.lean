import ChronoSynth.Persona.MoneyEffects

/-!
# What no transaction undoes

Every transaction keeps the rows of every table, with the columns no statement sets, and numbers the
rows it inserts (`exec_grows`). So what a call has read of these columns still holds when its
transaction is executed. A completed task stays completed, by the same persona.

Most transactions leave most tables alone; `Tx.writes` lists the tables a transaction may write
(`exec_agree`).
-/

namespace ChronoSynth.Persona

/-! ## Growth -/

def PersonaCore.fixed (pc : PersonaCore) := (pc.id, pc.createdAt)

def PersonaWallet.fixed (w : PersonaWallet) := (w.id, w.personaId, w.currency, w.status)

def MarketplaceTask.fixed (t : MarketplaceTask) := (t.id, t.publisherUserId, t.reward, t.currency)

def TaskApplication.fixed (a : TaskApplication) := (a.id, a.taskId, a.personaId)

def TaskAssignment.fixed (a : TaskAssignment) :=
  (a.id, a.taskId, a.personaId, a.applicationId, a.assignedAt)

def TaskResult.fixed (r : TaskResult) := (r.id, r.taskId, r.assignmentId, r.createdAt)

def RuntimeSession.fixed (s : RuntimeSession) := (s.id, s.personaId, s.taskId, s.assignmentId)

def PersonaTransfer.fixed (t : PersonaTransfer) :=
  (t.id, t.personaId, t.fromOwnerUserId, t.toOwnerUserId)

def GovernanceCase.fixed (c : GovernanceCase) := (c.id, c.personaId, c.taskId, c.severity)

/-- A task that is completed stays so. -/
def MarketplaceTask.Keeps (t t' : MarketplaceTask) : Prop :=
  t'.fixed = t.fixed ∧
    (t.status = .completed → t'.status = .completed ∧ t'.assigneePersonaId = t.assigneePersonaId)

theorem MarketplaceTask.Keeps.refl (t : MarketplaceTask) : t.Keeps t := ⟨rfl, fun h => ⟨h, rfl⟩⟩

theorem MarketplaceTask.Keeps.trans (t t' t'' : MarketplaceTask) (h : t.Keeps t')
    (h' : t'.Keeps t'') : t.Keeps t'' :=
  ⟨h'.1.trans h.1, fun hc => ⟨(h'.2 (h.2 hc).1).1, (h'.2 (h.2 hc).1).2.trans (h.2 hc).2⟩⟩

/-- What the tables may become. -/
structure TenantDb.Grows (db db' : TenantDb) : Prop where
  users : db'.users = db.users
  personas : Table.Grows (fun a b => b.fixed = a.fixed) PersonaCore.id db.personas db'.personas
  forks : Table.Grows (fun a b => b = a) PersonaFork.id db.forks db'.forks
  wallets : Table.Grows (fun a b => b.fixed = a.fixed) PersonaWallet.id db.wallets db'.wallets
  tasks : Table.Grows MarketplaceTask.Keeps MarketplaceTask.id db.tasks db'.tasks
  applications : Table.Grows (fun a b => b.fixed = a.fixed) TaskApplication.id db.applications
    db'.applications
  assignments : Table.Grows (fun a b => b.fixed = a.fixed) TaskAssignment.id db.assignments
    db'.assignments
  results : Table.Grows (fun a b => b.fixed = a.fixed) TaskResult.id db.results db'.results
  sessions : Table.Grows (fun a b => b.fixed = a.fixed) RuntimeSession.id db.sessions db'.sessions
  settlements : Table.Grows (fun a b => b = a) TaskWalletSettlement.id db.settlements
    db'.settlements
  walletTransactions : Table.Grows (fun a b => b = a) WalletTransaction.id db.walletTransactions
    db'.walletTransactions
  payoutRequests : Table.Grows (fun a b => b = a) WalletPayoutRequest.id db.payoutRequests
    db'.payoutRequests
  transfers : Table.Grows (fun a b => b.fixed = a.fixed) PersonaTransfer.id db.transfers
    db'.transfers
  cases : Table.Grows (fun a b => b.fixed = a.fixed) GovernanceCase.id db.cases db'.cases
  actions : Table.Grows (fun a b => b = a) GovernanceAction.id db.actions db'.actions
  growthEvents : Table.Grows (fun a b => b = a) PersonaGrowthEvent.id db.growthEvents
    db'.growthEvents

variable {env : Env} {t : Tx} {db db' db'' : TenantDb}

theorem TenantDb.Grows.refl (db : TenantDb) : db.Grows db where
  users := rfl
  personas := .refl fun _ => rfl
  forks := .refl fun _ => rfl
  wallets := .refl fun _ => rfl
  tasks := .refl MarketplaceTask.Keeps.refl
  applications := .refl fun _ => rfl
  assignments := .refl fun _ => rfl
  results := .refl fun _ => rfl
  sessions := .refl fun _ => rfl
  settlements := .refl fun _ => rfl
  walletTransactions := .refl fun _ => rfl
  payoutRequests := .refl fun _ => rfl
  transfers := .refl fun _ => rfl
  cases := .refl fun _ => rfl
  actions := .refl fun _ => rfl
  growthEvents := .refl fun _ => rfl

theorem TenantDb.Grows.trans (h : db.Grows db') (h' : db'.Grows db'') : db.Grows db'' where
  users := h'.users.trans h.users
  personas := h.personas.trans (fun _ _ _ e e' => e'.trans e) h'.personas
  forks := h.forks.trans (fun _ _ _ e e' => e'.trans e) h'.forks
  wallets := h.wallets.trans (fun _ _ _ e e' => e'.trans e) h'.wallets
  tasks := h.tasks.trans MarketplaceTask.Keeps.trans h'.tasks
  applications := h.applications.trans (fun _ _ _ e e' => e'.trans e) h'.applications
  assignments := h.assignments.trans (fun _ _ _ e e' => e'.trans e) h'.assignments
  results := h.results.trans (fun _ _ _ e e' => e'.trans e) h'.results
  sessions := h.sessions.trans (fun _ _ _ e e' => e'.trans e) h'.sessions
  settlements := h.settlements.trans (fun _ _ _ e e' => e'.trans e) h'.settlements
  walletTransactions := h.walletTransactions.trans (fun _ _ _ e e' => e'.trans e)
    h'.walletTransactions
  payoutRequests := h.payoutRequests.trans (fun _ _ _ e e' => e'.trans e) h'.payoutRequests
  transfers := h.transfers.trans (fun _ _ _ e e' => e'.trans e) h'.transfers
  cases := h.cases.trans (fun _ _ _ e e' => e'.trans e) h'.cases
  actions := h.actions.trans (fun _ _ _ e e' => e'.trans e) h'.actions
  growthEvents := h.growthEvents.trans (fun _ _ _ e e' => e'.trans e) h'.growthEvents

/-- The rows of every table are numbered. -/
structure TenantDb.Numbered (db : TenantDb) : Prop where
  personas : Table.Numbered PersonaCore.id db.personas
  wallets : Table.Numbered PersonaWallet.id db.wallets
  tasks : Table.Numbered MarketplaceTask.id db.tasks
  applications : Table.Numbered TaskApplication.id db.applications
  assignments : Table.Numbered TaskAssignment.id db.assignments
  results : Table.Numbered TaskResult.id db.results
  sessions : Table.Numbered RuntimeSession.id db.sessions
  settlements : Table.Numbered TaskWalletSettlement.id db.settlements
  walletTransactions : Table.Numbered WalletTransaction.id db.walletTransactions
  payoutRequests : Table.Numbered WalletPayoutRequest.id db.payoutRequests
  transfers : Table.Numbered PersonaTransfer.id db.transfers
  cases : Table.Numbered GovernanceCase.id db.cases
  actions : Table.Numbered GovernanceAction.id db.actions
  growthEvents : Table.Numbered PersonaGrowthEvent.id db.growthEvents

theorem TenantDb.Numbered.fresh (users : List Id) : (TenantDb.fresh users).Numbered :=
  ⟨rfl, rfl, rfl, rfl, rfl, rfl, rfl, rfl, rfl, rfl, rfl, rfl, rfl, rfl⟩

theorem TenantDb.Grows.numbered_of (h : db.Grows db') (hn : db.Numbered) : db'.Numbered where
  personas := h.personas.numbered hn.personas
  wallets := h.wallets.numbered hn.wallets
  tasks := h.tasks.numbered hn.tasks
  applications := h.applications.numbered hn.applications
  assignments := h.assignments.numbered hn.assignments
  results := h.results.numbered hn.results
  sessions := h.sessions.numbered hn.sessions
  settlements := h.settlements.numbered hn.settlements
  walletTransactions := h.walletTransactions.numbered hn.walletTransactions
  payoutRequests := h.payoutRequests.numbered hn.payoutRequests
  transfers := h.transfers.numbered hn.transfers
  cases := h.cases.numbered hn.cases
  actions := h.actions.numbered hn.actions
  growthEvents := h.growthEvents.numbered hn.growthEvents

section
variable {p : MarketplaceTask → Prop} [DecidablePred p] {g : MarketplaceTask → MarketplaceTask}
  {tasks : List MarketplaceTask}

theorem tasks_grow (hp : ∀ t, p t → t.status ≠ .completed) (hg : ∀ t, (g t).fixed = t.fixed) :
    Table.Grows MarketplaceTask.Keeps MarketplaceTask.id tasks (Table.update p g tasks) :=
  .update MarketplaceTask.Keeps.refl (fun t h => ⟨hg t, fun hc => (hp t h hc).elim⟩)
    fun t => congrArg Prod.fst (hg t)

end

theorem TaskWalletSettlement.journal_grows (s : TaskWalletSettlement)
    (rows : List WalletTransaction) :
    Table.Grows (fun a b => b = a) WalletTransaction.id rows
      (rows ++ s.journal env rows.length) := by
  refine ⟨fun a ha => ⟨a, List.mem_append_left _ ha, rfl⟩, fun h => ?_⟩
  have h' : rows.map WalletTransaction.id = List.range rows.length := h
  simp only [Table.Numbered, TaskWalletSettlement.journal, WalletTransaction.create]
  split_ifs <;> simp [h', List.range_succ]

theorem TaskCompletion.settlements_grow (c : TaskCompletion) (rows : List TaskWalletSettlement) :
    Table.Grows (fun a b => b = a) TaskWalletSettlement.id rows
      (rows ++ c.settlements env rows.length) := by
  rw [TaskCompletion.settlements]
  split_ifs
  · exact .insert (fun _ => rfl) rfl
  · rw [List.append_nil]
    exact .refl fun _ => rfl

theorem TaskCompletion.journal_grows (c : TaskCompletion) (rows : List WalletTransaction) (n : ℕ) :
    Table.Grows (fun a b => b = a) WalletTransaction.id rows
      (rows ++ (c.settlements env n).flatMap (·.journal env rows.length)) := by
  rw [TaskCompletion.settlements]
  split_ifs
  · rw [List.flatMap_singleton]
    exact TaskWalletSettlement.journal_grows _ _
  · rw [List.flatMap_nil, List.append_nil]
    exact .refl fun _ => rfl

theorem growthEvents_grow {c : Prop} [Decidable c] {rows : List PersonaGrowthEvent}
    {e : PersonaGrowthEvent} (he : e.id = rows.length) :
    Table.Grows (fun a b => b = a) PersonaGrowthEvent.id rows
      (rows ++ if c then [e] else []) := by
  split_ifs
  · exact .insert (fun _ => rfl) he
  · rw [List.append_nil]
    exact .refl fun _ => rfl

/-- **No transaction undoes what it does not write.** -/
theorem exec_grows (env : Env) (t : Tx) (db : TenantDb) : db.Grows (exec env t db).1 := by
  have h0 := TenantDb.Grows.refl db
  cases t with
  | createPersona u =>
    rw [exec_createPersona]
    exact { h0 with
      personas := .insert (fun _ => rfl) rfl
      wallets := .insert (fun _ => rfl) rfl }
  | createFork p =>
    rw [exec_createFork]
    exact { h0 with forks := .insert (fun _ => rfl) rfl }
  | activatePersona p =>
    rw [exec_activatePersona]
    exact { h0 with personas := .update (fun _ => rfl) (fun _ _ => rfl) fun _ => rfl }
  | deactivatePersona p =>
    rw [exec_deactivatePersona]
    exact { h0 with personas := .update (fun _ => rfl) (fun _ _ => rfl) fun _ => rfl }
  | requestTransfer p u v =>
    rw [exec_requestTransfer]
    exact { h0 with transfers := .insert (fun _ => rfl) rfl }
  | approveTransfer p x u =>
    rw [exec_approveTransfer]
    split
    · have h1 : Table.Grows (fun a b => b.fixed = a.fixed) PersonaTransfer.id db.transfers
          (Table.update (fun t => t.id = x ∧ t.status = .pending_review) (·.approve env.now)
            db.transfers) := .update (fun _ => rfl) (fun _ _ => rfl) fun _ => rfl
      exact { h0 with
        personas := .update (fun _ => rfl) (fun _ _ => rfl) fun _ => rfl
        transfers := h1.trans (fun _ _ _ e e' => e'.trans e)
          (.update (fun _ => rfl) (fun _ _ => rfl) fun _ => rfl) }
    · exact h0
  | addKnowledge p g r =>
    rw [exec_addKnowledge]
    exact { h0 with
      growthEvents := .insert (fun _ => rfl) rfl
      personas := .update (fun _ => rfl) (fun _ _ => rfl) fun _ => rfl }
  | addGovernanceEvent p r g next =>
    rw [exec_addGovernanceEvent]
    exact { h0 with
      growthEvents := growthEvents_grow rfl
      personas := .update (fun _ => rfl) (fun _ _ => rfl) fun _ => rfl }
  | openGovernanceCase p x sev =>
    rw [exec_openGovernanceCase]
    split
    · exact h0
    · exact { h0 with cases := .insert (fun _ => rfl) rfl }
  | applyGovernanceAction c p action dur actor next r =>
    rw [exec_applyGovernanceAction]
    split
    · exact { h0 with
        actions := .insert (fun _ => rfl) rfl
        cases := .update (fun _ => rfl) (fun _ _ => rfl) fun _ => rfl
        personas := .update (fun _ => rfl) (fun _ _ => rfl) fun _ => rfl
        growthEvents := growthEvents_grow rfl }
    · exact h0
  | appealGovernanceCase c =>
    rw [exec_appealGovernanceCase]
    split
    · exact { h0 with cases := .update (fun _ => rfl) (fun _ _ => rfl) fun _ => rfl }
    · exact h0
  | publishTask u reward currency =>
    rw [exec_publishTask]
    exact { h0 with tasks := .insert MarketplaceTask.Keeps.refl rfl }
  | applyToTask x p =>
    rw [exec_applyToTask]
    split
    · exact h0
    · exact { h0 with applications := .insert (fun _ => rfl) rfl }
  | assignTask x p a =>
    rw [exec_assignTask]
    exact { h0 with
      assignments := .insert (fun _ => rfl) rfl
      applications := .update (fun _ => rfl) (fun _ _ => rfl) fun _ => rfl
      tasks := tasks_grow (fun t h => by simp [h.2]) fun _ => rfl }
  | acceptTask x p f =>
    rw [exec_acceptTask]
    exact { h0 with
      tasks := tasks_grow (fun t h => by simp [h.2]) fun _ => rfl
      assignments := .insert (fun _ => rfl) rfl }
  | createRuntimeSession p x a ms =>
    rw [exec_createRuntimeSession]
    exact { h0 with
      sessions := .insert (fun _ => rfl) rfl
      assignments := .update (fun _ => rfl) (fun _ _ => rfl) fun _ => rfl }
  | planRuntimeSession s ms =>
    rw [exec_planRuntimeSession]
    exact { h0 with sessions := .update (fun _ => rfl) (fun _ _ => rfl) fun _ => rfl }
  | executeRuntimeSession s a ms =>
    rw [exec_executeRuntimeSession]
    exact { h0 with
      sessions := .update (fun _ => rfl) (fun _ _ => rfl) fun _ => rfl
      assignments := .update (fun _ => rfl) (fun _ _ => rfl) fun _ => rfl }
  | evaluateRuntimeSession s ms =>
    rw [exec_evaluateRuntimeSession]
    exact { h0 with sessions := .update (fun _ => rfl) (fun _ _ => rfl) fun _ => rfl }
  | completeRuntimeSession s =>
    rw [exec_completeRuntimeSession]
    exact { h0 with sessions := .update (fun _ => rfl) (fun _ _ => rfl) fun _ => rfl }
  | retryRuntimeSession s st st' ms =>
    rw [exec_retryRuntimeSession]
    exact { h0 with sessions := .update (fun _ => rfl) (fun _ _ => rfl) fun _ => rfl }
  | timeoutRuntimeSession s st =>
    rw [exec_timeoutRuntimeSession]
    exact { h0 with sessions := .update (fun _ => rfl) (fun _ _ => rfl) fun _ => rfl }
  | submitTaskResult x a =>
    rw [exec_submitTaskResult]
    exact { h0 with
      results := .insert (fun _ => rfl) rfl
      assignments := .update (fun _ => rfl) (fun _ _ => rfl) fun _ => rfl
      tasks := .update MarketplaceTask.Keeps.refl (fun _ _ => ⟨rfl, fun h => ⟨h, rfl⟩⟩) fun _ => rfl }
  | acceptSubmittedTask a =>
    rw [exec_acceptSubmittedTask]
    split
    · exact { h0 with
        results := .update (fun _ => rfl) (fun _ _ => rfl) fun _ => rfl
        assignments := .update (fun _ => rfl) (fun _ _ => rfl) fun _ => rfl
        tasks := tasks_grow (fun t h => by simp [h.2]) fun _ => rfl
        personas := .update (fun _ => rfl) (fun _ _ => rfl) fun _ => rfl
        growthEvents := .insert (fun _ => rfl) rfl }
    · exact h0
  | rejectSubmittedTask x a r app =>
    rw [exec_rejectSubmittedTask]
    split
    · exact { h0 with
        results := .update (fun _ => rfl) (fun _ _ => rfl) fun _ => rfl
        assignments := .update (fun _ => rfl) (fun _ _ => rfl) fun _ => rfl
        applications := .update (fun _ => rfl) (fun _ _ => rfl) fun _ => rfl
        tasks := tasks_grow (fun t h => by simp [h.2]) fun _ => rfl }
    · exact h0
  | disputeTask x a r =>
    rw [exec_disputeTask]
    exact { h0 with
      assignments := .update (fun _ => rfl) (fun _ _ => rfl) fun _ => rfl
      results := .update (fun _ => rfl) (fun _ _ => rfl) fun _ => rfl
      tasks := .update MarketplaceTask.Keeps.refl (fun _ _ => ⟨rfl, fun h => ⟨h, rfl⟩⟩) fun _ => rfl }
  | completeTask c =>
    obtain ⟨h, -⟩ | ⟨-, -, h⟩ := exec_completeTask_cases env db c
    · rw [h]
      exact h0
    · rw [h]
      exact { h0 with
        tasks := tasks_grow (fun t h => by simp [h.2]) fun _ => rfl
        wallets := .update (fun _ => rfl) (fun _ _ => rfl) fun _ => rfl
        settlements := c.settlements_grow _
        walletTransactions := c.journal_grows _ _
        personas := .update (fun _ => rfl) (fun _ _ => rfl) fun _ => rfl
        growthEvents := .insert (fun _ => rfl) rfl }
  | settleTaskPayment input =>
    obtain h | ⟨_, _, _, -, -, -, h⟩ := exec_settle_cases env db input
    · rw [h]
      exact h0
    · rw [h]
      exact { h0 with
        settlements := .insert (fun _ => rfl) rfl
        wallets := .update (fun _ => rfl) (fun _ _ => rfl) fun _ => rfl
        walletTransactions := TaskWalletSettlement.journal_grows _ _ }
  | requestWalletPayout p =>
    obtain ⟨h, -⟩ | ⟨-, -, -, h⟩ := exec_payout_cases env db p
    · rw [h]
      exact h0
    · rw [h]
      exact { h0 with
        payoutRequests := .insert (fun _ => rfl) rfl
        wallets := .update (fun _ => rfl) (fun _ _ => rfl) fun _ => rfl
        walletTransactions := .insert (fun _ => rfl) rfl }

/-! ## The tables a transaction writes -/

inductive TableName
  | personas | forks | wallets | tasks | applications | assignments | results | sessions
  | settlements | walletTransactions | payoutRequests | transfers | cases | actions | growthEvents
  deriving DecidableEq, Repr

/-- The two databases have one table in common. -/
def TenantDb.Agree (db db' : TenantDb) : TableName → Prop
  | .personas => db'.personas = db.personas
  | .forks => db'.forks = db.forks
  | .wallets => db'.wallets = db.wallets
  | .tasks => db'.tasks = db.tasks
  | .applications => db'.applications = db.applications
  | .assignments => db'.assignments = db.assignments
  | .results => db'.results = db.results
  | .sessions => db'.sessions = db.sessions
  | .settlements => db'.settlements = db.settlements
  | .walletTransactions => db'.walletTransactions = db.walletTransactions
  | .payoutRequests => db'.payoutRequests = db.payoutRequests
  | .transfers => db'.transfers = db.transfers
  | .cases => db'.cases = db.cases
  | .actions => db'.actions = db.actions
  | .growthEvents => db'.growthEvents = db.growthEvents

theorem TenantDb.Agree.refl (db : TenantDb) (name : TableName) : db.Agree db name := by
  cases name <;> rfl

/-- The tables a transaction may write. -/
def Tx.writes : Tx → List TableName
  | .createPersona _ => [.personas, .wallets]
  | .createFork _ => [.forks]
  | .activatePersona _ | .deactivatePersona _ => [.personas]
  | .requestTransfer .. => [.transfers]
  | .approveTransfer .. => [.personas, .transfers]
  | .addKnowledge .. | .addGovernanceEvent .. => [.growthEvents, .personas]
  | .openGovernanceCase .. => [.cases]
  | .applyGovernanceAction .. => [.actions, .cases, .personas, .growthEvents]
  | .appealGovernanceCase _ => [.cases]
  | .publishTask .. => [.tasks]
  | .applyToTask .. => [.applications]
  | .assignTask .. => [.assignments, .applications, .tasks]
  | .acceptTask .. => [.tasks, .assignments]
  | .createRuntimeSession .. | .executeRuntimeSession .. => [.sessions, .assignments]
  | .planRuntimeSession .. | .evaluateRuntimeSession .. | .completeRuntimeSession ..
  | .retryRuntimeSession .. | .timeoutRuntimeSession .. => [.sessions]
  | .submitTaskResult .. | .disputeTask .. => [.results, .assignments, .tasks]
  | .acceptSubmittedTask _ => [.results, .assignments, .tasks, .personas, .growthEvents]
  | .rejectSubmittedTask .. => [.results, .assignments, .applications, .tasks]
  | .completeTask _ =>
    [.tasks, .wallets, .settlements, .walletTransactions, .personas, .growthEvents]
  | .settleTaskPayment _ => [.settlements, .wallets, .walletTransactions]
  | .requestWalletPayout _ => [.payoutRequests, .wallets, .walletTransactions]

theorem exec_agree (env : Env) (t : Tx) (db : TenantDb) (name : TableName) (h : name ∉ t.writes) :
    db.Agree (exec env t db).1 name := by
  have h0 := TenantDb.Agree.refl db name
  cases t with
  | approveTransfer p x u =>
    rw [exec_approveTransfer]
    split
    · cases name <;> first | rfl | exact absurd (by simp [Tx.writes]) h
    · exact h0
  | openGovernanceCase p x sev =>
    rw [exec_openGovernanceCase]
    split
    · exact h0
    · cases name <;> first | rfl | exact absurd (by simp [Tx.writes]) h
  | applyGovernanceAction c p action dur actor next r =>
    rw [exec_applyGovernanceAction]
    split
    · cases name <;> first | rfl | exact absurd (by simp [Tx.writes]) h
    · exact h0
  | appealGovernanceCase c =>
    rw [exec_appealGovernanceCase]
    split
    · cases name <;> first | rfl | exact absurd (by simp [Tx.writes]) h
    · exact h0
  | applyToTask x p =>
    rw [exec_applyToTask]
    split
    · exact h0
    · cases name <;> first | rfl | exact absurd (by simp [Tx.writes]) h
  | acceptSubmittedTask a =>
    rw [exec_acceptSubmittedTask]
    split
    · cases name <;> first | rfl | exact absurd (by simp [Tx.writes]) h
    · exact h0
  | rejectSubmittedTask x a r app =>
    rw [exec_rejectSubmittedTask]
    split
    · cases name <;> first | rfl | exact absurd (by simp [Tx.writes]) h
    · exact h0
  | completeTask c =>
    obtain ⟨e, -⟩ | ⟨-, -, e⟩ := exec_completeTask_cases env db c
    · rw [e]
      exact h0
    · rw [e]
      cases name <;> first | rfl | exact absurd (by simp [Tx.writes]) h
  | settleTaskPayment input =>
    obtain e | ⟨_, _, _, -, -, -, e⟩ := exec_settle_cases env db input
    · rw [e]
      exact h0
    · rw [e]
      cases name <;> first | rfl | exact absurd (by simp [Tx.writes]) h
  | requestWalletPayout p =>
    obtain ⟨e, -⟩ | ⟨-, -, -, e⟩ := exec_payout_cases env db p
    · rw [e]
      exact h0
    · rw [e]
      cases name <;> first | rfl | exact absurd (by simp [Tx.writes]) h
  | addGovernanceEvent p r g next =>
    rw [exec_addGovernanceEvent]
    cases name <;> first | rfl | exact absurd (by simp [Tx.writes]) h
  | executeRuntimeSession s a ms =>
    rw [exec_executeRuntimeSession]
    cases name <;> first | rfl | exact absurd (by simp [Tx.writes]) h
  | disputeTask x a r =>
    rw [exec_disputeTask]
    cases name <;> first | rfl | exact absurd (by simp [Tx.writes]) h
  | _ => cases name <;> first | rfl | exact absurd (by simp [Tx.writes]) h

/-! ## Tasks and their assignments -/

section
variable {p : TaskAssignment → Prop} [DecidablePred p] {g : TaskAssignment → TaskAssignment}
  {rows : List TaskAssignment}

theorem update_fixed (hg : ∀ a, (g a).fixed = a.fixed) :
    (Table.update p g rows).map TaskAssignment.fixed = rows.map TaskAssignment.fixed :=
  Table.map_update fun a _ => hg a

end

theorem exec_assignments (env : Env) (db : TenantDb) (ht : ∀ x p a, t ≠ .assignTask x p a)
    (ht' : ∀ x p f, t ≠ .acceptTask x p f) :
    (exec env t db).1.assignments.map TaskAssignment.fixed =
      db.assignments.map TaskAssignment.fixed := by
  have ea : _ → _ = _ := exec_agree env t db .assignments
  cases t with
  | assignTask x p a => exact absurd rfl (ht x p a)
  | acceptTask x p f => exact absurd rfl (ht' x p f)
  | createRuntimeSession p x a ms =>
    rw [exec_createRuntimeSession]
    exact update_fixed fun _ => rfl
  | executeRuntimeSession s a ms =>
    rw [exec_executeRuntimeSession]
    exact update_fixed fun _ => rfl
  | submitTaskResult x a =>
    rw [exec_submitTaskResult]
    exact update_fixed fun _ => rfl
  | acceptSubmittedTask a =>
    rw [exec_acceptSubmittedTask]
    split
    · exact update_fixed fun _ => rfl
    · rfl
  | rejectSubmittedTask x a r app =>
    rw [exec_rejectSubmittedTask]
    split
    · exact update_fixed fun _ => rfl
    · rfl
  | disputeTask x a r =>
    rw [exec_disputeTask]
    exact update_fixed fun _ => rfl
  | _ => rw [ea (by simp [Tx.writes])]

theorem assignment_cases (env : Env) (t : Tx) (db : TenantDb) {a : TaskAssignment}
    (ha : a ∈ (exec env t db).1.assignments) :
    (∃ b ∈ db.assignments, b.fixed = a.fixed) ∨
    ((∃ p app, t = .assignTask a.taskId p app) ∨ ∃ p f, t = .acceptTask a.taskId p f) ∧
      a.id = db.assignments.length := by
  cases t with
  | assignTask x p app =>
    rcases List.mem_append.1 ha with ha | ha
    · exact .inl ⟨a, ha, rfl⟩
    · obtain rfl := List.mem_singleton.1 ha
      exact .inr ⟨.inl ⟨p, app, rfl⟩, rfl⟩
  | acceptTask x p f =>
    rcases List.mem_append.1 ha with ha | ha
    · exact .inl ⟨a, ha, rfl⟩
    · obtain rfl := List.mem_singleton.1 ha
      exact .inr ⟨.inr ⟨p, f, rfl⟩, rfl⟩
  | _ =>
    have h := List.mem_map_of_mem (f := TaskAssignment.fixed) ha
    rw [exec_assignments env db (by simp) (by simp)] at h
    exact .inl (List.mem_map.1 h)

theorem exec_closed {k : Id} (h : ∃ task ∈ db.tasks, task.id = k ∧ task.status ≠ .open)
    (hr : ∀ a r app, t = .rejectSubmittedTask k a r app →
      ¬ ∃ task ∈ db.tasks, task.id = k ∧ task.status = .accepted) :
    ∃ task ∈ (exec env t db).1.tasks, task.id = k ∧ task.status ≠ .open := by
  have et : _ → _ = _ := exec_agree env t db .tasks
  cases t with
  | publishTask u reward currency =>
    obtain ⟨task, htask, hk⟩ := h
    exact ⟨task, List.mem_append_left _ htask, hk⟩
  | assignTask x p a =>
    rw [exec_assignTask]
    exact Table.exists_mem_update h fun _ _ h => ⟨h.1, by simp [MarketplaceTask.assign]⟩
  | acceptTask x p f =>
    rw [exec_acceptTask]
    exact Table.exists_mem_update h fun _ _ h => ⟨h.1, by simp [MarketplaceTask.accept]⟩
  | submitTaskResult x a =>
    rw [exec_submitTaskResult]
    exact Table.exists_mem_update h fun _ _ h => h
  | acceptSubmittedTask a =>
    rw [exec_acceptSubmittedTask]
    split
    · exact Table.exists_mem_update h fun _ _ h => ⟨h.1, by simp [MarketplaceTask.complete]⟩
    · exact h
  | rejectSubmittedTask x a r app =>
    rw [exec_rejectSubmittedTask]
    split
    next hc =>
      by_cases hx : x = k
      · subst hx
        obtain ⟨task, htask, hp⟩ := List.countP_pos_iff.1 (hc ▸ Nat.one_pos)
        exact (hr a r app rfl ⟨task, htask, by simpa using hp⟩).elim
      · exact Table.exists_mem_update h fun _ hp h => (hx (hp.1.symm.trans h.1)).elim
    next => exact h
  | disputeTask x a r =>
    rw [exec_disputeTask]
    exact Table.exists_mem_update h fun _ _ h => h
  | completeTask c =>
    obtain ⟨e, -⟩ | ⟨-, -, e⟩ := exec_completeTask_cases env db c
    · rwa [e]
    · rw [e]
      exact Table.exists_mem_update h fun _ _ h => ⟨h.1, by simp [MarketplaceTask.complete]⟩
  | _ => rwa [et (by simp [Tx.writes])]

theorem exec_free (h : ∀ task ∈ db.tasks, task.status = .open → task.assigneePersonaId = none) :
    ∀ task ∈ (exec env t db).1.tasks, task.status = .open → task.assigneePersonaId = none := by
  have et : _ → _ = _ := exec_agree env t db .tasks
  cases t with
  | publishTask u reward currency =>
    intro task htask
    rcases List.mem_append.1 htask with htask | htask
    · exact h task htask
    · obtain rfl := List.mem_singleton.1 htask
      exact fun _ => rfl
  | assignTask x p a =>
    rw [exec_assignTask]
    exact Table.forall_mem_update h fun _ _ _ h => by cases h
  | acceptTask x p f =>
    rw [exec_acceptTask]
    exact Table.forall_mem_update h fun _ _ _ h => by cases h
  | submitTaskResult x a =>
    rw [exec_submitTaskResult]
    exact Table.forall_mem_update h fun _ _ h => h
  | acceptSubmittedTask a =>
    rw [exec_acceptSubmittedTask]
    split
    · exact Table.forall_mem_update h fun _ _ _ h => by cases h
    · exact h
  | rejectSubmittedTask x a r app =>
    rw [exec_rejectSubmittedTask]
    split
    · exact Table.forall_mem_update h fun _ _ _ _ => rfl
    · exact h
  | disputeTask x a r =>
    rw [exec_disputeTask]
    exact Table.forall_mem_update h fun _ _ h => h
  | completeTask c =>
    obtain ⟨e, -⟩ | ⟨-, -, e⟩ := exec_completeTask_cases env db c
    · rwa [e]
    · rw [e]
      exact Table.forall_mem_update h fun _ _ _ h => by cases h
  | _ => rwa [et (by simp [Tx.writes])]

end ChronoSynth.Persona
