import ChronoSynth.Persona.Growth

/-!
# What the calls hand over

A call hands over values it has read or computed; `Tx.Backed` says what still holds of them when the
transaction is executed, whatever has happened in between: the rows are there, with the columns that
do not change. In return every transaction leaves the tables tidy (`exec_tidy`).
-/

namespace ChronoSynth.Persona

variable {env : Env} {t : Tx} {db db' : TenantDb}

/-! ## Tidy tables -/

/-- What every transaction may assume of the tables. -/
structure TenantDb.Tidy (db : TenantDb) : Prop where
  /-- The rows are numbered. -/
  numbered : db.Numbered
  owned : Table.Numbered PersonaWallet.personaId db.wallets ∧
    db.wallets.length = db.personas.length
  rewards : ∀ task ∈ db.tasks, 0 < task.reward ∧ task.currency = WALLET_CURRENCY
  /-- Every case is about a persona. -/
  cased : ∀ c ∈ db.cases, ∃ pc ∈ db.personas, pc.id = c.personaId

theorem TenantDb.Tidy.fresh (users : List Id) : (TenantDb.fresh users).Tidy :=
  ⟨.fresh users, ⟨rfl, rfl⟩, by simp [TenantDb.fresh], by simp [TenantDb.fresh]⟩

/-! ## Backed transactions -/

/-- The values of an acceptance: the assignment is one of the task and of the persona, the result is
one of the assignment. -/
structure TaskAcceptance.Backed (db : TenantDb) (a : TaskAcceptance) : Prop where
  assignment : ∃ x ∈ db.assignments, x.id = a.assignmentId ∧ x.taskId = a.taskId ∧
    x.personaId = a.personaId
  result : ∃ r ∈ db.results, r.id = a.resultId ∧ r.assignmentId = a.assignmentId

/-- The values of a direct completion: the anchor is an assignment of the task, the wallet is the
one of the persona, and the amount is not negative and the same in both units. -/
structure TaskCompletion.Backed (db : TenantDb) (c : TaskCompletion) : Prop where
  anchor : ∃ x ∈ db.assignments, x.id = c.assignmentId ∧ x.taskId = c.taskId
  wallet : ∃ w ∈ db.wallets, w.id = c.walletId ∧ w.personaId = c.personaId
  nonneg : 0 ≤ c.payoutMinor
  payout : c.payout = c.payoutMinor / 100

/-- What a call guarantees about a transaction at the moment it is executed. -/
def Tx.Backed (db : TenantDb) : Tx → Prop
  | .publishTask _ reward currency => 0 < reward ∧ currency = WALLET_CURRENCY
  | .addGovernanceEvent _ _ _ nextStatus => nextStatus ≠ some .active
  | .applyGovernanceAction c p actionType _ _ nextStatus _ =>
    (∃ g ∈ db.cases, g.id = c ∧ g.personaId = p) ∧
      ∃ status, nextStatus = resolvePersonaStatusForAction status actionType
  | .acceptSubmittedTask a => a.Backed db
  | .completeTask c => c.Backed db
  | _ => True

/-! ### Tables stay tidy -/

theorem exec_owned (h : Table.Numbered PersonaWallet.personaId db.wallets ∧
    db.wallets.length = db.personas.length) :
    Table.Numbered PersonaWallet.personaId (exec env t db).1.wallets ∧
      (exec env t db).1.wallets.length = (exec env t db).1.personas.length := by
  -- an update of the wallets keeps their personas, one of the personas their number
  have hw : ∀ {p : PersonaWallet → Prop} [DecidablePred p] {g : PersonaWallet → PersonaWallet},
      (∀ w, (g w).personaId = w.personaId) →
      Table.Numbered PersonaWallet.personaId (Table.update p g db.wallets) :=
    fun hg => h.1.update fun w _ => hg w
  have ew : _ → _ = _ := exec_agree env t db .wallets
  have ep : _ → _ = _ := exec_agree env t db .personas
  cases t with
  | createPersona u => exact ⟨h.1.append h.2.symm, by simp [exec_createPersona, h.2]⟩
  | activatePersona p => exact ⟨h.1, by simpa [exec_activatePersona] using h.2⟩
  | deactivatePersona p => exact ⟨h.1, by simpa [exec_deactivatePersona] using h.2⟩
  | approveTransfer p x u =>
    rw [exec_approveTransfer]
    split
    · exact ⟨h.1, by simpa using h.2⟩
    · exact h
  | addKnowledge p g r => exact ⟨h.1, by simpa [exec_addKnowledge] using h.2⟩
  | addGovernanceEvent p r g next =>
    rw [exec_addGovernanceEvent]
    exact ⟨h.1, by simpa using h.2⟩
  | applyGovernanceAction c p action dur actor next r =>
    rw [exec_applyGovernanceAction]
    split
    · exact ⟨h.1, by simpa using h.2⟩
    · exact h
  | acceptSubmittedTask a =>
    rw [exec_acceptSubmittedTask]
    split
    · exact ⟨h.1, by simpa using h.2⟩
    · exact h
  | completeTask c =>
    obtain ⟨e, -⟩ | ⟨-, -, e⟩ := exec_completeTask_cases env db c
    · rwa [e]
    · rw [e]
      exact ⟨hw fun _ => rfl, by simpa [TaskCompletion.completed] using h.2⟩
  | settleTaskPayment input =>
    obtain e | ⟨_, _, _, -, -, -, e⟩ := exec_settle_cases env db input
    · rwa [e]
    · rw [e]
      exact ⟨hw fun _ => rfl, by simpa [TaskWalletSettlement.settled] using h.2⟩
  | requestWalletPayout p =>
    obtain ⟨e, -⟩ | ⟨-, -, -, e⟩ := exec_payout_cases env db p
    · rwa [e]
    · rw [e]
      exact ⟨hw fun _ => rfl, by simpa [WalletPayout.paid] using h.2⟩
  | _ =>
    rw [← ew (by simp [Tx.writes]), ← ep (by simp [Tx.writes])] at h
    exact h

/-- Only `publishTask` makes tasks, and no transaction changes what they pay. -/
theorem exec_rewards (h : ∀ task ∈ db.tasks, 0 < task.reward ∧ task.currency = WALLET_CURRENCY)
    (hb : t.Backed db) :
    ∀ task ∈ (exec env t db).1.tasks, 0 < task.reward ∧ task.currency = WALLET_CURRENCY := by
  have et : _ → _ = _ := exec_agree env t db .tasks
  cases t with
  | publishTask u reward currency =>
    intro task htask
    rcases List.mem_append.1 htask with htask | htask
    · exact h task htask
    · obtain rfl := List.mem_singleton.1 htask
      exact hb
  | assignTask x p a =>
    rw [exec_assignTask]
    exact Table.forall_mem_update h fun _ _ h => h
  | acceptTask x p f =>
    rw [exec_acceptTask]
    exact Table.forall_mem_update h fun _ _ h => h
  | submitTaskResult x a =>
    rw [exec_submitTaskResult]
    exact Table.forall_mem_update h fun _ _ h => h
  | acceptSubmittedTask a =>
    rw [exec_acceptSubmittedTask]
    split
    · exact Table.forall_mem_update h fun _ _ h => h
    · exact h
  | rejectSubmittedTask x a r app =>
    rw [exec_rejectSubmittedTask]
    split
    · exact Table.forall_mem_update h fun _ _ h => h
    · exact h
  | disputeTask x a r =>
    rw [exec_disputeTask]
    exact Table.forall_mem_update h fun _ _ h => h
  | completeTask c =>
    obtain ⟨e, -⟩ | ⟨-, -, e⟩ := exec_completeTask_cases env db c
    · rwa [e]
    · rw [e]
      exact Table.forall_mem_update h fun _ _ h => h
  | _ => rwa [et (by simp [Tx.writes])]

theorem exec_cased (h : ∀ c ∈ db.cases, ∃ pc ∈ db.personas, pc.id = c.personaId) :
    ∀ c ∈ (exec env t db).1.cases, ∃ pc ∈ (exec env t db).1.personas, pc.id = c.personaId := by
  -- the personas stay, so only the cases matter
  have hstay : ∀ p, (∃ pc ∈ db.personas, pc.id = p) →
      ∃ pc ∈ (exec env t db).1.personas, pc.id = p := by
    rintro p ⟨pc, hpc, rfl⟩
    obtain ⟨pc', hpc', he⟩ := (exec_grows env t db).personas.stay pc hpc
    exact ⟨pc', hpc', congrArg Prod.fst he⟩
  suffices hc : ∀ c ∈ (exec env t db).1.cases, ∃ pc ∈ db.personas, pc.id = c.personaId from
    fun c hmem => hstay _ (hc c hmem)
  have ec : _ → _ = _ := exec_agree env t db .cases
  cases t with
  | openGovernanceCase p x sev =>
    rw [exec_openGovernanceCase]
    cases hp : getPersonaById db p with
    | none => exact h
    | some pc =>
      intro c hc
      rcases List.mem_append.1 hc with hc | hc
      · exact h c hc
      · obtain rfl := List.mem_singleton.1 hc
        exact ⟨pc, Table.find_spec hp⟩
  | applyGovernanceAction c p action dur actor next r =>
    rw [exec_applyGovernanceAction]
    split
    · exact Table.forall_mem_update h fun _ _ h => h
    · exact h
  | appealGovernanceCase c =>
    rw [exec_appealGovernanceCase]
    split
    · exact Table.forall_mem_update h fun _ _ h => h
    · exact h
  | _ => rwa [ec (by simp [Tx.writes])]

/-- **A backed transaction leaves the tables tidy.** -/
theorem exec_tidy (h : db.Tidy) (hb : t.Backed db) : (exec env t db).1.Tidy where
  numbered := (exec_grows env t db).numbered_of h.numbered
  owned := exec_owned h.owned
  rewards := exec_rewards h.rewards hb
  cased := exec_cased h.cased

end ChronoSynth.Persona
