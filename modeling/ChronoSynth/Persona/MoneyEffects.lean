import ChronoSynth.Persona.Effects

/-!
# What the payments do

The transactions that move money. The guard of the journal accepts exactly the rows whose sign is
the one of their type (`assertWalletMutationAllowed_eq_none`); a settlement and a direct completion
write a settlement row, change the balance and write the journal, a payout writes a request, changes
the balance and writes the journal.
-/

namespace ChronoSynth.Persona

variable (env : Env) (db : TenantDb)

/-! ## The journal -/

def SignOk (transactionType : WalletTransactionType) (amountMinor : ℤ) : Prop :=
  match WALLET_DIRECTION_MATRIX transactionType with
  | .credit => 0 < amountMinor
  | .debit => amountMinor < 0

/-- The guard lets a row pass exactly when its sign is right and no autonomous caller debits. -/
theorem assertWalletMutationAllowed_eq_none (actorType : WalletActorType)
    (transactionType : WalletTransactionType) (amountMinor : ℤ) :
    assertWalletMutationAllowed
        { actorType, direction := if amountMinor < 0 then .debit else .credit, transactionType,
          amountMinor := |amountMinor| } = none ↔
      SignOk transactionType amountMinor ∧ ¬ (amountMinor < 0 ∧ actorType = .autonomous) := by
  simp only [assertWalletMutationAllowed, SignOk]
  have habs : |amountMinor| ≤ 0 ↔ amountMinor = 0 := abs_nonpos_iff
  rcases lt_trichotomy amountMinor 0 with h | rfl | h
  · rw [if_neg (habs.not.2 h.ne), if_pos h]
    cases WALLET_DIRECTION_MATRIX transactionType with
    | credit => simp [h.not_gt]
    | debit => by_cases ha : actorType = .autonomous <;> simp [h, ha]
  · rw [if_pos (habs.2 rfl)]
    cases WALLET_DIRECTION_MATRIX transactionType <;> simp
  · rw [if_neg (habs.not.2 h.ne'), if_neg h.not_gt]
    cases WALLET_DIRECTION_MATRIX transactionType <;> simp [h, h.not_gt]

section
variable {env db} {walletId referenceId : Id} {transactionType : WalletTransactionType}
  {amountMinor : ℤ} {currency : String} {referenceType : ReferenceType}
  {actorType : WalletActorType}

theorem insertWalletTransactionInTx_eq (hs : SignOk transactionType amountMinor)
    (ha : ¬ (amountMinor < 0 ∧ actorType = .autonomous)) :
    insertWalletTransactionInTx env walletId transactionType amountMinor currency referenceType
        referenceId actorType db =
      .ok ((), { db with
        walletTransactions := db.walletTransactions ++
          [.create walletId env.now db.walletTransactions.length transactionType amountMinor
            currency referenceType referenceId] }) := by
  have h := (assertWalletMutationAllowed_eq_none actorType transactionType amountMinor).2 ⟨hs, ha⟩
  simp only [insertWalletTransactionInTx, h]
  rfl

/-- A row with the wrong sign rolls the transaction back. -/
theorem insertWalletTransactionInTx_error (env : Env) (db : TenantDb) (walletId referenceId : Id)
    (currency : String) (referenceType : ReferenceType) (actorType : WalletActorType)
    (hs : ¬ SignOk transactionType amountMinor) :
    ∃ m, insertWalletTransactionInTx env walletId transactionType amountMinor currency
      referenceType referenceId actorType db = .error (.ValidationError m) := by
  have h := mt (assertWalletMutationAllowed_eq_none actorType transactionType amountMinor).1
    (fun h => hs h.1)
  obtain ⟨m, hm⟩ := Option.ne_none_iff_exists'.1 h
  exact ⟨_, by simp only [insertWalletTransactionInTx, hm]; rfl⟩

end

/-! ## Payouts -/

section payouts
variable (p : WalletPayout)

def WalletPayout.KeyTaken : Prop :=
  p.idempotencyKey ≠ none ∧ ∃ r ∈ db.payoutRequests, r.idempotencyKey = p.idempotencyKey

instance : Decidable (p.KeyTaken db) := inferInstanceAs (Decidable (_ ∧ _))

def WalletPayout.Covered (w : PersonaWallet) : Prop :=
  w.id = p.walletId ∧ (p.amountMinor : ℚ) ≤ sqlRound (w.balance * 100)

instance : DecidablePred p.Covered := fun _ => inferInstanceAs (Decidable (_ ∧ _))

/-- The tables after a payout. -/
def WalletPayout.paid : TenantDb :=
  { db with
    payoutRequests := db.payoutRequests ++ [p.request env db.payoutRequests.length]
    wallets := Table.update p.Covered (·.debit env.now p.amountMinor) db.wallets
    walletTransactions := db.walletTransactions ++
      [.create p.walletId env.now db.walletTransactions.length .owner_payout (-p.amountMinor)
        p.currency .wallet_payout_request db.payoutRequests.length] }

variable {env db p}

theorem exec_payout_taken (h : p.KeyTaken db) :
    exec env (.requestWalletPayout p) db =
      (db, .failed (.UniqueViolation .wallet_payout_idempotency)) :=
  exec_of_error ((TxM.bind_of_ok rfl).trans (TxM.bind_of_error (if_pos h)))

theorem exec_payout_insufficient (h : ¬ p.KeyTaken db) (hc : db.wallets.countP p.Covered ≠ 1) :
    exec env (.requestWalletPayout p) db = (db, .failed .INSUFFICIENT) := by
  refine exec_of_error ((TxM.bind_of_ok rfl).trans ((TxM.bind_of_ok (if_neg h)).trans ?_))
  exact (TxM.bind_of_ok rfl).trans ((TxM.ite_of_pos hc).trans rfl)

theorem exec_payout_paid (h : ¬ p.KeyTaken db) (hc : db.wallets.countP p.Covered = 1)
    (hp : 0 < p.amountMinor) :
    exec env (.requestWalletPayout p) db =
      (p.paid env db, .inserted db.payoutRequests.length) := by
  refine exec_of_ok ((TxM.bind_of_ok rfl).trans ((TxM.bind_of_ok (if_neg h)).trans ?_))
  refine (TxM.bind_of_ok rfl).trans ((TxM.ite_of_neg (not_not.2 hc)).trans ?_)
  refine (TxM.bind_of_ok (insertWalletTransactionInTx_eq ?_ (by simp))).trans rfl
  simpa [SignOk, WALLET_DIRECTION_MATRIX] using hp

theorem exec_payout_refused (env : Env) (h : ¬ p.KeyTaken db) (hc : db.wallets.countP p.Covered = 1)
    (hp : ¬ 0 < p.amountMinor) :
    ∃ m, exec env (.requestWalletPayout p) db = (db, .failed (.ValidationError m)) := by
  have hs : ¬ SignOk .owner_payout (-p.amountMinor) := by
    simpa [SignOk, WALLET_DIRECTION_MATRIX] using hp
  obtain ⟨m, hm⟩ := insertWalletTransactionInTx_error env
    { db with
      payoutRequests := db.payoutRequests ++ [p.request env db.payoutRequests.length]
      wallets := Table.update p.Covered (·.debit env.now p.amountMinor) db.wallets }
    p.walletId db.payoutRequests.length p.currency .wallet_payout_request .human hs
  refine ⟨m, exec_of_error ((TxM.bind_of_ok rfl).trans ((TxM.bind_of_ok (if_neg h)).trans ?_))⟩
  refine (TxM.bind_of_ok rfl).trans ((TxM.ite_of_neg (not_not.2 hc)).trans ?_)
  exact TxM.bind_of_error hm

/-- **What a payout can do**: nothing, or it has a new key, is covered by its wallet and is paid. -/
theorem exec_payout_cases (env : Env) (db : TenantDb) (p : WalletPayout) :
    ((exec env (.requestWalletPayout p) db).1 = db ∧
      ∃ e, (exec env (.requestWalletPayout p) db).2 = .failed e) ∨
    (¬ p.KeyTaken db ∧ db.wallets.countP p.Covered = 1 ∧ 0 < p.amountMinor ∧
      exec env (.requestWalletPayout p) db =
        (p.paid env db, .inserted db.payoutRequests.length)) := by
  by_cases h : p.KeyTaken db
  · exact .inl ⟨by rw [exec_payout_taken h], _, by rw [exec_payout_taken h]⟩
  by_cases hc : db.wallets.countP p.Covered = 1
  · by_cases hp : 0 < p.amountMinor
    · exact .inr ⟨h, hc, hp, exec_payout_paid h hc hp⟩
    · obtain ⟨m, hm⟩ := exec_payout_refused env h hc hp
      exact .inl ⟨by rw [hm], _, by rw [hm]⟩
  · exact .inl ⟨by rw [exec_payout_insufficient h hc], _, by rw [exec_payout_insufficient h hc]⟩

end payouts

/-! ## Settlements -/

section settlements
variable (s : TaskWalletSettlement)

/-- The journal of a settlement, from the `n`-th row on: the payment, and what goes to the platform
and to the persona, if anything does. -/
def TaskWalletSettlement.journal (n : ℕ) : List WalletTransaction :=
  let row := fun id transactionType amountMinor => WalletTransaction.create s.walletId env.now id
    transactionType amountMinor s.currency .wallet_settlement s.id
  let fee := if 0 < s.platformAmountMinor then
    [row (n + 1) .platform_fee (-s.platformAmountMinor)] else []
  let reserve := if 0 < s.personaAmountMinor then
    [row (n + 1 + fee.length) .persona_reserve (-s.personaAmountMinor)] else []
  row n .task_payment s.totalAmountMinor :: (fee ++ reserve)

/-- The tables after a settlement. -/
def TaskWalletSettlement.settled : TenantDb :=
  { db with
    settlements := db.settlements ++ [s]
    wallets := Table.update (fun w => w.id = s.walletId ∧ w.currency = s.currency)
      (·.settle env.now (fromMinor s.ownerAmountMinor) (fromMinor s.personaAmountMinor)) db.wallets
    walletTransactions := db.walletTransactions ++ s.journal env db.walletTransactions.length }

variable {env db s}

theorem getWalletSettlementByAssignmentId_eq_none {assignmentId : Id} :
    getWalletSettlementByAssignmentId db assignmentId = none ↔
      ¬ ∃ s ∈ db.settlements, s.assignmentId = assignmentId := by
  simp [getWalletSettlementByAssignmentId]

theorem get_settled (env : Env) (h : getWalletSettlementByAssignmentId db s.assignmentId = none) :
    getWalletSettlementByAssignmentId (s.settled env db) s.assignmentId = some s := by
  have h' : db.settlements.find? (fun x => x.assignmentId = s.assignmentId) = none := h
  simp [getWalletSettlementByAssignmentId, TaskWalletSettlement.settled, h']

theorem insertShare_eq {share : ℤ} (transactionType : WalletTransactionType) {rest : TxM Reply}
    (hd : WALLET_DIRECTION_MATRIX transactionType = .debit) :
    (do
      if 0 < share then
        insertWalletTransactionInTx env s.walletId transactionType (-share) s.currency
          .wallet_settlement s.id
      rest : TxM Reply) db =
    rest { db with
      walletTransactions := db.walletTransactions ++ if 0 < share then
        [.create s.walletId env.now db.walletTransactions.length transactionType (-share)
          s.currency .wallet_settlement s.id] else [] } := by
  by_cases h : 0 < share
  · have hs : SignOk transactionType (-share) := by simpa [SignOk, hd] using h
    refine (TxM.ite_of_pos h).trans ?_
    rw [if_pos h]
    exact TxM.bind_of_ok (insertWalletTransactionInTx_eq hs (by simp))
  · refine (TxM.ite_of_neg h).trans ?_
    rw [if_neg h, List.append_nil]

/-- A settlement of a positive amount on an assignment that has none is written, with its journal,
and nothing rolls it back. -/
theorem writeSettlement_eq (h : getWalletSettlementByAssignmentId db s.assignmentId = none)
    (ht : 0 < s.totalAmountMinor) :
    writeSettlement env s db = .ok (.settled (some s), s.settled env db) := by
  refine (TxM.bind_of_ok (if_neg (getWalletSettlementByAssignmentId_eq_none.1 h))).trans ?_
  refine (TxM.bind_of_ok rfl).trans ?_
  refine (TxM.bind_of_ok (insertWalletTransactionInTx_eq (by simpa [SignOk]) (by simp))).trans ?_
  refine (insertShare_eq .platform_fee rfl).trans ?_
  refine (insertShare_eq .persona_reserve rfl).trans ?_
  -- what has been built up step by step is `settled`
  have hdb : ∀ db', db' = s.settled env db →
      (do return .settled (getWalletSettlementByAssignmentId (← get) s.assignmentId) : TxM Reply)
        db' = .ok (.settled (some s), s.settled env db) := by
    rintro db' rfl
    rw [← get_settled env h]
    rfl
  refine hdb _ ?_
  simp only [TaskWalletSettlement.settled, TaskWalletSettlement.journal, TenantDb.mk.injEq,
    true_and, and_true, PersonaWallet.settle]
  split_ifs <;> simp

end settlements

/-! ## `settleTaskPayment` -/

/-- What a settlement looks up and checks of the rows: the caller publishes the task, the assignment
is one of the task and of its assignee, and the assignee has an active wallet. -/
structure Settles (db : TenantDb) (input : SettleTaskPaymentInput) (task : MarketplaceTask)
    (assignment : TaskAssignment) (wallet : PersonaWallet) : Prop where
  task_eq : getMarketplaceTask db input.taskId = some task
  publisher : task.publisherUserId = input.actorUserId
  assignment_eq : getTaskAssignmentById db input.assignmentId = some assignment
  of_task : assignment.taskId = input.taskId
  assignee : task.assigneePersonaId = some assignment.personaId
  wallet_eq : getWalletByPersonaId db assignment.personaId = some wallet
  active : wallet.status = .active

/-- What it checks of the payment. -/
structure PaysReward (input : SettleTaskPaymentInput) (task : MarketplaceTask)
    (wallet : PersonaWallet) : Prop where
  currency : input.currency = wallet.currency
  positive : 0 < mathRound input.totalAmountMinor
  reward : mathRound input.totalAmountMinor = toMinor task.reward
  split : input.split.ownerPct + input.split.personaPct + input.split.platformPct = 100

section settleTaskPayment
variable {env db} {input : SettleTaskPaymentInput} {task : MarketplaceTask}
  {assignment : TaskAssignment} {wallet : PersonaWallet} {s : TaskWalletSettlement}

theorem exec_settle_existing (h : Settles db input task assignment wallet)
    (hs : getWalletSettlementByAssignmentId db input.assignmentId = some s) :
    exec env (.settleTaskPayment input) db = (db, .settled (some s)) := by
  have hp : ¬ (task.publisherUserId ≠ input.actorUserId ∨ task.assigneePersonaId = none) := by
    simp [h.publisher, h.assignee]
  have ha : ¬ (assignment.taskId ≠ input.taskId ∨
      some assignment.personaId ≠ task.assigneePersonaId) := by
    simp [h.of_task, h.assignee]
  refine exec_of_ok ((TxM.bind_of_ok rfl).trans ?_)
  simp only [h.task_eq, h.assignment_eq, h.wallet_eq, hs]
  refine (TxM.ite_of_neg hp).trans ((TxM.ite_of_neg ha).trans ?_)
  exact (TxM.ite_of_neg (not_not.2 h.active)).trans rfl

/-- A payment that passes every check is written. -/
theorem exec_settle_paid (h : Settles db input task assignment wallet)
    (hs : getWalletSettlementByAssignmentId db input.assignmentId = none)
    (hr : PaysReward input task wallet) :
    exec env (.settleTaskPayment input) db =
      ((input.settlement env db.settlements.length wallet.id).settled env db,
        .settled (some (input.settlement env db.settlements.length wallet.id))) := by
  have hp : ¬ (task.publisherUserId ≠ input.actorUserId ∨ task.assigneePersonaId = none) := by
    simp [h.publisher, h.assignee]
  have ha : ¬ (assignment.taskId ≠ input.taskId ∨
      some assignment.personaId ≠ task.assigneePersonaId) := by
    simp [h.of_task, h.assignee]
  refine exec_of_ok ((TxM.bind_of_ok rfl).trans ?_)
  simp only [h.task_eq, h.assignment_eq, h.wallet_eq, hs]
  refine (TxM.ite_of_neg hp).trans ((TxM.ite_of_neg ha).trans ?_)
  refine (TxM.ite_of_neg (not_not.2 h.active)).trans ?_
  refine (TxM.ite_of_neg (not_not.2 hr.currency)).trans ?_
  refine (TxM.ite_of_neg (not_le.2 hr.positive)).trans ?_
  refine (TxM.ite_of_neg (not_not.2 hr.reward)).trans ?_
  refine (TxM.ite_of_neg (not_not.2 hr.split)).trans ?_
  exact (TxM.bind_of_ok rfl).trans (writeSettlement_eq hs hr.positive)

/-- **What a settlement can do**: nothing, or it passes every check and is written. -/
theorem exec_settle_cases (env : Env) (db : TenantDb) (input : SettleTaskPaymentInput) :
    (exec env (.settleTaskPayment input) db).1 = db ∨
    ∃ task assignment wallet, Settles db input task assignment wallet ∧
      getWalletSettlementByAssignmentId db input.assignmentId = none ∧
      PaysReward input task wallet ∧
      exec env (.settleTaskPayment input) db =
        ((input.settlement env db.settlements.length wallet.id).settled env db,
          .settled (some (input.settlement env db.settlements.length wallet.id))) := by
  by_cases hpay : ∃ task assignment wallet, Settles db input task assignment wallet ∧
      getWalletSettlementByAssignmentId db input.assignmentId = none ∧ PaysReward input task wallet
  · obtain ⟨task, assignment, wallet, h, hs, hr⟩ := hpay
    exact .inr ⟨task, assignment, wallet, h, hs, hr, exec_settle_paid h hs hr⟩
  -- every way out of the transaction but the last leaves the tables alone
  refine .inl (exec_of_idle (TxM.Idle.get ?_))
  cases htask : getMarketplaceTask db input.taskId with
  | none => exact TxM.Idle.pure
  | some task =>
  refine TxM.Idle.ite (fun _ => .pure) fun hp => ?_
  rw [not_or, not_not] at hp
  cases hassignment : getTaskAssignmentById db input.assignmentId with
  | none => exact TxM.Idle.pure
  | some assignment =>
  refine TxM.Idle.ite (fun _ => .pure) fun ha => ?_
  rw [not_or, not_not, not_not] at ha
  cases hwallet : getWalletByPersonaId db assignment.personaId with
  | none => exact TxM.Idle.pure
  | some wallet =>
  refine TxM.Idle.ite (fun _ => .pure) fun hactive => ?_
  have h : Settles db input task assignment wallet :=
    ⟨htask, hp.1, hassignment, ha.1, ha.2.symm, hwallet, not_not.1 hactive⟩
  cases hs : getWalletSettlementByAssignmentId db input.assignmentId with
  | some s => exact TxM.Idle.pure
  | none =>
  refine TxM.Idle.ite (fun _ => .throw) fun hcurrency => ?_
  refine TxM.Idle.ite (fun _ => .pure) fun hpos => ?_
  refine TxM.Idle.ite (fun _ => .pure) fun hreward => ?_
  refine TxM.Idle.ite (fun _ => .pure) fun hsplit => ?_
  exact (hpay ⟨task, assignment, wallet, h, hs,
    ⟨not_not.1 hcurrency, not_le.1 hpos, not_not.1 hreward, not_not.1 hsplit⟩⟩).elim

end settleTaskPayment

/-! ## `completeTask` -/

section completeTask
variable (c : TaskCompletion)

/-- The settlement a completion writes, if it pays anything. -/
def TaskCompletion.settlements (n : ℕ) : List TaskWalletSettlement :=
  if 0 < c.payoutMinor then [c.settlement env n] else []

/-- The tables after a completion. -/
def TaskCompletion.completed : TenantDb :=
  { db with
    tasks := Table.update (fun t => t.id = c.taskId ∧ t.status = .accepted)
      (·.complete env.now c.qualityScore c.growthDelta) db.tasks
    wallets := Table.update (·.personaId = c.personaId)
      (·.credit env.now c.payout c.tokenReward) db.wallets
    settlements := db.settlements ++ c.settlements env db.settlements.length
    walletTransactions := db.walletTransactions ++
      (c.settlements env db.settlements.length).flatMap
        (·.journal env db.walletTransactions.length)
    personas := Table.update (·.id = c.personaId)
      (·.taskCompleted env.now c.growthDelta c.reputationDelta c.ownerTrainingHours) db.personas
    growthEvents := db.growthEvents ++
      [⟨db.growthEvents.length, c.personaId, some c.taskId, .task_completed, c.growthDelta,
        c.reputationDelta, c.ownerTrainingHours, env.now⟩] }

variable {env db c}

theorem TaskCompletion.journal_settlement {n m : ℕ} : (c.settlement env n).journal env m =
    [.create c.walletId env.now m .task_payment c.payoutMinor c.currency .wallet_settlement n] := by
  simp [TaskWalletSettlement.journal, TaskCompletion.settlement]

theorem exec_completeTask_lost (env : Env)
    (h : db.tasks.countP (fun t => t.id = c.taskId ∧ t.status = .accepted) ≠ 1) :
    exec env (.completeTask c) db = (db, .failed .LeaseLostError) :=
  exec_of_error ((TxM.bind_of_ok rfl).trans ((TxM.ite_of_pos h).trans rfl))

theorem exec_completeTask_settled (env : Env)
    (h : db.tasks.countP (fun t => t.id = c.taskId ∧ t.status = .accepted) = 1)
    (hp : 0 < c.payoutMinor) (hs : ∃ s ∈ db.settlements, s.assignmentId = c.assignmentId) :
    exec env (.completeTask c) db =
      (db, .failed (.UniqueViolation .wallet_settlements_assignment)) := by
  refine exec_of_error ((TxM.bind_of_ok rfl).trans ((TxM.ite_of_neg (not_not.2 h)).trans ?_))
  refine (TxM.bind_of_ok rfl).trans ((TxM.ite_of_pos hp).trans ?_)
  exact (TxM.bind_of_ok generateId_eq).trans (TxM.bind_of_error (if_pos hs))

theorem exec_completeTask_completed
    (h : db.tasks.countP (fun t => t.id = c.taskId ∧ t.status = .accepted) = 1)
    (hs : 0 < c.payoutMinor → ¬ ∃ s ∈ db.settlements, s.assignmentId = c.assignmentId) :
    exec env (.completeTask c) db = (c.completed env db, .committed) := by
  refine exec_of_ok ((TxM.bind_of_ok rfl).trans ((TxM.ite_of_neg (not_not.2 h)).trans ?_))
  refine (TxM.bind_of_ok rfl).trans ?_
  by_cases hp : 0 < c.payoutMinor
  · have hsign : SignOk .task_payment c.payoutMinor := hp
    simp only [TaskCompletion.completed, TaskCompletion.settlements, if_pos hp,
      List.flatMap_singleton, TaskCompletion.journal_settlement]
    refine (TxM.bind_of_ok generateId_eq).trans ((TxM.bind_of_ok (if_neg (hs hp))).trans ?_)
    exact (TxM.bind_of_ok (insertWalletTransactionInTx_eq hsign (by simp))).trans rfl
  · simp only [TaskCompletion.completed, TaskCompletion.settlements, if_neg hp, List.append_nil,
      List.flatMap_nil]
    rfl

/-- **What a completion can do**: nothing, or it wins the task, whose anchor is not settled if there
is anything to pay, and completes it. -/
theorem exec_completeTask_cases (env : Env) (db : TenantDb) (c : TaskCompletion) :
    ((exec env (.completeTask c) db).1 = db ∧
      ∃ e, (exec env (.completeTask c) db).2 = .failed e) ∨
    (db.tasks.countP (fun t => t.id = c.taskId ∧ t.status = .accepted) = 1 ∧
      (0 < c.payoutMinor → ¬ ∃ s ∈ db.settlements, s.assignmentId = c.assignmentId) ∧
      exec env (.completeTask c) db = (c.completed env db, .committed)) := by
  by_cases h : db.tasks.countP (fun t => t.id = c.taskId ∧ t.status = .accepted) = 1
  · by_cases hs : 0 < c.payoutMinor → ¬ ∃ s ∈ db.settlements, s.assignmentId = c.assignmentId
    · exact .inr ⟨h, hs, exec_completeTask_completed h hs⟩
    · rw [Classical.not_imp, not_not] at hs
      have he := exec_completeTask_settled env h hs.1 hs.2
      exact .inl ⟨by rw [he], _, by rw [he]⟩
  · have he := exec_completeTask_lost env h
    exact .inl ⟨by rw [he], _, by rw [he]⟩

end completeTask

end ChronoSynth.Persona
