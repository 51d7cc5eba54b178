import ChronoSynth.Persona.Payments

/-!
# Tasks are paid once

A task is paid by a settlement, written by `settleTaskPayment` or by `completeTask` together with
one payment in the journal; the two agree in every run (`Posted`). What is unique is the settlement
of an assignment, so a task is paid twice if it is paid on two of its assignments.

`paidOnce_iff` says when this happens: a payment finds a settlement of its task (`PaysUnpaid`). It
also says what rules it out (`KeepsPaid`): a task that has a settlement is not reopened, only open
tasks are taken, and payments are made on the newest assignment.
-/

namespace ChronoSynth.Persona

variable {env : Env} {t : Tx} {db : TenantDb} {taskId assignmentId : Id}

/-! ## Payments -/

def paymentsOf (db : TenantDb) (taskId : Id) : List WalletTransaction :=
  db.walletTransactions.filter fun x => x.transactionType = .task_payment ∧
    ∃ s ∈ db.settlements, s.taskId = taskId ∧ x.referenceId = some s.id

/-- Every task has at most one settlement and at most one payment. -/
def PaidOnce (db : TenantDb) : Prop :=
  ∀ taskId, db.settlements.countP (fun s => s.taskId = taskId) ≤ 1 ∧
    (paymentsOf db taskId).length ≤ 1

/-- The payments in the journal are those of the settlements, in the same order. -/
def Posted (db : TenantDb) : Prop :=
  (db.walletTransactions.filter fun x => x.transactionType = .task_payment).map
    WalletTransaction.referenceId = db.settlements.map fun s => some s.id

theorem Posted.length_paymentsOf (h : Posted db) (hn : db.Numbered) (taskId : Id) :
    (paymentsOf db taskId).length = db.settlements.countP fun s => s.taskId = taskId := by
  have hsplit : paymentsOf db taskId =
      (db.walletTransactions.filter fun x => x.transactionType = .task_payment).filter
        fun x => ∃ s ∈ db.settlements, s.taskId = taskId ∧ x.referenceId = some s.id := by
    rw [paymentsOf, List.filter_filter]
    exact List.filter_congr fun x _ => by rw [Bool.decide_and, Bool.and_comm]
  have hcount : ∀ rows : List WalletTransaction,
      rows.countP (fun x => ∃ s ∈ db.settlements, s.taskId = taskId ∧ x.referenceId = some s.id) =
        (rows.map WalletTransaction.referenceId).countP
          fun ref => ∃ s ∈ db.settlements, s.taskId = taskId ∧ ref = some s.id := by
    intro rows
    rw [List.countP_map]
    rfl
  rw [hsplit, ← List.countP_eq_length_filter, hcount, h, List.countP_map]
  refine List.countP_congr fun s hs => ?_
  simp only [Function.comp_apply, decide_eq_true_eq, Option.some.injEq]
  refine ⟨fun ⟨s', hs', ht, he⟩ => ?_, fun ht => ⟨s, hs, ht, rfl⟩⟩
  rwa [hn.settlements.eq hs hs' he]

/-- The payments follow the settlements. -/
theorem Posted.step (h : Posted db) (env : Env) (t : Tx) (hn : db.Numbered) :
    Posted (exec env t db).1 := by
  obtain ⟨s, -, -, hs, hw⟩ | ⟨-, hs, hw⟩ := exec_pays env t hn
  · rw [Posted, hs, hw, List.filter_append, List.map_append, List.map_append, h,
      s.payments_journal]
    rfl
  · rwa [Posted, hs, hw]

theorem paidOnce_iff_settlements (h : Posted db) (hn : db.Numbered) :
    PaidOnce db ↔ ∀ taskId, db.settlements.countP (fun s => s.taskId = taskId) ≤ 1 := by
  refine forall_congr' fun taskId => ?_
  rw [h.length_paymentsOf hn, and_self]

/-! ## When a task is paid twice -/

/-- A payment finds that no assignment of its task has been paid. -/
def PaysUnpaid (t : Tx) (db : TenantDb) : Prop :=
  ∀ taskId assignmentId, t.Pays db taskId assignmentId → ∀ s ∈ db.settlements, s.taskId ≠ taskId

/-- **Step lemma**: a task stays paid at most once exactly if nobody pays a paid one. -/
theorem exec_settledOnce (hn : db.Numbered)
    (h : ∀ taskId, db.settlements.countP (fun s => s.taskId = taskId) ≤ 1) :
    (∀ taskId, (exec env t db).1.settlements.countP (fun s => s.taskId = taskId) ≤ 1) ↔
      PaysUnpaid t db := by
  obtain ⟨s, hp, -, hs, -⟩ | ⟨hp, hs, -⟩ := exec_pays env t hn
  · rw [hs]
    constructor
    · intro h' x a hp' s' hs' he
      -- the payment and the settlement it finds are two of one task
      obtain rfl := hp.unique hp'
      have htwo := h' s.taskId
      rw [List.countP_append, List.countP_singleton, if_pos (by simp)] at htwo
      have hpos : 0 < db.settlements.countP fun s' => s'.taskId = s.taskId :=
        List.countP_pos_iff.2 ⟨s', hs', by simpa using he⟩
      omega
    · intro hu x
      rw [List.countP_append, List.countP_singleton]
      by_cases hx : s.taskId = x
      · subst hx
        have hzero : db.settlements.countP (fun s' => s'.taskId = s.taskId) = 0 :=
          List.countP_eq_zero.2 fun s' hs' => by simpa using hu _ _ hp s' hs'
        simp [hzero]
      · simpa [hx] using h x
  · rw [hs]
    exact iff_of_true h fun x a hp' => (hp x a hp').elim

/-! ## What rules it out -/

/-- Nobody reopens a task that has a settlement, tasks are taken while they are open, and payments
are made on the newest assignment. -/
def KeepsPaid (t : Tx) (db : TenantDb) : Prop :=
  match t with
  | .rejectSubmittedTask taskId _ _ _ =>
    (∃ task ∈ db.tasks, task.id = taskId ∧ task.status = .accepted) →
      ∀ s ∈ db.settlements, s.taskId ≠ taskId
  | .assignTask taskId _ _ | .acceptTask taskId _ _ =>
    ∃ task ∈ db.tasks, task.id = taskId ∧ task.status = .open
  | t => ∀ taskId assignmentId, t.Pays db taskId assignmentId →
    ∀ a ∈ db.assignments, a.taskId = taskId → a.id ≤ assignmentId

/-- A task that has been settled is taken, and the settlement is on its newest assignment; nobody
has an open task. -/
structure SettledLast (db : TenantDb) : Prop where
  closed : ∀ s ∈ db.settlements, ∃ task ∈ db.tasks, task.id = s.taskId ∧ task.status ≠ .open
  anchored : ∀ s ∈ db.settlements, ∃ a ∈ db.assignments, a.id = s.assignmentId ∧
    a.taskId = s.taskId
  newest : ∀ s ∈ db.settlements, ∀ a ∈ db.assignments, a.taskId = s.taskId → a.id ≤ s.assignmentId
  free : ∀ task ∈ db.tasks, task.status = .open → task.assigneePersonaId = none

theorem SettledLast.fresh (users : List Id) : SettledLast (TenantDb.fresh users) := by
  constructor <;> simp [TenantDb.fresh]

/-- The payment of the newest assignment of a task that has been settled would be its second. -/
theorem SettledLast.paysUnpaid (h : SettledLast db) (hb : t.Backed db) (hk : KeepsPaid t db) :
    PaysUnpaid t db := by
  intro x a hp s hs he
  obtain ⟨anchor, hanchor, hid, hof⟩ := hp.anchor hb
  obtain ⟨anchor', hanchor', hid', hof'⟩ := h.anchored s hs
  have hle : a ≤ s.assignmentId := hid ▸ h.newest s hs anchor hanchor (hof.trans he.symm)
  have hge : s.assignmentId ≤ a := by
    rw [← hid']
    cases t with
    | completeTask c => exact hk x a hp anchor' hanchor' (hof'.trans he)
    | settleTaskPayment input => exact hk x a hp anchor' hanchor' (hof'.trans he)
    | _ => exact hp.elim
  exact hp.unsettled ⟨s, hs, le_antisymm hge hle⟩

theorem SettledLast.not_taken (h : SettledLast db) (hn : db.Numbered) {taskId : Id}
    (ho : ∃ task ∈ db.tasks, task.id = taskId ∧ task.status = .open) :
    ∀ s ∈ db.settlements, s.taskId ≠ taskId := by
  rintro s hs rfl
  obtain ⟨task, htask, hid, hst⟩ := ho
  obtain ⟨task', htask', hid', hst'⟩ := h.closed s hs
  obtain rfl := hn.tasks.eq htask' htask (hid'.trans hid.symm)
  exact hst' hst

theorem SettledLast.paid (h : SettledLast db) (hb : t.Backed db) (hk : KeepsPaid t db)
    (hp : t.Pays db taskId assignmentId) :
    (∃ task ∈ db.tasks, task.id = taskId ∧ task.status ≠ .open) ∧
      (∀ a ∈ db.assignments, a.taskId = taskId → a.id ≤ assignmentId) := by
  cases t with
  | completeTask c =>
    refine ⟨?_, hk _ _ hp⟩
    obtain ⟨rfl, -, -, ⟨task, htask, hid, hst⟩, -⟩ := hp
    exact ⟨task, htask, hid, by simp [hst]⟩
  | settleTaskPayment input =>
    refine ⟨?_, hk _ _ hp⟩
    obtain ⟨rfl, -, ⟨task, assignment, wallet, hs, -⟩, -⟩ := hp
    obtain ⟨htask, hid⟩ := Table.find_spec hs.task_eq
    refine ⟨task, htask, hid, fun ho => ?_⟩
    have hnone := h.free task htask ho
    rw [hs.assignee] at hnone
    cases hnone
  | _ => exact hp.elim

/-- **Step lemma.** -/
theorem SettledLast.step (h : SettledLast db) (hn : db.Numbered) (hb : t.Backed db)
    (hk : KeepsPaid t db) : SettledLast (exec env t db).1 := by
  -- a settlement that was there, or one that is new
  have hcases : ∀ s ∈ (exec env t db).1.settlements,
      s ∈ db.settlements ∨ t.Pays db s.taskId s.assignmentId := by
    intro s hs
    obtain ⟨s', hp, -, he, -⟩ | ⟨-, he, -⟩ := exec_pays env t hn
    · rw [he] at hs
      rcases List.mem_append.1 hs with hs | hs
      · exact .inl hs
      · obtain rfl := List.mem_singleton.1 hs
        exact .inr hp
    · exact .inl (he ▸ hs)
  have hclosed : ∀ s ∈ (exec env t db).1.settlements,
      ∃ task ∈ db.tasks, task.id = s.taskId ∧ task.status ≠ .open := fun s hs =>
    (hcases s hs).elim (h.closed s) fun hp => (h.paid hb hk hp).1
  refine ⟨fun s hs => exec_closed (hclosed s hs) ?_, fun s hs => ?_, fun s hs a ha hof => ?_,
    exec_free h.free⟩
  · rintro a r app rfl ho
    exact (hcases s hs).elim (fun hs => hk ho s hs rfl) id
  · obtain ⟨a, ha, hid, hof⟩ := (hcases s hs).elim (h.anchored s) fun hp => hp.anchor hb
    obtain ⟨a', ha', he⟩ := (exec_grows env t db).assignments.stay a ha
    simp only [TaskAssignment.fixed, Prod.mk.injEq] at he
    exact ⟨a', ha', he.1.trans hid, he.2.1.trans hof⟩
  · have hnewest : ∀ b ∈ db.assignments, b.taskId = s.taskId → b.id ≤ s.assignmentId :=
      (hcases s hs).elim (h.newest s) fun hp => (h.paid hb hk hp).2
    obtain ⟨b, hb', he⟩ | ⟨htake, -⟩ := assignment_cases env t db ha
    · simp only [TaskAssignment.fixed, Prod.mk.injEq] at he
      exact he.1 ▸ hnewest b hb' (he.2.1.trans hof)
    · -- whoever takes the task finds it open
      obtain ⟨p, app, rfl⟩ | ⟨p, f, rfl⟩ := htake
      · exact (hcases s hs).elim (fun hs => (h.not_taken hn hk s hs hof.symm).elim) False.elim
      · exact (hcases s hs).elim (fun hs => (h.not_taken hn hk s hs hof.symm).elim) False.elim

/-! ## Runs -/

/-- **Tasks are paid once.** In a run of all calls, every task always has at most one settlement and
one payment exactly if no payment finds its task paid already. This is so if paid tasks are not
reopened, only open tasks are taken, and payments are made on the newest assignment. -/
theorem paidOnce_iff (users : List Id) (ms : List PersonaMove) :
    (Always PersonaPool.step (fun p => PaidOnce p.db) (PersonaPool.init users) ms ↔
      Along PersonaPool.step (Pool.AtCommit fun _ => PaysUnpaid) (PersonaPool.init users) ms) ∧
    (Along PersonaPool.step (Pool.AtCommit fun _ => KeepsPaid) (PersonaPool.init users) ms →
      Always PersonaPool.step (fun p => PaidOnce p.db) (PersonaPool.init users) ms) := by
  have hstart : Posted (TenantDb.fresh users) ∧
      ∀ taskId, (TenantDb.fresh users).settlements.countP (fun s => s.taskId = taskId) ≤ 1 :=
    ⟨rfl, fun _ => Nat.zero_le 1⟩
  constructor
  · refine PersonaPool.always_iff
      (I := fun db => PaidOnce db ∧ Posted db) ⟨?_, hstart.1⟩ (fun _ h => h.1) ?_ ?_
    · exact (paidOnce_iff_settlements hstart.1 (.fresh users)).2 hstart.2
    · intro env t db ht _ h hC
      have hn' := (exec_grows env t db).numbered_of ht.numbered
      have hposted := h.2.step env t ht.numbered
      refine ⟨(paidOnce_iff_settlements hposted hn').2 ?_, hposted⟩
      exact (exec_settledOnce ht.numbered
        ((paidOnce_iff_settlements h.2 ht.numbered).1 h.1)).2 hC
    · intro env t db ht _ h hP
      have hn' := (exec_grows env t db).numbered_of ht.numbered
      have hposted := h.2.step env t ht.numbered
      exact (exec_settledOnce ht.numbered
        ((paidOnce_iff_settlements h.2 ht.numbered).1 h.1)).1
          ((paidOnce_iff_settlements hposted hn').1 hP)
  · intro hC
    refine (PersonaPool.always_of_keep (I := fun db => SettledLast db ∧ Posted db ∧
      ∀ taskId, db.settlements.countP (fun s => s.taskId = taskId) ≤ 1)
      ⟨.fresh users, hstart⟩ ?_ hC).mono fun p h => ?_
    · intro env t db ht hb h hk
      exact ⟨h.1.step ht.numbered hb hk, h.2.1.step env t ht.numbered,
        (exec_settledOnce ht.numbered h.2.2).2 (h.1.paysUnpaid hb hk)⟩
    · exact (paidOnce_iff_settlements h.2.2.1 h.1.inv.numbered).2 h.2.2.2

/-- A publisher pays for a task that is accepted, rejects the result, and the task, reopened although
it is paid, is taken by another persona and paid again. -/
theorem task_paid_twice :
    ¬ Always PersonaPool.step (fun p => PaidOnce p.db) (PersonaPool.init [1, 2, 3])
      ([.call (.createPersona ⟨1⟩), .call (.createPersona ⟨2⟩), .call (.publishTask ⟨3, 10, none⟩),
        .call (.acceptTask ⟨1, 0, 0, none⟩), .call (.submitTaskResult ⟨1, 0, 0⟩),
        .call (.settleTaskPayment ⟨3, 0, 0, 1000, "CRED", ⟨60, 20, 20⟩⟩),
        .call (.rejectSubmittedTask ⟨3, 0⟩), .call (.acceptTask ⟨2, 0, 1, none⟩),
        .call (.settleTaskPayment ⟨3, 0, 1, 1000, "CRED", ⟨60, 20, 20⟩⟩)] ++
      [.go 0 (.ofTime 1), .go 1 (.ofTime 2), .go 2 (.ofTime 3)] ++
      List.replicate 6 (.go 3 (.ofTime 4)) ++ List.replicate 6 (.go 4 (.ofTime 5)) ++
      [.go 5 (.ofTime 6)] ++ List.replicate 6 (.go 6 (.ofTime 7)) ++
      List.replicate 6 (.go 7 (.ofTime 8)) ++ [.go 8 (.ofTime 9)]) := by
  intro h
  have htwo := (h.last 0).1
  revert htwo
  decide +kernel

end ChronoSynth.Persona
