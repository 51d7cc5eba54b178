import ChronoSynth.Persona.Calls

/-!
# Payments

The two transactions that pay a task, seen as one: when a transaction pays (`Tx.Pays`), and what the
settlements and the journal are afterwards (`exec_pays`).
-/

namespace ChronoSynth.Persona

variable {env : Env} {t : Tx} {db : TenantDb} {taskId assignmentId : Id}

def Tx.Pays (db : TenantDb) (taskId assignmentId : Id) : Tx → Prop
  | .completeTask c => c.taskId = taskId ∧ c.assignmentId = assignmentId ∧ 0 < c.payoutMinor ∧
    (∃ x ∈ db.tasks, x.id = taskId ∧ x.status = .accepted) ∧
      ¬ ∃ s ∈ db.settlements, s.assignmentId = assignmentId
  | .settleTaskPayment input => input.taskId = taskId ∧ input.assignmentId = assignmentId ∧
    (∃ task assignment wallet, Settles db input task assignment wallet ∧
      PaysReward input task wallet) ∧
      ¬ ∃ s ∈ db.settlements, s.assignmentId = assignmentId
  | _ => False

theorem Tx.Pays.unsettled (h : t.Pays db taskId assignmentId) :
    ¬ ∃ s ∈ db.settlements, s.assignmentId = assignmentId := by
  cases t with
  | completeTask c => exact h.2.2.2.2
  | settleTaskPayment input => exact h.2.2.2
  | _ => exact h.elim

theorem Tx.Pays.unique {x a : Id} (h : t.Pays db taskId assignmentId) (h' : t.Pays db x a) :
    taskId = x := by
  cases t with
  | completeTask c => exact h.1.symm.trans h'.1
  | settleTaskPayment input => exact h.1.symm.trans h'.1
  | _ => exact h.elim

theorem TaskWalletSettlement.payments_journal (s : TaskWalletSettlement) (n : ℕ) :
    (s.journal env n).filter (fun x => x.transactionType = .task_payment) =
      [.create s.walletId env.now n .task_payment s.totalAmountMinor s.currency .wallet_settlement
        s.id] := by
  simp only [TaskWalletSettlement.journal, WalletTransaction.create]
  split_ifs <;> rfl

/-- **What a transaction can do to the settlements**: pay one, with its journal, or leave them and
the payments as they are. -/
theorem exec_pays (env : Env) (t : Tx) (hn : db.Numbered) :
    (∃ s, t.Pays db s.taskId s.assignmentId ∧ s.id = db.settlements.length ∧
      (exec env t db).1.settlements = db.settlements ++ [s] ∧
      (exec env t db).1.walletTransactions =
        db.walletTransactions ++ s.journal env db.walletTransactions.length) ∨
    ((∀ taskId assignmentId, ¬ t.Pays db taskId assignmentId) ∧
      (exec env t db).1.settlements = db.settlements ∧
      (exec env t db).1.walletTransactions.filter (fun x => x.transactionType = .task_payment) =
        db.walletTransactions.filter fun x => x.transactionType = .task_payment) := by
  have es : _ → _ = _ := exec_agree env t db .settlements
  have ew : _ → _ = _ := exec_agree env t db .walletTransactions
  cases t with
  | completeTask c =>
    obtain ⟨e, err, he⟩ | ⟨hc, hs, e⟩ := exec_completeTask_cases env db c
    · refine .inr ⟨?_, by rw [e], by rw [e]⟩
      rintro x a ⟨rfl, rfl, hpos, hx, hfree⟩
      rw [exec_completeTask_completed (hn.tasks.countP_eq_one.2 hx) fun _ => hfree] at he
      cases he
    · obtain ⟨task, htask, hid⟩ := hn.tasks.countP_eq_one.1 hc
      by_cases hpos : 0 < c.payoutMinor
      · refine .inl ⟨c.settlement env db.settlements.length,
          ⟨rfl, rfl, hpos, ⟨task, htask, hid⟩, hs hpos⟩, rfl, ?_, ?_⟩
        · rw [e]
          simp only [TaskCompletion.completed, TaskCompletion.settlements, if_pos hpos]
        · rw [e]
          simp only [TaskCompletion.completed, TaskCompletion.settlements, if_pos hpos,
            List.flatMap_singleton]
      · refine .inr ⟨fun _ _ h => hpos h.2.2.1, ?_, ?_⟩
        · rw [e]
          simp only [TaskCompletion.completed, TaskCompletion.settlements, if_neg hpos,
            List.append_nil]
        · rw [e]
          simp only [TaskCompletion.completed, TaskCompletion.settlements, if_neg hpos,
            List.flatMap_nil, List.append_nil]
  | settleTaskPayment input =>
    by_cases hp : (Tx.settleTaskPayment input).Pays db input.taskId input.assignmentId
    · obtain ⟨-, -, ⟨task, assignment, wallet, hs, hr⟩, hfree⟩ := id hp
      have e : exec env (.settleTaskPayment input) db = _ :=
        exec_settle_paid hs (getWalletSettlementByAssignmentId_eq_none.2 hfree) hr
      exact .inl ⟨input.settlement env db.settlements.length wallet.id, hp, rfl, by rw [e]; rfl,
        by rw [e]; rfl⟩
    · refine .inr ⟨fun x a h => hp (by obtain ⟨rfl, rfl, h'⟩ := h; exact ⟨rfl, rfl, h'⟩), ?_⟩
      obtain e | ⟨task, assignment, wallet, hs, hfree, hr, -⟩ := exec_settle_cases env db input
      · exact ⟨by rw [e], by rw [e]⟩
      · exact (hp ⟨rfl, rfl, ⟨task, assignment, wallet, hs, hr⟩,
          getWalletSettlementByAssignmentId_eq_none.1 hfree⟩).elim
  | requestWalletPayout p =>
    refine .inr ⟨fun _ _ h => h.elim, es (by simp [Tx.writes]), ?_⟩
    obtain ⟨e, -⟩ | ⟨-, -, -, e⟩ := exec_payout_cases env db p
    · rw [e]
    · rw [e]
      simp [WalletPayout.paid, WalletTransaction.create]
  | _ =>
    refine .inr ⟨fun _ _ h => h.elim, es (by simp [Tx.writes]), ?_⟩
    rw [ew (by simp [Tx.writes])]

theorem Tx.Pays.anchor (h : t.Pays db taskId assignmentId) (hb : t.Backed db) :
    ∃ a ∈ db.assignments, a.id = assignmentId ∧ a.taskId = taskId := by
  cases t with
  | completeTask c =>
    obtain ⟨rfl, rfl, -⟩ := h
    exact hb.anchor
  | settleTaskPayment input =>
    obtain ⟨rfl, rfl, ⟨task, assignment, wallet, hs, -⟩, -⟩ := h
    obtain ⟨ha, hid⟩ := Table.find_spec hs.assignment_eq
    exact ⟨assignment, ha, hid, hs.of_task⟩
  | _ => exact h.elim

end ChronoSynth.Persona
