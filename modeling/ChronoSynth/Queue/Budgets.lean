import ChronoSynth.Queue.TaskQueue

/-!
# Budgets

A history beside the table counts how often every task has been claimed. The queue keeps its **budgets** if
no task is claimed more than `max_retries + 1` times, no tenant has more pending and running tasks than its
limit, and no command lowers a `retry_count` (`BudgetsKept`).

Two policies share the counter: the reaper increments it, and a worker sets it to one more than its copy of
the task says. A worker whose copy is old may so lower it, give a task claims it has already had, or put a
finished task back into a population that is full; and a worker may retry by its own limit a task whose
limit is 0. The budgets are kept in every run in which no `reschedule` does this (`budgetsKept`).
-/

namespace ChronoSynth.Queue

/-! ## The history -/

/-- How often every task has been claimed. -/
abbrev ClaimCount := TaskId → ℕ

namespace ClaimCount

def write (claims : ClaimCount) (e : Env) (cmd : TaskCmd) (db : TaskDb) : ClaimCount := fun id =>
  if (exec e cmd db).2.task.map TaskRow.id = some id then claims id + 1 else claims id

end ClaimCount

abbrev BudgetRun := TaskPool × ClaimCount

def BudgetRun.step (config : TaskQueueConfig) : BudgetRun → TaskMove → BudgetRun :=
  noting (Pool.step (TaskCall.start config) exec) (Pool.logging ClaimCount.write)

def BudgetRun.init : BudgetRun := (Pool.idle .empty, fun _ => 0)

/-! ## What is claimed -/

structure WithinBudgets (config : TaskQueueConfig) (db : TaskDb) (claims : ClaimCount) : Prop where
  claimed : ∀ row ∈ db.tasks, (claims row.id : ℤ) ≤ row.maxRetries + 1
  active : 0 < config.maxPendingPerTenant → ∀ tenantId, db.active tenantId ≤ config.maxPendingPerTenant

def NeverLowered (_ : ClaimCount) (e : Env) (cmd : TaskCmd) (db : TaskDb) : Prop :=
  ∀ row ∈ db.tasks, ∀ row' ∈ (exec e cmd db).1.tasks, row'.id = row.id → row.retryCount ≤ row'.retryCount

instance (claims : ClaimCount) (e : Env) (cmd : TaskCmd) (db : TaskDb) :
    Decidable (NeverLowered claims e cmd db) :=
  inferInstanceAs (Decidable (∀ row ∈ db.tasks, ∀ row' ∈ (exec e cmd db).1.tasks, _))

structure BudgetsKept (config : TaskQueueConfig) (ms : List TaskMove) : Prop where
  states : Always (BudgetRun.step config) (fun x => WithinBudgets config x.1.db x.2) .init ms
  counts : Along (BudgetRun.step config) (fun x m => x.1.AtCommit (NeverLowered x.2) m) .init ms

/-- A task is enqueued with a limit, and rescheduled to a count that is no lower than its own and no lower
than the number of its claims, within its limit, and if it is finished only where there is room. -/
def ReschedulesWithin (config : TaskQueueConfig) (claims : ClaimCount) (_ : Env) (cmd : TaskCmd)
    (db : TaskDb) : Prop :=
  match cmd with
  | .enqueue _ _ _ maxRetries .. => 0 ≤ maxRetries
  | .reschedule _ taskId retryCount .. => ∀ row ∈ db.tasks, row.id = taskId →
    row.retryCount ≤ retryCount ∧ claims taskId ≤ retryCount ∧ (claims taskId : ℤ) ≤ row.maxRetries ∧
      (row.Finished → config.maxPendingPerTenant = 0 ∨
        db.active row.tenantId < config.maxPendingPerTenant)
  | _ => True

instance (config : TaskQueueConfig) (claims : ClaimCount) (e : Env) (cmd : TaskCmd) (db : TaskDb) :
    Decidable (ReschedulesWithin config claims e cmd db) := by
  unfold ReschedulesWithin
  split <;> infer_instance

/-! ## The invariant -/

variable {config : TaskQueueConfig} {e : Env} {cmd : TaskCmd} {db : TaskDb} {claims : ClaimCount}
  {row row' : TaskRow} {n : ℕ} {tenantId : String}

/-- A pending task has been claimed at most once for every retry; one that has left this state, once
more. -/
def TaskRow.Counted (row : TaskRow) (n : ℕ) : Prop :=
  if row.status = .pending then n ≤ row.retryCount ∧ (n : ℤ) ≤ row.maxRetries
  else n ≤ row.retryCount + 1 ∧ (n : ℤ) ≤ row.maxRetries + 1

structure Counted (config : TaskQueueConfig) (db : TaskDb) (claims : ClaimCount) : Prop where
  keyed : Keyed db
  counted : ∀ row ∈ db.tasks, row.Counted (claims row.id)
  unissued : ∀ id, db.issued ≤ id → claims id = 0
  active : 0 < config.maxPendingPerTenant → ∀ tenantId, db.active tenantId ≤ config.maxPendingPerTenant

theorem TaskRow.Counted.le (h : row.Counted n) : (n : ℤ) ≤ row.maxRetries + 1 := by
  unfold TaskRow.Counted at h
  split at h <;> omega

theorem TaskRow.Counted.le_succ (h : row.Counted n) :
    n ≤ row.retryCount + 1 ∧ (n : ℤ) ≤ row.maxRetries + 1 := by
  unfold TaskRow.Counted at h
  split at h <;> omega

theorem TaskRow.Counted.of_pending (h : row.Counted n) (hs : row.status = .pending) :
    n ≤ row.retryCount ∧ (n : ℤ) ≤ row.maxRetries := by
  rwa [TaskRow.Counted, if_pos hs] at h

theorem counted_empty : Counted config .empty fun _ => 0 := by
  refine ⟨.empty, ?_, fun _ _ => rfl, fun _ _ => Nat.zero_le _⟩
  intro row hrow
  cases hrow

theorem Counted.within (h : Counted config db claims) : WithinBudgets config db claims :=
  ⟨fun row hrow => (h.counted row hrow).le, h.active⟩

/-! ### Claims -/

theorem replied (h : (exec e cmd db).2.task = some row) (hk : Keyed db) :
    ∃ row₀ ∈ db.tasks, row₀.id = row.id ∧ row₀.status = .pending ∧ db.rewrite e cmd row₀ = some row ∧
      row.status = .running ∧ row.retryCount = row₀.retryCount ∧ row.maxRetries = row₀.maxRetries := by
  cases cmd with
  | dequeue workerId availableAt =>
    simp only [exec] at h
    cases hc : db.candidate availableAt e.tie with
    | none => simp [hc] at h
    | some first =>
      simp only [hc, TaskDb.claim] at h
      split at h
      next => cases h
      next hone =>
        -- the row that is claimed is the candidate
        obtain ⟨row₀, hmem, hid⟩ := List.countP_pos_iff.1 (Nat.pos_of_ne_zero hone)
        simp only [decide_eq_true_eq] at hid
        have hr : db.rewrite e (.dequeue workerId availableAt) row₀ =
            some (row₀.claimed workerId e.dbNow) := by
          simp [TaskDb.rewrite, hc, hid.1, hid.2]
        have hclaim : (exec e (.dequeue workerId availableAt) db).1 =
            (db.update (fun row => row.id = first.id ∧ row.status = .pending)
              (TaskRow.claimed workerId e.dbNow)).1 := by
          simp only [exec, hc, TaskDb.claim]
          split <;> rfl
        have hby : (exec e (.dequeue workerId availableAt) db).1.byId row₀.id =
            db.rewrite e (.dequeue workerId availableAt) row₀ := hk.byId_exec hmem
        rw [hclaim, hid.1, hr] at hby
        obtain rfl : row₀.claimed workerId e.dbNow = row := Option.some.inj (hby.symm.trans h)
        exact ⟨row₀, hmem, rfl, hid.2, hr, rfl, rfl, rfl⟩
  | enqueue =>
    simp only [exec] at h
    split at h <;> cases h
  | _ => cases h

/-- **Claims are counted.** A row that a command leaves is counted as its effect on it says. -/
theorem Counted.rewrite (h : Counted config db claims) (hC : ReschedulesWithin config claims e cmd db)
    (hrow : row ∈ db.tasks) (hr : db.rewrite e cmd row = some row') :
    row'.Counted (claims.write e cmd db row.id) := by
  have hold := h.counted row hrow
  by_cases hrep : (exec e cmd db).2.task.map TaskRow.id = some row.id
  · obtain ⟨got, hgot, hid⟩ := Option.map_eq_some_iff.1 hrep
    obtain ⟨row₀, hmem, hid₀, hs₀, hr₀, hs, hcount, hmax⟩ := replied hgot h.keyed
    obtain rfl := h.keyed.eq hmem hrow (hid₀.trans hid)
    obtain rfl := Option.some.inj (hr.symm.trans hr₀)
    have hle := hold.of_pending hs₀
    rw [ClaimCount.write, if_pos hrep, TaskRow.Counted, hs, if_neg TaskStatus.noConfusion, hcount, hmax]
    omega
  · rw [ClaimCount.write, if_neg hrep]
    cases rewrite_effect hr with
    | same => exact hold
    | claimed hpending =>
      have hle := hold.of_pending hpending
      simp only [TaskRow.Counted, TaskRow.claimed, reduceCtorEq, if_false]
      omega
    | completed => simpa only [TaskRow.Counted, TaskRow.completed, reduceCtorEq, if_false] using hold.le_succ
    | failed => simpa only [TaskRow.Counted, TaskRow.failed, reduceCtorEq, if_false] using hold.le_succ
    | exhausted =>
      simpa only [TaskRow.Counted, TaskRow.exhausted, reduceCtorEq, if_false] using hold.le_succ
    | rescheduled =>
      obtain ⟨-, hcount, hmax, -⟩ := hC row hrow rfl
      simp only [TaskRow.Counted, TaskRow.rescheduled, if_true]
      exact ⟨hcount, hmax⟩
    | requeued hstale hretry =>
      have hle := hold.le_succ
      simp only [TaskRow.Counted, TaskRow.requeued, if_true]
      omega

/-! ### The population of a tenant -/

/-- A command other than an `enqueue` or a `reschedule` adds nothing to a population. -/
theorem TaskEffect.active (h : TaskEffect e cmd row row') (hact : row'.Active)
    (hcmd : ∀ workerId retryCount availableAt error now,
      cmd ≠ .reschedule workerId row.id retryCount availableAt error now) : row.Active := by
  cases h with
  | same => exact hact
  | claimed hpending => exact .inl hpending
  | rescheduled => exact absurd rfl (hcmd _ _ _ _ _)
  | requeued hstale | exhausted hstale => exact .inr hstale.1
  | completed | failed => rcases hact with hs | hs <;> cases hs

/-- The population after a command is made of what was in it, what has come back into it, and what is
new. -/
theorem active_exec_le (tenantId : String) (q : TaskRow → Prop) [DecidablePred q]
    (h : ∀ row ∈ db.tasks, ∀ row', db.rewrite e cmd row = some row' → row'.tenantId = tenantId →
      row'.Active → q row) :
    (exec e cmd db).1.active tenantId ≤ db.tasks.countP (fun row => q row) +
      (db.inserted cmd).countP fun row => row.tenantId = tenantId ∧ row.Active := by
  rw [TaskDb.active, TaskDb.exec_tasks, List.countP_append, List.countP_filterMap]
  refine Nat.add_le_add_right (List.countP_mono_left fun row hrow hq => ?_) _
  cases hr : db.rewrite e cmd row with
  | none => simp [hr] at hq
  | some row' =>
    simp only [hr, Option.map_some, Option.getD_some, decide_eq_true_eq] at hq
    exact decide_eq_true (h row hrow row' hr hq.1 hq.2)

theorem active_exec_le_of_keep (tenantId : String)
    (hcmd : ∀ row ∈ db.tasks, row.tenantId = tenantId → row.Finished →
      ∀ workerId retryCount availableAt error now,
        cmd ≠ .reschedule workerId row.id retryCount availableAt error now) :
    (exec e cmd db).1.active tenantId ≤ db.active tenantId +
      (db.inserted cmd).countP fun row => row.tenantId = tenantId ∧ row.Active := by
  refine active_exec_le tenantId (fun row => row.tenantId = tenantId ∧ row.Active) ?_
  intro row hrow row' hr htenant hact
  have hfx := rewrite_effect hr
  rw [hfx.fixed.2.1] at htenant
  refine ⟨htenant, ?_⟩
  by_cases hfin : row.Finished
  · exact hfx.active hact (hcmd row hrow htenant hfin)
  · unfold TaskRow.Finished at hfin
    unfold TaskRow.Active
    cases hs : row.status <;> simp_all

theorem Keyed.countP_id_le_one (h : Keyed db) (id : TaskId) :
    db.tasks.countP (fun row => row.id = id) ≤ 1 := by
  have hcount := List.nodup_iff_count_le_one.1 h.nodup id
  rw [List.count, List.countP_map] at hcount
  exact hcount

/-- **Populations keep within the limit.** -/
theorem Counted.active_exec (h : Counted config db claims) (hC : ReschedulesWithin config claims e cmd db)
    (hlimit : cmd.LimitedTo config.maxPendingPerTenant) (hpos : 0 < config.maxPendingPerTenant)
    (tenantId : String) : (exec e cmd db).1.active tenantId ≤ config.maxPendingPerTenant := by
  have hold := h.active hpos tenantId
  cases cmd with
  | enqueue tenant type payload maxRetries now priority maxPending =>
    have hle : (exec e (.enqueue tenant type payload maxRetries now priority maxPending) db).1.active
          tenantId ≤ db.active tenantId + (db.inserted
            (.enqueue tenant type payload maxRetries now priority maxPending)).countP
              fun row => row.tenantId = tenantId ∧ row.Active :=
      active_exec_le_of_keep tenantId fun _ _ _ _ _ _ _ _ _ hcmd => by cases hcmd
    obtain rfl : maxPending = config.maxPendingPerTenant := hlimit
    simp only [TaskDb.inserted] at hle
    split at hle
    next hroom =>
      -- there was room for one more
      have hroom : db.active tenant < config.maxPendingPerTenant := hroom.resolve_left hpos.ne'
      by_cases htenant : tenant = tenantId
      · subst htenant
        exact (hle.trans (Nat.add_le_add_left List.countP_le_length _)).trans hroom
      · simp only [List.countP_singleton, htenant, false_and, decide_false, Bool.false_eq_true,
          if_false] at hle
        omega
    next => exact hle.trans hold
  | reschedule workerId taskId retryCount availableAt error now =>
    by_cases hback : ∃ row ∈ db.tasks, row.id = taskId ∧ row.tenantId = tenantId ∧ row.Finished
    · -- a finished task comes back, but there was room for it
      obtain ⟨row, hrow, hid, rfl, hfin⟩ := hback
      have hroom := ((hC row hrow hid).2.2.2 hfin).resolve_left hpos.ne'
      have hle : (exec e (.reschedule workerId taskId retryCount availableAt error now) db).1.active
            row.tenantId ≤ db.tasks.countP (fun other =>
              (other.tenantId = row.tenantId ∧ other.Active) ∨ other.id = taskId) +
            (db.inserted (.reschedule workerId taskId retryCount availableAt error now)).countP
              fun other => other.tenantId = row.tenantId ∧ other.Active :=
        active_exec_le row.tenantId
        (fun other => (other.tenantId = row.tenantId ∧ other.Active) ∨ other.id = taskId)
        fun other _ other' hr htenant hact => by
          by_cases hother : other.id = taskId
          · exact .inr hother
          · have hfx := rewrite_effect hr
            refine .inl ⟨hfx.fixed.2.1 ▸ htenant, hfx.active hact ?_⟩
            intro _ _ _ _ _ hcmd
            injection hcmd with _ heq
            exact hother heq.symm
      have hor : db.tasks.countP (fun other =>
            (other.tenantId = row.tenantId ∧ other.Active) ∨ other.id = taskId) ≤
          db.tasks.countP (fun other => other.tenantId = row.tenantId ∧ other.Active) +
            db.tasks.countP fun other => other.id = taskId := Table.countP_or_le
      have hone := h.keyed.countP_id_le_one taskId
      have hactive : db.active row.tenantId = db.tasks.countP fun other =>
        other.tenantId = row.tenantId ∧ other.Active := rfl
      simp only [TaskDb.inserted, List.countP_nil] at hle
      omega
    · refine (active_exec_le_of_keep tenantId ?_).trans hold
      intro row hrow htenant hfin _ _ _ _ _ hcmd
      injection hcmd with _ hid
      exact hback ⟨row, hrow, hid.symm, htenant, hfin⟩
  | _ => exact (active_exec_le_of_keep tenantId fun _ _ _ _ _ _ _ _ _ hcmd => by cases hcmd).trans hold

/-- **Step lemma.** -/
theorem Counted.exec (h : Counted config db claims) (hC : ReschedulesWithin config claims e cmd db)
    (hlimit : cmd.LimitedTo config.maxPendingPerTenant) :
    Counted config (exec e cmd db).1 (claims.write e cmd db) := by
  have hnew : ∀ id, db.issued ≤ id → claims.write e cmd db id = 0 := by
    intro id hid
    rw [ClaimCount.write, if_neg, h.unissued id hid]
    intro hrep
    obtain ⟨got, hgot, rfl⟩ := Option.map_eq_some_iff.1 hrep
    obtain ⟨row, hrow, heq, -⟩ := replied hgot h.keyed
    exact absurd (h.keyed.lt row hrow) (not_lt.2 (heq ▸ hid))
  refine ⟨h.keyed.exec, ?_, fun id hid => hnew id (issued_le.trans hid), fun hpos tenantId =>
    h.active_exec hC hlimit hpos tenantId⟩
  intro row' hrow'
  obtain ⟨row, hrow, hr⟩ | hins := mem_exec.1 hrow'
  · rw [TaskDb.rewrite_id hr]
    exact h.rewrite hC hrow hr
  · rw [hnew _ (inserted_id hins).1.ge]
    cases cmd with
    | enqueue =>
      simp only [TaskDb.inserted] at hins
      split at hins
      · rw [List.mem_singleton.1 hins]
        simp only [TaskRow.Counted, if_true]
        exact ⟨le_rfl, hC⟩
      · cases hins
    | _ => cases hins

theorem Counted.neverLowered (h : Counted config db claims)
    (hC : ReschedulesWithin config claims e cmd db) : NeverLowered claims e cmd db := by
  intro row hrow row' hrow' hid
  obtain ⟨row₀, hrow₀, hr⟩ | hins := mem_exec.1 hrow'
  · obtain rfl := h.keyed.eq hrow₀ hrow ((TaskDb.rewrite_id hr).symm.trans hid)
    cases rewrite_effect hr with
    | same | claimed | completed | failed | exhausted => exact le_rfl
    | rescheduled => exact (hC row₀ hrow₀ rfl).1
    | requeued => exact Nat.le_succ _
  · have hlt := h.keyed.lt row hrow
    rw [← hid, (inserted_id hins).1] at hlt
    exact absurd hlt (lt_irrefl _)

/-! ## Whole runs -/

/-- **Budgets are kept.** In a run of any workers' calls over the table in which tasks are enqueued with a
limit and every `reschedule` keeps within it, no task is claimed more than `max_retries + 1` times, no
population exceeds the limit of the tenants, and no count is lowered. -/
theorem budgetsKept (config : TaskQueueConfig) (ms : List TaskMove)
    (hC : Along (BudgetRun.step config) (fun x m => x.1.AtCommit (ReschedulesWithin config x.2) m) .init
      ms) : BudgetsKept config ms := by
  have hC' := Pool.along_uses (TaskCall.limited config) hC
  have hI : Always (BudgetRun.step config) (fun x => Counted config x.1.db x.2) .init ms := by
    refine Pool.always_of_log (C := fun claims e cmd db => ReschedulesWithin config claims e cmd db ∧
      ∃ call : TaskCall, cmd.LimitedTo config.maxPendingPerTenant) counted_empty ?_ hC'
    intro e cmd db claims h hcmd
    obtain ⟨hwithin, call, hlimit⟩ := hcmd
    exact h.exec hwithin hlimit
  refine ⟨hI.mono fun x h => h.within, ?_⟩
  intro pre m hpre e cmd hm
  exact (hI pre ((List.prefix_append _ _).trans hpre)).neverLowered (hC pre m hpre e cmd hm)

/-- A task fails, waits and is completed at the second attempt. -/
theorem budgetsKept_retried :
    BudgetsKept ⟨1000, 604800000⟩ [.call (.enqueue "t" "k" "{}" 3 0), .call (.work ⟨"a", ["k"], 3⟩),
      .call (.work ⟨"a", ["k"], 3⟩), .go 0 (.at 0), .go 0 (.at 0), .go 1 (.at 0), .go 1 (.at 0),
      .go 1 { Env.at 5 with outcome := .error "no" }, .go 1 (.at 5), .go 1 (.at 5), .go 1 (.at 5),
      .go 2 (.at 2000), .go 2 (.at 2000), .go 2 (.at 2000), .go 2 (.at 2000), .go 2 (.at 2000)] :=
  budgetsKept _ _ (by decide +kernel)

/-- A claim is reaped while its handler runs. Another worker claims the task, fails and reschedules it, and
then the report of the first sets the count back. -/
theorem count_set_back : ¬ ∀ config ms,
    (∀ w id n availableAt error, Move.call (.reschedule w id n availableAt error) ∉ ms) →
      BudgetsKept config ms := by
  intro h
  have hc := (h ⟨1000, 604800000⟩ [.call (.enqueue "t" "k" "{}" 4 0), .call (.work ⟨"a", ["k"], 3⟩),
    .call (.reap 300000), .call (.work ⟨"b", ["k"], 3⟩), .go 0 (.at 0), .go 0 (.at 0), .go 1 (.at 0),
    .go 1 (.at 0), .go 2 (.at 300001), .go 3 (.at 300001), .go 3 (.at 300001),
    .go 3 { Env.at 300001 with outcome := .error "no" }, .go 3 (.at 300001), .go 3 (.at 300001),
    .go 3 (.at 300001), .go 1 { Env.at 300002 with outcome := .error "late" }, .go 1 (.at 300002),
    .go 1 (.at 300002), .go 1 (.at 300002)] (by simp)).counts
  exact absurd hc (by decide +kernel)

end ChronoSynth.Queue
