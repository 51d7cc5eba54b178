import ChronoSynth.Queue.TaskQueue

/-!
# Fencing

A history beside the table keeps the first outcome of every task, and who has taken which running task out
of the running state. The queue **fences** if a finished task keeps its outcome, and a running task is only
taken by the worker that holds the claim, or by the reaper when the claim is stale (`QueueFenced`).

The commands that report carry no predicate, so the table does not fence by itself: a worker whose claim was
reaped may report over the worker that has the task now, and revive a task that is finished. The queue
fences in exactly the runs in which no report comes to a task like this (`queueFenced_iff`).
-/

namespace ChronoSynth.Queue

/-! ## The history -/

/-- Status, result and error. -/
abbrev Outcome := TaskStatus × Option String × Option String

def TaskRow.outcome (row : TaskRow) : Outcome := (row.status, row.result, row.error)

inductive Actor
  | worker (workerId : String)
  | reaper (staleAfterMs : ℤ)
  deriving DecidableEq

def TaskCmd.actor : TaskCmd → Option Actor
  | .dequeue workerId _ | .complete workerId .. | .fail workerId .. | .reschedule workerId .. =>
    some (.worker workerId)
  | .reapRetryable staleAfterMs | .reapExhausted staleAfterMs _ => some (.reaper staleAfterMs)
  | .enqueue .. | .deleteBatch _ => none

/-- A running task has been taken out of the running state. -/
structure TaskChange where
  actor : Option Actor
  before : TaskRow
  dbNow : ℤ
  deriving DecidableEq

/-- The worker held the claim, or the claim was stale by the reaper's threshold. -/
def TaskChange.Lawful (change : TaskChange) : Prop :=
  match change.actor with
  | some (.worker workerId) => change.before.claimedBy = some workerId
  | some (.reaper staleAfterMs) => change.before.Stale change.dbNow staleAfterMs
  | none => False

instance (change : TaskChange) : Decidable change.Lawful := by
  unfold TaskChange.Lawful
  split <;> infer_instance

structure TaskLog where
  outcome : TaskId → Option Outcome
  changes : List TaskChange

namespace TaskLog

def empty : TaskLog := ⟨fun _ => none, []⟩

/-- The change a command makes of a row, if it takes it out of the running state. -/
def change (e : Env) (cmd : TaskCmd) (db : TaskDb) (row : TaskRow) : Option TaskChange :=
  match (exec e cmd db).1.byId row.id with
  | none => none
  | some row' =>
    if row.status = .running ∧ row'.status ≠ .running then some ⟨cmd.actor, row, e.dbNow⟩ else none

/-- What is added when a command has been executed. -/
def write (log : TaskLog) (e : Env) (cmd : TaskCmd) (db : TaskDb) : TaskLog where
  outcome id := (log.outcome id).or
    (((exec e cmd db).1.byId id).bind fun row => if row.Finished then some row.outcome else none)
  changes := log.changes ++ db.tasks.filterMap (change e cmd db)

end TaskLog

/-- The calls in progress, and the history. -/
abbrev TaskRun := TaskPool × TaskLog

def TaskRun.step (config : TaskQueueConfig) : TaskRun → TaskMove → TaskRun :=
  noting (Pool.step (TaskCall.start config) exec) (Pool.logging TaskLog.write)

def TaskRun.init : TaskRun := (Pool.idle .empty, .empty)

/-! ## What is claimed -/

structure Fenced (db : TaskDb) (log : TaskLog) : Prop where
  final : ∀ row ∈ db.tasks, ∀ o, log.outcome row.id = some o → row.outcome = o
  lawful : ∀ change ∈ log.changes, change.Lawful

def QueueFenced (config : TaskQueueConfig) (ms : List TaskMove) : Prop :=
  Always (TaskRun.step config) (fun x => Fenced x.1.db x.2) .init ms

/-- The worker and the task of a report, and what it sets. -/
def TaskCmd.report : TaskCmd → Option (String × TaskId × (TaskRow → TaskRow))
  | .complete workerId taskId result now => some (workerId, taskId, .completed result now)
  | .fail workerId taskId error now => some (workerId, taskId, .failed error now)
  | .reschedule workerId taskId retryCount availableAt error now =>
    some (workerId, taskId, .rescheduled retryCount availableAt error now)
  | _ => none

/-- The row is pending, or is running under a claim of the worker, or is finished with the very outcome
that is reported. -/
def TaskRow.Takes (row : TaskRow) (workerId : String) (row' : TaskRow) : Prop :=
  match row.status with
  | .pending => True
  | .running => row.claimedBy = some workerId
  | .completed | .failed => row'.outcome = row.outcome

/-- A report finds a row that takes it, or none. -/
def ReportsTaken (_ : TaskLog) (_ : Env) (cmd : TaskCmd) (db : TaskDb) : Prop :=
  ∀ workerId taskId g, cmd.report = some (workerId, taskId, g) →
    ∀ row ∈ db.tasks, row.id = taskId → row.Takes workerId (g row)

/-! ## What the commands do to a row -/

variable {e : Env} {cmd : TaskCmd} {db : TaskDb} {log : TaskLog} {row row' : TaskRow} {o : Outcome}
  {workerId : String} {taskId : TaskId} {g : TaskRow → TaskRow}

theorem TaskRow.finished_iff : row.Finished ↔ row.status ≠ .pending ∧ row.status ≠ .running := by
  unfold TaskRow.Finished
  cases row.status <;> decide

theorem rewrite_report (h : cmd.report = some (workerId, taskId, g)) :
    db.rewrite e cmd row = some (if row.id = taskId then g row else row) := by
  cases cmd with
  | complete | fail | reschedule =>
    obtain ⟨rfl, rfl, rfl⟩ := by simpa only [TaskCmd.report, Option.some.injEq, Prod.mk.injEq] using h
    rfl
  | _ => cases h

theorem report_status (h : cmd.report = some (workerId, taskId, g)) (row : TaskRow) :
    (g row).status ≠ .running ∧ cmd.actor = some (.worker workerId) := by
  cases cmd with
  | complete | fail | reschedule =>
    obtain ⟨rfl, rfl, rfl⟩ := by simpa only [TaskCmd.report, Option.some.injEq, Prod.mk.injEq] using h
    exact ⟨TaskStatus.noConfusion, rfl⟩
  | _ => cases h

theorem rewrite_cases (hcmd : cmd.report = none) (h : db.rewrite e cmd row = some row') :
    row' = row ∨ (row.status = .pending ∧ row'.status = .running) ∨
      ∃ staleAfterMs, cmd.actor = some (.reaper staleAfterMs) ∧ row.Stale e.dbNow staleAfterMs := by
  cases rewrite_effect h with
  | same => exact .inl rfl
  | claimed hpending => exact .inr (.inl ⟨hpending, rfl⟩)
  | completed | failed | rescheduled => cases hcmd
  | requeued hstale => exact .inr (.inr ⟨_, rfl, hstale⟩)
  | exhausted hstale => exact .inr (.inr ⟨_, rfl, hstale⟩)

theorem rewrite_finished (hC : ReportsTaken log e cmd db) (hrow : row ∈ db.tasks) (hfin : row.Finished)
    (h : db.rewrite e cmd row = some row') : row'.outcome = row.outcome := by
  have hne := TaskRow.finished_iff.1 hfin
  cases hcmd : cmd.report with
  | none =>
    obtain rfl | ⟨hp, -⟩ | ⟨_, -, hr, -⟩ := rewrite_cases hcmd h
    · rfl
    · exact absurd hp hne.1
    · exact absurd hr hne.2
  | some r =>
    obtain ⟨workerId, taskId, g⟩ := r
    rw [rewrite_report hcmd] at h
    obtain rfl := Option.some.inj h
    split
    next hid =>
      have htakes := hC workerId taskId g hcmd row hrow hid
      unfold TaskRow.Takes at htakes
      rcases hfin with hs | hs
      · simpa only [hs] using htakes
      · simpa only [hs] using htakes
    next => rfl

theorem rewrite_running (hC : ReportsTaken log e cmd db) (hrow : row ∈ db.tasks)
    (hrun : row.status = .running) (h : db.rewrite e cmd row = some row') (hne : row'.status ≠ .running) :
    TaskChange.Lawful ⟨cmd.actor, row, e.dbNow⟩ := by
  cases hcmd : cmd.report with
  | none =>
    obtain rfl | ⟨hp, -⟩ | ⟨staleAfterMs, hactor, hstale⟩ := rewrite_cases hcmd h
    · exact absurd hrun hne
    · rw [hrun] at hp
      cases hp
    · rw [hactor]
      exact hstale
  | some r =>
    obtain ⟨workerId, taskId, g⟩ := r
    rw [rewrite_report hcmd] at h
    obtain rfl := Option.some.inj h
    by_cases hid : row.id = taskId
    · have htakes := hC workerId taskId g hcmd row hrow hid
      rw [(report_status hcmd row).2]
      unfold TaskRow.Takes at htakes
      rw [hrun] at htakes
      exact htakes
    · rw [if_neg hid] at hne
      exact absurd hrun hne

/-! ## The invariant -/

/-- The outcomes of the finished rows, and no others, are in the history. -/
structure Recorded (db : TaskDb) (log : TaskLog) : Prop extends Fenced db log where
  keyed : Keyed db
  recorded : ∀ row ∈ db.tasks, row.Finished → log.outcome row.id = some row.outcome
  finished : ∀ row ∈ db.tasks, ∀ o, log.outcome row.id = some o → row.Finished
  unissued : ∀ id, db.issued ≤ id → log.outcome id = none

theorem recorded_empty : Recorded .empty .empty := by
  refine ⟨⟨?_, ?_⟩, .empty, ?_, ?_, ?_⟩ <;> simp [TaskDb.empty, TaskLog.empty]

theorem TaskLog.write_outcome (hk : Keyed db) (hrow : row' ∈ (exec e cmd db).1.tasks) :
    (log.write e cmd db).outcome row'.id =
      (log.outcome row'.id).or (if row'.Finished then some row'.outcome else none) := by
  simp only [TaskLog.write, hk.exec.byId hrow, Option.bind_some]

theorem Recorded.final_exec (h : Recorded db log) (hC : ReportsTaken log e cmd db)
    (hrow : row' ∈ (exec e cmd db).1.tasks) (ho : log.outcome row'.id = some o) : row'.outcome = o := by
  obtain ⟨row, hmem, hr⟩ | hnew := mem_exec.1 hrow
  · rw [TaskDb.rewrite_id hr] at ho
    rw [rewrite_finished hC hmem (h.finished row hmem o ho) hr]
    exact h.final row hmem o ho
  · rw [h.unissued _ (inserted_id hnew).1.ge] at ho
    cases ho

/-- **Step lemma.** -/
theorem Recorded.exec (h : Recorded db log) (hC : ReportsTaken log e cmd db) :
    Recorded (exec e cmd db).1 (log.write e cmd db) := by
  have houtcome : ∀ row' ∈ (Queue.exec e cmd db).1.tasks, ∀ o,
      (log.write e cmd db).outcome row'.id = some o → row'.outcome = o ∧ row'.Finished := by
    intro row' hrow' o ho
    rw [TaskLog.write_outcome h.keyed hrow'] at ho
    cases hlog : log.outcome row'.id with
    | some o' =>
      rw [hlog, Option.some_or] at ho
      obtain rfl := Option.some.inj ho
      have heq := h.final_exec hC hrow' hlog
      obtain ⟨row, hmem, hr⟩ | hnew := mem_exec.1 hrow'
      · rw [TaskDb.rewrite_id hr] at hlog
        have hfin := h.finished row hmem o' hlog
        have hsame := rewrite_finished hC hmem hfin hr
        refine ⟨heq, ?_⟩
        unfold TaskRow.Finished at hfin ⊢
        rwa [show row'.status = row.status from congrArg Prod.fst hsame]
      · rw [h.unissued _ (inserted_id hnew).1.ge] at hlog
        cases hlog
    | none =>
      rw [hlog, Option.none_or] at ho
      split at ho
      next hfin => exact ⟨Option.some.inj ho, hfin⟩
      next => cases ho
  refine ⟨⟨fun row' hrow' o ho => (houtcome row' hrow' o ho).1, ?_⟩, h.keyed.exec, ?_,
    fun row' hrow' o ho => (houtcome row' hrow' o ho).2, ?_⟩
  · intro change hchange
    rcases List.mem_append.1 hchange with hold | hnew
    · exact h.lawful change hold
    · obtain ⟨row, hrow, hc⟩ := List.mem_filterMap.1 hnew
      simp only [TaskLog.change, h.keyed.byId_exec hrow] at hc
      split at hc
      next => cases hc
      next row' hr =>
        split at hc
        next hrun =>
          rw [← Option.some.inj hc]
          exact rewrite_running hC hrow hrun.1 hr hrun.2
        next => cases hc
  · intro row' hrow' hfin
    have hor : (log.write e cmd db).outcome row'.id = (log.outcome row'.id).or (some row'.outcome) := by
      rw [TaskLog.write_outcome h.keyed hrow', if_pos hfin]
    cases hlog : log.outcome row'.id with
    | none => rw [hor, hlog, Option.none_or]
    | some o =>
      rw [hor, hlog, Option.some_or]
      rw [h.final_exec hC hrow' hlog]
  · intro id hid
    have hnone : (Queue.exec e cmd db).1.byId id = none := by
      cases hf : (Queue.exec e cmd db).1.byId id with
      | none => rfl
      | some row' =>
        obtain ⟨hmem, rfl⟩ := byId_spec hf
        exact absurd (h.keyed.exec.lt row' hmem) (not_lt.2 hid)
    simp only [TaskLog.write, h.unissued id (issued_le.trans hid), hnone, Option.bind_none,
      Option.none_or]

theorem Recorded.taken (h : Recorded db log) (hP : Fenced (Queue.exec e cmd db).1 (log.write e cmd db)) :
    ReportsTaken log e cmd db := by
  intro workerId taskId g hcmd row hrow hid
  have hr : db.rewrite e cmd row = some (g row) := by rw [rewrite_report hcmd, if_pos hid]
  have hmem : g row ∈ (Queue.exec e cmd db).1.tasks := mem_exec.2 (.inl ⟨row, hrow, hr⟩)
  have hfinal : row.Finished → (g row).outcome = row.outcome := by
    intro hfin
    refine hP.final (g row) hmem row.outcome ?_
    rw [TaskLog.write_outcome h.keyed hmem, TaskDb.rewrite_id hr, h.recorded row hrow hfin,
      Option.some_or]
  unfold TaskRow.Takes
  cases hs : row.status with
  | pending => trivial
  | running =>
    obtain ⟨hne, hactor⟩ := report_status hcmd row
    have hchange : ⟨cmd.actor, row, e.dbNow⟩ ∈ (log.write e cmd db).changes := by
      refine List.mem_append_right _ (List.mem_filterMap.2 ⟨row, hrow, ?_⟩)
      simp only [TaskLog.change, h.keyed.byId_exec hrow, hr]
      exact if_pos ⟨hs, hne⟩
    have hlawful := hP.lawful _ hchange
    rwa [TaskChange.Lawful, hactor] at hlawful
  | completed => exact hfinal (.inl hs)
  | failed => exact hfinal (.inr hs)

/-! ## Whole runs -/

/-- **The queue fences, exactly.** In a run of any workers' calls over the table, finished tasks keep their
outcomes and running tasks are only taken lawfully if and only if every report comes to a row that takes it,
or to none. -/
theorem queueFenced_iff (config : TaskQueueConfig) (ms : List TaskMove) :
    QueueFenced config ms ↔
      Along (TaskRun.step config) (fun x m => x.1.AtCommit (ReportsTaken x.2) m) .init ms :=
  Pool.always_iff_log recorded_empty (fun _ _ h => h.toFenced) (fun _ _ _ _ h hC => h.exec hC)
    fun _ _ _ _ h hP => h.taken hP

/-- A claim is reaped while its handler runs; the task is claimed and completed by another worker, and then
revived by the report of the first. -/
theorem finished_task_revived : ¬ ∀ config ms, QueueFenced config ms := by
  intro h
  have hf := (h ⟨1000, 604800000⟩ [.call (.enqueue "t" "k" "{}" 3 0), .call (.work ⟨"a", ["k"], 3⟩),
    .call (.reap 300000), .call (.work ⟨"b", ["k"], 3⟩), .go 0 (.at 0), .go 0 (.at 0), .go 1 (.at 0),
    .go 1 (.at 0), .go 2 (.at 300001), .go 3 (.at 300001), .go 3 (.at 300001), .go 3 (.at 300001),
    .go 3 (.at 300001), .go 3 (.at 300001), .go 1 { Env.at 300002 with outcome := .error "late" },
    .go 1 (.at 300002), .go 1 (.at 300002), .go 1 (.at 300002)]).last.final
  exact absurd hf (by decide +kernel)

end ChronoSynth.Queue
